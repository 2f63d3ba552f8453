import Mcxn947.MachineWords

/-!
# The RTC

`hw/misc/mcxn_rtc.c`: a calendar of 16-bit registers, two to a 32-bit word, with a
1 Hz tick that sets its next deadline from the last one.
-/

namespace Mcxn947.Rtc

open MachineWords

def rYearmon : ℕ := 0x00
def rDays : ℕ := 0x02
def rHourmin : ℕ := 0x04
def rSeconds : ℕ := 0x06
def rAlmYearmon : ℕ := 0x08
def rAlmDays : ℕ := 0x0A
def rAlmHourmin : ℕ := 0x0C
def rAlmSeconds : ℕ := 0x0E
def rCtrl : ℕ := 0x10
def rIsr : ℕ := 0x14
def rSubsecondCnt : ℕ := 0x804
def rWakeTimerCtrl : ℕ := 0xC00
def rWakeTimerCnt : ℕ := 0xC0C

def ctrlSwr : HalfWord := 1 <<< 8
def isrW1cMask : HalfWord := 0xFFFC
def isrAlmIs : Word := 1 <<< 2
def isrIs1hz : Word := 1 <<< 6
def secMask : HalfWord := 0x003F
def minMask : HalfWord := 0x003F
def hourMask : HalfWord := 0x1F00
def hmMask : HalfWord := hourMask ||| minMask
def dayMask : HalfWord := 0x001F
def monMask : HalfWord := 0x000F
def wakeTimerWakeFlag : Word := 1 <<< 1

def nanosecondsPerSecond : ℕ := 1000000000

structure RtcState where
  regs : ℕ → Word
  tick : Option ℕ
  nextTickNs : ℕ
  irq : Bool

variable (s : RtcState)

def RtcState.setWord (off : ℕ) (v : Word) : RtcState :=
  { s with regs := Function.update s.regs (off / 4) v }

def mcxnRtcIs16bit (offset : ℕ) : Bool := offset < 0x800

def halfOf (off : ℕ) (word : Word) : HalfWord :=
  if off / 2 % 2 = 1 then (word >>> 16).setWidth 16 else word.setWidth 16

def withHalf (off : ℕ) (word : Word) (half : HalfWord) : Word :=
  if off / 2 % 2 = 1 then (word &&& 0x0000FFFF) ||| (half.setWidth 32 <<< 16)
  else (word &&& 0xFFFF0000) ||| half.setWidth 32

def RtcState.interrupts : Bool :=
  anyBit (halfOf rIsr (s.regs (rIsr / 4))) (halfOf 0x16 (s.regs (rIsr / 4)))

def mcxnRtcUpdateIrq : RtcState := { s with irq := s.interrupts }

def rtcGet16 (off : ℕ) : HalfWord := halfOf off (s.regs (off / 4))

def rtcSet16 (off : ℕ) (val : HalfWord) : RtcState :=
  s.setWord off (withHalf off (s.regs (off / 4)) val)

def rtcCarry (sec min hour day : ℕ) : ℕ × ℕ × ℕ × ℕ :=
  if sec + 1 < 60 then (sec + 1, min, hour, day)
  else if min + 1 < 60 then (0, min + 1, hour, day)
  else if hour + 1 < 24 then (0, 0, hour + 1, day)
  else (0, 0, 0, day + 1)

def rtcAlarm : Bool :=
  rtcGet16 s rSeconds &&& secMask == rtcGet16 s rAlmSeconds &&& secMask &&
    rtcGet16 s rHourmin &&& hmMask == rtcGet16 s rAlmHourmin &&& hmMask &&
    rtcGet16 s rDays &&& dayMask == rtcGet16 s rAlmDays &&& dayMask &&
    rtcGet16 s rYearmon &&& monMask == rtcGet16 s rAlmYearmon &&& monMask

def rtcAdvance (s : RtcState) : RtcState :=
  let hm := rtcGet16 s rHourmin
  let days := rtcGet16 s rDays
  let (sec, min, hour, day) := rtcCarry (rtcGet16 s rSeconds &&& secMask).toNat
    (hm &&& minMask).toNat ((hm &&& hourMask) >>> 8).toNat (days &&& dayMask).toNat
  let s := rtcSet16 s rSeconds (BitVec.ofNat 16 sec &&& secMask)
  let s := rtcSet16 s rHourmin ((BitVec.ofNat 16 hour <<< 8) ||| BitVec.ofNat 16 min)
  rtcSet16 s rDays ((days &&& ~~~dayMask) ||| (BitVec.ofNat 16 day &&& dayMask))

def mcxnRtcTick (s : RtcState) : RtcState :=
  let s := rtcAdvance s
  let s := s.setWord rIsr (s.regs (rIsr / 4) ||| isrIs1hz)
  let s := if rtcAlarm s then s.setWord rIsr (s.regs (rIsr / 4) ||| isrAlmIs) else s
  let s := mcxnRtcUpdateIrq s
  { s with
    nextTickNs := s.nextTickNs + nanosecondsPerSecond
    tick := some (s.nextTickNs + nanosecondsPerSecond) }

def mcxnRtcRead (offset size : ℕ) : Word :=
  let word := s.regs (offset / 4)
  if mcxnRtcIs16bit offset ∧ size ≤ 2 then (halfOf offset word).setWidth 32 else word

def rtcStore16 (word : Word) (reg : ℕ) (half : HalfWord) : HalfWord :=
  if reg = rCtrl then half &&& ~~~ctrlSwr
  else if reg = rIsr then word.setWidth 16 &&& ~~~(half &&& isrW1cMask)
  else half

def rtcWrite16 (offset : ℕ) (v : Word) : RtcState :=
  let reg := offset - offset % 2
  let word := s.regs (reg / 4)
  mcxnRtcUpdateIrq (s.setWord reg (withHalf reg word (rtcStore16 word reg (v.setWidth 16))))

def rtcWriteWakeTimerCtrl (word v : Word) : Word :=
  if anyBit v wakeTimerWakeFlag then
    ((word &&& ~~~wakeTimerWakeFlag) &&& wakeTimerWakeFlag) ||| (v &&& ~~~wakeTimerWakeFlag)
  else (word &&& wakeTimerWakeFlag) ||| v

def mcxnRtcWrite (offset : ℕ) (v : Word) : RtcState :=
  if mcxnRtcIs16bit offset then rtcWrite16 s offset v
  else if offset = rSubsecondCnt ∨ offset = rWakeTimerCnt then s
  else if offset = rWakeTimerCtrl then
    s.setWord offset (rtcWriteWakeTimerCtrl (s.regs (offset / 4)) v)
  else s.setWord offset v

def mcxnRtcReset : RtcState :=
  { s with regs := Function.update (fun _ => 0) (rDays / 4) (1 <<< 16), irq := false }

def RtcState.realized (now : ℕ) : RtcState where
  regs := fun _ => 0
  tick := some (now + nanosecondsPerSecond)
  nextTickNs := now + nanosecondsPerSecond
  irq := false

end Mcxn947.Rtc
