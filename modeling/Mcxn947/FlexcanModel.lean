import Mcxn947.MachineWords

/-!
# The FlexCAN controller

`hw/misc/mcxn_flexcan.c`: 32 message buffers in the register window.
-/

namespace Mcxn947.Flexcan

open MachineWords

def rMcr : ℕ := 0x000
def rCtrl1 : ℕ := 0x004
def rRxmgmask : ℕ := 0x010
def rEsr1 : ℕ := 0x020
def rImask1 : ℕ := 0x028
def rIflag1 : ℕ := 0x030
def rEsr2 : ℕ := 0x038
def rCrcr : ℕ := 0x044
def rRxfir : ℕ := 0x04C
def rFdcrc : ℕ := 0xC08

def ctrl1Lpb : Word := 1 <<< 12

def mbBase : ℕ := 0x080
def mbStride : ℕ := 0x010
def mbCount : ℕ := 32
def codeRxEmpty : Word := 0x4
def codeRxFull : Word := 0x2
def codeRxOverrun : Word := 0x6
def codeTxData : Word := 0xC

def mbSrr : Word := 1 <<< 22
def mbIde : Word := 1 <<< 21
def mbRtr : Word := 1 <<< 20
def mbDlc (cs : Word) : ℕ := ((cs >>> 16) &&& 0xF).toNat
def mbCode (cs : Word) : Word := (cs >>> 24) &&& 0xF

def mcrLpmack : Word := 1 <<< 20
def mcrSupv : Word := 1 <<< 23
def mcrFrzack : Word := 1 <<< 24
def mcrSoftrst : Word := 1 <<< 25
def mcrNotrdy : Word := 1 <<< 27
def mcrHalt : Word := 1 <<< 28
def mcrFrz : Word := 1 <<< 30
def mcrMdis : Word := 1 <<< 31
def mcrReset : Word :=
  mcrMdis ||| mcrFrz ||| mcrHalt ||| mcrNotrdy ||| mcrSupv ||| mcrLpmack ||| 0x0000000F

def qemuCanEffFlag : Word := 0x80000000
def qemuCanRtrFlag : Word := 0x40000000
def qemuCanErrFlag : Word := 0x20000000
def qemuCanSffMask : Word := 0x000007FF
def qemuCanEffMask : Word := 0x1FFFFFFF

def flexcanSize : ℕ := 0x4000

structure CanFrame where
  canId : Word
  canDlc : ℕ
  data : ℕ → Byte

structure FlexcanState where
  regs : ℕ → Word
  (canbus irq : Bool)

variable (s : FlexcanState) (f : CanFrame)

def FlexcanState.reg (off : ℕ) : Word := s.regs (off / 4)

def FlexcanState.setWord (idx : ℕ) (v : Word) : FlexcanState :=
  { s with regs := Function.update s.regs idx v }

def FlexcanState.setReg (off : ℕ) (v : Word) : FlexcanState := s.setWord (off / 4) v

def mbIdx (mb k : ℕ) : ℕ := (mbBase + mb * mbStride) / 4 + k

def FlexcanState.mbWord (mb k : ℕ) : Word := s.regs (mbIdx mb k)

def flexcanMcrSettle (mcr : Word) : Word :=
  let freeze := anyBit mcr mcrFrz && anyBit mcr mcrHalt
  let disable := anyBit mcr mcrMdis
  let mcr := mcr &&& ~~~(mcrFrzack ||| mcrLpmack ||| mcrNotrdy)
  if disable then mcr ||| (mcrLpmack ||| mcrNotrdy)
  else if freeze then mcr ||| (mcrFrzack ||| mcrNotrdy)
  else mcr

def FlexcanState.interrupts : Bool := anyBit (s.reg rIflag1) (s.reg rImask1)

def flexcanUpdateIrq : FlexcanState := { s with irq := s.interrupts }

def flexcanEnabled : Bool := !anyBit (s.reg rMcr) mcrMdis && !anyBit (s.reg rMcr) mcrNotrdy

def FlexcanState.mbByte (mb i : ℕ) : Byte :=
  (s.mbWord mb (2 + i / 4) >>> (24 - 8 * (i % 4))).setWidth 8

def flexcanFrame (tx : ℕ) : CanFrame :=
  let cs := s.mbWord tx 0
  let id := s.mbWord tx 1
  let len := if 8 < mbDlc cs then 8 else mbDlc cs
  let canId :=
    if anyBit cs mbIde then (id &&& qemuCanEffMask) ||| qemuCanEffFlag
    else (id >>> 18) &&& qemuCanSffMask
  { canId := if anyBit cs mbRtr then canId ||| qemuCanRtrFlag else canId
    canDlc := len
    data := fun i => if i < len then s.mbByte tx i else 0 }

def Listens (id : Word) (mb : ℕ) : Prop :=
  (mbCode (s.mbWord mb 0) = codeRxEmpty ∨ mbCode (s.mbWord mb 0) = codeRxFull ∨
      mbCode (s.mbWord mb 0) = codeRxOverrun) ∧
    (id ^^^ s.mbWord mb 1) &&& s.reg rRxmgmask = 0
deriving Decidable

def deliveredCode (cs : Word) : Word :=
  if mbCode cs = codeRxEmpty then codeRxFull else codeRxOverrun

def flexcanFill (s : FlexcanState) (mb len : ℕ) (data : ℕ → Byte) : FlexcanState :=
  (List.range len).foldl
    (fun s i =>
      s.setWord (mbIdx mb (2 + i / 4))
        (s.mbWord mb (2 + i / 4) ||| ((data i).setWidth 32 <<< (24 - 8 * (i % 4)))))
    ((s.setWord (mbIdx mb 2) 0).setWord (mbIdx mb 3) 0)

def flexcanDeliver (s : FlexcanState) (f : CanFrame) (mb : ℕ) (rxId : Word) (eff rtr : Bool)
    (len : ℕ) : FlexcanState :=
  let code := deliveredCode (s.mbWord mb 0)
  let s := flexcanFill (s.setWord (mbIdx mb 1) rxId) mb len f.data
  let s := s.setWord (mbIdx mb 0)
    ((code <<< 24) ||| (BitVec.ofNat 32 len <<< 16) |||
      (if eff then mbIde ||| mbSrr else 0) ||| (if rtr then mbRtr else 0))
  flexcanUpdateIrq (s.setReg rIflag1 (s.reg rIflag1 ||| ((1 : Word) <<< mb)))

def frameId : Word :=
  if anyBit f.canId qemuCanEffFlag then f.canId &&& qemuCanEffMask
  else (f.canId &&& qemuCanSffMask) <<< 18

def flexcanBusReceive : FlexcanState :=
  if anyBit f.canId qemuCanErrFlag then s
  else if !flexcanEnabled s then s
  else
    match (List.range mbCount).find? (Listens s (frameId f)) with
    | some mb =>
      flexcanDeliver s f mb (frameId f) (anyBit f.canId qemuCanEffFlag)
        (anyBit f.canId qemuCanRtrFlag) (if 8 < f.canDlc then 8 else f.canDlc)
    | none => s

def flexcanBusCanReceive : Bool := flexcanEnabled s

def flexcanLoopback (s : FlexcanState) (tx : ℕ) : FlexcanState :=
  let tcs := s.mbWord tx 0
  let tid := s.mbWord tx 1
  match (List.range mbCount).find? (fun mb => mb ≠ tx ∧ Listens s tid mb) with
  | some mb =>
    let code := deliveredCode (s.mbWord mb 0)
    let s := s.setWord (mbIdx mb 0) ((code <<< 24) ||| (tcs &&& 0x00FF0000))
    let s := s.setWord (mbIdx mb 1) tid
    let s := s.setWord (mbIdx mb 2) (s.mbWord tx 2)
    let s := s.setWord (mbIdx mb 3) (s.mbWord tx 3)
    s.setReg rIflag1 (s.reg rIflag1 ||| ((1 : Word) <<< mb))
  | none => s

def flexcanTransmit (s : FlexcanState) (tx : ℕ) : FlexcanState × Option CanFrame :=
  if !flexcanEnabled s then (s, none)
  else
    let lpb := anyBit (s.reg rCtrl1) ctrl1Lpb
    let done (s : FlexcanState) :=
      flexcanUpdateIrq (s.setReg rIflag1 (s.reg rIflag1 ||| ((1 : Word) <<< tx)))
    if s.canbus && !lpb then (done s, some (flexcanFrame s tx))
    else if lpb then (done (flexcanLoopback s tx), none)
    else (done s, none)

def FlexcanReadOnly (off : ℕ) : Prop :=
  off / 4 = rEsr2 / 4 ∨ off / 4 = rCrcr / 4 ∨ off / 4 = rRxfir / 4 ∨ off / 4 = rFdcrc / 4
deriving Decidable

def flexcanMask (off size : ℕ) : Word :=
  if size = 4 then 0xFFFFFFFF else (((1 : Word) <<< (size * 8)) - 1) <<< ((off % 4) * 8)

def IsMbCs (off : ℕ) : Prop :=
  mbBase ≤ off ∧ off < mbBase + mbCount * mbStride ∧ (off - mbBase) % mbStride = 0
deriving Decidable

def flexcanWrite (s : FlexcanState) (off size : ℕ) (value : Word) :
    FlexcanState × Option CanFrame :=
  let mask := flexcanMask off size
  let lanes := (value <<< ((off % 4) * 8)) &&& mask
  let val := (s.reg off &&& ~~~mask) ||| lanes
  if flexcanSize ≤ off then (s, none)
  else if off / 4 = rMcr / 4 then
    (s.setReg off (flexcanMcrSettle (val &&& ~~~mcrSoftrst)), none)
  else if off / 4 = rEsr1 / 4 then (s.setReg off (s.reg off &&& ~~~lanes), none)
  else if off / 4 = rIflag1 / 4 then
    (flexcanUpdateIrq (s.setReg off (s.reg off &&& ~~~lanes)), none)
  else if off / 4 = rImask1 / 4 then (flexcanUpdateIrq (s.setReg off val), none)
  else if FlexcanReadOnly off then (s, none)
  else
    let s := s.setReg off val
    if IsMbCs off ∧ mbCode val = codeTxData then flexcanTransmit s ((off - mbBase) / mbStride)
    else (s, none)

def resetTable : List (ℕ × Word) :=
  [(0x000, 0xD890000F), (0x034, 0x00A00000), (0xB00, 0x00000100), (0xB10, 0x00000008),
    (0xC00, 0x80000100)]

def mcxnFlexcanReset (s : FlexcanState) : FlexcanState :=
  (resetTable.foldl (fun s e => FlexcanState.setReg s e.1 e.2)
    { s with regs := fun _ => 0 }).setReg rMcr
    mcrReset

def mcxnFlexcanLoad (regs : ℕ → Word) : FlexcanState := flexcanUpdateIrq { s with regs := regs }

def FlexcanState.created (canbus : Bool) : FlexcanState := ⟨fun _ => 0, canbus, false⟩

end Mcxn947.Flexcan
