import Mcxn947.GuestMemory

/-!
# The eFlexPWM

`hw/misc/mcxn_pwm.c`: a byte-addressed register file, the counter of submodule 0
as a periodic reload timer, its outputs with dead time, the capture input, the
output triggers and the fault input with its latch.
-/

namespace Mcxn947.Pwm

open MachineWords GuestMemory

structure PwmState where
  regs : Mem
  clkHz : ℕ
  (irq dmaReqVal valDmaLvl : Bool)
  capaPulses : ℕ
  (capaLevel irqFault faultLevel : Bool)
  reloadTimer : Option ℤ
  nextReloadNs : ℤ
  trigTimer : Option ℤ
  nextTrigNs : ℤ
  trigMask : BitVec 2
  trigPulses : Fin 2 → ℕ

def pwmSize : ℕ := 0x1000
def pwmSmStep : ℕ := 0x60
def pwmSmCount : ℕ := 4

def smInit : ℕ := 0x02
def smCtrl2 : ℕ := 0x04
def smCtrl : ℕ := 0x06
def smVal0 : ℕ := 0x0A
def smVal1 : ℕ := 0x0E
def smVal2 : ℕ := 0x12
def smVal3 : ℕ := 0x16
def smVal4 : ℕ := 0x1A
def smVal5 : ℕ := 0x1E
def smOctrl : ℕ := 0x22
def smSts : ℕ := 0x24
def smInten : ℕ := 0x26
def smDmaen : ℕ := 0x28
def smTctrl : ℕ := 0x2A
def smDismap0 : ℕ := 0x2C
def smDtcnt0 : ℕ := 0x30
def smDtcnt1 : ℕ := 0x32
def smCaptctrla : ℕ := 0x34
def smCval0 : ℕ := 0x40
def outen : ℕ := 0x180
def mctrl : ℕ := 0x188
def fctrl : ℕ := 0x18C
def fsts : ℕ := 0x18E

def octrlPola : HalfWord := 0x0400
def octrlPolb : HalfWord := 0x0200
def octrlPolx : HalfWord := 0x0100
def outenPwmaSm0 : HalfWord := 0x0100
def outenPwmbSm0 : HalfWord := 0x0010
def outenPwmxSm0 : HalfWord := 0x0001
def dismapDis0aF0 : HalfWord := 0x0001
def dismapDis0bF0 : HalfWord := 0x0010
def dismapDis0xF0 : HalfWord := 0x0100
def ctrl2Indep : HalfWord := 0x2000
def dmaenValde : HalfWord := 0x0200
def dmaenCa0de : HalfWord := 0x0010
def captctrlaArma : HalfWord := 0x0001
def stsRf : HalfWord := 0x1000
def stsCmpf : HalfWord := 0x003F
def stsCfa0 : HalfWord := 0x0400
def stsW1cMask : HalfWord := 0x7FFF
def mctrlRunMask : HalfWord := 0x0F00
def mctrlRunSm0 : HalfWord := 0x0100
def fstsFflagMask : HalfWord := 0x000F
def fstsFflag0 : HalfWord := 0x0001
def fstsFfpin0 : HalfWord := 0x0100
def fctrlFauto0 : HalfWord := 0x0100
def fctrlFlvl0 : HalfWord := 0x1000

variable (s : PwmState) (now : ℤ)

def pwmLd16 (off : ℕ) : HalfWord := s.regs (off + 1) ++ s.regs off

def pwmSt16 (off : ℕ) (v : HalfWord) : PwmState :=
  { s with regs := store s.regs off [v.extractLsb' 0 8, v.extractLsb' 8 8] }

def prsc : ℕ := (pwmLd16 s smCtrl).toNat / 16 % 8

def mcxnPwmUpdateIrq : PwmState :=
  { s with irq :=
      anyBit (pwmLd16 s smSts &&& pwmLd16 s smInten) (stsRf ||| stsCmpf ||| stsCfa0) }

def span : ℕ := (pwmLd16 s smVal1 - pwmLd16 s smInit).toNat + 1

def mcxnPwmPeriodNs : ℕ :=
  if s.clkHz = 0 then 0 else max 1000 (span s * 2 ^ prsc s * 10 ^ 9 / s.clkHz)

def mcxnPwmCounterNow : HalfWord :=
  let init := pwmLd16 s smInit
  let val1 := pwmLd16 s smVal1
  let period : ℤ := mcxnPwmPeriodNs s
  if period ≤ 0 ∨ s.reloadTimer.isNone then init
  else
    let remaining := min period (max 0 (s.nextReloadNs - now))
    let pos := init.toNat + ((period - remaining) * span s / period).toNat
    BitVec.ofNat 16 (min pos val1.toNat)

def mcxnPwmSetValDma (level : Bool) : PwmState :=
  if level = s.valDmaLvl then s else { s with valDmaLvl := level, dmaReqVal := level }

def edgeMatches (edgsel : ℕ) (rising falling : Bool) : Bool :=
  edgsel == 3 || (edgsel == 2 && rising) || (edgsel == 1 && falling)

def pulseCapa : PwmState :=
  if anyBit (pwmLd16 s smDmaen) dmaenCa0de then { s with capaPulses := s.capaPulses + 1 } else s

def mcxnPwmCaptureAEdge (s : PwmState) (level : Bool) (now : ℤ) : PwmState :=
  let capctrl := pwmLd16 s smCaptctrla
  let edgsel := capctrl.toNat / 4 % 4
  let rising := level && !s.capaLevel
  let falling := !level && s.capaLevel
  let s := { s with capaLevel := level }
  if !anyBit capctrl captctrlaArma ∨ edgsel = 0 then s
  else if !edgeMatches edgsel rising falling then s
  else
    let s := pwmSt16 s smCval0 (mcxnPwmCounterNow s now)
    let s := pwmSt16 s smSts (pwmLd16 s smSts ||| stsCfa0)
    pulseCapa (mcxnPwmUpdateIrq s)

def mcxnPwmUpdateFaultIrq : PwmState :=
  { s with irqFault := anyBit (pwmLd16 s fsts &&& fstsFflagMask) (pwmLd16 s fctrl) }

def faultActive : Bool := s.faultLevel == anyBit (pwmLd16 s fctrl) fctrlFlvl0

def evalFsts : HalfWord :=
  let v := pwmLd16 s fsts
  let v := if s.faultLevel then v ||| fstsFfpin0 else v &&& ~~~fstsFfpin0
  if faultActive s then v ||| fstsFflag0
  else if anyBit (pwmLd16 s fctrl) fctrlFauto0 then v &&& ~~~fstsFflag0
  else v

def mcxnPwmFaultEval : PwmState := mcxnPwmUpdateFaultIrq (pwmSt16 s fsts (evalFsts s))

def mcxnPwmSetFault (value : Bool) : PwmState := mcxnPwmFaultEval { s with faultLevel := value }

def inWindow (on off pos : HalfWord) : Bool :=
  if on ≤ off then on ≤ pos && pos < off else on ≤ pos || pos < off

def rawA (pos : HalfWord) : Bool :=
  if anyBit (pwmLd16 s smCtrl2) ctrl2Indep then
    inWindow (pwmLd16 s smVal2) (pwmLd16 s smVal3) pos
  else
    pwmLd16 s smVal2 + (pwmLd16 s smDtcnt0 >>> prsc s) ≤ pos && pos < pwmLd16 s smVal3

def rawB (pos : HalfWord) : Bool :=
  if anyBit (pwmLd16 s smCtrl2) ctrl2Indep then
    inWindow (pwmLd16 s smVal4) (pwmLd16 s smVal5) pos
  else
    pos < pwmLd16 s smVal2 || pwmLd16 s smVal3 + (pwmLd16 s smDtcnt1 >>> prsc s) ≤ pos

def rawX (pos : HalfWord) : Bool := pwmLd16 s smVal0 < pos && pos < pwmLd16 s smVal1

def gate (pol en dis : HalfWord) (level : Bool) : Bool :=
  let level := level ^^ anyBit (pwmLd16 s smOctrl) pol
  let level := level && anyBit (pwmLd16 s outen) en
  level && !(anyBit (pwmLd16 s fsts) fstsFflag0 && anyBit (pwmLd16 s smDismap0) dis)

structure Outputs where
  (a b x : Bool)

def outputsAt (pos : HalfWord) : Outputs where
  a := gate s octrlPola outenPwmaSm0 dismapDis0aF0 (rawA s pos)
  b := gate s octrlPolb outenPwmbSm0 dismapDis0bF0 (rawB s pos)
  x := gate s octrlPolx outenPwmxSm0 dismapDis0xF0 (rawX s pos)

def mcxnPwmOutputs : Outputs := outputsAt s (mcxnPwmCounterNow s now)

def compareTime (valn : HalfWord) : ℤ :=
  let period : ℤ := mcxnPwmPeriodNs s
  let t := s.nextReloadNs - period +
    ((valn - pwmLd16 s smInit).toNat : ℤ) * period / (span s : ℤ)
  if t ≤ now then t + period * ((now - t) / period + 1) else t

def trigCandidate (found : ℤ × BitVec 2) (n : Fin 6) : ℤ × BitVec 2 :=
  let valn := pwmLd16 s (smVal0 + n.val * 4)
  if (pwmLd16 s smTctrl).getLsbD n.val = false then found
  else if valn < pwmLd16 s smInit ∨ pwmLd16 s smVal1 < valn then found
  else
    let t := compareTime s now valn
    let line : BitVec 2 := 1 <<< (n.val % 2)
    if found.1 = 0 ∨ t < found.1 then (t, line)
    else if t = found.1 then (t, found.2 ||| line)
    else found

def mcxnPwmNextTrig : ℤ × BitVec 2 :=
  if (pwmLd16 s smTctrl).toNat % 64 = 0 ∨ mcxnPwmPeriodNs s = 0 ∨ s.reloadTimer.isNone then (0, 0)
  else (List.finRange 6).foldl (trigCandidate s now) (0, 0)

def mcxnPwmArmTrig : PwmState :=
  let (t, mask) := mcxnPwmNextTrig s now
  if t = 0 then { s with trigTimer := none, trigMask := 0 }
  else { s with nextTrigNs := t, trigMask := mask, trigTimer := some t }

def mcxnPwmTrigTick : PwmState :=
  let pulses := fun i => s.trigPulses i + (if s.trigMask.getLsbD i.val then 1 else 0)
  mcxnPwmArmTrig { s with trigTimer := none, trigPulses := pulses } now

def requestVal : PwmState :=
  if anyBit (pwmLd16 s smDmaen) dmaenValde then mcxnPwmSetValDma s true else s

def mcxnPwmReloadTick (s : PwmState) (now : ℤ) : PwmState :=
  let s := pwmSt16 { s with reloadTimer := none } smSts (pwmLd16 s smSts ||| stsRf)
  let s := requestVal (mcxnPwmUpdateIrq s)
  let period := mcxnPwmPeriodNs s
  if period = 0 then s
  else
    let next := s.nextReloadNs + period
    mcxnPwmArmTrig { s with nextReloadNs := next, reloadTimer := some next } now

def pwmWriteMctrl (s : PwmState) (value : HalfWord) (now : ℤ) : PwmState :=
  let run := value &&& mctrlRunMask
  let s := pwmSt16 s mctrl run
  let period := mcxnPwmPeriodNs s
  if anyBit run mctrlRunSm0 ∧ 0 < period then
    let next := now + period
    mcxnPwmArmTrig { s with nextReloadNs := next, reloadTimer := some next } now
  else { s with reloadTimer := none, trigTimer := none }

def pwmWriteSts (s : PwmState) (sts : ℕ) (value : HalfWord) : PwmState :=
  let s := pwmSt16 s sts (pwmLd16 s sts &&& ~~~(value &&& stsW1cMask))
  if sts = smSts then mcxnPwmUpdateIrq s else s

def pwmWriteFsts (value : HalfWord) : PwmState :=
  let blocked := if faultActive s then fstsFflag0 else 0
  let clr := value &&& fstsFflagMask &&& ~~~blocked
  mcxnPwmUpdateFaultIrq (pwmSt16 s fsts (pwmLd16 s fsts &&& ~~~clr))

def pwmStoreBytes (offset : ℕ) (value : Word) (size : ℕ) : PwmState :=
  { s with regs := store s.regs offset (((wordBytes value).take size).take (pwmSize - offset)) }

def Touches (offset size first last : ℕ) : Prop := offset ≤ last ∧ first < offset + size
deriving Decidable

def consumeVal (offset size : ℕ) : PwmState :=
  if s.valDmaLvl ∧ Touches offset size smVal0 (smVal5 + 1) then mcxnPwmSetValDma s false else s

def reframeTrig (offset size : ℕ) (now : ℤ) : PwmState :=
  if Touches offset size smInit (smTctrl + 1) ∧ s.reloadTimer.isSome then mcxnPwmArmTrig s now
  else s

def pwmWriteGeneric (s : PwmState) (offset : ℕ) (value : Word) (size : ℕ) (now : ℤ) :
    PwmState :=
  let s := pwmStoreBytes s offset value size
  let s := if Touches offset size smInten (smInten + 1) then mcxnPwmUpdateIrq s else s
  let s := if Touches offset size fctrl (fctrl + 1) then mcxnPwmFaultEval s else s
  reframeTrig (consumeVal s offset size) offset size now

def IsSmSts (offset : ℕ) : Prop := offset < pwmSmCount * pwmSmStep ∧ offset % pwmSmStep = smSts
deriving Decidable

def mcxnPwmWrite (offset : ℕ) (value : Word) (size : ℕ) (now : ℤ) : PwmState :=
  if size = 2 ∧ offset = mctrl then pwmWriteMctrl s (value.setWidth 16) now
  else if size = 2 ∧ IsSmSts offset then pwmWriteSts s offset (value.setWidth 16)
  else if size = 2 ∧ offset = fsts then pwmWriteFsts s (value.setWidth 16)
  else pwmWriteGeneric s offset value size now

def resetSubmodule (s : PwmState) (n : ℕ) : PwmState :=
  let b := n * pwmSmStep
  let s := pwmSt16 s (b + smCtrl) 0x0400
  let s := pwmSt16 s (b + smDtcnt0) 0x07FF
  let s := pwmSt16 s (b + smDtcnt1) 0x07FF
  pwmSt16 s (b + smDismap0) 0xFFFF

def mcxnPwmReset (s : PwmState) : PwmState :=
  let s := (List.range pwmSmCount).foldl resetSubmodule { s with regs := fun _ => 0 }
  { s with
    reloadTimer := none, trigTimer := none, trigMask := 0, irq := false,
    valDmaLvl := false, dmaReqVal := false, capaLevel := false,
    faultLevel := false, irqFault := false }

def powerOn (hz : ℕ) : PwmState :=
  mcxnPwmReset
    { regs := fun _ => 0, clkHz := hz, irq := false, dmaReqVal := false, valDmaLvl := false,
      capaPulses := 0, capaLevel := false, irqFault := false, faultLevel := false,
      reloadTimer := none, nextReloadNs := 0, trigTimer := none, nextTrigNs := 0,
      trigMask := 0, trigPulses := fun _ => 0 }

inductive Event
  | write (offset : ℕ) (value : Word) (size : ℕ) (now : ℤ)
  | setFault (value : Bool)
  | setCapa (value : Bool) (now : ℤ)
  | reloadTick (now : ℤ)
  | trigTick (now : ℤ)
  | clock (hz : ℕ)
  | reset

def step : Event → PwmState
  | .write offset value size now => mcxnPwmWrite s offset value size now
  | .setFault value => mcxnPwmSetFault s value
  | .setCapa value now => mcxnPwmCaptureAEdge s value now
  | .reloadTick now => mcxnPwmReloadTick s now
  | .trigTick now => mcxnPwmTrigTick s now
  | .clock hz => { s with clkHz := hz }
  | .reset => mcxnPwmReset s

end Mcxn947.Pwm
