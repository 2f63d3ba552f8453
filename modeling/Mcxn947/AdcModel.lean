import Mcxn947.LevelLines
import Mcxn947.MachineWords

/-!
# The ADC

`hw/misc/mcxn_adc.c`: a conversion reads the operator's value of the channel that
the triggered command selects and pushes it into one of two result FIFOs; each FIFO
asks the eDMA to be drained while it holds more than its watermark.
-/

namespace Mcxn947.Adc

open MachineWords LevelLines

abbrev FifoIdx := Fin 2

def rVerid : ℕ := 0x000
def rParam : ℕ := 0x004
def rCtrl : ℕ := 0x010
def rStat : ℕ := 0x014
def rIe : ℕ := 0x018
def rDe : ℕ := 0x01C
def rCfg : ℕ := 0x020
def rSwtrig : ℕ := 0x034
def rTctrl (trig : ℕ) : ℕ := 0x0A0 + trig * 4
def rFctrl (f : FifoIdx) : ℕ := 0x0E0 + f.val * 4
def rGcc0 : ℕ := 0x0F0
def rGcc1 : ℕ := 0x0F4
def rCmdBase : ℕ := 0x100
def rResfifo (f : FifoIdx) : ℕ := 0x300 + f.val * 4

def ctrlAdcen : Word := 1 <<< 0
def ctrlRst : Word := 1 <<< 1
def ctrlCalReq : Word := 1 <<< 3
def ctrlCalofs : Word := 1 <<< 4
def ctrlRstfifo (f : FifoIdx) : Word := (1 : Word) <<< (8 + f.val)

def statRdy (f : FifoIdx) : Word := (1 : Word) <<< (2 * f.val)
def statFof (f : FifoIdx) : Word := (1 : Word) <<< (2 * f.val + 1)
def statTexcInt : Word := 1 <<< 8
def statTcompInt : Word := 1 <<< 9
def statCalRdy : Word := 1 <<< 10

def ieTcompIe : Word := 1 <<< 16
def deFwmde (f : FifoIdx) : Word := (1 : Word) <<< f.val
def fctrlFcountMask : Word := 0x1F
def gccRdy : Word := 1 <<< 24
def resfifoValid : Word := 1 <<< 31
def adcVeridValue : Word := 0x02000209
def adcParamValue : Word := 0x0F0F0F08
def adcChDefault : HalfWord := 0x0800
def tctrlFifoSelA : Word := 1 <<< 1
def tctrlHten : Word := 1 <<< 0

def fifoDepth : ℕ := 16

structure AdcState where
  regs : ℕ → Word
  adcCh : Fin 16 → HalfWord
  fifo : FifoIdx → List Word
  irq : Bool
  dmaReq : Lines FifoIdx

variable (s : AdcState) (f : FifoIdx)

def AdcState.reg (off : ℕ) : Word := s.regs (off / 4)

def AdcState.setReg (off : ℕ) (v : Word) : AdcState :=
  { s with regs := Function.update s.regs (off / 4) v }

def AdcState.setFifo (results : List Word) : AdcState :=
  { s with fifo := Function.update s.fifo f results }

def adcFwmark : ℕ := ((s.reg (rFctrl f) >>> 16) &&& 0xF).toNat

def AdcState.asks : Bool := anyBit (s.reg rDe) (deFwmde f) && adcFwmark s f < (s.fifo f).length

def AdcState.interrupts : Bool :=
  anyBit (s.reg rStat &&& s.reg rIe)
      (statRdy 0 ||| statFof 0 ||| statRdy 1 ||| statFof 1 ||| statTexcInt) ||
    (anyBit (s.reg rStat) statTcompInt && anyBit (s.reg rIe) ieTcompIe)

def mcxnAdcUpdateIrq : AdcState :=
  { s with
    irq := s.interrupts, dmaReq := s.dmaReq.publishAll [0, 1] s.asks }

def adcUpdateRdy : AdcState :=
  s.setReg rStat
    (if adcFwmark s f < (s.fifo f).length then s.reg rStat ||| statRdy f
      else s.reg rStat &&& ~~~statRdy f)

def mcxnAdcUpdateStatus : AdcState := mcxnAdcUpdateIrq (adcUpdateRdy (adcUpdateRdy s 0) 1)

def adcFifoPush (val : Word) : AdcState :=
  -- a full FIFO keeps its contents and drops the arriving result
  if fifoDepth ≤ (s.fifo f).length then s.setReg rStat (s.reg rStat ||| statFof f)
  else s.setFifo f (s.fifo f ++ [val])

def adcFifoPop : Word × AdcState :=
  match s.fifo f with
  | [] => (0, s)
  | val :: rest => (val, s.setFifo f rest)

def ctz32 (v : Word) : ℕ := (List.range 32).findIdx v.getLsbD

def adcChannel (ch : ℕ) : Fin 16 := if h : ch < 16 then ⟨ch, h⟩ else 0

def mcxnAdcDoConversion (swtrig : Word) : AdcState :=
  if !anyBit (s.reg rCtrl) ctrlAdcen then s
  else
    let trig := if swtrig ≠ 0 then ctz32 swtrig else 0
    let cmd : Word := if trig < 4 then (s.reg (rTctrl trig) >>> 24) &&& 0xF else 0
    let ch : ℕ :=
      if 1 ≤ cmd.toNat ∧ cmd.toNat ≤ 15 then
        (s.reg (rCmdBase + (cmd.toNat - 1) * 8) &&& 0x1F).toNat
      else 0
    let fifo : FifoIdx :=
      if trig < 4 ∧ anyBit (s.reg (rTctrl trig)) tctrlFifoSelA then 1 else 0
    mcxnAdcUpdateStatus (adcFifoPush s fifo
      ((s.adcCh (adcChannel ch)).setWidth 32 ||| resfifoValid ||| ((cmd &&& 0xF) <<< 24)))

def mcxnAdcHwTrigger (trig : ℤ) (level : Bool) : AdcState :=
  if !level ∨ trig < 0 ∨ 4 ≤ trig then s
  else if !anyBit (s.reg (rTctrl trig.toNat)) tctrlHten then s
  else mcxnAdcDoConversion s ((1 : Word) <<< trig.toNat)

def mcxnAdcRead (offset : ℕ) : Word × AdcState :=
  if offset = rGcc0 ∨ offset = rGcc1 then
    (if anyBit (s.reg rStat) statCalRdy then gccRdy else 0, s)
  else if offset = rVerid then (adcVeridValue, s)
  else if offset = rParam then (adcParamValue, s)
  else if offset = rSwtrig then (0, s)
  else if offset = rFctrl 0 ∨ offset = rFctrl 1 then
    let f : FifoIdx := if offset = rFctrl 1 then 1 else 0
    ((s.reg offset &&& ~~~fctrlFcountMask) |||
      (BitVec.ofNat 32 (s.fifo f).length &&& fctrlFcountMask), s)
  else if offset = rResfifo 0 ∨ offset = rResfifo 1 then
    let popped := adcFifoPop s (if offset = rResfifo 1 then 1 else 0)
    (popped.1, mcxnAdcUpdateStatus popped.2)
  else (s.reg offset, s)

def adcRstfifo : AdcState := (s.setFifo f []).setReg rStat (s.reg rStat &&& ~~~statFof f)

def adcWriteCtrl (s : AdcState) (v : Word) : AdcState :=
  let s :=
    if anyBit v (ctrlCalofs ||| ctrlCalReq) then s.setReg rStat (s.reg rStat ||| statCalRdy)
    else s
  let s :=
    if anyBit v ctrlRst then { s with fifo := fun _ => [] }.setReg rStat 0 else s
  let s := if anyBit v (ctrlRstfifo 0) then adcRstfifo s 0 else s
  let s := if anyBit v (ctrlRstfifo 1) then adcRstfifo s 1 else s
  mcxnAdcUpdateStatus (s.setReg rCtrl (v &&& ~~~(ctrlRst ||| ctrlRstfifo 0 ||| ctrlRstfifo 1)))

/-- A write that reaches the plain store at the end: the `TCTRLn` registers and
everything without a case of its own, the inner bytes of `DE` and `FCTRLn`
included. -/
def AdcPlain (offset : ℕ) : Prop :=
  offset ≠ rVerid ∧ offset ≠ rParam ∧ offset ≠ rDe ∧ offset ≠ rFctrl 0 ∧
    offset ≠ rFctrl 1 ∧ offset ≠ rCtrl ∧ offset ≠ rStat ∧ offset ≠ rIe ∧
    offset ≠ rSwtrig ∧ offset ≠ rResfifo 0 ∧ offset ≠ rResfifo 1
deriving Decidable

def mcxnAdcWrite (offset : ℕ) (v : Word) : AdcState :=
  if offset = rVerid ∨ offset = rParam then s
  else if offset = rDe ∨ offset = rFctrl 0 ∨ offset = rFctrl 1 then
    mcxnAdcUpdateIrq (s.setReg offset v)
  else if offset = rCtrl then adcWriteCtrl s v
  else if offset = rStat then
    mcxnAdcUpdateStatus (s.setReg rStat
      (s.reg rStat &&& ~~~(v &&& (statFof 0 ||| statFof 1 ||| statTexcInt ||| statTcompInt))))
  else if offset = rIe then mcxnAdcUpdateIrq (s.setReg rIe v)
  else if offset = rSwtrig then if v ≠ 0 then mcxnAdcDoConversion s v else s
  else if offset = rResfifo 0 ∨ offset = rResfifo 1 then s
  else s.setReg offset v

def mcxnAdcReset : AdcState :=
  { s with
    regs := Function.update (fun _ => 0) (rCfg / 4) 0x00800000, fifo := fun _ => []
    adcCh := fun _ => adcChDefault, irq := false }

def AdcState.created : AdcState where
  regs := fun _ => 0
  adcCh := fun _ => adcChDefault
  fifo := fun _ => []
  irq := false
  dmaReq := .low

section Requests

abbrev Paced : AdcState → AdcState → Prop := Follows AdcState.dmaReq AdcState.asks

lemma adcUpdateIrq_paced {s t : AdcState} (h : t.dmaReq = s.dmaReq) :
    Paced s (mcxnAdcUpdateIrq t) := by
  have hall : ∀ k : Fin 2, k ∈ [0, 1] := by decide
  apply Follows.published hall
  simp only [mcxnAdcUpdateIrq, h]
  rfl

lemma updateStatus_paced {s t : AdcState} (h : t.dmaReq = s.dmaReq) :
    Paced s (mcxnAdcUpdateStatus t) :=
  adcUpdateIrq_paced h

variable (s : AdcState)

lemma fifoPush_dmaReq (f : FifoIdx) (val : Word) : (adcFifoPush s f val).dmaReq = s.dmaReq := by
  unfold adcFifoPush
  split <;> rfl

lemma fifoPop_dmaReq (f : FifoIdx) : (adcFifoPop s f).2.dmaReq = s.dmaReq := by
  unfold adcFifoPop
  split <;> rfl

lemma doConversion_paced (swtrig : Word) : Paced s (mcxnAdcDoConversion s swtrig) := by
  unfold mcxnAdcDoConversion
  split
  · exact .refl s
  · exact updateStatus_paced (fifoPush_dmaReq s _ _)

lemma adcHwTrigger_paced (trig : ℤ) (level : Bool) :
    Paced s (mcxnAdcHwTrigger s trig level) := by
  unfold mcxnAdcHwTrigger
  split
  · exact .refl s
  split
  · exact .refl s
  · exact doConversion_paced s _

lemma adcRead_paced (offset : ℕ) : Paced s (mcxnAdcRead s offset).2 := by
  unfold mcxnAdcRead
  split
  · exact .refl s
  split
  · exact .refl s
  split
  · exact .refl s
  split
  · exact .refl s
  split
  · exact .refl s
  split
  · exact updateStatus_paced (fifoPop_dmaReq s _)
  · exact .refl s

lemma writeCtrl_paced (v : Word) : Paced s (adcWriteCtrl s v) := by
  unfold adcWriteCtrl
  extract_lets s₁ s₂ s₃ s₄
  have h₁ : s₁.dmaReq = s.dmaReq := by simp only [s₁]; split <;> rfl
  have h₂ : s₂.dmaReq = s₁.dmaReq := by simp only [s₂]; split <;> rfl
  have h₃ : s₃.dmaReq = s₂.dmaReq := by simp only [s₃]; split <;> rfl
  have h₄ : s₄.dmaReq = s₃.dmaReq := by simp only [s₄]; split <;> rfl
  exact updateStatus_paced (((h₄.trans h₃).trans h₂).trans h₁)

lemma adcWrite_paced (offset : ℕ) (v : Word)
    (hplain : AdcPlain offset → (s.setReg offset v).asks = s.asks) :
    Paced s (mcxnAdcWrite s offset v) := by
  unfold mcxnAdcWrite
  split
  · exact .refl s
  rename_i hro
  split
  · exact adcUpdateIrq_paced rfl
  rename_i hgate
  split
  · exact writeCtrl_paced s v
  rename_i hctrl
  split
  · exact updateStatus_paced rfl
  rename_i hstat
  split
  · exact adcUpdateIrq_paced rfl
  rename_i hie
  split
  · split
    · exact doConversion_paced s v
    · exact .refl s
  rename_i hswtrig
  split
  · exact .refl s
  rename_i hresfifo
  push Not at hro hgate hresfifo
  exact .untouched rfl (hplain ⟨hro.1, hro.2, hgate.1, hgate.2.1, hgate.2.2, hctrl, hstat,
    hie, hswtrig, hresfifo.1, hresfifo.2⟩)

lemma reset_asks : (mcxnAdcReset s).asks = fun _ => false := by
  funext f
  simp [AdcState.asks, mcxnAdcReset]

end Requests

end Mcxn947.Adc
