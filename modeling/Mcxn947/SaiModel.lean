import Mcxn947.LevelLines
import Mcxn947.MachineWords

/-!
# The SAI

`hw/misc/mcxn_sai.c`: a transmit FIFO that a word timer drains at the rate the guest
programmed and a receive FIFO that a loopback jumper fills.
-/

namespace Mcxn947.Sai

open MachineWords LevelLines

inductive SaiLine where
  | tx
  | rx
deriving DecidableEq

def saiVerid : ℕ := 0x00
def saiParam : ℕ := 0x04
def saiTcsr : ℕ := 0x08
def saiTcr1 : ℕ := 0x0C
def saiTcr2 : ℕ := 0x10
def saiTcr5 : ℕ := 0x1C
def saiTdr0 : ℕ := 0x20
def saiTfr0 : ℕ := 0x40
def saiRcsr : ℕ := 0x88
def saiRcr1 : ℕ := 0x8C
def saiRdr0 : ℕ := 0xA0
def saiRfr0 : ℕ := 0xC0

def csrFrde : Word := 1 <<< 0
def csrFrf : Word := 1 <<< 16
def csrFwf : Word := 1 <<< 17
def csrFef : Word := 1 <<< 18
def csrSef : Word := 1 <<< 19
def csrWsf : Word := 1 <<< 20
def csrSr : Word := 1 <<< 24
def csrFr : Word := 1 <<< 25
def csrEn : Word := 1 <<< 31

def csrFlagsW1c : Word := csrFef ||| csrSef ||| csrWsf

def saiVeridValue : Word := 0x03010000
def saiParamValue : Word := (5 <<< 16) ||| (3 <<< 8) ||| 2

def tcr2Bcd : Word := 1 <<< 24
def tcr2Byp : Word := 1 <<< 23

def saiSize : ℕ := 0x1000

def fifoDepth : ℕ := 8

structure SaiClocks where
  now : ℕ
  mclk : Word

/-- `MCXNSAIState`.  The oldest word of a FIFO comes first, so `tx_count` and
`rx_count` are lengths; `dmaReq.level` is `tx_dma_req` and `rx_dma_req`;
`wordTimer` is the deadline of the armed timer. -/
structure SaiState where
  loopback : Bool
  regs : ℕ → Word
  (txFifo rxFifo : List Word)
  wordTimer : Option ℕ
  nextWordNs : ℕ
  irq : Bool
  dmaReq : Lines SaiLine

variable (s : SaiState) (mclk : Word) (clocks : SaiClocks) (l : SaiLine) (val : Word)

def SaiState.reg (off : ℕ) : Word := s.regs (off / 4)

def SaiState.setReg (off : ℕ) (v : Word) : SaiState :=
  { s with regs := Function.update s.regs (off / 4) v }

def saiBclk : ℕ :=
  if !anyBit (s.reg saiTcr2) tcr2Bcd then 0
  else if anyBit (s.reg saiTcr2) tcr2Byp then mclk.toNat
  else mclk.toNat / (2 * ((s.reg saiTcr2 &&& 0xFF).toNat + 1))

def saiWordPeriodNs : ℕ :=
  let bits := ((s.reg saiTcr5 >>> 16) &&& 0x1F).toNat + 1
  if saiBclk s mclk = 0 then 0 else bits * 1000000000 / saiBclk s mclk

def saiTcsrFlags : Word :=
  (s.reg saiTcsr &&& csrFlagsW1c) |||
    (if s.txFifo.length ≤ (s.reg saiTcr1 &&& 0x7).toNat then csrFrf ||| csrFwf else 0)

def saiRcsrFlags : Word :=
  (s.reg saiRcsr &&& csrFlagsW1c) |||
    (if (s.reg saiRcr1 &&& 0x7).toNat < s.rxFifo.length then csrFrf ||| csrFwf else 0)

def csrRaises (flags csr : Word) : Bool := (flags >>> 16) &&& 0x1F &&& ((csr >>> 8) &&& 0x1F) != 0

def SaiState.interrupts : Bool :=
  csrRaises (saiTcsrFlags s) (s.reg saiTcsr) || csrRaises (saiRcsrFlags s) (s.reg saiRcsr)

def SaiState.asks : SaiLine → Bool
  | .tx => anyBit (saiTcsrFlags s) csrFrf && anyBit (s.reg saiTcsr) csrFrde
  | .rx => anyBit (saiRcsrFlags s) csrFrf && anyBit (s.reg saiRcsr) csrFrde

def mcxnSaiUpdateIrq : SaiState :=
  { s with
    dmaReq := s.dmaReq.publishAll [.tx, .rx] s.asks, irq := s.interrupts }

def SaiState.te : Bool := anyBit (s.reg saiTcsr) csrEn

def saiShiftWord (s : SaiState) : SaiState :=
  match s.txFifo with
  | [] => s.setReg saiTcsr (s.reg saiTcsr ||| csrFef)
  | word :: rest =>
    let s := { s with txFifo := rest }
    if s.loopback && anyBit (s.reg saiRcsr) csrEn then
      if s.rxFifo.length < fifoDepth then { s with rxFifo := s.rxFifo ++ [word] }
      else s.setReg saiRcsr (s.reg saiRcsr ||| csrFef)
    else s

def saiRearm (start : ℕ) : SaiState :=
  if 0 < saiWordPeriodNs s mclk then
    let next := start + saiWordPeriodNs s mclk
    { s with nextWordNs := next, wordTimer := some next }
  else { s with wordTimer := none }

def mcxnSaiWordTick (s : SaiState) (mclk : Word) : SaiState :=
  let s := { s with wordTimer := none }
  if !s.te then s
  else
    let s := saiShiftWord s
    mcxnSaiUpdateIrq (saiRearm s mclk s.nextWordNs)

def saiFifoReset : SaiState :=
  match l with
  | .tx => { s with txFifo := [] }.setReg saiTcsr (s.reg saiTcsr &&& ~~~csrFef)
  | .rx => { s with rxFifo := [] }.setReg saiRcsr (s.reg saiRcsr &&& ~~~csrFef)

def csrMomentary : Word := csrSr ||| csrFr
def csrStatus : Word := csrFrf ||| csrFwf ||| csrFef ||| csrSef ||| csrWsf

def saiReadRdr : Word × SaiState :=
  match s.rxFifo with
  | [] => (0, mcxnSaiUpdateIrq (s.setReg saiRcsr (s.reg saiRcsr ||| csrFef)))
  | word :: rest => (word, mcxnSaiUpdateIrq { s with rxFifo := rest })

def mcxnSaiRead (off : ℕ) : Word × SaiState :=
  let v : Word := if off < saiSize then s.reg off else 0
  if off = saiVerid then (saiVeridValue, s)
  else if off = saiParam then (saiParamValue, s)
  else if off = saiTcsr then
    ((v &&& ~~~csrMomentary) &&& ~~~csrStatus ||| saiTcsrFlags s, s)
  else if off = saiRcsr then
    ((v &&& ~~~csrMomentary) &&& ~~~csrStatus ||| saiRcsrFlags s, s)
  else if off = saiTfr0 ∨ off = saiTfr0 + 4 then
    ((BitVec.ofNat 32 s.txFifo.length &&& 0xF) <<< 16, s)
  else if off = saiRfr0 ∨ off = saiRfr0 + 4 then
    ((BitVec.ofNat 32 s.rxFifo.length &&& 0xF) <<< 16, s)
  else if off = saiRdr0 ∨ off = saiRdr0 + 4 then saiReadRdr s
  else (v, s)

def saiCsr : SaiLine → ℕ
  | .tx => saiTcsr
  | .rx => saiRcsr

def saiLatchedCsr (cur val : Word) : Word :=
  (((cur &&& ~~~(val &&& csrFlagsW1c)) &&& csrFlagsW1c) ||| (val &&& ~~~csrFlagsW1c)) &&&
    ~~~csrMomentary

def saiLatchCsr : SaiState :=
  (if anyBit val csrMomentary then saiFifoReset s l else s).setReg (saiCsr l)
    (saiLatchedCsr (s.reg (saiCsr l)) val)

def saiGateTimer (wasTe : Bool) : SaiState :=
  if s.te && !wasTe then saiRearm s clocks.mclk clocks.now
  else if !s.te && wasTe then { s with wordTimer := none }
  else s

def saiWriteCsr : SaiState :=
  mcxnSaiUpdateIrq
    (match l with
      | .tx => saiGateTimer (saiLatchCsr s .tx val) clocks s.te
      | .rx => saiLatchCsr s .rx val)

def saiWriteTdr : SaiState :=
  mcxnSaiUpdateIrq
    (if fifoDepth ≤ s.txFifo.length then s.setReg saiTcsr (s.reg saiTcsr ||| csrFef)
      else { s with txFifo := s.txFifo ++ [val] })

def SaiReadOnly (off : ℕ) : Prop :=
  off = saiVerid ∨ off = saiParam ∨ off = saiTfr0 ∨ off = saiTfr0 + 4 ∨ off = saiRfr0 ∨
    off = saiRfr0 + 4 ∨ off = saiRdr0 ∨ off = saiRdr0 + 4
deriving Decidable

def SaiPlain (off : ℕ) : Prop :=
  off < saiSize ∧ ¬ SaiReadOnly off ∧ off ≠ saiTcsr ∧ off ≠ saiRcsr ∧ off ≠ saiTdr0 ∧
    off ≠ saiTdr0 + 4
deriving Decidable

def mcxnSaiWrite (off : ℕ) (val : Word) : SaiState :=
  if saiSize ≤ off then s
  else if SaiReadOnly off then s
  else if off = saiTcsr then saiWriteCsr s clocks .tx val
  else if off = saiRcsr then saiWriteCsr s clocks .rx val
  else if off = saiTdr0 ∨ off = saiTdr0 + 4 then saiWriteTdr s val
  else s.setReg off val

def mcxnSaiReset : SaiState :=
  { s with
    regs := fun _ => 0, txFifo := [], rxFifo := [], wordTimer := none, irq := false }

def SaiState.created (loopback : Bool) : SaiState where
  loopback := loopback
  regs := fun _ => 0
  txFifo := []
  rxFifo := []
  wordTimer := none
  nextWordNs := 0
  irq := false
  dmaReq := .low

section Requests

abbrev Paced : SaiState → SaiState → Prop := Follows SaiState.dmaReq SaiState.asks

lemma saiUpdateIrq_paced {s t : SaiState} (h : t.dmaReq = s.dmaReq) :
    Paced s (mcxnSaiUpdateIrq t) := by
  have hall : ∀ l : SaiLine, l ∈ [SaiLine.tx, .rx] := by
    intro l
    cases l <;> simp
  apply Follows.published hall
  simp only [mcxnSaiUpdateIrq, h]
  congr 1

variable (s : SaiState) (clocks : SaiClocks)

lemma shiftWord_dmaReq : (saiShiftWord s).dmaReq = s.dmaReq := by
  unfold saiShiftWord
  split
  · rfl
  dsimp only
  split
  · split <;> rfl
  · rfl

lemma rearm_dmaReq (mclk : Word) (start : ℕ) : (saiRearm s mclk start).dmaReq = s.dmaReq := by
  unfold saiRearm
  split <;> rfl

lemma wordTick_paced (mclk : Word) : Paced s (mcxnSaiWordTick s mclk) := by
  unfold mcxnSaiWordTick
  dsimp only
  split
  · refine .untouched rfl ?_
    funext l
    cases l <;> rfl
  · apply saiUpdateIrq_paced
    rw [rearm_dmaReq, shiftWord_dmaReq]

lemma readRdr_paced : Paced s (saiReadRdr s).2 := by
  unfold saiReadRdr
  split <;> exact saiUpdateIrq_paced rfl

lemma saiRead_paced (off : ℕ) : Paced s (mcxnSaiRead s off).2 := by
  unfold mcxnSaiRead
  dsimp only
  split
  · exact .refl s
  split
  · exact .refl s
  split
  · exact .refl s
  split
  · exact .refl s
  split
  · exact .refl s
  split
  · exact .refl s
  split
  · exact readRdr_paced s
  · exact .refl s

lemma latchCsr_dmaReq (l : SaiLine) (val : Word) : (saiLatchCsr s l val).dmaReq = s.dmaReq := by
  unfold saiLatchCsr
  split
  · cases l <;> rfl
  · rfl

lemma gateTimer_dmaReq (wasTe : Bool) : (saiGateTimer s clocks wasTe).dmaReq = s.dmaReq := by
  unfold saiGateTimer
  split
  · exact rearm_dmaReq s _ _
  · split <;> rfl

lemma writeCsr_paced (l : SaiLine) (val : Word) : Paced s (saiWriteCsr s clocks l val) := by
  apply saiUpdateIrq_paced
  cases l with
  | tx => rw [gateTimer_dmaReq, latchCsr_dmaReq]
  | rx => rw [latchCsr_dmaReq]

lemma writeTdr_paced (val : Word) : Paced s (saiWriteTdr s val) := by
  apply saiUpdateIrq_paced
  split <;> rfl

lemma saiWrite_paced (off : ℕ) (val : Word)
    (hplain : SaiPlain off → (s.setReg off val).asks = s.asks) :
    Paced s (mcxnSaiWrite s clocks off val) := by
  unfold mcxnSaiWrite
  split
  · exact .refl s
  rename_i hsize
  split
  · exact .refl s
  rename_i hro
  split
  · exact writeCsr_paced s clocks .tx val
  rename_i htcsr
  split
  · exact writeCsr_paced s clocks .rx val
  rename_i hrcsr
  split
  · exact writeTdr_paced s val
  rename_i htdr
  push Not at htdr
  exact .untouched rfl (hplain ⟨Nat.lt_of_not_le hsize, hro, htcsr, hrcsr, htdr.1, htdr.2⟩)

lemma saiReset_asks : (mcxnSaiReset s).asks = fun _ => false := by
  funext l
  cases l <;> simp [SaiState.asks, mcxnSaiReset, SaiState.reg]

end Requests

lemma setReg_fef_te (s : SaiState) : (s.setReg saiTcsr (s.reg saiTcsr ||| csrFef)).te = s.te := by
  show anyBit (s.reg saiTcsr ||| csrFef) csrEn = anyBit (s.reg saiTcsr) csrEn
  rw [anyBit_or, show anyBit csrFef csrEn = false by decide, Bool.or_false]

end Mcxn947.Sai
