import Mcxn947.LevelLines
import Mcxn947.MachineWords

/-!
# The DAC

`hw/misc/mcxn_dac.c`: the output FIFO of a 12-bit LPDAC or a 14-bit HPDAC.
-/

namespace Mcxn947.Dac

open MachineWords LevelLines

def dacVerid : ℕ := 0x00
def dacParam : ℕ := 0x04
def dacData : ℕ := 0x08
def dacGcr : ℕ := 0x0C
def dacFcr : ℕ := 0x10
def dacFpr : ℕ := 0x14
def dacFsr : ℕ := 0x18
def dacIer : ℕ := 0x1C
def dacDer : ℕ := 0x20
def dacRcr : ℕ := 0x24
def dacTcr : ℕ := 0x28

def gcrDacen : Word := 1 <<< 0
def gcrFifoen : Word := 1 <<< 3
def gcrTrgsel : Word := 1 <<< 5

def fsrFull : Word := 1 <<< 0
def fsrEmpty : Word := 1 <<< 1
def fsrWm : Word := 1 <<< 2
def fsrSwbk : Word := 1 <<< 3
def fsrOf : Word := 1 <<< 6
def fsrUf : Word := 1 <<< 7
def fsrPtgcoco : Word := 1 <<< 8
def fsrW1cMask : Word := fsrSwbk ||| fsrOf ||| fsrUf ||| fsrPtgcoco

def rcrSwrst : Word := 1 <<< 0
def rcrFiforst : Word := 1 <<< 1
def tcrSwtrg : Word := 1 <<< 0

def derEmptyDmaen : Word := 1 <<< 1
def derWmDmaen : Word := 1 <<< 2

def dacVeridValue : Word := 0x01000000

structure DacState where
  hpdac : Bool
  regs : ℕ → Word
  fifo : ℕ → HalfWord
  (wptr rptr count : ℕ)
  out : Word
  irq : Bool
  dmaReq : Lines Unit

variable (s : DacState)

def DacState.reg (off : ℕ) : Word := s.regs (off / 4)

def DacState.setReg (off : ℕ) (v : Word) : DacState :=
  { s with regs := Function.update s.regs (off / 4) v }

def dacDepth : ℕ := if s.hpdac then 32 else 16

def dacDataMask : Word := if s.hpdac then 0x3FFF else 0x0FFF

def dacParamValue : Word := if s.hpdac then 4 else 3

def DacState.wml : ℕ := (s.reg dacFcr &&& if s.hpdac then 0x1F else 0x0F).toNat

def dacFsrValue : Word :=
  (s.reg dacFsr &&& fsrW1cMask) ||| (if s.count = 0 then fsrEmpty else 0) |||
    (if dacDepth s ≤ s.count then fsrFull else 0) |||
    (if s.count ≤ s.wml then fsrWm else 0)

def DacState.asks : Bool :=
  (anyBit (dacFsrValue s) fsrWm && anyBit (s.reg dacDer) derWmDmaen) ||
    (anyBit (dacFsrValue s) fsrEmpty && anyBit (s.reg dacDer) derEmptyDmaen)

def DacState.interrupts : Bool := anyBit (dacFsrValue s) (s.reg dacIer)

def dacUpdateIrq : DacState :=
  { s with
    irq := s.interrupts, dmaReq := s.dmaReq.publishAll [()] fun _ => s.asks }

def dacFifoReset : DacState :=
  { s with wptr := 0, rptr := 0, count := 0 }.setReg dacFsr (s.reg dacFsr &&& ~~~fsrW1cMask)

def dacPush (value : Word) : DacState :=
  let v := value &&& dacDataMask s
  -- buffer mode: DATA goes straight to the output
  if !anyBit (s.reg dacGcr) gcrFifoen then { s with out := v }
  else if dacDepth s ≤ s.count then
    dacUpdateIrq (s.setReg dacFsr (s.reg dacFsr ||| fsrOf))
  else
    dacUpdateIrq
      { s with
        fifo := Function.update s.fifo s.wptr (v.setWidth 16), wptr := (s.wptr + 1) % dacDepth s
        count := s.count + 1 }

def dacTrigger : DacState :=
  if !anyBit (s.reg dacGcr) gcrDacen then s
  else if !anyBit (s.reg dacGcr) gcrFifoen then s
  else if s.count = 0 then
    dacUpdateIrq (s.setReg dacFsr (s.reg dacFsr ||| fsrUf))
  else
    dacUpdateIrq
      { s with
        out := (s.fifo s.rptr).setWidth 32, rptr := (s.rptr + 1) % dacDepth s
        count := s.count - 1 }

def dacHwTrigger (level : Bool) : DacState :=
  if !level then s
  else if anyBit (s.reg dacGcr) gcrTrgsel then s
  else dacTrigger s

def mcxnDacRead (offset : ℕ) : Word :=
  if offset = dacVerid then dacVeridValue
  else if offset = dacParam then dacParamValue s
  else if offset = dacData ∨ offset = dacTcr then 0
  else if offset = dacFpr then BitVec.ofNat 32 s.wptr <<< 16 ||| BitVec.ofNat 32 s.rptr
  else if offset = dacFsr then dacFsrValue s
  else s.reg offset

def dacLaneMask (lane size : ℕ) : Word :=
  if 4 ≤ size then 0xFFFFFFFF else (((1 : Word) <<< (size * 8)) - 1) <<< (lane * 8)

def dacWriteRcr (s : DacState) (v : Word) : DacState :=
  let s :=
    if anyBit v rcrSwrst then
      { dacFifoReset { s with regs := fun _ => 0 } with out := 0 }
    else if anyBit v rcrFiforst then dacFifoReset s
    else s
  dacUpdateIrq (s.setReg dacRcr 0)

def mcxnDacWrite (offset size : ℕ) (v : Word) : DacState :=
  if offset = dacVerid ∨ offset = dacParam ∨ offset = dacFpr then s
  else if offset = dacData then dacPush s v
  else if offset = dacTcr then if anyBit v tcrSwtrg then dacTrigger s else s
  else if offset = dacFsr then
    dacUpdateIrq (s.setReg dacFsr (s.reg dacFsr &&& ~~~(v &&& fsrW1cMask)))
  else if offset = dacIer then dacUpdateIrq (s.setReg dacIer v)
  else if offset = dacDer ∨ offset = dacFcr then dacUpdateIrq (s.setReg offset v)
  else if offset = dacRcr then dacWriteRcr s v
  else if offset = dacGcr then dacUpdateIrq (s.setReg dacGcr v)
  else
    let mask := dacLaneMask (offset % 4) size
    dacUpdateIrq (s.setReg offset
      ((s.reg offset &&& ~~~mask) ||| ((v <<< ((offset % 4) * 8)) &&& mask)))

def mcxnDacReset : DacState :=
  { dacFifoReset { s with regs := fun _ => 0, fifo := fun _ => 0 } with
    out := 0
    irq := false }

def DacState.created (hpdac : Bool) : DacState where
  hpdac := hpdac
  regs := fun _ => 0
  fifo := fun _ => 0
  wptr := 0
  rptr := 0
  count := 0
  out := 0
  irq := false
  dmaReq := .low

section Requests

abbrev Paced : DacState → DacState → Prop := Follows DacState.dmaReq fun s _ => s.asks

lemma updateIrq_paced {s t : DacState} (h : t.dmaReq = s.dmaReq) : Paced s (dacUpdateIrq t) := by
  have hall : ∀ k : Unit, k ∈ [()] := by simp
  apply Follows.published hall
  simp only [dacUpdateIrq, h]
  rfl

variable (s : DacState)

lemma trigger_paced : Paced s (dacTrigger s) := by
  unfold dacTrigger
  split
  · exact .refl s
  split
  · exact .refl s
  split <;> exact updateIrq_paced rfl

lemma hwTrigger_paced (level : Bool) : Paced s (dacHwTrigger s level) := by
  unfold dacHwTrigger
  split
  · exact .refl s
  split
  · exact .refl s
  · exact trigger_paced s

lemma push_paced (value : Word) : Paced s (dacPush s value) := by
  unfold dacPush
  split
  · exact .untouched rfl rfl
  split <;> exact updateIrq_paced rfl

lemma writeRcr_paced (v : Word) : Paced s (dacWriteRcr s v) := by
  apply updateIrq_paced
  split
  · rfl
  · split <;> rfl

lemma dacWrite_paced (offset size : ℕ) (v : Word) : Paced s (mcxnDacWrite s offset size v) := by
  unfold mcxnDacWrite
  split
  · exact .refl s
  split
  · exact push_paced s v
  split
  · split
    · exact trigger_paced s
    · exact .refl s
  split
  · exact updateIrq_paced rfl
  split
  · exact updateIrq_paced rfl
  split
  · exact updateIrq_paced rfl
  split
  · exact writeRcr_paced s v
  split <;> exact updateIrq_paced rfl

lemma dacReset_asks : (mcxnDacReset s).asks = false := by
  have hder : (mcxnDacReset s).reg dacDer = 0 := rfl
  simp [DacState.asks, hder]

end Requests

end Mcxn947.Dac
