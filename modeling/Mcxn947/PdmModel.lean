import Mcxn947.MachineWords

/-!
# The digital microphone interface

`hw/misc/mcxn_pdm.c`: the MICFIL registers and a sample FIFO per channel.  Samples
come from an operator; the guest drains them through `DATACHn`.
-/

namespace Mcxn947.Pdm

open MachineWords

abbrev RegIdx := Fin 0x400

abbrev Channel := Fin 4

def fifoDepth : ℕ := 16

structure PdmState where
  regs : RegIdx → Word
  fifo : Channel → List Word
  (dmaLvl warnedNoSource irq dmaReq : Bool)

def rCtrl1 : RegIdx := 0x00
def rStat : RegIdx := 0x02
def rFifoCtrl : RegIdx := 0x04
def rFifoStat : RegIdx := 0x05
def rDcCtrl : RegIdx := 0x19

def ctrl1ChenAll : Word := 0x0000000F
def ctrl1Erren : Word := 0x00800000
def ctrl1Disel : Word := 0x03000000
def ctrl1DiselDma : Word := 0x01000000
def ctrl1DiselIrq : Word := 0x02000000
def ctrl1Sres : Word := 0x08000000
def ctrl1Pdmien : Word := 0x20000000
def statChfAll : Word := 0x0000000F
def statBsyFil : Word := 0x80000000
def fifoCtrlWmk : Word := 0x0000000F
def pdmVeridValue : Word := 0x020F0000
def pdmParamValue : Word := 0x00000742

variable (n : Channel) (s : PdmState)

def chf : Word := 1 <<< n.val

def fifoUnd : Word := 1 <<< (8 + n.val)

def PdmState.setReg (r : RegIdx) (v : Word) : PdmState :=
  { s with regs := Function.update s.regs r v }

def PdmState.wmk : ℕ := (s.regs rFifoCtrl &&& fifoCtrlWmk).toNat

def pdmUpdateIrq : PdmState :=
  { s with irq :=
      (s.regs rCtrl1 &&& ctrl1Disel == ctrl1DiselIrq && anyBit (s.regs rStat) statChfAll) ||
      (anyBit (s.regs rCtrl1) ctrl1Erren && s.regs rFifoStat != 0) }

def pdmFlushFifos : PdmState :=
  ({ s with fifo := fun _ => [] }.setReg rStat (s.regs rStat &&& ~~~statChfAll)).setReg rFifoStat 0

def pdmUpdateDmaReq : PdmState :=
  let level := s.regs rCtrl1 &&& ctrl1Disel == ctrl1DiselDma && s.wmk < (s.fifo 0).length
  if level ≠ s.dmaLvl then { s with dmaLvl := level, dmaReq := level } else s

def pdmPushSample (s : PdmState) (sample : Word) : PdmState :=
  if !anyBit (s.regs rCtrl1) ctrl1Pdmien || !anyBit (s.regs rCtrl1) (chf 0) then s
  else if fifoDepth ≤ (s.fifo 0).length then
    pdmUpdateIrq (s.setReg rFifoStat (s.regs rFifoStat ||| chf 0))
  else
    let samples := s.fifo 0 ++ [sample &&& 0x00FFFFFF]
    let s := { s with fifo := Function.update s.fifo 0 samples }
    let s := if s.wmk < (s.fifo 0).length then s.setReg rStat (s.regs rStat ||| chf 0) else s
    pdmUpdateIrq (pdmUpdateDmaReq s)

def PdmIsDatach (offset : ℕ) : Prop := 0x24 ≤ offset ∧ offset ≤ 0x30
deriving Decidable

def pdmReadDatach (s : PdmState) (n : Channel) : Word × PdmState :=
  match s.fifo n with
  | [] => (0, pdmUpdateIrq (s.setReg rFifoStat (s.regs rFifoStat ||| fifoUnd n)))
  | v :: rest =>
    let s := { s with fifo := Function.update s.fifo n rest }
    let s :=
      if rest.length ≤ s.wmk then
        pdmUpdateIrq (s.setReg rStat (s.regs rStat &&& ~~~chf n))
      else s
    (v, if n = 0 then pdmUpdateDmaReq s else s)

def mcxnPdmRead (offset : ℕ) : Word × PdmState :=
  let v : Word := if h : offset < 0x1000 then s.regs ⟨offset / 4, div_four_lt h⟩ else 0
  if offset = 0x84 then (pdmVeridValue, s)
  else if offset = 0x88 then (pdmParamValue, s)
  else if offset = 0x08 then
    ((s.regs rStat &&& statChfAll) |||
      (if anyBit (s.regs rCtrl1) ctrl1Pdmien then statBsyFil else 0), s)
  else if h : PdmIsDatach offset then
    pdmReadDatach s ⟨(offset - 0x24) / 4, by simp only [PdmIsDatach] at h; omega⟩
  else (v, s)

def pdmWriteCtrl1 (s : PdmState) (v : Word) : PdmState :=
  if anyBit v ctrl1Sres then
    pdmUpdateIrq (pdmUpdateDmaReq (pdmFlushFifos { s with regs := fun _ => 0 }))
  else
    let s := s.setReg rCtrl1 v
    let warned := s.warnedNoSource || (anyBit v ctrl1Pdmien && anyBit v ctrl1ChenAll)
    pdmUpdateIrq (pdmUpdateDmaReq { s with warnedNoSource := warned })

def laneMask (lane size : ℕ) : Word :=
  if 4 ≤ size then 0xFFFFFFFF else BitVec.ofNat 32 (2 ^ (8 * size) - 1) <<< (8 * lane)

def mcxnPdmWrite (offset size : ℕ) (v : Word) : PdmState :=
  if h : offset < 0x1000 then
    let r : RegIdx := ⟨offset / 4, div_four_lt h⟩
    if offset = 0x84 ∨ offset = 0x88 ∨ offset = 0x64 then s
    else if offset = 0x00 then pdmWriteCtrl1 s v
    else if offset = 0x08 then
      pdmUpdateIrq (s.setReg rStat (s.regs rStat &&& ~~~(v &&& statChfAll)))
    else if offset = 0x14 ∨ offset = 0x7C then
      pdmUpdateIrq (s.setReg r (s.regs r &&& ~~~v))
    else if offset = 0x10 then pdmUpdateIrq (pdmUpdateDmaReq (s.setReg rFifoCtrl v))
    else if PdmIsDatach offset then s
    else
      let mask := laneMask (offset % 4) size
      s.setReg r ((s.regs r &&& ~~~mask) ||| ((v <<< (8 * (offset % 4))) &&& mask))
  else s

def resetRegs : RegIdx → Word := fun r =>
  if r = rFifoCtrl then 0x0F else if r = rDcCtrl then 0xFF else 0

def mcxnPdmReset : PdmState :=
  { pdmFlushFifos { s with regs := resetRegs } with
    warnedNoSource := false
    dmaLvl := false
    irq := false
    dmaReq := false }

end Mcxn947.Pdm
