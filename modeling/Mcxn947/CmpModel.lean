import Mcxn947.BusAccesses
import Mcxn947.EventRuns
import Mcxn947.LevelLines

/-!
# The analog comparator

`hw/misc/mcxn_cmp.c`: an operator sets the level the inputs would resolve to.
-/

namespace Mcxn947.Cmp

open MachineWords LevelLines BusAccesses

def cmpVerid : ℕ := 0x00
def cmpParam : ℕ := 0x04
def cmpCcr0 : ℕ := 0x08
def cmpCcr1 : ℕ := 0x0C
def cmpIer : ℕ := 0x1C
def cmpCsr : ℕ := 0x20
def cmpRrcr0 : ℕ := 0x24
def cmpRrcsr : ℕ := 0x2C

def csrCfr : Word := 0x001
def csrCff : Word := 0x002
def csrRrf : Word := 0x004
def csrCout : Word := 0x100
def csrW1cMask : Word := csrCfr ||| csrCff ||| csrRrf

def ierCfrIe : Word := 0x001
def ierCffIe : Word := 0x002

def rrcr0RrEn : Word := 0x001
def rrcr0RrTrgSel : Word := 0x002
def rrcsrRrCh0out : Word := 0x001

def ccr1DmaEn : Word := 0x004

def cmpVeridValue : Word := 0x01000041
def cmpParamValue : Word := 0x00000002
def cmpCcr0Reset : Word := 0x00000002

structure CmpState where
  regs : RegFile
  (cout rrBaseline irq : Bool)
  dmaPulses : ℕ

variable (s : CmpState)

def CmpState.reg (off : ℕ) : Word := s.regs.get off

def CmpState.setReg (off : ℕ) (v : Word) : CmpState := { s with regs := s.regs.set off v }

def CmpState.pending : Bool := anyBit (s.reg cmpCsr &&& s.reg cmpIer) csrW1cMask

def CmpState.dmaEn : Bool := anyBit (s.reg cmpCcr1) ccr1DmaEn

def CmpState.interrupts : Bool := s.pending && !s.dmaEn

def mcxnCmpUpdateIrq : CmpState := { s with irq := s.interrupts }

def mcxnCmpRead (off : ℕ) : Word × CmpState :=
  if off = cmpVerid then (cmpVeridValue, s)
  else if off = cmpParam then (cmpParamValue, s)
  else if off = cmpCsr then
    ((s.reg cmpCsr &&& ~~~csrCout) ||| (if s.cout then csrCout else 0), s)
  else (s.reg off, s)

def mcxnCmpWrite (s : CmpState) (off : ℕ) (v : Word) : CmpState :=
  if off = cmpVerid ∨ off = cmpParam then s
  else if off = cmpCsr then
    mcxnCmpUpdateIrq (s.setReg cmpCsr (s.reg cmpCsr &&& ~~~(v &&& csrW1cMask)))
  else if off = cmpIer then mcxnCmpUpdateIrq (s.setReg cmpIer v)
  else if off = cmpRrcr0 then
    let wasEn := anyBit (s.reg cmpRrcr0) rrcr0RrEn
    let s := s.setReg cmpRrcr0 v
    if anyBit v rrcr0RrEn && !wasEn then { s with rrBaseline := s.cout } else s
  else s.setReg off v

def cmpHwTrigger (level : Bool) : CmpState :=
  let rrcr0 := s.reg cmpRrcr0
  if !level || !anyBit rrcr0 rrcr0RrEn || anyBit rrcr0 rrcr0RrTrgSel then s
  else
    let t := s.setReg cmpRrcsr
      ((s.reg cmpRrcsr &&& ~~~rrcsrRrCh0out) ||| (if s.cout then rrcsrRrCh0out else 0))
    if s.cout ≠ s.rrBaseline then
      mcxnCmpUpdateIrq (t.setReg cmpCsr (t.reg cmpCsr ||| csrRrf))
    else t

def mcxnCmpSetCout (s : CmpState) (value : Bool) : CmpState :=
  let ier := s.reg cmpIer
  let rising := value && !s.cout
  let falling := !value && s.cout
  let edgeDma :=
    s.dmaEn && ((rising && anyBit ier ierCfrIe) || (falling && anyBit ier ierCffIe))
  let s :=
    if rising then s.setReg cmpCsr (s.reg cmpCsr ||| csrCfr)
    else if falling then s.setReg cmpCsr (s.reg cmpCsr ||| csrCff)
    else s
  mcxnCmpUpdateIrq
    { s with cout := value, dmaPulses := if edgeDma then s.dmaPulses + 1 else s.dmaPulses }

def mcxnCmpReset : CmpState :=
  CmpState.setReg { s with regs := .zero, cout := false, rrBaseline := false, irq := false }
    cmpCcr0 cmpCcr0Reset

def CmpState.powerOn : CmpState := mcxnCmpReset ⟨.zero, false, false, false, 0⟩

inductive CmpEvent where
  | read (idx : ℕ)
  | write (idx : ℕ) (v : Word)
  | output (level : Bool)
  | trigger (level : Bool)
  | reset

def cmpStep : CmpEvent → CmpState
  | .read idx => (mcxnCmpRead s (4 * idx)).2
  | .write idx v => mcxnCmpWrite s (4 * idx) v
  | .output level => mcxnCmpSetCout s level
  | .trigger level => cmpHwTrigger s level
  | .reset => mcxnCmpReset s

end Mcxn947.Cmp
