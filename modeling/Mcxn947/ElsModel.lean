import Mcxn947.StoreFootprints

/-!
# The ELS crypto engine

`mcxn_els.c`.  One command stores a result, three have none, and every other command is
refused through the error status.
-/

namespace Mcxn947.Els

open MachineWords StoreFootprints

def elsSize : ℕ := 0x1000

def elsStatus : ℕ := 0x00
def elsCtrl : ℕ := 0x04
def elsDmaRes0 : ℕ := 0x38
def elsDmaRes0Len : ℕ := 0x3C
def elsIntStatusClr : ℕ := 0x44
def elsIntStatusSet : ℕ := 0x48
def elsErrStatus : ℕ := 0x4C
def elsErrStatusClr : ℕ := 0x50
def elsVersion : ℕ := 0x54
def elsPrngDatout : ℕ := 0x5C
def elsCmdcrc : ℕ := 0x64
def elsDmaFinAddr : ℕ := 0x70
def elsKs0 : ℕ := 0x150
def elsKs19 : ℕ := 0x19C

def elsStatusElsErr : Word := 0x4
def elsStatusPrngRdy : Word := 0x8
def elsStatusDrbgEntMax : Word := 0x300

def elsCtrlEn : Word := 0x1
def elsCtrlStart : Word := 0x2
def elsCtrlReset : Word := 0x4
def elsCtrlCmd (v : Word) : Word := (v >>> 3) &&& 0x1F

def elsErrOpn : Word := 0x2

def elsCmdKdelete : Word := 11
def elsCmdRndReq : Word := 24
def elsCmdDrbgTest : Word := 25
def elsCmdDtrngCfgLoad : Word := 28

def elsVersionValue : Word := 0x00001000
def elsPrngSeed : Word := 0x2545F491
def elsRndMax : ℕ := 4096

structure ElsState where
  regs : ℕ → Word
  (rngState errStatus : Word)

variable (s : ElsState) (m : Memory)

def ElsState.reg (off : ℕ) : Word := s.regs (off / 4)

def ElsState.setReg (off : ℕ) (v : Word) : ElsState :=
  { s with regs := Function.update s.regs (off / 4) v }

def elsPrngNext : Word × ElsState :=
  let x := s.rngState
  let x := x ^^^ (x <<< 13)
  let x := x ^^^ (x >>> 17)
  let x := x ^^^ (x <<< 5)
  (x, { s with rngState := x })

def elsRndBytes : ℕ → ElsState → List Byte × ElsState
  | 0, s => ([], s)
  | n + 1, s =>
    let (x, s) := elsPrngNext s
    let (bytes, s) := elsRndBytes n s
    ((x &&& 0xFF).setWidth 8 :: bytes, s)

def dmaMemoryWrite (addr : ℕ) (bytes : List Byte) : Memory × Bool :=
  (m.storeBytes addr bytes, (List.range bytes.length).all fun i => m.writable (addr + i))

def elsDoRndReq : ElsState × Memory :=
  let addr := s.reg elsDmaRes0
  let len := (s.reg elsDmaRes0Len).toNat
  if len = 0 ∨ elsRndMax < len then
    ({ s with errStatus := s.errStatus ||| elsErrOpn }, m)
  else
    let (buf, s) := elsRndBytes len s
    -- the status of the write is not looked at
    (s, (dmaMemoryWrite m addr.toNat buf).1)

def IsTeardown (cmd : Word) : Prop :=
  cmd = elsCmdDrbgTest ∨ cmd = elsCmdDtrngCfgLoad ∨ cmd = elsCmdKdelete
deriving Decidable

def elsStartCommand : ElsState × Memory :=
  let cmd := elsCtrlCmd (s.reg elsCtrl)
  if cmd = elsCmdRndReq then elsDoRndReq s m
  else if IsTeardown cmd then (s, m)
  else ({ s with errStatus := s.errStatus ||| elsErrOpn }, m)

def elsIsRo (off : ℕ) : Bool :=
  off ∈ [elsStatus, elsErrStatus, elsVersion, elsPrngDatout, elsCmdcrc, elsDmaFinAddr] ||
    (elsKs0 ≤ off && off ≤ elsKs19)

def mcxnElsRead (off : ℕ) : Word × ElsState :=
  let v := if off < elsSize then s.reg off else 0
  if off = elsStatus then
    (elsStatusPrngRdy ||| elsStatusDrbgEntMax |||
      (if s.errStatus ≠ 0 then elsStatusElsErr else 0), s)
  else if off = elsErrStatus then (s.errStatus, s)
  else if off = elsVersion then (elsVersionValue, s)
  else if off = elsPrngDatout then elsPrngNext s
  else if off ∈ [elsIntStatusClr, elsIntStatusSet, elsErrStatusClr] then (0, s)
  else (v, s)

def mcxnElsWrite (s : ElsState) (m : Memory) (off : ℕ) (val : Word) : ElsState × Memory :=
  if elsSize ≤ off then (s, m)
  else if elsIsRo off then (s, m)
  else if off = elsErrStatusClr then ({ s with errStatus := s.errStatus &&& ~~~val }, m)
  else if off = elsIntStatusClr ∨ off = elsIntStatusSet then (s, m)
  else if off = elsCtrl then
    let s := s.setReg elsCtrl val
    if anyBit val elsCtrlReset then ({ s with errStatus := 0 }, m)
    else if anyBit val elsCtrlEn && anyBit val elsCtrlStart then elsStartCommand s m
    else (s, m)
  else (s.setReg off val, m)

def mcxnElsReset (seed : Word) : ElsState where
  regs := fun _ => 0
  rngState := if seed = 0 then elsPrngSeed else seed
  errStatus := 0

@[simp] lemma length_elsRndBytes (n : ℕ) (s : ElsState) : (elsRndBytes n s).1.length = n := by
  induction n generalizing s with
  | zero => rfl
  | succ n ih => exact congrArg (· + 1) (ih _)

@[simp] lemma elsRndBytes_errStatus (n : ℕ) (s : ElsState) :
    (elsRndBytes n s).2.errStatus = s.errStatus := by
  induction n generalizing s with
  | zero => rfl
  | succ n ih => exact ih _

end Mcxn947.Els
