import Mcxn947.EventRuns
import Mcxn947.GuestMemory

/-!
# The flash controller

`hw/misc/mcxn_fmu.c`: a command is staged in `FCCOB` and launched by clearing
`FSTAT[CCIF]`.
-/

namespace Mcxn947.Fmu

open MachineWords GuestMemory

def flashSize : ℕ := 0x200000

def flashPhrase : ℕ := 16
def flashPage : ℕ := 128
def flashSector : ℕ := 0x2000

structure FmuState where
  (fstat fcnfg fctrl : Word)
  fccob : Fin 8 → Word
  peBuf : Mem
  (peAddr peWords peExpect : ℕ)
  peCmd : Byte
  (peActive irq : Bool)
  flash : Mem
  launched : List Byte

def fstatFail : Word := 0x00000001
def fstatCmdabt : Word := 0x00000004
def fstatPviol : Word := 0x00000010
def fstatAccerr : Word := 0x00000020
def fstatCcif : Word := 0x00000080
def fstatPerdy : Word := 0x80000000
def fstatPewenMask : Word := 0x03000000
def pewenPhrase : Word := 0x01000000
def pewenPage : Word := 0x02000000
def fstatErrors : Word := fstatFail ||| fstatCmdabt ||| fstatPviol ||| fstatAccerr

def fcnfgCcie : Word := 0x00000080
def fctrlAbtreq : Word := 0x01000000

def fcmdRd1all : Byte := 0x00
def fcmdRd1blk : Byte := 0x01
def fcmdRd1scr : Byte := 0x02
def fcmdRd1pg : Byte := 0x03
def fcmdRd1phr : Byte := 0x04
def fcmdPgmpg : Byte := 0x23
def fcmdPgmphr : Byte := 0x24
def fcmdErsall : Byte := 0x40
def fcmdErsscr : Byte := 0x42

def fmuFlashOff (addr : ℕ) : ℕ := addr &&& (flashSize - 1)

variable (s : FmuState)

def fmuUpdateIrq : FmuState :=
  { s with irq := anyBit s.fstat fstatCcif && anyBit s.fcnfg fcnfgCcie }

def fmuComplete : FmuState :=
  fmuUpdateIrq { s with
    peActive := false, peWords := 0
    fstat := (s.fstat &&& ~~~(fstatPewenMask ||| fstatPerdy)) ||| fstatCcif }

def fmuFail (flag : Word) : FmuState := fmuComplete { s with fstat := s.fstat ||| flag }

def fmuOpenWriteWindow (cmd : Byte) (words : ℕ) (pewen : Word) :
    FmuState :=
  { s with
    peCmd := cmd, peExpect := words, peWords := 0, peAddr := 0, peActive := true
    peBuf := fun _ => 0xFF, fstat := ((s.fstat &&& ~~~fstatPerdy) &&& ~~~fstatPewenMask) ||| pewen }

def notErased (flash : Mem) (off len : ℕ) : Bool :=
  (List.range len).any fun i => off + i < flashSize && flash (off + i) != 0xFF

def fmuVerifyErased (off len : ℕ) : FmuState :=
  if notErased s.flash off len then { s with fstat := s.fstat ||| fstatFail } else s

def programByte (off : ℕ) (buf : Mem) (acc : Mem × Bool) (i : ℕ) : Mem × Bool :=
  let merged := acc.1 (off + i) &&& buf i
  (Function.update acc.1 (off + i) merged, acc.2 || merged != buf i)

def fmuCommit (s : FmuState) : Option FmuState :=
  let len := s.peExpect * 4
  let off := s.peAddr
  if s.peCmd = fcmdPgmpg ∨ s.peCmd = fcmdPgmphr then
    if off + len > flashSize then some (fmuFail s fstatAccerr)
    else
      let result := (List.range len).foldl (programByte off s.peBuf) (s.flash, false)
      let s := { s with flash := result.1 }
      let s := if result.2 then { s with fstat := s.fstat ||| fstatFail } else s
      some (fmuComplete s)
  else if s.peCmd = fcmdErsscr then
    -- `off & ~(MCXN_FLASH_SECTOR - 1)`
    let sec := off / flashSector * flashSector
    if sec + flashSector > flashSize then some (fmuFail s fstatAccerr)
    else
      let s := { s with flash := fill s.flash sec flashSector 0xFF }
      some (fmuComplete (fmuVerifyErased s sec flashSector))
  else none

def fmuReadOnes (addr unit : ℕ) : FmuState :=
  if addr &&& (unit - 1) ≠ 0 then fmuFail s fstatAccerr
  else fmuComplete (fmuVerifyErased s addr unit)

def fmuLaunch (s : FmuState) : FmuState :=
  let cmd := (s.fccob 0).setWidth 8
  let addr := fmuFlashOff (s.fccob 2).toNat
  let s := fmuUpdateIrq { s with fstat := s.fstat &&& ~~~fstatCcif }
  let s := { s with launched := s.launched ++ [cmd] }
  if cmd = fcmdErsall then
    fmuComplete { s with flash := fill s.flash 0 flashSize 0xFF }
  else if cmd = fcmdRd1all then fmuComplete (fmuVerifyErased s 0 flashSize)
  else if cmd = fcmdRd1blk then
    -- `addr & ~(flash_size / 2 - 1)`
    let block := addr / (flashSize / 2) * (flashSize / 2)
    fmuComplete (fmuVerifyErased s block (flashSize / 2))
  else if cmd = fcmdRd1scr then fmuReadOnes s addr flashSector
  else if cmd = fcmdRd1pg then fmuReadOnes s addr flashPage
  else if cmd = fcmdRd1phr then fmuReadOnes s addr flashPhrase
  else if cmd = fcmdPgmpg then fmuOpenWriteWindow s cmd (flashPage / 4) pewenPage
  else if cmd = fcmdPgmphr ∨ cmd = fcmdErsscr then
    fmuOpenWriteWindow s cmd (flashPhrase / 4) pewenPhrase
  else fmuFail s fstatAccerr

def fmuStageAddr (off : ℕ) : Option FmuState :=
  if s.peWords = 0 then
    if off &&& (s.peExpect * 4 - 1) ≠ 0 then none else some { s with peAddr := off }
  else if off ≠ s.peAddr + s.peWords * 4 then none
  else some s

def mcxnFmuFlashWrite (s : FmuState) (off : ℕ) (v : Word) (size : ℕ) : FmuState :=
  if !s.peActive || !anyBit s.fstat fstatPewenMask then s
  else if size ≠ 4 then fmuFail s fstatAccerr
  else
    match fmuStageAddr s off with
    | none => fmuFail s fstatAccerr
    | some s =>
      if s.peWords ≥ s.peExpect then fmuFail s fstatAccerr
      else
        let s := { s with
          peBuf := store32 s.peBuf (s.peWords * 4) v, peWords := s.peWords + 1 }
        if s.peWords = s.peExpect then
          { s with fstat := (s.fstat &&& ~~~fstatPewenMask) ||| fstatPerdy }
        else s

def mcxnFmuWrite (s : FmuState) (off : ℕ) (v : Word) : Option FmuState :=
  if off = 0x0 then
    let blocked := anyBit s.fstat fstatErrors
    let s := { s with fstat := s.fstat &&& ~~~(v &&& fstatErrors) }
    if anyBit v fstatPerdy && anyBit s.fstat fstatPerdy then
      fmuCommit { s with fstat := s.fstat &&& ~~~fstatPerdy }
    else if anyBit v fstatCcif && anyBit s.fstat fstatCcif && !blocked then
      some (fmuLaunch s)
    else some s
  else if off = 0x4 then some (fmuUpdateIrq { s with fcnfg := v })
  else if off = 0x8 then
    let s := { s with fctrl := v }
    if anyBit v fctrlAbtreq then
      let s := if s.peActive then fmuFail s fstatCmdabt else s
      some { s with fctrl := s.fctrl &&& ~~~fctrlAbtreq }
    else some s
  else if h : 0x10 ≤ off ∧ off < 0x30 then
    if anyBit s.fstat fstatCcif then
      some { s with fccob := Function.update s.fccob ⟨(off - 0x10) / 4, by omega⟩ v }
    else some s
  else some s

def mcxnFmuReset : FmuState :=
  { s with
    fstat := fstatCcif, fcnfg := 0, fctrl := 0, fccob := fun _ => 0, peActive := false, peWords := 0
    peExpect := 0, peAddr := 0, peCmd := 0, peBuf := fun _ => 0xFF }

def FmuState.load (s saved : FmuState) : FmuState :=
  { saved with
    irq := s.irq, launched := s.launched }

def mcxnFmuPostLoad : FmuState := fmuUpdateIrq s

def powerOn (flash : Mem) : FmuState :=
  mcxnFmuReset
    { fstat := 0, fcnfg := 0, fctrl := 0, fccob := fun _ => 0, peBuf := fun _ => 0
      peAddr := 0, peWords := 0, peExpect := 0, peCmd := 0, peActive := false
      irq := false, flash := flash, launched := [] }

inductive FmuEvent where
  | write (off : ℕ) (v : Word)
  | flashWrite (off : Fin flashSize) (v : Word) (size : ℕ)
  | reset

def fmuStep : FmuEvent → Option FmuState
  | .write off v => mcxnFmuWrite s off v
  | .flashWrite off v size => some (mcxnFmuFlashWrite s off v size)
  | .reset => some (mcxnFmuReset s)

def fmuNext (s : Option FmuState) (e : FmuEvent) : Option FmuState := s.bind fun s => fmuStep s e

end Mcxn947.Fmu
