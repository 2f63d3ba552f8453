import Mcxn947.EventRuns
import Mcxn947.GuestMemory

/-!
# The SD host controller

`hw/misc/mcxn_usdhc.c`: commands go to a card on the SD bus, and the data phase of
a command moves bytes by PIO through the buffer port, by simple DMA from `DS_ADDR`
or by an ADMA2 descriptor walk.
-/

namespace Mcxn947.Usdhc

open MachineWords GuestMemory

abbrev RegIdx := Fin 0x400

/-- The card as `hw/sd/core.c` reaches it.  `sdbus_read_data` and `sdbus_write_data` assert
that the card moves a byte whenever bytes are left; `running` is false in the states after
such an assertion has failed, which ends the emulator. -/
structure SdBus (κ : Type) where
  doCommand : κ → ℕ → Word → List Byte × κ
  readData : κ → ℕ → (ℕ → Byte) × κ
  writeData : κ → List Byte → κ
  (inserted running : κ → Bool)

structure UsdhcState where
  regs : RegIdx → Word
  (dataLen dataPos : Word)
  (dataRead irq : Bool)

structure Wire (κ : Type) where
  card : κ
  mem : Mem
  mapped : ℕ → Bool
  exchanged : ℕ

structure Controller (κ : Type) where
  st : UsdhcState
  wire : Wire κ
  completions : List ℕ

def rDsAddr : RegIdx := 0x00
def rBlkAtt : RegIdx := 0x01
def rCmdArg : RegIdx := 0x02
def rCmdXfrTyp : RegIdx := 0x03
def rCmdRsp0 : RegIdx := 0x04
def rCmdRsp1 : RegIdx := 0x05
def rCmdRsp2 : RegIdx := 0x06
def rCmdRsp3 : RegIdx := 0x07
def rProtCtrl : RegIdx := 0x0A
def rIntStatus : RegIdx := 0x0C
def rIntSignalEn : RegIdx := 0x0E
def rMixCtrl : RegIdx := 0x12
def rAdmaSysAddr : RegIdx := 0x16

def presSdstb : Word := 0x00000008
def presCinst : Word := 0x00010000
def sysCtrlRsta : Word := 0x01000000
def sysCtrlRstc : Word := 0x02000000
def sysCtrlRstd : Word := 0x04000000
def sysCtrlInita : Word := 0x08000000
def sysCtrlSelfClear : Word := sysCtrlRsta ||| sysCtrlRstc ||| sysCtrlRstd ||| sysCtrlInita
def cmdXfrDpsel : Word := 0x00200000
def intCc : Word := 0x00000001
def intTc : Word := 0x00000002
def intCtoe : Word := 0x00010000
def intDmae : Word := 0x10000000
def mixDmaen : Word := 0x00000001
def mixBcen : Word := 0x00000002
def mixDtdsel : Word := 0x00000010
def dmaselAdma2 : Word := 2
def admaValid : Word := 0x01
def admaEnd : Word := 0x02
def admaActMask : Word := 0x30
def admaActTran : Word := 0x20
def admaActLink : Word := 0x30
def hostCtrlCapValue : Word := 0x07F3B407 &&& ~~~(0x1 ||| 0x2 ||| 0x4 ||| 0x2000)

variable (s : UsdhcState)

def UsdhcState.setReg (r : RegIdx) (v : Word) : UsdhcState :=
  { s with regs := Function.update s.regs r v }

def UsdhcState.orReg (r : RegIdx) (v : Word) : UsdhcState := s.setReg r (s.regs r ||| v)

def mcxnUsdhcUpdateIrq : UsdhcState :=
  { s with irq := s.regs rIntStatus &&& s.regs rIntSignalEn != 0 }

section Bus

variable {κ : Type} (bus : SdBus κ)

variable (w : Wire κ) (desc : ℕ) (s : UsdhcState) (u : Controller κ)

def Controller.raise (bits : Word) : Controller κ := { u with st := u.st.orReg rIntStatus bits }

def Controller.raiseTc : Controller κ :=
  { u.raise intTc with completions := u.completions ++ [u.wire.exchanged] }

def Controller.updateIrq : Controller κ := { u with st := mcxnUsdhcUpdateIrq u.st }

def dmaWrite (addr : ℕ) (bytes : List Byte) : Mem := fun a =>
  if w.mapped a then store w.mem addr bytes a else w.mem a

def movePiece (read : Bool) (w : Wire κ) (addr n : ℕ) : Wire κ :=
  if read then
    let (bytes, card) := bus.readData w.card n
    { w with
      card := card, mem := dmaWrite w addr ((List.range n).map bytes)
      exchanged := w.exchanged + n }
  else
    { w with
      card := bus.writeData w.card (load w.mem addr n), exchanged := w.exchanged + n }

def moveLoop (read : Bool) : ℕ → Wire κ → ℕ → ℕ → Wire κ
  | 0, w, _, _ => w
  | fuel + 1, w, addr, len =>
    if len = 0 then w
    else
      let n := min 512 len
      moveLoop read fuel (movePiece bus read w addr n) (addr + n) (len - n)

def moveBytes (read : Bool) (w : Wire κ) (addr len : ℕ) : Wire κ := moveLoop bus read len w addr len

def descReadable : Bool := (List.range 8).all fun i => w.mapped (desc + i)

def descAttr : Word := load32 w.mem desc &&& 0x7F

def descLen : ℕ :=
  let len := (load32 w.mem desc >>> 16).toNat
  if len = 0 then 65536 else len

def descAct : Word := descAttr w desc &&& admaActMask

def descAddr : ℕ := (load32 w.mem (desc + 4) &&& ~~~3).toNat

def admaLoop (read : Bool) : ℕ → Wire κ → ℕ → ℕ → Wire κ × Option ℕ
  | 0, w, desc, left => if left = 0 then (w, some desc) else (w, none)
  | guard + 1, w, desc, left =>
    if left = 0 then (w, some desc)
    else if !descReadable w desc then (w, none)
    else
      let attr := descAttr w desc
      let act := descAct w desc
      if !anyBit attr admaValid then (w, none)
      else if act = admaActTran then
        let n := min (descLen w desc) left
        let w := moveBytes bus read w (descAddr w desc) n
        if anyBit attr admaEnd then (w, some desc)
        else admaLoop read guard w (desc + 8) (left - n)
      else if act = admaActLink then admaLoop read guard w (descAddr w desc) left
      else if anyBit attr admaEnd then (w, some desc)
      else admaLoop read guard w (desc + 8) left

def mcxnUsdhcDoAdma2 (read : Bool) (u : Controller κ) (total : ℕ) : Controller κ :=
  let (wire, ended) := admaLoop bus read 4096 u.wire (u.st.regs rAdmaSysAddr).toNat total
  let u := { u with wire := wire }
  match ended with
  | some desc => { u with st := u.st.setReg rAdmaSysAddr (BitVec.ofNat 32 desc) }
  | none => u.raise intDmae

def UsdhcState.blksize : ℕ := (s.regs rBlkAtt &&& 0x1FFF).toNat

def UsdhcState.blkcnt (s : UsdhcState) : ℕ :=
  let blkcnt := (s.regs rBlkAtt >>> 16).toNat
  if !anyBit (s.regs rMixCtrl) mixBcen || blkcnt == 0 then 1 else blkcnt

def UsdhcState.total : ℕ := s.blksize * s.blkcnt

def UsdhcState.dtdsel : Bool := anyBit (s.regs rMixCtrl) mixDtdsel

def UsdhcState.dmaEnabled : Bool := anyBit (s.regs rMixCtrl) mixDmaen

def UsdhcState.adma2 : Bool := (s.regs rProtCtrl &&& 0x300) >>> 8 == dmaselAdma2

def sdmaTransfer (read : Bool) (u : Controller κ) (total : ℕ) : Controller κ :=
  let addr := (u.st.regs rDsAddr).toNat
  { u with
    wire := moveBytes bus read u.wire addr total
    st := u.st.setReg rDsAddr (BitVec.ofNat 32 (addr + total)) }

def mcxnUsdhcDoData : Controller κ :=
  let s := u.st
  let total := s.total
  if total = 0 then u.raiseTc
  else if !s.dmaEnabled then
    { u with st := { s with
      dataLen := BitVec.ofNat 32 total, dataPos := 0, dataRead := s.dtdsel } }
  else if s.adma2 then (mcxnUsdhcDoAdma2 bus s.dtdsel u total).raiseTc
  else (sdmaTransfer bus s.dtdsel u total).raiseTc

def ldlBe (response : List Byte) (i : ℕ) : Word :=
  response.getD i 0 ++ response.getD (i + 1) 0 ++ response.getD (i + 2) 0 ++ response.getD (i + 3) 0

def setResponse (rsp0 rsp1 rsp2 rsp3 : Word) : UsdhcState :=
  (((s.setReg rCmdRsp0 rsp0).setReg rCmdRsp1 rsp1).setReg rCmdRsp2 rsp2).setReg rCmdRsp3 rsp3

def marshalResponse (response : List Byte) : Option UsdhcState :=
  if response.length = 4 then some (setResponse s (ldlBe response 0) 0 0 0)
  else if response.length = 16 then
    some (setResponse s (ldlBe response 11) (ldlBe response 7) (ldlBe response 3)
      (((response.getD 0 0).setWidth 32 <<< 16) ||| ((response.getD 1 0).setWidth 32 <<< 8) |||
        (response.getD 2 0).setWidth 32))
  else none

def mcxnUsdhcSendCommand (u : Controller κ) (xfrtyp : Word) : Controller κ :=
  let (response, card) :=
    bus.doCommand u.wire.card ((xfrtyp >>> 24) &&& 0x3F).toNat (u.st.regs rCmdArg)
  let u := { u with wire := { u.wire with card := card } }
  match marshalResponse u.st response with
  | none => (u.raise intCtoe).updateIrq
  | some st =>
    let u := { u with st := st }.raise intCc
    if anyBit xfrtyp cmdXfrDpsel then
      -- a new data phase: the ghost count starts again
      let u := { u with wire := { u.wire with exchanged := 0 }, completions := [] }
      (mcxnUsdhcDoData bus u).updateIrq
    else u.updateIrq

def portAdvance (u : Controller κ) (card : κ) : Controller κ :=
  let pos := u.st.dataPos + 4
  let u := { u with
    st := { u.st with dataPos := pos }
    wire := { u.wire with card := card, exchanged := u.wire.exchanged + 4 } }
  if u.st.dataLen ≤ pos then
    { u with st := { u.st with dataLen := 0 } }.raiseTc.updateIrq
  else u

def portRead : Word × Controller κ :=
  if u.st.dataLen = 0 || !u.st.dataRead then (0, u)
  else
    let (bytes, card) := bus.readData u.wire.card 4
    (bytes 3 ++ bytes 2 ++ bytes 1 ++ bytes 0, portAdvance u card)

def portWrite (val : Word) : Controller κ :=
  if u.st.dataLen = 0 || u.st.dataRead then u
  else portAdvance u (bus.writeData u.wire.card (wordBytes val))

def mcxnUsdhcRead (off : ℕ) : Word × Controller κ :=
  let v : Word := if h : off < 0x1000 then u.st.regs ⟨off / 4, div_four_lt h⟩ else 0
  if off = 0x24 then
    (presSdstb ||| (if bus.inserted u.wire.card then presCinst else 0), u)
  else if off = 0x20 then portRead bus u
  else if off = 0x40 then (hostCtrlCapValue, u)
  else if off = 0x54 then (0, u)
  else if off = 0x2C then (v &&& ~~~sysCtrlSelfClear, u)
  else (v, u)

def readOnly (off : ℕ) : Bool := off ∈ [0x24, 0x10, 0x14, 0x18, 0x1C, 0x54, 0x64, 0x40]

def mcxnUsdhcWrite (u : Controller κ) (off : ℕ) (val : Word) : Controller κ :=
  if h : off < 0x1000 then
    let r : RegIdx := ⟨off / 4, div_four_lt h⟩
    if readOnly off then u
    else if off = 0x2C then
      let u := { u with st := u.st.setReg r (val &&& ~~~sysCtrlSelfClear) }
      if anyBit val (sysCtrlRsta ||| sysCtrlRstc ||| sysCtrlRstd) then
        { u with st := u.st.setReg rIntStatus 0 }.updateIrq
      else u
    else if off = 0x30 then { u with st := u.st.setReg r (u.st.regs r &&& ~~~val) }.updateIrq
    else if off = 0x0C then
      mcxnUsdhcSendCommand bus { u with st := u.st.setReg r val } val
    else if off = 0x20 then portWrite bus u val
    else if off = 0x38 then { u with st := u.st.setReg r val }.updateIrq
    else { u with st := u.st.setReg r val }
  else u

end Bus

def rstUsdhc0 : List (RegIdx × Word) :=
  [(0x01, 0x00010000), (0x0A, 0x08800020), (0x0B, 0x0080800F), (0x10, hostCtrlCapValue),
   (0x11, 0x08100810), (0x12, 0x80000000), (0x19, 0x00000200), (0x30, 0x30007809),
   (0x32, 0x00019006), (0x33, 0x00212800)]

def resetRegs : RegIdx → Word := fun r => (rstUsdhc0.lookup r).getD 0

def mcxnUsdhcReset {κ : Type} (u : Controller κ) : Controller κ :=
  { u with st :=
      { regs := resetRegs, dataLen := 0, dataPos := 0, dataRead := false, irq := u.st.irq } }

end Mcxn947.Usdhc
