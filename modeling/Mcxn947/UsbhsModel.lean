import Mcxn947.GuestMemory
import Mcxn947.UsbBridge

/-!
# The high-speed USB controller

The core of `hw/misc/mcxn_usbhs.c` in device mode.
-/

namespace Mcxn947.Usbhs

open MachineWords GuestMemory Usbdev

abbrev EpIdx := Fin 8

abbrev RegIdx := Fin 0x80

structure UsbhsXfer where
  inPending : Bool
  inLen : ℕ
  outPending : Bool
  outData : List Byte

structure UsbhsState where
  regs : RegIdx → Word
  (irq enabled ep0StatusIn : Bool)
  ep : EpIdx → UsbhsXfer

structure Transfer where
  ep : EpIdx
  isIn : Bool
  dtd : Word
  remaining : ℕ
  (before after : Mem)
  moved : List Byte

inductive EngineMark where
  | read (ep : EpIdx) (isIn : Bool)
  | retire (t : Transfer)

structure Core where
  st : UsbhsState
  mem : Mem
  log : List EngineMark
  calls : List BackendCall

def rUsbcmd : RegIdx := 0x50
def rUsbsts : RegIdx := 0x51
def rUsbintr : RegIdx := 0x52
def rEndptlistaddr : RegIdx := 0x56
def rUsbmode : RegIdx := 0x6A
def rEndptsetupstat : RegIdx := 0x6B
def rEndptprime : RegIdx := 0x6C
def rEndptflush : RegIdx := 0x6D
def rEndptstat : RegIdx := 0x6E
def rEndptcomplete : RegIdx := 0x6F
def rEndptctrl0 : RegIdx := 0x70

def readOnly : List RegIdx :=
  [0x00, 0x01, 0x02, 0x03, 0x04, 0x05, 0x40, 0x41, 0x42, 0x48, 0x49, rEndptstat]

def usbcmdRs : Word := 0x1
def usbcmdRst : Word := 0x2
def usbstsUi : Word := 0x1
def usbstsUri : Word := 0x40
def usbstsW1cMask : Word := 0x3FF
def usbmodeCmMask : Word := 0x3
def usbmodeCmDevice : Word := 0x2

def dtdActive : Word := 0x80
def dtdTerminate : Word := 0x1
def dtdTotbytesMask : Word := 0x7FFF
def dqhSetup0 : Word := 0x28

def usbhsXfermax : ℕ := 1024

def speedHigh : Byte := 2

variable (s : UsbhsState) (x : Core)

def UsbhsState.setReg (r : RegIdx) (v : Word) : UsbhsState :=
  { s with regs := Function.update s.regs r v }

def UsbhsState.setXfer (ep : EpIdx) (t : UsbhsXfer) : UsbhsState :=
  { s with ep := Function.update s.ep ep t }

def hsLd (m : Mem) (addr : Word) : Word := load32 m addr.toNat

def hsSt (m : Mem) (addr w : Word) : Mem := store32 m addr.toNat w

def hsDqh (ep : EpIdx) (isIn : Bool) : Word :=
  (s.regs rEndptlistaddr &&& ~~~0x7FF) + BitVec.ofNat 32 ((ep.val * 2 + isIn.toNat) * 64)

def usbhsCoreUpdateIrq : UsbhsState :=
  { s with irq := anyBit (s.regs rUsbsts &&& s.regs rUsbintr) usbstsW1cMask }

def usbhsUi : UsbhsState := usbhsCoreUpdateIrq (s.setReg rUsbsts (s.regs rUsbsts ||| usbstsUi))

def endptcomplete (bit : ℕ) : UsbhsState :=
  usbhsUi (s.setReg rEndptcomplete (s.regs rEndptcomplete ||| BitVec.twoPow 32 bit))

def totbytes (token : Word) : ℕ := ((token >>> 16) &&& dtdTotbytesMask).toNat

def retiredToken (token : Word) (remaining : ℕ) : Word :=
  (token &&& ~~~(0xFF : Word) &&& ~~~(dtdTotbytesMask <<< 16)) |||
    ((BitVec.ofNat 32 remaining &&& dtdTotbytesMask) <<< 16)

def nextDtd (ep : EpIdx) (isIn : Bool) : Word := hsLd x.mem (hsDqh x.st ep isIn + 8)

def hsActiveDtd (ep : EpIdx) (isIn : Bool) : Core × Word :=
  let next := nextDtd x ep isIn
  if anyBit next dtdTerminate then (x, 0)
  else
    let dtd := next &&& ~~~0x1F
    let token := hsLd x.mem (dtd + 4)
    ({ x with log := x.log ++ [.read ep isIn] }, if anyBit token dtdActive then dtd else 0)

def hsRetireDtd (t : Transfer) : Core :=
  let qh := hsDqh x.st t.ep t.isIn
  let token := hsLd x.mem (t.dtd + 4)
  let m := hsSt x.mem (t.dtd + 4) (retiredToken token t.remaining)
  let m := hsSt m (qh + 4) t.dtd
  { x with mem := hsSt m (qh + 8) (hsLd m t.dtd), log := x.log ++ [.retire t] }

def devEp (ep : EpIdx) : Fin 16 := Fin.ofNat 16 ep.val

def usbhsServiceIn (x : Core) (ep : EpIdx) : Core :=
  let (x, dtd) := hsActiveDtd x ep true
  if dtd = 0 then x
  else
    let total := totbytes (hsLd x.mem (dtd + 4))
    let bufp := hsLd x.mem (dtd + 8)
    let n := min (min total (x.st.ep ep).inLen) usbhsXfermax
    let data := load x.mem bufp.toNat n
    let x := hsRetireDtd x ⟨ep, true, dtd, total - n, x.mem, x.mem, data⟩
    let s := endptcomplete x.st (16 + ep.val)
    { x with
      st := s.setXfer ep { s.ep ep with inPending := false }
      calls := x.calls ++ [.completeIn (devEp ep) data] }

def usbhsServiceOut (x : Core) (ep : EpIdx) : Core :=
  let (x, dtd) := hsActiveDtd x ep false
  if dtd = 0 then x
  else
    let cap := totbytes (hsLd x.mem (dtd + 4))
    let bufp := hsLd x.mem (dtd + 8)
    let data := (x.st.ep ep).outData.take cap
    let n := data.length
    let m := store x.mem bufp.toNat data
    let x := hsRetireDtd { x with mem := m } ⟨ep, false, dtd, cap - n, x.mem, m, data⟩
    let s := endptcomplete x.st ep.val
    { x with
      st := s.setXfer ep { s.ep ep with outPending := false }
      calls := x.calls ++ [.completeOut (devEp ep) .success n] }

def usbhsConsumeStatusIn (x : Core) : Core :=
  let (x, dtd) := hsActiveDtd x 0 true
  if dtd = 0 then x
  else
    let x := hsRetireDtd x ⟨0, true, dtd, 0, x.mem, x.mem, []⟩
    let s := endptcomplete x.st 16
    { x with
      st := { s with ep0StatusIn := false }, calls := x.calls ++ [.completeOut 0 .success 0] }

def usbhsServiceEp (x : Core) (ep : EpIdx) : Core :=
  let x := if (x.st.ep ep).outPending then usbhsServiceOut x ep else x
  if (x.st.ep ep).inPending && !(ep = 0 && x.st.ep0StatusIn) then usbhsServiceIn x ep else x

def usbhsService (x : Core) : Core :=
  if !x.st.enabled then x
  else
    let x := if x.st.ep0StatusIn then usbhsConsumeStatusIn x else x
    (List.finRange 8).foldl usbhsServiceEp x

def usbhsSof : Core := if !x.st.enabled then x else usbhsService x

def setupWord (setup : List Byte) (i : ℕ) : Word :=
  setup.getD (i + 3) 0 ++ setup.getD (i + 2) 0 ++ setup.getD (i + 1) 0 ++ setup.getD i 0

def usbhsBeSetup (setup : List Byte) : Core :=
  let qh0 := hsDqh x.st 0 false
  let m := hsSt x.mem (qh0 + dqhSetup0) (setupWord setup 0)
  let m := hsSt m (qh0 + dqhSetup0 + 4) (setupWord setup 4)
  let s := x.st.setReg rEndptsetupstat (x.st.regs rEndptsetupstat ||| 1)
  let s := { s with ep0StatusIn := !anyBit (setup.getD 0 0) 0x80 }
  let s := s.setXfer 0 { s.ep 0 with inPending := false, outPending := false }
  { x with st := usbhsUi s, mem := m }

def hsEp (ep : Fin 16) : EpIdx := Fin.ofNat 8 ep.val

def usbhsBeEpIn (ep : Fin 16) (len : ℕ) : Core × Xfer :=
  let t := { x.st.ep (hsEp ep) with inPending := true, inLen := len }
  (usbhsService { x with st := x.st.setXfer (hsEp ep) t }, .async)

def usbhsBeEpOut (ep : Fin 16) (data : List Byte) : Core × Xfer :=
  let t := { x.st.ep (hsEp ep) with outData := data.take usbhsXfermax, outPending := true }
  (usbhsService { x with st := x.st.setXfer (hsEp ep) t }, .async)

def usbhsBeBusReset : Core :=
  let s := { x.st with
    ep := fun ep => { x.st.ep ep with inPending := false, outPending := false }
    ep0StatusIn := false }
  { x with st := usbhsCoreUpdateIrq (s.setReg rUsbsts (s.regs rUsbsts ||| usbstsUri)) }

def deviceMode (regs : RegIdx → Word) : Bool := regs rUsbmode &&& usbmodeCmMask == usbmodeCmDevice

def writeUsbcmd (v : Word) : Core :=
  if anyBit v usbcmdRst then
    let s := ((x.st.setReg rUsbcmd 0).setReg rUsbsts 0).setReg rUsbintr 0
    { x with st := usbhsCoreUpdateIrq { s with enabled := false } }
  else
    let s := x.st.setReg rUsbcmd v
    if anyBit v usbcmdRs && deviceMode s.regs && !s.enabled then
      { x with st := { s with enabled := true }, calls := x.calls ++ [.attach speedHigh] }
    else if !anyBit v usbcmdRs && s.enabled then
      { x with st := { s with enabled := false }, calls := x.calls ++ [.detach] }
    else { x with st := s }

lemma core_div_four_lt {off : ℕ} (h : off < 0x200) : off / 4 < 0x80 := by omega

def usbhsCoreWrite (off : ℕ) (v : Word) : Core :=
  if h : off < 0x200 then
    let r : RegIdx := ⟨off / 4, core_div_four_lt h⟩
    -- an offset inside a word names no register of the switch
    if off % 4 ≠ 0 then { x with st := x.st.setReg r v }
    else if r ∈ readOnly then x
    else if r = rUsbcmd then writeUsbcmd x v
    else if r = rUsbsts then
      let s := x.st.setReg r (x.st.regs r &&& ~~~(v &&& usbstsW1cMask))
      { x with st := usbhsCoreUpdateIrq s }
    else if r = rUsbintr then { x with st := usbhsCoreUpdateIrq (x.st.setReg r v) }
    else if r = rEndptsetupstat ∨ r = rEndptcomplete then
      { x with st := x.st.setReg r (x.st.regs r &&& ~~~v) }
    else if r = rEndptprime then
      usbhsService { x with st := x.st.setReg rEndptstat (x.st.regs rEndptstat ||| v) }
    else if r = rEndptflush then
      { x with st := x.st.setReg rEndptstat (x.st.regs rEndptstat &&& ~~~v) }
    else { x with st := x.st.setReg r v }
  else x

def coreResetVals : List (RegIdx × Word) :=
  [(0x24, 0x00000002), (rUsbcmd, 0x00080000), (0x58, 0x00000808), (0x60, 0x00000001),
   (0x61, 0x1C000004), (rUsbmode, 0x00005000), (rEndptctrl0, 0x00800080)]

def resetRegs : RegIdx → Word := fun r => (coreResetVals.lookup r).getD 0

def usbhsCoreReset : Core :=
  { x with st := { x.st with
      regs := resetRegs, ep := fun _ => ⟨false, 0, false, []⟩, enabled := false
      ep0StatusIn := false } }

def UsbhsState.created : UsbhsState where
  regs := fun _ => 0
  irq := false
  enabled := false
  ep0StatusIn := false
  ep := fun _ => ⟨false, 0, false, []⟩

def Core.powerOn (mem : Mem) : Core := usbhsCoreReset ⟨.created, mem, [], []⟩

inductive UsbhsEvent where
  | write (off : ℕ) (v : Word)
  | sof
  | setup (pkt : List Byte)
  | epIn (ep : Fin 16) (len : ℕ)
  | epOut (ep : Fin 16) (data : List Byte)
  | busReset
  | reset
  | store (addr : ℕ) (bytes : List Byte)

def usbhsStep : UsbhsEvent → Core
  | .write off v => usbhsCoreWrite x off v
  | .sof => usbhsSof x
  | .setup pkt => usbhsBeSetup x pkt
  | .epIn ep len => (usbhsBeEpIn x ep len).1
  | .epOut ep data => (usbhsBeEpOut x ep data).1
  | .busReset => usbhsBeBusReset x
  | .reset => usbhsCoreReset x
  | .store addr bytes => { x with mem := GuestMemory.store x.mem addr bytes }

end Mcxn947.Usbhs
