import Mcxn947.EventRuns
import Mcxn947.GuestMemory

/-!
# The full-speed USB controller

`hw/misc/mcxn_usbfs.c`: the guest arms buffer descriptors in memory, two banks
for every endpoint and direction; the controller fills or drains the bank that is
due, writes the descriptor back, names it in `STAT` and raises
`ISTAT[TOKDNE]`.
-/

namespace Mcxn947.Usbfs

open MachineWords GuestMemory Function

abbrev EpIdx := Fin 16

abbrev RegIdx := Fin 0x400

structure Bd where
  ep : EpIdx
  (tx odd : Bool)
deriving DecidableEq

/-- The request of the remote host that waits on one endpoint.  Only the first
`inAcc` bytes of `inBuf` and the first `outLen` bytes of `outBuf` are in use. -/
structure UsbfsXfer where
  inPending : Bool
  (inLen inAcc : ℕ)
  inBuf : Mem
  outPending : Bool
  (outLen outOff : ℕ)
  outBuf : Mem

def UsbfsXfer.zero : UsbfsXfer := ⟨false, 0, 0, fun _ => 0, false, 0, 0, fun _ => 0⟩

structure HostPend where
  (ba bufaddr : Word)
  bd : Bd
  pid : Word

structure UsbfsState where
  regs : RegIdx → Word
  (irq hostMode portDev : Bool)
  hostPend : Option HostPend
  (enabled tokdneBusy : Bool)
  (oddRx oddTx : EpIdx → Bool)
  (setupPending ep0StatusIn : Bool)
  setupPkt : List Byte
  ep : EpIdx → UsbfsXfer

inductive TokenMark where
  | writeBack (bd : Bd)
  | tokdne (stat : Word)
  | bankReset
deriving DecidableEq

inductive UsbdevCall where
  | attach
  | detach
  | completeIn (ep : EpIdx) (data : List Byte)
  | completeOut (ep : EpIdx) (len : ℕ)
deriving DecidableEq

structure Controller where
  st : UsbfsState
  mem : Mem
  log : List TokenMark
  calls : List UsbdevCall

def rPerid : RegIdx := 0x00
def rIdcomp : RegIdx := 0x01
def rRev : RegIdx := 0x02
def rAddinfo : RegIdx := 0x03
def rOtgistat : RegIdx := 0x04
def rOtgicr : RegIdx := 0x05
def rOtgstat : RegIdx := 0x06
def rIstat : RegIdx := 0x20
def rInten : RegIdx := 0x21
def rErrstat : RegIdx := 0x22
def rErren : RegIdx := 0x23
def rStat : RegIdx := 0x24
def rCtl : RegIdx := 0x25
def rBdtpage1 : RegIdx := 0x27
def rFrmnuml : RegIdx := 0x28
def rToken : RegIdx := 0x2A
def rBdtpage2 : RegIdx := 0x2C
def rBdtpage3 : RegIdx := 0x2D
def rUsbtrc0 : RegIdx := 0x43

def rEndpt (ep : EpIdx) : RegIdx := ⟨0x30 + ep.val, by omega⟩

def ctlUsbensofen : Word := 0x01
def ctlOddrst : Word := 0x02
def ctlHostmodeen : Word := 0x08
def usbtrc0Usbreset : Word := 0x80

def istatUsbrst : Word := 0x01
def istatError : Word := 0x02
def istatSoftok : Word := 0x04
def istatTokdne : Word := 0x08
def istatAttach : Word := 0x40

def endptEpstall : Word := 0x02

def bdOwn : Word := 0x80
def pidOut : Word := 0x1
def pidIn : Word := 0x9
def pidSetup : Word := 0xD

def usbfsMps : ℕ := 64
def usbfsXfermax : ℕ := 1024

variable (s : UsbfsState) (x : Controller) (bd : Bd)

def UsbfsState.setReg (r : RegIdx) (v : Word) : UsbfsState := { s with regs := update s.regs r v }

def usbfsUpdateIrq : UsbfsState :=
  { s with irq :=
      anyBit (s.regs rIstat &&& s.regs rInten) 0xFF ||
      anyBit (s.regs rErrstat &&& s.regs rErren) 0xFF ||
      anyBit (s.regs rOtgistat &&& s.regs rOtgicr) 0xFF }

def bdtBase : Word :=
  ((s.regs rBdtpage1 &&& 0xFF) <<< 8) ||| ((s.regs rBdtpage2 &&& 0xFF) <<< 16) |||
    ((s.regs rBdtpage3 &&& 0xFF) <<< 24)

def bdOff : Word := BitVec.ofNat 32 ((bd.ep.val * 4 + (if bd.tx then 2 else 0) + bd.odd.toNat) * 8)

def bdLd (m : Mem) (addr : Word) : Word := load32 m addr.toNat

def bdSt (ba : Word) (w : Word) (bd : Bd) : Controller :=
  { x with mem := store32 x.mem ba.toNat w, log := x.log ++ [.writeBack bd] }

def statOf : Word :=
  (BitVec.ofNat 32 bd.ep.val <<< 4) ||| (if bd.tx then 0x08 else 0) ||| (if bd.odd then 0x04 else 0)

def usbfsTokdne : Controller :=
  let s := x.st.setReg rStat (statOf bd)
  let s := s.setReg rIstat (s.regs rIstat ||| istatTokdne)
  { x with
    st := usbfsUpdateIrq { s with tokdneBusy := true }, log := x.log ++ [.tokdne (statOf bd)] }

def UsbfsState.bank (ep : EpIdx) (tx : Bool) : Bool := if tx then s.oddTx ep else s.oddRx ep

def UsbfsState.flipBank (ep : EpIdx) (tx : Bool) : UsbfsState :=
  if tx then { s with oddTx := update s.oddTx ep (!s.oddTx ep) }
  else { s with oddRx := update s.oddRx ep (!s.oddRx ep) }

def Controller.resetBanks : Controller :=
  { x with
    st := { x.st with oddRx := fun _ => false, oddTx := fun _ => false }
    log := x.log ++ [.bankReset] }

inductive HostAnswer where
  | noDevice
  | async
  | done (actual : ℕ) (data : List Byte)
  | stall
  | nak

def usbfsHostRetire (x : Controller) (ba pid : Word) (bd : Bd) (len : ℕ) : Controller :=
  let x := bdSt x ba ((BitVec.ofNat 32 len <<< 16) ||| (pid <<< 2)) bd
  usbfsTokdne { x with st := x.st.flipBank bd.ep bd.tx } bd

def usbfsHostError (bit : Word) : Controller :=
  let s := x.st.setReg rErrstat (x.st.regs rErrstat ||| bit)
  let s := if anyBit (s.regs rErrstat &&& s.regs rErren) 0xFF then
      s.setReg rIstat (s.regs rIstat ||| istatError) else s
  { x with st := usbfsUpdateIrq s }

def usbfsHostDone (x : Controller) (p : HostPend) : HostAnswer → Controller
  | .done actual data =>
    let x := if p.bd.tx then x else
      { x with mem := store x.mem p.bufaddr.toNat (data.take actual) }
    usbfsHostRetire x p.ba p.pid p.bd actual
  | .stall => usbfsHostError x 0x80
  | _ => x

def usbfsHostToken (answer : HostAnswer) (x : Controller) (token : Word) : Controller :=
  let pid := (token >>> 4) &&& 0xF
  let ep : EpIdx := ⟨token.toNat % 16, Nat.mod_lt _ (by decide)⟩
  let tx := pid != pidIn
  let bd : Bd := ⟨ep, tx, x.st.bank ep tx⟩
  let ba := bdtBase x.st + bdOff bd
  if !anyBit (bdLd x.mem ba) bdOwn then x
  else
    let p : HostPend := ⟨ba, bdLd x.mem (ba + 4), bd, pid⟩
    match answer with
    | .noDevice => usbfsHostError x 0x01
    | .async => { x with st := { x.st with hostPend := some p } }
    | answer => usbfsHostDone x p answer

def mcxnUsbfsHostComplete (answer : HostAnswer) (x : Controller) : Controller :=
  match x.st.hostPend with
  | none => x
  | some p => usbfsHostDone { x with st := { x.st with hostPend := none } } p answer

def mcxnUsbfsHostPort (dev : Bool) : Controller :=
  let s := { x.st with portDev := dev }
  if s.hostMode then
    { x with st := usbfsUpdateIrq (s.setReg rIstat (s.regs rIstat ||| istatAttach)) }
  else { x with st := s }

def UsbfsState.setXfer (ep : EpIdx) (t : UsbfsXfer) : UsbfsState :=
  { s with ep := update s.ep ep t }

def UsbfsState.due (ep : EpIdx) (tx : Bool) : Bd := ⟨ep, tx, s.bank ep tx⟩

def usbfsDeliverSetup (x : Controller) : Option Controller :=
  let bd := x.st.due 0 false
  let ba := bdtBase x.st + bdOff bd
  if !anyBit (bdLd x.mem ba) bdOwn then none
  else
    let x := { x with mem := store x.mem (bdLd x.mem (ba + 4)).toNat x.st.setupPkt }
    let x := bdSt x ba ((8 <<< 16) ||| (pidSetup <<< 2)) bd
    let x := { x with st := { x.st.flipBank 0 false with setupPending := false } }
    some (usbfsTokdne x bd)

def usbfsServiceIn (x : Controller) (ep : EpIdx) : Option Controller :=
  let t := x.st.ep ep
  let bd := x.st.due ep true
  let ba := bdtBase x.st + bdOff bd
  let ctrl := bdLd x.mem ba
  if !anyBit ctrl bdOwn then none
  else
    let bc := min ((ctrl >>> 16) &&& 0x3FF).toNat usbfsMps
    let bc := min bc (usbfsXfermax - t.inAcc)
    let data := load x.mem (bdLd x.mem (ba + 4)).toNat bc
    let t := { t with inBuf := store t.inBuf t.inAcc data, inAcc := t.inAcc + bc }
    let x := { x with st := x.st.setXfer ep t }
    let x := bdSt x ba ((BitVec.ofNat 32 bc <<< 16) ||| (pidIn <<< 2)) bd
    let x := usbfsTokdne { x with st := x.st.flipBank ep true } bd
    -- complete on a short packet or once the request of the host is met
    if bc < usbfsMps ∨ t.inLen ≤ t.inAcc ∨ usbfsXfermax ≤ t.inAcc then
      some { x with
        st := x.st.setXfer ep { t with inPending := false }
        calls := x.calls ++ [.completeIn ep (load t.inBuf 0 t.inAcc)] }
    else some x

def usbfsServiceOut (x : Controller) (ep : EpIdx) : Option Controller :=
  let t := x.st.ep ep
  let bd := x.st.due ep false
  let ba := bdtBase x.st + bdOff bd
  if !anyBit (bdLd x.mem ba) bdOwn then none
  else
    let chunk := min (t.outLen - t.outOff) usbfsMps
    let buf := (bdLd x.mem (ba + 4)).toNat
    let x := { x with mem := store x.mem buf (load t.outBuf t.outOff chunk) }
    let t := { t with outOff := t.outOff + chunk }
    let x := { x with st := x.st.setXfer ep t }
    let x := bdSt x ba ((BitVec.ofNat 32 chunk <<< 16) ||| (pidOut <<< 2)) bd
    let x := usbfsTokdne { x with st := x.st.flipBank ep false } bd
    if t.outLen ≤ t.outOff ∨ chunk < usbfsMps then
      some { x with
        st := x.st.setXfer ep { t with outPending := false }
        calls := x.calls ++ [.completeOut ep t.outLen] }
    else some x

def usbfsConsumeStatusIn (x : Controller) : Option Controller :=
  let bd := x.st.due 0 true
  let ba := bdtBase x.st + bdOff bd
  if !anyBit (bdLd x.mem ba) bdOwn then none
  else
    let x := bdSt x ba (pidIn <<< 2) bd
    let x := { x with st := { x.st.flipBank 0 true with ep0StatusIn := false } }
    let x := usbfsTokdne x bd
    some { x with calls := x.calls ++ [.completeOut 0 0] }

def usbfsServiceEndpoints (x : Controller) : List EpIdx → Controller
  | [] => x
  | ep :: rest =>
    match if (x.st.ep ep).inPending then usbfsServiceIn x ep else none with
    | some y => y
    | none =>
      match if (x.st.ep ep).outPending then usbfsServiceOut x ep else none with
      | some y => y
      | none => usbfsServiceEndpoints x rest

def usbfsService : Controller :=
  if !x.st.enabled || x.st.tokdneBusy then x
  else
    match if x.st.ep0StatusIn then usbfsConsumeStatusIn x else none with
    | some y => y
    | none =>
      match if x.st.setupPending then usbfsDeliverSetup x else none with
      | some y => y
      | none => usbfsServiceEndpoints x (List.finRange 16)

def usbfsSof : Controller :=
  if !x.st.enabled then x
  else
    let s := x.st.setReg rFrmnuml ((x.st.regs rFrmnuml + 1) &&& 0xFF)
    let s := s.setReg rIstat (s.regs rIstat ||| istatSoftok)
    usbfsService { x with st := usbfsUpdateIrq s }

def usbfsBeSetup (setup : List Byte) : Controller :=
  let s := { x.st with setupPkt := setup, setupPending := true }
  let s := if anyBit (setup.getD 0 0) 0x80 then s else { s with ep0StatusIn := true }
  let t := { s.ep 0 with
    inPending := false, inAcc := 0, outPending := false, outOff := 0 }
  usbfsService { x with st := s.setXfer 0 t }

def usbfsBeEpIn (ep : EpIdx) (len : ℕ) : Controller × Bool :=
  if anyBit (x.st.regs (rEndpt ep)) endptEpstall then (x, true)
  else
    let t := { x.st.ep ep with inPending := true, inLen := len, inAcc := 0 }
    (usbfsService { x with st := x.st.setXfer ep t }, false)

def usbfsBeEpOut (ep : EpIdx) (data : List Byte) : Controller × Bool :=
  if anyBit (x.st.regs (rEndpt ep)) endptEpstall then (x, true)
  else
    let data := data.take usbfsXfermax
    let t := x.st.ep ep
    let t := { t with
      outBuf := store t.outBuf 0 data, outLen := data.length, outOff := 0, outPending := true }
    (usbfsService { x with st := x.st.setXfer ep t }, false)

def usbfsBeBusReset (x : Controller) : Controller :=
  let drop : UsbfsXfer → UsbfsXfer := fun t =>
    { t with inPending := false, inAcc := 0, outPending := false, outOff := 0 }
  let x := { x with st :=
    { x.st with ep := fun ep => drop (x.st.ep ep), ep0StatusIn := false } }
  let x := x.resetBanks
  let s := x.st.setReg rIstat (x.st.regs rIstat ||| istatUsbrst)
  { x with st := usbfsUpdateIrq s }

def writeCtl (x : Controller) (v : Word) : Controller :=
  let x := { x with st := x.st.setReg rCtl v }
  let x := if anyBit v ctlOddrst then x.resetBanks else x
  let s := { x.st with hostMode := anyBit v ctlHostmodeen }
  let x := { x with st := s }
  let x :=
    if anyBit v ctlUsbensofen && !s.enabled then
      { x with
        st := { s with enabled := true }
        calls := if s.hostMode then x.calls else x.calls ++ [.attach] }
    else if !anyBit v ctlUsbensofen && s.enabled then
      { x with
        st := { s with enabled := false }
        calls := if s.hostMode then x.calls else x.calls ++ [.detach] }
    else x
  -- `CTL[RESET]` in host mode resets the attached device and nothing here
  if x.st.hostMode && x.st.portDev then
    let s := x.st.setReg rIstat (x.st.regs rIstat ||| istatAttach)
    { x with st := usbfsUpdateIrq s }
  else x

def writeIstat (v : Word) : Controller :=
  let s := x.st.setReg rIstat (x.st.regs rIstat &&& ~~~(v &&& 0xFF))
  if anyBit v istatTokdne then
    usbfsService { x with st := usbfsUpdateIrq { s with tokdneBusy := false } }
  else { x with st := usbfsUpdateIrq s }

def mcxnUsbfsWrite (answer : HostAnswer) (x : Controller) (off : ℕ) (v : Word) : Controller :=
  if h : off < 0x1000 then
    let r : RegIdx := ⟨off / 4, div_four_lt h⟩
    -- an offset inside a word names no register of the switch
    if off % 4 ≠ 0 then { x with st := x.st.setReg r v }
    else if r ∈ [rPerid, rIdcomp, rRev, rAddinfo, rOtgstat, rStat] then x
    else if r = rOtgistat ∨ r = rErrstat then
      let s := x.st.setReg r (x.st.regs r &&& ~~~(v &&& 0xFF))
      { x with st := usbfsUpdateIrq s }
    else if r = rIstat then writeIstat x v
    else if r = rCtl then writeCtl x v
    else if r = rToken then
      let x := { x with st := x.st.setReg r v }
      if x.st.hostMode && x.st.enabled then usbfsHostToken answer x (v &&& 0xFF) else x
    else if r = rUsbtrc0 then
      { x with st := x.st.setReg r (v &&& ~~~usbtrc0Usbreset) }
    else if r = rInten ∨ r = rErren ∨ r = rOtgicr then
      { x with st := usbfsUpdateIrq (x.st.setReg r v) }
    else { x with st := x.st.setReg r v }
  else x

def rstTbl : List (RegIdx × Word) :=
  [(0x00, 0x04), (0x01, 0xFB), (0x02, 0x33), (0x03, 0x01), (0x40, 0xC0),
   (0x41, 0x50), (0x49, 0x08), (0x4A, 0x01), (0x51, 0x01)]

def resetRegs : RegIdx → Word := fun r => (rstTbl.lookup r).getD 0

def mcxnUsbfsReset : Controller :=
  { x with
    st := { x.st with
      regs := resetRegs, oddRx := fun _ => false, oddTx := fun _ => false, ep := fun _ => .zero
      enabled := false, tokdneBusy := false, setupPending := false }
    log := x.log ++ [.bankReset] }

def UsbfsState.created : UsbfsState where
  regs := fun _ => 0
  irq := false
  hostMode := false
  portDev := false
  hostPend := none
  enabled := false
  tokdneBusy := false
  oddRx := fun _ => false
  oddTx := fun _ => false
  setupPending := false
  ep0StatusIn := false
  setupPkt := List.replicate 8 0
  ep := fun _ => .zero

def Controller.powerOn (mem : Mem) : Controller := mcxnUsbfsReset ⟨.created, mem, [], []⟩

inductive UsbfsEvent where
  | write (off : ℕ) (v : Word) (answer : HostAnswer)
  | sof
  | setup (pkt : List Byte)
  | epIn (ep : EpIdx) (len : ℕ)
  | epOut (ep : EpIdx) (data : List Byte)
  | busReset
  | reset
  | hostComplete (answer : HostAnswer)
  | hostPort (dev : Bool)
  | store (addr : ℕ) (bytes : List Byte)

def usbfsStep : UsbfsEvent → Controller
  | .write off v answer => mcxnUsbfsWrite answer x off v
  | .sof => usbfsSof x
  | .setup pkt => usbfsBeSetup x pkt
  | .epIn ep len => (usbfsBeEpIn x ep len).1
  | .epOut ep data => (usbfsBeEpOut x ep data).1
  | .busReset => usbfsBeBusReset x
  | .reset => mcxnUsbfsReset x
  | .hostComplete answer => mcxnUsbfsHostComplete answer x
  | .hostPort dev => mcxnUsbfsHostPort x dev
  | .store addr bytes => { x with mem := GuestMemory.store x.mem addr bytes }

end Mcxn947.Usbfs
