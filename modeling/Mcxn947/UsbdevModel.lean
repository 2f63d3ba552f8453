import Mcxn947.MachineWords

/-!
# The usbredir device

`hw/usb/mcxn_usbdev.c`: a remote host sends transfer requests over a usbredir
connection, the USB controller (the backend) carries them out, and the device
sends the replies.
-/

namespace Mcxn947.Usbdev

open MachineWords

abbrev Slot := Fin 32

inductive Status where
  | success | stall
deriving DecidableEq

inductive Xfer where
  | ok (data : List Byte)
  | async
  | stall
  | nak
deriving DecidableEq

inductive ReplyKind where
  | xfer | config | alt
deriving DecidableEq

structure UsbPending where
  (active isControl : Bool)
  (id length : ℕ)
  ep : Byte
  replyKind : ReplyKind
  (arg0 arg1 : Byte)
deriving DecidableEq

def UsbPending.zero : UsbPending := ⟨false, false, 0, 0, 0, .xfer, 0, 0⟩

inductive Packet where
  | control (endpoint : Byte) (status : Status) (length : ℕ) (data : List Byte)
  | bulk (endpoint : Byte) (status : Status) (length lengthHigh : ℕ) (data : List Byte)
  | configurationStatus (status : Status) (configuration : Byte)
  | altSettingStatus (status : Status) (interface alt : Byte)
  | interruptReceivingStatus (status : Status) (endpoint : Byte)
deriving DecidableEq

inductive Sent where
  | reply (id : ℕ) (packet : Packet)
  | interfaceInfo
  | epInfo
  | deviceConnect (speed : Byte)
  | deviceDisconnect
deriving DecidableEq

structure UsbDevState where
  (parser connected attached : Bool)
  (speed curConfig : Byte)
  pending : Slot → UsbPending
  beOps : Bool

def usbdevSlot (epAddr : Byte) : Slot :=
  if anyBit epAddr 0x80 then ⟨epAddr.toNat % 16 + 16, by omega⟩
  else ⟨epAddr.toNat % 16, by omega⟩

variable (p : UsbPending) (s : UsbDevState) (id : ℕ)

def UsbDevState.setPending (slot : Slot) (p : UsbPending) :
    UsbDevState :=
  { s with pending := Function.update s.pending slot p }

def UsbDevState.clearPending : UsbDevState := { s with pending := fun _ => .zero }

def mcxnUsbdevAttach (s : UsbDevState) (speed : Byte) : UsbDevState × List Sent :=
  let s := { s with attached := true, speed := speed }
  if !s.parser || !s.connected then (s, [])
  else (s, [.interfaceInfo, .epInfo, .deviceConnect speed])

def mcxnUsbdevDetach (s : UsbDevState) : UsbDevState × List Sent :=
  let s := { s with attached := false }.clearPending
  (s, if s.parser && s.connected then [.deviceDisconnect] else [])

def usbdevHello (s : UsbDevState) : UsbDevState × List Sent :=
  let s := { s with connected := true }
  if s.attached && s.parser then mcxnUsbdevAttach s s.speed else (s, [])

def usbdevDestroyParser : UsbDevState := { s with parser := false, connected := false }

def usbdevCreateParser : UsbDevState := { s with parser := true }

def usbdevReset : UsbDevState := s.clearPending

def usbdevSetConfiguration (configuration : Byte) :
    UsbDevState :=
  { s with curConfig := configuration }.setPending 0
    { s.pending 0 with
      active := true, isControl := true, id := id, replyKind := .config, arg0 := configuration }

def usbdevSetAltSetting (interface alt : Byte) :
    UsbDevState :=
  s.setPending 0
    { s.pending 0 with
      active := true, isControl := true, id := id, replyKind := .alt, arg0 := interface
      arg1 := alt }

def usbdevGetConfiguration : List Sent := [.reply id (.configurationStatus .success s.curConfig)]

def usbdevGetAltSetting (interface : Byte) : List Sent :=
  [.reply id (.altSettingStatus .success interface 0)]

def usbdevInterruptReceiving (endpoint : Byte) : List Sent :=
  [.reply id (.interruptReceivingStatus .success endpoint)]

def Xfer.status : Xfer → Status
  | .ok _ => .success
  | _ => .stall

def Xfer.data : Xfer → List Byte
  | .ok data => data
  | _ => []

def registerControlIn (length : ℕ) : UsbDevState :=
  s.setPending 16
    { s.pending 16 with
      active := true, isControl := true, id := id, length := length, ep := 0x80 }

def registerControlOut : UsbDevState :=
  s.setPending 0
    { s.pending 0 with
      active := true, isControl := true, id := id, ep := 0x00, replyKind := .xfer }

/-- A backend that does not answer `ASYNC` has decided the transfer: the slot is free again
and the reply goes out. -/
def finishRequest (slot : Slot) (packet : Packet) (rc : Xfer) : UsbDevState × List Sent :=
  if rc ≠ .async then
    (s.setPending slot { s.pending slot with active := false }, [.reply id packet])
  else (s, [])

def finishControl (endpoint : Byte) (length : ℕ) (rc : Xfer) : UsbDevState × List Sent :=
  finishRequest s id 16 (.control endpoint rc.status length rc.data) rc

def bulkLength (length lengthHigh : ℕ) : ℕ := (length ||| lengthHigh <<< 16) % 2 ^ 16

def registerBulk (endpoint : Byte) (length : ℕ) : UsbDevState :=
  let p := { s.pending (usbdevSlot endpoint) with
    active := true, isControl := false, id := id, ep := endpoint }
  s.setPending (usbdevSlot endpoint)
    (if anyBit endpoint 0x80 then { p with length := length } else p)

def finishBulk (endpoint : Byte) (rc : Xfer) : UsbDevState × List Sent :=
  let data := if anyBit endpoint 0x80 then rc.data else []
  finishRequest s id (usbdevSlot endpoint)
    (.bulk endpoint rc.status (data.length % 2 ^ 16) (data.length / 2 ^ 16) data) rc

def usbdevCancelDataPacket : UsbDevState :=
  { s with pending := fun i =>
      if (s.pending i).active && (s.pending i).id == id then
        { s.pending i with active := false }
      else s.pending i }

def inSlot (ep : Fin 16) : Slot := ⟨ep + 16, by omega⟩

def outSlot (ep : Fin 16) : Slot := ⟨ep, by omega⟩

def inPacket (ep : Fin 16) (data : List Byte) : Packet :=
  let data := data.take p.length
  let epAddr : Byte := BitVec.ofNat 8 ep ||| 0x80
  if p.isControl then .control epAddr .success data.length data
  else .bulk epAddr .success (data.length % 2 ^ 16) (data.length / 2 ^ 16) data

def mcxnUsbdevCompleteIn (ep : Fin 16) (data : List Byte) : UsbDevState × List Sent :=
  let p := s.pending (inSlot ep)
  if !p.active || !s.parser then (s, [])
  else
    (s.setPending (inSlot ep) { p with active := false }, [.reply p.id (inPacket p ep data)])

def outPacket (ep : Fin 16) (status : Status) (len : ℕ) : Packet :=
  match p.replyKind with
  | .config => .configurationStatus status p.arg0
  | .alt => .altSettingStatus status p.arg0 p.arg1
  | .xfer =>
    if p.isControl then .control (BitVec.ofNat 8 ep) status (len % 2 ^ 16) []
    else .bulk (BitVec.ofNat 8 ep) status (len % 2 ^ 16) (len / 2 ^ 16 % 2 ^ 16) []

def mcxnUsbdevCompleteOut (ep : Fin 16) (status : Status) (len : ℕ) : UsbDevState × List Sent :=
  let p := s.pending (outSlot ep)
  if !p.active || !s.parser then (s, [])
  else
    (s.setPending (outSlot ep) { p with active := false, replyKind := .xfer },
      [.reply p.id (outPacket p ep status len)])

def UsbDevState.created (beOps : Bool) : UsbDevState where
  parser := false
  connected := false
  attached := false
  speed := 0
  curConfig := 0
  pending := fun _ => .zero
  beOps := beOps

end Mcxn947.Usbdev
