import Mcxn947.EventRuns
import Mcxn947.UsbdevHistory

/-!
# The usbredir device with its backend

A USB controller registers with the usbredir device as its backend: the device hands it
the transfers of the remote host, and the controller calls back when it attaches,
detaches or completes a transfer, also from within the operation it was asked for.  The
history records what the device received, sent and was called for, in that order.
-/

namespace Mcxn947.Usbdev

open MachineWords EventRuns

inductive BackendCall where
  | attach (speed : Byte)
  | detach
  | completeIn (ep : Fin 16) (data : List Byte)
  | completeOut (ep : Fin 16) (status : Status) (len : ℕ)
deriving DecidableEq

structure Reaction (β : Type*) where
  be : β
  calls : List BackendCall
  rc : Xfer

structure Backend (β : Type*) where
  setup : β → List Byte → Reaction β
  epIn : β → Fin 16 → ℕ → Reaction β
  epOut : β → Fin 16 → List Byte → Reaction β
  busReset : β → Reaction β

structure Bridge (β : Type*) where
  dev : UsbDevState
  be : β
  history : List Mark

variable {β γ : Type*}

def Bridge.sent (x : Bridge β) : List Sent := x.history.filterMap Mark.message

def BackendCall.marks : BackendCall → List Mark
  | .attach _ => []
  | .detach => [.drop]
  | .completeIn ep _ => [.completed (inSlot ep)]
  | .completeOut ep _ _ => [.completed (outSlot ep)]

def answerCall (dev : UsbDevState) : BackendCall → UsbDevState × List Sent
  | .attach speed => mcxnUsbdevAttach dev speed
  | .detach => mcxnUsbdevDetach dev
  | .completeIn ep data => mcxnUsbdevCompleteIn dev ep data
  | .completeOut ep status len => mcxnUsbdevCompleteOut dev ep status len

variable (b : Backend β) (x : Bridge β) (r : Reaction β)

def Bridge.record (marks : List Mark) : Bridge β := { x with history := x.history ++ marks }

def Bridge.handle (r : UsbDevState × List Sent) : Bridge β :=
  { x with dev := r.1, history := x.history ++ r.2.map .sent }

def Bridge.answer (call : BackendCall) : Bridge β :=
  (x.record call.marks).handle (answerCall x.dev call)

def Bridge.answerCalls (x : Bridge β) (calls : List BackendCall) : Bridge β :=
  run Bridge.answer x calls

def Bridge.operate : Bridge β := { x with be := r.be }.answerCalls r.calls

/-- What the answer of the backend to a transfer says about the request. -/
def verdict (id : ℕ) (slot : Slot) : Xfer → List Mark
  | .ok _ => [.completed slot]
  | .stall => [.refused id]
  | .async | .nak => []

/-- The calls that the backend makes before it answers come before the answer is handled. -/
def Bridge.transfer (marks : Xfer → List Mark)
    (finish : UsbDevState → Xfer → UsbDevState × List Sent) : Bridge β :=
  let x := x.operate r
  (x.record (marks r.rc)).handle (finish x.dev r.rc)

structure ControlRequest where
  (endpoint requesttype request : Byte)
  (value index length : HalfWord)

def ControlRequest.slot (q : ControlRequest) : Slot := if anyBit q.requesttype 0x80 then 16 else 0

def lowByte (v : HalfWord) : Byte := v.setWidth 8

def highByte (v : HalfWord) : Byte := (v >>> 8).setWidth 8

def ControlRequest.setup (q : ControlRequest) : List Byte :=
  [q.requesttype, q.request, lowByte q.value, highByte q.value, lowByte q.index,
    highByte q.index, lowByte q.length, highByte q.length]

def stdSetup (bmreq breq : Byte) (val idx : HalfWord) : List Byte :=
  [bmreq, breq, lowByte val, highByte val, lowByte idx, highByte idx, 0, 0]

def Bridge.control (x : Bridge β) (id : ℕ) (q : ControlRequest) (data : List Byte) : Bridge β :=
  let setup := b.setup x.be q.setup
  let x := x.record [.request id (some q.slot)]
  let length := q.length.toNat
  if !x.dev.beOps then x.handle (x.dev, [.reply id (.control q.endpoint .stall length [])])
  else
    -- the request is in no slot while the backend runs `setup`
    let x := x.operate setup
    if anyBit q.requesttype 0x80 then
      { x with dev := registerControlIn x.dev id length }.transfer (b.epIn x.be 0 length)
        (verdict id 16) fun dev => finishControl dev id q.endpoint length
    else
      let x := { x with dev := registerControlOut x.dev id }
      -- the answer to the data stage is not looked at
      if data = [] then x
      else x.transfer (b.epOut x.be 0 data) (fun rc => if rc = .stall then [.refused id] else [])
        fun dev _ => (dev, [])

def epNumber (endpoint : Byte) : Fin 16 := ⟨endpoint.toNat % 16, Nat.mod_lt _ (by decide)⟩

def Bridge.bulkReaction (endpoint : Byte) (length : ℕ) (data : List Byte) : Reaction β :=
  if anyBit endpoint 0x80 then b.epIn x.be (epNumber endpoint) length
  else b.epOut x.be (epNumber endpoint) data

def Bridge.bulk (x : Bridge β) (id : ℕ) (endpoint : Byte)
    (length lengthHigh : HalfWord) (data : List Byte) : Bridge β :=
  let x := x.record [.request id (some (usbdevSlot endpoint))]
  let length := bulkLength length.toNat lengthHigh.toNat
  if !x.dev.beOps then x.handle (x.dev, [.reply id (.bulk endpoint .stall 0 0 [])])
  else
    { x with dev := registerBulk x.dev id endpoint length }.transfer
      (x.bulkReaction b endpoint length data) (verdict id (usbdevSlot endpoint))
      fun dev => finishBulk dev id endpoint

def Bridge.usbdevStdSetup (bmreq breq : Byte) (val idx : HalfWord) : Bridge β :=
  if x.dev.beOps then x.operate (b.setup x.be (stdSetup bmreq breq val idx)) else x

def Bridge.setConfiguration (id : ℕ) (configuration : Byte) : Bridge β :=
  let dev := usbdevSetConfiguration x.dev id configuration
  { x.record [.request id (some 0)] with dev := dev }.usbdevStdSetup b
    0x00 9 (configuration.setWidth 16) 0

def Bridge.setAltSetting (id : ℕ) (interface alt : Byte) : Bridge β :=
  let dev := usbdevSetAltSetting x.dev id interface alt
  { x.record [.request id (some 0)] with dev := dev }.usbdevStdSetup b
    0x01 11 (alt.setWidth 16) (interface.setWidth 16)

def Bridge.busReset (b : Backend β) (x : Bridge β) : Bridge β :=
  let x := { x.record [.drop] with dev := usbdevReset x.dev }
  if x.dev.beOps then x.operate (b.busReset x.be) else x

inductive HostMessage where
  | hello
  | busReset
  | setConfiguration (id : ℕ) (configuration : Byte)
  | setAltSetting (id : ℕ) (interface alt : Byte)
  | getConfiguration (id : ℕ)
  | getAltSetting (id : ℕ) (interface : Byte)
  | interruptReceiving (id : ℕ) (endpoint : Byte)
  | control (id : ℕ) (q : ControlRequest) (data : List Byte)
  | bulk (id : ℕ) (endpoint : Byte) (length lengthHigh : HalfWord) (data : List Byte)
  | cancel (id : ℕ)

def Bridge.receive : HostMessage → Bridge β
  | .hello => x.handle (usbdevHello x.dev)
  | .busReset => x.busReset b
  | .setConfiguration id configuration => x.setConfiguration b id configuration
  | .setAltSetting id interface alt => x.setAltSetting b id interface alt
  | .getConfiguration id =>
    (x.record [.request id none]).handle (x.dev, usbdevGetConfiguration x.dev id)
  | .getAltSetting id interface =>
    (x.record [.request id none]).handle (x.dev, usbdevGetAltSetting id interface)
  | .interruptReceiving id endpoint =>
    (x.record [.request id none]).handle (x.dev, usbdevInterruptReceiving id endpoint)
  | .control id q data => x.control b id q data
  | .bulk id endpoint length lengthHigh data => x.bulk b id endpoint length lengthHigh data
  | .cancel id => (x.record [.cancel id]).handle (usbdevCancelDataPacket x.dev id, [])

inductive BridgeEvent (γ : Type*) where
  | opened
  | closed
  | message (m : HostMessage)
  | backend (e : γ)

def bridgeStep (step : β → γ → Reaction β) (x : Bridge β) : BridgeEvent γ → Bridge β
  | .opened => (x.record [.boundary]).handle (usbdevCreateParser (usbdevDestroyParser x.dev), [])
  | .closed => (x.record [.boundary]).handle (usbdevDestroyParser x.dev, [])
  | .message m => if x.dev.parser then x.receive b m else x
  | .backend e => x.operate (step x.be e)

lemma Bridge.sent_handle (r : UsbDevState × List Sent) : (x.handle r).sent = x.sent ++ r.2 := by
  have hsent : (r.2.map Mark.sent).filterMap Mark.message = r.2 := by
    rw [List.filterMap_map]
    exact List.filterMap_some
  simp [Bridge.sent, Bridge.handle, hsent]

lemma Bridge.sent_answer (call : BackendCall) :
    (x.answer call).sent = x.sent ++ (answerCall x.dev call).2 := by
  rw [Bridge.answer, sent_handle]
  cases call <;> simp [Bridge.sent, Bridge.record, BackendCall.marks, Mark.message]

@[simp] lemma Bridge.answerCalls_be (calls : List BackendCall) :
    (x.answerCalls calls).be = x.be := by
  induction calls generalizing x with
  | nil => rfl
  | cons call rest ih => exact ih _

@[simp] lemma Bridge.operate_be : (x.operate r).be = r.be := Bridge.answerCalls_be _ _

end Mcxn947.Usbdev
