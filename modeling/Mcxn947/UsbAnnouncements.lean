import Mcxn947.UsbfsService
import Mcxn947.UsbhsService

/-!
# Attach and detach on the wire

The usbredir device turns every attach of its controller into a `device_connect` and every
detach into a `device_disconnect`, without looking at what it announced last.
-/

namespace Mcxn947.Usbdev

open MachineWords EventRuns Bridge List

def AlternatesFrom : Bool → List Bool → Prop
  | _, [] => True
  | on, b :: rest => b = !on ∧ AlternatesFrom b rest

lemma alternatesFrom_append (on : Bool) (l l' : List Bool) :
    AlternatesFrom on (l ++ l') ↔ AlternatesFrom on l ∧ AlternatesFrom (l.getLastD on) l' := by
  induction l generalizing on with
  | nil => simp [AlternatesFrom]
  | cons b rest ih => rw [cons_append, AlternatesFrom, AlternatesFrom, ih, getLastD_cons, and_assoc]

lemma getLastD_append (on : Bool) (l l' : List Bool) :
    (l ++ l').getLastD on = l'.getLastD (l.getLastD on) := by
  induction l generalizing on with
  | nil => rfl
  | cons b rest ih => rw [cons_append, getLastD_cons, getLastD_cons, ih]

def announcement : Sent → Option Bool
  | .deviceConnect _ => some true
  | .deviceDisconnect => some false
  | _ => none

def announced (sent : List Sent) : List Bool := sent.filterMap announcement

def presence : BackendCall → Option Bool
  | .attach _ => some true
  | .detach => some false
  | _ => none

variable {β γ : Type*}

structure UsbDevState.Ready (s : UsbDevState) : Prop where
  parser : s.parser = true
  connected : s.connected = true

variable {dev : UsbDevState} {x : Bridge β}

lemma answerCall_ready (h : dev.Ready) (call : BackendCall) : (answerCall dev call).1.Ready := by
  cases call with
  | attach speed =>
    simp only [answerCall, mcxnUsbdevAttach]
    split <;> exact ⟨h.parser, h.connected⟩
  | detach => exact ⟨h.parser, h.connected⟩
  | completeIn ep data =>
    simp only [answerCall, mcxnUsbdevCompleteIn]
    split
    · exact h
    · exact ⟨h.parser, h.connected⟩
  | completeOut ep status len =>
    simp only [answerCall, mcxnUsbdevCompleteOut]
    split
    · exact h
    · exact ⟨h.parser, h.connected⟩

lemma answerCall_announced (h : dev.Ready) (call : BackendCall) :
    announced (answerCall dev call).2 = (presence call).toList := by
  cases call with
  | attach speed =>
    simp only [answerCall, mcxnUsbdevAttach, h.parser, h.connected]
    rfl
  | detach =>
    simp [answerCall, mcxnUsbdevDetach, UsbDevState.clearPending, h.parser, h.connected,
      announced, announcement, presence]
  | completeIn ep data =>
    simp only [answerCall, mcxnUsbdevCompleteIn]
    split <;> rfl
  | completeOut ep status len =>
    simp only [answerCall, mcxnUsbdevCompleteOut]
    split <;> rfl

lemma answerCalls_announced (calls : List BackendCall) (x : Bridge β) (h : x.dev.Ready) :
    (x.answerCalls calls).dev.Ready ∧
      announced (x.answerCalls calls).sent = announced x.sent ++ calls.filterMap presence := by
  induction calls generalizing x with
  | nil => simp [answerCalls, h]
  | cons call rest ih =>
    obtain ⟨hready, hrest⟩ := ih (x.answer call) (answerCall_ready h call)
    refine ⟨hready, hrest.trans ?_⟩
    have hhere : announced (x.answer call).sent = announced x.sent ++ (presence call).toList := by
      rw [← answerCall_announced h call, sent_answer]
      exact filterMap_append
    rw [hhere, append_assoc]
    cases hpresence : presence call with
    | none | some b => simp [hpresence]

structure Announces (on : β → Bool) (x : Bridge β) : Prop where
  turns : AlternatesFrom false (announced x.sent)
  connected : (announced x.sent).getLastD false = on x.be

lemma announces_operate_iff {on : β → Bool} (h : x.dev.Ready)
    (hx : Announces on x) (r : Reaction β) :
    Announces on (x.operate r) ↔ AlternatesFrom (on x.be) (r.calls.filterMap presence) ∧
      (r.calls.filterMap presence).getLastD (on x.be) = on r.be := by
  have hsent : announced (x.operate r).sent = announced x.sent ++ r.calls.filterMap presence :=
    (answerCalls_announced r.calls { x with be := r.be } h).2
  have hturns : AlternatesFrom false (announced (x.operate r).sent) ↔
      AlternatesFrom (on x.be) (r.calls.filterMap presence) := by
    rw [hsent, alternatesFrom_append, hx.connected]
    exact and_iff_right hx.turns
  have hlast : (announced (x.operate r).sent).getLastD false =
      (r.calls.filterMap presence).getLastD (on x.be) := by
    rw [hsent, ← hx.connected, getLastD_append]
  constructor
  · intro hnew
    refine ⟨hturns.mp hnew.turns, ?_⟩
    rw [← hlast, hnew.connected, operate_be]
  rintro ⟨halt, hon⟩
  refine ⟨hturns.mpr halt, ?_⟩
  rw [hlast, hon, operate_be]

def helloDone : UsbDevState := (usbdevHello (usbdevCreateParser (.created true))).1

def Bridge.ready (be : β) : Bridge β := ⟨helloDone, be, []⟩

def Bridge.backendStep (step : β → γ → Reaction β) (x : Bridge β) (e : γ) : Bridge β :=
  x.operate (step x.be e)

lemma backendStep_ready {step : β → γ → Reaction β} (h : x.dev.Ready) (e : γ) :
    (x.backendStep step e).dev.Ready :=
  (answerCalls_announced (step x.be e).calls { x with be := (step x.be e).be } h).1

end Mcxn947.Usbdev

namespace Mcxn947.Usbfs

open MachineWords GuestMemory EventRuns Usbdev List UsbdevCall

structure Steady (x y : Controller) : Prop where
  enabled : y.st.enabled = x.st.enabled
  hostMode : y.st.hostMode = x.st.hostMode
  calls : ∃ answers, y.calls = x.calls ++ answers ∧
    ∀ call ∈ answers, call ≠ .attach ∧ call ≠ .detach

variable {y z : Controller} {ep : EpIdx} {answer : HostAnswer} {x : Controller}

lemma Steady.ofCalls (hen : y.st.enabled = x.st.enabled)
    (hhostMode : y.st.hostMode = x.st.hostMode) (hcalls : y.calls = x.calls) : Steady x y :=
  ⟨hen, hhostMode, [], by rw [hcalls, append_nil], by simp⟩

lemma Steady.refl (x : Controller) : Steady x x := .ofCalls rfl rfl rfl

lemma Steady.trans (h : Steady x y) (h' : Steady y z) : Steady x z := by
  obtain ⟨a, ha, hquiet⟩ := h.calls
  obtain ⟨b, hb, hquiet'⟩ := h'.calls
  refine ⟨h'.enabled.trans h.enabled, h'.hostMode.trans h.hostMode, a ++ b, ?_, ?_⟩
  · rw [hb, ha, append_assoc]
  intro call hcall
  cases List.mem_append.mp hcall with
  | inl hmem => exact hquiet call hmem
  | inr hmem => exact hquiet' call hmem

section

variable (s : UsbfsState) (ep : EpIdx) (tx : Bool)

lemma flipBank_enabled : (s.flipBank ep tx).enabled = s.enabled := by
  cases tx <;> rfl

lemma flipBank_hostMode : (s.flipBank ep tx).hostMode = s.hostMode := by
  cases tx <;> rfl

end

lemma deliverSetup_steady (h : usbfsDeliverSetup x = some y) : Steady x y := by
  unfold usbfsDeliverSetup at h
  dsimp only at h
  split at h
  · cases h
  · cases h
    exact .ofCalls (flipBank_enabled ..) (flipBank_hostMode ..) rfl

lemma consumeStatusIn_steady (h : usbfsConsumeStatusIn x = some y) : Steady x y := by
  unfold usbfsConsumeStatusIn at h
  dsimp only at h
  split at h
  · cases h
  · cases h
    exact ⟨flipBank_enabled .., flipBank_hostMode .., [.completeOut 0 0], rfl, by simp⟩

lemma serviceIn_steady (h : usbfsServiceIn x ep = some y) : Steady x y := by
  unfold usbfsServiceIn at h
  dsimp only at h
  split at h
  · cases h
  split at h
  · cases h
    exact ⟨flipBank_enabled .., flipBank_hostMode .., [.completeIn ep _], rfl, by simp⟩
  · cases h
    exact .ofCalls (flipBank_enabled ..) (flipBank_hostMode ..) rfl

lemma serviceOut_steady (h : usbfsServiceOut x ep = some y) : Steady x y := by
  unfold usbfsServiceOut at h
  dsimp only at h
  split at h
  · cases h
  split at h
  · cases h
    exact ⟨flipBank_enabled .., flipBank_hostMode .., [.completeOut ep _], rfl, by simp⟩
  · cases h
    exact .ofCalls (flipBank_enabled ..) (flipBank_hostMode ..) rfl

lemma Steady.attempt {c : Bool} {r : Option Controller}
    (hr : r = some y → Steady x y) (h : (if c then r else none) = some y) : Steady x y := by
  cases c with
  | true => exact hr h
  | false => cases h

lemma serviceEndpoints_steady (x : Controller) (eps : List EpIdx) :
    Steady x (usbfsServiceEndpoints x eps) := by
  induction eps with
  | nil => exact .refl x
  | cons ep rest ih =>
    unfold usbfsServiceEndpoints
    split
    · next hin => exact .attempt serviceIn_steady hin
    split
    · next hout => exact .attempt serviceOut_steady hout
    · exact ih

lemma service_steady (x : Controller) : Steady x (usbfsService x) := by
  unfold usbfsService
  split
  · exact .refl x
  split
  · next hstatus => exact .attempt consumeStatusIn_steady hstatus
  split
  · next hsetup => exact .attempt deliverSetup_steady hsetup
  · exact serviceEndpoints_steady x _

lemma Steady.service (h : Steady x z) : Steady x (usbfsService z) := h.trans (service_steady z)

lemma hostError_steady (x : Controller) (bit : Word) : Steady x (usbfsHostError x bit) := by
  simp only [usbfsHostError]
  split <;> exact .ofCalls rfl rfl rfl

lemma hostDone_steady (x : Controller) (p : HostPend) (answer : HostAnswer) :
    Steady x (usbfsHostDone x p answer) := by
  cases answer with
  | done actual data =>
    simp only [usbfsHostDone]
    split <;> exact .ofCalls (flipBank_enabled ..) (flipBank_hostMode ..) rfl
  | stall => exact hostError_steady x _
  | noDevice | async | nak => exact .refl x

lemma Steady.hostDone {p : HostPend} (h : Steady x z) : Steady x (usbfsHostDone z p answer) :=
  h.trans (hostDone_steady z p answer)

lemma hostToken_steady (answer : HostAnswer) (x : Controller) (token : Word) :
    Steady x (usbfsHostToken answer x token) := by
  unfold usbfsHostToken
  dsimp only
  split
  · exact .refl x
  split
  · exact hostError_steady x _
  · exact .ofCalls rfl rfl rfl
  · exact hostDone_steady x _ _

lemma Steady.hostToken {token : Word} (h : Steady x z) : Steady x (usbfsHostToken answer z token) :=
  h.trans (hostToken_steady answer z token)

lemma write_steady {off : ℕ} {v : Word}
    (h : off ≠ 0x94) : Steady x (mcxnUsbfsWrite answer x off v) := by
  generalize hy : mcxnUsbfsWrite answer x off v = y
  unfold mcxnUsbfsWrite at hy
  split at hy
  · extract_lets r at hy
    have hctl : off % 4 = 0 → r ≠ rCtl := by
      intro halign hr
      have hval : off / 4 = 0x25 := congrArg Fin.val hr
      omega
    clear_value r
    split at hy
    · exact hy ▸ .ofCalls rfl rfl rfl
    next halign =>
    rw [not_not] at halign
    split at hy
    · exact hy ▸ .refl x
    split at hy
    · exact hy ▸ .ofCalls rfl rfl rfl
    split at hy
    · rw [← hy, writeIstat]
      split
      · exact .service (.ofCalls rfl rfl rfl)
      · exact .ofCalls rfl rfl rfl
    split at hy
    · next hr => exact absurd hr (hctl halign)
    split at hy
    · rw [← hy]
      split
      · exact .hostToken (.ofCalls rfl rfl rfl)
      · exact .ofCalls rfl rfl rfl
    split at hy
    · exact hy ▸ .ofCalls rfl rfl rfl
    split at hy
    · exact hy ▸ .ofCalls rfl rfl rfl
    · exact hy ▸ .ofCalls rfl rfl rfl
  · exact hy ▸ .refl x

lemma step_steady {e : UsbfsEvent}
    (hwrite : ∀ off v answer, e = .write off v answer → off ≠ 0x94) (hreset : e ≠ .reset) :
    Steady x (usbfsStep x e) := by
  cases e with
  | write off v answer => exact write_steady (hwrite off v answer rfl)
  | sof =>
    simp only [usbfsStep, usbfsSof]
    split
    · exact .refl x
    · exact .service (.ofCalls rfl rfl rfl)
  | setup pkt =>
    rw [step_of_serves rfl]
    exact .service (.ofCalls rfl rfl rfl)
  | epIn ep len =>
    simp only [usbfsStep, usbfsBeEpIn]
    split
    · exact .refl x
    · exact .service (.ofCalls rfl rfl rfl)
  | epOut ep data =>
    simp only [usbfsStep, usbfsBeEpOut]
    split
    · exact .refl x
    · exact .service (.ofCalls rfl rfl rfl)
  | busReset => exact .ofCalls rfl rfl rfl
  | reset => exact absurd rfl hreset
  | hostComplete answer =>
    simp only [usbfsStep, mcxnUsbfsHostComplete]
    split
    · exact .refl x
    · exact .hostDone (.ofCalls rfl rfl rfl)
  | hostPort dev =>
    simp only [usbfsStep, mcxnUsbfsHostPort]
    split <;> exact .ofCalls rfl rfl rfl
  | store addr bytes => exact .ofCalls rfl rfl rfl

def UsbdevCall.toBackend : UsbdevCall → BackendCall
  | .attach => .attach 1
  | .detach => .detach
  | .completeIn ep data => .completeIn ep data
  | .completeOut ep len => .completeOut ep .success len

def react (x : Controller) (e : UsbfsEvent) : Reaction Controller :=
  let y := usbfsStep x e
  ⟨y, (newCalls x y).map toBackend, .async⟩

def inDeviceMode (x : Controller) : Bool := x.st.enabled && !x.st.hostMode

def KeepsMode (x : Bridge Controller) : UsbfsEvent → Prop
  | .write off v _ =>
    off = 0x94 → x.be.st.enabled = true → anyBit v ctlHostmodeen = x.be.st.hostMode
  | .reset => inDeviceMode x.be = false
  | _ => True

lemma Steady.presence (h : Steady x y) :
    ((newCalls x y).map toBackend).filterMap presence = [] := by
  obtain ⟨answers, hcalls, hquiet⟩ := h.calls
  rw [newCalls, hcalls, drop_left, filterMap_map, filterMap_eq_nil_iff]
  intro call hcall
  cases call with
  | attach => exact absurd rfl (hquiet _ hcall).1
  | detach => exact absurd rfl (hquiet _ hcall).2
  | completeIn ep data | completeOut ep len => rfl

section Step

variable {x : Bridge Controller} (hready : x.dev.Ready) (hx : Announces inDeviceMode x)

include hready hx

lemma announces_of_steady {e : UsbfsEvent} (h : Steady x.be (usbfsStep x.be e)) :
    Announces inDeviceMode (x.backendStep react e) := by
  refine (announces_operate_iff hready hx (react x.be e)).mpr ?_
  have hcalls : (react x.be e).calls.filterMap presence = [] := h.presence
  have hon : inDeviceMode (react x.be e).be = inDeviceMode x.be := by
    change inDeviceMode (usbfsStep x.be e) = inDeviceMode x.be
    rw [inDeviceMode, h.enabled, h.hostMode]
    rfl
  rw [hcalls, hon]
  exact ⟨trivial, rfl⟩

lemma announces_ctl_iff (v : Word) (answer : HostAnswer) :
    Announces inDeviceMode (x.backendStep react (.write 0x94 v answer)) ↔
      KeepsMode x (.write 0x94 v answer) := by
  have hw : CtlWritten x.be v (usbfsStep x.be (.write 0x94 v answer)) := writeCtl_written x.be v
  have hcalls : (react x.be (.write 0x94 v answer)).calls.filterMap presence =
      ((ctlCalls x.be.st.enabled v).map toBackend).filterMap presence := by
    rw [react, newCalls, hw.calls, drop_left]
  have hon : inDeviceMode (react x.be (.write 0x94 v answer)).be =
      (anyBit v ctlUsbensofen && !anyBit v ctlHostmodeen) := by
    change inDeviceMode (usbfsStep x.be (.write 0x94 v answer)) = _
    rw [inDeviceMode, hw.enabled, hw.hostMode]
  rw [Bridge.backendStep, announces_operate_iff hready hx, hcalls, hon]
  simp only [KeepsMode, inDeviceMode, ctlCalls, true_implies]
  -- the four flags decide both sides
  cases x.be.st.enabled <;> cases x.be.st.hostMode <;> cases anyBit v ctlHostmodeen <;>
    cases anyBit v ctlUsbensofen <;>
    simp [AlternatesFrom, toBackend, presence]

lemma announces_reset_iff :
    Announces inDeviceMode (x.backendStep react .reset) ↔ KeepsMode x .reset := by
  have hcalls : (react x.be .reset).calls.filterMap presence = [] := by
    have hnone : newCalls x.be (usbfsStep x.be .reset) = [] := drop_length
    rw [react, hnone]
    rfl
  have hon : inDeviceMode (react x.be .reset).be = false := rfl
  rw [Bridge.backendStep, announces_operate_iff hready hx, hcalls, hon]
  simp [AlternatesFrom, KeepsMode]

lemma announces_step_iff (e : UsbfsEvent) :
    Announces inDeviceMode (x.backendStep react e) ↔ KeepsMode x e := by
  by_cases hsteady : (∀ off v answer, e = .write off v answer → off ≠ 0x94) ∧ e ≠ .reset
  · have hannounces := announces_of_steady hready hx (step_steady hsteady.1 hsteady.2)
    refine iff_of_true hannounces ?_
    cases e with
    | write off v answer => exact fun hoff => absurd hoff (hsteady.1 off v answer rfl)
    | reset => exact absurd rfl hsteady.2
    | _ => trivial
  cases e with
  | write off v answer =>
    have hoff : off = 0x94 := by
      by_contra hoff
      refine hsteady ⟨?_, by simp⟩
      rintro _ _ _ ⟨⟩
      exact hoff
    subst hoff
    exact announces_ctl_iff hready hx v answer
  | reset => exact announces_reset_iff hready hx
  | _ => exact absurd ⟨by simp, by simp⟩ hsteady

end Step

end Mcxn947.Usbfs

namespace Mcxn947.Usbhs

open MachineWords GuestMemory EventRuns Usbdev Bridge

def react (x : Core) (e : UsbhsEvent) : Reaction Core :=
  let y := usbhsStep x e
  ⟨y, newCalls x y, .async⟩

def runsDevice (s : UsbhsState) : Bool := anyBit (s.regs rUsbcmd) usbcmdRs && deviceMode s.regs

def isEnabled (x : Core) : Bool := x.st.enabled

structure HsAnnounces (x : Bridge Core) : Prop where
  announces : Announces isEnabled x
  registers : x.be.st.enabled = runsDevice x.be.st

/-- A software reset or a device reset does not meet the controller enabled, and a write
that goes around the logic of `USBCMD`, to `USBMODE` or inside one of the two words, leaves
it as it was whether the registers say that the device runs. -/
def KeepsMode (x : Bridge Core) : UsbhsEvent → Prop
  | .write off v =>
    let s := x.be.st
    (off = 0x140 → anyBit v usbcmdRst = true → s.enabled = false) ∧
    (off ≠ 0x140 → off / 4 = 0x50 → (anyBit v usbcmdRs && deviceMode s.regs) = runsDevice s) ∧
    (off / 4 = 0x6A →
      (anyBit (s.regs rUsbcmd) usbcmdRs && v &&& usbmodeCmMask == usbmodeCmDevice) = runsDevice s)
  | .reset => x.be.st.enabled = false
  | _ => True

lemma pollCalls_presence (x : Core) (ps : List Poll) :
    (outputs usbhsPoll pollCalls x ps).filterMap presence = [] := by
  rw [List.filterMap_eq_nil_iff]
  refine forall_mem_outputs.mpr (admits_iff_every_step.mpr ?_)
  intro before p _ call hcall
  unfold pollCalls at hcall
  split at hcall
  · rw [List.mem_singleton.mp hcall]
    cases p <;> rfl
  · cases hcall

lemma react_presence (x : Core) (e : UsbhsEvent) :
    (react x e).calls.filterMap presence = (latchedCalls x e).filterMap presence := by
  change (newCalls x (usbhsStep x e)).filterMap presence = _
  rw [newCalls_step, stepCalls, List.filterMap_append, pollCalls_presence, List.append_nil]

variable {s : UsbhsState}

lemma SameMode.runsDevice {t : UsbhsState} (h : SameMode s t) :
    Usbhs.runsDevice t = Usbhs.runsDevice s := by
  rw [Usbhs.runsDevice, deviceMode, h.usbcmd, h.usbmode]
  rfl

lemma runsDevice_resetRegs (h : s.regs = resetRegs) : runsDevice s = false := by
  rw [runsDevice, h]
  decide

section Step

variable {x : Bridge Core} (hready : x.dev.Ready) (hx : HsAnnounces x)

include hready hx

lemma hsAnnounces_quiet_iff {e : UsbhsEvent}
    (hquiet : (latchedCalls x.be e).filterMap presence = []) :
    HsAnnounces (x.backendStep react e) ↔ (usbhsStep x.be e).st.enabled = x.be.st.enabled ∧
      runsDevice (usbhsStep x.be e).st = runsDevice x.be.st := by
  have hbe : (x.backendStep react e).be = usbhsStep x.be e := operate_be _ _
  have hiff := announces_operate_iff hready hx.announces (react x.be e)
  rw [react_presence, hquiet] at hiff
  constructor
  · rintro ⟨hannounces, hregisters⟩
    have hsame : (usbhsStep x.be e).st.enabled = x.be.st.enabled := (hiff.mp hannounces).2.symm
    rw [hbe] at hregisters
    exact ⟨hsame, by rw [← hregisters, hsame, hx.registers]⟩
  rintro ⟨hen, hruns⟩
  refine ⟨hiff.mpr ⟨trivial, hen.symm⟩, ?_⟩
  rw [hbe, hen, hruns, hx.registers]

lemma hsAnnounces_usbcmd_iff (v : Word) :
    HsAnnounces (x.backendStep react (.write 0x140 v)) ↔ KeepsMode x (.write 0x140 v) := by
  have hw : UsbcmdWritten x.be v (usbhsStep x.be (.write 0x140 v)) := by
    have hwritten : CoreWritten x.be 0x140 v (usbhsStep x.be (.write 0x140 v)) :=
      coreWrite_written x.be v (by decide)
    cases hwritten with
    | usbcmd _ hy => exact writeUsbcmd_written x.be v
    | registers hoff _ _ => exact absurd rfl hoff
  have hbe : (x.backendStep react (.write 0x140 v)).be = usbhsStep x.be (.write 0x140 v) :=
    operate_be _ _
  have hiff := announces_operate_iff hready hx.announces (react x.be (.write 0x140 v))
  have hcalls : (latchedCalls x.be (.write 0x140 v)).filterMap presence =
      (usbcmdCalls x.be.st v).filterMap presence := rfl
  have hen : isEnabled (react x.be (.write 0x140 v)).be =
      (!anyBit v usbcmdRst && anyBit v usbcmdRs && (deviceMode x.be.st.regs || x.be.st.enabled)) :=
    hw.enabled
  have hruns : runsDevice (usbhsStep x.be (.write 0x140 v)).st =
      (!anyBit v usbcmdRst && anyBit v usbcmdRs && deviceMode x.be.st.regs) := by
    rw [runsDevice, deviceMode, hw.usbcmd, hw.usbmode]
    cases anyBit v usbcmdRst with
    | true => simp
    | false => rfl
  have hdevice : x.be.st.enabled → deviceMode x.be.st.regs := by
    rw [hx.registers, runsDevice, Bool.and_eq_true]
    exact fun h => h.2
  rw [react_presence, hcalls, hen] at hiff
  have hsplit : HsAnnounces (x.backendStep react (.write 0x140 v)) ↔
      Announces isEnabled (x.backendStep react (.write 0x140 v)) ∧
        (usbhsStep x.be (.write 0x140 v)).st.enabled =
          runsDevice (usbhsStep x.be (.write 0x140 v)).st := by
    constructor
    · intro h
      exact ⟨h.announces, hbe ▸ h.registers⟩
    · intro h
      exact ⟨h.1, hbe.symm ▸ h.2⟩
  rw [hsplit, backendStep, hiff, hw.enabled, hruns]
  simp only [KeepsMode, isEnabled, usbcmdCalls]
  -- the flags decide both sides
  revert hdevice
  cases x.be.st.enabled <;> cases deviceMode x.be.st.regs <;> cases anyBit v usbcmdRst <;>
    cases anyBit v usbcmdRs <;> simp [AlternatesFrom, presence]

lemma hsAnnounces_registers_iff {off : ℕ} (v : Word) (hoff : off ≠ 0x140)
    (hs : RegistersWritten x.be.st off v s)
    (hy : usbhsStep x.be (.write off v) = { x.be with st := s }) :
    HsAnnounces (x.backendStep react (.write off v)) ↔ KeepsMode x (.write off v) := by
  have hquiet : (latchedCalls x.be (.write off v)).filterMap presence = [] := by
    rw [latchedCalls, if_neg hoff]
    rfl
  rw [hsAnnounces_quiet_iff hready hx hquiet, hy]
  have hmode : deviceMode s.regs = if off / 4 = 0x6A
      then v &&& usbmodeCmMask == usbmodeCmDevice else deviceMode x.be.st.regs := by
    rw [deviceMode, hs.usbmode]
    split <;> rfl
  simp only [hs.enabled, true_and, KeepsMode, hoff, false_implies, ne_eq, not_false_eq_true,
    true_implies, runsDevice, hmode, hs.usbcmd]
  by_cases hcmd : off / 4 = 0x50
  · simp [hcmd]
  by_cases hmode : off / 4 = 0x6A
  · simp [hmode]
  · simp [hcmd, hmode]

lemma hsAnnounces_step_iff (e : UsbhsEvent) :
    HsAnnounces (x.backendStep react e) ↔ KeepsMode x e := by
  by_cases hsteady : (∀ off v, e = .write off v → off = 0x1B0) ∧ e ≠ .reset
  · have hsame := (latched_sameMode hsteady.1 hsteady.2).trans (step_sameMode x.be e)
    have hquiet : (latchedCalls x.be e).filterMap presence = [] := by
      cases e with
      | write off v =>
        have hprime := hsteady.1 off v rfl
        rw [latchedCalls, if_neg (by omega)]
        rfl
      | _ => rfl
    rw [hsAnnounces_quiet_iff hready hx hquiet]
    refine iff_of_true ⟨hsame.enabled, hsame.runsDevice⟩ ?_
    cases e with
    | write off v =>
      have hprime := hsteady.1 off v rfl
      refine ⟨?_, ?_, ?_⟩
      · omega
      · omega
      · omega
    | reset => exact absurd rfl hsteady.2
    | _ => trivial
  cases e with
  | write off v =>
    have hprime : off ≠ 0x1B0 := by
      rintro rfl
      refine hsteady ⟨?_, by simp⟩
      rintro _ _ ⟨⟩
      rfl
    cases coreWrite_written x.be v hprime with
    | usbcmd hoff _ =>
      subst hoff
      exact hsAnnounces_usbcmd_iff hready hx v
    | registers hoff hs hy => exact hsAnnounces_registers_iff hready hx v hoff hs hy
  | reset =>
    rw [hsAnnounces_quiet_iff hready hx rfl, hx.registers.symm]
    constructor
    · rintro ⟨hen, -⟩
      exact hen.symm
    intro hoff
    have hoff : x.be.st.enabled = false := hoff
    rw [hoff]
    exact ⟨rfl, runsDevice_resetRegs rfl⟩
  | _ => exact absurd ⟨by simp, by simp⟩ hsteady

end Step

end Mcxn947.Usbhs

namespace Mcxn947.Usbdev

open GuestMemory EventRuns

lemma ready_ready {β : Type*} (be : β) : (Bridge.ready be).dev.Ready := ⟨rfl, rfl⟩

/-- For either controller, the announcements take turns and agree with the mode throughout
a run exactly if no step of it changes the mode behind the device's back. -/
theorem announcements_iff (mem : Mem) (fsEvents : List Usbfs.UsbfsEvent)
    (hsEvents : List Usbhs.UsbhsEvent) :
    (Always (Bridge.backendStep Usbfs.react) (Announces Usbfs.inDeviceMode)
        (.ready (.powerOn mem)) fsEvents ↔
      Admits (Bridge.backendStep Usbfs.react) Usbfs.KeepsMode (.ready (.powerOn mem)) fsEvents) ∧
    (Always (Bridge.backendStep Usbhs.react) Usbhs.HsAnnounces (.ready (.powerOn mem)) hsEvents ↔
      Admits (Bridge.backendStep Usbhs.react) Usbhs.KeepsMode (.ready (.powerOn mem))
        hsEvents) := by
  constructor
  · have hstart : Announces Usbfs.inDeviceMode (.ready (.powerOn mem)) := ⟨trivial, rfl⟩
    exact always_iff_admits (I := fun x : Bridge Usbfs.Controller => x.dev.Ready)
      (fun _ e h => backendStep_ready h e)
      (fun _ e h hx => Usbfs.announces_step_iff h hx e) (ready_ready _) hstart fsEvents
  have hstart : Usbhs.HsAnnounces (.ready (.powerOn mem)) :=
    ⟨⟨trivial, rfl⟩, (Usbhs.runsDevice_resetRegs rfl).symm⟩
  exact always_iff_admits (I := fun x : Bridge Usbhs.Core => x.dev.Ready)
    (fun _ e h => backendStep_ready h e)
    (fun _ e h hx => Usbhs.hsAnnounces_step_iff h hx e) (ready_ready _) hstart hsEvents

def softwareReset : List Usbhs.UsbhsEvent :=
  [.write 0x1A8 2, .write 0x140 1, .write 0x140 2, .write 0x140 1]

theorem connects_twice : ¬ Always (Bridge.backendStep Usbhs.react) Usbhs.HsAnnounces
      (.ready (.powerOn fun _ => 0)) softwareReset := by
  intro h
  have hlast := (h softwareReset (List.prefix_refl _)).announces.turns
  have hsent : announced (run (Bridge.backendStep Usbhs.react)
      (.ready (.powerOn fun _ => 0)) softwareReset).sent = [true, true] := by
    decide +kernel
  rw [hsent] at hlast
  simp [AlternatesFrom] at hlast

end Mcxn947.Usbdev
