import Mcxn947.UsbfsHandshake

/-!
# What a service does

Every event of the controller is a preparation, which moves no data, followed or not by one
service.
-/

namespace Mcxn947.Usbfs

open MachineWords GuestMemory EventRuns Function List Option UsbfsState

variable (s : UsbfsState) (t : UsbfsXfer)

def bdAddr (bd : Bd) : Word := bdtBase s + bdOff bd

def armed (x : Controller) (bd : Bd) : Bool := anyBit (bdLd x.mem (bdAddr x.st bd)) bdOwn

def bdCount (x : Controller) (bd : Bd) : ℕ := ((bdLd x.mem (bdAddr x.st bd) >>> 16) &&& 0x3FF).toNat

def bdBuf (x : Controller) (bd : Bd) : ℕ := (bdLd x.mem (bdAddr x.st bd + 4)).toNat

def offered (x : Controller) (bd : Bd) : List Byte :=
  load x.mem (bdBuf x bd) (min (bdCount x bd) usbfsMps)

/-- One descriptor has been served: `bd` was due and armed and is written back with `w`
over the memory `m`; these are the transfers, the two flags of a control transfer and the
new calls that the service leaves. -/
structure Served (x y : Controller) (bd : Bd) (m : Mem) (w : Word)
    (xfers : EpIdx → UsbfsXfer) (setupPending ep0StatusIn : Bool)
    (calls : List UsbdevCall) : Prop where
  armed : armed x bd = true
  retired : Retired x y bd
  mem : y.mem = store32 m (bdAddr x.st bd).toNat w
  base : bdtBase y.st = bdtBase x.st
  xfers : y.st.ep = xfers
  setupPending : y.st.setupPending = setupPending
  ep0StatusIn : y.st.ep0StatusIn = ep0StatusIn
  setupPkt : y.st.setupPkt = x.st.setupPkt
  calls : y.calls = x.calls ++ calls

def ServedStatus (x y : Controller) : Prop :=
  Served x y (x.st.due 0 true) x.mem (pidIn <<< 2) x.st.ep x.st.setupPending false
    [.completeOut 0 0]

def ServedSetup (x y : Controller) : Prop :=
  Served x y (x.st.due 0 false) (store x.mem (bdBuf x (x.st.due 0 false)) x.st.setupPkt)
    ((8 <<< 16) ||| (pidSetup <<< 2)) x.st.ep false x.st.ep0StatusIn []

def taken (x : Controller) (ep : EpIdx) : List Byte :=
  load x.mem (bdBuf x (x.st.due ep true))
    (min (min (bdCount x (x.st.due ep true)) usbfsMps) (usbfsXfermax - (x.st.ep ep).inAcc))

def UsbfsXfer.collect (bytes : List Byte) : UsbfsXfer :=
  { t with inBuf := store t.inBuf t.inAcc bytes, inAcc := t.inAcc + bytes.length }

def UsbfsXfer.inDone (bytes : List Byte) : Bool :=
  bytes.length < usbfsMps ∨ t.inLen ≤ t.inAcc + bytes.length ∨ usbfsXfermax ≤ t.inAcc + bytes.length

def ServedIn (x y : Controller) (ep : EpIdx) : Prop :=
  let t := x.st.ep ep
  let bytes := taken x ep
  Served x y (x.st.due ep true) x.mem ((BitVec.ofNat 32 bytes.length <<< 16) ||| (pidIn <<< 2))
    (update x.st.ep ep (if t.inDone bytes then { t.collect bytes with inPending := false }
      else t.collect bytes))
    x.st.setupPending x.st.ep0StatusIn
    (if t.inDone bytes then
      [.completeIn ep (load (t.collect bytes).inBuf 0 (t.collect bytes).inAcc)]
    else [])

def UsbfsXfer.outChunk : List Byte := load t.outBuf t.outOff (min (t.outLen - t.outOff) usbfsMps)

def UsbfsXfer.advance : UsbfsXfer := { t with outOff := t.outOff + t.outChunk.length }

def UsbfsXfer.outDone : Bool :=
  t.outLen ≤ t.outOff + t.outChunk.length ∨ t.outChunk.length < usbfsMps

def ServedOut (x y : Controller) (ep : EpIdx) : Prop :=
  let t := x.st.ep ep
  Served x y (x.st.due ep false) (store x.mem (bdBuf x (x.st.due ep false)) t.outChunk)
    ((BitVec.ofNat 32 t.outChunk.length <<< 16) ||| (pidOut <<< 2))
    (update x.st.ep ep (if t.outDone then { t.advance with outPending := false } else t.advance))
    x.st.setupPending x.st.ep0StatusIn
    (if t.outDone then [.completeOut ep t.outLen] else [])

variable {x y : Controller}

lemma consumeStatusIn_spec (h : usbfsConsumeStatusIn x = some y) : ServedStatus x y := by
  have hret := consumeStatusIn_retired h
  simp only [usbfsConsumeStatusIn] at h
  split at h
  · cases h
  rename_i harmed
  cases h
  exact ⟨by simpa [armed, bdAddr] using harmed, hret, rfl, rfl, rfl, rfl, rfl, rfl, rfl⟩

lemma deliverSetup_spec (h : usbfsDeliverSetup x = some y) : ServedSetup x y := by
  have hret := deliverSetup_retired h
  simp only [usbfsDeliverSetup] at h
  split at h
  · cases h
  rename_i harmed
  cases h
  exact ⟨by simpa [armed, bdAddr] using harmed, hret, rfl, rfl, rfl, rfl, rfl, rfl,
    (append_nil _).symm⟩

variable {ep : EpIdx} {e : UsbfsEvent} {v : Word} {answer : HostAnswer} {off : ℕ}

lemma serviceIn_spec (h : usbfsServiceIn x ep = some y) : ServedIn x y ep := by
  have hret := serviceIn_retired h
  unfold usbfsServiceIn at h
  extract_lets t bd ba ctrl bc bc' data t' x' w z at h
  have hbc : bc' = (taken x ep).length := (length_load _ _ _).symm
  have ht' : t' = t.collect (taken x ep) := by
    simp only [t', UsbfsXfer.collect, hbc]
    rfl
  have hdone : t.inDone (taken x ep) ↔
      bc' < usbfsMps ∨ t'.inLen ≤ t'.inAcc ∨ usbfsXfermax ≤ t'.inAcc := by
    rw [hbc, ht']
    exact decide_eq_true_iff
  have hmem : z.mem = store32 x.mem ba.toNat
      ((BitVec.ofNat 32 (taken x ep).length <<< 16) ||| (pidIn <<< 2)) := by
    rw [← hbc]
    rfl
  split at h
  · cases h
  rename_i harmed
  have harmed' : armed x bd = true := by simpa [armed, bdAddr] using harmed
  split at h
  next hend =>
    have hend' := hdone.mpr hend
    cases h
    refine ⟨harmed', hret, hmem, rfl, ?_, rfl, rfl, rfl, ?_⟩
    · rw [if_pos hend', ← ht']
      exact update_idem ..
    · rw [if_pos hend', ← ht']
      rfl
  rename_i hmore
  have hmore' : ¬ t.inDone (taken x ep) = true := fun hend => hmore (hdone.mp hend)
  obtain rfl := some.inj h
  refine ⟨harmed', hret, hmem, rfl, ?_, rfl, rfl, rfl, ?_⟩
  · rw [if_neg hmore', ← ht']
    rfl
  · rw [if_neg hmore', append_nil]
    rfl

lemma serviceOut_spec (h : usbfsServiceOut x ep = some y) : ServedOut x y ep := by
  have hret := serviceOut_retired h
  unfold usbfsServiceOut at h
  extract_lets t bd ba chunk buf x' t' x'' w z at h
  have hchunk : chunk = t.outChunk.length := (length_load _ _ _).symm
  have ht' : t' = t.advance := by simp only [t', UsbfsXfer.advance, hchunk]
  have hdone : t.outDone ↔ t'.outLen ≤ t'.outOff ∨ chunk < usbfsMps := by
    rw [hchunk, ht']
    exact decide_eq_true_iff
  have hmem : z.mem = store32 (store x.mem buf t.outChunk) ba.toNat
      ((BitVec.ofNat 32 t.outChunk.length <<< 16) ||| (pidOut <<< 2)) := by
    rw [← hchunk]
    rfl
  split at h
  · cases h
  rename_i harmed
  have harmed' : armed x bd = true := by simpa [armed, bdAddr] using harmed
  split at h
  next hend =>
    have hend' := hdone.mpr hend
    cases h
    refine ⟨harmed', hret, hmem, rfl, ?_, rfl, rfl, rfl, ?_⟩
    · rw [if_pos hend', ← ht']
      exact update_idem ..
    · rw [if_pos hend']
      rfl
  rename_i hmore
  have hmore' : ¬ t.outDone = true := fun hend => hmore (hdone.mp hend)
  obtain rfl := some.inj h
  refine ⟨harmed', hret, hmem, rfl, ?_, rfl, rfl, rfl, ?_⟩
  · rw [if_neg hmore', ← ht']
    rfl
  · rw [if_neg hmore', append_nil]
    rfl

lemma consumeStatusIn_none
    (h : usbfsConsumeStatusIn x = none) : armed x (x.st.due 0 true) = false := by
  simp only [usbfsConsumeStatusIn] at h
  split at h
  next hidle => simpa [armed, bdAddr] using hidle
  · cases h

lemma deliverSetup_none
    (h : usbfsDeliverSetup x = none) : armed x (x.st.due 0 false) = false := by
  simp only [usbfsDeliverSetup] at h
  split at h
  next hidle => simpa [armed, bdAddr] using hidle
  · cases h

inductive Serves (x y : Controller) : Prop where
  | idle (h : y = x)
  | status (h : x.st.ep0StatusIn = true) (hy : ServedStatus x y)
  | setup (h : x.st.setupPending = true)
      (hstatus : x.st.ep0StatusIn = true → armed x (x.st.due 0 true) = false)
      (hy : ServedSetup x y)
  | dataIn (ep : EpIdx) (h : (x.st.ep ep).inPending = true)
      (hstatus : x.st.ep0StatusIn = true → armed x (x.st.due 0 true) = false)
      (hy : ServedIn x y ep)
  | dataOut (ep : EpIdx) (h : (x.st.ep ep).outPending = true)
      (hsetup : x.st.setupPending = true → armed x (x.st.due 0 false) = false)
      (hy : ServedOut x y ep)

lemma Served.keeps {bd : Bd} {m : Mem} {w : Word}
    {xfers : EpIdx → UsbfsXfer} {setupPending ep0StatusIn : Bool} {calls : List UsbdevCall}
    (h : Served x y bd m w xfers setupPending ep0StatusIn calls) :
    y.st.hostMode = x.st.hostMode ∧ y.st.hostPend = x.st.hostPend ∧ y.st.setupPkt = x.st.setupPkt :=
  ⟨h.retired.hostMode, h.retired.hostPend, h.setupPkt⟩

lemma Serves.keeps (h : Serves x y) :
    y.st.hostMode = x.st.hostMode ∧ y.st.hostPend = x.st.hostPend ∧
      y.st.setupPkt = x.st.setupPkt := by
  cases h with
  | idle heq => rw [heq]; exact ⟨rfl, rfl, rfl⟩
  | status _ hy | setup _ _ hy | dataIn _ _ _ hy | dataOut _ _ _ hy => exact hy.keeps

lemma serviceEndpoints_serves (hstatus : x.st.ep0StatusIn → armed x (x.st.due 0 true) = false)
    (hsetup : x.st.setupPending → armed x (x.st.due 0 false) = false)
    (eps : List EpIdx) : Serves x (usbfsServiceEndpoints x eps) := by
  induction eps with
  | nil => exact .idle rfl
  | cons ep rest ih =>
    unfold usbfsServiceEndpoints
    split
    next y hin =>
      split at hin
      next hpend => exact .dataIn ep hpend hstatus (serviceIn_spec hin)
      · cases hin
    split
    next y hout =>
      split at hout
      next hpend => exact .dataOut ep hpend hsetup (serviceOut_spec hout)
      · cases hout
    · exact ih

lemma service_serves (x : Controller) : usbfsService x = x ∨
      x.st.enabled ∧ x.st.tokdneBusy = false ∧ Serves x (usbfsService x) := by
  unfold usbfsService
  split
  · exact .inl rfl
  rename_i hgate
  simp only [Bool.or_eq_true, Bool.not_eq_true', not_or, Bool.not_eq_true,
    Bool.not_eq_false] at hgate
  refine .inr ⟨hgate.1, hgate.2, ?_⟩
  split
  next y hstatus =>
    split at hstatus
    next howed => exact .status howed (consumeStatusIn_spec hstatus)
    · cases hstatus
  rename_i hnostatus
  have hstatus : x.st.ep0StatusIn → armed x (x.st.due 0 true) = false := by
    intro howed
    rw [if_pos howed] at hnostatus
    exact consumeStatusIn_none hnostatus
  split
  next y hsetup =>
    split at hsetup
    next hwaits => exact .setup hwaits hstatus (deliverSetup_spec hsetup)
    · cases hsetup
  rename_i hnosetup
  apply serviceEndpoints_serves hstatus
  intro hwaits
  rw [if_pos hwaits] at hnosetup
  exact deliverSetup_none hnosetup

def UsbfsState.stalled (ep : EpIdx) : Bool := anyBit (s.regs (rEndpt ep)) endptEpstall

def serves (x : Controller) : UsbfsEvent → Bool
  | .write off v _ => off = 0x80 && anyBit v istatTokdne
  | .sof => x.st.enabled
  | .setup _ => true
  | .epIn ep _ | .epOut ep _ => !x.st.stalled ep
  | .busReset | .reset | .hostComplete _ | .hostPort _ | .store _ _ => false

def UsbfsState.startFrame (s : UsbfsState) : UsbfsState :=
  let s := s.setReg rFrmnuml ((s.regs rFrmnuml + 1) &&& 0xFF)
  usbfsUpdateIrq (s.setReg rIstat (s.regs rIstat ||| istatSoftok))

def UsbfsState.latchSetup (setup : List Byte) : UsbfsState :=
  { s with
    setupPkt := setup, setupPending := true
    ep0StatusIn := !anyBit (setup.getD 0 0) 0x80 || s.ep0StatusIn
    ep := update s.ep 0 { s.ep 0 with
      inPending := false, inAcc := 0, outPending := false, outOff := 0 } }

def UsbfsState.latchIn (ep : EpIdx) (len : ℕ) : UsbfsState :=
  s.setXfer ep { s.ep ep with inPending := true, inLen := len, inAcc := 0 }

def UsbfsState.latchOut (ep : EpIdx) (data : List Byte) : UsbfsState :=
  s.setXfer ep { s.ep ep with
    outBuf := store (s.ep ep).outBuf 0 (data.take usbfsXfermax)
    outLen := (data.take usbfsXfermax).length, outOff := 0, outPending := true }

def latched (x : Controller) : UsbfsEvent → Controller
  | .write _ v _ => acknowledged x v
  | .sof => { x with st := x.st.startFrame }
  | .setup pkt => { x with st := x.st.latchSetup pkt }
  | .epIn ep len => { x with st := x.st.latchIn ep len }
  | .epOut ep data => { x with st := x.st.latchOut ep data }
  | .busReset | .reset | .hostComplete _ | .hostPort _ | .store _ _ => x

lemma step_of_serves (h : serves x e) : usbfsStep x e = usbfsService (latched x e) := by
  cases e with
  | write off v answer =>
    simp only [serves, Bool.and_eq_true, decide_eq_true_eq] at h
    rw [h.1]
    exact writeIstat_ack h.2
  | sof =>
    simp only [serves] at h
    simp only [usbfsStep, usbfsSof, h]
    rfl
  | setup pkt =>
    simp only [usbfsStep, usbfsBeSetup, latched, latchSetup]
    split
    next hin =>
      simp only [hin]
      rfl
    rename_i hout
    simp only [hout]
    rfl
  | epIn ep len =>
    simp only [serves, stalled, Bool.not_eq_true'] at h
    simp only [usbfsStep, usbfsBeEpIn, h]
    rfl
  | epOut ep data =>
    simp only [serves, stalled, Bool.not_eq_true'] at h
    simp only [usbfsStep, usbfsBeEpOut, h]
    rfl
  | busReset | reset | hostComplete _ | hostPort _ | store _ _ => cases h

def ctlCalls (enabled : Bool) (v : Word) : List UsbdevCall :=
  if anyBit v ctlHostmodeen then []
  else if anyBit v ctlUsbensofen && !enabled then [.attach]
  else if !anyBit v ctlUsbensofen && enabled then [.detach]
  else []

structure CtlWritten (x : Controller) (v : Word) (y : Controller) : Prop where
  hostPend : y.st.hostPend = x.st.hostPend
  hostMode : y.st.hostMode = anyBit v ctlHostmodeen
  enabled : y.st.enabled = anyBit v ctlUsbensofen
  calls : y.calls = x.calls ++ ctlCalls x.st.enabled v

lemma writeCtl_written (x : Controller) (v : Word) : CtlWritten x v (writeCtl x v) := by
  unfold writeCtl
  extract_lets x₁ x₂ _ s x₃ x₄
  have hx₂ : x₂.st.hostPend = x.st.hostPend ∧ x₂.st.enabled = x.st.enabled ∧
      x₂.calls = x.calls := by
    unfold x₂
    split <;> exact ⟨rfl, rfl, rfl⟩
  obtain ⟨hpend, hen, hcalls⟩ := hx₂
  have hx₄ : CtlWritten x v x₄ := by
    have hs : s.enabled = x.st.enabled := hen
    have hhost : s.hostMode = anyBit v ctlHostmodeen := rfl
    have hcalls' : x₃.calls = x.calls := hcalls
    unfold x₄
    simp only [hs, hhost, hcalls']
    split
    next hon =>
      simp only [Bool.and_eq_true, Bool.not_eq_true'] at hon
      refine ⟨hpend, rfl, hon.1.symm, ?_⟩
      rw [ctlCalls]
      split
      · simp
      · simp [hon]
    split
    next hoff =>
      simp only [Bool.and_eq_true, Bool.not_eq_true'] at hoff
      refine ⟨hpend, rfl, hoff.1.symm, ?_⟩
      rw [ctlCalls]
      split
      · simp
      · simp [hoff]
    rename_i hon hoff
    refine ⟨hpend, rfl, hs.trans ?_, ?_⟩
    · revert hon hoff
      cases anyBit v ctlUsbensofen <;> cases x.st.enabled <;> simp
    · rw [ctlCalls, if_neg hon, if_neg hoff, ite_self, append_nil]
      exact hcalls
  split
  · exact ⟨hx₄.hostPend, hx₄.hostMode, hx₄.enabled, hx₄.calls⟩
  · exact hx₄
def UsbfsEvent.KeepsDeviceMode : UsbfsEvent → Prop
  | .write off v _ => off = 0x94 → anyBit v ctlHostmodeen = false
  | _ => True

def UsbfsEvent.RequestsIn (ep : EpIdx) : UsbfsEvent → Prop
  | .epIn ep' _ => ep' = ep
  | _ => False

def UsbfsEvent.RequestsOut (ep : EpIdx) : UsbfsEvent → Prop
  | .epOut ep' _ => ep' = ep
  | _ => False

def UsbfsEvent.latestSetup (pkt : List Byte) : UsbfsEvent → List Byte
  | .setup pkt' => pkt'
  | _ => pkt

def UsbfsEvent.setupWaits (waits : Bool) : UsbfsEvent → Bool
  | .setup _ => true
  | .reset => false
  | _ => waits

def UsbfsEvent.statusOwed (owed : Bool) : UsbfsEvent → Bool
  | .setup pkt => !anyBit (pkt.getD 0 0) 0x80 || owed
  | .busReset => false
  | _ => owed

def UsbfsEvent.Ordinary (e : UsbfsEvent) : Prop :=
  ∀ pkt waits owed, e.latestSetup pkt = pkt ∧ e.setupWaits waits = waits ∧ e.statusOwed owed = owed

structure SameIn (t u : UsbfsXfer) : Prop where
  pending : u.inPending = t.inPending
  len : u.inLen = t.inLen
  acc : u.inAcc = t.inAcc
  buf : u.inBuf = t.inBuf

structure SameOut (t u : UsbfsXfer) : Prop where
  pending : u.outPending = t.outPending
  len : u.outLen = t.outLen
  off : u.outOff = t.outOff
  buf : u.outBuf = t.outBuf

lemma SameIn.refl : SameIn t t := ⟨rfl, rfl, rfl, rfl⟩

lemma SameOut.refl : SameOut t t := ⟨rfl, rfl, rfl, rfl⟩

lemma ServedIn.sameOut (h : ServedIn x y ep) (ep' : EpIdx) :
    SameOut (x.st.ep ep') (y.st.ep ep') := by
  rw [h.xfers]
  by_cases hep : ep' = ep
  · subst hep
    rw [update_self]
    split <;> exact ⟨rfl, rfl, rfl, rfl⟩
  · rw [update_of_ne hep]
    exact .refl _

lemma ServedOut.sameIn (h : ServedOut x y ep) (ep' : EpIdx) :
    SameIn (x.st.ep ep') (y.st.ep ep') := by
  rw [h.xfers]
  by_cases hep : ep' = ep
  · subst hep
    rw [update_self]
    split <;> exact ⟨rfl, rfl, rfl, rfl⟩
  · rw [update_of_ne hep]
    exact .refl _

structure Silent (x y : Controller) : Prop where
  log : ∃ marks, y.log = x.log ++ marks ∧ ∀ m ∈ marks, m = .bankReset
  calls : ∃ new, y.calls = x.calls ++ new ∧ ∀ c ∈ new, c = .attach ∨ c = .detach

def retirements (x y : Controller) : List Bd := writeBacks (y.log.drop x.log.length)

def newCalls (x y : Controller) : List UsbdevCall := y.calls.drop x.calls.length

lemma Silent.retirements (h : Silent x y) : retirements x y = [] := by
  obtain ⟨marks, hlog, hmarks⟩ := h.log
  rw [Usbfs.retirements, hlog, List.drop_left]
  apply List.filterMap_eq_nil_iff.mpr
  intro m hm
  rw [hmarks m hm]
  rfl

lemma Silent.newCalls (h : Silent x y) : ∀ c ∈ newCalls x y, c = .attach ∨ c = .detach := by
  obtain ⟨new, hcalls, hnew⟩ := h.calls
  rw [Usbfs.newCalls, hcalls, drop_left]
  exact hnew

section Served

variable {x y : Controller} {bd : Bd} {m : Mem} {w : Word} {xfers : EpIdx → UsbfsXfer}
  {setupPending ep0StatusIn : Bool} {calls : List UsbdevCall}

section

variable (h : Served x y bd m w xfers setupPending ep0StatusIn calls)
include h

lemma Served.retirements : retirements x y = [bd] := by
  rw [Usbfs.retirements, h.retired.log, List.drop_left]
  rfl

lemma Served.newCalls : newCalls x y = calls := by rw [Usbfs.newCalls, h.calls, List.drop_left]

lemma Served.mode (hmode : DeviceMode x) : DeviceMode y :=
  ⟨h.retired.hostMode.trans hmode.1, h.retired.hostPend.trans hmode.2⟩

end

end Served

lemma Silent.ofEq (hlog : y.log = x.log) (hcalls : y.calls = x.calls) : Silent x y :=
  ⟨⟨[], by simp [hlog]⟩, ⟨[], by simp [hcalls]⟩⟩

variable {z : Controller}

lemma Silent.trans (h : Silent x y) (h' : Silent y z) : Silent x z := by
  obtain ⟨⟨marks, hlog, hmarks⟩, ⟨new, hcalls, hnew⟩⟩ := h
  obtain ⟨⟨marks', hlog', hmarks'⟩, ⟨new', hcalls', hnew'⟩⟩ := h'
  refine ⟨⟨marks ++ marks', by rw [hlog', hlog, append_assoc], ?_⟩,
    ⟨new ++ new', by rw [hcalls', hcalls, append_assoc], ?_⟩⟩
  · intro m hm
    exact (List.mem_append.mp hm).elim (hmarks m) (hmarks' m)
  · intro c hc
    exact (List.mem_append.mp hc).elim (hnew c) (hnew' c)

structure Untouched (x y : Controller) : Prop where
  silent : Silent x y
  mem : y.mem = x.mem
  xfers : y.st.ep = x.st.ep
  setupPending : y.st.setupPending = x.st.setupPending
  ep0StatusIn : y.st.ep0StatusIn = x.st.ep0StatusIn
  setupPkt : y.st.setupPkt = x.st.setupPkt
  hostMode : y.st.hostMode = x.st.hostMode
  hostPend : y.st.hostPend = x.st.hostPend

lemma Untouched.refl (x : Controller) : Untouched x x :=
  ⟨.ofEq rfl rfl, rfl, rfl, rfl, rfl, rfl, rfl, rfl⟩

lemma Untouched.trans (h : Untouched x y) (h' : Untouched y z) : Untouched x z :=
  ⟨h.silent.trans h'.silent, h'.mem.trans h.mem, h'.xfers.trans h.xfers,
    h'.setupPending.trans h.setupPending, h'.ep0StatusIn.trans h.ep0StatusIn,
    h'.setupPkt.trans h.setupPkt, h'.hostMode.trans h.hostMode, h'.hostPend.trans h.hostPend⟩

lemma untouched_regs (x : Controller) (regs : RegIdx → Word) (irq : Bool) :
    Untouched x { x with st := { x.st with regs := regs, irq := irq } } :=
  ⟨.ofEq rfl rfl, rfl, rfl, rfl, rfl, rfl, rfl, rfl⟩

lemma writeCtl_untouched (hmode : DeviceMode x)
    (hv : anyBit v ctlHostmodeen = false) : Untouched x (writeCtl x v) := by
  obtain ⟨y, enabled, new, hy, hnew, heq⟩ := writeCtl_device hmode hv
  have hreg : Untouched x { x with st := x.st.setReg rCtl v } := untouched_regs x _ x.st.irq
  have hbanks : Untouched { x with st := x.st.setReg rCtl v } y := by
    rw [hy]
    split
    · exact ⟨⟨⟨[.bankReset], rfl, by simp⟩, ⟨[], by simp [Controller.resetBanks]⟩⟩,
        rfl, rfl, rfl, rfl, rfl, rfl, rfl⟩
    · exact .refl _
  rw [heq]
  refine (hreg.trans hbanks).trans ?_
  exact ⟨⟨⟨[], by simp⟩, ⟨new, rfl, hnew⟩⟩, rfl, rfl, rfl, rfl, rfl, rfl, rfl⟩

lemma usbfsWrite_cases (hmode : DeviceMode x)
    (hserves : serves x (.write off v answer) = false) (hy : mcxnUsbfsWrite answer x off v = y) :
    y = x ∨ (∃ (r : RegIdx) (w : Word) (irq : Bool), r.val = off / 4 ∧
      y = { x with st := { x.st.setReg r w with irq := irq } }) ∨
    off = 0x94 ∧ y = writeCtl x v := by
  unfold mcxnUsbfsWrite at hy
  split at hy
  next hoff =>
    extract_lets r at hy
    have hr : r.val = off / 4 := rfl
    have hregs : ∀ {q : RegIdx}, off % 4 = 0 → r = q → off = 4 * q.val := by
      rintro q halign rfl
      show off = 4 * (off / 4)
      omega
    clear_value r
    have hplain : ∀ w, { x with st := x.st.setReg r w } = y →
        ∃ (r : RegIdx) (w : Word) (irq : Bool), r.val = off / 4 ∧
          y = { x with st := { x.st.setReg r w with irq := irq } } := fun w h =>
      ⟨r, w, x.st.irq, hr, h.symm⟩
    have hdriven : ∀ w, { x with st := usbfsUpdateIrq (x.st.setReg r w) } = y →
        ∃ (r : RegIdx) (w : Word) (irq : Bool), r.val = off / 4 ∧
          y = { x with st := { x.st.setReg r w with irq := irq } } := fun w h =>
      ⟨r, w, _, hr, h.symm⟩
    split at hy
    · exact .inr (.inl (hplain v hy))
    rename_i halign
    rw [not_not] at halign
    split at hy
    · exact .inl hy.symm
    split at hy
    · exact .inr (.inl (hdriven _ hy))
    split at hy
    next histat =>
      have hv : anyBit v istatTokdne = false := by
        rw [hregs halign histat] at hserves
        simpa [serves, rIstat] using hserves
      simp only [writeIstat, hv, Bool.false_eq_true, if_false, ← histat] at hy
      exact .inr (.inl (hdriven _ hy))
    split at hy
    next hctl => exact .inr (.inr ⟨hregs halign hctl, hy.symm⟩)
    split at hy
    · have hidle : ¬ ((x.st.setReg r v).hostMode && (x.st.setReg r v).enabled) := by
        show ¬ (x.st.hostMode && x.st.enabled) = true
        simp [hmode.1]
      rw [if_neg hidle] at hy
      exact .inr (.inl (hplain v hy))
    split at hy
    · exact .inr (.inl (hplain _ hy))
    split at hy
    · exact .inr (.inl (hdriven v hy))
    · exact .inr (.inl (hplain v hy))
  · exact .inl hy.symm

lemma write_untouched (hmode : DeviceMode x)
    (hkeeps : (UsbfsEvent.write off v answer).KeepsDeviceMode)
    (hserves : serves x (.write off v answer) = false) :
    Untouched x (mcxnUsbfsWrite answer x off v) := by
  rcases usbfsWrite_cases hmode hserves rfl with hsame | ⟨r, w, irq, -, hreg⟩ | ⟨hoff, hctl⟩
  · rw [hsame]
    exact .refl x
  · rw [hreg]
    exact untouched_regs x _ irq
  · rw [hctl]
    exact writeCtl_untouched hmode (hkeeps hoff)

structure Prepares (x : Controller) (e : UsbfsEvent) (z : Controller) : Prop where
  silent : Silent x z
  mode : DeviceMode z
  setupPkt : z.st.setupPkt = e.latestSetup x.st.setupPkt
  setupPending : z.st.setupPending = e.setupWaits x.st.setupPending
  ep0StatusIn : z.st.ep0StatusIn = e.statusOwed x.st.ep0StatusIn
  ins : ∀ ep, ¬ e.RequestsIn ep → SameIn (x.st.ep ep) (z.st.ep ep) ∨ (z.st.ep ep).inPending = false
  outs : ∀ ep, ¬ e.RequestsOut ep →
    SameOut (x.st.ep ep) (z.st.ep ep) ∨ (z.st.ep ep).outPending = false

lemma Untouched.prepares (h : Untouched x z) (hmode : DeviceMode x)
    (he : e.Ordinary) : Prepares x e z where
  silent := h.silent
  mode := ⟨h.hostMode.trans hmode.1, h.hostPend.trans hmode.2⟩
  setupPkt := h.setupPkt.trans (he _ true true).1.symm
  setupPending := h.setupPending.trans (he [] _ true).2.1.symm
  ep0StatusIn := h.ep0StatusIn.trans (he [] true _).2.2.symm
  ins := fun _ _ => .inl (h.xfers ▸ .refl _)
  outs := fun _ _ => .inl (h.xfers ▸ .refl _)

lemma latched_prepares (hmode : DeviceMode x)
    (hserves : serves x e) : Prepares x e (latched x e) := by
  cases e with
  | write off v answer | sof =>
    exact ⟨.ofEq rfl rfl, hmode, rfl, rfl, rfl,
      fun _ _ => .inl (.refl _), fun _ _ => .inl (.refl _)⟩
  | setup pkt =>
    refine ⟨.ofEq rfl rfl, hmode, rfl, rfl, rfl, ?_, ?_⟩
    all_goals
      intro ep _
      simp only [latched, latchSetup]
      by_cases hep : ep = 0
      · subst hep
        right
        simp
      left
      rw [update_of_ne hep]
      exact .refl _
  | epIn ep' len =>
    refine ⟨.ofEq rfl rfl, hmode, rfl, rfl, rfl, ?_, ?_⟩
    · intro ep hother
      left
      have hne : ep ≠ ep' := fun h => hother h.symm
      simp only [latched, latchIn, setXfer, update_of_ne hne]
      exact .refl _
    intro ep _
    left
    simp only [latched, latchIn, setXfer]
    by_cases hep : ep = ep'
    · subst hep
      rw [update_self]
      exact ⟨rfl, rfl, rfl, rfl⟩
    · rw [update_of_ne hep]
      exact .refl _
  | epOut ep' data =>
    refine ⟨.ofEq rfl rfl, hmode, rfl, rfl, rfl, ?_, ?_⟩
    · intro ep _
      left
      simp only [latched, latchOut, setXfer]
      by_cases hep : ep = ep'
      · subst hep
        rw [update_self]
        exact ⟨rfl, rfl, rfl, rfl⟩
      · rw [update_of_ne hep]
        exact .refl _
    intro ep hother
    left
    have hne : ep ≠ ep' := fun h => hother h.symm
    simp only [latched, latchOut, setXfer, update_of_ne hne]
    exact .refl _
  | busReset | reset | hostComplete _ | hostPort _ | store _ _ => cases hserves

lemma step_prepares (hmode : DeviceMode x)
    (hkeeps : e.KeepsDeviceMode) (hserves : serves x e = false) : Prepares x e (usbfsStep x e) := by
  cases e with
  | write off v answer =>
    exact (write_untouched hmode hkeeps hserves).prepares hmode
      fun _ _ _ => ⟨rfl, rfl, rfl⟩
  | sof =>
    simp only [serves] at hserves
    simp only [usbfsStep, usbfsSof, hserves]
    exact (Untouched.refl x).prepares hmode fun _ _ _ => ⟨rfl, rfl, rfl⟩
  | setup pkt => cases hserves
  | epIn ep len =>
    simp only [serves, stalled, Bool.not_eq_false'] at hserves
    simp only [usbfsStep, usbfsBeEpIn, hserves]
    exact (Untouched.refl x).prepares hmode fun _ _ _ => ⟨rfl, rfl, rfl⟩
  | epOut ep data =>
    simp only [serves, stalled, Bool.not_eq_false'] at hserves
    simp only [usbfsStep, usbfsBeEpOut, hserves]
    exact (Untouched.refl x).prepares hmode fun _ _ _ => ⟨rfl, rfl, rfl⟩
  | busReset | reset =>
    exact ⟨⟨⟨[.bankReset], rfl, by simp⟩, ⟨[], (append_nil _).symm, by simp⟩⟩, hmode, rfl, rfl, rfl,
      fun _ _ => .inr rfl, fun _ _ => .inr rfl⟩
  | hostComplete answer =>
    simp only [usbfsStep, mcxnUsbfsHostComplete, hmode.2]
    exact (Untouched.refl x).prepares hmode fun _ _ _ => ⟨rfl, rfl, rfl⟩
  | hostPort dev =>
    simp only [usbfsStep, mcxnUsbfsHostPort, hmode.1, Bool.false_eq_true, if_false]
    exact ⟨.ofEq rfl rfl, ⟨rfl, hmode.2⟩, rfl, rfl, rfl, fun _ _ => .inl (.refl _),
      fun _ _ => .inl (.refl _)⟩
  | store addr bytes =>
    exact ⟨.ofEq rfl rfl, hmode, rfl, rfl, rfl, fun _ _ => .inl (.refl _),
      fun _ _ => .inl (.refl _)⟩

structure SameTable (x z : Controller) : Prop where
  mem : z.mem = x.mem
  base : bdtBase z.st = bdtBase x.st
  banks : SameBanks x.st z.st

lemma bdtBase_setReg {r : RegIdx} (v : Word) (h₁ : r ≠ rBdtpage1)
    (h₂ : r ≠ rBdtpage2) (h₃ : r ≠ rBdtpage3) : bdtBase (s.setReg r v) = bdtBase s := by
  simp only [bdtBase, setReg, update_of_ne h₁.symm, update_of_ne h₂.symm, update_of_ne h₃.symm]

lemma latched_sameTable (x : Controller) (e : UsbfsEvent) : SameTable x (latched x e) := by
  cases e with
  | write off v answer =>
    exact ⟨rfl, bdtBase_setReg x.st _ (by decide) (by decide) (by decide), fun _ _ => rfl⟩
  | sof =>
    refine ⟨rfl, ?_, fun _ _ => rfl⟩
    exact (bdtBase_setReg _ _ (by decide) (by decide) (by decide)).trans
      (bdtBase_setReg x.st _ (by decide) (by decide) (by decide))
  | _ => exact ⟨rfl, rfl, fun _ _ => rfl⟩

lemma latched_silent (x : Controller) (e : UsbfsEvent) :
    (latched x e).log = x.log ∧ (latched x e).calls = x.calls := by
  cases e <;> exact ⟨rfl, rfl⟩

section

variable (x y : Controller) (e : UsbfsEvent)

lemma retirements_latched : retirements (latched x e) y = retirements x y := by
  rw [retirements, retirements, (latched_silent x e).1]

lemma newCalls_latched : newCalls (latched x e) y = newCalls x y := by
  rw [newCalls, newCalls, (latched_silent x e).2]

end

namespace SameTable

variable {x z : Controller} (h : SameTable x z)

include h

lemma due (ep : EpIdx) (tx : Bool) : z.st.due ep tx = x.st.due ep tx := by
  rw [UsbfsState.due, UsbfsState.due, h.banks]

section

variable (bd : Bd)

lemma bdAddr : bdAddr z.st bd = bdAddr x.st bd := by rw [Usbfs.bdAddr, Usbfs.bdAddr, h.base]

lemma armed : armed z bd = armed x bd := by rw [Usbfs.armed, Usbfs.armed, h.bdAddr, h.mem]

lemma bdCount : bdCount z bd = bdCount x bd := by rw [Usbfs.bdCount, Usbfs.bdCount, h.bdAddr, h.mem]

lemma bdBuf : bdBuf z bd = bdBuf x bd := by rw [Usbfs.bdBuf, Usbfs.bdBuf, h.bdAddr, h.mem]

lemma offered : offered z bd = offered x bd := by
  rw [Usbfs.offered, Usbfs.offered, h.bdBuf, h.bdCount, h.mem]

end

end SameTable

lemma serves_usbfsStep (h : serves x e) : Serves (latched x e) (usbfsStep x e) := by
  rw [step_of_serves h]
  rcases service_serves (latched x e) with hidle | ⟨-, -, hserves⟩
  · exact .idle hidle
  · exact hserves

lemma step_cases (hmode : DeviceMode x) (hkeeps : e.KeepsDeviceMode) :
    serves x e = false ∧ Prepares x e (usbfsStep x e) ∨
      serves x e ∧ Serves (latched x e) (usbfsStep x e) := by
  cases hserves : serves x e with
  | false => exact .inl ⟨rfl, step_prepares hmode hkeeps hserves⟩
  | true => exact .inr ⟨rfl, serves_usbfsStep hserves⟩

def enabling : List UsbfsEvent := [.write 0x9C 0x10 .nak, .write 0x94 0x01 .nak]

def enabledAt (mem : Mem) : Controller := run usbfsStep (.powerOn mem) enabling

end Mcxn947.Usbfs
