import Mcxn947.UsbfsService

/-!
# Host mode

In host mode a write to `TOKEN` launches one transaction, with the one packet that the
controller owns.
-/

namespace Mcxn947.Usbfs

open MachineWords GuestMemory EventRuns List Option

def transaction (x : Controller) (token : Word) : HostPend :=
  let pid := (token >>> 4) &&& 0xF
  let ep : EpIdx := Fin.ofNat 16 token.toNat
  let tx := pid != pidIn
  let bd : Bd := ⟨ep, tx, x.st.bank ep tx⟩
  let ba := bdtBase x.st + bdOff bd
  ⟨ba, bdLd x.mem (ba + 4), bd, pid⟩

def HostAnswer.found : HostAnswer → Bool
  | .noDevice => false
  | _ => true

def launched (x : Controller) : UsbfsEvent → Option HostPend
  | .write off v answer =>
    let p := transaction x (v &&& 0xFF)
    if off = 0xA8 ∧ x.st.hostMode = true ∧ x.st.enabled = true ∧
        anyBit (bdLd x.mem p.ba) bdOwn = true ∧ answer.found = true then some p
    else none
  | _ => none

/-- What `usb_ep_get` asserts of a token for the device: SETUP goes to endpoint 0. -/
def HostPend.HasEndpoint (p : HostPend) : Prop := p.bd.ep = 0 ∨ p.pid ≠ pidSetup
deriving Decidable

def UsbfsEvent.kept : UsbfsEvent → Bool
  | .write _ _ .async => true
  | _ => false

def UsbfsEvent.completes : UsbfsEvent → Bool
  | .hostComplete _ => true
  | _ => false

structure HostRun where
  x : Controller
  launches : List HostPend
  inFlight : Option ℕ
  retired : List (ℕ × Controller × Controller)

variable (mem : Mem) {r : HostRun}

def HostRun.start : HostRun := ⟨.powerOn mem, [], none, []⟩

def retiredNow (k : ℕ) (x y : Controller) : List (ℕ × Controller × Controller) :=
  if retirements x y = [] then [] else [(k, x, y)]

/-- One event.  The emulator ends on a token without an endpoint and on a second token while
the packet is with the device, which `usb_packet_setup` asserts against. -/
def hostStep (r : HostRun) (e : UsbfsEvent) : Option HostRun :=
  let y := usbfsStep r.x e
  match launched r.x e, r.inFlight with
  | some _, some _ => none
  | some p, none =>
    if p.HasEndpoint then
      some {
        x := y
        launches := r.launches ++ [p]
        inFlight := if e.kept then some r.launches.length else none
        retired := r.retired ++ retiredNow r.launches.length r.x y }
    else none
  | none, some k =>
    if e.completes then
      some { r with x := y, inFlight := none, retired := r.retired ++ retiredNow k r.x y }
    else some { r with x := y }
  | none, none => some { r with x := y }

/-- The step from `x` to `y` retires one descriptor, that of `p`, after any data. -/
structure RetiresInto (p : HostPend) (x y : Controller) : Prop where
  bd : retirements x y = [p.bd]
  mem : ∃ m len, (m = x.mem ∨ ∃ data, m = store x.mem p.bufaddr.toNat data) ∧
    y.mem = store32 m p.ba.toNat ((BitVec.ofNat 32 len <<< 16) ||| (p.pid <<< 2))

/-- Every retirement is that of a launch, and no launch has two. -/
structure RetiredOnce (r : HostRun) : Prop where
  nodup : (r.retired.map Prod.fst).Nodup
  into : ∀ t ∈ r.retired, ∃ p, r.launches[t.1]? = some p ∧ RetiresInto p t.2.1 t.2.2

/-- A transaction is launched only for an endpoint that has it and while no packet is with
the device. -/
def Launchable (r : HostRun) (e : UsbfsEvent) : Prop :=
  ∀ p ∈ launched r.x e, p.HasEndpoint ∧ r.x.st.hostPend = none

lemma hostToken_eq (answer : HostAnswer) (x : Controller) (token : Word) :
    usbfsHostToken answer x token = if !anyBit (bdLd x.mem (transaction x token).ba) bdOwn then x
      else match answer with
        | .noDevice => usbfsHostError x 0x01
        | .async => { x with st := { x.st with hostPend := some (transaction x token) } }
        | answer => usbfsHostDone x (transaction x token) answer := rfl

variable (x : Controller)

lemma hostError_hostPend (bit : Word) :
    (usbfsHostError x bit).st.hostPend = x.st.hostPend := by
  simp only [usbfsHostError]
  split <;> rfl

lemma hostDone_spec (p : HostPend) (answer : HostAnswer) :
    (usbfsHostDone x p answer).st.hostPend = x.st.hostPend ∧
      (retirements x (usbfsHostDone x p answer) = [] ∨
      RetiresInto p x (usbfsHostDone x p answer)) := by
  have hnone : ∀ y : Controller, y.log = x.log → retirements x y = [] := by
    intro y hy
    rw [retirements, hy, drop_length]
    rfl
  cases answer with
  | done actual data =>
    have hflip := sameFlags_flipBank x.st p.bd.ep p.bd.tx
    simp only [usbfsHostDone]
    cases htx : p.bd.tx with
    | true =>
      refine ⟨hflip.hostPend, .inr ⟨?_, x.mem, actual, .inl rfl, rfl⟩⟩
      simp [retirements, usbfsHostRetire, usbfsTokdne, bdSt, writeBacks, TokenMark.writtenBack]
    | false =>
      refine ⟨hflip.hostPend, .inr ⟨?_, _, actual, .inr ⟨data.take actual, rfl⟩, rfl⟩⟩
      simp [retirements, usbfsHostRetire, usbfsTokdne, bdSt, writeBacks, TokenMark.writtenBack]
  | stall => exact ⟨hostError_hostPend x _, .inl (hnone _ rfl)⟩
  | noDevice | async | nak => exact ⟨rfl, .inl (hnone _ rfl)⟩

lemma service_hostPend : (usbfsService x).st.hostPend = x.st.hostPend := by
  rcases service_cases x with hsame | ⟨-, bd, hret⟩
  · rw [hsame]
  · exact hret.hostPend

variable {answer : HostAnswer} {x y : Controller} {e : UsbfsEvent} {p : HostPend} {k : ℕ}

lemma hostToken_hostPend {token : Word}
    (h : anyBit (bdLd x.mem (transaction x token).ba) bdOwn = false ∨ answer.found = false) :
    (usbfsHostToken answer x token).st.hostPend = x.st.hostPend := by
  rw [hostToken_eq]
  split
  · rfl
  rename_i harmed
  rcases h with hidle | hmissing
  · exact absurd (by rw [hidle]; rfl) harmed
  cases answer with
  | noDevice => exact hostError_hostPend x _
  | _ => cases hmissing

lemma transaction_setReg (x : Controller) (v token : Word) :
    transaction { x with st := x.st.setReg rToken v } token = transaction x token := by
  have hbase : bdtBase (x.st.setReg rToken v) = bdtBase x.st :=
    bdtBase_setReg x.st v (by decide) (by decide) (by decide)
  rfl

lemma write_token (hmode : x.st.hostMode = true)
    (hen : x.st.enabled = true) (v : Word) (answer : HostAnswer) :
    mcxnUsbfsWrite answer x 0xA8 v =
      usbfsHostToken answer { x with st := x.st.setReg rToken v } (v &&& 0xFF) := by
  have hlaunch : ((x.st.setReg rToken v).hostMode && (x.st.setReg rToken v).enabled) := by
    show (x.st.hostMode && x.st.enabled) = true
    rw [hmode, hen]
    rfl
  exact if_pos hlaunch

lemma write_hostPend {off : ℕ} {v : Word} (h : launched x (.write off v answer) = none) :
    (mcxnUsbfsWrite answer x off v).st.hostPend = x.st.hostPend := by
  generalize hy : mcxnUsbfsWrite answer x off v = y
  unfold mcxnUsbfsWrite at hy
  split at hy
  next hoff =>
    extract_lets r at hy
    have hregs : ∀ {q : RegIdx}, off % 4 = 0 → r = q → off = 4 * q.val := by
      rintro q halign rfl
      show off = 4 * (off / 4)
      omega
    clear_value r
    split at hy
    · rw [← hy]
      rfl
    rename_i halign
    rw [not_not] at halign
    split at hy
    · rw [← hy]
    split at hy
    · rw [← hy]
      rfl
    split at hy
    · rw [← hy, writeIstat]
      split
      · exact service_hostPend _
      · rfl
    split at hy
    · rw [← hy]
      exact (writeCtl_written x v).hostPend
    split at hy
    next htoken =>
      rw [← hy]
      split
      next hlaunch =>
        have hlaunch' : (x.st.hostMode && x.st.enabled) = true := hlaunch
        rw [Bool.and_eq_true] at hlaunch'
        have hoff' : off = 0xA8 := hregs halign htoken
        subst htoken
        apply hostToken_hostPend
        rw [transaction_setReg]
        simp only [launched] at h
        split at h
        · cases h
        rename_i hidle
        simp only [hoff', hlaunch', true_and, not_and_or, Bool.not_eq_true] at hidle
        exact hidle
      · rfl
    split at hy
    · rw [← hy]
      rfl
    split at hy
    · rw [← hy]
      rfl
    · rw [← hy]
      rfl
  · rw [← hy]

lemma step_hostPend (hlaunch : launched x e = none)
    (hcomplete : e.completes = false) : (usbfsStep x e).st.hostPend = x.st.hostPend := by
  cases e with
  | write off v answer => exact write_hostPend hlaunch
  | sof =>
    simp only [usbfsStep, usbfsSof]
    split
    · rfl
    · exact service_hostPend _
  | setup pkt =>
    rw [step_of_serves rfl]
    exact service_hostPend _
  | epIn ep len =>
    simp only [usbfsStep, usbfsBeEpIn]
    split
    · rfl
    · exact service_hostPend _
  | epOut ep data =>
    simp only [usbfsStep, usbfsBeEpOut]
    split
    · rfl
    · exact service_hostPend _
  | hostComplete answer => cases hcomplete
  | hostPort dev =>
    simp only [usbfsStep, mcxnUsbfsHostPort]
    split <;> rfl
  | busReset | reset | store _ _ => rfl

lemma step_launch (h : launched x e = some p) :
    (usbfsStep x e).st.hostPend = (if e.kept then some p else x.st.hostPend) ∧
      (retirements x (usbfsStep x e) = [] ∨ e.kept = false ∧ RetiresInto p x (usbfsStep x e)) := by
  cases e with
  | write off v answer =>
    simp only [launched] at h
    split at h
    next hcond =>
      obtain ⟨rfl, hmode, hen, harmed, hfound⟩ := hcond
      cases h
      have hstep : usbfsStep x (.write 0xA8 v answer) = _ := write_token hmode hen v answer
      rw [hstep, hostToken_eq, transaction_setReg]
      rw [if_neg (by rw [harmed]; decide)]
      generalize hz : ({ x with st := x.st.setReg rToken v } : Controller) = z
      have hpend : z.st.hostPend = x.st.hostPend := by
        rw [← hz]
        rfl
      have hsame : ∀ y, retirements z y = retirements x y := by
        rw [← hz]
        exact fun _ => rfl
      have hmem : z.mem = x.mem := by rw [← hz]
      have hdone : ∀ answer, (usbfsHostDone z (transaction x (v &&& 0xFF)) answer).st.hostPend =
          x.st.hostPend ∧
          (retirements x (usbfsHostDone z (transaction x (v &&& 0xFF)) answer) = [] ∨
            RetiresInto (transaction x (v &&& 0xFF)) x
              (usbfsHostDone z (transaction x (v &&& 0xFF)) answer)) := by
        intro answer
        obtain ⟨hpend', hret⟩ := hostDone_spec z (transaction x (v &&& 0xFF)) answer
        rw [hsame] at hret
        refine ⟨hpend'.trans hpend, hret.imp_right fun hinto => ?_⟩
        exact ⟨hsame _ ▸ hinto.bd, hmem ▸ hinto.mem⟩
      cases answer with
      | noDevice => cases hfound
      | async => exact ⟨rfl, .inl (by rw [← hsame, retirements, drop_length]; rfl)⟩
      | done actual data => exact ⟨(hdone _).1, (hdone _).2.imp_right fun hinto => ⟨rfl, hinto⟩⟩
      | stall | nak => exact ⟨(hdone _).1, (hdone _).2.imp_right fun hinto => ⟨rfl, hinto⟩⟩
    · cases h
  | _ => cases h

lemma step_complete (h : x.st.hostPend = some p) (answer : HostAnswer) :
    (usbfsStep x (.hostComplete answer)).st.hostPend = none ∧
      (retirements x (usbfsStep x (.hostComplete answer)) = [] ∨
      RetiresInto p x (usbfsStep x (.hostComplete answer))) := by
  simp only [usbfsStep, mcxnUsbfsHostComplete, h]
  obtain ⟨hpend, hret⟩ :=
    hostDone_spec { x with st := { x.st with hostPend := none } } p answer
  exact ⟨hpend, hret.imp_right fun hinto => ⟨hinto.bd, hinto.mem⟩⟩

structure Flying (r : HostRun) : Prop where
  pend : r.x.st.hostPend = r.inFlight.bind fun k => r.launches[k]?
  fresh : ∀ k ∈ r.inFlight, k < r.launches.length ∧ k ∉ r.retired.map Prod.fst
  once : RetiredOnce r

lemma RetiredOnce.add (h : RetiredOnce r)
    {launches : List HostPend} (hlaunches : r.launches <+: launches)
    (hk : k ∉ r.retired.map Prod.fst) (hp : launches[k]? = some p)
    (hinto : retirements r.x y = [] ∨ RetiresInto p r.x y) (inFlight : Option ℕ) :
    RetiredOnce ⟨y, launches, inFlight, r.retired ++ retiredNow k r.x y⟩ := by
  have hold : ∀ t ∈ r.retired, ∃ p, launches[t.1]? = some p ∧ RetiresInto p t.2.1 t.2.2 := by
    intro t ht
    obtain ⟨q, hq, hinto⟩ := h.into t ht
    obtain ⟨new, rfl⟩ := hlaunches
    refine ⟨q, ?_, hinto⟩
    rw [List.getElem?_append_left (List.getElem?_eq_some_iff.mp hq).1, hq]
  rw [retiredNow]
  split
  · refine ⟨?_, ?_⟩
    · rw [append_nil]
      exact h.nodup
    · rw [append_nil]
      exact hold
  rename_i hsome
  refine ⟨?_, ?_⟩
  · rw [map_append, map_singleton, nodup_append]
    refine ⟨h.nodup, nodup_singleton k, ?_⟩
    intro a ha b hb hab
    have hb' : b = k := List.mem_singleton.mp hb
    rw [hab, hb'] at ha
    exact hk ha
  intro t ht
  rcases List.mem_append.mp ht with hmem | hmem
  · exact hold t hmem
  · rw [List.mem_singleton.mp hmem]
    exact ⟨p, hp, hinto.resolve_left hsome⟩

lemma RetiredOnce.length_fresh (h : RetiredOnce r) :
    r.launches.length ∉ r.retired.map Prod.fst := by
  intro hmem
  obtain ⟨t, ht, hlen⟩ := List.mem_map.mp hmem
  obtain ⟨p, hp, -⟩ := h.into t ht
  have hlt := (List.getElem?_eq_some_iff.mp hp).1
  omega

lemma Flying.launch (h : Flying r) (hidle : r.inFlight = none) (hlaunch : launched r.x e = some p) :
    Flying {
      x := usbfsStep r.x e
      launches := r.launches ++ [p]
      inFlight := if e.kept then some r.launches.length else none
      retired := r.retired ++ retiredNow r.launches.length r.x (usbfsStep r.x e) } := by
  have hpend : r.x.st.hostPend = none := by
    rw [h.pend, hidle]
    rfl
  have hlast : (r.launches ++ [p])[r.launches.length]? = some p := by simp
  have hfresh := h.once.length_fresh
  obtain ⟨hpend', hret⟩ := step_launch hlaunch
  rw [hpend] at hpend'
  cases hkept : e.kept with
  | true =>
    rw [hkept] at hpend' hret
    have hnone := hret.resolve_right fun hinto => absurd hinto.1 (by decide)
    refine ⟨hpend'.trans hlast.symm, ?_, ?_⟩
    · rintro k hk
      cases hk
      refine ⟨by simp, ?_⟩
      rw [retiredNow, if_pos hnone, append_nil]
      exact hfresh
    · exact h.once.add (prefix_append _ _) hfresh hlast (.inl hnone) _
  | false =>
    rw [hkept] at hpend'
    refine ⟨hpend', fun k hk => (not_mem_none k hk).elim, ?_⟩
    exact h.once.add (prefix_append _ _) hfresh hlast (hret.imp_right And.right) _

lemma Flying.complete (h : Flying r) (hflying : r.inFlight = some k) (answer : HostAnswer) :
    Flying { r with
      x := usbfsStep r.x (.hostComplete answer), inFlight := none
      retired := r.retired ++ retiredNow k r.x (usbfsStep r.x (.hostComplete answer)) } := by
  obtain ⟨hk, hfresh⟩ := h.fresh k hflying
  have hlaunch := List.getElem?_eq_getElem hk
  have hpend : r.x.st.hostPend = some r.launches[k] := by
    rw [h.pend, hflying]
    exact hlaunch
  obtain ⟨hpend', hret⟩ := step_complete hpend answer
  exact ⟨hpend', fun k hk => (not_mem_none k hk).elim,
    h.once.add (prefix_refl _) hfresh hlaunch hret _⟩

lemma Flying.other (h : Flying r)
    (hpend : y.st.hostPend = r.x.st.hostPend) : Flying { r with x := y } :=
  ⟨hpend.trans h.pend, h.fresh, ⟨h.once.nodup, h.once.into⟩⟩

lemma Flying.step {r next : HostRun} (h : Flying r)
    (hstep : hostStep r e = some next) : Flying next := by
  unfold hostStep at hstep
  cases hlaunch : launched r.x e with
  | some p =>
    cases hflying : r.inFlight with
    | some k => simp [hlaunch, hflying] at hstep
    | none =>
      simp only [hlaunch, hflying] at hstep
      split at hstep
      · cases hstep
        exact h.launch hflying hlaunch
      · cases hstep
  | none =>
    cases hflying : r.inFlight with
    | some k =>
      simp only [hlaunch, hflying] at hstep
      split at hstep
      next hcompletes =>
        cases hstep
        cases e with
        | hostComplete answer => exact h.complete hflying answer
        | _ => cases hcompletes
      rename_i hother
      rw [Bool.not_eq_true] at hother
      cases hstep
      rw [← hflying]
      exact h.other (step_hostPend hlaunch hother)
    | none =>
      simp only [hlaunch, hflying] at hstep
      cases hstep
      rw [← hflying]
      apply h.other
      cases e with
      | hostComplete answer =>
        have hpend : r.x.st.hostPend = none := by
          rw [h.pend, hflying]
          rfl
        simp only [usbfsStep, mcxnUsbfsHostComplete, hpend]
      | _ => exact step_hostPend hlaunch rfl

lemma Flying.hostPend_iff (h : Flying r) : r.x.st.hostPend = none ↔ r.inFlight = none := by
  rw [h.pend]
  cases hflying : r.inFlight with
  | none => simp
  | some k => simp [(h.fresh k hflying).1]

lemma hostStep_isSome_iff (h : Flying r) (e : UsbfsEvent) :
    (hostStep r e).isSome ↔ Launchable r e := by
  rw [Launchable, h.hostPend_iff, hostStep]
  cases hlaunch : launched r.x e with
  | some p =>
    cases hflying : r.inFlight with
    | some k => simp
    | none => by_cases hep : p.HasEndpoint <;> simp [hep]
  | none =>
    cases hflying : r.inFlight with
    | some k =>
      dsimp only
      split <;> simp
    | none => simp

lemma flying_start : Flying (.start mem) :=
  ⟨rfl, fun k hk => (not_mem_none k hk).elim, ⟨nodup_nil, by simp [HostRun.start]⟩⟩

/-- Host mode does not end the emulator, and every launch is retired at most once and into
its own descriptor, just when every transaction is launched for an endpoint that has it and
while no packet is with the device. -/
theorem host_mode_safe_iff (events : List UsbfsEvent) :
    (∃ last, runPartial hostStep (.start mem) events = some last ∧ RetiredOnce last) ↔
      AdmitsPartial hostStep Launchable (.start mem) events := by
  have hstep : ∀ (r : HostRun) (e : UsbfsEvent), Flying r →
      ((hostStep r e).isSome ↔ Launchable r e) := fun r e hr => hostStep_isSome_iff hr e
  have hinv : ∀ (r : HostRun) (e : UsbfsEvent) (next : HostRun), Flying r →
      hostStep r e = some next → Flying next := fun r e next hr => hr.step
  rw [← runPartial_isSome_iff hstep hinv (flying_start mem), isSome_iff_exists]
  constructor
  · rintro ⟨last, hlast, -⟩
    exact ⟨last, hlast⟩
  · rintro ⟨last, hlast⟩
    exact ⟨last, hlast, (runPartial_invariant hinv (flying_start mem) hlast).once⟩

def hostMem : Mem := store32 (store32 (fun _ => 0) 0x1020 0x80) 0x1030 0x80

def hostOn : List UsbfsEvent := [.write 0x9C 0x10 .nak, .write 0x94 0x09 .nak]

theorem host_token_aborts :
    (runPartial hostStep (.start hostMem) (hostOn ++ [.write 0xA8 0x91 .async])).isSome = true ∧
    runPartial hostStep (.start hostMem)
      (hostOn ++ [.write 0xA8 0x91 .async, .write 0xA8 0x91 .async]) = none ∧
    runPartial hostStep (.start hostMem) (hostOn ++ [.write 0xA8 0xD1 .nak]) = none := by
  simp only [← Option.not_isSome_iff_eq_none]
  decide +kernel

end Mcxn947.Usbfs
