import Mcxn947.UsbhsService

/-!
# Primed endpoints

Firmware hands an endpoint's queue to the engine with `ENDPTPRIME` and takes it back with
`ENDPTFLUSH`; a controller reset takes back all of them.
-/

namespace Mcxn947.Usbhs

open MachineWords GuestMemory EventRuns Usbdev List

def EngineMark.ep : EngineMark → EpIdx
  | .read ep _ => ep
  | .retire t => t.ep

def EngineMark.isIn : EngineMark → Bool
  | .read _ isIn => isIn
  | .retire t => t.isIn

structure Watch where
  core : Core
  primed : EpIdx → Bool → Bool
  named : EpIdx → Bool → Fin 16

def endptBit (ep : EpIdx) (isIn : Bool) : ℕ := if isIn then 16 + ep.val else ep.val

def primedAfter (primed : EpIdx → Bool → Bool) (e : UsbhsEvent) : EpIdx → Bool → Bool :=
  match e with
  | .write off v => fun ep isIn =>
    let bit := v.getLsbD (endptBit ep isIn)
    if off = 0x1B0 then primed ep isIn || bit
    else if off = 0x1B4 then primed ep isIn && !bit
    else if off = 0x140 && anyBit v usbcmdRst then false
    else primed ep isIn
  | .reset => fun _ _ => false
  | _ => primed

def requested : UsbhsEvent → Option (Fin 16 × Bool)
  | .epIn ep _ => some (ep, true)
  | .epOut ep _ => some (ep, false)
  | _ => none

def namedAfter (named : EpIdx → Bool → Fin 16) (e : UsbhsEvent) (ep : EpIdx) (isIn : Bool) :
    Fin 16 :=
  match requested e with
  | some (n, d) => if ep = hsEp n ∧ isIn = d then n else named ep isIn
  | none => named ep isIn

def Watch.step (w : Watch) (e : UsbhsEvent) : Watch :=
  ⟨usbhsStep w.core e, primedAfter w.primed e, namedAfter w.named e⟩

def Watch.start (mem : Mem) : Watch := ⟨.powerOn mem, fun _ _ => false, fun ep _ => devEp ep⟩

def answerTo (x : Core) : UsbhsEvent → Option Xfer
  | .epIn ep len => some (usbhsBeEpIn x ep len).2
  | .epOut ep data => some (usbhsBeEpOut x ep data).2
  | _ => none

def completed : BackendCall → Option (Fin 16)
  | .completeIn ep _ => some ep
  | .completeOut ep _ _ => some ep
  | _ => none

/-- Event `e` has the engine touch only primed endpoints, serves a request only from the
endpoint it names and answers for no other, and refuses endpoints that do not exist. -/
structure Respects (w : Watch) (e : UsbhsEvent) : Prop where
  primed : ∀ mark ∈ newMarks w.core (w.step e).core, (w.step e).primed mark.ep mark.isIn = true
  served : ∀ t, .retire t ∈ newMarks w.core (w.step e).core →
    (w.step e).named t.ep t.isIn = devEp t.ep
  answered : ∀ call ∈ newCalls w.core (w.step e).core, ∀ n ∈ completed call,
    ∃ t, .retire t ∈ newMarks w.core (w.step e).core ∧ (w.step e).named t.ep t.isIn = n
  refused : ∀ q ∈ requested e, 8 ≤ q.1.val → answerTo w.core e = some .stall

structure PrimedOnly (w : Watch) (e : UsbhsEvent) : Prop where
  polls : Admits usbhsPoll
    (fun x p => fetches x p = true → primedAfter w.primed e p.ep p.isIn = true)
    (latched w.core e) (polls w.core e)
  endpoints : ∀ q ∈ requested e, q.1.val < 8

variable {x : Core} {e : UsbhsEvent}

lemma forall_mem_pollMarks {p : Poll} {Q : EpIdx → Bool → Prop} :
    (∀ mark ∈ pollMarks x p, Q mark.ep mark.isIn) ↔ (fetches x p → Q p.ep p.isIn) := by
  unfold pollMarks
  split
  · next hfinds =>
      simp [EngineMark.ep, EngineMark.isIn, pollTransfer_ep, pollTransfer_isIn,
        finds_fetches hfinds]
  split
  · next hfetch => simp [EngineMark.ep, EngineMark.isIn, hfetch]
  · next hfetch => simp [hfetch]

lemma stepMarks_primed {primed : EpIdx → Bool → Bool} :
    (∀ mark ∈ stepMarks x e, primed mark.ep mark.isIn) ↔
      Admits usbhsPoll (fun x p => fetches x p = true → primed p.ep p.isIn) (latched x e)
      (polls x e) := by
  have hpoll (x : Core) (p : Poll) : (∀ mark ∈ pollMarks x p, primed mark.ep mark.isIn = true) ↔
        (fetches x p = true → primed p.ep p.isIn = true) :=
    forall_mem_pollMarks (Q := fun ep isIn => primed ep isIn = true)
  rw [stepMarks, forall_mem_outputs]
  simp only [hpoll]

lemma completed_pollAnswer (p : Poll) (moved : List Byte) :
    completed (pollAnswer p moved) = some (devEp p.ep) := by
  cases p <;> rfl

lemma pollCalls_retired (x : Core) (ps : List Poll) :
    ∀ call ∈ outputs usbhsPoll pollCalls x ps, ∃ t,
      .retire t ∈ outputs usbhsPoll pollMarks x ps ∧ completed call = some (devEp t.ep) := by
  induction ps generalizing x with
  | nil => simp [outputs]
  | cons p ps ih =>
    intro call hcall
    simp only [outputs, mem_append] at hcall ⊢
    cases hcall with
    | inl hhere =>
      cases hfinds : finds x p with
      | false => simp [pollCalls, hfinds] at hhere
      | true =>
        simp only [pollCalls, hfinds, if_true, mem_singleton] at hhere
        refine ⟨pollTransfer x p, .inl (by simp [pollMarks, hfinds]), ?_⟩
        rw [hhere, completed_pollAnswer, pollTransfer_ep]
    | inr hlater =>
      obtain ⟨t, ht, hep⟩ := ih _ call hlater
      exact ⟨t, .inr ht, hep⟩

lemma latchedCalls_completed {call : BackendCall}
    (h : call ∈ latchedCalls x e) : completed call = none := by
  cases e with
  | write off v =>
    simp only [latchedCalls, usbcmdCalls] at h
    split at h <;> [skip; cases h]
    split at h <;> [cases h; skip]
    split at h
    · rw [List.mem_singleton.mp h]
      rfl
    split at h
    · rw [List.mem_singleton.mp h]
      rfl
    · cases h
  | _ => cases h

def Watch.Straight (w : Watch) : Prop := ∀ ep isIn, w.named ep isIn = devEp ep

lemma devEp_hsEp {n : Fin 16} (h : n.val < 8) : devEp (hsEp n) = n := by
  apply Fin.ext
  simp only [devEp, hsEp, Fin.ofNat]
  omega

variable {w : Watch}

lemma Watch.Straight.step (hw : w.Straight) (h : PrimedOnly w e) : (w.step e).Straight := by
  intro ep isIn
  change namedAfter w.named e ep isIn = devEp ep
  unfold namedAfter
  split
  · next n d hreq =>
      have hn : n.val < 8 := h.endpoints (n, d) hreq
      split
      · next hslot => rw [hslot.1, devEp_hsEp hn]
      · exact hw ep isIn
  · exact hw ep isIn

lemma answerTo_requested {q : Fin 16 × Bool}
    (h : q ∈ requested e) : answerTo x e = some .async := by
  cases e with
  | epIn ep len | epOut ep data => rfl
  | _ => cases h

lemma respects_iff (hw : w.Straight) (e : UsbhsEvent) : Respects w e ↔ PrimedOnly w e := by
  have hmarks : newMarks w.core (w.step e).core = stepMarks w.core e := newMarks_step _ _
  have hcalls : newCalls w.core (w.step e).core = stepCalls w.core e := newCalls_step _ _
  constructor
  · intro h
    constructor
    · have hprimed := h.primed
      rw [hmarks] at hprimed
      exact stepMarks_primed.mp hprimed
    intro q hq
    by_contra hn
    have hstall := h.refused q hq (Nat.le_of_not_lt hn)
    rw [answerTo_requested hq] at hstall
    cases hstall
  intro h
  have hstraight := hw.step h
  constructor
  · rw [hmarks]
    exact stepMarks_primed.mpr h.polls
  · intro t _
    exact hstraight t.ep t.isIn
  · rw [hmarks, hcalls]
    intro call hcall n hn
    cases List.mem_append.mp hcall with
    | inl hlatch =>
      rw [latchedCalls_completed hlatch] at hn
      cases hn
    | inr hpolls =>
      obtain ⟨t, ht, hep⟩ := pollCalls_retired _ _ call hpolls
      have hn' : devEp t.ep = n := Option.some.inj (hep.symm.trans hn)
      exact ⟨t, ht, (hstraight t.ep t.isIn).trans hn'⟩
  · intro q hq hn
    exact absurd (h.endpoints q hq) (Nat.not_lt.mpr hn)

/-- In a run every event keeps to the primed endpoints, and to the endpoint that the host
named, exactly if the guest keeps the queue heads of all other endpoints terminated
whenever the engine polls them and the host names endpoints 0 to 7. -/
theorem touches_primed_iff (mem : Mem) (events : List UsbhsEvent) :
    (∀ before e, before ++ [e] <+: events → Respects (run Watch.step (.start mem) before) e) ↔
    Admits Watch.step PrimedOnly (.start mem) events := by
  rw [← admits_iff_every_step]
  have hstart : (Watch.start mem).Straight := fun _ _ => rfl
  refine admits_congr (I := Watch.Straight) ?_ ?_ hstart events
  · intro w e hw
    exact respects_iff hw e
  · intro w e h hw
    exact hw.step h

def activeQueue : Mem := store32 (store32 (fun _ => 0) 200 0x400) 0x404 0x00040080

def flushed : List UsbhsEvent :=
  [.write 0x1A8 2, .write 0x140 1, .write 0x1B0 0x20000, .write 0x1B4 0x20000]

def flushedRun : Watch := run Watch.step (.start activeQueue) flushed

theorem flushed_endpoint_served : ¬ Respects flushedRun (.epIn 1 64) := by
  intro h
  have hmarks : (newMarks flushedRun.core (flushedRun.step (.epIn 1 64)).core).map
      (fun mark => (mark.ep, mark.isIn)) = [(1, true), (1, true)] := by decide +kernel
  have hunprimed : (flushedRun.step (.epIn 1 64)).primed 1 true = false := by decide +kernel
  have hmem : ((1, true) : EpIdx × Bool) ∈
      (newMarks flushedRun.core (flushedRun.step (.epIn 1 64)).core).map
        (fun mark => (mark.ep, mark.isIn)) := by
    exact mem_cons_self
  obtain ⟨mark, hmark, heq⟩ := List.mem_map.mp hmem
  have hprimed := h.primed mark hmark
  have hep : mark.ep = 1 := congrArg Prod.fst heq
  have hisIn : mark.isIn = true := congrArg Prod.snd heq
  rw [hep, hisIn, hunprimed] at hprimed
  cases hprimed

end Mcxn947.Usbhs
