import Mathlib.Logic.Relation
import Mathlib.Tactic

/-!
# Runs of deterministic event machines

A machine is a total step function on a state type, driven by a list of events.
-/

namespace EventRuns

open List Option

variable {σ ε ο : Type*}

def run (step : σ → ε → σ) (state : σ) (events : List ε) : σ := events.foldl step state

section

variable (step : σ → ε → σ) (state : σ)

@[simp] lemma run_nil : run step state [] = state := rfl

@[simp] lemma run_cons (event : ε) (rest : List ε) :
    run step state (event :: rest) = run step (step state event) rest := rfl

lemma run_append (before after : List ε) :
    run step state (before ++ after) = run step (run step state before) after := by
  simp [run]

end

def Admits (step : σ → ε → σ) (guard : σ → ε → Prop) : σ → List ε → Prop
  | _, [] => True
  | state, event :: rest => guard state event ∧ Admits step guard (step state event) rest

instance Admits.decide (step : σ → ε → σ) (guard : σ → ε → Prop)
    [∀ state event, Decidable (guard state event)] :
    ∀ (state : σ) (events : List ε), Decidable (Admits step guard state events)
  | _, [] => .isTrue trivial
  | state, event :: rest =>
    haveI := Admits.decide step guard (step state event) rest
    inferInstanceAs (Decidable (_ ∧ _))

variable {events : List ε} {guard Q : σ → ε → Prop} {state after before : σ} {step : σ → ε → σ}
  {P I : σ → Prop} {event : ε} {move : σ → σ → Prop}

lemma Admits.and {guard' : σ → ε → Prop}
    (h : Admits step guard state events) (h' : Admits step guard' state events) :
    Admits step (fun s e => guard s e ∧ guard' s e) state events := by
  induction events generalizing state with
  | nil => trivial
  | cons event rest ih => exact ⟨⟨h.1, h'.1⟩, ih h.2 h'.2⟩

lemma run_invariant (hstep : ∀ state event, P state → P (step state event))
    (hinit : P state) (events : List ε) : P (run step state events) := by
  induction events generalizing state with
  | nil => exact hinit
  | cons event rest ih => exact ih (hstep state event hinit)

lemma run_invariant_of_admits
    (hstep : ∀ state event, guard state event → P state → P (step state event)) (hinit : P state)
    (hadm : Admits step guard state events) : P (run step state events) := by
  induction events generalizing state with
  | nil => exact hinit
  | cons event rest ih =>
    obtain ⟨hguard, hrest⟩ := hadm
    exact ih (hstep state event hguard hinit) hrest

lemma every_step_of_admits
    (hstep : ∀ state event, guard state event → P state → P (step state event) ∧ Q state event)
    (hinit : P state) (hadm : Admits step guard state events)
    {before : List ε} (hbefore : before ++ [event] <+: events) :
    Q (run step state before) event := by
  induction events generalizing state before with
  | nil => simp at hbefore
  | cons first rest ih =>
    obtain ⟨hguard, hrest⟩ := hadm
    obtain ⟨hnext, hfirst⟩ := hstep state first hguard hinit
    cases before with
    | nil =>
      obtain ⟨rfl, -⟩ := List.cons_prefix_cons.mp hbefore
      exact hfirst
    | cons e before =>
      obtain ⟨rfl, hlater⟩ := List.cons_prefix_cons.mp hbefore
      exact ih hnext hrest hlater

lemma admits_iff_every_step : Admits step Q state events ↔
      ∀ before event, before ++ [event] <+: events → Q (run step state before) event := by
  constructor
  · intro h before event hbefore
    have hQ : ∀ state event, Q state event → True → True ∧ Q state event :=
      fun _ _ hq _ => ⟨trivial, hq⟩
    exact every_step_of_admits hQ trivial h hbefore
  intro h
  induction events generalizing state with
  | nil => trivial
  | cons event rest ih =>
    refine ⟨h [] event (by simp), ih fun before e hbefore => ?_⟩
    have hcons : event :: (before ++ [e]) <+: event :: rest :=
      List.cons_prefix_cons.mpr ⟨rfl, hbefore⟩
    exact h (event :: before) e hcons

lemma Admits.strengthen
    (hstep : ∀ state event, guard state event → P state → P (step state event) ∧ Q state event)
    (hinit : P state) (hadm : Admits step guard state events) : Admits step Q state events :=
  admits_iff_every_step.mpr fun _ _ hbefore =>
    every_step_of_admits hstep hinit hadm hbefore

lemma admits_congr (hstep : ∀ state event, I state → (Q state event ↔ guard state event))
    (hinv : ∀ state event, guard state event → I state → I (step state event))
    (hI : I state) (events : List ε) :
    Admits step Q state events ↔ Admits step guard state events := by
  induction events generalizing state with
  | nil => exact Iff.rfl
  | cons event rest ih =>
    have hhere := hstep state event hI
    constructor
    · rintro ⟨hq, hrest⟩
      have hguard := hhere.mp hq
      exact ⟨hguard, (ih (hinv state event hguard hI)).mp hrest⟩
    · rintro ⟨hguard, hrest⟩
      exact ⟨hhere.mpr hguard, (ih (hinv state event hguard hI)).mpr hrest⟩

def outputs (step : σ → ε → σ) (out : σ → ε → List τ) : σ → List ε → List τ
  | _, [] => []
  | state, event :: rest => out state event ++ outputs step out (step state event) rest

variable {out : σ → ε → List τ}

lemma log_run {log : σ → List τ}
    (hstep : ∀ state event, log (step state event) = log state ++ out state event)
    (state : σ) (events : List ε) :
    log (run step state events) = log state ++ outputs step out state events := by
  induction events generalizing state with
  | nil => simp [outputs]
  | cons event rest ih => simp [ih, hstep, outputs]

lemma forall_mem_outputs {Q : τ → Prop} : (∀ o ∈ outputs step out state events, Q o) ↔
      Admits step (fun s e => ∀ o ∈ out s e, Q o) state events := by
  induction events generalizing state with
  | nil => simp [outputs, Admits]
  | cons event rest ih => rw [outputs, forall_mem_append, ih, Admits]

lemma flatMap_outputs {out' : σ → ε → List υ} {f : τ → List κ} {g : υ → List κ}
    (hstep : ∀ state event, guard state event → P state →
      P (step state event) ∧ (out state event).flatMap f = (out' state event).flatMap g)
    (hinit : P state) (hadm : Admits step guard state events) :
    (outputs step out state events).flatMap f = (outputs step out' state events).flatMap g := by
  induction events generalizing state with
  | nil => rfl
  | cons event rest ih =>
    obtain ⟨hguard, hrest⟩ := hadm
    obtain ⟨hnext, hhere⟩ := hstep state event hguard hinit
    simp [outputs, outputs, hhere, ih hnext hrest]

lemma follows_iff_admits {spec : ν → ε → ν} {view : σ → ν} {out' : ν → ε → List τ}
    (hinv : ∀ state event, I state → I (step state event)) (hstep : ∀ state event, I state →
      (guard state event ↔ view (step state event) = spec (view state) event ∧
      out state event = out' (view state) event)) (hinit : I state) :
    (∀ before, before <+: events → view (run step state before) = run spec (view state) before ∧
      outputs step out state before = outputs spec out' (view state) before) ↔
      Admits step guard state events := by
  induction events generalizing state with
  | nil =>
    refine ⟨fun _ => trivial, fun _ before hbefore => ?_⟩
    rw [List.prefix_nil.mp hbefore]
    exact ⟨rfl, rfl⟩
  | cons event rest ih =>
    constructor
    · intro h
      have hfirst := h [event] (prefix_cons_inj _ |>.mpr nil_prefix)
      simp only [run_cons, run_nil, outputs, append_nil] at hfirst
      refine ⟨(hstep state event hinit).mpr hfirst, (ih (hinv state event hinit)).mp ?_⟩
      intro before hbefore
      have hmore := h (event :: before) ((prefix_cons_inj _).mpr hbefore)
      rwa [run_cons, run_cons, outputs, outputs, ← hfirst.1, ← hfirst.2,
        append_cancel_left_eq] at hmore
    rintro ⟨hguard, hrest⟩ before hbefore
    cases before with
    | nil => exact ⟨rfl, rfl⟩
    | cons first before =>
      obtain ⟨rfl, hmember⟩ := List.cons_prefix_cons.mp hbefore
      obtain ⟨hview, hout⟩ := (hstep state first hinit).mp hguard
      have hmore := (ih (hinv state first hinit)).mpr hrest before hmember
      rw [run_cons, run_cons, outputs, outputs, ← hview, ← hout, hmore.1, hmore.2]
      exact ⟨rfl, rfl⟩

lemma run_invariant_of_events {kind : ε → Prop}
    (hstep : ∀ state event, kind event → P state → P (step state event)) (hinit : P state)
    (hkind : ∀ event ∈ events, kind event) : P (run step state events) := by
  induction events generalizing state with
  | nil => exact hinit
  | cons event rest ih =>
    have hhere := hkind event mem_cons_self
    exact ih (hstep state event hhere hinit) (fun e he => hkind e (mem_cons_of_mem _ he))

def Always (step : σ → ε → σ) (P : σ → Prop) (state : σ) (events : List ε) : Prop :=
  ∀ before, before <+: events → P (run step state before)

lemma always_nil : Always step P state [] ↔ P state := by simp [Always]

lemma always_cons {rest : List ε} :
    Always step P state (event :: rest) ↔ P state ∧ Always step P (step state event) rest := by
  constructor
  · intro h
    refine ⟨h [] nil_prefix, fun before hbefore => ?_⟩
    exact h (event :: before) (List.cons_prefix_cons.mpr ⟨rfl, hbefore⟩)
  intro h before hbefore
  cases before with
  | nil => exact h.1
  | cons first before =>
    obtain ⟨rfl, hrest⟩ := List.cons_prefix_cons.mp hbefore
    exact h.2 before hrest

lemma always_iff_admits (hinv : ∀ state event, I state → I (step state event))
    (hstep : ∀ state event, I state → P state → (P (step state event) ↔ guard state event))
    (hI : I state) (hP : P state) (events : List ε) :
    Always step P state events ↔ Admits step guard state events := by
  induction events generalizing state with
  | nil => simp [always_nil, Admits, hP]
  | cons event rest ih =>
    have hnext := hstep state event hI hP
    rw [always_cons, Admits]
    constructor
    · rintro ⟨-, h⟩
      have hkept : P (step state event) := h [] nil_prefix
      exact ⟨hnext.mp hkept, (ih (hinv state event hI) hkept).mp h⟩
    · rintro ⟨hguard, h⟩
      exact ⟨hP, (ih (hinv state event hI) (hnext.mpr hguard)).mpr h⟩

lemma reflTransGen_preserves (hmove : ∀ before after, move before after → P before → P after)
    (hreach : Relation.ReflTransGen move before after) (hbefore : P before) : P after := by
  induction hreach with
  | refl => exact hbefore
  | tail _ hlast ih => exact hmove _ _ hlast ih

lemma reflTransGen_relates {R : σ → σ → Prop} (hrefl : ∀ state, R state state)
    (htrans : ∀ a b c, R a b → R b c → R a c)
    (hmove : ∀ before after, move before after → R before after)
    (hreach : Relation.ReflTransGen move before after) : R before after := by
  induction hreach with
  | refl => exact hrefl _
  | tail _ hlast ih => exact htrans _ _ _ ih (hmove _ _ hlast)

section Partial

def runPartial (step : σ → ε → Option σ) (state : σ) (events : List ε) : Option σ :=
  events.foldlM step state

def AdmitsPartial (step : σ → ε → Option σ) (guard : σ → ε → Prop) : σ → List ε → Prop
  | _, [] => True
  | state, event :: rest =>
    guard state event ∧ ∀ next, step state event = some next → AdmitsPartial step guard next rest

lemma runPartial_cons (step : σ → ε → Option σ) (state : σ) (event : ε) (rest : List ε) :
    runPartial step state (event :: rest) =
      (step state event).bind fun next => runPartial step next rest := by
  rfl

def AlwaysPartial (step : σ → ε → Option σ) (P : σ → Prop) (state : σ) (events : List ε) :
    Prop :=
  ∀ before, before <+: events → ∀ reached ∈ runPartial step state before, P reached

variable {P : σ → Prop} {state last : σ} {step : σ → ε → Option σ} {event : ε}
  {rest events : List ε} {guard : σ → ε → Prop}

lemma runPartial_invariant
    (hinv : ∀ state event next, P state → step state event = some next → P next) (hP : P state)
    (hlast : runPartial step state events = some last) : P last := by
  induction events generalizing state with
  | nil =>
    cases hlast
    exact hP
  | cons event rest ih =>
    obtain ⟨next, hnext, hrest⟩ := Option.bind_eq_some_iff.mp hlast
    exact ih (hinv state event next hP hnext) hrest

lemma runPartial_invariant_of_admits
    (hinv : ∀ state event next, guard state event → P state → step state event = some next → P next)
    (hP : P state) (hadm : AdmitsPartial step guard state events)
    (hlast : runPartial step state events = some last) : P last := by
  induction events generalizing state with
  | nil =>
    cases hlast
    exact hP
  | cons event rest ih =>
    obtain ⟨next, hnext, hrest⟩ := Option.bind_eq_some_iff.mp hlast
    exact ih (hinv state event next hadm.1 hP hnext) (hadm.2 next hnext) hrest

lemma admitsPartial_append {first second : List ε} :
    AdmitsPartial step guard state (first ++ second) ↔ AdmitsPartial step guard state first ∧
      ∀ middle ∈ runPartial step state first, AdmitsPartial step guard middle second := by
  induction first generalizing state with
  | nil => simp [AdmitsPartial, runPartial]
  | cons event rest ih =>
    simp only [List.cons_append, AdmitsPartial, runPartial_cons, ih, mem_def,
      bind_eq_some_iff, and_assoc]
    refine and_congr_right fun _ => ?_
    constructor
    · intro h
      exact ⟨fun next hnext => (h next hnext).1,
        fun middle ⟨next, hnext, hmiddle⟩ => (h next hnext).2 middle hmiddle⟩
    · rintro ⟨hadm, hrest⟩ next hnext
      exact ⟨hadm next hnext, fun middle hmiddle => hrest middle ⟨next, hnext, hmiddle⟩⟩

lemma every_step_of_admitsPartial
    (hinv : ∀ state event next, guard state event → P state → step state event = some next → P next)
    (hP : P state) {before : List ε}
    (hadm : AdmitsPartial step guard state (before ++ event :: rest)) :
    ∀ reached ∈ runPartial step state before, P reached ∧ guard reached event := by
  intro reached hreached
  obtain ⟨hbefore, hafter⟩ := admitsPartial_append.mp hadm
  exact ⟨runPartial_invariant_of_admits hinv hP hbefore hreached, (hafter reached hreached).1⟩

lemma runPartial_isSome_of_admits
    (hstep : ∀ state event, guard state event → P state → (step state event).isSome)
    (hinv : ∀ state event next, guard state event → P state → step state event = some next → P next)
    (hP : P state) (hadm : AdmitsPartial step guard state events) :
    (runPartial step state events).isSome := by
  induction events generalizing state with
  | nil => rfl
  | cons event rest ih =>
    obtain ⟨hguard, hrest⟩ := hadm
    obtain ⟨next, hnext⟩ := Option.isSome_iff_exists.mp (hstep state event hguard hP)
    rw [runPartial_cons, hnext]
    exact ih (hinv state event next hguard hP hnext) (hrest next hnext)

lemma runPartial_isSome_iff
    (hstep : ∀ state event, P state → ((step state event).isSome ↔ guard state event))
    (hinv : ∀ state event next, P state → step state event = some next → P next)
    (hP : P state) (events : List ε) :
    (runPartial step state events).isSome ↔ AdmitsPartial step guard state events := by
  induction events generalizing state with
  | nil => exact ⟨fun _ => trivial, fun _ => rfl⟩
  | cons event rest ih =>
    rw [runPartial_cons, AdmitsPartial, ← hstep state event hP]
    cases hnext : step state event with
    | none => simp
    | some next =>
      rw [bind_some, ih (hinv state event next hP hnext)]
      simp

lemma isSome_bind.{u} {α β : Type u} {x : Option α} {f : α → Option β} (hx : x.isSome)
    (hf : ∀ a, x = some a → (f a).isSome) : (x >>= f).isSome := by
  obtain ⟨a, rfl⟩ := Option.isSome_iff_exists.mp hx
  exact hf a rfl

lemma isSome_ite {c : Prop} [Decidable c] {a b : Option σ} (ha : c → a.isSome)
    (hb : ¬ c → b.isSome) : (if c then a else b).isSome := by
  split
  · exact ha ‹_›
  · exact hb ‹_›

lemma foldlM_isSome (hstep : ∀ state, ∀ event ∈ events, (step state event).isSome) (state : σ) :
    (events.foldlM step state).isSome := by
  induction events generalizing state with
  | nil => rfl
  | cons event rest ih =>
    exact isSome_bind (hstep state event mem_cons_self)
      fun next _ => ih (fun s e he => hstep s e (mem_cons_of_mem _ he)) next

end Partial

inductive LoadEvent (ε τ : Type*) where
  | event (e : ε)
  | load (saved : τ)

section Observed

variable {ν : Type*}

def observe (step : σ → ε → σ × ο) (view : σ → ν) (state : σ) : List ε → List (ο × ν)
  | [] => []
  | event :: rest =>
    ((step state event).2, view (step state event).1) :: observe step view (step state event).1 rest

lemma observe_second {step : σ → ε → σ × ο} {view : σ → ν} {a b : σ} {first second : ε}
    (h : observe step view a [first, second] = observe step view b [first, second]) :
    (step (step a first).1 second).2 = (step (step b first).1 second).2 ∧
      view (step (step a first).1 second).1 = view (step (step b first).1 second).1 := by
  simp only [observe, List.cons.injEq, Prod.mk.injEq, and_true] at h
  exact h.2

end Observed

end EventRuns
