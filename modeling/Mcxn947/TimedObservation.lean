import Mcxn947.EventRuns

/-!
# Telling two timed states apart

Events carry the time at which they happen.
-/

namespace TimedObservation

open EventRuns

variable {σ ε ο ν : Type*}

def Timely (start : ℕ) (events : List (ℕ × ε)) : Prop :=
  (start :: events.map Prod.fst).Pairwise (· ≤ ·)

lemma Timely.nil (start : ℕ) : Timely start ([] : List (ℕ × ε)) := by simp [Timely]

lemma Timely.cons {start t : ℕ} {e : ε} {events : List (ℕ × ε)} (hstart : start ≤ t)
    (h : Timely t events) : Timely start ((t, e) :: events) := by
  unfold Timely at h ⊢
  rw [List.map_cons, List.pairwise_cons]
  refine ⟨?_, h⟩
  intro u hu
  rcases List.mem_cons.mp hu with rfl | hu
  · exact hstart
  · exact hstart.trans ((List.pairwise_cons.mp h).1 u hu)

def Alike (step : σ → ℕ × ε → σ × ο) (view : σ → ν) (allowed : ε → Prop) (start : ℕ)
    (a b : σ) : Prop :=
  view a = view b ∧ ∀ events, Timely start events → (∀ e ∈ events, allowed e.2) →
    observe step view a events = observe step view b events

variable {step : σ → ℕ × ε → σ × ο} {view : σ → ν} {allowed : ε → Prop}
variable {start t : ℕ} {a b : σ}

lemma alike_of_relation {R : σ → σ → Prop} (hview : ∀ a b, R a b → view a = view b)
    (hstep : ∀ a b t e, allowed e → R a b →
      (step a (t, e)).2 = (step b (t, e)).2 ∧ R (step a (t, e)).1 (step b (t, e)).1)
    (start : ℕ) (h : R a b) : Alike step view allowed start a b := by
  refine ⟨hview a b h, ?_⟩
  intro events htimely hallowed
  clear htimely
  induction events generalizing a b with
  | nil => rfl
  | cons e rest ih =>
    obtain ⟨hanswer, hnext⟩ := hstep a b e.1 e.2 (hallowed e List.mem_cons_self) h
    have hrest := ih hnext fun e he => hallowed e (List.mem_cons_of_mem _ he)
    simp only [observe]
    rw [hrest, hview _ _ hnext, hanswer]

lemma Alike.next (h : Alike step view allowed start a b) (ht : start ≤ t) {e : ε}
    (he : allowed e) : (step a (t, e)).2 = (step b (t, e)).2 ∧
      Alike step view allowed t (step a (t, e)).1 (step b (t, e)).1 := by
  have hone : ∀ events, Timely t events → (∀ e ∈ events, allowed e.2) →
      observe step view a ((t, e) :: events) = observe step view b ((t, e) :: events) := by
    intro events htimely hallowed
    apply h.2 _ (.cons ht htimely)
    intro f hf
    rcases List.mem_cons.mp hf with rfl | hf
    · exact he
    · exact hallowed f hf
  have hfirst := hone [] (.nil t) (by simp)
  simp only [observe, List.cons.injEq, Prod.mk.injEq, and_true] at hfirst
  refine ⟨hfirst.1, hfirst.2, fun events htimely hallowed => ?_⟩
  have hmore := hone events htimely hallowed
  simp only [observe, List.cons.injEq] at hmore
  exact hmore.2

section Deadlines

structure Periodic (step : σ → ℕ × ε → σ × ο) (fired : ο → Bool) (poll : ε) (period : ℕ)
    (Armed : σ → ℕ → Prop) : Prop where
  fires : ∀ s d t, Armed s d → fired (step s (t, poll)).2 = decide (d ≤ t)
  rearms : ∀ s d t, Armed s d → d ≤ t → Armed (step s (t, poll)).1 (d + period)

variable {fired : ο → Bool} {poll : ε} {period : ℕ} {Armed : σ → ℕ → Prop} {x y : ℕ}

lemma Alike.deadline_not_lt (hper : Periodic step fired poll period Armed)
    (hpoll : allowed poll) (k : ℕ)
    (h : Alike step view allowed start a b) (hstart : start ≤ x + k * period)
    (ha : Armed a x) (hb : Armed b y) : ¬ x < y := by
  induction k generalizing start a b x y with
  | zero =>
    intro hlt
    have hanswer := congrArg fired (h.next hstart hpoll).1
    rw [hper.fires a x _ ha, hper.fires b y _ hb] at hanswer
    simp only [decide_eq_decide] at hanswer
    omega
  | succ k ih =>
    intro hlt
    obtain ⟨hanswer, hnext⟩ := h.next hstart hpoll
    have hfired := congrArg fired hanswer
    rw [hper.fires a x _ ha, hper.fires b y _ hb] at hfired
    simp only [decide_eq_decide] at hfired
    have hx : x ≤ x + (k + 1) * period := Nat.le_add_right _ _
    have hsum : x + (k + 1) * period = x + period + k * period := by ring
    refine ih (x := x + period) (y := y + period) hnext hsum.le
      (hper.rearms a x _ ha hx) (hper.rearms b y _ hb (hfired.mp hx)) ?_
    omega

lemma Alike.deadline_eq (hper : Periodic step fired poll period Armed)
    (hperiod : 0 < period) (hpoll : allowed poll)
    (h : Alike step view allowed start a b) (ha : Armed a x) (hb : Armed b y) : x = y := by
  have hsymm : Alike step view allowed start b a :=
    ⟨h.1.symm, fun events htimely hallowed => (h.2 events htimely hallowed).symm⟩
  have hlate : ∀ z, start ≤ z + start * period := fun z =>
    (Nat.le_mul_of_pos_right start hperiod).trans (Nat.le_add_left _ _)
  have hxy := h.deadline_not_lt hper hpoll start (hlate x) ha hb
  have hyx := hsymm.deadline_not_lt hper hpoll start (hlate y) hb ha
  omega

end Deadlines

end TimedObservation
