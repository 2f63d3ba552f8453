import Mcxn947.EventRuns

/-!
# Counters that follow a rate

A counter keeps the time of its base and counts `rate` ticks a second from there.
The rate is an input that changes in steps.
-/

namespace RatedCounters

open Option Nat

variable {ε : Type*}

def second : ℕ := 1000000000

lemma second_pos : 0 < second := by decide

def ticks (rate elapsed : ℕ) : ℕ := rate * elapsed / second

def Chronicle (happens : ε → ℤ → Prop) : ℤ → List (ℤ × ε) → ℤ → Prop
  | start, [], stop => start ≤ stop
  | start, (time, event) :: rest, stop =>
    start ≤ time ∧ happens event time ∧ Chronicle happens time rest stop

variable {happens : ε → ℤ → Prop} {start stop : ℤ}

lemma Chronicle.nil (h : start ≤ stop) : Chronicle happens start [] stop := h

variable {events : List (ℤ × ε)}

lemma Chronicle.le (h : Chronicle happens start events stop) : start ≤ stop := by
  induction events generalizing start with
  | nil => exact h
  | cons timed rest ih => exact h.1.trans (ih h.2.2)

structure Leads {σ : Type*} (step : σ → ε → Option σ) (happens : ε → ℤ → Prop)
    (first : σ) (start : ℤ) (events : List (ℤ × ε)) (last : σ) (stop : ℤ) : Prop where
  order : Chronicle happens start events stop
  run : EventRuns.runPartial step first (events.map Prod.snd) = some last

lemma Leads.invariant {σ : Type*} {step : σ → ε → Option σ} {P : σ → ℤ → Prop}
    (hlater : ∀ state time later, time ≤ later → P state time → P state later)
    (hstep : ∀ state event time next, happens event time → step state event = some next →
      P state time → P next time) {state last : σ}
    (hleads : Leads step happens state start events last stop)
    (hinit : P state start) : P last stop := by
  obtain ⟨hevents, hrun⟩ := hleads
  induction events generalizing start state with
  | nil =>
    obtain rfl : state = last := by simpa [EventRuns.runPartial] using hrun
    exact hlater _ _ _ hevents hinit
  | cons timed rest ih =>
    obtain ⟨time, event⟩ := timed
    obtain ⟨hle, happens, hrest⟩ := hevents
    obtain ⟨next, hnext, hrun⟩ := Option.bind_eq_some_iff.mp hrun
    exact ih (hstep _ _ _ _ happens hnext (hlater _ _ _ hle hinit)) hrest hrun

def integral (newRate : ε → Option ℕ) : ℕ → ℤ → List (ℤ × ε) → ℤ → ℤ
  | rate, start, [], stop => rate * (stop - start)
  | rate, start, (time, event) :: rest, stop =>
    rate * (time - start) + integral newRate ((newRate event).getD rate) time rest stop

def changes (newRate : ε → Option ℕ) (events : List (ℤ × ε)) : ℕ :=
  events.countP fun timed => (newRate timed.2).isSome

def FollowsRate (newRate : ε → Option ℕ) (rate : ℕ) (start : ℤ) (events : List (ℤ × ε))
    (stop : ℤ) (counted : ℕ) : Prop :=
  |(second * counted : ℤ) - integral newRate rate start events stop| ≤
      second * (changes newRate events + 1) ∧
    (changes newRate events = 0 →
      |(second * counted : ℤ) - integral newRate rate start events stop| < second)

section Counting

variable (newRate : ε → Option ℕ)

def finalRate (rate : ℕ) (events : List (ℤ × ε)) : ℕ :=
  events.foldl (fun rate timed => (newRate timed.2).getD rate) rate

@[simp] lemma finalRate_cons (rate : ℕ) (time : ℤ) (event : ε) (rest : List (ℤ × ε)) :
    finalRate newRate rate ((time, event) :: rest) =
      finalRate newRate ((newRate event).getD rate) rest := rfl

lemma runPartial_quiet {σ κ : Type*} {step : σ → ε → Option σ} {quiet : σ → ε → Prop}
    (keep : σ → κ) (rateOf : σ → ℕ) {kept : κ}
    (hstep : ∀ state event next, keep state = kept → quiet state event →
      step state event = some next →
      keep next = kept ∧ rateOf next = (newRate event).getD (rateOf state))
    {state last : σ} {events : List (ℤ × ε)} (hkept : keep state = kept)
    (hquiet : EventRuns.AdmitsPartial step quiet state (events.map Prod.snd))
    (hrun : EventRuns.runPartial step state (events.map Prod.snd) = some last) :
    keep last = kept ∧ rateOf last = finalRate newRate (rateOf state) events := by
  induction events generalizing state with
  | nil =>
    obtain rfl : state = last := by simpa [EventRuns.runPartial] using hrun
    exact ⟨hkept, rfl⟩
  | cons timed rest ih =>
    obtain ⟨time, event⟩ := timed
    obtain ⟨next, hnext, hrun⟩ := Option.bind_eq_some_iff.mp hrun
    obtain ⟨hkeep, hrate⟩ := hstep _ _ _ hkept hquiet.1 hnext
    rw [finalRate_cons, ← hrate]
    exact ih hkeep (hquiet.2 next hnext) hrun

def Harmless (base : ℤ) (rate rate' : ℕ) (time : ℤ) : Prop :=
  |(rate' : ℤ) - rate| * (time - base) ≤ second ∧
    ticks rate (time - base).toNat ≤ ticks rate' (time - base).toNat

def Steady (base : ℤ) : ℕ → List (ℤ × ε) → Prop
  | _, [] => True
  | rate, (time, event) :: rest =>
    (∀ rate' ∈ newRate event, Harmless base rate rate' time) ∧
      Steady base ((newRate event).getD rate) rest

lemma ticks_mono {rate elapsed elapsed' : ℕ} (h : elapsed ≤ elapsed') :
    ticks rate elapsed ≤ ticks rate elapsed' :=
  Nat.div_le_div_right (Nat.mul_le_mul_left rate h)

variable {newRate} {happens : ε → ℤ → Prop} {base start stop : ℤ} {rate : ℕ}
  {events : List (ℤ × ε)}

section

variable (hbase : base ≤ start) (hevents : Chronicle happens start events stop)
  (hsteady : Steady newRate base rate events)
include hbase hevents hsteady

lemma Steady.drift : |(finalRate newRate rate events : ℤ) * (stop - base) - rate * (start - base) -
      integral newRate rate start events stop| ≤ second * changes newRate events := by
  induction events generalizing start rate with
  | nil =>
    have hzero : (rate : ℤ) * (stop - base) - rate * (start - base) -
        rate * (stop - start) = 0 := by ring
    simp [finalRate, integral, changes, hzero]
  | cons timed rest ih =>
    obtain ⟨time, event⟩ := timed
    obtain ⟨hle, -, hrest⟩ := hevents
    have htail := ih (hbase.trans hle) hrest hsteady.2
    rw [finalRate_cons, integral]
    cases hnew : newRate event with
    | none =>
      have hsame : changes newRate ((time, event) :: rest) = changes newRate rest := by
        simp [changes, hnew]
      rw [hnew, getD_none] at htail
      rw [getD_none, hsame]
      convert htail using 2
      ring
    | some rate' =>
      have hmore : changes newRate ((time, event) :: rest) = changes newRate rest + 1 := by
        simp [changes, hnew]
      have hjump : |((rate' : ℤ) - rate) * (time - base)| ≤ second := by
        rw [abs_mul, abs_of_nonneg (by omega : 0 ≤ time - base)]
        exact (hsteady.1 rate' hnew).1
      rw [hnew, getD_some] at htail
      rw [getD_some, hmore, cast_add, cast_one, mul_add, mul_one]
      refine le_trans (le_of_eq ?_) ((abs_add_le _ _).trans (add_le_add htail hjump))
      congr 1
      ring

lemma Steady.mono : ticks rate (start - base).toNat ≤
      ticks (finalRate newRate rate events) (stop - base).toNat := by
  induction events generalizing start rate with
  | nil => exact ticks_mono (by have : start ≤ stop := hevents; omega)
  | cons timed rest ih =>
    obtain ⟨time, event⟩ := timed
    obtain ⟨hle, _, hrest⟩ := hevents
    calc ticks rate (start - base).toNat
        ≤ ticks rate (time - base).toNat := ticks_mono (by omega)
      _ ≤ ticks ((newRate event).getD rate) (time - base).toNat := by
          cases hnew : newRate event with
          | none => exact le_rfl
          | some rate' => exact (hsteady.1 rate' hnew).2
      _ ≤ _ := ih (hbase.trans hle) hrest hsteady.2

end

lemma second_mul_ticks_le (rate elapsed : ℕ) : second * ticks rate elapsed ≤ rate * elapsed :=
  mul_div_le _ _

lemma lt_second_mul_ticks (rate elapsed : ℕ) :
    rate * elapsed < second * ticks rate elapsed + second := by
  have h := lt_mul_div_succ (rate * elapsed) second_pos
  exact h

lemma Steady.followsRate (hbase : base ≤ start) (hevents : Chronicle happens start events stop)
    (hsteady : Steady newRate base rate events) : FollowsRate newRate rate start events stop
      (ticks (finalRate newRate rate events) (stop - base).toNat -
      ticks rate (start - base).toNat) := by
  have hmono := hsteady.mono hbase hevents
  have hdrift := hsteady.drift hbase hevents
  have hle := hevents.le
  set last := finalRate newRate rate events
  have hstart : ((start - base).toNat : ℤ) = start - base := Int.toNat_of_nonneg (by omega)
  have hstop : ((stop - base).toNat : ℤ) = stop - base := Int.toNat_of_nonneg (by omega)
  have hstart_le : (second * ticks rate (start - base).toNat : ℤ) ≤ rate * (start - base) := by
    rw [← hstart]
    exact_mod_cast second_mul_ticks_le _ _
  have hstart_lt : (rate * (start - base) : ℤ) <
      second * ticks rate (start - base).toNat + second := by
    rw [← hstart]
    exact_mod_cast lt_second_mul_ticks _ _
  have hstop_le : (second * ticks last (stop - base).toNat : ℤ) ≤ last * (stop - base) := by
    rw [← hstop]
    exact_mod_cast second_mul_ticks_le _ _
  have hstop_lt : (last * (stop - base) : ℤ) <
      second * ticks last (stop - base).toNat + second := by
    rw [← hstop]
    exact_mod_cast lt_second_mul_ticks _ _
  rw [abs_le] at hdrift
  rw [FollowsRate, cast_sub hmono, mul_sub, mul_add, mul_one]
  constructor
  · rw [abs_le]
    constructor <;> linarith
  intro hnone
  rw [hnone] at hdrift
  rw [abs_lt]
  constructor <;> push_cast at hdrift <;> linarith

end Counting

end RatedCounters
