import Mathlib.Tactic

/-!
# Counted loops

`forLoop step bound body` is the C loop
`for (i = 0; i < bound; i += step) body(i)` on a state.
-/

namespace CountedLoops

open List

variable {σ : Type*}

def forLoopFrom (step bound : ℕ) (body : ℕ → σ → σ) : ℕ → ℕ → σ → σ
  | 0, _, state => state
  | fuel + 1, i, state =>
    if i < bound then
      forLoopFrom step bound body fuel (i + step) (body i state)
    else state

def forLoop (step bound : ℕ) (body : ℕ → σ → σ) (state : σ) : σ :=
  forLoopFrom step bound body bound 0 state

private lemma forLoopFrom_eq_foldl {step count : ℕ} (hstep : 0 < step) (body : ℕ → σ → σ)
    (fuel done : ℕ) (hfuel : count ≤ done + fuel) (hdone : done ≤ count) (state : σ) :
    forLoopFrom step (count * step) body fuel (done * step) state =
      (List.range' done (count - done)).foldl (fun state j => body (j * step) state) state := by
  induction fuel generalizing done state with
  | zero =>
    have hempty : count - done = 0 := by omega
    simp [forLoopFrom, hempty]
  | succ fuel ih =>
    by_cases hlt : done < count
    · have hindex : done * step < count * step := Nat.mul_lt_mul_of_pos_right hlt hstep
      have hnext : done * step + step = (done + 1) * step := by ring
      have hsplit : count - done = (count - (done + 1)) + 1 := by omega
      simp only [forLoopFrom, if_pos hindex, hnext]
      rw [ih (done + 1) (by omega) (by omega), hsplit, range'_succ]
      rfl
    have heq : done = count := by omega
    subst heq
    simp [forLoopFrom]

variable {count step : ℕ} {body : ℕ → σ → σ} {state : σ}

lemma forLoop_eq_foldl (hstep : 0 < step) (body : ℕ → σ → σ) (state : σ) :
    forLoop step (count * step) body state =
      (List.range count).foldl (fun state j => body (j * step) state) state := by
  have hfuel : count ≤ 0 + count * step := by simpa using Nat.le_mul_of_pos_right count hstep
  have h := forLoopFrom_eq_foldl hstep body (count * step) 0 hfuel (Nat.zero_le count) state
  simpa [forLoop, range_eq_range'] using h

lemma forLoop_invariant (hstep : 0 < step) {P : ℕ → σ → Prop}
    (hbody : ∀ j state, j < count → P j state → P (j + 1) (body (j * step) state))
    (hinit : P 0 state) : P count (forLoop step (count * step) body state) := by
  rw [forLoop_eq_foldl hstep]
  induction count with
  | zero => exact hinit
  | succ count ih =>
    rw [range_succ, foldl_append]
    apply hbody count _ (Nat.lt_succ_self count)
    exact ih (fun j state hj => hbody j state (Nat.lt_succ_of_lt hj))

lemma forLoop_preserves {bound : ℕ} {P : σ → Prop} (hbody : ∀ i state, P state → P (body i state))
    (hinit : P state) : P (forLoop step bound body state) := by
  have hfrom : ∀ fuel i state, P state → P (forLoopFrom step bound body fuel i state) := by
    intro fuel
    induction fuel with
    | zero => intro i state h; exact h
    | succ fuel ih =>
      intro i state h
      simp only [forLoopFrom]
      split
      · exact ih _ _ (hbody i state h)
      · exact h
  exact hfrom bound 0 state hinit

end CountedLoops
