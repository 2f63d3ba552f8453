import Mathlib.Data.Nat.Bitwise
import Mathlib.Data.List.Iterate
import Mathlib.Data.List.Prime
import Mathlib.Dynamics.PeriodicPts.Lemmas
import Mathlib.Tactic

/-!
# Maps that keep exclusive or

Such a map is the combination of its values at the powers of two, and so are its iterates,
which squaring reaches in as many rounds as the count has bits.  A point whose period leaves
out one fixed point only passes through every other point.
-/

namespace XorMaps

open Function Finset

def Additive (f : ℕ → ℕ) : Prop := ∀ x y, f (x ^^^ y) = f x ^^^ f y

def combine : List ℕ → ℕ → ℕ
  | [], _ => 0
  | c :: cs, n => c * (n % 2) ^^^ combine cs (n / 2)

-- Each round squares the map and takes one bit of the count.
def leap : ℕ → List ℕ → ℕ → ℕ → ℕ
  | 0, _, _, x => x
  | fuel + 1, cs, n, x =>
    leap fuel (cs.map (combine cs)) (n / 2) (if n % 2 = 1 then combine cs x else x)

variable {f : ℕ → ℕ}

lemma Additive.zero (hf : Additive f) : f 0 = 0 := by
  have h := hf 0 0
  rwa [Nat.xor_self, Nat.xor_self] at h

lemma Additive.mul_mod_two (hf : Additive f) (c n : ℕ) : f (c * (n % 2)) = f c * (n % 2) := by
  rcases Nat.mod_two_eq_zero_or_one n with h | h
  · rw [h, mul_zero, mul_zero, hf.zero]
  · rw [h, mul_one, mul_one]

lemma additive_combine (cs : List ℕ) : Additive (combine cs) := by
  induction cs with
  | nil => exact fun _ _ => (Nat.xor_self 0).symm
  | cons c cs ih =>
    intro x y
    have hbit : c * ((x ^^^ y) % 2) = c * (x % 2) ^^^ c * (y % 2) := by
      rcases Nat.mod_two_eq_zero_or_one x with hx | hx <;>
        rcases Nat.mod_two_eq_zero_or_one y with hy | hy <;>
        simp [Nat.xor_mod_two_eq, Nat.add_mod, hx, hy]
    rw [combine, combine, combine, hbit, Nat.xor_div_two, ih]
    ac_rfl

lemma Additive.combine_map (hf : Additive f) (cs : List ℕ) (x : ℕ) :
    combine (cs.map f) x = f (combine cs x) := by
  induction cs generalizing x with
  | nil => exact hf.zero.symm
  | cons c cs ih => rw [List.map_cons, combine, combine, hf, ih, hf.mul_mod_two]

lemma additive_double : Additive (2 * ·) := by
  intro a b
  show 2 * (a ^^^ b) = 2 * a ^^^ 2 * b
  have hodd := Nat.xor_mod_two_eq (m := 2 * a) (n := 2 * b)
  have hhalf := Nat.xor_div_two (a := 2 * a) (b := 2 * b)
  simp only [Nat.mul_div_cancel_left, Nat.two_pos] at hhalf
  omega

lemma Additive.combine_two_pow (hf : Additive f) {w x : ℕ} (hx : x < 2 ^ w) :
    combine ((List.range w).map fun i => f (2 ^ i)) x = f x := by
  induction w generalizing f x with
  | zero =>
    obtain rfl : x = 0 := by omega
    exact hf.zero.symm
  | succ w ih =>
    have hrest := ih (f := fun y => f (2 * y))
      (fun a b => (congrArg f (additive_double a b)).trans (hf _ _)) (x := x / 2) (by omega)
    have hsplit : x % 2 ^^^ 2 * (x / 2) = x := by
      have hodd := Nat.xor_mod_two_eq (m := x % 2) (n := 2 * (x / 2))
      have hhalf := Nat.xor_div_two (a := x % 2) (b := 2 * (x / 2))
      simp only [Nat.mul_div_cancel_left, Nat.two_pos, Nat.mod_div_self, Nat.zero_xor] at hhalf
      omega
    simp only [← pow_succ'] at hrest
    have hlow := hf.mul_mod_two 1 x
    rw [one_mul] at hlow
    rw [List.range_succ_eq_map, List.map_cons, List.map_map, combine, pow_zero, ← hlow]
    exact (congrArg (f (x % 2) ^^^ ·) hrest).trans ((hf _ _).symm.trans (congrArg f hsplit))

lemma leap_eq_iterate (fuel : ℕ) {n : ℕ} (hn : n < 2 ^ fuel) (cs : List ℕ) (x : ℕ) :
    leap fuel cs n x = (combine cs)^[n] x := by
  induction fuel generalizing n cs x with
  | zero =>
    obtain rfl : n = 0 := by omega
    rfl
  | succ fuel ih =>
    have hsquare : combine (cs.map (combine cs)) = (combine cs)^[2] := by
      funext y
      exact (additive_combine cs).combine_map cs y
    rw [leap, ih (by omega), hsquare, ← iterate_mul]
    split_ifs with hodd
    · rw [← iterate_succ_apply]
      congr 2
      omega
    · congr 2
      omega

section Words

variable {w : ℕ} {g : BitVec w → BitVec w}

def columns (g : BitVec w → BitVec w) : List ℕ :=
  (List.range w).map fun i => (g (BitVec.ofNat w (2 ^ i))).toNat

lemma toNat_iterate (hg : ∀ x y, g (x ^^^ y) = g x ^^^ g y) {fuel n : ℕ} (hn : n < 2 ^ fuel)
    (x : BitVec w) : (g^[n] x).toNat = leap fuel (columns g) n x.toNat := by
  have hadd : Additive fun n => (g (BitVec.ofNat w n)).toNat := by
    intro x y
    simp only [BitVec.ofNat_xor, hg, BitVec.toNat_xor]
  have hcolumns : Semiconj BitVec.toNat g (combine (columns g)) := by
    intro x
    have hx := hadd.combine_two_pow x.isLt
    rw [BitVec.ofNat_toNat, BitVec.setWidth_eq] at hx
    exact hx.symm
  rw [leap_eq_iterate fuel hn]
  exact hcolumns.iterate_right n x

end Words

section Cycles

variable {α : Type*} {g : α → α} {x y z : α} {n : ℕ}

lemma minimalPeriod_eq_prod {ps : List ℕ} (hps : ∀ p ∈ ps, p.Prime)
    (hx : IsPeriodicPt g ps.prod x) (hnot : ∀ p ∈ ps, ¬ IsPeriodicPt g (ps.prod / p) x) :
    minimalPeriod g x = ps.prod := by
  obtain ⟨q, hq⟩ := hx.minimalPeriod_dvd
  by_contra hne
  have hq1 : q ≠ 1 := by
    rintro rfl
    exact hne (by rw [hq, mul_one])
  obtain ⟨p, hp, r, rfl⟩ := Nat.exists_prime_and_dvd hq1
  have hmem : p ∈ ps := mem_list_primes_of_dvd_prod hp.prime (fun r hr => (hps r hr).prime)
      ⟨minimalPeriod g x * r, by rw [hq, mul_left_comm]⟩
  apply hnot p hmem
  rw [hq, mul_left_comm, Nat.mul_div_cancel_left _ hp.pos]
  exact (isPeriodicPt_minimalPeriod g x).mul_const r

lemma nodup_iterate (hx : minimalPeriod g x = n) : (List.iterate g x n).Nodup := by
  rw [← List.range_map_iterate, ← hx]
  refine List.Nodup.map_on (fun i hi j hj => ?_) List.nodup_range
  exact (iterate_eq_iterate_iff_of_lt_minimalPeriod (List.mem_range.mp hi)
    (List.mem_range.mp hj)).mp

variable [Fintype α] [DecidableEq α] (hcard : Fintype.card α = n + 1) (hz : IsFixedPt g z)
  (hxz : x ≠ z) (hx : minimalPeriod g x = n)
include hcard hz hxz hx

-- The cycle does not pass through the fixed point, and by counting it has room for nothing else.
lemma mem_iterate_iff : y ∈ List.iterate g x n ↔ y ≠ z := by
  have hall : (List.iterate g x n).toFinset = univ.erase z := by
    apply eq_of_subset_of_card_le
    · intro y hy
      rw [List.mem_toFinset, List.mem_iterate] at hy
      obtain ⟨i, hi, rfl⟩ := hy
      refine mem_erase.mpr ⟨fun hiz => hxz ?_, mem_univ _⟩
      have hback := iterate_minimalPeriod (f := g) (x := x)
      rw [hx, ← Nat.sub_add_cancel hi.le, iterate_add_apply, hiz, (hz.iterate _).eq] at hback
      exact hback.symm
    · rw [card_erase_of_mem (mem_univ z), card_univ, hcard,
        List.toFinset_card_of_nodup (nodup_iterate hx), List.length_iterate]
      exact le_rfl
  rw [← List.mem_toFinset, hall, mem_erase, and_iff_left (mem_univ y)]

lemma minimalPeriod_of_ne (hyz : y ≠ z) : y ∈ periodicPts g ∧ minimalPeriod g y = n := by
  obtain ⟨i, hi, rfl⟩ := List.mem_iterate.mp ((mem_iterate_iff hcard hz hxz hx).mpr hyz)
  have hpos : 0 < minimalPeriod g x := hx ▸ Nat.zero_lt_of_lt hi
  have hper := minimalPeriod_apply_iterate (minimalPeriod_pos_iff_mem_periodicPts.mp hpos) i
  rw [← minimalPeriod_pos_iff_mem_periodicPts, hper]
  exact ⟨hpos, hx⟩

lemma bijective_of_minimalPeriod : Bijective g := by
  rw [← Finite.surjective_iff_bijective]
  intro y
  by_cases hyz : y = z
  · exact ⟨z, hz.trans hyz.symm⟩
  · exact periodicPts_subset_range (minimalPeriod_of_ne hcard hz hxz hx hyz).1

end Cycles

end XorMaps
