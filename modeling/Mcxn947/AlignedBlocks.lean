import Mathlib.Tactic

/-!
# Aligned blocks of an address space

The `2 ^ k`-byte block of an address is given by its bits from `k` up.
-/

namespace AlignedBlocks

open BitVec Nat

variable {w : ℕ}

variable (k : ℕ) (a b : BitVec w)

def block (addr : BitVec w) : ℕ := addr.toNat / 2 ^ k

def splice : BitVec w :=
  let mask := ((1 : BitVec w) <<< k) - 1
  (a &&& ~~~mask) ||| (b &&& mask)

lemma getLsbD_lowMask (k i : ℕ) :
    (((1 : BitVec w) <<< k) - 1).getLsbD i = decide (i < w ∧ i < k) := by
  by_cases hk : k < w
  · have hone : (1 : BitVec w).toNat = 1 := by simpa using zero_lt_of_lt hk
    have hpow : 2 ^ k < 2 ^ w := Nat.pow_lt_pow_right (by decide) hk
    have hpos : 0 < 2 ^ k := Nat.two_pow_pos k
    have hshift : ((1 : BitVec w) <<< k).toNat = 2 ^ k := by
      rw [toNat_shiftLeft, hone, Nat.shiftLeft_eq, one_mul, mod_eq_of_lt hpow]
    have hmask : (((1 : BitVec w) <<< k) - 1).toNat = 2 ^ k - 1 := by
      rw [toNat_sub_of_le (BitVec.le_def.mpr (by omega)), hshift, hone]
    rw [← testBit_toNat, hmask, testBit_two_pow_sub_one]
    simpa using fun h : i < k => h.trans hk
  have hzero : (1 : BitVec w) <<< k = 0 := by
    apply eq_of_getLsbD_eq
    intro j hj
    have hlow : j < k := by omega
    simp [getLsbD_shiftLeft, hlow]
  rw [hzero]
  simpa [getLsbD_allOnes, neg_one_eq_allOnes] using fun h : i < w => h.trans_le (not_lt.mp hk)

lemma splice_toNat : (splice k a b).toNat = 2 ^ k * block k a + b.toNat % 2 ^ k := by
  apply eq_of_testBit_eq
  intro i
  rw [testBit_two_pow_mul_add _ (mod_lt _ (Nat.two_pow_pos k))]
  rw [testBit_toNat, splice, getLsbD_or, getLsbD_and, getLsbD_and, getLsbD_not, getLsbD_lowMask]
  by_cases hi : i < k
  · rw [if_pos hi, testBit_mod_two_pow, testBit_toNat]
    by_cases hw : i < w
    · simp [hi, hw]
    · simp [hi, hw, getLsbD_of_ge b i (by omega)]
  rw [if_neg hi, block, testBit_div_two_pow, Nat.sub_add_cancel (by omega), testBit_toNat]
  by_cases hw : i < w
  · simp [hi, hw]
  · simp [hi, hw, getLsbD_of_ge a i (by omega)]

lemma and_lowMask_toNat (v : BitVec w) :
    (v &&& ((1 : BitVec w) <<< k - 1)).toNat = v.toNat % 2 ^ k := by
  have h := splice_toNat k 0 v
  simpa [splice, block] using h

lemma and_not_lowMask_toNat (v : BitVec w) :
    (v &&& ~~~((1 : BitVec w) <<< k - 1)).toNat = 2 ^ k * block k v := by
  have h := splice_toNat k v 0
  simpa [splice] using h

lemma and_not_lowMask_eq_iff {u v : BitVec w} :
    u &&& ~~~((1 : BitVec w) <<< k - 1) = v &&& ~~~((1 : BitVec w) <<< k - 1) ↔
      block k u = block k v := by
  rw [← toNat_inj, and_not_lowMask_toNat, and_not_lowMask_toNat]
  exact Nat.mul_right_inj (Nat.two_pow_pos k).ne'

lemma block_splice : block k (splice k a b) = block k a := by
  rw [block, splice_toNat, mul_add_div (Nat.two_pow_pos k),
    div_eq_of_lt (mod_lt _ (Nat.two_pow_pos k)), add_zero]

variable {j : ℕ} {addr : BitVec w}

lemma dvd_splice (k : ℕ) {a b : BitVec w} (ha : 2 ^ j ∣ a.toNat) (hb : 2 ^ j ∣ b.toNat) :
    2 ^ j ∣ (splice k a b).toNat := by
  rw [splice_toNat]
  by_cases hjk : j ≤ k
  · have hpow : 2 ^ j ∣ 2 ^ k := Nat.pow_dvd_pow 2 hjk
    exact dvd_add (hpow.mul_right _) ((dvd_mod_iff hpow).mpr hb)
  have hpow : 2 ^ k ∣ 2 ^ j := Nat.pow_dvd_pow 2 (by omega)
  have hlow : b.toNat % 2 ^ k = 0 := mod_eq_zero_of_dvd (hpow.trans hb)
  rw [hlow, add_zero, block, Nat.mul_div_cancel' (hpow.trans ha)]
  exact ha

lemma dvd_add_signExtend {v : ℕ} (hj : j ≤ w) {off : BitVec v} (haddr : 2 ^ j ∣ addr.toNat)
    (hoff : ((2 ^ j : ℕ) : ℤ) ∣ off.toInt) : 2 ^ j ∣ (addr + off.signExtend w).toNat := by
  have hpow : 2 ^ j ∣ 2 ^ w := Nat.pow_dvd_pow 2 hj
  rw [toNat_add, dvd_mod_iff hpow]
  refine dvd_add haddr ?_
  have hpow' : ((2 ^ j : ℕ) : ℤ) ∣ ((2 ^ w : ℕ) : ℤ) := Int.natCast_dvd_natCast.mpr hpow
  rw [BitVec.signExtend, toNat_ofInt, ← Int.natCast_dvd_natCast,
    Int.toNat_of_nonneg (Int.emod_nonneg _ (by positivity))]
  exact (EuclideanDomain.dvd_mod_iff hpow').mpr hoff

lemma block_of_aligned {k i : ℕ} (hjk : j ≤ k) (haddr : 2 ^ j ∣ addr.toNat) (hi : i < 2 ^ j) :
    (addr.toNat + i) / 2 ^ k = block k addr := by
  obtain ⟨m, hm⟩ := haddr
  obtain ⟨e, rfl⟩ := Nat.exists_eq_add_of_le hjk
  rw [block, hm, pow_add, ← Nat.div_div_eq_div_mul, ← Nat.div_div_eq_div_mul,
    mul_add_div (Nat.two_pow_pos j), div_eq_of_lt hi, add_zero,
    Nat.mul_div_cancel_left m (Nat.two_pow_pos j)]

end AlignedBlocks
