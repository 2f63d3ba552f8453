import Mathlib.Tactic

/-!
# Machine words and their flags

Register code tests, sets and clears flags with masks.
-/

namespace MachineWords

open BitVec Bool

abbrev Word := BitVec 32
abbrev HalfWord := BitVec 16
abbrev Byte := BitVec 8
abbrev DoubleWord := BitVec 64

instance neZero_2 : NeZero 2 := ⟨by decide⟩
instance neZero_4 : NeZero 4 := ⟨by decide⟩
instance neZero_8 : NeZero 8 := ⟨by decide⟩
instance neZero_16 : NeZero 16 := ⟨by decide⟩
instance neZero_32 : NeZero 32 := ⟨by decide⟩
instance neZero_128 : NeZero 128 := ⟨by decide⟩
instance neZero_1024 : NeZero 0x400 := ⟨by decide⟩
instance neZero_4096 : NeZero 0x1000 := ⟨by decide⟩

lemma div_four_lt {off : ℕ} (h : off < 0x1000) : off / 4 < 0x400 := by omega

variable {w : ℕ}

def anyBit (v mask : BitVec w) : Bool := v &&& mask != 0

variable {mask v cleared : BitVec w}

lemma anyBit_eq_false : anyBit v mask = false ↔ v &&& mask = 0 := by simp [anyBit]

variable (a b : BitVec w)

lemma anyBit_comm : anyBit a b = anyBit b a := by rw [anyBit, anyBit, BitVec.and_comm]

lemma anyBit_iff : anyBit v mask = true ↔ ∃ i, v.getLsbD i = true ∧ mask.getLsbD i = true := by
  constructor
  · intro h
    by_contra hnone
    push Not at hnone
    have hzero : v &&& mask = 0 := by
      apply eq_of_getLsbD_eq
      intro i _
      have := hnone i
      cases hv : v.getLsbD i <;> simp_all
    exact absurd (anyBit_eq_false.mpr hzero) (by simp [h])
  rintro ⟨i, hv, hm⟩
  by_contra hfalse
  have hzero := anyBit_eq_false.mp (not_eq_true _ ▸ hfalse)
  have hbit := congrArg (fun u => BitVec.getLsbD u i) hzero
  simp [hv, hm] at hbit

lemma anyBit_twoPow (v : BitVec w) (k : ℕ) : anyBit v (BitVec.twoPow w k) = v.getLsbD k := by
  rw [Bool.eq_iff_iff, anyBit_iff]
  constructor
  · rintro ⟨i, hv, hm⟩
    rw [getLsbD_twoPow] at hm
    simp only [and_eq_true, decide_eq_true_eq] at hm
    rw [hm.2]
    exact hv
  intro hv
  refine ⟨k, hv, ?_⟩
  simp [lt_of_getLsbD hv]

@[simp] lemma anyBit_zero_left (mask : BitVec w) : anyBit 0#w mask = false := by simp [anyBit]

@[simp] lemma anyBit_or (a b mask : BitVec w) :
    anyBit (a ||| b) mask = (anyBit a mask || anyBit b mask) := by
  rw [Bool.eq_iff_iff, or_eq_true, anyBit_iff, anyBit_iff, anyBit_iff]
  constructor
  · rintro ⟨i, hab, hm⟩
    rw [getLsbD_or, or_eq_true] at hab
    exact hab.imp (fun h => ⟨i, h, hm⟩) (fun h => ⟨i, h, hm⟩)
  rintro (⟨i, h, hm⟩ | ⟨i, h, hm⟩) <;> exact ⟨i, by simp [h], hm⟩

lemma anyBit_clear_of_disjoint (hdisj : cleared &&& mask = 0) (v : BitVec w) :
    anyBit (v &&& ~~~cleared) mask = anyBit v mask := by
  have hkeep : ~~~cleared &&& mask = mask := by
    apply eq_of_getLsbD_eq
    intro i hi
    have hbit := congrArg (fun u => BitVec.getLsbD u i) hdisj
    simp only [getLsbD_and, ofNat_eq_ofNat, getLsbD_zero] at hbit
    cases hm : mask.getLsbD i <;> simp_all
  simp [anyBit, BitVec.and_assoc, hkeep]

lemma anyBit_clear_of_subset (hsubset : mask &&& ~~~cleared = 0) (v : BitVec w) :
    anyBit (v &&& ~~~cleared) mask = false := by
  rw [anyBit_eq_false, BitVec.and_assoc, BitVec.and_comm (~~~cleared), hsubset]
  simp

lemma and_not_eq_self_iff : v &&& ~~~mask = v ↔ anyBit v mask = false := by
  rw [anyBit_eq_false]
  constructor
  · intro h
    rw [← h, BitVec.and_assoc, BitVec.and_comm (~~~mask), BitVec.and_not_self]
    exact BitVec.and_zero
  intro h
  apply eq_of_getLsbD_eq
  intro i hi
  have hbit := congrArg (fun u => BitVec.getLsbD u i) h
  simp only [getLsbD_and, ofNat_eq_ofNat, getLsbD_zero] at hbit
  cases hv : v.getLsbD i <;> simp_all

lemma anyBit_clear_and_of_disjoint {clearable : BitVec w} (hdisj : clearable &&& mask = 0)
    (v ones : BitVec w) : anyBit (v &&& ~~~(ones &&& clearable)) mask = anyBit v mask := by
  apply anyBit_clear_of_disjoint
  rw [BitVec.and_assoc, hdisj]
  simp

lemma anyBit_of_anyBit_and {keep : BitVec w} (h : anyBit (v &&& keep) mask = true) :
    anyBit v mask = true := by
  obtain ⟨i, hv, hm⟩ := anyBit_iff.mp h
  rw [getLsbD_and, and_eq_true] at hv
  exact anyBit_iff.mpr ⟨i, hv.1, hm⟩

def udiv? : Option (BitVec w) := if b = 0 then none else some (a / b)

def umod? : Option (BitVec w) := if b = 0 then none else some (a % b)

variable {b}

lemma udiv?_of_ne (h : b ≠ 0) (a : BitVec w) : udiv? a b = some (a / b) := if_neg h

lemma umod?_of_ne (h : b ≠ 0) (a : BitVec w) : umod? a b = some (a % b) := if_neg h

lemma setWidth_ne_zero {v : Word} (h : v ≠ 0) : v.setWidth 64 ≠ 0 := by
  intro hzero
  apply h
  apply eq_of_toNat_eq
  have htoNat := congrArg BitVec.toNat hzero
  simp only [toNat_setWidth, ofNat_eq_ofNat, toNat_ofNat] at htoNat ⊢
  omega

end MachineWords
