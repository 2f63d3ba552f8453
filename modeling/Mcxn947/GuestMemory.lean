import Mcxn947.MachineWords

/-!
# Byte memory

Memory as a bus master sees it: a byte at every address, read and written in
runs of bytes.
-/

namespace GuestMemory

open MachineWords List BitVec Function

abbrev Mem := ℕ → Byte

def load (m : Mem) (addr len : ℕ) : List Byte := (List.range len).map fun i => m (addr + i)

def store (m : Mem) (addr : ℕ) (bytes : List Byte) : Mem := fun a =>
  if addr ≤ a ∧ a < addr + bytes.length then bytes.getD (a - addr) 0 else m a

def load32 (m : Mem) (addr : ℕ) : Word := m (addr + 3) ++ m (addr + 2) ++ m (addr + 1) ++ m addr

def wordBytes (w : Word) : List Byte :=
  [w.extractLsb' 0 8, w.extractLsb' 8 8, w.extractLsb' 16 8, w.extractLsb' 24 8]

def store32 (m : Mem) (addr : ℕ) (w : Word) : Mem := store m addr (wordBytes w)

def fill (m : Mem) (addr len : ℕ) (b : Byte) : Mem := fun a =>
  if addr ≤ a ∧ a < addr + len then b else m a

@[simp] lemma length_load (m : Mem) (addr len : ℕ) : (load m addr len).length = len := by
  simp [load]

lemma load_succ (m : Mem) (addr len : ℕ) :
    load m addr (len + 1) = m addr :: load m (addr + 1) len := by
  simp [load, range_succ_eq_map, comp_def, Nat.add_assoc, Nat.add_comm 1]

@[simp] lemma length_wordBytes (w : Word) : (wordBytes w).length = 4 := rfl

def Covers (addr len a : ℕ) : Prop := addr ≤ a ∧ a < addr + len

def Apart (a n b k : ℕ) : Prop := a + n ≤ b ∨ b + k ≤ a
deriving Decidable

variable {a addr len : ℕ} {bytes : List Byte} {m m' : Mem}

lemma store_apply_of_not_covers (h : ¬ Covers addr bytes.length a) : store m addr bytes a = m a :=
  if_neg h

lemma store_apply_of_covers
    (h : Covers addr bytes.length a) : store m addr bytes a = bytes.getD (a - addr) 0 :=
  if_pos h

lemma load_congr
    (h : ∀ a, Covers addr len a → m a = m' a) : load m addr len = load m' addr len := by
  apply map_congr_left
  intro i hi
  exact h _ ⟨Nat.le_add_right _ _, Nat.add_lt_add_left (List.mem_range.mp hi) _⟩

lemma load32_congr (h : ∀ a, Covers addr 4 a → m a = m' a) : load32 m addr = load32 m' addr := by
  simp only [load32]
  rw [h addr ⟨by omega, by omega⟩, h (addr + 1) ⟨by omega, by omega⟩,
    h (addr + 2) ⟨by omega, by omega⟩, h (addr + 3) ⟨by omega, by omega⟩]

lemma load_store_self (m : Mem) (addr : ℕ) (bytes : List Byte) :
    load (store m addr bytes) addr bytes.length = bytes := by
  apply ext_getElem (length_load _ _ _)
  intro i _ hi
  have hcovers : Covers addr bytes.length (addr + i) := ⟨by omega, by omega⟩
  simp [load, store_apply_of_covers hcovers, hi]

lemma load_add (m : Mem) (addr n k : ℕ) :
    load m addr (n + k) = load m addr n ++ load m (addr + n) k := by
  simp [load, range_add, Nat.add_assoc, comp_def]

lemma load_store_append (m : Mem) (addr n : ℕ) (bytes : List Byte) :
    load (store m (addr + n) bytes) addr (n + bytes.length) = load m addr n ++ bytes := by
  have hbefore : load (store m (addr + n) bytes) addr n = load m addr n := by
    apply load_congr
    intro a ha
    apply store_apply_of_not_covers
    intro hcovers
    exact absurd ha.2 (not_lt.mpr hcovers.1)
  rw [load_add, hbefore, load_store_self]

lemma load32_store32_self (m : Mem) (addr : ℕ) (w : Word) : load32 (store32 m addr w) addr = w := by
  have hbyte : ∀ i < 4, store32 m addr w (addr + i) = (wordBytes w).getD i 0 := by
    intro i hi
    rw [store32, store_apply_of_covers ⟨by omega, by simpa using hi⟩, Nat.add_sub_cancel_left]
  have h0 := hbyte 0 (by decide)
  rw [Nat.add_zero] at h0
  simp only [load32, h0, hbyte 1 (by decide), hbyte 2 (by decide), hbyte 3 (by decide),
    wordBytes, getD_cons_zero, getD_cons_succ]
  ext j hj
  simp only [BitVec.getElem_append, getElem_extractLsb']
  have hbit : ∀ k, k = j → BitVec.getLsbD w k = w[j] := by
    rintro k rfl
    exact getLsbD_eq_getElem hj
  -- which of the four bytes bit j falls into
  split
  · exact hbit _ (by omega)
  split
  · exact hbit _ (by omega)
  split <;> exact hbit _ (by omega)

lemma wordBytes_append (b3 b2 b1 b0 : Byte) :
    wordBytes (b3 ++ b2 ++ b1 ++ b0) = [b0, b1, b2, b3] := by
  have hbyte : ∀ (k : ℕ) (b : Byte),
      (∀ j < 8, (b3 ++ b2 ++ b1 ++ b0 : Word).getLsbD (k + j) = b.getLsbD j) →
      (b3 ++ b2 ++ b1 ++ b0 : Word).extractLsb' k 8 = b := by
    intro k b h
    apply eq_of_getLsbD_eq
    intro j hj
    rw [getLsbD_extractLsb', h j hj]
    simp [hj]
  rw [wordBytes, hbyte 0 b0, hbyte 8 b1, hbyte 16 b2, hbyte 24 b3]
  all_goals
    intro j hj
    simp only [getLsbD_append]
  · rw [if_neg (by omega), if_neg (by omega), if_neg (by omega)]
    congr 1
    omega
  · rw [if_neg (by omega), if_neg (by omega), if_pos (by omega)]
    congr 1
    omega
  · rw [if_neg (by omega), if_pos (by omega)]
    congr 1
    omega
  rw [if_pos (by omega)]
  congr 1
  omega

lemma wordBytes_load32 (m : Mem) (addr : ℕ) : wordBytes (load32 m addr) = load m addr 4 :=
  wordBytes_append _ _ _ _

lemma getD_load (m : Mem) (addr : ℕ) {i : ℕ} (hi : i < len) (d : Byte) :
    (load m addr len).getD i d = m (addr + i) := by
  simp [load, hi]

end GuestMemory
