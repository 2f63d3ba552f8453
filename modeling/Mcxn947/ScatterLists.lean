import Mcxn947.GuestMemory

/-!
# Bytes put at listed addresses

A bus master that follows a list of segments puts byte after byte at the addresses of the
list, one at a time; only the mapped addresses take a byte.
-/

namespace GuestMemory

open MachineWords List Function

def put (mapped : ℕ → Bool) (m : Mem) (cell : ℕ × Byte) : Mem :=
  if mapped cell.1 then Function.update m cell.1 cell.2 else m

def scatter (mapped : ℕ → Bool) (m : Mem) (cells : List (ℕ × Byte)) : Mem :=
  cells.foldl (put mapped) m

variable {mapped : ℕ → Bool}

lemma scatter_append (m : Mem) (first second : List (ℕ × Byte)) :
    scatter mapped m (first ++ second) = scatter mapped (scatter mapped m first) second := by
  simp [scatter]

variable {a : ℕ} {cells : List (ℕ × Byte)} {m : Mem}

lemma put_apply_of_ne (m : Mem) {cell : ℕ × Byte} (h : a ≠ cell.1) : put mapped m cell a = m a := by
  unfold put
  split
  · exact update_of_ne h _ _
  · rfl

lemma scatter_apply_of_notMem (h : a ∉ cells.map Prod.fst) : scatter mapped m cells a = m a := by
  induction cells generalizing m with
  | nil => rfl
  | cons cell rest ih =>
    rw [map_cons, mem_cons, not_or] at h
    rw [scatter, foldl_cons, ← scatter, ih h.2, put_apply_of_ne m h.1]

lemma scatter_apply_of_mem (hnodup : (cells.map Prod.fst).Nodup) {b : Byte} (hcell : (a, b) ∈ cells)
    (hmapped : mapped a) : scatter mapped m cells a = b := by
  induction cells generalizing m with
  | nil => exact absurd hcell not_mem_nil
  | cons cell rest ih =>
    rw [map_cons, nodup_cons] at hnodup
    rw [scatter, foldl_cons, ← scatter]
    rcases List.mem_cons.mp hcell with rfl | hrest
    · rw [scatter_apply_of_notMem hnodup.1, put, if_pos hmapped, update_self]
    · exact ih hnodup.2 hrest

lemma scatter_range' (m : Mem) (addr : ℕ) (bytes : List Byte) :
    scatter mapped m ((List.range' addr bytes.length).zip bytes) =
      fun a => if mapped a then store m addr bytes a else m a := by
  induction bytes generalizing m addr with
  | nil =>
    funext a
    simp [scatter, store]
  | cons b rest ih =>
    rw [length_cons, range'_succ, zip_cons_cons, scatter, foldl_cons, ← scatter, ih]
    funext a
    rcases Nat.lt_trichotomy a addr with hlt | rfl | hgt
    · -- before the bytes
      have hne : a ≠ addr := Nat.ne_of_lt hlt
      rw [put_apply_of_ne m hne, store_apply_of_not_covers (fun h => by have := h.1; omega),
        store_apply_of_not_covers (fun h => by have := h.1; omega), put_apply_of_ne m hne]
    · -- the first byte
      rw [store_apply_of_not_covers (fun h => by have := h.1; omega),
        store_apply_of_covers ⟨le_rfl, by simp⟩, ite_self, put]
      cases mapped a <;> simp
    have hne : a ≠ addr := Nat.ne_of_gt hgt
    rw [put_apply_of_ne m hne]
    by_cases hcovers : Covers (addr + 1) rest.length a
    · have hwhole : Covers addr (b :: rest).length a :=
        ⟨by omega, by rw [length_cons]; have := hcovers.2; omega⟩
      rw [store_apply_of_covers hcovers, store_apply_of_covers hwhole,
        show a - addr = a - (addr + 1) + 1 by omega, getD_cons_succ]
    have hwhole : ¬ Covers addr (b :: rest).length a := by
      intro h
      refine hcovers ⟨by omega, ?_⟩
      have hlt := h.2
      rw [length_cons] at hlt
      omega
    rw [store_apply_of_not_covers hcovers, store_apply_of_not_covers hwhole, put_apply_of_ne m hne]

end GuestMemory
