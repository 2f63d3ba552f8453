import Mathlib.Tactic

/-!
# Strided access sequences

A burst visits the addresses `a, f a, f (f a), …` and pairs each with one
item.  Bursts compose: the second starts where the first left off.
-/

namespace StridedAccess

open List Function

variable {α β : Type*}

def stride (f : α → α) (a : α) : List β → List (α × β)
  | [] => []
  | item :: rest => (a, item) :: stride f (f a) rest

variable (f : α → α) (a : α)

lemma stride_append (before after : List β) : stride f a (before ++ after) =
      stride f a before ++ stride f (f^[before.length] a) after := by
  induction before generalizing a with
  | nil => simp [stride]
  | cons item rest ih => simp [stride, ih]

lemma stride_map_fst (items : List β) : (stride f a items).map Prod.fst =
      (List.range items.length).map fun k => f^[k] a := by
  induction items generalizing a with
  | nil => rfl
  | cons item rest ih => simp [stride, ih, range_succ_eq_map, comp_def]

@[simp] lemma stride_map_snd (items : List β) : (stride f a items).map Prod.snd = items := by
  induction items generalizing a with
  | nil => rfl
  | cons item rest ih => simp [stride, ih]

lemma flatten_getD_of_length (items : List (List β)) {size : ℕ}
    (hsize : ∀ item ∈ items, item.length = size) (tail : List β) (i : ℕ) (default : β)
    (hlow : items.length * size ≤ i) :
    (items.flatten ++ tail).getD i default = tail.getD (i - items.length * size) default := by
  induction items generalizing i with
  | nil => simp
  | cons item rest ih =>
    have hitem : item.length = size := hsize item (by simp)
    have hexpand : (item :: rest).length * size = rest.length * size + size := by
      simp [Nat.succ_mul]
    have hskip : item.length ≤ i := by omega
    simp only [flatten_cons, List.append_assoc, getD_eq_getElem?_getD]
    rw [List.getElem?_append_right hskip, hitem, ← getD_eq_getElem?_getD,
      ih (fun item h => hsize item (mem_cons_of_mem _ h)) (i - size) (by omega)]
    simp only [getD_eq_getElem?_getD]
    congr 2
    omega

lemma flatten_pieces (table : ℕ → β) (size count : ℕ) : ((List.range count).map fun j =>
      (List.range size).map fun i => table (j * size + i)).flatten =
      (List.range (count * size)).map table := by
  induction count with
  | zero => simp
  | succ count ih =>
    rw [range_succ, map_append, flatten_append, ih, Nat.succ_mul, range_add, map_append]
    simp [comp_def]

end StridedAccess
