import Mathlib.Tactic

/-!
# Bounded queues and the ring buffers that hold them

A queue is described by its history: the elements it took in and did not throw
away again, and how many of them it has handed out.
-/

namespace RingBuffers

variable {α : Type*}

structure QueueLog (α : Type*) where
  (kept returned : List α)
  lost : Bool

namespace QueueLog

open List

def empty : QueueLog α := ⟨[], [], false⟩

variable (depth : ℕ) (q : QueueLog α)

def queue : List α := q.kept.drop q.returned.length

def Ordered : Prop := q.returned ++ q.queue = q.kept

def receive (a : α) : QueueLog α :=
  if q.queue.length < depth then { q with kept := q.kept ++ [a] }
  else { q with lost := true }

def take (q : QueueLog α) : QueueLog α := { q with returned := q.returned ++ q.queue.take 1 }

def discard : QueueLog α := { q with kept := q.kept.take q.returned.length }

def forgive : QueueLog α := { q with lost := false }

lemma ordered_empty : (empty : QueueLog α).Ordered := rfl

lemma Ordered.length_le {q : QueueLog α} (h : q.Ordered) : q.returned.length ≤ q.kept.length := by
  rw [← h, length_append]
  omega

lemma Ordered.queue_kept {q : QueueLog α} (h : q.Ordered) (l : List α) :
    (q.kept ++ l).drop q.returned.length = q.queue ++ l :=
  drop_append_of_le_length h.length_le

lemma queue_receive {q : QueueLog α} (h : q.Ordered) (depth : ℕ) (a : α) :
    (q.receive depth a).queue = if q.queue.length < depth then q.queue ++ [a] else q.queue := by
  unfold receive
  split
  · exact h.queue_kept [a]
  · rfl

lemma Ordered.receive {q : QueueLog α} (h : q.Ordered) (depth : ℕ) (a : α) :
    (q.receive depth a).Ordered := by
  unfold QueueLog.receive
  split
  · change q.returned ++ (q.kept ++ [a]).drop q.returned.length = q.kept ++ [a]
    rw [h.queue_kept, ← append_assoc, h]
  · exact h

lemma queue_take : q.take.queue = q.queue.tail := by
  have hdrop : q.take.queue = q.queue.drop (q.queue.take 1).length := by
    change q.kept.drop (q.returned ++ q.queue.take 1).length = _
    rw [length_append, ← drop_drop]
    rfl
  rw [hdrop]
  cases q.queue with
  | nil | cons a rest => rfl

lemma Ordered.take {q : QueueLog α} (h : q.Ordered) : q.take.Ordered := by
  unfold Ordered
  rw [queue_take]
  change q.returned ++ q.queue.take 1 ++ q.queue.tail = q.kept
  rw [append_assoc, ← drop_one, take_append_drop, h]

@[simp] lemma queue_discard : q.discard.queue = [] := by simp [queue, discard]

lemma Ordered.discard {q : QueueLog α} (h : q.Ordered) : q.discard.Ordered := by
  have hprefix : q.kept.take q.returned.length = q.returned := by
    rw [← h]
    exact take_left
  unfold Ordered
  rw [queue_discard, append_nil]
  exact hprefix.symm

end QueueLog

section Ring

variable {n : ℕ} [NeZero n]

variable (buf : Fin n → α) (head : Fin n)

def slot (i : ℕ) : Fin n := ⟨(head + i) % n, Nat.mod_lt _ (NeZero.pos n)⟩

def contents (count : ℕ) : List α := (List.range count).map fun i => buf (slot head i)

@[simp] lemma length_contents (count : ℕ) : (contents buf head count).length = count := by
  simp [contents]

variable {count : ℕ}

lemma contents_eq_nil_iff {buf : Fin n → α} {head : Fin n} :
    contents buf head count = [] ↔ count = 0 := by
  rw [← List.length_eq_zero_iff, length_contents]

@[simp] lemma slot_zero : slot head 0 = head := by
  apply Fin.ext
  exact Nat.mod_eq_of_lt head.isLt

lemma slot_slot (i j : ℕ) : slot (slot head i) j = slot head (i + j) := by
  apply Fin.ext
  change ((head + i) % n + j) % n = (head + (i + j)) % n
  rw [Nat.mod_add_mod, Nat.add_assoc]

lemma slot_inj {head : Fin n} {i j : ℕ} (hi : i < n) (hj : j < n)
    (h : slot head i = slot head j) : i = j := by
  have hval : (head + i) % n = (head + j) % n := congrArg Fin.val h
  have hmod : i ≡ j [MOD n] := Nat.ModEq.add_left_cancel' head.val hval
  exact Nat.ModEq.eq_of_lt_of_lt hmod hi hj

lemma contents_push (hroom : count < n) (a : α) :
    contents (Function.update buf (slot head count) a) head (count + 1) =
      contents buf head count ++ [a] := by
  unfold contents
  rw [List.range_succ, List.map_append]
  congr 1
  · apply List.map_congr_left
    intro i hi
    have hlt := List.mem_range.mp hi
    rw [Function.update_of_ne]
    intro hsame
    have := slot_inj (hlt.trans hroom) hroom hsame
    omega
  · simp

lemma contents_succ (count : ℕ) : contents buf head (count + 1) =
      buf head :: contents buf (slot head 1) count := by
  unfold contents
  rw [List.range_succ_eq_map, List.map_cons, List.map_map, slot_zero]
  congr 1
  apply List.map_congr_left
  intro i _
  rw [slot_slot, Nat.add_comm 1 i]
  rfl

end Ring

end RingBuffers
