import Mcxn947.UsbdevModel

/-!
# Histories of a usbredir device

What was received, sent, cancelled, dropped and completed is recorded in a history.
"Exactly one reply" is a property of histories: a reply answers an outstanding request of
the same connection, and a request that the backend has refused, or whose turn on its
endpoint has come, is answered.
-/

namespace Mcxn947.Usbdev

open List

inductive Mark where
  | boundary
  | request (id : ℕ) (slot : Option Slot)
  | refused (id : ℕ)
  | sent (s : Sent)
  | cancel (id : ℕ)
  | drop
  | completed (slot : Slot)
deriving DecidableEq

def Mark.message : Mark → Option Sent
  | .sent s => some s
  | _ => none

/-- What a mark leaves of the requests that wait for a reply. -/
def Mark.settle (waiting : List (ℕ × Option Slot)) : Mark → List (ℕ × Option Slot)
  | .request id slot => waiting ++ [(id, slot)]
  | .sent (.reply id _) | .cancel id => waiting.filter (·.1 ≠ id)
  | .drop | .boundary => []
  | .sent _ | .refused _ | .completed _ => waiting

variable (history : List Mark) {waiting : List (ℕ × Option Slot)}

def outstanding : List (ℕ × Option Slot) := history.foldl Mark.settle []

def Mark.count (slot : Slot) (ledger : ℕ × ℕ) : Mark → ℕ × ℕ
  | .request _ s => if s = some slot then (ledger.1 + 1, ledger.2) else ledger
  | .completed s => if s = slot ∧ ledger.2 < ledger.1 then (ledger.1, ledger.2 + 1) else ledger
  | .drop | .boundary => (0, 0)
  | .sent _ | .refused _ | .cancel _ => ledger

def ledger (slot : Slot) (history : List Mark) : ℕ × ℕ := history.foldl (Mark.count slot) (0, 0)

/-- Every reply carries the id of a request of its connection that waits for one. -/
def RepliesSafe : Prop :=
  ∀ before id packet after, history = before ++ .sent (.reply id packet) :: after →
    ∃ slot, (id, slot) ∈ outstanding before

/-- Every request that is not cancelled or dropped is answered once the backend
has refused it, or has completed as many transfers on its endpoint as there
were requests up to it. -/
def RepliesLive : Prop :=
  ∀ before id slot after, history = before ++ .request id (some slot) :: after →
    .cancel id ∉ after → .drop ∉ after → .boundary ∉ after →
    (.refused id ∈ after ∨
      (ledger slot (before ++ [.request id (some slot)])).1 ≤ (ledger slot history).2) →
    ∃ packet, .sent (.reply id packet) ∈ after

def GoodMark (waiting : List (ℕ × Option Slot)) (rest : List Mark) : Mark → Prop
  | .sent (.reply id _) => ∃ slot, (id, slot) ∈ waiting
  | .completed slot => ∀ id, (id, some slot) ∈ waiting →
      ∃ packet more, rest = .sent (.reply id packet) :: more
  | .refused id => ∃ packet more, rest = .sent (.reply id packet) :: more
  | _ => True

def GoodFrom : List (ℕ × Option Slot) → List Mark → Prop
  | _, [] => True
  | waiting, m :: rest => GoodMark waiting rest m ∧ GoodFrom (m.settle waiting) rest

variable {m : Mark} {marks after before : List Mark} {id : ℕ} {slot : Slot}

lemma GoodMark.extend {rest : List Mark} (h : GoodMark waiting rest m) (more : List Mark) :
    GoodMark waiting (rest ++ more) m := by
  cases m with
  | completed slot =>
    intro id hid
    obtain ⟨packet, tail, rfl⟩ := h id hid
    exact ⟨packet, tail ++ more, rfl⟩
  | refused id =>
    obtain ⟨packet, tail, rfl⟩ := h
    exact ⟨packet, tail ++ more, rfl⟩
  | sent s =>
    cases s with
    | reply id packet => exact h
    | _ => trivial
  | _ => trivial

variable {history}

lemma GoodFrom.append (hhistory : GoodFrom waiting history)
    (hmarks : GoodFrom (history.foldl Mark.settle waiting) marks) :
    GoodFrom waiting (history ++ marks) := by
  induction history generalizing waiting with
  | nil => exact hmarks
  | cons m rest ih => exact ⟨hhistory.1.extend marks, ih hhistory.2 hmarks⟩

lemma GoodFrom.mark (h : GoodFrom waiting (before ++ m :: after)) :
    GoodMark (before.foldl Mark.settle waiting) after m := by
  induction before generalizing waiting with
  | nil => exact h.1
  | cons b rest ih => exact ih h.2

lemma GoodFrom.repliesSafe (h : GoodFrom [] history) : RepliesSafe history := by
  intro before id packet after hsplit
  rw [hsplit] at h
  exact h.mark

lemma mem_foldl_settle {slot : Option Slot} (hmem : (id, slot) ∈ waiting)
    (hcancel : .cancel id ∉ marks) (hdrop : .drop ∉ marks) (hbound : .boundary ∉ marks)
    (hreply : ∀ packet, .sent (.reply id packet) ∉ marks) :
    (id, slot) ∈ marks.foldl Mark.settle waiting := by
  induction marks generalizing waiting with
  | nil => exact hmem
  | cons m rest ih =>
    simp only [mem_cons, not_or] at hcancel hdrop hbound hreply
    apply ih _ hcancel.2 hdrop.2 hbound.2 fun packet => (hreply packet).2
    cases m with
    | boundary => exact absurd rfl hbound.1
    | drop => exact absurd rfl hdrop.1
    | request id' slot' => exact mem_append_left _ hmem
    | refused id' | completed slot' => exact hmem
    | cancel id' =>
      have hne : id ≠ id' := fun heq => hcancel.1 (heq ▸ rfl)
      exact List.mem_filter.mpr ⟨hmem, by simpa using hne⟩
    | sent s =>
      cases s with
      | reply id' packet =>
        have hne : id ≠ id' := fun heq => (hreply packet).1 (heq ▸ rfl)
        exact List.mem_filter.mpr ⟨hmem, by simpa using hne⟩
      | _ => exact hmem

lemma foldl_count_le {l : ℕ × ℕ} (h : l.2 ≤ l.1) (marks : List Mark) :
    (marks.foldl (Mark.count slot) l).2 ≤ (marks.foldl (Mark.count slot) l).1 := by
  induction marks generalizing l with
  | nil => exact h
  | cons m rest ih =>
    apply ih
    cases m with
    | request id s =>
      simp only [Mark.count]
      split
      · exact Nat.le_succ_of_le h
      · exact h
    | completed s =>
      simp only [Mark.count]
      split
      next hcredit => exact hcredit.2
      · exact h
    | boundary | drop => exact le_rfl
    | sent s | refused id | cancel id => exact h

lemma foldl_count_of_not_completed (hcompleted : .completed slot ∉ marks) (hdrop : .drop ∉ marks)
    (hbound : .boundary ∉ marks) (l : ℕ × ℕ) : (marks.foldl (Mark.count slot) l).2 = l.2 := by
  induction marks generalizing l with
  | nil => rfl
  | cons m rest ih =>
    simp only [mem_cons, not_or] at hcompleted hdrop hbound
    rw [foldl_cons, ih hcompleted.2 hdrop.2 hbound.2]
    cases m with
    | request id s =>
      simp only [Mark.count]
      split <;> rfl
    | completed s =>
      have hne : s ≠ slot := fun heq => hcompleted.1 (heq ▸ rfl)
      simp [Mark.count, hne]
    | boundary => exact absurd rfl hbound.1
    | drop => exact absurd rfl hdrop.1
    | sent s | refused id | cancel id => rfl

lemma completed_mem_of_ledger (hdrop : .drop ∉ after) (hbound : .boundary ∉ after)
    (hturn : (ledger slot (before ++ [.request id (some slot)])).1 ≤
      (ledger slot (before ++ .request id (some slot) :: after)).2) : .completed slot ∈ after := by
  by_contra hnone
  have hcredit : (ledger slot before).2 ≤ (ledger slot before).1 := foldl_count_le le_rfl before
  have hlate := foldl_count_of_not_completed hnone hdrop hbound
    ((ledger slot before).1 + 1, (ledger slot before).2)
  simp only [ledger, foldl_append, foldl_cons, foldl_nil,
    Mark.count, if_true] at hturn hcredit hlate
  omega

lemma GoodFrom.repliesLive (h : GoodFrom [] history) : RepliesLive history := by
  rintro before id slot after rfl hcancel hdrop hbound hdue
  by_contra hnone
  push Not at hnone
  cases hdue with
  | inl hrefused =>
    obtain ⟨early, late, rfl⟩ := append_of_mem hrefused
    rw [← List.cons_append, ← List.append_assoc] at h
    obtain ⟨packet, more, rfl⟩ := h.mark
    exact hnone packet (by simp)
  | inr hturn =>
    have hcompleted := completed_mem_of_ledger hdrop hbound hturn
    obtain ⟨early, late, rfl⟩ := append_of_mem hcompleted
    simp only [mem_append, not_or] at hcancel hdrop hbound hnone
    have hwaiting : (id, some slot) ∈
        (before ++ .request id (some slot) :: early).foldl Mark.settle [] := by
      rw [foldl_append, foldl_cons]
      apply mem_foldl_settle _ hcancel.1 hdrop.1 hbound.1 fun packet =>
        (hnone packet).1
      exact mem_append_right _ mem_cons_self
    rw [← List.cons_append, ← List.append_assoc] at h
    obtain ⟨packet, more, rfl⟩ := h.mark id hwaiting
    exact (hnone packet).2 (by simp)

end Mcxn947.Usbdev
