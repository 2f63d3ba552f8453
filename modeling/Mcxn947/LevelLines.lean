import Mathlib.Logic.Relation
import Mathlib.Tactic

/-!
# Level lines that suppress repeated drives

A device shows conditions on its state as levels of output lines.  It keeps a copy of each
level and drives a line only on a change.
-/

namespace LevelLines

open Function

structure Lines (κ : Type*) where
  level : κ → Bool
  drives : List (κ × Bool)

variable {κ : Type*} [DecidableEq κ]

def Lines.low : Lines κ := ⟨fun _ => false, []⟩

def Lines.flush (l : Lines κ) : Lines κ := { l with drives := [] }

def Lines.publish (l : Lines κ) (k : κ) (wanted : Bool) : Lines κ :=
  if wanted = l.level k then l
  else ⟨update l.level k wanted, l.drives ++ [(k, wanted)]⟩

def Lines.publishAll (l : Lines κ) (ks : List κ) (wanted : κ → Bool) : Lines κ :=
  ks.foldl (fun l k => l.publish k (wanted k)) l

def hold (held : κ → Bool) (drives : List (κ × Bool)) : κ → Bool :=
  drives.foldl (fun held d => update held d.1 d.2) held

lemma hold_cons (held : κ → Bool) (d : κ × Bool) (rest : List (κ × Bool)) :
    hold held (d :: rest) = hold (update held d.1 d.2) rest := rfl

lemma hold_append (held : κ → Bool) (before after : List (κ × Bool)) :
    hold held (before ++ after) = hold (hold held before) after := by
  simp [hold]

section Embedded

variable {ι : Type*} {e : ι → κ}

lemma hold_map [DecidableEq ι] (he : Function.Injective e) (held : κ → Bool)
    (drives : List (ι × Bool)) (i : ι) :
    hold held (drives.map fun d => (e d.1, d.2)) (e i) = hold (held ∘ e) drives i := by
  induction drives generalizing held with
  | nil => rfl
  | cons d rest ih =>
    rw [List.map_cons, hold_cons, ih, hold_cons, update_comp_eq_of_injective held he]

lemma hold_map_of_ne {k : κ} (hk : ∀ i, k ≠ e i) (held : κ → Bool) (drives : List (ι × Bool)) :
    hold held (drives.map fun d => (e d.1, d.2)) k = held k := by
  induction drives generalizing held with
  | nil => rfl
  | cons d rest ih => rw [List.map_cons, hold_cons, ih, update_of_ne (hk d.1)]

end Embedded

lemma Lines.publish_level (l : Lines κ) (k : κ) (wanted : Bool) :
    (l.publish k wanted).level = update l.level k wanted := by
  unfold publish
  split
  next hsame => rw [hsame, update_eq_self]
  · rfl

lemma Lines.publishAll_level (l : Lines κ) (ks : List κ) (wanted : κ → Bool) (k : κ) :
    (l.publishAll ks wanted).level k = if k ∈ ks then wanted k else l.level k := by
  induction ks generalizing l with
  | nil => rfl
  | cons j ks ih =>
    refine (ih (l.publish j (wanted j))).trans ?_
    rw [publish_level]
    by_cases hk : k ∈ ks
    · simp [hk]
    by_cases hj : k = j
    · simp [hj]
    · simp [hk, hj]

def Lines.HeldBy (l : Lines κ) (held : κ → Bool) : Prop := hold held l.drives = l.level

variable {held : κ → Bool} {l : Lines κ}

lemma Lines.HeldBy.publish (h : l.HeldBy held)
    (k : κ) (wanted : Bool) : (l.publish k wanted).HeldBy held := by
  unfold Lines.publish
  split
  · exact h
  unfold HeldBy at h ⊢
  rw [hold_append, h]
  rfl

lemma Lines.HeldBy.publishAll (h : l.HeldBy held)
    (ks : List κ) (wanted : κ → Bool) : (l.publishAll ks wanted).HeldBy held := by
  induction ks generalizing l with
  | nil => exact h
  | cons k ks ih => exact ih (h.publish k (wanted k))

structure Follows {σ : Type*} (lines : σ → Lines κ) (wanted : σ → κ → Bool) (s t : σ) : Prop where
  held : ∀ held, (lines s).HeldBy held → (lines t).HeldBy held
  shows : (lines s).level = wanted s → (lines t).level = wanted t

section Follows

variable {σ : Type*} {lines : σ → Lines κ} {wanted : σ → κ → Bool} {s t u : σ}

lemma Follows.refl (s : σ) : Follows lines wanted s s := ⟨fun _ h => h, fun h => h⟩

lemma Follows.untouched (hlines : lines t = lines s) (hwanted : wanted t = wanted s) :
    Follows lines wanted s t := by
  refine ⟨fun held h => ?_, fun h => ?_⟩
  · rwa [hlines]
  · rw [hlines, hwanted, h]

lemma Follows.published {ks : List κ} (hall : ∀ k, k ∈ ks)
    (hlines : lines t = (lines s).publishAll ks (wanted t)) : Follows lines wanted s t := by
  refine ⟨fun held h => ?_, fun _ => ?_⟩
  · rw [hlines]
    exact h.publishAll ks _
  · funext k
    rw [hlines, Lines.publishAll_level, if_pos (hall k)]

end Follows

section Driven

variable {σ α : Type*}

def InStep (line wanted : σ → α) (s : σ) : Prop := line s = wanted s

/-- What an operation does to a line that was in step: either it drives the line last, or
it leaves the line alone, and then `safe` says that the condition has not changed. -/
inductive Tracks (line wanted : σ → α) (s t : σ) (safe : Prop) : Prop where
  | driven (hline : line t = wanted t) (hsafe : safe)
  | silent (hline : line t = line s) (hwanted : wanted t = wanted s ↔ safe)

variable {line wanted : σ → α} {s t : σ} {safe : Prop}

lemma Tracks.inStep_iff (h : Tracks line wanted s t safe) (hs : InStep line wanted s) :
    InStep line wanted t ↔ safe := by
  cases h with
  | driven hline hsafe => exact iff_of_true hline hsafe
  | silent hline hwanted => rw [← hwanted, InStep, hline, hs, eq_comm]

lemma Tracks.idle (hline : line t = line s) (hwanted : wanted t = wanted s) (hsafe : safe) :
    Tracks line wanted s t safe :=
  .silent hline (iff_of_true hwanted hsafe)

end Driven

end LevelLines
