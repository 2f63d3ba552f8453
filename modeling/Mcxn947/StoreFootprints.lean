import Mcxn947.GuestMemory

/-!
# Stores into memory with holes

A bus master writes where it is told; only the addresses backed by writable memory take
the byte.
-/

namespace StoreFootprints

open MachineWords GuestMemory

structure Memory where
  bytes : Mem
  writable : ℕ → Bool
  stored : List ℕ

namespace Memory

def fresh (m : Memory) : Memory := { m with stored := [] }

def storeByte (m : Memory) (addr : ℕ) (b : Byte) : Memory :=
  if m.writable addr then
    { m with bytes := Function.update m.bytes addr b, stored := addr :: m.stored }
  else m

def storeBytes (m : Memory) (addr : ℕ) : List Byte → Memory
  | [] => m
  | b :: bs => storeBytes (m.storeByte addr b) (addr + 1) bs

end Memory

structure Stores (range : Set ℕ) (m m' : Memory) : Prop where
  writable : m'.writable = m.writable
  stored : ∀ a, a ∈ m'.stored ↔ a ∈ m.stored ∨ a ∈ range ∧ m.writable a = true

namespace Stores

variable {ι : Type} {range range' : Set ℕ} {m m' m'' : Memory}

lemma refl (m : Memory) : Stores ∅ m m := ⟨rfl, fun a => by simp⟩

lemma trans (h : Stores range m m') (h' : Stores range' m' m'') :
    Stores (range ∪ range') m m'' := by
  refine ⟨h'.writable.trans h.writable, fun a => ?_⟩
  rw [h'.stored, h.stored, h.writable, or_assoc, ← or_and_right]
  rfl

lemma congr (h : Stores range m m') (heq : ∀ a, a ∈ range ↔ a ∈ range') : Stores range' m m' := by
  rwa [← Set.ext heq]

lemma foldl {f : Memory → ι → Memory} {turn : ι → Set ℕ}
    (hturn : ∀ m i, Stores (turn i) m (f m i)) (l : List ι) (m : Memory) :
    Stores {a | ∃ i ∈ l, a ∈ turn i} m (l.foldl f m) := by
  induction l generalizing m with
  | nil => exact (refl m).congr fun a => by simp
  | cons i l ih =>
    refine ((hturn m i).trans (ih (f m i))).congr fun a => ?_
    simp

end Stores

lemma Memory.storeByte_stores (m : Memory) (addr : ℕ) (b : Byte) :
    Stores {a | a = addr} m (m.storeByte addr b) := by
  unfold Memory.storeByte
  split
  case isTrue hw =>
    refine ⟨rfl, fun a => ?_⟩
    simp only [List.mem_cons, Set.mem_ofPred_eq]
    constructor
    · rintro (rfl | h)
      · exact .inr ⟨rfl, hw⟩
      · exact .inl h
    rintro (h | ⟨rfl, -⟩)
    · exact .inr h
    · exact .inl rfl
  case isFalse hw =>
    refine ⟨rfl, fun a => ?_⟩
    constructor
    · exact .inl
    rintro (h | ⟨rfl, h⟩)
    · exact h
    · exact absurd h hw

lemma Memory.storeBytes_stores (m : Memory) (addr : ℕ) (bs : List Byte) :
    Stores {a | Covers addr bs.length a} m (m.storeBytes addr bs) := by
  induction bs generalizing m addr with
  | nil => exact (Stores.refl m).congr fun a => by simp [Covers]
  | cons b bs ih =>
    refine ((m.storeByte_stores addr b).trans (ih (m.storeByte addr b) (addr + 1))).congr
      fun a => ?_
    simp only [Covers, Set.mem_union, Set.mem_ofPred_eq, List.length_cons]
    omega

structure Honest (noError : Prop) (result : Set ℕ) (m' : Memory) : Prop where
  complete : noError → ∀ a ∈ result, a ∈ m'.stored
  confined : ∀ a ∈ m'.stored, a ∈ result

lemma honest_iff {noError : Prop} {range result : Set ℕ} {m m' : Memory}
    (h : Stores range m.fresh m') (hsub : range ⊆ result) :
    Honest noError result m' ↔ (noError → ∀ a ∈ result, a ∈ range ∧ m.writable a) := by
  have hstored : ∀ a, a ∈ m'.stored ↔ a ∈ range ∧ m.writable a := by
    intro a
    rw [h.stored a]
    exact or_iff_right List.not_mem_nil
  constructor
  · intro hhonest he a ha
    exact (hstored a).mp (hhonest.complete he a ha)
  intro hall
  refine ⟨fun he a ha => (hstored a).mpr (hall he a ha), fun a ha => ?_⟩
  exact hsub ((hstored a).mp ha).1

end StoreFootprints
