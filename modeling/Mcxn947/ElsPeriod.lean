import Mathlib.Data.FinEnum
import Mcxn947.ElsModel
import Mcxn947.EventRuns
import Mcxn947.XorMaps

/-!
# The period of the ELS generator

One step of the generator keeps exclusive or, and the word 1 is back after `2 ^ 32 - 1` steps
and after no proper divisor of that many.
-/

namespace Mcxn947.Els

open EventRuns MachineWords StoreFootprints XorMaps Function

inductive Event where
  | read (off : ℕ)
  | write (off : ℕ) (val : Word) (m : Memory)
  | reset (seed : Word)

-- A write finds whatever the other masters have left in memory.
def step (s : ElsState) : Event → ElsState
  | .read off => (mcxnElsRead s off).2
  | .write off val m => (mcxnElsWrite s m off val).1
  | .reset seed => mcxnElsReset seed

def delivered (s : ElsState) : Event → List Word
  | .read off => if off = elsPrngDatout then [(mcxnElsRead s off).1] else []
  | _ => []

def Undisturbed (s : ElsState) (e : Event) : Prop :=
  e = .read elsPrngDatout ∨ (step s e).rngState = s.rngState

def xorshift (x : Word) : Word := (elsPrngNext ⟨fun _ => 0, x, 0⟩).1

variable {s : ElsState} {x : Word}

lemma xorshift_xor (x y : Word) : xorshift (x ^^^ y) = xorshift x ^^^ xorshift y := by
  have hleft : ∀ (x y : Word) (k : ℕ),
      x ^^^ y ^^^ (x ^^^ y) <<< k = x ^^^ x <<< k ^^^ (y ^^^ y <<< k) := by
    intro x y k
    rw [BitVec.shiftLeft_xor_distrib]
    ac_rfl
  have hright : ∀ (x y : Word) (k : ℕ),
      x ^^^ y ^^^ (x ^^^ y) >>> k = x ^^^ x >>> k ^^^ (y ^^^ y >>> k) := by
    intro x y k
    rw [BitVec.ushiftRight_xor_distrib]
    ac_rfl
  unfold xorshift elsPrngNext
  dsimp only
  rw [hleft x y 13, hright _ _ 17, hleft _ _ 5]

lemma xorshift_zero : IsFixedPt xorshift 0 := rfl

def factors : List ℕ := [3, 5, 17, 257, 65537]

lemma leap_columns : leap 32 (columns xorshift) factors.prod 1 = 1 ∧
    ∀ p ∈ factors, leap 32 (columns xorshift) (factors.prod / p) 1 ≠ 1 := by
  decide +kernel

lemma minimalPeriod_one : minimalPeriod xorshift 1 = 2 ^ 32 - 1 := by
  have hprod : factors.prod = 2 ^ 32 - 1 := rfl
  rw [← hprod]
  have hleap : ∀ n ≤ factors.prod, IsPeriodicPt xorshift n 1 ↔
      leap 32 (columns xorshift) n 1 = 1 := by
    intro n hn
    have hiter := toNat_iterate xorshift_xor (show n < 2 ^ 32 from hn.trans_lt (by decide)) 1
    rw [show (1 : Word).toNat = 1 from rfl] at hiter
    rw [← hiter, IsPeriodicPt, IsFixedPt, ← BitVec.toNat_inj]
    rfl
  apply minimalPeriod_eq_prod (by norm_num [factors]) ((hleap _ le_rfl).mpr leap_columns.1)
  intro p hp
  rw [hleap _ (Nat.div_le_self _ _)]
  exact leap_columns.2 p hp

lemma card_word : Fintype.card Word = 2 ^ 32 - 1 + 1 := by
  rw [← FinEnum.card_eq_fintypeCard, FinEnum.card_bitVec]
  norm_num

lemma minimalPeriod_xorshift (hx : x ≠ 0) : minimalPeriod xorshift x = 2 ^ 32 - 1 :=
  (minimalPeriod_of_ne card_word xorshift_zero (by decide) minimalPeriod_one hx).2

lemma bijective_xorshift : Bijective xorshift :=
  bijective_of_minimalPeriod card_word xorshift_zero (by decide) minimalPeriod_one

lemma iterate_xorshift_ne_zero (n : ℕ) (hx : x ≠ 0) : xorshift^[n] x ≠ 0 := by
  intro h
  apply hx
  apply bijective_xorshift.injective.iterate n
  rw [h]
  exact (iterate_fixed xorshift_zero n).symm

lemma elsRndBytes_rngState (n : ℕ) (s : ElsState) :
    (elsRndBytes n s).2.rngState = xorshift^[n] s.rngState := by
  induction n generalizing s with
  | zero => rfl
  | succ n ih => exact ih _

def Drawn (s s' : ElsState) : Prop := ∃ n, s'.rngState = xorshift^[n] s.rngState

lemma drawn_elsStartCommand (m : Memory) : Drawn s (elsStartCommand s m).1 := by
  unfold elsStartCommand elsDoRndReq
  extract_lets cmd addr len
  split_ifs
  · exact ⟨0, rfl⟩
  · exact ⟨len, elsRndBytes_rngState len s⟩
  · exact ⟨0, rfl⟩
  · exact ⟨0, rfl⟩

lemma drawn_mcxnElsWrite (m : Memory) (off : ℕ) (val : Word) :
    Drawn s (mcxnElsWrite s m off val).1 := by
  unfold mcxnElsWrite
  extract_lets written
  split_ifs
  all_goals first | exact ⟨0, rfl⟩ | exact drawn_elsStartCommand (s := written) m

lemma drawn_mcxnElsRead (off : ℕ) : Drawn s (mcxnElsRead s off).2 := by
  unfold mcxnElsRead
  extract_lets v
  split_ifs
  all_goals first | exact ⟨0, rfl⟩ | exact ⟨1, rfl⟩

lemma step_rngState_ne_zero (s : ElsState) (e : Event) (h : s.rngState ≠ 0) :
    (step s e).rngState ≠ 0 := by
  have hdrawn : ∀ s', Drawn s s' → s'.rngState ≠ 0 := by
    rintro s' ⟨n, hn⟩
    rw [hn]
    exact iterate_xorshift_ne_zero n h
  cases e with
  | read off => exact hdrawn _ (drawn_mcxnElsRead off)
  | write off val m => exact hdrawn _ (drawn_mcxnElsWrite m off val)
  | reset seed =>
    rw [step, mcxnElsReset]
    split_ifs with hseed
    · decide
    · exact hseed

lemma outputs_delivered {later : List Event} (h : Admits step Undisturbed s later) :
    outputs step delivered s later =
      List.iterate xorshift (xorshift s.rngState) (outputs step delivered s later).length := by
  induction later generalizing s with
  | nil => rfl
  | cons e later ih =>
    obtain ⟨he, hlater⟩ := h
    have hrest := ih hlater
    by_cases hread : e = .read elsPrngDatout
    · subst hread
      exact congrArg (xorshift s.rngState :: ·) hrest
    · rw [he.resolve_left hread] at hrest
      have hnone : delivered s e = [] := by
        unfold delivered
        split
        · exact if_neg fun hoff => hread (congrArg _ hoff)
        · rfl
      rw [outputs, hnone, List.nil_append]
      exact hrest

/-- Whatever the seed and the accesses since the reset, the state of the generator is not zero.
Its step is a bijection, and `2 ^ 32 - 1` reads of `PRNG_DATOUT` with no other draw between
them deliver every word but zero, each of them once. -/
theorem prng_full_period (seed : Word) (events : List Event) :
    let s := run step (mcxnElsReset seed) events
    s.rngState ≠ 0 ∧ Bijective (fun x => (elsPrngNext { s with rngState := x }).1) ∧
      ∀ later, Admits step Undisturbed s later →
        (outputs step delivered s later).length = 2 ^ 32 - 1 →
        (outputs step delivered s later).Nodup ∧
          ∀ v, v ∈ outputs step delivered s later ↔ v ≠ 0 := by
  intro s
  have hreset : (mcxnElsReset seed).rngState ≠ 0 :=
    step_rngState_ne_zero ⟨fun _ => 0, 1, 0⟩ (.reset seed) (by decide)
  have hs : s.rngState ≠ 0 := run_invariant step_rngState_ne_zero hreset events
  refine ⟨hs, bijective_xorshift, fun later hadmits hlength => ?_⟩
  have hfirst : xorshift s.rngState ≠ 0 := iterate_xorshift_ne_zero 1 hs
  have hperiod := minimalPeriod_xorshift hfirst
  rw [outputs_delivered hadmits, hlength]
  exact ⟨nodup_iterate hperiod, fun v => mem_iterate_iff card_word xorshift_zero hfirst hperiod⟩

lemma replicate_read (n : ℕ) (s : ElsState) :
    Admits step Undisturbed s (.replicate n (.read elsPrngDatout)) ∧
      (outputs step delivered s (.replicate n (.read elsPrngDatout))).length = n := by
  induction n generalizing s with
  | zero => exact ⟨trivial, rfl⟩
  | succ n ih =>
    obtain ⟨hadm, hlength⟩ := ih (step s (.read elsPrngDatout))
    exact ⟨⟨.inl rfl, hadm⟩, congrArg (· + 1) hlength⟩

theorem prng_full_period_of_zero :
    let s := run step (mcxnElsReset 0) []
    let reads := List.replicate (2 ^ 32 - 1) (Event.read elsPrngDatout)
    s.rngState = elsPrngSeed ∧ Admits step Undisturbed s reads ∧
      (outputs step delivered s reads).Nodup := by
  obtain ⟨hadmits, hlength⟩ := replicate_read (2 ^ 32 - 1) (mcxnElsReset 0)
  exact ⟨rfl, hadmits, ((prng_full_period 0 []).2.2 _ hadmits hlength).1⟩

end Mcxn947.Els
