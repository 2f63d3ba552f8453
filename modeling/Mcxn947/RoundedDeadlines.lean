import Mcxn947.MachineWords
import Mcxn947.RatedCounters

/-!
# Deadlines in whole nanoseconds

A counter that runs at `rate` ticks a second has counted `ticks rate t` after `t`
nanoseconds, and a timer that waits for `counts` more is armed for `delay rate counts`
nanoseconds.
-/

namespace RatedCounters

open MachineWords List BitVec Nat

variable {rate counts t : ℕ}

lemma ticks_lt_iff : ticks rate t < counts ↔ rate * t < counts * second :=
  Nat.div_lt_iff_lt_mul second_pos

lemma le_ticks_iff : counts ≤ ticks rate t ↔ counts * second ≤ rate * t :=
  Nat.le_div_iff_mul_le second_pos

@[simp] lemma ticks_zero (rate : ℕ) : ticks rate 0 = 0 := by simp [ticks]

def NoCarry (rate a b : ℕ) : Prop := rate * a % second + rate * b % second < second

lemma ticks_add (rate a b : ℕ) : ticks rate (a + b) = ticks rate a + ticks rate b +
      if second ≤ rate * a % second + rate * b % second then 1 else 0 := by
  rw [ticks, Nat.mul_add, Nat.add_div second_pos]
  rfl

lemma ticks_add_eq_iff (rate a b : ℕ) :
    ticks rate (a + b) = ticks rate a + ticks rate b ↔ NoCarry rate a b := by
  rw [ticks_add, NoCarry]
  split <;> omega

variable {a : ℕ} {clocks ns : DoubleWord} {hz : Word}

lemma noCarry_of_whole (b : ℕ) (h : second ∣ rate * a) : NoCarry rate a b := by
  rw [NoCarry, mod_eq_zero_of_dvd h, Nat.zero_add]
  exact mod_lt _ second_pos

def delay (rate counts : ℕ) : ℕ := counts * second / rate

def WholeDelay (rate counts : ℕ) : Prop := rate ∣ counts * second
deriving Decidable

lemma mul_delay_le (rate counts : ℕ) : rate * delay rate counts ≤ counts * second := mul_div_le _ _

lemma WholeDelay.mul_delay (h : WholeDelay rate counts) :
    rate * delay rate counts = counts * second :=
  Nat.mul_div_cancel' h

lemma WholeDelay.ticks_delay (h : WholeDelay rate counts) :
    ticks rate (delay rate counts) = counts := by
  rw [ticks, h.mul_delay, Nat.mul_div_cancel _ second_pos]

lemma ticks_lt_of_lt_delay (hrate : 0 < rate) (h : t < delay rate counts) :
    ticks rate t < counts := by
  rw [ticks_lt_iff]
  exact (Nat.mul_lt_mul_of_pos_left h hrate).trans_le (mul_delay_le rate counts)

def OnEdge (rate elapsed : ℕ) : Prop := rate * elapsed % second < rate
deriving Decidable

lemma WholeDelay.add_delay_sub (h : WholeDelay rate counts) {elapsed : ℕ}
    (hle : elapsed ≤ delay rate counts) (hedge : OnEdge rate elapsed) :
    elapsed + delay rate (counts - ticks rate elapsed) = delay rate counts := by
  have hmul := h.mul_delay
  have hticks : second * ticks rate elapsed + rate * elapsed % second = rate * elapsed :=
    div_add_mod (rate * elapsed) second
  have hrest : (counts - ticks rate elapsed) * second =
      rate * (delay rate counts - elapsed) + rate * elapsed % second := by
    have := Nat.mul_le_mul_left rate hle
    rw [Nat.sub_mul, Nat.mul_sub, hmul, Nat.mul_comm (ticks rate elapsed)]
    omega
  have hrate : 0 < rate := zero_lt_of_lt hedge
  have hdelay : delay rate (counts - ticks rate elapsed) = delay rate counts - elapsed := by
    conv_lhs => rw [delay]
    rw [hrest, mul_add_div hrate, div_eq_of_lt hedge, Nat.add_zero]
  omega

def OnCount (rate elapsed counts : ℕ) : Prop := counts * second % rate ≤ rate * elapsed % second
deriving Decidable

lemma WholeDelay.onCount (h : WholeDelay rate counts) (elapsed : ℕ) :
    OnCount rate elapsed counts := by
  rw [OnCount, mod_eq_zero_of_dvd h]
  exact Nat.zero_le _

lemma ticks_add_delay_le (rate elapsed counts : ℕ) :
    ticks rate (elapsed + delay rate counts) ≤ ticks rate elapsed + counts := by
  have hdelay := mul_delay_le rate counts
  have hlast := lt_div_mul_add (a := rate * elapsed) second_pos
  rw [← Nat.lt_succ_iff, ticks_lt_iff, Nat.mul_add]
  rw [ticks, Nat.succ_mul, Nat.add_mul]
  omega

lemma le_ticks_add_delay_iff (rate elapsed counts : ℕ) :
    ticks rate elapsed + counts ≤ ticks rate (elapsed + delay rate counts) ↔
      OnCount rate elapsed counts := by
  have hdelay : rate * delay rate counts + counts * second % rate = counts * second :=
    div_add_mod (counts * second) rate
  have hticks : second * ticks rate elapsed + rate * elapsed % second = rate * elapsed :=
    div_add_mod (rate * elapsed) second
  rw [le_ticks_iff, OnCount, Nat.add_mul, Nat.mul_add, Nat.mul_comm (ticks rate elapsed)]
  omega

structure DelayFits (rate counts : ℕ) : Prop where
  product : counts * second < 2 ^ 64
  signed : delay rate counts < 2 ^ 63

instance (rate counts : ℕ) : Decidable (DelayFits rate counts) :=
  decidable_of_iff (counts * second < 2 ^ 64 ∧ delay rate counts < 2 ^ 63)
    ⟨fun h => ⟨h.1, h.2⟩, fun h => ⟨h.product, h.signed⟩⟩

lemma toNat_udiv? (h : udiv? (clocks * 1000000000) (hz.setWidth 64) = some ns) :
    ns.toNat = clocks.toNat * second % 2 ^ 64 / hz.toNat := by
  have hwide : (hz.setWidth 64).toNat = hz.toNat := by
    rw [toNat_setWidth]
    exact mod_eq_of_lt (hz.isLt.trans (by decide))
  unfold udiv? at h
  split at h
  · exact absurd h (Option.some_ne_none _).symm
  cases h
  rw [toNat_udiv, hwide, toNat_mul]
  rfl

lemma udiv?_delay (hhz : hz ≠ 0) (hfits : DelayFits hz.toNat clocks.toNat) :
    ∃ ns, udiv? (clocks * 1000000000) (hz.setWidth 64) = some ns ∧
      ns.toNat = delay hz.toNat clocks.toNat ∧ ns.toInt = delay hz.toNat clocks.toNat := by
  have hdiv := udiv?_of_ne (setWidth_ne_zero hhz) (clocks * 1000000000)
  have hns := toNat_udiv? hdiv
  rw [mod_eq_of_lt hfits.product] at hns
  refine ⟨_, hdiv, hns, ?_⟩
  have hsigned := hfits.signed
  rw [delay] at hsigned
  rw [toInt_eq_toNat_of_lt (by omega), hns]
  rfl

lemma ticks_deadline (hhz : 1 < hz.toNat) (elapsed : ℕ)
    (h : udiv? (clocks * 1000000000) (hz.setWidth 64) = some ns) : 0 ≤ ns.toInt ∧
      ticks hz.toNat (elapsed + ns.toInt.toNat) ≤ ticks hz.toNat elapsed + clocks.toNat ∧
      (ticks hz.toNat elapsed + clocks.toNat ≤ ticks hz.toNat (elapsed + ns.toInt.toNat) ↔
      clocks.toNat * second < 2 ^ 64 ∧ OnCount hz.toNat elapsed clocks.toNat) := by
  have hns := toNat_udiv? h
  have hhalf : ns.toNat < 2 ^ 63 := by
    rw [hns, Nat.div_lt_iff_lt_mul (by omega)]
    omega
  have hint : ns.toInt = ns.toNat := toInt_eq_toNat_of_lt (by omega)
  rw [hint, Int.toNat_natCast]
  refine ⟨Int.natCast_nonneg _, ?_⟩
  by_cases hprod : clocks.toNat * second < 2 ^ 64
  · have hdelay : ns.toNat = delay hz.toNat clocks.toNat := by
      rw [hns, mod_eq_of_lt hprod]
      rfl
    rw [hdelay, le_ticks_add_delay_iff]
    exact ⟨ticks_add_delay_le _ _ _, by simp only [hprod, true_and]⟩
  -- what is left of the product is less by more than a tick
  have hshort : hz.toNat * ns.toNat + 2 ^ 64 ≤ clocks.toNat * second := by
    have hmul := mul_div_le (clocks.toNat * second % 2 ^ 64) hz.toNat
    rw [← hns] at hmul
    omega
  have hearly : ticks hz.toNat (elapsed + ns.toNat) < ticks hz.toNat elapsed + clocks.toNat := by
    have hlast := lt_div_mul_add (a := hz.toNat * elapsed) second_pos
    have hsecond : second < 2 ^ 64 := by decide
    rw [ticks_lt_iff, Nat.mul_add, Nat.add_mul, ticks]
    omega
  exact ⟨hearly.le, iff_of_false hearly.not_ge fun hfits => hprod hfits.1⟩

lemma foldlM_soonest {α : Type*} {g : DoubleWord → α → Option DoubleWord}
    {W : α → Prop} {d : α → ℕ} (hskip : ∀ best a, ¬ W a → g best a = some best)
    (htake : ∀ best a, W a → ∃ ns : DoubleWord, ns.toNat = d a ∧
      g best a = some (if ns < best then ns else best)) (best : DoubleWord) (as : List α) :
    ∃ last, as.foldlM g best = some last ∧ last ≤ best ∧ (∀ a ∈ as, W a → last.toNat ≤ d a) ∧
      (last = best ∨ ∃ a ∈ as, W a ∧ last.toNat = d a) := by
  induction as generalizing best with
  | nil => exact ⟨best, rfl, BitVec.le_refl best, by simp, .inl rfl⟩
  | cons a rest ih =>
    by_cases ha : W a
    · obtain ⟨ns, hns, hnearer⟩ := htake best a ha
      obtain ⟨last, hlast, hle, hall, hsome⟩ := ih (if ns < best then ns else best)
      have hmin : (if ns < best then ns else best).toNat = min ns.toNat best.toNat := by
        split <;> rename_i h <;> rw [lt_def] at h <;> omega
      rw [le_def, hmin] at hle
      refine ⟨last, ?_, BitVec.le_def.mpr (by omega), ?_, ?_⟩
      · rw [foldlM_cons, hnearer]
        exact hlast
      · rw [forall_mem_cons]
        exact ⟨fun _ => by omega, hall⟩
      rcases hsome with hsame | ⟨b, hb, hwaits, heq⟩
      · split at hsame
        · exact .inr ⟨a, mem_cons_self, ha, by rw [hsame, hns]⟩
        · exact .inl hsame
      · exact .inr ⟨b, mem_cons_of_mem _ hb, hwaits, heq⟩
    obtain ⟨last, hlast, hle, hall, hsome⟩ := ih best
    refine ⟨last, ?_, hle, ?_, ?_⟩
    · rw [foldlM_cons, hskip best a ha]
      exact hlast
    · rw [forall_mem_cons]
      exact ⟨fun h => absurd h ha, hall⟩
    rcases hsome with hsame | ⟨b, hb, hwaits, heq⟩
    · exact .inl hsame
    · exact .inr ⟨b, mem_cons_of_mem _ hb, hwaits, heq⟩

lemma delay_mono {rate b : ℕ} (h : a ≤ b) : delay rate a ≤ delay rate b :=
  Nat.div_le_div_right (Nat.mul_le_mul_right _ h)

end RatedCounters
