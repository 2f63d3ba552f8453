import Mcxn947.RatedCounters
import Mcxn947.TimerDivisions

/-!
# Counts and clocks of the timers

The OS event timer, the counter/timer and the multi-rate timer recompute their count at
every read as the time since an old base times the clock that runs now, in 64 bits.
-/

namespace Mcxn947

open MachineWords EventRuns RatedCounters BitVec

def ProductFits (rate : ℕ) (elapsed : ℤ) : Prop := rate * elapsed.toNat < 2 ^ 64

lemma ProductFits.mono {rate : ℕ} {a b : ℤ} (h : ProductFits rate b) (hle : a ≤ b) :
    ProductFits rate a :=
  (Nat.mul_le_mul_left rate (Int.toNat_le_toNat hle)).trans_lt h

structure Accountable {ε : Type*} (newRate : ε → Option ℕ) (base : ℤ) (rate : ℕ) (t₁ : ℤ)
    (between : List (ℤ × ε)) (t₂ : ℤ) : Prop where
  steady : Steady newRate base rate between
  fits₁ : ProductFits rate (t₁ - base)
  fits₂ : ProductFits (finalRate newRate rate between) (t₂ - base)

lemma toNat_clockTicks {hz : Word} {elapsed : ℤ} (hnonneg : 0 ≤ elapsed)
    (hfits : ProductFits hz.toNat elapsed) :
    (BitVec.ofInt 64 elapsed * hz.setWidth 64 / 1000000000).toNat =
      ticks hz.toNat elapsed.toNat := by
  have helapsed : (BitVec.ofInt 64 elapsed).toNat = elapsed.toNat % 2 ^ 64 := by
    rw [toNat_ofInt]
    omega
  have hhz : (hz.setWidth 64).toNat = hz.toNat := by
    rw [toNat_setWidth]
    exact Nat.mod_eq_of_lt (hz.isLt.trans (by decide))
  have hprod : (BitVec.ofInt 64 elapsed * hz.setWidth 64).toNat = hz.toNat * elapsed.toNat := by
    rw [toNat_mul, helapsed, hhz, Nat.mod_mul_mod, Nat.mul_comm]
    exact Nat.mod_eq_of_lt hfits
  rw [toNat_udiv, hprod]
  rfl

namespace Ostimer

open BitVec Nat Option OstimerState

variable (n : DoubleWord) {s s' : OstimerState}

lemma binToGray_shift (k : ℕ) : binToGray n >>> k = (n >>> k) ^^^ (n >>> (k + 1)) := by
  rw [binToGray, BitVec.ushiftRight_xor_distrib, ← BitVec.shiftRight_add, Nat.add_comm 1 k]

lemma eq_zero_of_shift_eq {n : DoubleWord} (h : n = n >>> 1) : n = 0 := by
  apply eq_of_toNat_eq
  have := congrArg BitVec.toNat h
  rw [toNat_ushiftRight, shiftRight_eq_div_pow] at this
  simp only [ofNat_eq_ofNat, toNat_ofNat]
  omega

variable {k off : ℕ} {now t₀ : ℤ} {v : Word} {e : Event} {past : List (ℤ × Event)}
  {s₀ : OstimerState}

lemma grayLoop_binToGray {fuel : ℕ} (h : 64 ≤ k + fuel) :
    grayLoop fuel (binToGray n >>> k) (n ^^^ (n >>> (k + 1))) = n := by
  induction fuel generalizing k with
  | zero =>
    have hzero : n >>> (k + 1) = 0 := ushiftRight_eq_zero (by omega)
    simp [grayLoop, hzero]
  | succ fuel ih =>
    have hshift : binToGray n >>> k >>> 1 = (n >>> (k + 1)) ^^^ (n >>> (k + 2)) := by
      rw [← BitVec.shiftRight_add, binToGray_shift]
    rw [grayLoop]
    split
    next hstop =>
      rw [hshift] at hstop
      have hsame : n >>> (k + 1) = n >>> (k + 1) >>> 1 := by exact BitVec.xor_eq_zero_iff.mp hstop
      rw [eq_zero_of_shift_eq hsame]
      simp
    have hacc : n ^^^ n >>> (k + 1) ^^^ (n >>> (k + 1) ^^^ n >>> (k + 2)) =
        n ^^^ n >>> (k + 2) := by
      rw [BitVec.xor_assoc, ← BitVec.xor_assoc (n >>> (k + 1)), BitVec.xor_self, BitVec.zero_xor]
    rw [hshift, hacc, ← binToGray_shift]
    exact ih (by omega)

lemma grayToBin_binToGray : grayToBin (binToGray n) = n := by
  have h : grayLoop 64 (binToGray n >>> 0) (n ^^^ n >>> (0 + 1)) = n := grayLoop_binToGray n le_rfl
  simpa [binToGray, grayToBin] using h

def evtimer (s : OstimerState) (now : ℤ) : ℕ :=
  (grayToBin (mcxnOstimerRead s 0x04 now <<< 32 ||| mcxnOstimerRead s 0x00 now)).toNat

lemma xor_shift_lt {b g : DoubleWord} (hb : b.toNat < 2 ^ k) (hg : g.toNat < 2 ^ k) :
    (g >>> 1).toNat < 2 ^ k ∧ (b ^^^ g >>> 1).toNat < 2 ^ k := by
  have hshift : (g >>> 1).toNat < 2 ^ k := by
    rw [toNat_ushiftRight]
    exact (shiftRight_le _ _).trans_lt hg
  rw [toNat_xor]
  exact ⟨hshift, xor_lt_two_pow hb hshift⟩

lemma toNat_halves : (n &&& 0xFFFFFFFF).toNat = n.toNat % 2 ^ 32 ∧
    (n >>> 32 &&& 0x3FF).toNat = n.toNat / 2 ^ 32 % 2 ^ 10 := by
  rw [toNat_and, toNat_and, toNat_ushiftRight, shiftRight_eq_div_pow]
  exact ⟨and_two_pow_sub_one_eq_mod _ 32, and_two_pow_sub_one_eq_mod _ 10⟩

lemma binToGray_halves {n : DoubleWord} (h : n.toNat < 2 ^ 42) :
    ((binToGray n >>> 32) &&& 0x3FF) <<< 32 ||| (binToGray n &&& 0xFFFFFFFF) = binToGray n := by
  have hgray : (binToGray n).toNat < 2 ^ 42 := (xor_shift_lt h h).2
  obtain ⟨hlow, hhigh⟩ := toNat_halves (binToGray n)
  apply BitVec.eq_of_toNat_eq
  rw [BitVec.toNat_or, BitVec.toNat_shiftLeft, hlow, hhigh, Nat.shiftLeft_eq,
    Nat.mod_eq_of_lt (by omega), ← Nat.shiftLeft_eq,
    ← Nat.shiftLeft_add_eq_or_of_lt (Nat.mod_lt _ (by decide)), Nat.shiftLeft_eq]
  omega

lemma evtimer_eq (h : (ostimerCount s now).toNat < 2 ^ 42) :
    evtimer s now = (ostimerCount s now).toNat := by
  have hread : mcxnOstimerRead s 0x04 now <<< 32 ||| mcxnOstimerRead s 0x00 now =
      binToGray (ostimerCount s now) := binToGray_halves h
  rw [evtimer, hread, grayToBin_binToGray]

def Event.happens : Event → ℤ → Prop
  | .read _ now, time => now = time
  | .write _ _ now, time => now = time
  | .reset now, time => now = time
  | _, _ => True

def Event.newRate : Event → Option ℕ
  | .clock hz => some hz.toNat
  | _ => none

def Quiet (_ : OstimerState) : Event → Prop
  | .write _ _ _ => False
  | .reset _ => False
  | _ => True

def Based (s : OstimerState) (now : ℤ) : Prop := s.baseCount = 0 ∧ s.baseNs ≤ now

lemma ostimerReschedule_eq
    (h : ostimerReschedule s now = some s') : s' = { s with timer := s'.timer } := by
  unfold ostimerReschedule at h
  extract_lets cur at h
  split at h
  · cases h
    rfl
  obtain ⟨ns, -, h⟩ := bind_eq_some_iff.mp h
  cases h
  rfl

lemma write_keeps (h : mcxnOstimerWrite s off v now = some s') :
    s'.clkHz = s.clkHz ∧ s'.baseCount = s.baseCount ∧ s'.baseNs = s.baseNs := by
  unfold mcxnOstimerWrite at h
  cases harm : writeArming s off v with
  | none =>
    rw [harm] at h
    cases h
    exact ⟨rfl, rfl, rfl⟩
  | some armed =>
    rw [harm] at h
    have hkeeps := writeArming_keeps harm
    rw [ostimerReschedule_eq h]
    exact hkeeps

lemma Based.next {time : ℤ} (he : e.happens time)
    (hstep : step s e = some s') (h : Based s time) : Based s' time := by
  cases e with
  | write off v now =>
    obtain ⟨-, hcount, hns⟩ := write_keeps hstep
    exact ⟨hcount.trans h.1, hns.trans_le h.2⟩
  | reset now =>
    cases hstep
    obtain rfl : now = time := he
    exact ⟨rfl, le_rfl⟩
  | _ =>
    cases hstep
    exact h

lemma Based.reached {t : ℤ}
    (h : Leads step Event.happens (mcxnOstimerReset s₀ t₀) t₀ past s t) : Based s t :=
  h.invariant (fun _ _ _ hle hbased => ⟨hbased.1, hbased.2.trans hle⟩)
    (fun _ _ _ _ he hstep hbased => hbased.next he hstep) ⟨rfl, le_rfl⟩

lemma Quiet.keeps (he : Quiet s e) (hstep : step s e = some s') :
    (s'.baseCount = s.baseCount ∧ s'.baseNs = s.baseNs) ∧
      s'.clkHz.toNat = e.newRate.getD s.clkHz.toNat := by
  cases e with
  | write | reset => exact he.elim
  | _ =>
    cases hstep
    exact ⟨⟨rfl, rfl⟩, rfl⟩

def OstimerState.counted (s : OstimerState) (now : ℤ) : ℕ :=
  ticks s.clkHz.toNat (now - s.baseNs).toNat

lemma toNat_ostimerCount (hbased : Based s now)
    (hfits : ProductFits s.clkHz.toNat (now - s.baseNs)) :
    (ostimerCount s now).toNat = s.counted now := by
  unfold ostimerCount counted
  rw [hbased.1]
  split
  · rw [← toNat_clockTicks (by have := hbased.2; omega) hfits]
    simp
  · have hzero : (now - s.baseNs).toNat = 0 := by omega
    simp [hzero, ticks]

lemma evtimer_eq_ticks (hbased : Based s now) (hfits : ProductFits s.clkHz.toNat (now - s.baseNs)) :
    evtimer s now = ticks s.clkHz.toNat (now - s.baseNs).toNat ∧ evtimer s now < 2 ^ 42 := by
  have hcount := toNat_ostimerCount hbased hfits
  have hlt : s.counted now < 2 ^ 42 := by
    unfold counted ticks second
    unfold ProductFits at hfits
    omega
  have hevtimer := evtimer_eq (hcount ▸ hlt)
  rw [hevtimer, hcount]
  exact ⟨rfl, hlt⟩

def CountsClock (s₁ : OstimerState) (t₁ : ℤ) (between : List (ℤ × Event)) (s₂ : OstimerState)
    (t₂ : ℤ) : Prop :=
  ∃ counted, FollowsRate Event.newRate s₁.clkHz.toNat t₁ between t₂ counted ∧
    evtimer s₂ t₂ = (evtimer s₁ t₁ + counted) % 2 ^ 42

lemma countsClock {s₁ s₂ : OstimerState} {t₁ t₂ : ℤ} {between : List (ℤ × Event)}
    (hpast : Leads step Event.happens (mcxnOstimerReset s₀ t₀) t₀ past s₁ t₁)
    (hbetween : Leads step Event.happens s₁ t₁ between s₂ t₂)
    (hquiet : AdmitsPartial step Quiet s₁ (between.map Prod.snd))
    (haccount : Accountable Event.newRate s₁.baseNs s₁.clkHz.toNat t₁ between t₂) :
    CountsClock s₁ t₁ between s₂ t₂ := by
  obtain ⟨hsteady, hfits₁, hfits₂⟩ := haccount
  have hbased₁ := Based.reached hpast
  obtain ⟨hkept, hrate⟩ : (s₂.baseCount, s₂.baseNs) = (s₁.baseCount, s₁.baseNs) ∧
      s₂.clkHz.toNat = finalRate Event.newRate s₁.clkHz.toNat between := by
    refine runPartial_quiet Event.newRate (fun s => (s.baseCount, s.baseNs))
      (fun s => s.clkHz.toNat) ?_ rfl hquiet hbetween.run
    intro s e s' hs he hstep
    obtain ⟨⟨hcount, hns⟩, hclk⟩ := Quiet.keeps he hstep
    exact ⟨by rw [hcount, hns, hs], hclk⟩
  obtain ⟨hcount, hns⟩ := Prod.mk.inj hkept
  have hbased₂ : Based s₂ t₂ :=
    ⟨hcount.trans hbased₁.1, hns.trans_le (hbased₁.2.trans hbetween.order.le)⟩
  obtain ⟨hread₁, -⟩ := evtimer_eq_ticks hbased₁ hfits₁
  obtain ⟨hread₂, hlt₂⟩ := evtimer_eq_ticks hbased₂ (by rw [hrate, hns]; exact hfits₂)
  have hmono := hsteady.mono hbased₁.2 hbetween.order
  refine ⟨_, hsteady.followsRate hbased₁.2 hbetween.order, ?_⟩
  rw [hread₂, hrate, hns] at hlt₂ ⊢
  rw [hread₁, Nat.add_sub_cancel' hmono, Nat.mod_eq_of_lt hlt₂]

end Ostimer

namespace Ctimer

open BitVec Nat Option

def Event.happens : Event → ℤ → Prop
  | .read _ now, time => now = time
  | .write _ _ now, time => now = time
  | .tick now, time => now = time
  | .capture _ now, time => now = time
  | _, _ => True

def Event.newRate : Event → Option ℕ
  | .clock hz => some hz.toNat
  | _ => none

def MatchActive (s : CtimerState) : Prop := ∃ n, anyBit s.mcr (mcrAny n) = true

def Quiet (s : CtimerState) : Event → Prop
  | .write _ _ _ => False
  | .reset => False
  | .tick _ => s.timer.isSome
  | _ => True

structure Based (s : CtimerState) (now : ℤ) : Prop where
  nonneg : 0 ≤ now
  base : s.baseNs ≤ now
  armed : s.timer.isSome → MatchActive s

lemma foldlM_nearerMatch_idle {s : CtimerState} (h : ¬ MatchActive s) (best : DoubleWord)
    (ns : List Match) : ns.foldlM (nearerMatch s) best = some best := by
  induction ns with
  | nil => rfl
  | cons n rest ih =>
    have hidle : anyBit s.mcr (mcrAny n) = false := by
      rw [← Bool.not_eq_true]
      exact fun hn => h ⟨n, hn⟩
    rw [List.foldlM_cons, nearerMatch, if_pos (by rw [hidle]; rfl)]
    exact ih

variable {s s' : CtimerState} {now : ℤ}

lemma reschedule_eq (h : ctimerReschedule s now = some s') :
    s' = { s with timer := s'.timer } ∧ (s'.timer.isSome → MatchActive s) := by
  unfold ctimerReschedule at h
  split at h
  · cases h
    exact ⟨rfl, by simp⟩
  obtain ⟨best, hbest, h⟩ := bind_eq_some_iff.mp h
  cases h
  refine ⟨rfl, ?_⟩
  intro harmed
  by_contra hidle
  rw [foldlM_nearerMatch_idle hidle] at hbest
  cases hbest
  simp at harmed

lemma sync_base (h : ctimerSync s now = some s') : s'.baseNs = now := by
  obtain ⟨⟨tc, pc⟩, -, h⟩ := bind_eq_some_iff.mp h
  cases h
  rfl

lemma Based.rescheduled (hnonneg : 0 ≤ now)
    (hbase : s.baseNs = now) (h : ctimerReschedule s now = some s') : Based s' now := by
  obtain ⟨hs', harmed⟩ := reschedule_eq h
  have hmcr : s'.mcr = s.mcr := by rw [hs']
  have hns : s'.baseNs = s.baseNs := by rw [hs']
  refine ⟨hnonneg, (hns.trans hbase).le, ?_⟩
  intro hsome
  rw [MatchActive, hmcr]
  exact harmed hsome

lemma setCountReg_baseNs (s : CtimerState) (r : CountReg) (v : Word) :
    (setCountReg s r v).baseNs = s.baseNs := by
  cases r with
  | tcr =>
    simp only [setCountReg]
    split <;> rfl
  | _ => rfl

lemma writePlain_keeps (s : CtimerState) (off : ℕ) (v : Word) :
    (writePlain s off v).baseNs = s.baseNs ∧ (writePlain s off v).timer = s.timer ∧
      (writePlain s off v).mcr = s.mcr := by
  unfold writePlain
  split_ifs <;> exact ⟨rfl, rfl, rfl⟩

lemma capture0_keeps {level : Bool} (h : ctimerCapture0 s level now = some s') :
    (s'.baseNs, s'.timer, s'.mcr, s'.tc, s'.pc, s'.pr, s'.tcr, s'.clkHz) =
      (s.baseNs, s.timer, s.mcr, s.tc, s.pc, s.pr, s.tcr, s.clkHz) := by
  unfold ctimerCapture0 at h
  split at h
  · obtain ⟨⟨tc, pc⟩, -, h⟩ := bind_eq_some_iff.mp h
    cases h
    split <;> rfl
  · cases h
    rfl

variable {e : Event} {past : List (ℤ × Event)} {s₀ : CtimerState} {t₀ : ℤ}

lemma Based.next {time : ℤ} (he : e.happens time)
    (hstep : step s e = some s') (h : Based s time) : Based s' time := by
  cases e with
  | clock hz =>
    cases hstep
    exact ⟨h.nonneg, h.base, h.armed⟩
  | read off now =>
    obtain ⟨_, -, rfl⟩ := map_eq_some_iff.mp hstep
    exact h
  | write off v now =>
    obtain rfl : now = time := he
    change ctimerWrite s off v now = some s' at hstep
    unfold ctimerWrite at hstep
    split at hstep
    · obtain ⟨synced, hsync, hstep⟩ := bind_eq_some_iff.mp hstep
      refine Based.rescheduled h.nonneg ?_ hstep
      rw [setCountReg_baseNs, sync_base hsync]
    cases hstep
    obtain ⟨hbase, htimer, hmcr⟩ := writePlain_keeps s off v
    refine ⟨h.nonneg, hbase.trans_le h.base, ?_⟩
    rw [htimer, MatchActive, hmcr]
    exact h.armed
  | tick now =>
    obtain rfl : now = time := he
    obtain ⟨synced, hsync, hstep⟩ := bind_eq_some_iff.mp hstep
    have hbase := sync_base hsync
    refine Based.rescheduled h.nonneg ?_ hstep
    cases nearestMatch synced with
    | none => exact hbase
    | some fire => rfl
  | capture level now =>
    have hkeeps := capture0_keeps hstep
    simp only [Prod.mk.injEq] at hkeeps
    obtain ⟨hbase, htimer, hmcr, -⟩ := hkeeps
    refine ⟨h.nonneg, hbase.trans_le h.base, ?_⟩
    rw [htimer, MatchActive, hmcr]
    exact h.armed
  | reset =>
    cases hstep
    exact ⟨h.nonneg, h.nonneg, by simp [mcxnCtimerReset]⟩

lemma Based.reached {t : ℤ} (ht₀ : 0 ≤ t₀)
    (h : Leads step Event.happens (mcxnCtimerReset s₀) t₀ past s t) : Based s t := by
  refine h.invariant ?_ (fun _ _ _ _ he hstep hbased => hbased.next he hstep) ?_
  · intro s time later hle hbased
    exact ⟨hbased.nonneg.trans hle, hbased.base.trans hle, hbased.armed⟩
  · exact ⟨ht₀, ht₀, by simp [mcxnCtimerReset]⟩

def CtimerState.div (s : CtimerState) : ℕ := s.pr.toNat + 1

lemma div_pos (s : CtimerState) : 0 < s.div := succ_pos _

lemma div_lt (hpr : s.pr ≠ 0xFFFFFFFF) : s.div < 2 ^ 32 := by
  have hne : s.pr.toNat ≠ 0xFFFFFFFF := fun h => hpr (eq_of_toNat_eq h)
  rw [CtimerState.div]
  omega

def advanced (div : ℕ) (tc pc : Word) (k : ℕ) : Word × Word :=
  (tc + BitVec.ofNat 32 ((pc.toNat + k) / div), BitVec.ofNat 32 ((pc.toNat + k) % div))

lemma toNat_advanced_snd {div : ℕ} (hpos : 0 < div) (hlt : div < 2 ^ 32) (tc pc : Word)
    (k : ℕ) : (advanced div tc pc k).2.toNat = (pc.toNat + k) % div := by
  exact mod_eq_of_lt ((mod_lt _ hpos).trans hlt)

lemma peek_advanced (hrun : ctimerRunning s)
    (hbase : s.baseNs < now) (hpr : s.pr ≠ 0xFFFFFFFF)
    (hfits : ProductFits s.clkHz.toNat (now - s.baseNs)) : ctimerPeek s now =
      some (advanced s.div s.tc s.pc (ticks s.clkHz.toNat (now - s.baseNs).toNat)) := by
  have hlive : ¬ (!ctimerRunning s ∨ now ≤ s.baseNs) := by
    rw [hrun]
    simpa using hbase
  have hticks := toNat_clockTicks (by omega : 0 ≤ now - s.baseNs) hfits
  rw [ctimerPeek, if_neg hlive]
  dsimp only
  set pclk : DoubleWord := BitVec.ofInt 64 (now - s.baseNs) * s.clkHz.setWidth 64 / 1000000000
  have hprNat := div_lt hpr
  have hdiv : ((s.pr + 1).setWidth 64).toNat = s.div := by
    rw [CtimerState.div] at hprNat ⊢
    rw [toNat_setWidth, toNat_add]
    simp only [ofNat_eq_ofNat, toNat_ofNat]
    omega
  have hne : (s.pr + 1).setWidth 64 ≠ 0 := by
    intro h
    have hzero := congrArg BitVec.toNat h
    rw [hdiv] at hzero
    exact absurd hzero (Nat.succ_ne_zero _)
  have htotal : (s.pc.setWidth 64 + pclk).toNat =
      s.pc.toNat + ticks s.clkHz.toNat (now - s.baseNs).toNat := by
    have hlt : ticks s.clkHz.toNat (now - s.baseNs).toNat < 2 ^ 42 := by
      unfold ticks second
      unfold ProductFits at hfits
      omega
    rw [toNat_add, toNat_setWidth, hticks]
    omega
  rw [udiv?_of_ne hne, umod?_of_ne hne]
  refine congrArg some (Prod.ext ?_ ?_)
  · refine congrArg (s.tc + ·) (eq_of_toNat_eq ?_)
    rw [toNat_setWidth, toNat_udiv, htotal, hdiv, toNat_ofNat]
  · apply eq_of_toNat_eq
    rw [toNat_setWidth, toNat_umod, htotal, hdiv, advanced, toNat_ofNat]

def position (pr tc pc : Word) : ℕ := tc.toNat * (pr.toNat + 1) + pc.toNat

lemma peek_position (hrun : ctimerRunning s)
    (hbase : s.baseNs ≤ now) (hpr : s.pr ≠ 0xFFFFFFFF)
    (hfits : ProductFits s.clkHz.toNat (now - s.baseNs)) :
    ∃ tc pc, ctimerPeek s now = some (tc, pc) ∧ position s.pr tc pc ≡
      position s.pr s.tc s.pc + ticks s.clkHz.toNat (now - s.baseNs).toNat
      [MOD 2 ^ 32 * (s.pr.toNat + 1)] := by
  rcases hbase.eq_or_lt with hnow | hnow
  · refine ⟨s.tc, s.pc, by rw [ctimerPeek, if_pos (.inr hnow.ge)], ?_⟩
    simp [← hnow, ticks, Nat.ModEq.refl]
  set k := ticks s.clkHz.toNat (now - s.baseNs).toNat
  refine ⟨(advanced s.div s.tc s.pc k).1, (advanced s.div s.tc s.pc k).2,
    peek_advanced hrun hnow hpr hfits, ?_⟩
  have hquot : (advanced s.div s.tc s.pc k).1.toNat ≡
      s.tc.toNat + (s.pc.toNat + k) / s.div [MOD 2 ^ 32] := by
    exact (mod_modEq _ _).trans (Nat.ModEq.add_left _ (mod_modEq _ _))
  have hrem := toNat_advanced_snd (div_pos s) (div_lt hpr) s.tc s.pc k
  rw [position, position, hrem]
  refine ((hquot.mul_right' s.div).add_right _).trans ?_
  have hsplit : (s.tc.toNat + (s.pc.toNat + k) / s.div) * s.div + (s.pc.toNat + k) % s.div =
      s.tc.toNat * s.div + s.pc.toNat + k := by
    rw [Nat.add_mul, Nat.add_assoc, Nat.div_add_mod', Nat.add_assoc]
  rw [hsplit]
  rfl

def CountsClock (s₁ : CtimerState) (t₁ : ℤ) (between : List (ℤ × Event)) (s₂ : CtimerState)
    (t₂ : ℤ) : Prop :=
  ∃ counted, FollowsRate Event.newRate s₁.clkHz.toNat t₁ between t₂ counted ∧
    ∃ tc₁ pc₁ tc₂ pc₂, ctimerRead s₁ 0x08 t₁ = some tc₁ ∧ ctimerRead s₁ 0x10 t₁ = some pc₁ ∧
      ctimerRead s₂ 0x08 t₂ = some tc₂ ∧ ctimerRead s₂ 0x10 t₂ = some pc₂ ∧
      position s₁.pr tc₂ pc₂ ≡ position s₁.pr tc₁ pc₁ + counted [MOD 2 ^ 32 * (s₁.pr.toNat + 1)]

lemma Quiet.keeps (htimer : s.timer = none) (he : Quiet s e) (hstep : step s e = some s') :
    (s'.baseNs, s'.timer, s'.mcr, s'.tc, s'.pc, s'.pr, s'.tcr) =
      (s.baseNs, s.timer, s.mcr, s.tc, s.pc, s.pr, s.tcr) ∧
      s'.clkHz.toNat = e.newRate.getD s.clkHz.toNat := by
  cases e with
  | write | reset => exact he.elim
  | tick now =>
    rw [Quiet, htimer] at he
    simp at he
  | clock hz =>
    cases hstep
    exact ⟨rfl, rfl⟩
  | read off now =>
    obtain ⟨_, -, rfl⟩ := map_eq_some_iff.mp hstep
    exact ⟨rfl, rfl⟩
  | capture level now =>
    have hkeeps := capture0_keeps hstep
    simp only [Prod.mk.injEq] at hkeeps ⊢
    obtain ⟨hbase, htimer, hmcr, htc, hpc, hpr, htcr, hclk⟩ := hkeeps
    exact ⟨⟨hbase, htimer, hmcr, htc, hpc, hpr, htcr⟩, by rw [hclk]; rfl⟩

lemma countsClock {s₁ s₂ : CtimerState} {t₁ t₂ : ℤ} {between : List (ℤ × Event)}
    (ht₀ : 0 ≤ t₀) (hpast : Leads step Event.happens (mcxnCtimerReset s₀) t₀ past s₁ t₁)
    (hrun : ctimerRunning s₁) (hidle : ¬ MatchActive s₁)
    (hbetween : Leads step Event.happens s₁ t₁ between s₂ t₂)
    (hquiet : AdmitsPartial step Quiet s₁ (between.map Prod.snd)) (hpr : s₁.pr ≠ 0xFFFFFFFF)
    (haccount : Accountable Event.newRate s₁.baseNs s₁.clkHz.toNat t₁ between t₂) :
    CountsClock s₁ t₁ between s₂ t₂ := by
  obtain ⟨hsteady, hfits₁, hfits₂⟩ := haccount
  have hbased := Based.reached ht₀ hpast
  have htimer : s₁.timer = none := by
    rw [← Option.not_isSome_iff_eq_none]
    exact fun harmed => hidle (hbased.armed harmed)
  obtain ⟨hkept, hrate⟩ : (s₂.baseNs, s₂.timer, s₂.mcr, s₂.tc, s₂.pc, s₂.pr, s₂.tcr) =
        (s₁.baseNs, s₁.timer, s₁.mcr, s₁.tc, s₁.pc, s₁.pr, s₁.tcr) ∧
      s₂.clkHz.toNat = finalRate Event.newRate s₁.clkHz.toNat between := by
    refine runPartial_quiet Event.newRate
      (fun s => (s.baseNs, s.timer, s.mcr, s.tc, s.pc, s.pr, s.tcr))
      (fun s => s.clkHz.toNat) ?_ rfl hquiet hbetween.run
    intro s e s' hs he hstep
    have hnone : s.timer = none := by
      simp only [Prod.mk.injEq] at hs
      exact hs.2.1.trans htimer
    obtain ⟨hkeep, hclk⟩ := Quiet.keeps hnone he hstep
    exact ⟨hkeep.trans hs, hclk⟩
  simp only [Prod.mk.injEq] at hkept
  obtain ⟨hns, -, -, htc, hpc, hpr₂, htcr⟩ := hkept
  have hlater := hbased.base.trans hbetween.order.le
  obtain ⟨tc₁, pc₁, hpeek₁, hpos₁⟩ := peek_position hrun hbased.base hpr hfits₁
  have hrunning₂ : ctimerRunning s₂ := by rw [ctimerRunning, htcr]; exact hrun
  have hbase₂ : s₂.baseNs ≤ t₂ := hns.trans_le hlater
  obtain ⟨tc₂, pc₂, hpeek₂, hpos₂⟩ := peek_position hrunning₂ hbase₂
    (by rw [hpr₂]; exact hpr) (by rw [hrate, hns]; exact hfits₂)
  have hmono := hsteady.mono hbased.base hbetween.order
  refine ⟨_, hsteady.followsRate hbased.base hbetween.order, tc₁, pc₁, tc₂, pc₂, ?_⟩
  simp only [ctimerRead, hpeek₁, hpeek₂]
  refine ⟨rfl, rfl, rfl, rfl, ?_⟩
  rw [hpr₂, htc, hpc, hrate, hns] at hpos₂
  refine hpos₂.trans (Nat.ModEq.trans ?_ (hpos₁.symm.add_right _))
  rw [Nat.add_assoc, Nat.add_sub_cancel' hmono]

end Ctimer

namespace Mrt

open BitVec Option

def Event.happens : Event → ℤ → Prop
  | .read _ now, time => now = time
  | .write _ _ now, time => now = time
  | .tick now, time => now = time
  | _, _ => True

def Event.newRate : Event → Option ℕ
  | .clock hz => some hz.toNat
  | _ => none

def Quiet (n : Channel) (s : MrtState) : Event → Prop
  | .write _ _ _ => False
  | .reset => False
  | .tick now => mrtPeek s n now ≠ 0
  | _ => True

def Based (s : MrtState) (now : ℤ) : Prop := 0 ≤ now ∧ ∀ n, s.baseNs n ≤ now

variable {s s' : MrtState} {n : Channel} {now : ℤ}

lemma mrtReschedule_eq (h : mrtReschedule s now = some s') : s' = { s with timer := s'.timer } := by
  obtain ⟨best, -, h⟩ := bind_eq_some_iff.mp h
  cases h
  rfl

lemma Based.rescheduled (h : Based s now) (hs' : mrtReschedule s now = some s') : Based s' now := by
  rw [mrtReschedule_eq hs']
  exact h

lemma Based.expireChannel (h : Based s now) (n : Channel) : Based (expireChannel now s n) now := by
  unfold Mrt.expireChannel
  split_ifs
  · exact h
  · exact h
  · refine ⟨h.1, fun m => ?_⟩
    by_cases hm : m = n
    · simp [hm]
    · simpa [hm] using h.2 m
  · exact h

lemma Based.loadInterval (h : Based s now) (n : Channel) (v : Word) :
    Based (loadInterval s n v now) now := by
  unfold Mrt.loadInterval
  dsimp only
  split
  · refine ⟨h.1, fun m => ?_⟩
    by_cases hm : m = n
    · simp [hm]
    · simpa [hm] using h.2 m
  · exact h

variable {e : Event} {past : List (ℤ × Event)} {s₀ : MrtState} {t₀ : ℤ}

lemma Based.next {time : ℤ} (he : e.happens time)
    (hstep : step s e = some s') (h : Based s time) : Based s' time := by
  cases e with
  | write off v now =>
    obtain rfl : now = time := he
    change mrtWrite s off v now = some s' at hstep
    unfold mrtWrite at hstep
    split at hstep
    · split at hstep
      · exact (h.loadInterval _ v).rescheduled hstep
      all_goals
        cases hstep
        exact h
    · cases hstep
      exact h
  | tick now =>
    obtain rfl : now = time := he
    refine Based.rescheduled ?_ hstep
    have hfold : ∀ (ns : List Channel) (s : MrtState), Based s now →
        Based (ns.foldl (Mrt.expireChannel now) s) now := by
      intro ns
      induction ns with
      | nil => exact fun s hs => hs
      | cons n rest ih => exact fun s hs => ih _ (hs.expireChannel n)
    exact hfold _ _ h
  | reset =>
    cases hstep
    exact ⟨h.1, fun _ => h.1⟩
  | _ =>
    cases hstep
    exact h

lemma Based.reached {t : ℤ} (ht₀ : 0 ≤ t₀)
    (h : Leads step Event.happens (mcxnMrtReset s₀) t₀ past s t) : Based s t :=
  h.invariant (fun _ _ _ hle hbased => ⟨hbased.1.trans hle, fun n => (hbased.2 n).trans hle⟩)
    (fun _ _ _ _ he hstep hbased => hbased.next he hstep) ⟨ht₀, fun _ => ht₀⟩

def channel (n : Channel) (s : MrtState) : Bool × Word × ℤ := (running s n, s.load n, s.baseNs n)

lemma peek_congr (hchannel : channel n s' = channel n s)
    (hclk : s'.clkHz = s.clkHz) (now : ℤ) : mrtPeek s' n now = mrtPeek s n now := by
  simp only [channel, Prod.mk.injEq] at hchannel
  obtain ⟨hrun, hload, hbase⟩ := hchannel
  rw [mrtPeek, mrtPeek, hrun, hload, hbase, hclk]

lemma expireChannel_channel (hlive : mrtPeek s n now ≠ 0) (m : Channel) :
    channel n (expireChannel now s m) = channel n s ∧ (expireChannel now s m).clkHz = s.clkHz := by
  unfold Mrt.expireChannel
  by_cases hm : n = m
  · subst hm
    rw [if_pos hlive, ite_self]
    exact ⟨rfl, rfl⟩
  · split_ifs <;> simp [channel, running, hm]

lemma tick_channel (hlive : mrtPeek s n now ≠ 0)
    (h : mrtTick s now = some s') : channel n s' = channel n s ∧ s'.clkHz = s.clkHz := by
  have hfold : ∀ (ms : List Channel) (r : MrtState), channel n r = channel n s → r.clkHz = s.clkHz →
      channel n (ms.foldl (expireChannel now) r) = channel n s ∧
        (ms.foldl (expireChannel now) r).clkHz = s.clkHz := by
    intro ms
    induction ms with
    | nil => exact fun r hr hclk => ⟨hr, hclk⟩
    | cons m rest ih =>
      intro r hr hclk
      obtain ⟨hchannel, hclk'⟩ :=
        expireChannel_channel (by rw [peek_congr hr hclk]; exact hlive) m
      exact ih _ (hchannel.trans hr) (hclk'.trans hclk)
  rw [mrtReschedule_eq h]
  exact hfold (List.finRange 4) { s with timer := none } rfl rfl

lemma Quiet.keeps (he : Quiet n s e) (hstep : step s e = some s') :
    channel n s' = channel n s ∧ s'.clkHz.toNat = e.newRate.getD s.clkHz.toNat := by
  cases e with
  | write | reset => exact he.elim
  | tick now =>
    obtain ⟨hchannel, hclk⟩ := tick_channel he hstep
    exact ⟨hchannel, by rw [hclk]; rfl⟩
  | _ =>
    cases hstep
    exact ⟨rfl, rfl⟩

lemma toNat_mrtPeek (hrun : running s n)
    (hbase : s.baseNs n ≤ now) (hfits : ProductFits s.clkHz.toNat (now - s.baseNs n)) :
    (mrtPeek s n now).toNat = (s.load n).toNat - ticks s.clkHz.toNat (now - s.baseNs n).toNat := by
  unfold mrtPeek
  rw [hrun]
  by_cases hnow : now ≤ s.baseNs n
  · have hzero : (now - s.baseNs n).toNat = 0 := by omega
    simp [hnow, hzero, ticks]
  rw [if_neg (by simpa using hnow)]
  have hticks := toNat_clockTicks (by omega : 0 ≤ now - s.baseNs n) hfits
  dsimp only
  set counts : DoubleWord := BitVec.ofInt 64 (now - s.baseNs n) * s.clkHz.setWidth 64 / 1000000000
  have hload : ((s.load n).setWidth 64).toNat = (s.load n).toNat := by
    rw [toNat_setWidth]
    omega
  split
  next hexpired =>
    rw [le_def, hload, hticks] at hexpired
    simp only [ofNat_eq_ofNat, toNat_ofNat]
    omega
  rename_i hlive
  rw [le_def, hload, hticks] at hlive
  rw [toNat_sub, toNat_setWidth, hticks]
  omega

def CountsClock (n : Channel) (s₁ : MrtState) (t₁ : ℤ) (between : List (ℤ × Event))
    (s₂ : MrtState) (t₂ : ℤ) : Prop :=
  ∃ counted, FollowsRate Event.newRate s₁.clkHz.toNat t₁ between t₂ counted ∧
    (mrtRead s₂ (0x10 * n.val + 0x4) t₂).toNat + counted =
      (mrtRead s₁ (0x10 * n.val + 0x4) t₁).toNat

lemma read_timer (s : MrtState) (n : Channel) (now : ℤ) :
    mrtRead s (0x10 * n.val + 0x4) now = mrtPeek s n now := by
  fin_cases n <;> rfl

lemma countsClock {s₁ s₂ : MrtState} {t₁ t₂ : ℤ} {between : List (ℤ × Event)}
    (ht₀ : 0 ≤ t₀) (hpast : Leads step Event.happens (mcxnMrtReset s₀) t₀ past s₁ t₁)
    (hrunning : running s₁ n) (hbetween : Leads step Event.happens s₁ t₁ between s₂ t₂)
    (hquiet : AdmitsPartial step (Quiet n) s₁ (between.map Prod.snd)) (hlive : mrtPeek s₂ n t₂ ≠ 0)
    (haccount : Accountable Event.newRate (s₁.baseNs n) s₁.clkHz.toNat t₁ between t₂) :
    CountsClock n s₁ t₁ between s₂ t₂ := by
  obtain ⟨hsteady, hfits₁, hfits₂⟩ := haccount
  have hbase := (Based.reached ht₀ hpast).2 n
  obtain ⟨hkept, hrate⟩ : channel n s₂ = channel n s₁ ∧
      s₂.clkHz.toNat = finalRate Event.newRate s₁.clkHz.toNat between := by
    refine runPartial_quiet Event.newRate (channel n) (fun s => s.clkHz.toNat) ?_ rfl hquiet
      hbetween.run
    intro s e s' hs he hstep
    obtain ⟨hchannel, hclk⟩ := Quiet.keeps he hstep
    exact ⟨hchannel.trans hs, hclk⟩
  simp only [channel, Prod.mk.injEq] at hkept
  obtain ⟨hrun, hload, hns⟩ := hkept
  have hbase₂ : s₂.baseNs n ≤ t₂ := hns.trans_le (hbase.trans hbetween.order.le)
  have hpeek₁ := toNat_mrtPeek hrunning hbase hfits₁
  have hpeek₂ := toNat_mrtPeek (hrun.trans hrunning) hbase₂ (by rw [hrate, hns]; exact hfits₂)
  have hpos : (mrtPeek s₂ n t₂).toNat ≠ 0 := fun h => hlive (eq_of_toNat_eq h)
  have hmono := hsteady.mono hbase hbetween.order
  refine ⟨_, hsteady.followsRate hbase hbetween.order, ?_⟩
  rw [hload, hrate, hns] at hpeek₂
  rw [read_timer, read_timer, hpeek₁]
  omega

end Mrt

/-- Between two reads of a running counter without a guest write in between, the ticks
counted follow the clock, if the clock is accountable and the prescaler of the
counter/timer is not all ones. -/
theorem counters_integrate_clock (t₀ t₁ t₂ : ℤ) : (∀ s₀ s₁ s₂ past between,
      Leads Ostimer.step Ostimer.Event.happens (Ostimer.mcxnOstimerReset s₀ t₀) t₀ past s₁ t₁ →
      Leads Ostimer.step Ostimer.Event.happens s₁ t₁ between s₂ t₂ →
      AdmitsPartial Ostimer.step Ostimer.Quiet s₁ (between.map Prod.snd) →
      Accountable Ostimer.Event.newRate s₁.baseNs s₁.clkHz.toNat t₁ between t₂ →
      Ostimer.CountsClock s₁ t₁ between s₂ t₂) ∧
    (∀ s₀ s₁ s₂ past between, 0 ≤ t₀ →
      Leads Ctimer.step Ctimer.Event.happens (Ctimer.mcxnCtimerReset s₀) t₀ past s₁ t₁ →
      Ctimer.ctimerRunning s₁ = true → ¬ Ctimer.MatchActive s₁ →
      Leads Ctimer.step Ctimer.Event.happens s₁ t₁ between s₂ t₂ →
      AdmitsPartial Ctimer.step Ctimer.Quiet s₁ (between.map Prod.snd) →
      s₁.pr ≠ 0xFFFFFFFF →
      Accountable Ctimer.Event.newRate s₁.baseNs s₁.clkHz.toNat t₁ between t₂ →
      Ctimer.CountsClock s₁ t₁ between s₂ t₂) ∧
    (∀ n s₀ s₁ s₂ past between, 0 ≤ t₀ →
      Leads Mrt.step Mrt.Event.happens (Mrt.mcxnMrtReset s₀) t₀ past s₁ t₁ →
      Mrt.running s₁ n = true →
      Leads Mrt.step Mrt.Event.happens s₁ t₁ between s₂ t₂ →
      AdmitsPartial Mrt.step (Mrt.Quiet n) s₁ (between.map Prod.snd) →
      Mrt.mrtPeek s₂ n t₂ ≠ 0 →
      Accountable Mrt.Event.newRate (s₁.baseNs n) s₁.clkHz.toNat t₁ between t₂ →
      Mrt.CountsClock n s₁ t₁ between s₂ t₂) := by
  refine ⟨?_, ?_, ?_⟩
  · intro s₀ s₁ s₂ past between hpast hbetween hquiet haccount
    exact Ostimer.countsClock hpast hbetween hquiet haccount
  · intro s₀ s₁ s₂ past between ht₀ hpast hrun hidle hbetween hquiet hpr haccount
    exact Ctimer.countsClock ht₀ hpast hrun hidle hbetween hquiet hpr haccount
  · intro n s₀ s₁ s₂ past between ht₀ hpast hrun hbetween hquiet hlive haccount
    exact Mrt.countsClock ht₀ hpast hrun hbetween hquiet hlive haccount

def Ctimer.runFrom (hz : Word) (events : List Ctimer.Event) : Ctimer.CtimerState :=
  (runPartial Ctimer.step (Ctimer.mcxnCtimerReset (Timers.powerOn hz).ctimer) events).getD
    (Timers.powerOn hz).ctimer

theorem counters_integrate_small_change :
    let s := Ostimer.mcxnOstimerReset (Timers.powerOn 1000000).ostimer 0
    Ostimer.CountsClock s 250000000 [(500000000, .clock 1000001)]
      { s with clkHz := 1000001 } 1000000000 := by
  refine (counters_integrate_clock 0 _ _).1 _ _ _ [] _ ⟨.nil (by decide), rfl⟩ ⟨?_, rfl⟩ ?_ ?_
  · exact ⟨by decide, trivial, .nil (by decide)⟩
  · exact ⟨trivial, fun _ _ => trivial⟩
  refine ⟨⟨?_, trivial⟩, by unfold ProductFits; decide, by unfold ProductFits; decide⟩
  rintro rate' ⟨⟩
  exact ⟨by decide, by decide⟩

theorem counters_lose_clock : (let s := Ostimer.mcxnOstimerReset (Timers.powerOn 1000000).ostimer 0
     let s' := { s with clkHz := 16000 }
     Leads Ostimer.step Ostimer.Event.happens s 10000000000 [(10000000000, .clock 16000)] s'
        10000000000 ∧
      ¬ Ostimer.CountsClock s 10000000000 [(10000000000, .clock 16000)] s' 10000000000) ∧
    (let s := Ctimer.runFrom 150000000 [.write 0x04 1 0]
     Leads Ctimer.step Ctimer.Event.happens
        (Ctimer.mcxnCtimerReset (Timers.powerOn 150000000).ctimer) 0 [(0, .write 0x04 1 0)] s
        122000000000 ∧
      Ctimer.ctimerRunning s = true ∧ ¬ Ctimer.MatchActive s ∧
      ¬ Ctimer.CountsClock s 122000000000 [] s 123000000000) := by
  refine ⟨⟨⟨⟨by decide, trivial, .nil (by decide)⟩, rfl⟩, ?_⟩,
    ⟨⟨by decide, rfl, .nil (by decide)⟩, rfl⟩, by decide, ?_, ?_⟩
  · rintro ⟨counted, ⟨hfollows, -⟩, hread⟩
    have hbefore : Ostimer.evtimer
        (Ostimer.mcxnOstimerReset (Timers.powerOn 1000000).ostimer 0) 10000000000 =
        10000000 := by decide +kernel
    have hafter : Ostimer.evtimer
        { Ostimer.mcxnOstimerReset (Timers.powerOn 1000000).ostimer 0 with clkHz := 16000 }
        10000000000 = 160000 := by decide +kernel
    rw [hbefore, hafter] at hread
    simp only [integral, changes, second, Ostimer.Event.newRate] at hfollows
    simp at hfollows
    omega
  · rintro ⟨n, hn⟩
    revert hn
    revert n
    decide
  rintro ⟨counted, ⟨hfollows, -⟩, tc₁, pc₁, tc₂, pc₂, htc₁, hpc₁, htc₂, hpc₂, hread⟩
  have htc₁' : tc₁ = 1120130816 := Option.some.inj (htc₁.symm.trans (by decide +kernel))
  have hpc₁' : pc₁ = 0 := Option.some.inj (hpc₁.symm.trans (by decide +kernel))
  have htc₂' : tc₂ = 3255926 := Option.some.inj (htc₂.symm.trans (by decide +kernel))
  have hpc₂' : pc₂ = 0 := Option.some.inj (hpc₂.symm.trans (by decide +kernel))
  have hpr : (Ctimer.runFrom 150000000 [.write 0x04 1 0]).pr = 0 := by decide +kernel
  have hclk : (Ctimer.runFrom 150000000 [.write 0x04 1 0]).clkHz = 150000000 := by
    decide +kernel
  rw [hpr, htc₁', hpc₁', htc₂', hpc₂'] at hread
  rw [hclk, abs_le] at hfollows
  simp only [integral, changes, second] at hfollows
  simp at hfollows
  simp [Ctimer.position, Nat.ModEq] at hread
  omega

end Mcxn947
