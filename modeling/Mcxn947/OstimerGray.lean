import Mathlib.Data.FinEnum
import Mcxn947.OstimerMatches

/-!
# The Gray code of the event timer

The decoder inverts the encoder on every 64-bit word, so both halves of the match read back as
they were written.
-/

namespace Mcxn947.Ostimer

open MachineWords EventRuns BitVec

variable {n : DoubleWord} {s s' : OstimerState} {i j k : ℕ} {low high : Word} {t t' : ℤ}

lemma binToGray_grayToBin (n : DoubleWord) : binToGray (grayToBin n) = n := by
  have hinverse : Function.LeftInverse grayToBin binToGray := grayToBin_binToGray
  have hsurjective := Finite.injective_iff_surjective.mp hinverse.injective
  exact hinverse.rightInverse_of_surjective hsurjective n

def Carries (n : DoubleWord) (i : ℕ) : Prop := i < 64 ∧ ∀ j < i, n.getLsbD j = true

lemma Carries.mono (h : Carries n i) (hji : j ≤ i) : Carries n j :=
  ⟨hji.trans_lt h.1, fun l hl => h.2 l (hl.trans_le hji)⟩

lemma getLsbD_succ_ne_iff : n.getLsbD i ≠ (n + 1).getLsbD i ↔ Carries n i := by
  by_cases hi : i < 64
  · rw [getLsbD_add hi]
    cases i with
    | zero => simp [Carries]
    | succ i =>
      rw [show (1 : DoubleWord) = 1#64 from rfl, carry_succ_one i n (by omega)]
      cases n.getLsbD (i + 1) <;> simp [Carries, hi]
  · simp [Carries, hi, getLsbD_of_ge _ i (Nat.le_of_not_lt hi)]

lemma getLsbD_binToGray (n : DoubleWord) (i : ℕ) :
    (binToGray n).getLsbD i = (n.getLsbD i ^^ n.getLsbD (i + 1)) := by
  rw [binToGray, getLsbD_xor, getLsbD_ushiftRight, Nat.add_comm 1 i]

-- The increment changes the bits up to the end of the carry, and the code shows only that end.
lemma binToGray_succ_ne_iff : (binToGray n).getLsbD i ≠ (binToGray (n + 1)).getLsbD i ↔
    Carries n i ∧ ¬ Carries n (i + 1) := by
  have hcarry : Carries n (i + 1) → Carries n i := fun h => h.mono (Nat.le_succ i)
  rw [getLsbD_binToGray, getLsbD_binToGray]
  rw [← getLsbD_succ_ne_iff, ← getLsbD_succ_ne_iff] at *
  revert hcarry
  generalize n.getLsbD i = a, n.getLsbD (i + 1) = b, (n + 1).getLsbD i = a',
    (n + 1).getLsbD (i + 1) = b'
  revert a b a' b'
  decide

lemma existsUnique_binToGray_succ_ne (n : DoubleWord) :
    ∃! i, (binToGray n).getLsbD i ≠ (binToGray (n + 1)).getLsbD i := by
  classical
  have hends : ∃ i, ¬ Carries n (i + 1) := ⟨63, fun h => absurd h.1 (by decide)⟩
  have hfirst : Carries n (Nat.find hends) := by
    cases hfind : Nat.find hends with
    | zero => exact ⟨by decide, nofun⟩
    | succ m => exact not_not.mp (Nat.find_min hends (hfind ▸ Nat.lt_succ_self m))
  refine ⟨Nat.find hends, binToGray_succ_ne_iff.mpr ⟨hfirst, Nat.find_spec hends⟩, ?_⟩
  intro i hi
  obtain ⟨hcarries, hend⟩ := binToGray_succ_ne_iff.mp hi
  refine le_antisymm (Nat.le_of_not_lt fun hlt => ?_) (Nat.find_min' hends hend)
  exact Nat.find_spec hends (hcarries.mono hlt)

variable {fuel : ℕ}

lemma grayLoop_lt {b g : DoubleWord} (hb : b.toNat < 2 ^ k) (hg : g.toNat < 2 ^ k) :
    (grayLoop fuel g b).toNat < 2 ^ k := by
  induction fuel generalizing g b with
  | zero => exact hb
  | succ fuel ih =>
    obtain ⟨hshift, hxor⟩ := xor_shift_lt hb hg
    rw [grayLoop]
    split_ifs
    · exact hb
    · exact ih hxor hshift

lemma grayLoop_eq (h : 64 ≤ fuel) (g : DoubleWord) : grayLoop fuel g g = grayToBin g := by
  have hloop := grayLoop_binToGray (k := 0) (grayToBin g) (h.trans_eq (Nat.zero_add fuel).symm)
  rw [binToGray_grayToBin] at hloop
  have hstart : grayToBin g ^^^ grayToBin g >>> (0 + 1) = g := binToGray_grayToBin g
  rwa [hstart] at hloop

lemma read_match (h : s.matchVal = matchOf (high &&& 0x3FF) low) (now : ℤ) :
    mcxnOstimerRead s 0x10 now = low.setWidth 64 ∧
      mcxnOstimerRead s 0x14 now = (high &&& 0x3FF).setWidth 64 := by
  have hcode : binToGray s.matchVal = (high &&& 0x3FF : Word) ++ low := by
    rw [h, matchOf, binToGray_grayToBin]
  obtain ⟨hlow, hhigh⟩ := toNat_halves (binToGray s.matchVal)
  rw [hcode, toNat_append_match] at hlow hhigh
  constructor
  · apply eq_of_toNat_eq
    refine (hcode ▸ hlow).trans ?_
    rw [toNat_setWidth]
    omega
  · apply eq_of_toNat_eq
    refine (hcode ▸ hhigh).trans ?_
    rw [toNat_setWidth, toNat_and_tenBits]
    omega

lemma matchOf_lt (high low : Word) : (matchOf (high &&& 0x3FF) low).toNat < 2 ^ 42 := by
  have h : ((high &&& 0x3FF : Word) ++ low : DoubleWord).toNat < 2 ^ 42 := by
    rw [toNat_append_match]
    omega
  exact grayLoop_lt h h

def matchWrites (low high : Word) (t t' : ℤ) : List (List Event) :=
  [[.write 0x10 low t, .write 0x14 high t'], [.write 0x14 high t, .write 0x10 low t']]

lemma matchWrite_isSome {off : ℕ} (hoff : off = 0x10 ∨ off = 0x14)
    (hclk : anyBit s.ctrl ctrlIntena → s.clkHz ≠ 0) (v : Word) (now : ℤ) :
    ∃ s', step s (.write off v now) = some s' ∧ s'.ctrl = s.ctrl ∧ s'.clkHz = s.clkHz := by
  obtain ⟨armed, harm, hctrl⟩ : ∃ armed,
      writeArming s off v = some armed ∧ armed.ctrl = s.ctrl := by
    rcases hoff with rfl | rfl <;> exact ⟨_, rfl, rfl⟩
  have hdefined : Defined s (.write off v now) := by
    intro s' hs' hena _
    cases harm.symm.trans hs'
    exact hclk (hctrl ▸ hena)
  obtain ⟨s', hs'⟩ := Option.isSome_iff_exists.mp (step_isSome hdefined)
  refine ⟨s', hs', ?_, (write_keeps hs').1⟩
  simp only [step, mcxnOstimerWrite, harm] at hs'
  rw [ostimerReschedule_eq hs', hctrl]

lemma matchWrites_isSome {writes : List Event} (hclk : anyBit s.ctrl ctrlIntena → s.clkHz ≠ 0)
    (hwrites : writes ∈ matchWrites low high t t') : (runPartial step s writes).isSome := by
  have hpair : ∀ off v off' v', (off = 0x10 ∨ off = 0x14) → (off' = 0x10 ∨ off' = 0x14) →
      (runPartial step s [.write off v t, .write off' v' t']).isSome := by
    intro off v off' v' hoff hoff'
    obtain ⟨s₁, hfirst, hctrl, hhz⟩ := matchWrite_isSome hoff hclk v t
    rw [← hctrl, ← hhz] at hclk
    obtain ⟨s₂, hsecond, -⟩ := matchWrite_isSome hoff' hclk v' t'
    rw [runPartial_cons, hfirst, Option.bind_some, runPartial_cons, hsecond]
    rfl
  rcases List.mem_pair.mp hwrites with rfl | rfl
  · exact hpair _ _ _ _ (.inl rfl) (.inr rfl)
  · exact hpair _ _ _ _ (.inr rfl) (.inl rfl)

/-- The two maps of the Gray code are inverse to each other, one step of the count changes one
bit of its code, and neither map leaves the numbers below a power of two.  The 42 bits of the
match read back as they were written, with either half first. -/
theorem gray_code : (∀ n, grayToBin (binToGray n) = n ∧ binToGray (grayToBin n) = n ∧
      ∀ fuel, 64 ≤ fuel → grayLoop fuel n n = grayToBin n) ∧
    (∀ n, ∃! i, (binToGray n).getLsbD i ≠ (binToGray (n + 1)).getLsbD i) ∧
    (∀ k ≤ 64, ∀ n : DoubleWord, n.toNat < 2 ^ k →
      (binToGray n).toNat < 2 ^ k ∧ (grayToBin n).toNat < 2 ^ k) ∧
    ∀ s low high t t', ∀ writes ∈ matchWrites low high t t',
      ((anyBit s.ctrl ctrlIntena → s.clkHz ≠ 0) → (runPartial step s writes).isSome) ∧
      ∀ s' ∈ runPartial step s writes, s'.matchVal.toNat < 2 ^ 42 ∧
        (∀ value : DoubleWord, value.toNat < 2 ^ 42 → low = grayLow value →
          high = grayHigh value → s'.matchVal = value) ∧
        ∀ now, mcxnOstimerRead s' 0x10 now = low.setWidth 64 ∧
          mcxnOstimerRead s' 0x14 now = (high &&& 0x3FF).setWidth 64 := by
  refine ⟨fun n => ⟨grayToBin_binToGray n, binToGray_grayToBin n, fun fuel h => grayLoop_eq h n⟩,
    existsUnique_binToGray_succ_ne,
    fun k _ n hn => ⟨(xor_shift_lt hn hn).2, grayLoop_lt hn hn⟩, ?_⟩
  intro s low high t t' writes hwrites
  refine ⟨fun hclk => matchWrites_isSome hclk hwrites, fun s' hs' => ?_⟩
  have hmatch : s'.matchVal = matchOf (high &&& 0x3FF) low := by
    rcases List.mem_pair.mp hwrites with rfl | rfl
    · exact matchVal_of_writes (.inl hs')
    · exact matchVal_of_writes (.inr hs')
  refine ⟨hmatch ▸ matchOf_lt high low, ?_, read_match hmatch⟩
  rintro value hvalue rfl rfl
  exact hmatch.trans (matchOf_gray hvalue)

theorem gray_code_three_bits : (binToGray 5).toNat < 2 ^ 3 ∧ (grayToBin 5).toNat < 2 ^ 3 ∧
      (runPartial step { (Timers.powerOn 1).ostimer with clkHz := 1 }
        [.write 0x10 7 0, .write 0x14 0 0]).isSome := by
  obtain ⟨hgray, hbin⟩ := gray_code.2.2.1 3 (by decide) 5 (by decide)
  exact ⟨hgray, hbin, (gray_code.2.2.2 _ 7 0 0 0 _ (.head _)).1 (by simp)⟩

lemma append_halves (n : DoubleWord) : (n >>> 32).setWidth 32 ++ n.setWidth 32 = n := by
  apply eq_of_getLsbD_eq
  intro i hi
  rw [getLsbD_append]
  split
  next h => simp [h]
  next h => simp [show i - 32 < 32 by omega, show 32 + (i - 32) = i by omega]

-- The bit that changes lies in one half, so the other half is that of both counts.
lemma halves_succ (n : DoubleWord) : binToGray n >>> 32 = binToGray (n + 1) >>> 32 ∨
    (binToGray n).setWidth 32 = (binToGray (n + 1)).setWidth 32 := by
  obtain ⟨k, -, honly⟩ := existsUnique_binToGray_succ_ne n
  have hsame : ∀ i ≠ k, (binToGray n).getLsbD i = (binToGray (n + 1)).getLsbD i :=
    fun i hi => not_not.mp (mt (honly i) hi)
  by_cases hk : k < 32
  · left
    apply eq_of_getLsbD_eq
    intro i hi
    rw [getLsbD_ushiftRight, getLsbD_ushiftRight, hsame _ (by omega)]
  · right
    apply eq_of_getLsbD_eq
    intro i hi
    rw [getLsbD_setWidth, getLsbD_setWidth, hsame _ (by omega)]

lemma halves_near {n' : DoubleWord} (h : n >>> 32 = n' >>> 32 ∨ n' = n + 1 ∨ n = n' + 1) :
    binToGray n >>> 32 = binToGray n' >>> 32 ∨
      (binToGray n).setWidth 32 = (binToGray n').setWidth 32 := by
  obtain hhigh | rfl | rfl := h
  · left
    simp only [binToGray, ushiftRight_xor_distrib, ← shiftRight_add, Nat.add_comm 1]
    simp only [shiftRight_add, hhigh]
  · exact halves_succ n
  · exact (halves_succ n').imp Eq.symm Eq.symm

/-- The count that a guest decodes from `EVTIMERL` at `t` and `EVTIMERH` at `t'`. -/
def decoded (s : OstimerState) (t t' : ℤ) : DoubleWord :=
  grayToBin ((mcxnOstimerRead s 0x04 t').setWidth 32 ++ (mcxnOstimerRead s 0x00 t).setWidth 32)

/-- Two reads of the halves, in either order, decode to the count at one of them unless it passes
a multiple of `2 ^ 32` by more than one step. -/
theorem decoded_read (hsmall : (ostimerCount s t').toNat < 2 ^ 42)
    (hnear : ostimerCount s t >>> 32 = ostimerCount s t' >>> 32 ∨
      ostimerCount s t' = ostimerCount s t + 1 ∨ ostimerCount s t = ostimerCount s t' + 1) :
    decoded s t t' = ostimerCount s t ∨ decoded s t t' = ostimerCount s t' := by
  have hgray : (binToGray (ostimerCount s t')).toNat < 2 ^ 42 := (xor_shift_lt hsmall hsmall).2
  have hlow : (mcxnOstimerRead s 0x00 t).setWidth 32 =
      (binToGray (ostimerCount s t)).setWidth 32 := by
    apply eq_of_toNat_eq
    rw [toNat_setWidth, toNat_setWidth]
    exact (congrArg (· % 2 ^ 32) (toNat_halves _).1).trans (Nat.mod_mod _ _)
  have hhigh : (mcxnOstimerRead s 0x04 t').setWidth 32 =
      (binToGray (ostimerCount s t') >>> 32).setWidth 32 := by
    apply eq_of_toNat_eq
    rw [toNat_setWidth, toNat_setWidth, toNat_ushiftRight, Nat.shiftRight_eq_div_pow]
    refine (congrArg (· % 2 ^ 32) (toNat_halves _).2).trans ?_
    omega
  rw [decoded, hlow, hhigh]
  refine (halves_near hnear).imp (fun hsame => ?_) fun hsame => ?_
  · rw [← hsame, append_halves, grayToBin_binToGray]
  · rw [hsame, append_halves, grayToBin_binToGray]

theorem decoded_read_carry :
    let s := { (Timers.powerOn 1).ostimer with clkHz := 1, baseCount := 0xFFFFFFFF }
    ostimerCount s 1000000001 = ostimerCount s 0 + 1 ∧
      (decoded s 0 1000000001 = ostimerCount s 0 ∨
        decoded s 0 1000000001 = ostimerCount s 1000000001) := by
  exact ⟨by decide +kernel, decoded_read (by decide +kernel) (.inr (.inl (by decide +kernel)))⟩

end Mcxn947.Ostimer
