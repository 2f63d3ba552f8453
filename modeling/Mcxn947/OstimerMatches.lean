import Mcxn947.RoundedDeadlines
import Mcxn947.TimerCounts

/-!
# The match of the event timer

Every write to `MATCH_L`, `MATCH_H` or `OSEVENT_CTRL` arms the host timer for the time, in
whole nanoseconds, until the count is at the match.
-/

namespace Mcxn947.Ostimer

open MachineWords EventRuns RatedCounters Option Nat OstimerState

def intEnabled (s : OstimerState) : Prop := anyBit s.ctrl ctrlIntena = true

def flagged (s : OstimerState) : Prop := anyBit s.ctrl ctrlIntrflag = true

variable {s s' : OstimerState} {value : DoubleWord} {now : ℤ} {off : ℕ} {v : Word}

lemma toNat_ostimerCount_lt (hcount : s.baseCount = 0) (now : ℤ) :
    (ostimerCount s now).toNat < 2 ^ 42 := by
  unfold ostimerCount
  extract_lets elapsed
  rw [hcount]
  generalize elapsed * s.clkHz.setWidth 64 = product
  have hzero : (0 : DoubleWord) + product / 1000000000 = product / 1000000000 := BitVec.zero_add _
  rw [hzero, BitVec.toNat_udiv]
  have hsecond : (1000000000 : DoubleWord).toNat = 1000000000 := rfl
  rw [hsecond]
  omega

def grayHigh (value : DoubleWord) : Word := (binToGray value >>> 32).setWidth 32

def grayLow (value : DoubleWord) : Word := (binToGray value).setWidth 32

lemma toNat_and_tenBits (high : Word) : (high &&& 0x3FF).toNat = high.toNat % 2 ^ 10 :=
  (BitVec.toNat_and _ _).trans (and_two_pow_sub_one_eq_mod _ 10)

lemma toNat_append_match (high low : Word) : ((high &&& 0x3FF : Word) ++ low : DoubleWord).toNat =
      high.toNat % 2 ^ 10 * 2 ^ 32 + low.toNat := by
  rw [BitVec.toNat_append, ← shiftLeft_add_eq_or_of_lt low.isLt, shiftLeft_eq, toNat_and_tenBits]

lemma matchOf_gray (h : value.toNat < 2 ^ 42) :
    matchOf (grayHigh value &&& 0x3FF) (grayLow value) = value := by
  have hgray : (binToGray value).toNat < 2 ^ 42 := (xor_shift_lt h h).2
  have hcode : (grayHigh value &&& 0x3FF : Word) ++ grayLow value = binToGray value := by
    apply BitVec.eq_of_toNat_eq
    rw [toNat_append_match, grayHigh, grayLow, BitVec.toNat_setWidth, BitVec.toNat_setWidth,
      BitVec.toNat_ushiftRight, shiftRight_eq_div_pow]
    omega
  rw [matchOf, hcode, grayToBin_binToGray]

structure OnTime (s : OstimerState) (armedAt : ℤ) : Prop where
  product : (s.matchVal.toNat - s.counted armedAt) * second < 2 ^ 64
  onCount : OnCount s.clkHz.toNat (armedAt - s.baseNs).toNat (s.matchVal.toNat - s.counted armedAt)

structure ArmedAt (s : OstimerState) (armedAt deadline : ℤ) : Prop where
  enabled : intEnabled s
  base : s.baseNs ≤ deadline
  latest : s.counted deadline ≤ s.matchVal.toNat
  exact_iff : s.matchVal.toNat ≤ s.counted deadline ↔ OnTime s armedAt

lemma reschedule_armedAt (hhz : 1 < s.clkHz.toNat)
    (hbased : Based s now) (hfits : ProductFits s.clkHz.toNat (now - s.baseNs))
    (h : ostimerReschedule s now = some s') : (∀ deadline ∈ s'.timer, ArmedAt s' now deadline) ∧
      (s'.timer.isSome ↔ intEnabled s ∧ s.counted now < s.matchVal.toNat) := by
  have hcount := toNat_ostimerCount hbased hfits
  unfold ostimerReschedule at h
  extract_lets cur at h
  have hcur : cur.toNat = s.counted now := hcount
  split at h
  next hidle =>
    cases h
    refine ⟨fun _ hdue => absurd hdue (by simp), ?_⟩
    rw [BitVec.le_def, hcur] at hidle
    simp only [isSome_none, Bool.false_eq_true, false_iff, not_and, Nat.not_lt]
    intro hen
    rcases hidle with hoff | hle
    · rw [show anyBit s.ctrl ctrlIntena = true from hen] at hoff
      exact absurd hoff (by decide)
    · exact hle
  rename_i hahead
  rw [not_or, BitVec.le_def, Nat.not_le, hcur] at hahead
  obtain ⟨ns, hns, h⟩ := Option.bind_eq_some_iff.mp h
  cases h
  have hen : intEnabled s := by simpa [intEnabled] using hahead.1
  have hcounts : (s.matchVal - cur).toNat = s.matchVal.toNat - s.counted now := by
    rw [BitVec.toNat_sub_of_le (BitVec.le_def.mpr (by rw [hcur]; exact hahead.2.le)), hcur]
  obtain ⟨hnonneg, hle, hiff⟩ := ticks_deadline hhz (now - s.baseNs).toNat hns
  have hbase := hbased.2
  have hcounted : s.counted (now + ns.toInt) =
      ticks s.clkHz.toNat ((now - s.baseNs).toNat + ns.toInt.toNat) := by
    rw [counted]
    congr 1
    omega
  have hsum : s.counted now + (s.matchVal.toNat - s.counted now) = s.matchVal.toNat := by omega
  refine ⟨?_, ⟨fun _ => ⟨hen, hahead.2⟩, fun _ => rfl⟩⟩
  rintro deadline hdue
  cases hdue
  rw [hcounts, ← hcounted] at hle hiff
  change _ ≤ s.counted now + _ at hle
  change s.counted now + _ ≤ _ ↔ _ at hiff
  rw [hsum] at hle hiff
  refine ⟨hen, ?_, hle, hiff.trans ⟨fun hon => ⟨hon.1, hon.2⟩, fun hon => ⟨hon.1, hon.2⟩⟩⟩
  show s.baseNs ≤ now + ns.toInt
  omega

structure Watched where
  timer : OstimerState
  armedAt : ℤ

def armedAfter (s : OstimerState) (armedAt : ℤ) : Event → ℤ
  | .write off v now => if (writeArming s off v).isSome then now else armedAt
  | _ => armedAt

def watch (w : Watched) (e : Event) : Option Watched :=
  (step w.timer e).map fun s => ⟨s, armedAfter w.timer w.armedAt e⟩

def Timely (w : Watched) : Event → Prop
  | .read _ _ => True
  | .reset _ => True
  | .tick => w.timer.timer.isSome
  | .clock _ => False
  | .write _ _ now => w.timer.baseNs ≤ now ∧ ProductFits w.timer.clkHz.toNat (now - w.timer.baseNs)

def ArmsAhead (s : OstimerState) : Event → Prop
  | .write off v now => ∃ s₁, writeArming s off v = some s₁ ∧ intEnabled s₁ ∧
      s.counted now < s₁.matchVal.toNat
  | _ => False

def LeavesMatch (w : Watched) : Event → Prop
  | .read _ _ => True
  | .write off v now => off ≠ 0x10 ∧ off ≠ 0x14 ∧
      (off = 0x1C → anyBit v ctrlIntena = true ∧ w.timer.baseNs ≤ now ∧
        ProductFits w.timer.clkHz.toNat (now - w.timer.baseNs) ∧
        w.timer.counted now < w.timer.matchVal.toNat)
  | _ => False

structure Kept (w : Watched) : Prop where
  hz : 1 < w.timer.clkHz.toNat
  count : w.timer.baseCount = 0
  pending : ∀ deadline ∈ w.timer.timer, ArmedAt w.timer w.armedAt deadline

lemma ctrlWrite (ctrl kept v : Word) (hkept : kept = ctrl ∨ kept = ctrl &&& ~~~ctrlIntrflag) :
    (anyBit (kept &&& ctrlIntrflag ||| v &&& ctrlIntena) ctrlIntrflag = true →
      anyBit ctrl ctrlIntrflag) ∧ (anyBit v ctrlIntena →
      anyBit (kept &&& ctrlIntrflag ||| v &&& ctrlIntena) ctrlIntena) := by
  rw [anyBit_or, anyBit_or]
  constructor
  · intro hflag
    have hother : anyBit (v &&& ctrlIntena) ctrlIntrflag = false := by
      rw [anyBit_eq_false, BitVec.and_assoc]
      exact BitVec.and_zero
    rw [hother, Bool.or_false] at hflag
    have hset := anyBit_of_anyBit_and hflag
    rcases hkept with rfl | rfl
    · exact hset
    · exact anyBit_of_anyBit_and hset
  intro hv
  have hset : anyBit (v &&& ctrlIntena) ctrlIntena := by
    rw [anyBit, BitVec.and_assoc, BitVec.and_self]
    exact hv
  rw [hset, Bool.or_true]

lemma writeArming_eq {s₁ : OstimerState} (h : writeArming s off v = some s₁) :
    (flagged s₁ → flagged s) ∧
      (off = 0x1C → s₁.matchVal = s.matchVal ∧ (anyBit v ctrlIntena → intEnabled s₁)) := by
  unfold writeArming at h
  split_ifs at h with hlow hhigh hctrl hclear
  · cases h
    exact ⟨id, fun hoff => absurd (hlow.symm.trans hoff) (by decide)⟩
  · cases h
    exact ⟨id, fun hoff => absurd (hhigh.symm.trans hoff) (by decide)⟩
  · cases h
    obtain ⟨hflag, henable⟩ := ctrlWrite s.ctrl _ v (.inr rfl)
    exact ⟨hflag, fun _ => ⟨rfl, henable⟩⟩
  cases h
  obtain ⟨hflag, henable⟩ := ctrlWrite s.ctrl _ v (.inl rfl)
  exact ⟨hflag, fun _ => ⟨rfl, henable⟩⟩

lemma write_armedAt {w : Watched} (h : Kept w) (hbase : w.timer.baseNs ≤ now)
    (hfits : ProductFits w.timer.clkHz.toNat (now - w.timer.baseNs))
    (hwrite : mcxnOstimerWrite w.timer off v now = some s') :
    Kept ⟨s', armedAfter w.timer w.armedAt (.write off v now)⟩ ∧ (flagged s' → flagged w.timer) ∧
      ∀ s₁, writeArming w.timer off v = some s₁ → s'.matchVal = s₁.matchVal ∧
      (intEnabled s₁ → w.timer.counted now < s₁.matchVal.toNat → s'.timer.isSome) := by
  unfold mcxnOstimerWrite at hwrite
  cases harm : writeArming w.timer off v with
  | none =>
    rw [harm] at hwrite
    cases hwrite
    refine ⟨?_, id, fun s₁ hs₁ => absurd hs₁ (some_ne_none _).symm⟩
    rw [armedAfter, harm]
    exact h
  | some s₁ =>
    rw [harm] at hwrite
    obtain ⟨hclk, hcount, hns⟩ := writeArming_keeps harm
    have hflag := (writeArming_eq harm).1
    have hbased : Based s₁ now := ⟨hcount.trans h.count, hns.trans_le hbase⟩
    have hs' := ostimerReschedule_eq hwrite
    obtain ⟨hpend, hisSome⟩ := reschedule_armedAt (by rw [hclk]; exact h.hz) hbased
      (by rw [hclk, hns]; exact hfits) hwrite
    have hcounted : s₁.counted now = w.timer.counted now := by rw [counted, counted, hclk, hns]
    refine ⟨⟨?_, ?_, ?_⟩, ?_, ?_⟩
    · rw [hs']
      exact hclk ▸ h.hz
    · rw [hs']
      exact hbased.1
    · rw [armedAfter, harm]
      exact hpend
    · rw [hs']
      exact hflag
    intro s₂ hs₂
    cases hs₂
    refine ⟨by rw [hs'], fun hen hahead => hisSome.mpr ⟨hen, ?_⟩⟩
    rw [hcounted]
    exact hahead

variable {w w' : Watched} {e : Event}

lemma Kept.next (htimely : Timely w e) (h : Kept w) (hwatch : watch w e = some w') :
    Kept w' ∧ (flagged w'.timer → ¬ flagged w.timer → e = .tick) := by
  obtain ⟨s', hstep, rfl⟩ := Option.map_eq_some_iff.mp hwatch
  cases e with
  | clock hz => exact htimely.elim
  | read off now =>
    cases hstep
    exact ⟨h, fun hflag hnot => absurd hflag hnot⟩
  | tick =>
    cases hstep
    exact ⟨⟨h.hz, h.count, fun _ hdue => absurd hdue (by simp [ostimerTick, ostimerUpdateIrq])⟩,
      fun _ _ => rfl⟩
  | reset now =>
    cases hstep
    refine ⟨⟨h.hz, rfl, fun _ hdue => absurd hdue (by simp [mcxnOstimerReset])⟩, ?_⟩
    intro hflag
    exact absurd hflag (by simp [flagged, mcxnOstimerReset])
  | write off v now =>
    obtain ⟨hkept, hflag, -⟩ := write_armedAt h htimely.1 htimely.2 hstep
    exact ⟨hkept, fun hset hnot => absurd (hflag hset) hnot⟩

lemma pending_of_armsAhead (htimely : Timely w e) (h : Kept w)
    (harms : ArmsAhead w.timer e) (hwatch : watch w e = some w') : w'.timer.timer.isSome := by
  obtain ⟨s', hstep, rfl⟩ := Option.map_eq_some_iff.mp hwatch
  cases e with
  | write off v now =>
    obtain ⟨s₁, hs₁, hen, hahead⟩ := harms
    exact ((write_armedAt h htimely.1 htimely.2 hstep).2.2 s₁ hs₁).2 hen hahead
  | _ => exact harms.elim

lemma pending_next (hleaves : LeavesMatch w e)
    (h : Kept w ∧ w.timer.timer.isSome) (hwatch : watch w e = some w') :
    (Kept w' ∧ w'.timer.timer.isSome) ∧ w'.timer.matchVal = w.timer.matchVal := by
  obtain ⟨s', hstep, rfl⟩ := Option.map_eq_some_iff.mp hwatch
  cases e with
  | read off now =>
    cases hstep
    exact ⟨h, rfl⟩
  | write off v now =>
    obtain ⟨hlow, hhigh, hctrl⟩ := hleaves
    by_cases hoff : off = 0x1C
    · obtain ⟨hv, hbase, hfits, hahead⟩ := hctrl hoff
      obtain ⟨hkept, -, harms⟩ := write_armedAt h.1 hbase hfits hstep
      have hsome : (writeArming w.timer off v).isSome := by simp [writeArming, hoff]
      obtain ⟨s₁, hs₁⟩ := Option.isSome_iff_exists.mp hsome
      obtain ⟨hmatch, henable⟩ := (writeArming_eq hs₁).2 hoff
      obtain ⟨hsame, hpend⟩ := harms s₁ hs₁
      refine ⟨⟨hkept, hpend (henable hv) ?_⟩, hsame.trans hmatch⟩
      rw [hmatch]
      exact hahead
    have hnone : writeArming w.timer off v = none := by simp [writeArming, hlow, hhigh, hoff]
    have hplain : mcxnOstimerWrite w.timer off v now = some w.timer := by
      rw [mcxnOstimerWrite, hnone]
    obtain rfl := some.inj (hplain.symm.trans hstep)
    rw [armedAfter, hnone]
    exact ⟨h, rfl⟩
  | _ => exact hleaves.elim

lemma matchVal_of_writes {low high : Word} {t t' : ℤ}
    (h : s' ∈ runPartial step s [.write 0x10 low t, .write 0x14 high t'] ∨
      s' ∈ runPartial step s [.write 0x14 high t, .write 0x10 low t']) :
    s'.matchVal = matchOf (high &&& 0x3FF) low := by
  rcases h with h | h
  all_goals
    rw [mem_def, runPartial_cons, bind_eq_some_iff] at h
    obtain ⟨s₁, hfirst, h⟩ := h
    rw [runPartial_cons, bind_eq_some_iff] at h
    obtain ⟨s₂, hsecond, h⟩ := h
    cases h
    rw [ostimerReschedule_eq hsecond]
  · have hlow : s₁.matchGrayL = low := by rw [ostimerReschedule_eq hfirst]
    rw [hlow]
  have hhigh : s₁.matchGrayH = high &&& 0x3FF := by rw [ostimerReschedule_eq hfirst]
  rw [hhigh]

lemma timely_isSome (htimely : Timely w e) (h : Kept w) : (watch w e).isSome := by
  rw [watch, isSome_map]
  apply step_isSome
  cases e with
  | write off v now =>
    intro s' _ _ _ hzero
    have hhz := h.hz
    rw [hzero] at hhz
    exact absurd hhz (by decide)
  | _ => trivial

/-- In every run whose accesses come before the count overflows, only callbacks set the
flag, each of them sets it, and it does so in the count of the match just when the write that
armed it was far enough into its count and near enough to the match.  A match that is armed
and then left alone has a callback no later than in its count.  The two registers show the
count, and any match can be written through them. -/
theorem match_exact_iff (start : Watched) (hhz : 1 < start.timer.clkHz.toNat)
    (hcount : start.timer.baseCount = 0) (hidle : start.timer.timer = none)
    (events : List Event) (hadmits : AdmitsPartial watch Timely start events) :
    (runPartial watch start events).isSome ∧
    (∀ before e rest, events = before ++ e :: rest → ∀ w ∈ runPartial watch start before,
      ∀ w' ∈ watch w e, (flagged w'.timer → ¬ flagged w.timer → e = .tick) ∧
        (e = .tick → flagged w'.timer ∧ ∃ deadline, w.timer.timer = some deadline ∧
          (w.timer.matchVal.toNat ≤ w.timer.counted deadline ↔ OnTime w.timer w.armedAt)) ∧
        (ArmsAhead w.timer e → ∀ between, AdmitsPartial watch LeavesMatch w' between →
          ∀ w'' ∈ runPartial watch w' between, w''.timer.matchVal = w'.timer.matchVal ∧
            ∃ deadline, w''.timer.timer = some deadline ∧
              w''.timer.counted deadline ≤ w''.timer.matchVal.toNat)) ∧
    (∀ before, before <+: events → ∀ w ∈ runPartial watch start before, ∀ now,
      w.timer.baseNs ≤ now → evtimer w.timer now = (ostimerCount w.timer now).toNat ∧
        (ProductFits w.timer.clkHz.toNat (now - w.timer.baseNs) →
          evtimer w.timer now = w.timer.counted now % 2 ^ 42)) ∧
    ∀ (value : DoubleWord) s s' t t', value.toNat < 2 ^ 42 → (s' ∈ runPartial step s
          [.write 0x10 (grayLow value) t, .write 0x14 (grayHigh value) t'] ∨
        s' ∈ runPartial step s [.write 0x14 (grayHigh value) t, .write 0x10 (grayLow value) t']) →
      s'.matchVal = value := by
  have hkept : Kept start := ⟨hhz, hcount, fun _ hdeadline => absurd hdeadline (by simp [hidle])⟩
  have hinv : ∀ w e w', Timely w e → Kept w → watch w e = some w' → Kept w' :=
    fun _ _ _ htimely h hwatch => (h.next htimely hwatch).1
  have hstep : ∀ w e, Timely w e → Kept w → (watch w e).isSome :=
    fun _ _ htimely h => timely_isSome htimely h
  refine ⟨runPartial_isSome_of_admits hstep hinv hkept hadmits, ?_, ?_,
    fun value s s' t t' hvalue h => (matchVal_of_writes h).trans (matchOf_gray hvalue)⟩
  · rintro before e rest rfl w hw w' hwatch
    obtain ⟨h, htimely⟩ := every_step_of_admitsPartial hinv hkept hadmits w hw
    obtain ⟨h', hflag⟩ := h.next htimely hwatch
    refine ⟨hflag, ?_, ?_⟩
    · rintro rfl
      obtain ⟨deadline, hdeadline⟩ := Option.isSome_iff_exists.mp htimely
      refine ⟨?_, deadline, hdeadline, (h.pending deadline hdeadline).exact_iff⟩
      obtain ⟨s', hstep, rfl⟩ := Option.map_eq_some_iff.mp hwatch
      cases hstep
      refine (anyBit_or _ _ _).trans ?_
      rw [show anyBit ctrlIntrflag ctrlIntrflag = true by decide, Bool.or_true]
    intro harms between hleaves w'' hw''
    have hpending := pending_of_armsAhead htimely h harms hwatch
    obtain ⟨⟨h'', hsome⟩, hmatch⟩ := runPartial_invariant_of_admits
      (P := fun x => (Kept x ∧ x.timer.timer.isSome) ∧ x.timer.matchVal = w'.timer.matchVal)
      (fun x e y hleaves hx hxy =>
        ⟨(pending_next hleaves hx.1 hxy).1, (pending_next hleaves hx.1 hxy).2.trans hx.2⟩)
      ⟨⟨h', hpending⟩, rfl⟩ hleaves hw''
    obtain ⟨deadline, hdeadline⟩ := Option.isSome_iff_exists.mp hsome
    exact ⟨hmatch, deadline, hdeadline, (h''.pending deadline hdeadline).latest⟩
  rintro before ⟨rest, rfl⟩ w hw now hbase
  have h := runPartial_invariant_of_admits hinv hkept (admitsPartial_append.mp hadmits).1 hw
  refine ⟨evtimer_eq (toNat_ostimerCount_lt h.count now), fun hfits => ?_⟩
  obtain ⟨heq, hlt⟩ := evtimer_eq_ticks ⟨h.count, hbase⟩ hfits
  rw [← mod_eq_of_lt hlt, heq]
  rfl

def watchedAfter (hz : Word) (events : List Event) : Watched :=
  let start : Watched := ⟨mcxnOstimerReset { (Timers.powerOn hz).ostimer with clkHz := hz } 0, 0⟩
  (runPartial watch start events).getD start

def matchFive (later : List Event) : Watched :=
  watchedAfter 1000000 ([.write 0x14 0 0, .write 0x10 7 0] ++ later)

theorem megahertz_match_exact : (matchFive [.write 0x1C 2 500]).timer.timer = some 5500 ∧
      (matchFive [.write 0x1C 2 500]).timer.matchVal.toNat ≤
        (matchFive [.write 0x1C 2 500]).timer.counted 5500 := by
  have hwrite : watch (matchFive []) (.write 0x1C 2 500) = some (matchFive [.write 0x1C 2 500]) :=
    rfl
  have htick : watch (matchFive [.write 0x1C 2 500]) .tick =
      some (matchFive [.write 0x1C 2 500, .tick]) := rfl
  have hadmits : AdmitsPartial watch Timely (matchFive []) [.write 0x1C 2 500, .tick] := by
    refine ⟨⟨by decide +kernel, by unfold ProductFits; decide +kernel⟩, fun next hnext => ?_⟩
    obtain rfl := some.inj (hwrite.symm.trans hnext)
    exact ⟨show _ = true by decide +kernel, fun _ _ => trivial⟩
  have hexact := (match_exact_iff (matchFive []) (by decide +kernel) (by decide +kernel)
    (by decide +kernel) _ hadmits).2.1 [.write 0x1C 2 500] .tick [] rfl
    (matchFive [.write 0x1C 2 500])
    (by rw [mem_def, runPartial_cons, hwrite]; rfl) _ htick
  obtain ⟨deadline, hdeadline, hiff⟩ := (hexact.2.1 rfl).2
  have hpending : (matchFive [.write 0x1C 2 500]).timer.timer = some 5500 := by decide +kernel
  obtain rfl := some.inj (hpending.symm.trans hdeadline)
  have hwhole : WholeDelay (matchFive [.write 0x1C 2 500]).timer.clkHz.toNat 5 := by
    decide +kernel
  exact ⟨hpending, hiff.mpr ⟨by decide +kernel, hwhole.onCount _⟩⟩

theorem slow_match_early :
    let s := (watchedAfter 32768 [.write 0x14 0 0, .write 0x10 1 0, .write 0x1C 2 0]).timer
    let t := (watchedAfter 1000000 [.write 0x14 0 500, .write 0x10 1 500, .write 0x1C 2 500]).timer
    s.matchVal = 1 ∧ s.timer = some 30517 ∧ ostimerCount s 30517 = 0 ∧ s.counted 30517 = 0 ∧
      anyBit (ostimerTick s).ctrl ctrlIntrflag = true ∧
      t.matchVal = 1 ∧ t.timer = some 1500 ∧ ostimerCount t 1200 = 1 ∧
      (mcxnOstimerWrite t 0x1C 2 1200).map (fun t' => (t'.timer, t'.ctrl)) = some (none, 2) := by
  decide +kernel

end Mcxn947.Ostimer
