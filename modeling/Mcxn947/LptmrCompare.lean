import Mcxn947.RoundedDeadlines
import Mcxn947.TimerCounts

/-!
# Compare events of the low-power timer

The callback is armed for the time, in whole nanoseconds, until the counter has passed
`CMR`, and every write to a register arms it again from the whole counts that have passed.
-/

namespace Mcxn947.Lptmr

open MachineWords EventRuns RatedCounters Option Nat LptmrState

def LptmrState.pass (s : LptmrState) : ℕ := s.cmr.toNat + 1

section Counter

open BitVec

variable {s : LptmrState} {f : Word}

lemma toNat_and_halfMask (v : Word) : (v &&& 0xFFFF).toNat = v.toNat % 65536 := by
  exact and_two_pow_sub_one_eq_mod v.toNat 16

variable {now : ℤ}

section

variable (hten : anyBit s.csr csrTen = true) (hfreq : lptmrFreq s = some f)
include hten hfreq

lemma peek_eq (hcnr : s.cnr = 0) (hbase : s.baseNs ≤ now)
    (hfits : ProductFits f.toNat (now - s.baseNs)) :
    lptmrPeek s now = some (BitVec.ofNat 32 (ticks f.toNat (now - s.baseNs).toNat % 65536)) := by
  rcases hbase.eq_or_lt with hnow | hnow
  · have hzero : (now - s.baseNs).toNat = 0 := by omega
    rw [lptmrPeek, if_pos (.inr hnow.ge), hcnr, hzero, ticks_zero]
    rfl
  have hlive : ¬ (!anyBit s.csr csrTen ∨ now ≤ s.baseNs) := by
    rw [hten]
    simpa using hnow
  rw [lptmrPeek, if_neg hlive, hfreq]
  refine congrArg some (eq_of_toNat_eq ?_)
  have hticks := toNat_clockTicks (by omega : 0 ≤ now - s.baseNs) hfits
  have hlt : ticks f.toNat (now - s.baseNs).toNat % 65536 < 2 ^ 32 :=
    (mod_lt _ (by decide)).trans (by decide)
  rw [toNat_and_halfMask, toNat_setWidth, hcnr, toNat_ofNat, mod_eq_of_lt hlt, toNat_add, hticks]
  have hzero : ((0 : Word).setWidth 64).toNat = 0 := rfl
  rw [hzero, Nat.zero_add, mod_mod_of_dvd _ (by decide), mod_mod_of_dvd _ (by decide)]

lemma lptmrReschedule_eq (hrate : f ≠ 0) (hcnr : s.cnr = 0) (hcmr : s.cmr.toNat < 65536)
    (hwhole : WholeDelay f.toNat s.pass) (hbase : s.baseNs ≤ now)
    (hearly : now < s.baseNs + delay f.toNat s.pass)
    (hedge : OnEdge f.toNat (now - s.baseNs).toNat) :
    lptmrReschedule s now = some { s with timer := some (s.baseNs + delay f.toNat s.pass) } := by
  have hpos : 0 < f.toNat := zero_lt_of_lt hedge
  have hpass : s.pass = s.cmr.toNat + 1 := rfl
  have helapsed : (now - s.baseNs).toNat < delay f.toNat s.pass := by omega
  have hcounted := ticks_lt_of_lt_delay hpos helapsed
  have hprod : s.pass * second < 2 ^ 63 := by
    rw [hpass, second]
    omega
  have hfits : ProductFits f.toNat (now - s.baseNs) := by
    have hle := Nat.mul_le_mul_left f.toNat helapsed.le
    rw [hwhole.mul_delay] at hle
    rw [ProductFits]
    omega
  have hpeek := peek_eq hten hfreq hcnr hbase hfits
  rw [mod_eq_of_lt (by omega)] at hpeek
  have hcur : (BitVec.ofNat 32 (ticks f.toNat (now - s.baseNs).toNat)).toNat =
      ticks f.toNat (now - s.baseNs).toNat := by
    rw [toNat_ofNat]
    omega
  have hle : BitVec.ofNat 32 (ticks f.toNat (now - s.baseNs).toNat) ≤ s.cmr := by
    rw [le_def, hcur]
    omega
  have hremain : ((s.cmr - BitVec.ofNat 32 (ticks f.toNat (now - s.baseNs).toNat) + 1).setWidth 64 :
      DoubleWord).toNat = s.pass - ticks f.toNat (now - s.baseNs).toNat := by
    have hone : (1 : Word).toNat = 1 := rfl
    rw [toNat_setWidth, toNat_add, toNat_sub_of_le hle, hcur, hone, hpass]
    omega
  have hless : (s.pass - ticks f.toNat (now - s.baseNs).toNat) * second ≤ s.pass * second :=
    Nat.mul_le_mul_right _ (sub_le _ _)
  have hdelay : DelayFits f.toNat (s.pass - ticks f.toNat (now - s.baseNs).toNat) :=
    ⟨by omega, (Nat.div_le_self _ _).trans_lt (by omega)⟩
  obtain ⟨ns, hdiv, -, hns⟩ := udiv?_delay hrate (by rw [hremain]; exact hdelay)
  have hkept := hwhole.add_delay_sub helapsed.le hedge
  rw [lptmrReschedule, if_neg (by rw [hten]; decide), hfreq]
  simp only [bind_eq_bind, bind_some, if_neg hrate, hpeek, if_pos hle, hdiv, hns, hremain]
  have htime : now + (delay f.toNat (s.pass - ticks f.toNat (now - s.baseNs).toNat) : ℤ) =
      s.baseNs + delay f.toNat s.pass := by omega
  rw [htime]

end

end Counter

def ClearsFlag (s : LptmrState) (v : Word) : Prop :=
  anyBit v csrTcf = true ∧ v &&& ~~~csrTcf = s.csr &&& ~~~csrTcf

def OnEdges (s : LptmrState) : Event → Prop
  | .tick now => s.timer = some now
  | .read _ _ => True
  | .write off v now => off = 0x0 ∧ ClearsFlag s v ∧ s.baseNs ≤ now ∧
      (∀ deadline ∈ s.timer, now < deadline) ∧
      ∀ f ∈ lptmrFreq s, OnEdge f.toNat (now - s.baseNs).toNat
  | _ => False

structure Enabled (start : LptmrState) (f : Word) : Prop where
  freq : lptmrFreq start = some f
  rate : f ≠ 0
  cmr : start.cmr.toNat < 65536
  whole : WholeDelay f.toNat start.pass
  mode : anyBit start.csr csrTfc = true → start.pass = 65536

def passes (start s : LptmrState) : ℕ := s.triggerPulses - start.triggerPulses

structure Paced (start : LptmrState) (f : Word) (t₀ : ℤ) (s : LptmrState) : Prop where
  ten : anyBit s.csr csrTen = true
  tfc : anyBit s.csr csrTfc = anyBit start.csr csrTfc
  psr : s.psr = start.psr
  clkHz : s.clkHz = start.clkHz
  cmr : s.cmr = start.cmr
  cnr : s.cnr = 0
  pulses : start.triggerPulses ≤ s.triggerPulses
  since : t₀ ≤ s.baseNs
  ends : f.toNat * (s.baseNs - t₀).toNat = passes start s * start.pass * second
  timer : s.timer = some (s.baseNs + delay f.toNat start.pass)

section Paced

variable {start s s' : LptmrState} {f : Word} {t₀ now : ℤ}

lemma Enabled.rate_pos (h : Enabled start f) : 0 < f.toNat := by
  rw [Nat.pos_iff_ne_zero]
  exact fun hzero => h.rate (BitVec.eq_of_toNat_eq hzero)

lemma Enabled.delay_pos (h : Enabled start f) : 0 < delay f.toNat start.pass := by
  have hmul := h.whole.mul_delay
  have hpos : 0 < start.pass * second := Nat.mul_pos (succ_pos _) second_pos
  rw [← hmul] at hpos
  exact Nat.pos_of_mul_pos_left hpos

section

variable (h : Paced start f t₀ s)
include h

lemma Paced.freq (hset : Enabled start f) : lptmrFreq s = some f := by
  have hsame : lptmrFreq s = lptmrFreq start := by
    rw [lptmrFreq, lptmrFreq, lptmrSourceHz, lptmrSourceHz, lptmrDivider, lptmrDivider, h.psr,
      h.clkHz]
  rw [hsame, hset.freq]

lemma Paced.pass : s.pass = start.pass := by
  rw [LptmrState.pass, h.cmr]
  rfl

lemma Paced.deadline (hset : Enabled start f) :
    f.toNat * (s.baseNs + delay f.toNat start.pass - t₀).toNat =
      (passes start s + 1) * start.pass * second := by
  have hsplit : (s.baseNs + delay f.toNat start.pass - t₀).toNat =
      (s.baseNs - t₀).toNat + delay f.toNat start.pass := by
    have := h.since
    omega
  rw [hsplit, Nat.mul_add, h.ends, hset.whole.mul_delay]
  ring

end

lemma reschedule_base (hset : Enabled start f) (hten : anyBit s.csr csrTen)
    (hfreq : lptmrFreq s = some f) (hcmr : s.cmr = start.cmr) (hcnr : s.cnr = 0) :
    lptmrReschedule s s.baseNs =
      some { s with timer := some (s.baseNs + delay f.toNat start.pass) } := by
  have hpass : s.pass = start.pass := by rw [LptmrState.pass, hcmr]; rfl
  have hedge : OnEdge f.toNat (s.baseNs - s.baseNs).toNat := by
    rw [OnEdge, sub_self, Int.toNat_zero, Nat.mul_zero, zero_mod]
    exact hset.rate_pos
  have hpos := hset.delay_pos
  rw [← hpass] at hpos ⊢
  exact lptmrReschedule_eq hten hfreq hset.rate hcnr (by rw [hcmr]; exact hset.cmr)
    (by rw [hpass]; exact hset.whole) le_rfl (by omega) hedge

lemma anyBit_or_tcf {mask : Word} (h : anyBit csrTcf mask = false) (v : Word) :
    anyBit (v ||| csrTcf) mask = anyBit v mask := by
  rw [anyBit_or, h, Bool.or_false]

def compared (s : LptmrState) (cnr : Word) (now : ℤ) : LptmrState :=
  { lptmrUpdateIrq { s with timer := none, csr := s.csr ||| csrTcf, cnr := cnr, baseNs := now } with
    triggerPulses := s.triggerPulses + 1 }

lemma tick_eq (s : LptmrState) (now : ℤ) : lptmrTick s now =
      (if anyBit (s.csr ||| csrTcf) csrTfc then
        lptmrPeek { s with timer := none, csr := s.csr ||| csrTcf } now
      else some 0).bind fun cnr => lptmrReschedule (compared s cnr now) now := by
  simp only [lptmrTick]
  split <;> rfl

lemma Paced.tick (h : Paced start f t₀ s) (hset : Enabled start f) (htimer : s.timer = some now)
    (htick : lptmrTick s now = some s') :
    Paced start f t₀ s' ∧ f.toNat * (now - t₀).toNat = (passes start s + 1) * start.pass * second ∧
      s'.triggerPulses = s.triggerPulses + 1 ∧ anyBit s'.csr csrTcf := by
  have hnow : now = s.baseNs + delay f.toNat start.pass :=
    Option.some.inj (htimer.symm.trans h.timer)
  have hten : anyBit (s.csr ||| csrTcf) csrTen := (anyBit_or_tcf (by decide) _).trans h.ten
  have htfc : anyBit (s.csr ||| csrTcf) csrTfc = anyBit start.csr csrTfc :=
    (anyBit_or_tcf (by decide) _).trans h.tfc
  have hfits : ProductFits f.toNat (now - s.baseNs) := by
    have helapsed : (now - s.baseNs).toNat = delay f.toNat start.pass := by omega
    rw [ProductFits, helapsed, hset.whole.mul_delay, LptmrState.pass, second]
    omega
  -- the counter is at 0 again, whether it is set or wraps
  have hcnr : (if anyBit (s.csr ||| csrTcf) csrTfc then
      lptmrPeek { s with timer := none, csr := s.csr ||| csrTcf } now else some 0) =
      some 0 := by
    split
    next hfree =>
      have helapsed : (now - s.baseNs).toNat = delay f.toNat start.pass := by omega
      have hpeek := peek_eq (s := { s with timer := none, csr := s.csr ||| csrTcf }) hten
        (h.freq hset) h.cnr (show s.baseNs ≤ now by omega) hfits
      rw [hpeek, helapsed, hset.whole.ticks_delay, hset.mode (htfc.symm.trans hfree)]
      rfl
    · rfl
  rw [tick_eq, hcnr, bind_some] at htick
  have harmed := reschedule_base (s := compared s 0 now) hset hten (h.freq hset) h.cmr rfl
  obtain rfl := Option.some.inj (harmed.symm.trans htick)
  have hdue := h.deadline hset
  rw [← hnow] at hdue
  have hpulses := h.pulses
  have hcount : s.triggerPulses + 1 - start.triggerPulses = passes start s + 1 := by
    rw [passes]
    omega
  refine ⟨⟨hten, htfc, h.psr, h.clkHz, h.cmr, rfl, ?_, ?_, ?_, rfl⟩, hdue, rfl, ?_⟩
  · exact hpulses.trans (le_succ _)
  · have := h.since
    show t₀ ≤ now
    omega
  · show f.toNat * (now - t₀).toNat = (s.triggerPulses + 1 - start.triggerPulses) * _ * _
    rw [hcount, hdue]
  · refine (anyBit_or _ _ _).trans ?_
    rw [show anyBit csrTcf csrTcf = true by decide, Bool.or_true]

lemma anyBit_clear_tcf (v : Word) : anyBit (v &&& ~~~csrTcf) csrTcf = false :=
  anyBit_clear_of_subset (show csrTcf &&& ~~~csrTcf = 0 by decide) v

variable {v : Word}

lemma writeCsr_clears (hten : anyBit s.csr csrTen) (h : ClearsFlag s v) :
    writeCsr s v now = lptmrUpdateIrq { s with csr := s.csr &&& ~~~csrTcf } := by
  have hcleared := anyBit_eq_false.mp (anyBit_clear_tcf s.csr)
  have hcsr : (s.csr &&& ~~~csrTcf &&& csrTcf) ||| (v &&& ~~~csrTcf) = s.csr &&& ~~~csrTcf := by
    rw [hcleared, h.2]
    exact BitVec.zero_or
  have hten' : anyBit (s.csr &&& ~~~csrTcf) csrTen = true := by
    rw [anyBit_clear_of_disjoint (by decide)]
    exact hten
  simp only [writeCsr, if_pos h.1, hcsr, hten, hten', Bool.true_eq_false, and_false, if_false,
    if_true]

lemma Paced.clear (h : Paced start f t₀ s) (hset : Enabled start f)
    (hclears : ClearsFlag s v) (hbase : s.baseNs ≤ now)
    (hearly : ∀ deadline ∈ s.timer, now < deadline)
    (hedge : OnEdge f.toNat (now - s.baseNs).toNat) (hwrite : lptmrWrite s 0x0 v now = some s') :
    Paced start f t₀ s' ∧ s'.triggerPulses = s.triggerPulses ∧ anyBit s'.csr csrTcf = false := by
  have hten : anyBit (s.csr &&& ~~~csrTcf) csrTen := by
    rw [anyBit_clear_of_disjoint (by decide)]
    exact h.ten
  have htfc : anyBit (s.csr &&& ~~~csrTcf) csrTfc = anyBit start.csr csrTfc := by
    rw [anyBit_clear_of_disjoint (by decide)]
    exact h.tfc
  have hdue := hearly _ h.timer
  rw [lptmrWrite, if_pos rfl, writeCsr_clears h.ten hclears] at hwrite
  rw [← h.pass] at hdue
  have harmed := lptmrReschedule_eq
    (s := lptmrUpdateIrq { s with csr := s.csr &&& ~~~csrTcf }) hten (h.freq hset) hset.rate h.cnr
    (show s.cmr.toNat < 65536 by rw [h.cmr]; exact hset.cmr)
    (show WholeDelay f.toNat s.pass by rw [h.pass]; exact hset.whole) hbase hdue hedge
  obtain rfl := some.inj (harmed.symm.trans hwrite)
  refine ⟨⟨hten, htfc, h.psr, h.clkHz, h.cmr, h.cnr, h.pulses, h.since, h.ends, ?_⟩, rfl, ?_⟩
  · show some (s.baseNs + (delay f.toNat s.pass : ℤ)) = _
    rw [h.pass]
    rfl
  · exact anyBit_clear_tcf s.csr

end Paced

variable {s s' : LptmrState}

lemma reschedule_timer {now : ℤ} (h : lptmrReschedule s now = some s') :
    s' = { s with timer := s'.timer } := by
  unfold lptmrReschedule at h
  split at h
  · cases h
    rfl
  obtain ⟨freq, -, h⟩ := Option.bind_eq_some_iff.mp h
  split at h
  · cases h
    rfl
  obtain ⟨cur, -, h⟩ := Option.bind_eq_some_iff.mp h
  obtain ⟨ns, -, h⟩ := Option.bind_eq_some_iff.mp h
  cases h
  rfl

variable {v : Word}

lemma writeCsr_enables (hoff : anyBit s.csr csrTen = false) (hon : anyBit v csrTen) (now : ℤ) :
    ∃ csr, writeCsr s v now = lptmrUpdateIrq { s with csr := csr, cnr := 0, baseNs := now } ∧
      anyBit csr csrTen := by
  have hten : ∀ kept : Word, anyBit (kept &&& csrTcf ||| v &&& ~~~csrTcf) csrTen := by
    intro kept
    rw [anyBit_or, anyBit_clear_of_disjoint (show csrTcf &&& csrTen = 0 by decide), hon,
      Bool.or_true]
  refine ⟨_, ?_, hten (if anyBit v csrTcf then s.csr &&& ~~~csrTcf else s.csr)⟩
  simp only [writeCsr, hten, hoff, and_self, if_true]

variable {start : LptmrState} {f : Word} {t₀ : ℤ}

lemma paced_start {s₀ : LptmrState} (hoff : anyBit s₀.csr csrTen = false) (hon : anyBit v csrTen)
    (hstart : lptmrWrite s₀ 0x0 v t₀ = some start) (hset : Enabled start f) :
    Paced start f t₀ start := by
  obtain ⟨csr, hcsr, hten⟩ := writeCsr_enables hoff hon t₀
  rw [lptmrWrite, if_pos rfl, hcsr] at hstart
  have hsame := reschedule_timer hstart
  have hcmr : s₀.cmr = start.cmr := by rw [hsame]; rfl
  have hfreq : lptmrFreq s₀ = some f := by
    rw [← hset.freq, hsame]
    rfl
  have harmed := reschedule_base
    (s := lptmrUpdateIrq { s₀ with csr := csr, cnr := 0, baseNs := t₀ }) hset hten hfreq hcmr rfl
  have hequal := some.inj (harmed.symm.trans hstart)
  have hbase : start.baseNs = t₀ := by rw [hsame]; rfl
  refine ⟨?_, rfl, rfl, rfl, rfl, ?_, le_rfl, hbase.ge, ?_, ?_⟩
  · rw [hsame]
    exact hten
  · rw [hsame]
    rfl
  · rw [hbase, passes, sub_self, Nat.sub_self]
    simp
  · rw [hbase]
    exact (congrArg timer hequal).symm

lemma Paced.next {e : Event}
    (hset : Enabled start f) (hguard : OnEdges s e) (h : Paced start f t₀ s)
    (hstep : step s e = some s') : Paced start f t₀ s' ∧ (∀ now, e = .tick now →
      f.toNat * (now - t₀).toNat = (passes start s + 1) * start.pass * second ∧
      s'.triggerPulses = s.triggerPulses + 1 ∧ anyBit s'.csr csrTcf) ∧
      ((∀ now, e ≠ .tick now) → s'.triggerPulses = s.triggerPulses ∧
      (anyBit s'.csr csrTcf → anyBit s.csr csrTcf)) := by
  cases e with
  | tick now =>
    obtain ⟨hpaced, hevent⟩ := h.tick hset hguard hstep
    refine ⟨hpaced, ?_, fun hother => absurd rfl (hother now)⟩
    rintro now' hnow
    obtain rfl := Event.tick.inj hnow
    exact hevent
  | read off now =>
    obtain ⟨-, -, rfl⟩ := Option.map_eq_some_iff.mp hstep
    exact ⟨h, fun _ htick => absurd htick (by simp), fun _ => ⟨rfl, id⟩⟩
  | write off v now =>
    obtain ⟨rfl, hclears, hbase, hearly, hedge⟩ := hguard
    obtain ⟨hpaced, hpulses, hflag⟩ :=
      h.clear hset hclears hbase hearly (hedge f (h.freq hset)) hstep
    refine ⟨hpaced, fun _ htick => absurd htick (by simp), fun _ => ⟨hpulses, fun hset => ?_⟩⟩
    exact absurd (hflag.symm.trans hset) (by decide)
  | _ => exact hguard.elim

lemma Paced.cnr_read {t : ℤ} (h : Paced start f t₀ s)
    (hset : Enabled start f) (hfree : anyBit start.csr csrTfc) (ht : s.baseNs ≤ t)
    (hdue : ∀ deadline ∈ s.timer, t ≤ deadline) :
    lptmrRead s 0xC t = some (BitVec.ofNat 32 (ticks f.toNat (t - t₀).toNat % 65536)) := by
  have helapsed : (t - s.baseNs).toNat ≤ delay f.toNat start.pass := by
    have := hdue _ h.timer
    omega
  have hfits : ProductFits f.toNat (t - s.baseNs) := by
    have hle := Nat.mul_le_mul_left f.toNat helapsed
    rw [hset.whole.mul_delay, hset.mode hfree, second] at hle
    rw [ProductFits]
    omega
  have hsplit : (t - t₀).toNat = (s.baseNs - t₀).toNat + (t - s.baseNs).toNat := by
    have := h.since
    omega
  have hends := h.ends
  rw [hset.mode hfree] at hends
  have hwhole : second ∣ f.toNat * (s.baseNs - t₀).toNat := by
    rw [hends]
    exact Nat.dvd_mul_left _ _
  have hticks : ticks f.toNat (s.baseNs - t₀).toNat = passes start s * 65536 := by
    rw [ticks, hends, Nat.mul_div_cancel _ second_pos]
  have hpeek := peek_eq h.ten (h.freq hset) h.cnr ht hfits
  rw [hsplit, (ticks_add_eq_iff _ _ _).mpr (noCarry_of_whole _ hwhole), hticks,
    mul_add_mod_self_right]
  exact hpeek

/-- A timer is enabled at `t₀`.  If a pass takes whole nanoseconds and the counter is at 0
after the compare (it restarts, or `CMR` is its last value), then along every run of
callbacks at their deadlines, reads, and writes that clear the flag on an edge, the `k`-th
event comes `k` passes after `t₀`, with one pulse and the flag; nothing else pulses the
trigger or sets the flag; the next event is always pending for the end of the next pass; and
a free-running counter shows the counts since `t₀`. -/
theorem compare_once_per_pass (s₀ start : LptmrState) (f v : Word) (t₀ : ℤ)
    (hoff : anyBit s₀.csr csrTen = false) (hon : anyBit v csrTen = true)
    (hstart : lptmrWrite s₀ 0x0 v t₀ = some start) (hset : Enabled start f)
    (events : List Event) (hadmits : AdmitsPartial step OnEdges start events) :
    (runPartial step start events).isSome ∧
    (∀ before e rest, events = before ++ e :: rest → ∀ s ∈ runPartial step start before,
      ∀ s' ∈ step s e, (∀ now, e = .tick now →
          f.toNat * (now - t₀).toNat = (passes start s + 1) * start.pass * second ∧
          s'.triggerPulses = s.triggerPulses + 1 ∧ anyBit s'.csr csrTcf = true) ∧
        ((∀ now, e ≠ .tick now) → s'.triggerPulses = s.triggerPulses ∧
          (anyBit s'.csr csrTcf = true → anyBit s.csr csrTcf = true))) ∧
    ∀ before, before <+: events → ∀ s ∈ runPartial step start before,
      (∃ deadline, s.timer = some deadline ∧
        f.toNat * (deadline - t₀).toNat = (passes start s + 1) * start.pass * second) ∧
      (anyBit start.csr csrTfc = true → ∀ t, s.baseNs ≤ t → (∀ deadline ∈ s.timer, t ≤ deadline) →
        lptmrRead s 0xC t = some (BitVec.ofNat 32 (ticks f.toNat (t - t₀).toNat % 65536))) := by
  have hpaced := paced_start hoff hon hstart hset
  have hinv : ∀ s e s', OnEdges s e → Paced start f t₀ s → step s e = some s' →
      Paced start f t₀ s' :=
    fun _ _ _ hguard h hstep => (h.next hset hguard hstep).1
  refine ⟨?_, ?_, ?_⟩
  · exact runPartial_isSome_of_admits (P := Paced start f t₀) (fun s e _ _ => step_isSome s e) hinv
      hpaced hadmits
  · rintro before e rest rfl s hs s' hstep
    obtain ⟨h, hguard⟩ := every_step_of_admitsPartial hinv hpaced hadmits s hs
    exact (h.next hset hguard hstep).2
  rintro before ⟨rest, rfl⟩ s hs
  have h := runPartial_invariant_of_admits hinv hpaced (admitsPartial_append.mp hadmits).1 hs
  exact ⟨⟨_, h.timer, h.deadline hset⟩, fun hfree t ht hdue => h.cnr_read hset hfree ht hdue⟩

def runFromReset (events : List Event) : LptmrState :=
  let start := mcxnLptmrReset (Timers.powerOn 12000000).lptmr
  (runPartial step start events).getD start

def setUp (pcs cmr : Word) (later : List Event) : LptmrState :=
  runFromReset ([.write 0x4 (psrPbyp ||| pcs) 0, .write 0x8 cmr 0] ++ later)

theorem sixteen_counts_once_per_pass : AdmitsPartial step OnEdges (setUp 1 15 [.write 0x0 1 0])
        [.tick 1000000, .write 0x0 0x81 1062500] ∧
      ∃ deadline, (setUp 1 15 [.write 0x0 1 0, .tick 1000000, .write 0x0 0x81 1062500]).timer =
        some deadline ∧ 16000 * (deadline - 0).toNat = 2 * 16 * second := by
  have hon : lptmrWrite (setUp 1 15 []) 0x0 1 0 = some (setUp 1 15 [.write 0x0 1 0]) := rfl
  have hfirst : step (setUp 1 15 [.write 0x0 1 0]) (.tick 1000000) =
      some (setUp 1 15 [.write 0x0 1 0, .tick 1000000]) := rfl
  have hsecond : step (setUp 1 15 [.write 0x0 1 0, .tick 1000000]) (.write 0x0 0x81 1062500) =
      some (setUp 1 15 [.write 0x0 1 0, .tick 1000000, .write 0x0 0x81 1062500]) := rfl
  have hfreq : lptmrFreq (setUp 1 15 [.write 0x0 1 0, .tick 1000000]) = some 16000 := rfl
  have hadmits : AdmitsPartial step OnEdges (setUp 1 15 [.write 0x0 1 0])
      [.tick 1000000, .write 0x0 0x81 1062500] := by
    refine ⟨show _ = some _ by decide +kernel, fun next hnext => ?_⟩
    obtain rfl := some.inj (hfirst.symm.trans hnext)
    refine ⟨⟨rfl, ⟨by decide +kernel, by decide +kernel⟩, by decide +kernel, by decide +kernel, ?_⟩,
      fun _ _ => trivial⟩
    intro f hf
    obtain rfl := some.inj (hfreq.symm.trans hf)
    decide +kernel
  have hset : Enabled (setUp 1 15 [.write 0x0 1 0]) 16000 :=
    ⟨rfl, by decide, by decide +kernel, by decide +kernel,
      fun hfree => absurd hfree (by decide +kernel)⟩
  refine ⟨hadmits, ?_⟩
  have hpass := (compare_once_per_pass _ _ 16000 1 0 (by decide +kernel) (by decide) hon hset _
    hadmits).2.2 _ List.prefix_rfl
    (setUp 1 15 [.write 0x0 1 0, .tick 1000000, .write 0x0 0x81 1062500])
    (by rw [mem_def, runPartial_cons, hfirst, bind_some, runPartial_cons, hsecond]; rfl)
  exact hpass.1

theorem free_running_fires_again :
    let on := Event.write 0x0 5 0
    (setUp 1 15 [on]).timer = some 1000000 ∧ (setUp 1 15 [on, .tick 1000000]).timer = some 1062500 ∧
      (setUp 1 15 [on, .tick 1000000, .tick 1062500]).triggerPulses = 2 ∧
      lptmrRead (setUp 1 15 [on, .tick 1000000]) 0xC 1062500 = some 17 ∧
      (setUp 2 0 [.write 0x0 1 0]).timer = some 30517 ∧
      lptmrRead (setUp 2 0 [.write 0x0 1 0]) 0xC 30517 = some 0 := by
  decide +kernel

end Mcxn947.Lptmr
