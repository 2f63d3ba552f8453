import Mcxn947.MrtChannels

/-!
# Periods of the multi-rate timer

A channel in repeat mode begins its next period at the time of the callback that found it
expired, so a period that ends late makes all later ones late.
-/

namespace Mcxn947.Mrt

open MachineWords EventRuns RatedCounters BitVec Function

structure Watched where
  timers : MrtState
  raised : ℕ

def watch (n : Channel) (w : Watched) (e : Event) : Option Watched :=
  (step w.timers e).map fun s => ⟨s, if raises n w.timers e then w.raised + 1 else w.raised⟩

/-- Channel `n`, of interval `counts`, is left in repeat mode, no write of another interval
overtakes a callback that is due, and callbacks are late by less than a period of it. -/
def Steady (n : Channel) (counts : ℕ) (w : Watched) : Event → Prop
  | .clock _ => False
  | .reset => False
  | .read _ _ => True
  | .write off v now => off ≠ 0x10 * n.val ∧
      (off = 0x10 * n.val + 0x8 → (v &&& 0x7 &&& ctrlMode) >>> 1 = 0) ∧
      (∀ m : Channel, off = 0x10 * m.val →
        w.timers.baseNs n ≤ now ∧ ∀ deadline ∈ w.timers.timer, now < deadline)
  | .tick now => ∀ deadline ∈ w.timers.timer, deadline ≤ now ∧
      w.timers.clkHz.toNat * (now - deadline).toNat < counts * second

def Prompt (n : Channel) (counts : ℕ) (w : Watched) (e : Event) : Prop :=
  Steady n counts w e ∧ ∀ now, e = .tick now → raises n w.timers e = true →
    w.timers.clkHz.toNat * (now - w.timers.baseNs n).toNat = counts * second

structure Repeating (n : Channel) (counts : ℕ) (s : MrtState) : Prop where
  clkHz : s.clkHz ≠ 0
  slow : s.clkHz.toNat ≤ second
  run : running s n = true
  load : (s.load n).toNat = counts
  interval : s.intval n ≠ 0
  reload : (s.intval n &&& intvalIvalue).toNat = counts
  positive : 0 < counts
  mode : repeats s n

/-- Since the channel was loaded at `t₀`, it has begun its periods no earlier than it should,
and its next callback is due within a clock of the end of the current one. -/
structure Paced (n : Channel) (counts : ℕ) (t₀ : ℤ) (w : Watched) : Prop where
  repeating : Repeating n counts w.timers
  since : t₀ ≤ w.timers.baseNs n
  lower : w.raised * counts * second ≤ w.timers.clkHz.toNat * (w.timers.baseNs n - t₀).toNat
  due : ∃ deadline, w.timers.timer = some deadline ∧ w.timers.baseNs n ≤ deadline ∧
    w.timers.clkHz.toNat * (deadline - w.timers.baseNs n).toNat < counts * second + second

variable {n : Channel} {counts : ℕ} {s : MrtState}

lemma Repeating.congr {s' : MrtState} (h : Repeating n counts s)
    (hview : view n s' = view n s) (hclk : s'.clkHz = s.clkHz) : Repeating n counts s' := by
  have hrun := running_congr hview
  simp only [view, Prod.mk.injEq] at hview
  obtain ⟨hintval, hctrl, -, hload, -⟩ := hview
  refine ⟨?_, ?_, hrun.trans h.run, ?_, ?_, ?_, h.positive, ?_⟩
  · rw [hclk]
    exact h.clkHz
  · rw [hclk]
    exact h.slow
  · rw [hload]
    exact h.load
  · rw [hintval]
    exact h.interval
  · rw [hintval]
    exact h.reload
  · rw [repeats, hctrl]
    exact h.mode

lemma Repeating.size (h : Repeating n counts s) : counts < 2 ^ 31 := by
  have hmask : (s.intval n &&& intvalIvalue).toNat ≤ intvalIvalue.toNat := by exact Nat.and_le_right
  rw [h.reload] at hmask
  exact Nat.lt_of_le_of_lt hmask (by decide)

section Arming

variable {s s' : MrtState} {n : Channel} {now : ℤ} {counts : ℕ}

lemma Repeating.due_of_live (hrep : Repeating n counts s) (hbase : s.baseNs n ≤ now)
    (hfits : ProductFits s.clkHz.toNat (now - s.baseNs n)) (hlive : mrtPeek s n now ≠ 0)
    (h : mrtReschedule s now = some s') :
    ∃ deadline, s'.timer = some deadline ∧ s.baseNs n ≤ deadline ∧
      s.clkHz.toNat * (deadline - s.baseNs n).toNat < counts * second + second := by
  obtain ⟨hclk, hslow, hrun, hload, -⟩ := hrep
  obtain ⟨deadline, hdue, hlater, hle⟩ := reschedule_deadline hclk hrun h
  have hpeek := toNat_mrtPeek hrun hbase hfits
  have hpos : 0 < (mrtPeek s n now).toNat := by
    rw [Nat.pos_iff_ne_zero]
    exact fun hzero => hlive (eq_of_toNat_eq hzero)
  have hrate : 0 < s.clkHz.toNat := by
    rw [Nat.pos_iff_ne_zero]
    exact fun hzero => hclk (eq_of_toNat_eq hzero)
  generalize (mrtPeek s n now).toNat = left at hpeek hpos hle
  -- a clock takes a nanosecond at least
  have hone : 1 ≤ delay s.clkHz.toNat left := by
    rw [delay, Nat.one_le_div_iff hrate]
    exact hslow.trans (Nat.le_mul_of_pos_left _ hpos)
  rw [max_eq_right (by exact_mod_cast hone)] at hle
  have hwait : (deadline - s.baseNs n).toNat ≤
      (now - s.baseNs n).toNat + delay s.clkHz.toNat left := by
    omega
  refine ⟨deadline, hdue, hbase.trans hlater.le, ?_⟩
  have hmul := Nat.mul_le_mul_left s.clkHz.toNat hwait
  have hdelay := mul_delay_le s.clkHz.toNat left
  have hlast := Nat.lt_div_mul_add (a := s.clkHz.toNat * (now - s.baseNs n).toNat) second_pos
  have hsum : left + ticks s.clkHz.toNat (now - s.baseNs n).toNat = counts := by omega
  have hsplit : left * second + ticks s.clkHz.toNat (now - s.baseNs n).toNat * second =
      counts * second := by rw [← Nat.add_mul, hsum]
  rw [Nat.mul_add] at hmul
  rw [ticks] at hsplit
  omega

end Arming

section Paced

variable {n : Channel} {counts : ℕ} {t₀ now : ℤ} {w : Watched} {s' : MrtState}

section

variable (h : Paced n counts t₀ w)
include h

lemma Paced.fits {deadline : ℤ} (hdeadline : w.timers.timer = some deadline)
    (hlate : w.timers.clkHz.toNat * (now - deadline).toNat < counts * second) :
    ProductFits w.timers.clkHz.toNat (now - w.timers.baseNs n) := by
  obtain ⟨deadline', hdue, hbase, hbound⟩ := h.due
  obtain rfl := Option.some.inj (hdue.symm.trans hdeadline)
  have hsize := h.repeating.size
  have hsplit : (now - w.timers.baseNs n).toNat ≤
      (deadline' - w.timers.baseNs n).toNat + (now - deadline').toNat := by omega
  have hmul := Nat.mul_le_mul_left w.timers.clkHz.toNat hsplit
  rw [Nat.mul_add] at hmul
  rw [ProductFits]
  rw [second] at hbound hlate
  omega

lemma Paced.callback (hsteady : Steady n counts w (.tick now)) :
    ∃ deadline, w.timers.timer = some deadline ∧ w.timers.baseNs n ≤ deadline ∧ deadline ≤ now ∧
      w.timers.clkHz.toNat * (deadline - w.timers.baseNs n).toNat < counts * second + second ∧
      ProductFits w.timers.clkHz.toNat (now - w.timers.baseNs n) := by
  obtain ⟨deadline, hdue, hle, hbound⟩ := h.due
  obtain ⟨hlate, hless⟩ := hsteady deadline hdue
  exact ⟨deadline, hdue, hle, hlate, hbound, h.fits hdue hless⟩

lemma Paced.rearmed {x : MrtState}
    (hview : view n x = view n w.timers) (hclk : x.clkHz = w.timers.clkHz)
    (hs' : mrtReschedule x now = some s')
    (hdue : ∃ deadline, s'.timer = some deadline ∧ x.baseNs n ≤ deadline ∧
      x.clkHz.toNat * (deadline - x.baseNs n).toNat < counts * second + second) :
    Paced n counts t₀ ⟨s', w.raised⟩ := by
  have hsame := mrtReschedule_eq hs'
  have hview' : view n s' = view n w.timers := by
    rw [hsame]
    exact hview
  have hclk' : s'.clkHz = w.timers.clkHz := by
    rw [hsame]
    exact hclk
  have hrep := h.repeating.congr hview' hclk'
  simp only [view, Prod.mk.injEq] at hview hview'
  obtain ⟨-, -, -, -, hbase⟩ := hview
  obtain ⟨-, -, -, -, hbase'⟩ := hview'
  rw [hclk, hbase] at hdue
  refine ⟨hrep, hbase'.ge.trans' h.since, ?_, ?_⟩
  · rw [hclk', hbase']
    exact h.lower
  · rw [hclk', hbase']
    exact hdue

section

variable (hfits : ProductFits w.timers.clkHz.toNat (now - w.timers.baseNs n))
  (hbase : w.timers.baseNs n ≤ now)
include hfits hbase

lemma Paced.tick_live (hlive : raises n w.timers (.tick now) = false)
    (htick : mrtReschedule (expired w.timers now) now = some s') :
    Paced n counts t₀ ⟨s', w.raised⟩ := by
  have hpeek : mrtPeek w.timers n now ≠ 0 := by
    rwa [raises, h.repeating.run, Bool.true_and, beq_eq_false_iff_ne] at hlive
  have hview := (view_expired n w.timers now).trans (expireChannel_not_raised hlive)
  have hclk := expired_clkHz w.timers now
  have hpeek' := peek_congr (channel_congr hview) hclk now
  have hbase' : (expired w.timers now).baseNs n = w.timers.baseNs n :=
    congrArg (fun c => c.2.2.2.2) hview
  refine h.rearmed hview hclk htick ((h.repeating.congr hview hclk).due_of_live ?_ ?_ ?_ htick)
  · exact hbase'.trans_le hbase
  · rw [hclk, hbase']
    exact hfits
  · rw [hpeek']
    exact hpeek

lemma Paced.counted (hraised : raises n w.timers (.tick now)) :
    counts * second ≤ w.timers.clkHz.toNat * (now - w.timers.baseNs n).toNat := by
  rw [raises, Bool.and_eq_true, beq_iff_eq] at hraised
  have hpeek := toNat_mrtPeek h.repeating.run hbase hfits
  rw [hraised.2, h.repeating.load] at hpeek
  rw [← le_ticks_iff]
  exact Nat.sub_eq_zero_iff_le.mp hpeek.symm

lemma Paced.next_lower (hraised : raises n w.timers (.tick now)) :
    (w.raised + 1) * counts * second ≤ w.timers.clkHz.toNat * (now - t₀).toNat := by
  have hcounted := h.counted hfits hbase hraised
  have hlower := h.lower
  have hsplit : (now - t₀).toNat =
      (w.timers.baseNs n - t₀).toNat + (now - w.timers.baseNs n).toNat := by
    have := h.since
    omega
  rw [hsplit, Nat.mul_add, Nat.add_mul, Nat.one_mul, Nat.add_mul]
  exact Nat.add_le_add hlower hcounted

lemma Paced.tick_raised (hraised : raises n w.timers (.tick now))
    (htick : mrtReschedule (expired w.timers now) now = some s') :
    Paced n counts t₀ ⟨s', w.raised + 1⟩ ∧ s'.baseNs n = now ∧ s'.clkHz = w.timers.clkHz := by
  have hview := (view_expired n w.timers now).trans (expireChannel_raised hraised)
  rw [if_pos ⟨h.repeating.mode, h.repeating.interval⟩] at hview
  have hclk := expired_clkHz w.timers now
  have hsame := mrtReschedule_eq htick
  simp only [view, Prod.mk.injEq] at hview
  obtain ⟨hintval, hctrl, hstat, hload, hnow⟩ := hview
  have hrep : Repeating n counts (expired w.timers now) := by
    refine ⟨?_, ?_, ?_, ?_, ?_, ?_, h.repeating.positive, ?_⟩
    · rw [hclk]
      exact h.repeating.clkHz
    · rw [hclk]
      exact h.repeating.slow
    · have hrun : anyBit (w.timers.stat n) statRun := h.repeating.run
      rw [running, hstat, anyBit_or, hrun, Bool.true_or]
    · rw [hload]
      exact h.repeating.reload
    · rw [hintval]
      exact h.repeating.interval
    · rw [hintval]
      exact h.repeating.reload
    · rw [repeats, hctrl]
      exact h.repeating.mode
  have hlive : mrtPeek (expired w.timers now) n now ≠ 0 := by
    rw [mrtPeek, if_pos (.inr hnow.ge)]
    intro hzero
    have hpos := hrep.positive
    rw [← hrep.load, hzero] at hpos
    exact absurd hpos (by decide)
  have hdue := hrep.due_of_live hnow.le (by rw [ProductFits, hnow, sub_self]; simp) hlive htick
  have hrep' : Repeating n counts s' := by
    refine hrep.congr ?_ ?_ <;> rw [hsame]
    rfl
  have hnow' : s'.baseNs n = now := by rw [hsame]; exact hnow
  have hclk' : s'.clkHz = w.timers.clkHz := by rw [hsame]; exact hclk
  refine ⟨⟨hrep', ?_, ?_, ?_⟩, hnow', hclk'⟩
  · exact (h.since.trans hbase).trans hnow'.ge
  · rw [hnow', hclk']
    exact h.next_lower hfits hbase hraised
  rw [hnow', hclk']
  rwa [hnow, hclk] at hdue

end

end

variable {m : Channel} {v : Word} {s : MrtState} {e : Event} {w' : Watched}

lemma Paced.load_other (h : Paced n counts t₀ w) (hm : n ≠ m)
    (hbase : w.timers.baseNs n ≤ now) (hearly : ∀ deadline ∈ w.timers.timer, now < deadline)
    (hs' : mrtReschedule (loadInterval w.timers m v now) now = some s') :
    Paced n counts t₀ ⟨s', w.raised⟩ := by
  have hview : view n (loadInterval w.timers m v now) = view n w.timers := by
    rw [view_loadInterval, if_neg hm]
  have hclk := loadInterval_clkHz w.timers m v now
  have hrep := h.repeating.congr hview hclk
  have hbase' : (loadInterval w.timers m v now).baseNs n = w.timers.baseNs n :=
    congrArg (fun c => c.2.2.2.2) hview
  obtain ⟨deadline, hdue, hle, hbound⟩ := h.due
  have hbefore := hearly deadline hdue
  refine h.rearmed hview hclk hs' ?_
  by_cases hlive : mrtPeek (loadInterval w.timers m v now) n now = 0
  · -- already expired: the timer is armed for the next nanosecond
    obtain ⟨deadline', hdeadline', hlater, hle'⟩ := reschedule_deadline hrep.clkHz hrep.run hs'
    have hzero : delay (loadInterval w.timers m v now).clkHz.toNat
        (mrtPeek (loadInterval w.timers m v now) n now).toNat = 0 := by
      rw [hlive, delay]
      simp
    refine ⟨deadline', hdeadline', by omega, ?_⟩
    rw [hclk, hbase']
    have hless : (deadline' - w.timers.baseNs n).toNat ≤ (deadline - w.timers.baseNs n).toNat := by
      omega
    exact (Nat.mul_le_mul_left _ hless).trans_lt hbound
  refine hrep.due_of_live (hbase'.trans_le hbase) ?_ hlive hs'
  rw [hclk, hbase']
  refine h.fits hdue ?_
  rw [show (now - deadline).toNat = 0 by omega, Nat.mul_zero]
  exact Nat.mul_pos h.repeating.positive second_pos

lemma Repeating.writeCtrl (h : Repeating n counts s)
    (hmode : n = m → (v &&& 0x7 &&& ctrlMode) >>> 1 = 0) :
    Repeating n counts (mrtUpdateIrq { s with ctrl := Function.update s.ctrl m (v &&& 0x7) }) := by
  refine ⟨h.clkHz, h.slow, h.run, h.load, h.interval, h.reload, h.positive, ?_⟩
  show (Function.update s.ctrl m (v &&& 0x7) n &&& ctrlMode) >>> 1 = 0
  by_cases hm : n = m
  · rw [hm, update_self]
    exact hmode hm
  · rw [update_of_ne hm]
    exact h.mode

lemma Paced.write_other (h : Paced n counts t₀ w) (hrep : Repeating n counts s')
    (hclk : s'.clkHz = w.timers.clkHz) (hbase : s'.baseNs n = w.timers.baseNs n)
    (htimer : s'.timer = w.timers.timer) : Paced n counts t₀ ⟨s', w.raised⟩ := by
  refine ⟨hrep, h.since.trans hbase.ge, ?_, ?_⟩
  · rw [hclk, hbase]
    exact h.lower
  · rw [hclk, hbase, htimer]
    exact h.due

lemma Paced.next (hsteady : Steady n counts w e)
    (h : Paced n counts t₀ w) (hwatch : watch n w e = some w') :
    Paced n counts t₀ w' ∧ w'.timers.clkHz = w.timers.clkHz ∧ (raises n w.timers e = false →
      w'.timers.baseNs n = w.timers.baseNs n ∧ w'.raised = w.raised) ∧
      (∀ now, e = .tick now → raises n w.timers e →
      w'.timers.baseNs n = now ∧ w'.raised = w.raised + 1 ∧ w.timers.baseNs n ≤ now ∧
      (w.raised + 1) * counts * second ≤ w.timers.clkHz.toNat * (now - t₀).toNat) := by
  obtain ⟨s', hstep, rfl⟩ := Option.map_eq_some_iff.mp hwatch
  cases e with
  | clock hz | reset => exact hsteady.elim
  | read off now =>
    cases hstep
    exact ⟨h, rfl, fun _ => ⟨rfl, rfl⟩, fun _ htick => absurd htick (by simp)⟩
  | tick now =>
    obtain ⟨deadline, -, hle, hlate, -, hfits⟩ := h.callback hsteady
    have hbase := hle.trans hlate
    have hs' : mrtReschedule (expired w.timers now) now = some s' := hstep
    have hclk : s'.clkHz = w.timers.clkHz := by
      rw [mrtReschedule_eq hs']
      exact expired_clkHz w.timers now
    cases hraised : raises n w.timers (.tick now) with
    | false =>
      have hlive := h.tick_live hfits hbase hraised hs'
      refine ⟨hlive, hclk, fun _ => ⟨?_, rfl⟩, fun _ _ htrue => absurd htrue (by decide)⟩
      have hview := (view_expired n w.timers now).trans (expireChannel_not_raised hraised)
      rw [mrtReschedule_eq hs']
      exact congrArg (fun c => c.2.2.2.2) hview
    | true =>
      obtain ⟨hpaced, hnow, -⟩ := h.tick_raised hfits hbase hraised hs'
      refine ⟨hpaced, hclk, fun hfalse => absurd hfalse (by decide), ?_⟩
      rintro now' htick -
      obtain rfl := Event.tick.inj htick
      exact ⟨hnow, rfl, hbase, h.next_lower hfits hbase hraised⟩
  | write off v now =>
    obtain ⟨hinterval, hmode, hearly⟩ := hsteady
    obtain ⟨m, hoff, hs'⟩ | ⟨m, hoff, rfl⟩ | ⟨m, hoff, rfl⟩ | ⟨hoff, rfl⟩ := mrtWrite_cases hstep
    · have hm : n ≠ m := by
        rintro rfl
        exact hinterval hoff
      obtain ⟨hbase, hbefore⟩ := hearly m hoff
      have hsame := mrtReschedule_eq hs'
      refine ⟨h.load_other hm hbase hbefore hs', ?_, fun _ => ⟨?_, rfl⟩,
        fun _ htick => absurd htick (by simp)⟩
      · rw [hsame]
        exact loadInterval_clkHz w.timers m v now
      have hview : view n (loadInterval w.timers m v now) = view n w.timers := by
        rw [view_loadInterval, if_neg hm]
      rw [hsame]
      exact congrArg (fun c => c.2.2.2.2) hview
    · have hrep := h.repeating.writeCtrl fun hm => hmode (by rw [hm]; exact hoff)
      exact ⟨h.write_other hrep rfl rfl rfl, rfl, fun _ => ⟨rfl, rfl⟩,
        fun _ htick => absurd htick (by simp)⟩
    · have hrep : Repeating n counts (mrtUpdateIrq { w.timers with
          stat := Function.update w.timers.stat m (statAfter v (w.timers.stat m)) }) :=
        ⟨h.repeating.clkHz, h.repeating.slow,
          (running_writeStat w.timers n m v).trans h.repeating.run, h.repeating.load,
          h.repeating.interval, h.repeating.reload, h.repeating.positive, h.repeating.mode⟩
      exact ⟨h.write_other hrep rfl rfl rfl, rfl, fun _ => ⟨rfl, rfl⟩,
        fun _ htick => absurd htick (by simp)⟩
    · exact ⟨h, rfl, fun _ => ⟨rfl, rfl⟩, fun _ htick => absurd htick (by simp)⟩

structure OnSchedule (n : Channel) (counts : ℕ) (t₀ : ℤ) (w : Watched) : Prop where
  paced : Paced n counts t₀ w
  begins : w.raised * counts * second = w.timers.clkHz.toNat * (w.timers.baseNs n - t₀).toNat

lemma OnSchedule.next (hprompt : Prompt n counts w e)
    (h : OnSchedule n counts t₀ w) (hwatch : watch n w e = some w') :
    OnSchedule n counts t₀ w' := by
  obtain ⟨hsteady, hexact⟩ := hprompt
  obtain ⟨hpaced, hclk, hidle, hraised⟩ := h.paced.next hsteady hwatch
  refine ⟨hpaced, ?_⟩
  rw [hclk]
  cases hraises : raises n w.timers e with
  | false =>
    obtain ⟨hbase, hsame⟩ := hidle hraises
    rw [hbase, hsame]
    exact h.begins
  | true =>
    cases e with
    | tick now =>
      obtain ⟨hnow, hsucc, hbase, -⟩ := hraised now rfl hraises
      have hsplit : (now - t₀).toNat =
          (w.timers.baseNs n - t₀).toNat + (now - w.timers.baseNs n).toNat := by
        have := h.paced.since
        omega
      rw [hnow, hsucc, hsplit, Nat.mul_add, ← h.begins, hexact now rfl hraises, Nat.add_mul,
        Nat.one_mul, Nat.add_mul]
    | _ => exact absurd hraises Bool.false_ne_true

lemma paced_start {start : MrtState} (hclk : start.clkHz ≠ 0)
    (hslow : start.clkHz.toNat ≤ second) (hmode : repeats start n)
    (hloads : anyBit v intvalLoad ∨ running start n = false)
    (hvalue : v &&& intvalIvalue ≠ 0) (hwrite : mrtWrite start (0x10 * n.val) v t₀ = some s) :
    Paced n (v &&& intvalIvalue).toNat t₀ ⟨s, 0⟩ ∧ s.baseNs n = t₀ ∧ s.clkHz = start.clkHz := by
  have hs : mrtReschedule (loadInterval start n v t₀) t₀ = some s := by
    obtain ⟨m, hoff, hs⟩ | ⟨m, hoff, -⟩ | ⟨m, hoff, -⟩ | ⟨hoff, -⟩ := mrtWrite_cases hwrite
    · obtain rfl : n = m := Fin.ext (by omega)
      exact hs
    · omega
    · omega
    · exact absurd rfl (hoff n)
  have hview := view_loadInterval start n n v t₀
  rw [if_pos rfl, if_pos hloads, if_pos hvalue] at hview
  have hclk' := loadInterval_clkHz start n v t₀
  have hsame := mrtReschedule_eq hs
  simp only [view, Prod.mk.injEq] at hview
  obtain ⟨hintval, hctrl, hstat, hload, hbase⟩ := hview
  have hpos : 0 < (v &&& intvalIvalue).toNat := by
    rw [Nat.pos_iff_ne_zero]
    exact fun hzero => hvalue (eq_of_toNat_eq hzero)
  have hrep : Repeating n (v &&& intvalIvalue).toNat (loadInterval start n v t₀) := by
    refine ⟨?_, ?_, ?_, ?_, ?_, ?_, hpos, ?_⟩
    · rw [hclk']
      exact hclk
    · rw [hclk']
      exact hslow
    · rw [running, hstat, anyBit_or, show anyBit statRun statRun = true by decide, Bool.or_true]
    · rw [hload]
    · rw [hintval]
      rintro rfl
      exact hvalue BitVec.zero_and
    · rw [hintval]
    · rw [repeats, hctrl]
      exact hmode
  have hlive : mrtPeek (loadInterval start n v t₀) n t₀ ≠ 0 := by
    rw [mrtPeek, if_pos (.inr hbase.ge), hload]
    exact hvalue
  have hdue := hrep.due_of_live hbase.le (by rw [ProductFits, hbase, sub_self]; simp) hlive hs
  rw [hbase, hclk'] at hdue
  have hbase' : s.baseNs n = t₀ := by rw [hsame]; exact hbase
  have hclk'' : s.clkHz = start.clkHz := by rw [hsame]; exact hclk'
  have hrep' : Repeating n (v &&& intvalIvalue).toNat s := by
    refine hrep.congr ?_ ?_ <;> rw [hsame]
    rfl
  refine ⟨⟨hrep', hbase'.ge, ?_, ?_⟩, hbase', hclk''⟩
  · rw [Nat.zero_mul, Nat.zero_mul]
    exact Nat.zero_le _
  · rw [hbase', hclk'']
    exact hdue

end Paced

/-- In a timer with a constant clock a channel runs just when it is loaded and then has a
timer, and its flag is set by the callbacks that find it expired.  A channel of at most a
gigahertz that is loaded in repeat mode and then left alone expires for the `k`-th time no
earlier than `k` periods later; and if every callback that found it expired before came just
then, the deadline of this one is at most a clock later. -/
theorem periods_end_on_time (s₀ : MrtState) (hclk : s₀.clkHz ≠ 0) :
    (∀ events, AdmitsPartial step ConstantClock (mcxnMrtReset s₀) events →
      (runPartial step (mcxnMrtReset s₀) events).isSome ∧
      (∀ before, before <+: events → ∀ s ∈ runPartial step (mcxnMrtReset s₀) before,
        (∀ n, running s n = true ↔ s.load n ≠ 0) ∧ ((∃ n, running s n = true) → s.timer.isSome)) ∧
      ∀ before e rest, events = before ++ e :: rest →
        ∀ s ∈ runPartial step (mcxnMrtReset s₀) before, ∀ s' ∈ step s e, ∀ n,
          s'.load n = loadedAfter n s e ∧ (raises n s e = true → intFlagged s' n) ∧
            (intFlagged s' n → intFlagged s n ∨ raises n s e = true)) ∧
    ∀ start n v t₀ s, start.clkHz = s₀.clkHz → s₀.clkHz.toNat ≤ second → repeats start n →
      (anyBit v intvalLoad = true ∨ running start n = false) → v &&& intvalIvalue ≠ 0 →
      mrtWrite start (0x10 * n.val) v t₀ = some s →
      ∀ events now, AdmitsPartial (watch n) (Steady n (v &&& intvalIvalue).toNat) ⟨s, 0⟩
          (events ++ [.tick now]) →
        ∀ w ∈ runPartial (watch n) ⟨s, 0⟩ events, raises n w.timers (.tick now) = true →
          (w.raised + 1) * (v &&& intvalIvalue).toNat * second ≤ s₀.clkHz.toNat * (now - t₀).toNat ∧
          (AdmitsPartial (watch n) (Prompt n (v &&& intvalIvalue).toNat) ⟨s, 0⟩ events →
            ∃ deadline, w.timers.timer = some deadline ∧ deadline ≤ now ∧
              s₀.clkHz.toNat * (deadline - t₀).toNat ≤
                (w.raised + 1) * (v &&& intvalIvalue).toNat * second + second) := by
  refine ⟨fun events hadmits => sound_run hclk hadmits, ?_⟩
  intro start n v t₀ s hsame hslow hmode hloads hvalue hwrite events now hadmits w hw hraised
  obtain ⟨hstart, hbase₀, hclk₀⟩ := paced_start (by rw [hsame]; exact hclk)
    (by rw [hsame]; exact hslow) hmode hloads hvalue hwrite
  generalize (v &&& intvalIvalue).toNat = counts at *
  have hinv : ∀ x e y, Steady n counts x e →
      Paced n counts t₀ x ∧ x.timers.clkHz = s₀.clkHz → watch n x e = some y →
      Paced n counts t₀ y ∧ y.timers.clkHz = s₀.clkHz := by
    intro x e y hsteady h hstep
    obtain ⟨hpaced, hkept, -⟩ := h.1.next hsteady hstep
    exact ⟨hpaced, hkept.trans h.2⟩
  have hfirst : Paced n counts t₀ ⟨s, 0⟩ ∧ s.clkHz = s₀.clkHz := ⟨hstart, hclk₀.trans hsame⟩
  obtain ⟨⟨h, hrate⟩, hsteady⟩ := every_step_of_admitsPartial hinv hfirst hadmits w hw
  obtain ⟨deadline, hdeadline, hle, hlate, hbound, hfits⟩ := h.callback hsteady
  rw [← hrate]
  refine ⟨h.next_lower hfits (hle.trans hlate) hraised, fun hprompt => ?_⟩
  have hexact := runPartial_invariant_of_admits (P := OnSchedule n counts t₀)
    (fun x e y hguard hx hstep => hx.next hguard hstep)
    ⟨hstart, by show 0 * counts * second = _; rw [hbase₀, sub_self]; simp⟩ hprompt hw
  refine ⟨deadline, hdeadline, hlate, ?_⟩
  have hsplit : (deadline - t₀).toNat =
      (w.timers.baseNs n - t₀).toNat + (deadline - w.timers.baseNs n).toNat := by
    have := h.since
    omega
  rw [hsplit, Nat.mul_add, ← hexact.begins, Nat.add_mul, Nat.one_mul, Nat.add_mul]
  omega

def runFrom (hz : Word) (events : List Event) : MrtState :=
  let start := mcxnMrtReset { (Timers.powerOn hz).mrt with clkHz := hz }
  (runPartial step start events).getD start

def tenCounts (later : List Event) : MrtState := runFrom 1000000 (.write 0x0 0x8000000A 0 :: later)

theorem ten_counts_end_on_time : (tenCounts [.tick 10000]).timer = some 20000 ∧
      2 * 10 * second ≤ 1000000 * 25000 ∧ 1000000 * 20000 ≤ 2 * 10 * second + second := by
  have hload : mrtWrite (runFrom 1000000 []) (0x10 * (0 : Channel).val) 0x8000000A 0 =
      some (tenCounts []) := rfl
  have hfirst : watch 0 ⟨tenCounts [], 0⟩ (.tick 10000) = some ⟨tenCounts [.tick 10000], 1⟩ := rfl
  have htimer : (tenCounts []).timer = some 10000 := by decide +kernel
  have htimer' : (tenCounts [.tick 10000]).timer = some 20000 := by decide +kernel
  have hsteady : Steady 0 10 ⟨tenCounts [], 0⟩ (.tick 10000) := by
    intro deadline hdeadline
    obtain rfl := Option.some.inj (htimer.symm.trans hdeadline)
    decide +kernel
  have hadmits : AdmitsPartial (watch 0) (Steady 0 10) ⟨tenCounts [], 0⟩
      ([.tick 10000] ++ [.tick 25000]) := by
    refine ⟨hsteady, fun next hnext => ?_⟩
    obtain rfl := Option.some.inj (hfirst.symm.trans hnext)
    refine ⟨fun deadline hdeadline => ?_, fun _ _ => trivial⟩
    obtain rfl := Option.some.inj (htimer'.symm.trans hdeadline)
    decide +kernel
  have hprompt : AdmitsPartial (watch 0) (Prompt 0 10) ⟨tenCounts [], 0⟩ [.tick 10000] := by
    refine ⟨⟨hsteady, fun now hnow _ => ?_⟩, fun _ _ => trivial⟩
    obtain rfl := Event.tick.inj hnow
    decide +kernel
  obtain ⟨hlower, hupper⟩ := (periods_end_on_time (runFrom 1000000 []) (by decide +kernel)).2
    (runFrom 1000000 []) 0 0x8000000A 0 (tenCounts []) rfl (by decide +kernel) (by decide +kernel)
    (.inl (by decide)) (by decide) hload [.tick 10000] 25000 hadmits ⟨tenCounts [.tick 10000], 1⟩
    (by rw [Option.mem_def, runPartial_cons, hfirst]; rfl) (by decide +kernel)
  obtain ⟨deadline, hdeadline, -, hle⟩ := hupper hprompt
  obtain rfl := Option.some.inj (htimer'.symm.trans hdeadline)
  exact ⟨htimer', hlower, hle⟩

theorem hundred_counts_drift :
    let after (events : List Event) := runFrom 150000000 (.write 0x0 0x80000064 0 :: events)
    (after []).timer = some 666 ∧ (after [.tick 666]).timer = some 672 ∧
      raises 0 (after [.tick 666]) (.tick 672) = true ∧
      (after [.tick 666, .tick 672]).timer = some 1338 ∧
      (after [.tick 666, .tick 672, .tick 1338]).timer = some 1344 ∧
      raises 0 (after [.tick 666, .tick 672, .tick 1338]) (.tick 1344) = true ∧
      2 * 100 * second + second < 150000000 * 1344 := by
  decide +kernel

end Mcxn947.Mrt
