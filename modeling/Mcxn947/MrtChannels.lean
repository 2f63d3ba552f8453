import Mcxn947.RoundedDeadlines
import Mcxn947.TimerCounts

/-!
# Channels of the multi-rate timer

The four channels share one host timer, which is armed for the soonest expiry, and a callback
looks at all of them.
-/

namespace Mcxn947.Mrt

open MachineWords EventRuns RatedCounters List Function Option

def view (n : Channel) (s : MrtState) : Word × Word × Word × Word × ℤ :=
  (s.intval n, s.ctrl n, s.stat n, s.load n, s.baseNs n)

section View

variable {s s' : MrtState} {n m : Channel} {now : ℤ}

lemma running_congr (h : view n s' = view n s) : running s' n = running s n := by
  simp only [view, Prod.mk.injEq] at h
  rw [running, running, h.2.2.1]

lemma channel_congr (h : view n s' = view n s) : channel n s' = channel n s := by
  have hrun := running_congr h
  simp only [view, Prod.mk.injEq] at h
  rw [channel, channel, hrun, h.2.2.2.1, h.2.2.2.2]

lemma view_expire_other (h : n ≠ m) : view n (expireChannel now s m) = view n s := by
  unfold expireChannel
  split_ifs <;> simp [view, update_of_ne h]

lemma view_expire_congr (h : view n s' = view n s) (hclk : s'.clkHz = s.clkHz) :
    view n (expireChannel now s' n) = view n (expireChannel now s n) := by
  have hrun := running_congr h
  have hpeek := peek_congr (channel_congr h) hclk now
  have hview := h
  simp only [view, Prod.mk.injEq] at h
  obtain ⟨hintval, hctrl, hstat, -, -⟩ := h
  unfold expireChannel
  rw [hrun, hpeek, hintval, hctrl, hstat]
  split_ifs
  · exact hview
  · exact hview
  · simp [view, hintval, hctrl]
  · simp only [view, Prod.mk.injEq] at hview
    simp [view, hintval, hctrl, hview.2.2.2.2]

lemma expireChannel_clkHz : (expireChannel now s m).clkHz = s.clkHz :=
  (calmer_expireChannel now s m).clkHz

lemma view_expireChannels (ns : List Channel) (hnodup : ns.Nodup) (s : MrtState) :
    view n (ns.foldl (expireChannel now) s) =
      if n ∈ ns then view n (expireChannel now s n) else view n s := by
  induction ns generalizing s with
  | nil => rfl
  | cons m rest ih =>
    obtain ⟨hfresh, hrest⟩ := List.nodup_cons.mp hnodup
    rw [foldl_cons, ih hrest]
    by_cases hn : n = m
    · subst hn
      rw [if_neg hfresh, if_pos mem_cons_self]
    · rw [view_expire_other hn, view_expire_congr (view_expire_other hn) expireChannel_clkHz]
      simp [hn]

def expired (s : MrtState) (now : ℤ) : MrtState :=
  mrtUpdateIrq ((List.finRange 4).foldl (expireChannel now) { s with timer := none })

lemma expired_clkHz (s : MrtState) (now : ℤ) : (expired s now).clkHz = s.clkHz :=
  (calmer_expireChannels now (List.finRange 4) { s with timer := none }).clkHz

lemma view_expired (n : Channel) (s : MrtState) (now : ℤ) :
    view n (expired s now) = view n (expireChannel now s n) := by
  have hall : view n (expired s now) = view n (expireChannel now { s with timer := none } n) :=
    (view_expireChannels _ (nodup_finRange 4) _).trans (if_pos (mem_finRange n))
  exact hall.trans (view_expire_congr rfl rfl)

end View

def raises (n : Channel) (s : MrtState) : Event → Bool
  | .tick now => running s n && mrtPeek s n now == 0
  | _ => false

def repeats (s : MrtState) (n : Channel) : Prop := (s.ctrl n &&& ctrlMode) >>> 1 = 0
deriving Decidable

def loadedAfter (n : Channel) (s : MrtState) : Event → Word
  | .write off v _ =>
    if off = 0x10 * n.val ∧ (anyBit v intvalLoad = true ∨ running s n = false) then
      v &&& intvalIvalue
    else s.load n
  | .tick now =>
    if raises n s (.tick now) then if repeats s n then s.intval n &&& intvalIvalue else 0
    else s.load n
  | .reset => 0
  | _ => s.load n

def statAfter (v stat : Word) : Word :=
  if anyBit v statIntflag then stat &&& ~~~statIntflag else stat

section Steps

variable {s s' : MrtState} {n : Channel} {now : ℤ}

lemma mrtWrite_cases {off : ℕ} {v : Word} (h : mrtWrite s off v now = some s') :
    (∃ m : Channel, off = 0x10 * m.val ∧ mrtReschedule (loadInterval s m v now) now = some s') ∨
    (∃ m : Channel, off = 0x10 * m.val + 0x8 ∧
      s' = mrtUpdateIrq { s with ctrl := update s.ctrl m (v &&& 0x7) }) ∨
    (∃ m : Channel, off = 0x10 * m.val + 0xC ∧
      s' = mrtUpdateIrq { s with stat := update s.stat m (statAfter v (s.stat m)) }) ∨
    ((∀ m : Channel, off ≠ 0x10 * m.val) ∧ s' = s) := by
  unfold mrtWrite at h
  split at h
  · split at h
    · exact .inl ⟨_, by dsimp only; omega, h⟩
    · exact .inr (.inl ⟨_, by dsimp only; omega, (some.inj h).symm⟩)
    · exact .inr (.inr (.inl ⟨_, by dsimp only; omega, (some.inj h).symm⟩))
    rename_i hzero _ _
    refine .inr (.inr (.inr ⟨fun m hm => hzero ?_, (some.inj h).symm⟩))
    omega
  · refine .inr (.inr (.inr ⟨fun m hm => ?_, (some.inj h).symm⟩))
    omega

lemma expireChannel_raised (h : raises n s (.tick now)) : view n (expireChannel now s n) =
      if repeats s n ∧ s.intval n ≠ 0 then
      (s.intval n, s.ctrl n, s.stat n ||| statIntflag, s.intval n &&& intvalIvalue, now)
      else (s.intval n, s.ctrl n, (s.stat n ||| statIntflag) &&& ~~~statRun, 0, s.baseNs n) := by
  rw [raises, Bool.and_eq_true, beq_iff_eq] at h
  obtain ⟨hrun, hpeek⟩ := h
  unfold expireChannel
  rw [if_neg (by rw [hrun]; decide), if_neg (not_not.mpr hpeek)]
  split
  next hrepeats =>
    have hyes : repeats s n ∧ s.intval n ≠ 0 := hrepeats
    rw [if_pos hyes]
    simp [view]
  rename_i hrepeats
  have hno : ¬ (repeats s n ∧ s.intval n ≠ 0) := hrepeats
  rw [if_neg hno]
  simp [view]

lemma expireChannel_not_raised (h : raises n s (.tick now) = false) :
    view n (expireChannel now s n) = view n s := by
  rw [raises, Bool.and_eq_false_iff, beq_eq_false_iff_ne] at h
  unfold expireChannel
  split
  · rfl
  next hrun => rw [if_pos (h.resolve_left (by simpa using hrun))]

lemma view_loadInterval (s : MrtState) (n m : Channel) (v : Word) (now : ℤ) :
    view n (loadInterval s m v now) = if n = m then
      if anyBit v intvalLoad = true ∨ running s n = false then (v, s.ctrl n,
      if v &&& intvalIvalue ≠ 0 then s.stat n ||| statRun else s.stat n &&& ~~~statRun,
      v &&& intvalIvalue, now) else (v, s.ctrl n, s.stat n, s.load n, s.baseNs n)
      else view n s := by
  simp only [loadInterval]
  by_cases hm : n = m
  · subst hm
    split
    next hload =>
      have hyes : anyBit v intvalLoad ∨ running s n = false := hload
      rw [if_pos hyes]
      simp [view]
    rename_i hload
    have hno : ¬ (anyBit v intvalLoad ∨ running s n = false) := hload
    rw [if_neg hno]
    simp [view]
  · split <;> simp [view, update_of_ne hm]

end Steps

section Timer

variable {s s' : MrtState} {n : Channel} {now : ℤ}

lemma delayFits (rate : ℕ) (counts : Word) : DelayFits rate counts.toNat := by
  have hprod : counts.toNat * second < 2 ^ 63 := by
    rw [second]
    omega
  exact ⟨hprod.trans (by decide), (Nat.div_le_self _ _).trans_lt hprod⟩

lemma nearerChannel_running (hclk : s.clkHz ≠ 0) (best : DoubleWord) (hrun : running s n) :
    ∃ ns : DoubleWord, ns.toNat = delay s.clkHz.toNat (mrtPeek s n now).toNat ∧
      nearerChannel s now best n = some (if ns < best then ns else best) := by
  have hwide : ((mrtPeek s n now).setWidth 64 : DoubleWord).toNat = (mrtPeek s n now).toNat := by
    rw [BitVec.toNat_setWidth]
    exact Nat.mod_eq_of_lt ((mrtPeek s n now).isLt.trans (by decide))
  have hfits : DelayFits s.clkHz.toNat ((mrtPeek s n now).setWidth 64 : DoubleWord).toNat := by
    rw [hwide]
    exact delayFits _ _
  obtain ⟨ns, hdiv, hns, -⟩ := udiv?_delay hclk hfits
  refine ⟨ns, by rw [hns, hwide], ?_⟩
  rw [nearerChannel, if_neg (by rw [hrun]; decide), hdiv]
  rfl

lemma reschedule_deadline (hclk : s.clkHz ≠ 0) (hrun : running s n)
    (h : mrtReschedule s now = some s') : ∃ deadline, s'.timer = some deadline ∧ now < deadline ∧
      deadline ≤ now + max 1 (delay s.clkHz.toNat (mrtPeek s n now).toNat) := by
  obtain ⟨last, hfold, -, hall, -⟩ := foldlM_soonest
    (g := nearerChannel s now) (W := fun m => running s m = true)
    (d := fun m => delay s.clkHz.toNat (mrtPeek s m now).toNat)
    (fun best m hm => if_pos (by simpa using hm))
    (fun best m hm => nearerChannel_running hclk best hm)
    (BitVec.allOnes 64) (List.finRange 4)
  have hle := hall n (mem_finRange n) hrun
  have hlt := (delayFits s.clkHz.toNat (mrtPeek s n now)).signed
  have hint : last.toInt = last.toNat := BitVec.toInt_eq_toNat_of_lt (by omega)
  have hreal : last ≠ BitVec.allOnes 64 := by
    rintro rfl
    rw [BitVec.toNat_allOnes] at hle
    omega
  rw [mrtReschedule, hfold] at h
  simp only [bind_eq_bind, bind_some, if_neg hreal, Option.some.injEq] at h
  subst h
  refine ⟨_, rfl, ?_, ?_⟩
  all_goals
    by_cases hzero : last = 0
    · rw [if_pos hzero]
      have hone : (1 : DoubleWord).toInt = 1 := rfl
      omega
    rw [if_neg hzero, hint]
    have hpos : last.toNat ≠ 0 := fun h0 => hzero (BitVec.eq_of_toNat_eq h0)
    omega

end Timer

structure Sound (s : MrtState) : Prop where
  run_iff : ∀ n, running s n = true ↔ s.load n ≠ 0
  reloads : ∀ n, running s n = true → s.intval n ≠ 0 → s.intval n &&& intvalIvalue ≠ 0
  pending : (∃ n, running s n = true) → s.timer.isSome

def SoundView (c : Word × Word × Word × Word × ℤ) : Prop :=
  (anyBit c.2.2.1 statRun = true ↔ c.2.2.2.1 ≠ 0) ∧
    (anyBit c.2.2.1 statRun = true → c.1 ≠ 0 → c.1 &&& intvalIvalue ≠ 0)

variable {s : MrtState}

lemma Sound.soundView (h : Sound s) (n : Channel) : SoundView (view n s) :=
  ⟨h.run_iff n, h.reloads n⟩

lemma and_ivalue_of_not_load {v : Word} (h : anyBit v intvalLoad = false) :
    v &&& intvalIvalue = v := by
  have hmask : intvalIvalue = ~~~intvalLoad := by decide
  rw [hmask, and_not_eq_self_iff]
  exact h

variable {n : Channel}

lemma SoundView.load (h : SoundView (view n s))
    (m : Channel) (v : Word) (now : ℤ) : SoundView (view n (loadInterval s m v now)) := by
  rw [view_loadInterval]
  split_ifs with hm hload hzero
  · have hrun : anyBit (s.stat n ||| statRun) statRun := by
      rw [anyBit_or, show anyBit statRun statRun = true by decide, Bool.or_true]
    exact ⟨iff_of_true hrun hzero, fun _ _ => hzero⟩
  · have hstop : anyBit (s.stat n &&& ~~~statRun) statRun = false :=
      anyBit_clear_of_subset (show statRun &&& ~~~statRun = 0 by decide) _
    refine ⟨iff_of_false ?_ hzero, fun hrun => ?_⟩
    · rw [hstop]
      decide
    · exact absurd (hstop.symm.trans hrun) (by decide)
  · rw [not_or, Bool.not_eq_true] at hload
    refine ⟨h.1, fun _ hv => ?_⟩
    rw [and_ivalue_of_not_load hload.1]
    exact hv
  · exact h

lemma SoundView.expire (h : SoundView (view n s))
    (now : ℤ) : SoundView (view n (expireChannel now s n)) := by
  cases hraises : raises n s (.tick now) with
  | false =>
    rw [expireChannel_not_raised hraises]
    exact h
  | true =>
    have hrun : running s n := by
      rw [raises, Bool.and_eq_true] at hraises
      exact hraises.1
    rw [expireChannel_raised hraises]
    split
    next hrepeats =>
      have hset : anyBit (s.stat n ||| statIntflag) statRun := by
        rw [anyBit_or, show anyBit (s.stat n) statRun = true from hrun, Bool.true_or]
      have hreload := h.2 hrun hrepeats.2
      exact ⟨iff_of_true hset hreload, fun _ _ => hreload⟩
    have hstop : anyBit ((s.stat n ||| statIntflag) &&& ~~~statRun) statRun = false :=
      anyBit_clear_of_subset (show statRun &&& ~~~statRun = 0 by decide) _
    refine ⟨iff_of_false ?_ (by simp), fun hset => ?_⟩
    · rw [hstop]
      decide
    · exact absurd (hstop.symm.trans hset) (by decide)

variable {s' : MrtState}

lemma Sound.rescheduled {now : ℤ} (hclk : s.clkHz ≠ 0)
    (h : ∀ n, SoundView (view n s)) (hs' : mrtReschedule s now = some s') : Sound s' := by
  have hsame := mrtReschedule_eq hs'
  refine ⟨fun n => ?_, fun n => ?_, ?_⟩
  · rw [hsame]
    exact (h n).1
  · rw [hsame]
    exact (h n).2
  rintro ⟨n, hrun⟩
  have hrun' : running s n = true := by rw [hsame] at hrun; exact hrun
  obtain ⟨deadline, hdue, -⟩ := reschedule_deadline hclk hrun' hs'
  rw [hdue]
  rfl

lemma anyBit_statAfter (v stat : Word) :
    anyBit (statAfter v stat) statRun = anyBit stat statRun := by
  unfold statAfter
  split
  · exact anyBit_clear_of_disjoint (by decide) _
  · rfl

lemma running_writeStat (s : MrtState) (n m : Channel) (v : Word) : running (mrtUpdateIrq
      { s with stat := update s.stat m (statAfter v (s.stat m)) }) n = running s n := by
  show anyBit (update s.stat m (statAfter v (s.stat m)) n) statRun = _
  by_cases hm : n = m
  · rw [hm, update_self, anyBit_statAfter]
    rfl
  · rw [update_of_ne hm]
    rfl

lemma loadedAfter_other (s : MrtState) {off : ℕ} (v : Word) (now : ℤ)
    (hoff : ∀ m : Channel, off ≠ 0x10 * m.val) (n : Channel) :
    loadedAfter n s (.write off v now) = s.load n :=
  if_neg fun hloads => hoff n hloads.1

variable {e : Event}

lemma Sound.next (hclk : s.clkHz ≠ 0)
    (hclock : ∀ hz, e ≠ .clock hz) (h : Sound s) (hstep : step s e = some s') :
    Sound s' ∧ s'.clkHz = s.clkHz ∧ ∀ n, s'.load n = loadedAfter n s e := by
  cases e with
  | clock hz => exact absurd rfl (hclock hz)
  | read off now =>
    cases hstep
    exact ⟨h, rfl, fun _ => rfl⟩
  | reset =>
    cases hstep
    refine ⟨⟨?_, ?_, ?_⟩, rfl, fun _ => rfl⟩
    · simp [mcxnMrtReset, running]
    · simp [mcxnMrtReset]
    · simp [mcxnMrtReset, running]
  | tick now =>
    have hs' : mrtReschedule (expired s now) now = some s' := hstep
    have hsame := mrtReschedule_eq hs'
    refine ⟨?_, ?_, fun n => ?_⟩
    · refine Sound.rescheduled (by rw [expired_clkHz]; exact hclk) (fun n => ?_) hs'
      rw [view_expired]
      exact SoundView.expire (h.soundView n) now
    · rw [hsame]
      exact expired_clkHz s now
    have hload : s'.load n = (view n (expired s now)).2.2.2.1 := by rw [hsame]; rfl
    rw [hload, view_expired, loadedAfter]
    cases hraises : raises n s (.tick now) with
    | false =>
      rw [expireChannel_not_raised hraises]
      rfl
    | true =>
      rw [expireChannel_raised hraises, if_pos rfl]
      by_cases hmode : repeats s n
      · by_cases hzero : s.intval n = 0
        · rw [if_neg (fun hboth => hboth.2 hzero), if_pos hmode, hzero]
          rfl
        · rw [if_pos ⟨hmode, hzero⟩, if_pos hmode]
      · rw [if_neg (fun hboth => hmode hboth.1), if_neg hmode]
  | write off v now =>
    obtain ⟨m, hoff, hs'⟩ | ⟨m, hoff, rfl⟩ | ⟨m, hoff, rfl⟩ | ⟨hoff, rfl⟩ := mrtWrite_cases hstep
    · have hsame := mrtReschedule_eq hs'
      refine ⟨Sound.rescheduled (by rw [loadInterval_clkHz]; exact hclk)
        (fun n => SoundView.load (h.soundView n) m v now) hs', ?_, fun n => ?_⟩
      · rw [hsame]
        exact loadInterval_clkHz s m v now
      have hload : s'.load n = (view n (loadInterval s m v now)).2.2.2.1 := by rw [hsame]; rfl
      rw [hload, view_loadInterval, loadedAfter]
      by_cases hm : n = m
      · rw [if_pos hm]
        by_cases hloads : anyBit v intvalLoad = true ∨ running s n = false
        · have hboth : off = 0x10 * n.val ∧ (anyBit v intvalLoad ∨ running s n = false) :=
            ⟨by rw [hoff, hm], hloads⟩
          rw [if_pos hloads, if_pos hboth]
        · rw [if_neg hloads, if_neg fun hboth => hloads hboth.2]
      have hother : off ≠ 0x10 * n.val := by
        rw [Fin.ext_iff] at hm
        omega
      rw [if_neg hm, if_neg fun hboth => hother hboth.1]
      rfl
    · have hother : ∀ m' : Channel, off ≠ 0x10 * m'.val := fun m' => by omega
      exact ⟨⟨h.run_iff, h.reloads, h.pending⟩, rfl, fun n =>
        (loadedAfter_other s v now hother n).symm⟩
    · have hrun := fun n => running_writeStat s n m v
      have hother : ∀ m' : Channel, off ≠ 0x10 * m'.val := fun m' => by omega
      refine ⟨⟨fun n => ?_, fun n hn => ?_, fun hn => ?_⟩, rfl, fun n =>
        (loadedAfter_other s v now hother n).symm⟩
      · rw [hrun]
        exact h.run_iff n
      · rw [hrun] at hn
        exact h.reloads n hn
      · simp only [hrun] at hn
        exact h.pending hn
    · exact ⟨h, rfl, fun n => (loadedAfter_other _ v now hoff n).symm⟩

def intFlagged (s : MrtState) (n : Channel) : Prop := anyBit (s.stat n) statIntflag = true

lemma flag_next (hstep : step s e = some s') : (raises n s e → intFlagged s' n) ∧
      (intFlagged s' n → intFlagged s n ∨ raises n s e) := by
  cases e with
  | clock hz | read off now =>
    cases hstep
    exact ⟨fun hraises => absurd hraises Bool.false_ne_true, .inl⟩
  | reset =>
    cases hstep
    exact ⟨fun hraises => absurd hraises Bool.false_ne_true,
      fun hflag => absurd hflag (by simp [intFlagged, mcxnMrtReset])⟩
  | tick now =>
    have hs' : mrtReschedule (expired s now) now = some s' := hstep
    have hstat : s'.stat n = (view n (expired s now)).2.2.1 := by rw [mrtReschedule_eq hs']; rfl
    rw [intFlagged, hstat, view_expired]
    cases hraises : raises n s (.tick now) with
    | false =>
      rw [expireChannel_not_raised hraises]
      exact ⟨fun htrue => absurd htrue (by decide), .inl⟩
    | true =>
      refine ⟨fun _ => ?_, fun _ => .inr rfl⟩
      have hset : anyBit (s.stat n ||| statIntflag) statIntflag := by
        rw [anyBit_or, show anyBit statIntflag statIntflag = true by decide, Bool.or_true]
      rw [expireChannel_raised hraises]
      split
      · exact hset
      · rw [anyBit_clear_of_disjoint (by decide)]
        exact hset
  | write off v now =>
    refine ⟨fun hraises => absurd hraises (by simp [raises]), fun hflag => .inl ?_⟩
    obtain ⟨m, -, hs'⟩ | ⟨m, -, rfl⟩ | ⟨m, -, rfl⟩ | ⟨-, rfl⟩ := mrtWrite_cases hstep
    · have hstat : s'.stat n = (view n (loadInterval s m v now)).2.2.1 := by
        rw [mrtReschedule_eq hs']
        rfl
      rw [intFlagged, hstat, view_loadInterval] at hflag
      split_ifs at hflag with hm hload hzero
      · have hset := (anyBit_or (s.stat n) statRun statIntflag).symm.trans hflag
        rw [show anyBit statRun statIntflag = false by decide, Bool.or_false] at hset
        exact hset
      · exact anyBit_of_anyBit_and hflag
      · exact hflag
      · exact hflag
    · exact hflag
    · have hold : anyBit (update s.stat m (statAfter v (s.stat m)) n) statIntflag := hflag
      by_cases hm : n = m
      · rw [hm, update_self, statAfter] at hold
        rw [hm]
        split at hold
        · exact anyBit_of_anyBit_and hold
        · exact hold
      · rw [update_of_ne hm] at hold
        exact hold
    · exact hflag

def ConstantClock (_ : MrtState) (e : Event) : Prop := ∀ hz, e ≠ .clock hz

lemma sound_run {s₀ : MrtState} (hclk : s₀.clkHz ≠ 0) {events : List Event}
    (hadm : AdmitsPartial step ConstantClock (mcxnMrtReset s₀) events) :
    (runPartial step (mcxnMrtReset s₀) events).isSome ∧
    (∀ before, before <+: events → ∀ s ∈ runPartial step (mcxnMrtReset s₀) before,
      (∀ n, running s n ↔ s.load n ≠ 0) ∧ ((∃ n, running s n) → s.timer.isSome)) ∧
    ∀ before e rest, events = before ++ e :: rest →
      ∀ s ∈ runPartial step (mcxnMrtReset s₀) before, ∀ s' ∈ step s e, ∀ n,
      s'.load n = loadedAfter n s e ∧ (raises n s e → intFlagged s' n) ∧
      (intFlagged s' n → intFlagged s n ∨ raises n s e) := by
  have hstart : Sound (mcxnMrtReset s₀) ∧ (mcxnMrtReset s₀).clkHz ≠ 0 := by
    refine ⟨⟨?_, ?_, ?_⟩, hclk⟩ <;> simp [mcxnMrtReset, running]
  have hinv : ∀ s e s', ConstantClock s e → Sound s ∧ s.clkHz ≠ 0 → step s e = some s' →
      Sound s' ∧ s'.clkHz ≠ 0 := by
    intro s e s' hclock h hstep
    obtain ⟨hsound, hkept, -⟩ := h.1.next h.2 hclock hstep
    exact ⟨hsound, by rw [hkept]; exact h.2⟩
  have hstep : ∀ s e, ConstantClock s e → Sound s ∧ s.clkHz ≠ 0 → (step s e).isSome := by
    intro s e hclock h
    apply step_isSome
    cases e with
    | write off v now =>
      intro n _ _
      rw [loadInterval_clkHz]
      exact h.2
    | tick now => exact fun _ => h.2
    | _ => trivial
  refine ⟨runPartial_isSome_of_admits hstep hinv hstart hadm, ?_, ?_⟩
  · rintro before ⟨rest, rfl⟩ s hs
    have h := (runPartial_invariant_of_admits hinv hstart (admitsPartial_append.mp hadm).1 hs).1
    exact ⟨h.run_iff, h.pending⟩
  rintro before e rest rfl s hs s' hs' n
  obtain ⟨h, hclock⟩ := every_step_of_admitsPartial hinv hstart hadm s hs
  exact ⟨(h.1.next h.2 hclock hs').2.2 n, flag_next hs'⟩

end Mcxn947.Mrt
