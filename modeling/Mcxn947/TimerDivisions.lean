import Mcxn947.CtimerModel
import Mcxn947.EventRuns
import Mcxn947.SystemTimers

/-!
# Divisions of the timers

The timers divide by a guest-written prescaler plus one and by a clock that can be
switched off.
-/

namespace Mcxn947.Ctimer

open MachineWords EventRuns

variable {s s' : CtimerState}

def PeekDefined (s : CtimerState) (now : ℤ) : Prop :=
  ctimerRunning s = true → s.baseNs < now → s.pr ≠ 0xFFFFFFFF

def ArmDefined (s : CtimerState) : Prop :=
  ctimerRunning s = true → (∃ n, anyBit s.mcr (mcrAny n) = true) → s.clkHz ≠ 0

def Defined (s : CtimerState) : Event → Prop
  | .read off now => off = 0x08 ∨ off = 0x10 → PeekDefined s now
  | .write off v now => ∀ r, countReg off = some r →
      PeekDefined s now ∧ ArmDefined (setCountReg s r v)
  | .tick now => PeekDefined s now ∧ ArmDefined s
  | .capture level now => captureEdge s level = true → PeekDefined s now
  | _ => True

variable {v : Word}

lemma succ_ne_zero (h : v ≠ 0xFFFFFFFF) : v + 1 ≠ 0 := by
  intro hzero
  apply h
  bv_omega

variable {now : ℤ}

lemma peek_isSome (h : PeekDefined s now) : (ctimerPeek s now).isSome := by
  unfold ctimerPeek
  split
  · rfl
  rename_i hlive
  rw [not_or] at hlive
  have hdiv :=
    setWidth_ne_zero (succ_ne_zero (h (by simpa using hlive.1) (Int.lt_of_not_ge hlive.2)))
  simp only [udiv?_of_ne hdiv, umod?_of_ne hdiv]
  rfl

lemma sync_eq (h : PeekDefined s now) :
    ∃ tc pc, ctimerSync s now = some { s with tc := tc, pc := pc, baseNs := now } := by
  obtain ⟨⟨tc, pc⟩, hpeek⟩ := Option.isSome_iff_exists.mp (peek_isSome h)
  refine ⟨tc, pc, ?_⟩
  simp only [ctimerSync, hpeek]
  rfl

structure Calmer (s s' : CtimerState) : Prop where
  mcr : s'.mcr = s.mcr
  clkHz : s'.clkHz = s.clkHz
  running : ctimerRunning s' = true → ctimerRunning s = true

lemma ArmDefined.calmer (h : ArmDefined s) (hcalmer : Calmer s s') : ArmDefined s' := by
  intro hrun hmatch
  rw [hcalmer.clkHz]
  rw [hcalmer.mcr] at hmatch
  exact h (hcalmer.running hrun) hmatch

lemma reschedule_isSome (h : ArmDefined s) : (ctimerReschedule s now).isSome := by
  unfold ctimerReschedule
  split
  · rfl
  rename_i hrun
  refine isSome_bind (foldlM_isSome ?_ _) fun _ _ => rfl
  intro best n _
  unfold nearerMatch
  split
  · rfl
  rename_i hmatch
  have hclock := setWidth_ne_zero (h (by simpa using hrun) ⟨n, by simpa using hmatch⟩)
  simp only [udiv?_of_ne hclock]
  rfl

lemma calmer_setCountReg (s : CtimerState) (r : CountReg) (v tc pc : Word) (base : ℤ) :
    Calmer (setCountReg s r v) (setCountReg { s with tc := tc, pc := pc, baseNs := base } r v) := by
  cases r with
  | tcr =>
    simp only [setCountReg]
    split <;> exact ⟨rfl, rfl, id⟩
  | _ => exact ⟨rfl, rfl, id⟩

lemma writeCount_isSome {r : CountReg} (hpeek : PeekDefined s now)
    (harm : ArmDefined (setCountReg s r v)) : (writeCount s r v now).isSome := by
  obtain ⟨tc, pc, hsync⟩ := sync_eq hpeek
  simp only [writeCount, hsync]
  exact reschedule_isSome (harm.calmer (calmer_setCountReg s r v tc pc now))

lemma Calmer.trans {s'' : CtimerState} (h : Calmer s s') (h' : Calmer s' s'') : Calmer s s'' :=
  ⟨h'.mcr.trans h.mcr, h'.clkHz.trans h.clkHz, fun hrun => h.running (h'.running hrun)⟩

lemma calmer_matchAction (x : CtimerState × Bool) (n : Match) : Calmer x.1 (matchAction x n).1 := by
  simp only [matchAction]
  split
  · exact ⟨rfl, rfl, id⟩
  refine ⟨rfl, rfl, ?_⟩
  intro hrun
  by_cases hstop : anyBit x.1.mcr (mcrStop n) = true
  · have hclear : anyBit (x.1.tcr &&& ~~~tcrCen) tcrCen = false :=
      anyBit_clear_of_subset (by decide) _
    simp [ctimerRunning, hstop, hclear] at hrun
  · simpa [ctimerRunning, hstop] using hrun

lemma calmer_matchActions (ns : List Match) (x : CtimerState × Bool) :
    Calmer x.1 (ns.foldl matchAction x).1 := by
  induction ns generalizing x with
  | nil => exact ⟨rfl, rfl, id⟩
  | cons n rest ih => exact (calmer_matchAction x n).trans (ih _)

lemma calmer_fireMatch (s : CtimerState) (fire : Match) (now : ℤ) :
    Calmer s (fireMatch s fire now) := by
  have hactions := calmer_matchActions (List.finRange 4)
    ({ s with tc := s.mr fire, pc := 0 }, false)
  simp only [fireMatch]
  split <;> exact ⟨hactions.mcr, hactions.clkHz, hactions.running⟩

lemma tick_isSome (hpeek : PeekDefined s now) (harm : ArmDefined s) :
    (ctimerTick s now).isSome := by
  obtain ⟨tc, pc, hsync⟩ := sync_eq (s := { s with timer := none }) hpeek
  simp only [ctimerTick, hsync, Option.bind_eq_bind, Option.bind_some]
  have hsynced : Calmer s { s with timer := none, tc := tc, pc := pc, baseNs := now } :=
    ⟨rfl, rfl, id⟩
  apply reschedule_isSome
  apply harm.calmer
  split
  · exact hsynced.trans ((calmer_fireMatch _ _ now).trans ⟨rfl, rfl, id⟩)
  · exact hsynced.trans ⟨rfl, rfl, id⟩

lemma step_isSome {event : Event} (h : Defined s event) : (step s event).isSome := by
  cases event with
  | clock hz | reset => rfl
  | tick now => exact tick_isSome h.1 h.2
  | capture level now =>
    simp only [step, ctimerCapture0]
    split
    next hedge => exact isSome_bind (peek_isSome (h hedge)) fun _ _ => rfl
    · rfl
  | write off v now =>
    simp only [step, ctimerWrite]
    split
    next r hreg => exact writeCount_isSome (h r hreg).1 (h r hreg).2
    · rfl
  | read off now =>
    rw [step, Option.isSome_map]
    have hpeek : off = 0x08 ∨ off = 0x10 → (ctimerPeek s now).isSome :=
      fun hlive => peek_isSome (h hlive)
    -- only TC and PC are computed
    refine isSome_ite (fun _ => rfl) fun _ => isSome_ite (fun _ => rfl) fun _ => ?_
    refine isSome_ite (fun htc => ?_) fun _ => isSome_ite (fun _ => rfl) fun _ => ?_
    · rw [Option.isSome_map]
      exact hpeek (Or.inl htc)
    refine isSome_ite (fun hpc => ?_) fun _ => ?_
    · rw [Option.isSome_map]
      exact hpeek (Or.inr hpc)
    iterate 8 refine isSome_ite (fun _ => rfl) fun _ => ?_
    rfl

end Mcxn947.Ctimer

namespace Mcxn947.Ostimer

open MachineWords EventRuns

variable {s : OstimerState}

def Defined (s : OstimerState) : Event → Prop
  | .write off v _ => ∀ s', writeArming s off v = some s' →
      anyBit s'.ctrl ctrlIntena = true → s.baseCount < s'.matchVal → s.clkHz ≠ 0
  | _ => True

lemma count_of_stopped (hclock : s.clkHz = 0) (now : ℤ) :
    ostimerCount s now = s.baseCount := by
  have hzero : (0 : Word).setWidth 64 = 0#64 := rfl
  simp only [ostimerCount]
  rw [hclock, hzero, BitVec.mul_zero, BitVec.zero_udiv, BitVec.add_zero]

lemma ostimerReschedule_isSome {now : ℤ}
    (h : anyBit s.ctrl ctrlIntena → s.baseCount < s.matchVal → s.clkHz ≠ 0) :
    (ostimerReschedule s now).isSome := by
  simp only [ostimerReschedule]
  split
  · rfl
  rename_i hahead
  rw [not_or] at hahead
  have hclock : s.clkHz ≠ 0 := by
    intro hzero
    rw [count_of_stopped hzero] at hahead
    exact h (by simpa using hahead.1) (BitVec.not_le.mp hahead.2) hzero
  simp only [udiv?_of_ne (setWidth_ne_zero hclock)]
  rfl

lemma writeArming_keeps {s' : OstimerState} {off : ℕ} {v : Word}
    (h : writeArming s off v = some s') :
    s'.clkHz = s.clkHz ∧ s'.baseCount = s.baseCount ∧ s'.baseNs = s.baseNs := by
  unfold writeArming at h
  split_ifs at h <;> cases h <;> exact ⟨rfl, rfl, rfl⟩

lemma step_isSome {event : Event} (h : Defined s event) : (step s event).isSome := by
  cases event with
  | write off v now =>
    simp only [step, mcxnOstimerWrite]
    split
    next s' hwrite =>
      obtain ⟨hclock, hbase, -⟩ := writeArming_keeps hwrite
      apply ostimerReschedule_isSome
      rw [hclock, hbase]
      exact h s' hwrite
    · rfl
  | _ => rfl

end Mcxn947.Ostimer

namespace Mcxn947.Mrt

open MachineWords EventRuns

variable {s s' : MrtState}

def ArmDefined (s : MrtState) : Prop := (∃ n, running s n = true) → s.clkHz ≠ 0

def Defined (s : MrtState) : Event → Prop
  | .write off v now => ∀ n : Channel, off = n.val * 0x10 → ArmDefined (loadInterval s n v now)
  | .tick _ => ArmDefined s
  | _ => True

lemma mrtReschedule_isSome {now : ℤ} (h : ArmDefined s) : (mrtReschedule s now).isSome := by
  refine isSome_bind (foldlM_isSome ?_ _) fun _ _ => rfl
  intro best n _
  unfold nearerChannel
  split
  · rfl
  rename_i hrun
  have hclock := setWidth_ne_zero (h ⟨n, by simpa using hrun⟩)
  simp only [udiv?_of_ne hclock]
  rfl

lemma loadInterval_clkHz (s : MrtState) (n : Channel) (v : Word) (now : ℤ) :
    (loadInterval s n v now).clkHz = s.clkHz := by
  simp only [loadInterval]
  split <;> rfl

structure Calmer (s s' : MrtState) : Prop where
  clkHz : s'.clkHz = s.clkHz
  running : ∀ n, Mrt.running s' n = true → Mrt.running s n = true

lemma ArmDefined.calmer (h : ArmDefined s) (hcalmer : Calmer s s') : ArmDefined s' := by
  rintro ⟨n, hrun⟩
  rw [hcalmer.clkHz]
  exact h ⟨n, hcalmer.running n hrun⟩

lemma calmer_expireChannel (now : ℤ) (s : MrtState) (n : Channel) :
    Calmer s (expireChannel now s n) := by
  unfold expireChannel
  split
  · exact ⟨rfl, fun _ => id⟩
  rename_i hrun
  -- channel n was running, so only the others have to be looked at
  have hn : running s n := by simpa using hrun
  split
  · exact ⟨rfl, fun _ => id⟩
  split
  all_goals
    refine ⟨rfl, fun m hm => ?_⟩
    by_cases hmn : m = n
    · rw [hmn]
      exact hn
    · simpa [running, Function.update_of_ne hmn] using hm

lemma calmer_expireChannels (now : ℤ) (ns : List Channel) (s : MrtState) :
    Calmer s (ns.foldl (expireChannel now) s) := by
  induction ns generalizing s with
  | nil => exact ⟨rfl, fun _ => id⟩
  | cons n rest ih =>
    have hhead := calmer_expireChannel now s n
    have htail := ih (expireChannel now s n)
    exact ⟨htail.clkHz.trans hhead.clkHz, fun m hm => hhead.running m (htail.running m hm)⟩

lemma step_isSome {event : Event} (h : Defined s event) : (step s event).isSome := by
  cases event with
  | tick now =>
    have hcalmer := calmer_expireChannels now (List.finRange 4) { s with timer := none }
    exact mrtReschedule_isSome (ArmDefined.calmer h ⟨hcalmer.clkHz, hcalmer.running⟩)
  | write off v now =>
    simp only [step, mrtWrite]
    split
    · split
      · exact mrtReschedule_isSome (h _ (by dsimp only; omega))
      · rfl
      · rfl
      · rfl
    · rfl
  | _ => rfl

end Mcxn947.Mrt

namespace Mcxn947.Lptmr

open MachineWords EventRuns

section

variable (s : LptmrState)

lemma divider_ne_zero : lptmrDivider s ≠ 0 := by
  unfold lptmrDivider
  split
  · decide
  have hlt : s.psr.toNat / 8 % 16 < 16 := Nat.mod_lt _ (by decide)
  generalize s.psr.toNat / 8 % 16 = prescale at hlt
  interval_cases prescale <;> decide

lemma freq_isSome : (lptmrFreq s).isSome := by
  simp [lptmrFreq, udiv?_of_ne (divider_ne_zero s)]

lemma lptmrPeek_isSome (now : ℤ) : (lptmrPeek s now).isSome := by
  unfold lptmrPeek
  split
  · rfl
  · exact isSome_bind (freq_isSome s) fun _ _ => rfl

lemma lptmrReschedule_isSome (now : ℤ) : (lptmrReschedule s now).isSome := by
  unfold lptmrReschedule
  split
  · rfl
  refine isSome_bind (freq_isSome s) fun freq _ => ?_
  split
  · rfl
  rename_i hfreq
  refine isSome_bind (lptmrPeek_isSome s now) fun cur _ => ?_
  simp only [udiv?_of_ne (setWidth_ne_zero hfreq)]
  rfl

lemma step_isSome (event : Event) : (step s event).isSome := by
  cases event with
  | clock hz | reset => rfl
  | read off now =>
    rw [step, Option.isSome_map]
    unfold lptmrRead
    have hpeek := lptmrPeek_isSome s now
    split_ifs <;> first | rfl | exact hpeek
  | write off v now =>
    simp only [step, lptmrWrite]
    split_ifs <;> first | rfl | exact lptmrReschedule_isSome _ now
  | tick now =>
    simp only [step, lptmrTick]
    split
    · exact isSome_bind (lptmrPeek_isSome _ now) fun cnr _ => lptmrReschedule_isSome _ now
    · exact lptmrReschedule_isSome _ now

end

end Mcxn947.Lptmr

namespace Mcxn947

open EventRuns

structure Timers where
  ctimer : Ctimer.CtimerState
  ostimer : Ostimer.OstimerState
  mrt : Mrt.MrtState
  lptmr : Lptmr.LptmrState

inductive TimerEvent
  | ctimer (event : Ctimer.Event)
  | ostimer (event : Ostimer.Event)
  | mrt (event : Mrt.Event)
  | lptmr (event : Lptmr.Event)

def Timers.step (t : Timers) : TimerEvent → Option Timers
  | .ctimer e => (Ctimer.step t.ctimer e).map fun s => { t with ctimer := s }
  | .ostimer e => (Ostimer.step t.ostimer e).map fun s => { t with ostimer := s }
  | .mrt e => (Mrt.step t.mrt e).map fun s => { t with mrt := s }
  | .lptmr e => (Lptmr.step t.lptmr e).map fun s => { t with lptmr := s }

def Timers.Defined (t : Timers) : TimerEvent → Prop
  | .ctimer e => Ctimer.Defined t.ctimer e
  | .ostimer e => Ostimer.Defined t.ostimer e
  | .mrt e => Mrt.Defined t.mrt e
  | .lptmr _ => True

lemma Timers.step_isSome {t : Timers} {event : TimerEvent} (h : t.Defined event) :
    (t.step event).isSome := by
  cases event with
  | ctimer e =>
    rw [Timers.step, Option.isSome_map]
    exact Ctimer.step_isSome h
  | ostimer e =>
    rw [Timers.step, Option.isSome_map]
    exact Ostimer.step_isSome h
  | mrt e =>
    rw [Timers.step, Option.isSome_map]
    exact Mrt.step_isSome h
  | lptmr e =>
    rw [Timers.step, Option.isSome_map]
    exact Lptmr.step_isSome _ e

/-- No run of defined accesses, callbacks and clock changes divides by zero. -/
theorem timers_divide_defined {t : Timers} {events : List TimerEvent}
    (h : AdmitsPartial Timers.step Timers.Defined t events) :
    (runPartial Timers.step t events).isSome :=
  runPartial_isSome_of_admits (P := fun _ => True)
    (fun _ _ hdefined _ => Timers.step_isSome hdefined) (fun _ _ _ _ _ _ => trivial) trivial h

def Timers.powerOn (hz : MachineWords.Word) : Timers where
  ctimer := Ctimer.mcxnCtimerReset
    { clkHz := hz, ir := 0, tcr := 0, pr := 0, mcr := 0, mr := fun _ => 0, ccr := 0, emr := 0,
      ctcr := 0, pwmc := 0, cr := fun _ => 0, msr := fun _ => 0, tc := 0, pc := 0, baseNs := 0,
      cap0Level := false, timer := none, irq := false, dmaPulses := fun _ => 0,
      trigPulses := fun _ => 0 }
  ostimer := Ostimer.mcxnOstimerReset
    { clkHz := hz, baseCount := 0, baseNs := 0, matchVal := 0, matchGrayL := 0,
      matchGrayH := 0, ctrl := 0, captureL := 0, captureH := 0, timer := none, irq := false } 0
  mrt := Mrt.mcxnMrtReset
    { clkHz := hz, intval := fun _ => 0, ctrl := fun _ => 0, stat := fun _ => 0,
      load := fun _ => 0, baseNs := fun _ => 0, timer := none, irq := false }
  lptmr := Lptmr.mcxnLptmrReset
    { clkHz := hz, csr := 0, psr := 0, cmr := 0, cnr := 0, baseNs := 0, timer := none,
      irq := false, triggerPulses := 0 }

theorem timers_divide_clocked : (runPartial Timers.step (Timers.powerOn 48000000)
      [.mrt (.write 0x00 0x80000064 0), .lptmr (.clock 0), .lptmr (.write 0x00 1 10)]).isSome := by
  apply timers_divide_defined
  refine ⟨?_, fun _ _ => ⟨trivial, fun _ _ => ⟨trivial, fun _ _ => trivial⟩⟩⟩
  rintro n - -
  rw [Mrt.loadInterval_clkHz]
  decide

theorem timers_divide_by_zero : (runPartial Timers.step (Timers.powerOn 48000000)
      [.ctimer (.write 0x0C 0xFFFFFFFF 0), .ctimer (.write 0x04 1 0),
        .ctimer (.read 0x08 1)]).isNone ∧
    (runPartial Timers.step (Timers.powerOn 0)
      [.ctimer (.write 0x14 1 0), .ctimer (.write 0x04 1 0)]).isNone ∧
    (runPartial Timers.step (Timers.powerOn 0) [.ostimer (.write 0x1C 2 0)]).isNone ∧
    (runPartial Timers.step (Timers.powerOn 0) [.mrt (.write 0x00 100 0)]).isNone := by
  decide +kernel

end Mcxn947
