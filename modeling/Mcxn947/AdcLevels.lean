import Mcxn947.AdcModel
import Mcxn947.EventRuns

/-!
# The ADC's flags and lines as levels

`STAT[RDYn]`, the request lines and the interrupt line are to show the FIFOs at all times.  A
write to `FCTRLn` moves the watermark and publishes the lines, but leaves `STAT` as it was.
-/

namespace Mcxn947.Adc

open MachineWords EventRuns LevelLines List AdcState

/-- An access is 32 bits wide and aligned. -/
inductive LevelEvent
  | read (i : ℕ)
  | write (i : ℕ) (v : Word)
  | hwTrigger (trig : ℤ) (level : Bool)
  | operator (ch : Fin 16) (v : HalfWord)

def levelStep (s : AdcState) : LevelEvent → AdcState
  | .read i => (mcxnAdcRead s (4 * i)).2
  | .write i v => mcxnAdcWrite s (4 * i) v
  | .hwTrigger trig level => mcxnAdcHwTrigger s trig level
  | .operator ch v => { s with adcCh := Function.update s.adcCh ch v }

def AdcState.above (s : AdcState) (f : FifoIdx) : Bool := adcFwmark s f < (s.fifo f).length

/-- Flags, requests and line show which FIFOs are above their watermark. -/
structure Levels (s : AdcState) : Prop where
  ready : ∀ f, anyBit (s.reg rStat) (statRdy f) = s.above f
  requests : ∀ f, s.dmaReq.level f = (anyBit (s.reg rDe) (deFwmde f) && s.above f)
  interrupt : s.irq = s.interrupts

/-- A write of a watermark leaves its FIFO on the same side of it. -/
def KeepsSide (s : AdcState) : LevelEvent → Prop
  | .write i v => ∀ f, 4 * i = rFctrl f → (s.setReg (rFctrl f) v).above f = s.above f
  | _ => True

variable {s t : AdcState}

lemma publish_updateIrq (t : AdcState) (f : FifoIdx) :
    (mcxnAdcUpdateIrq t).dmaReq.level f = (anyBit (t.reg rDe) (deFwmde f) && t.above f) := by
  have hall : ∀ f : FifoIdx, f ∈ [0, 1] := by decide
  rw [mcxnAdcUpdateIrq, Lines.publishAll_level, if_pos (hall f)]
  rfl

lemma rdy_updateRdy (u : AdcState) (f g : FifoIdx) :
    anyBit ((adcUpdateRdy u f).reg rStat) (statRdy g) =
      if g = f then u.above f else anyBit (u.reg rStat) (statRdy g) := by
  have hset : (adcUpdateRdy u f).reg rStat =
      if u.above f then u.reg rStat ||| statRdy f else u.reg rStat &&& ~~~statRdy f := by
    simp [adcUpdateRdy, above, reg, setReg]
  have hbits : ∀ f g : FifoIdx, anyBit (statRdy f) (statRdy g) = decide (g = f) := by decide
  have hown : ∀ f : FifoIdx, statRdy f &&& ~~~statRdy f = 0 := by decide
  have hother : ∀ f g : FifoIdx, g ≠ f → statRdy f &&& statRdy g = 0 := by decide
  rw [hset]
  cases u.above f with
  | true => by_cases hg : g = f <;> simp [hbits, hg]
  | false =>
    by_cases hg : g = f
    · subst hg
      simpa using anyBit_clear_of_subset (hown g) _
    · simpa [hg] using anyBit_clear_of_disjoint (hother f g hg) _

lemma levels_updateStatus (t : AdcState) : Levels (mcxnAdcUpdateStatus t) := by
  refine ⟨fun f => ?_, publish_updateIrq _, rfl⟩
  show anyBit ((adcUpdateRdy (adcUpdateRdy t 0) 1).reg rStat) (statRdy f) =
    (adcUpdateRdy (adcUpdateRdy t 0) 1).above f
  rw [rdy_updateRdy, rdy_updateRdy]
  fin_cases f <;> rfl

section

variable (h : Levels s)
include h

lemma levels_doConversion (swtrig : Word) : Levels (mcxnAdcDoConversion s swtrig) := by
  unfold mcxnAdcDoConversion
  split
  · exact h
  · exact levels_updateStatus _

lemma Levels.congr (hregs : ∀ off ∈ [rStat, rIe, rDe, rFctrl 0, rFctrl 1], t.reg off = s.reg off)
    (hfifo : t.fifo = s.fifo) (hirq : t.irq = s.irq) (hdma : t.dmaReq = s.dmaReq) : Levels t := by
  have habove : t.above = s.above := by
    funext f
    have hmark : t.reg (rFctrl f) = s.reg (rFctrl f) := by fin_cases f <;> exact hregs _ (by decide)
    rw [above, above, adcFwmark, adcFwmark, hmark, hfifo]
  refine ⟨fun f => ?_, fun f => ?_, ?_⟩
  · rw [hregs rStat (by decide), habove, h.ready]
  · rw [hregs rDe (by decide), habove, hdma, h.requests]
  · simp only [interrupts, hregs rStat (by decide), hregs rIe (by decide), hirq]
    exact h.interrupt

lemma levels_updateIrq_iff (hstat : t.reg rStat = s.reg rStat) :
    Levels (mcxnAdcUpdateIrq t) ↔ ∀ f, t.above f = s.above f := by
  constructor
  · intro hlevels f
    have hready : anyBit (t.reg rStat) (statRdy f) = t.above f := hlevels.ready f
    rw [← hready, hstat, h.ready]
  intro habove
  refine ⟨fun f => ?_, publish_updateIrq t, rfl⟩
  show anyBit (t.reg rStat) (statRdy f) = t.above f
  rw [hstat, habove, h.ready]

lemma levels_write (i : ℕ) (v : Word) :
    Levels (mcxnAdcWrite s (4 * i) v) ↔ KeepsSide s (.write i v) := by
  have hreg : ∀ off off', off / 4 ≠ off' / 4 → (s.setReg off v).reg off' = s.reg off' :=
    fun off off' hne => Function.update_of_ne hne.symm _ _
  by_cases hfctrl : ∃ f, 4 * i = rFctrl f
  · obtain ⟨f, hf⟩ := hfctrl
    have hwrite : mcxnAdcWrite s (rFctrl f) v = mcxnAdcUpdateIrq (s.setReg (rFctrl f) v) := by
      fin_cases f <;> rfl
    have hother : ∀ g, g ≠ f → (s.setReg (rFctrl f) v).above g = s.above g := by
      intro g hg
      fin_cases f <;> fin_cases g <;> first | exact absurd rfl hg | rfl
    have hstat : (s.setReg (rFctrl f) v).reg rStat = s.reg rStat := by fin_cases f <;> rfl
    have hinj : ∀ f g : FifoIdx, rFctrl f = rFctrl g → f = g := by decide
    rw [hf, hwrite, levels_updateIrq_iff h hstat, KeepsSide, hf]
    constructor
    · rintro hall g hg
      rw [← hinj f g hg]
      exact hall f
    intro hside g
    by_cases hg : g = f
    · exact hg ▸ hside f rfl
    · exact hother g hg
  rw [not_exists] at hfctrl
  refine iff_of_true ?_ fun f hf => absurd hf (hfctrl f)
  have h0 := hfctrl 0
  have h1 := hfctrl 1
  have hgate : ∀ off ∈ [rDe, rIe], Levels (mcxnAdcUpdateIrq (s.setReg off v)) := by
    intro off hoff
    simp only [mem_cons, not_mem_nil, or_false] at hoff
    rcases hoff with rfl | rfl
    all_goals
      refine (levels_updateIrq_iff (t := s.setReg _ v) h rfl).mpr fun f => ?_
      fin_cases f <;> rfl
  unfold mcxnAdcWrite
  split_ifs with hro hde hctrl hstat hie hswtrig hzero hresfifo
  · exact h
  · rw [hde.resolve_right (not_or.mpr ⟨h0, h1⟩)]
    exact hgate rDe (by decide)
  · exact levels_updateStatus _
  · exact levels_updateStatus _
  · exact hgate rIe (by decide)
  · exact levels_doConversion h v
  · exact h
  · exact h
  refine h.congr (fun off hoff => hreg _ _ ?_) rfl rfl rfl
  simp only [mem_cons, not_mem_nil, or_false] at hoff
  rw [not_or] at hde
  rw [Nat.mul_div_cancel_left i (by decide)]
  rcases hoff with rfl | rfl | rfl | rfl | rfl <;> rintro rfl
  · exact hstat rfl
  · exact hie rfl
  · exact hde.1 rfl
  · exact h0 rfl
  · exact h1 rfl

lemma levels_step (e : LevelEvent) : Levels (levelStep s e) ↔ KeepsSide s e := by
  cases e with
  | read i =>
    refine iff_of_true ?_ trivial
    simp only [levelStep, mcxnAdcRead]
    split_ifs
    any_goals exact h
    all_goals exact levels_updateStatus _
  | write i v => exact levels_write h i v
  | hwTrigger trig level =>
    refine iff_of_true ?_ trivial
    simp only [levelStep, mcxnAdcHwTrigger]
    split_ifs
    · exact h
    · exact h
    · exact levels_doConversion h _
  | operator ch v => exact iff_of_true ⟨h.ready, h.requests, h.interrupt⟩ trivial

end

/-- From reset, the flags and lines show the FIFOs at all times exactly in the runs in which no
write of a watermark moves it across the number of entries of its FIFO. -/
theorem levels_always_iff (events : List LevelEvent) :
    Always levelStep Levels (mcxnAdcReset .created) events ↔
      Admits levelStep KeepsSide (mcxnAdcReset .created) events := by
  have hreset : Levels (mcxnAdcReset .created) :=
    ⟨fun f => by fin_cases f <;> rfl, fun f => by fin_cases f <;> rfl, rfl⟩
  have hstep : ∀ s e, True → Levels s → (Levels (levelStep s e) ↔ KeepsSide s e) :=
    fun _ e _ h => levels_step h e
  exact always_iff_admits (fun _ _ _ => trivial) hstep trivial hreset events

/-- One result waits, and the watermark is raised to one: `RDY0` stays set. -/
theorem ready_stays_after_fctrl :
    let s := run levelStep (mcxnAdcReset .created)
      [.write 0x04 1, .write 0x0D 1, .write 0x38 0x00010000]
    anyBit (s.reg rStat) (statRdy 0) = true ∧ (s.fifo 0).length = 1 ∧ adcFwmark s 0 = 1 := by
  decide

end Mcxn947.Adc
