import Mcxn947.EventRuns
import Mcxn947.SaiModel

/-!
# Lines and word clock of the SAI

The lines are published and the word timer is armed by some operations only.
-/

namespace Mcxn947.Sai

open MachineWords EventRuns LevelLines

structure Clocked where
  dev : SaiState
  mclk : Word

/-- A word tick is the callback of a pending timer. -/
inductive LineEvent
  | write (now off : ℕ) (val : Word)
  | read (off : ℕ)
  | tick
  | mclk (hz : Word)

def lineStep (x : Clocked) : LineEvent → Clocked
  | .write now off val => { x with dev := mcxnSaiWrite x.dev ⟨now, x.mclk⟩ off val }
  | .read off => { x with dev := (mcxnSaiRead x.dev off).2 }
  | .tick => if x.dev.wordTimer.isSome then { x with dev := mcxnSaiWordTick x.dev x.mclk } else x
  | .mclk hz => { x with mclk := hz }

def Running (s : SaiState) (mclk : Word) : Prop := s.te = true ∧ 0 < saiWordPeriodNs s mclk

def Published (s : SaiState) : Prop := s.irq = s.interrupts ∧ s.dmaReq.level = s.asks

def Timed (s : SaiState) (mclk : Word) : Prop := s.wordTimer.isSome ↔ Running s mclk

def fifo (s : SaiState) : SaiLine → List Word
  | .tx => s.txFifo
  | .rx => s.rxFifo

def Emptied (x : Clocked) : LineEvent → Prop
  | .write now off val => ∀ l, off = saiCsr l → anyBit val csrMomentary = true →
      fifo (lineStep x (.write now off val)).dev l = [] ∧
        anyBit (mcxnSaiRead (lineStep x (.write now off val)).dev off).1 csrFef = false
  | _ => True

/-- After the event the lines and the timer are right, and a FIFO it reset is empty and
without an error. -/
def Right (x : Clocked) (e : LineEvent) : Prop :=
  (Published (lineStep x e).dev ∧ Timed (lineStep x e).dev (lineStep x e).mclk) ∧ Emptied x e

/-- A plain store and a change of the clock move no condition that a line or the timer shows,
and a write that resets a FIFO clears the error flag if it is set. -/
def Moves (x : Clocked) : LineEvent → Prop
  | .write _ off val =>
    (SaiPlain off → (x.dev.setReg off val).interrupts = x.dev.interrupts ∧
      (x.dev.setReg off val).asks = x.dev.asks ∧
      (Running (x.dev.setReg off val) x.mclk ↔ Running x.dev x.mclk)) ∧
    ∀ l, off = saiCsr l → anyBit val csrMomentary = true →
      anyBit (x.dev.reg off) csrFef = true → anyBit val csrFef = true
  | .mclk hz => Running x.dev hz ↔ Running x.dev x.mclk
  | _ => True

section Updates

variable (s : SaiState) (mclk : Word)

lemma updateIrq_published : Published (mcxnSaiUpdateIrq s) := by
  refine ⟨rfl, funext fun l => ?_⟩
  have hmem : l ∈ [SaiLine.tx, .rx] := by cases l <;> simp
  exact (Lines.publishAll_level _ _ _ _).trans (if_pos hmem)

variable {s mclk}

lemma Timed.congr {t : SaiState} (h : Timed s mclk) (htimer : t.wordTimer = s.wordTimer)
    (hte : t.te = s.te) (htcr2 : t.reg saiTcr2 = s.reg saiTcr2)
    (htcr5 : t.reg saiTcr5 = s.reg saiTcr5) : Timed t mclk := by
  have hperiod : saiWordPeriodNs t mclk = saiWordPeriodNs s mclk := by
    unfold saiWordPeriodNs saiBclk
    rw [htcr2, htcr5]
  unfold Timed Running
  rw [htimer, hte, hperiod]
  exact h

lemma rearm_timed (hte : s.te) (start : ℕ) : Timed (saiRearm s mclk start) mclk := by
  unfold saiRearm
  split
  next hpos => exact iff_of_true rfl ⟨hte, hpos⟩
  next hzero => exact iff_of_false (by simp) fun hruns => hzero hruns.2

lemma shiftWord_te : (saiShiftWord s).te = s.te := by
  unfold saiShiftWord
  split
  · exact setReg_fef_te s
  dsimp only
  split
  · split <;> rfl
  · rfl

lemma wordTick_timed (hte : s.te) : Timed (mcxnSaiWordTick s mclk) mclk := by
  have hte' : SaiState.te { s with wordTimer := none } = true := hte
  unfold mcxnSaiWordTick
  simp only [hte', Bool.not_true, Bool.false_eq_true, if_false]
  exact (rearm_timed (shiftWord_te.trans hte') _).congr rfl rfl rfl rfl

lemma readRdr_timed (h : Timed s mclk) : Timed (saiReadRdr s).2 mclk := by
  unfold saiReadRdr
  split <;> exact h.congr rfl rfl rfl rfl

lemma writeTdr_timed (h : Timed s mclk) (val : Word) : Timed (saiWriteTdr s val) mclk := by
  unfold saiWriteTdr
  split
  · exact h.congr rfl (setReg_fef_te s) rfl rfl
  · exact h.congr rfl rfl rfl rfl

lemma writeCsr_timed (h : Timed s mclk) (now : ℕ) (l : SaiLine) (val : Word) :
    Timed (saiWriteCsr s ⟨now, mclk⟩ l val) mclk := by
  cases l with
  | rx =>
    have hlatch : Timed (saiLatchCsr s .rx val) mclk := by
      unfold saiLatchCsr
      split <;> exact h.congr rfl rfl rfl rfl
    exact hlatch.congr rfl rfl rfl rfl
  | tx =>
    have hlatch : (saiLatchCsr s .tx val).wordTimer = s.wordTimer ∧
        (saiLatchCsr s .tx val).reg saiTcr2 = s.reg saiTcr2 ∧
        (saiLatchCsr s .tx val).reg saiTcr5 = s.reg saiTcr5 := by
      unfold saiLatchCsr
      split <;> exact ⟨rfl, rfl, rfl⟩
    have hgate : Timed (saiGateTimer (saiLatchCsr s .tx val) ⟨now, mclk⟩ s.te) mclk := by
      unfold saiGateTimer
      split
      next hstart =>
        rw [Bool.and_eq_true] at hstart
        exact rearm_timed hstart.1 now
      rename_i hstart
      split
      next hstop =>
        rw [Bool.and_eq_true, Bool.not_eq_true'] at hstop
        exact iff_of_false (by simp) fun hruns => absurd (hstop.1.symm.trans hruns.1) (by decide)
      rename_i hstop
      refine h.congr hlatch.1 ?_ hlatch.2.1 hlatch.2.2
      revert hstart hstop
      cases (saiLatchCsr s .tx val).te <;> cases s.te <;> simp
    exact hgate.congr rfl rfl rfl rfl

lemma anyBit_csrFef (v : Word) : anyBit v csrFef = v.getLsbD 18 := anyBit_twoPow v 18

lemma read_csr_fef (s : SaiState) (l : SaiLine) :
    anyBit (mcxnSaiRead s (saiCsr l)).1 csrFef = anyBit (s.reg (saiCsr l)) csrFef := by
  have hflags : ∀ (reg : Word) (c : Prop) [Decidable c],
      anyBit ((reg &&& ~~~csrMomentary) &&& ~~~csrStatus |||
        ((reg &&& csrFlagsW1c) ||| if c then csrFrf ||| csrFwf else 0)) csrFef =
        anyBit reg csrFef := by
    intro reg c _
    have hstatus : (~~~csrStatus : Word).getLsbD 18 = false := by decide
    have hw1c : csrFlagsW1c.getLsbD 18 := by decide
    have hrequest : (if c then csrFrf ||| csrFwf else 0 : Word).getLsbD 18 = false := by
      split <;> decide
    simp only [anyBit_csrFef, BitVec.getLsbD_or, BitVec.getLsbD_and, hstatus, hw1c, hrequest,
      Bool.and_false, Bool.and_true, Bool.false_or, Bool.or_false]
  cases l with
  | tx | rx => exact hflags _ _

lemma latchedCsr_fef (cur val : Word) :
    anyBit (saiLatchedCsr cur val) csrFef = (anyBit cur csrFef && !anyBit val csrFef) := by
  have hw1c : csrFlagsW1c.getLsbD 18 := by decide
  have hmomentary : csrMomentary.getLsbD 18 = false := by decide
  simp only [saiLatchedCsr, anyBit_csrFef, BitVec.getLsbD_and, BitVec.getLsbD_or,
    BitVec.getLsbD_not, hw1c, hmomentary]
  cases cur.getLsbD 18 <;> cases val.getLsbD 18 <;> rfl

lemma writeCsr_reset (clocks : SaiClocks) (l : SaiLine) {val : Word}
    (hreset : anyBit val csrMomentary) : fifo (saiWriteCsr s clocks l val) l = [] ∧
      (saiWriteCsr s clocks l val).reg (saiCsr l) = saiLatchedCsr (s.reg (saiCsr l)) val := by
  have hgate : ∀ t : SaiState, fifo (saiGateTimer t clocks s.te) .tx = fifo t .tx ∧
      (saiGateTimer t clocks s.te).reg saiTcsr = t.reg saiTcsr := by
    intro t
    unfold saiGateTimer saiRearm
    split
    · split <;> exact ⟨rfl, rfl⟩
    · split <;> exact ⟨rfl, rfl⟩
  have hlatch : fifo (saiLatchCsr s l val) l = [] ∧
      (saiLatchCsr s l val).reg (saiCsr l) = saiLatchedCsr (s.reg (saiCsr l)) val := by
    unfold saiLatchCsr
    rw [if_pos hreset]
    cases l <;> exact ⟨rfl, rfl⟩
  cases l with
  | tx => exact ⟨(hgate _).1.trans hlatch.1, (hgate _).2.trans hlatch.2⟩
  | rx => exact hlatch

end Updates

variable (s : SaiState)

lemma saiWrite_csr (clocks : SaiClocks) (l : SaiLine) (val : Word) :
    mcxnSaiWrite s clocks (saiCsr l) val = saiWriteCsr s clocks l val := by
  cases l <;> rfl

lemma emptied_iff (x : Clocked) (now : ℕ) (l : SaiLine) (val : Word) :
    Emptied x (.write now (saiCsr l) val) ↔
      (anyBit val csrMomentary → anyBit (x.dev.reg (saiCsr l)) csrFef → anyBit val csrFef) := by
  have hone : ∀ l', saiCsr l = saiCsr l' ↔ l = l' := by cases l <;> intro l' <;> cases l' <;> decide
  have hread : anyBit val csrMomentary →
      (fifo (lineStep x (.write now (saiCsr l) val)).dev l = [] ∧
        anyBit (mcxnSaiRead (lineStep x (.write now (saiCsr l) val)).dev (saiCsr l)).1 csrFef =
          (anyBit (x.dev.reg (saiCsr l)) csrFef && !anyBit val csrFef)) := by
    intro hreset
    obtain ⟨hempty, hreg⟩ := writeCsr_reset (s := x.dev) ⟨now, x.mclk⟩ l hreset
    simp only [lineStep, saiWrite_csr, read_csr_fef, hreg, latchedCsr_fef]
    exact ⟨hempty, trivial⟩
  simp only [Emptied, hone, forall_eq']
  refine forall_congr' fun hreset => ?_
  rw [(hread hreset).2, iff_true_intro (hread hreset).1, true_and]
  cases anyBit (x.dev.reg (saiCsr l)) csrFef <;> cases anyBit val csrFef <;> simp

lemma write_cases (clocks : SaiClocks) (off : ℕ) (val : Word) :
    (∃ l, off = saiCsr l) ∨ (¬ SaiPlain off ∧ (∀ l, off ≠ saiCsr l) ∧
      (mcxnSaiWrite s clocks off val = saiWriteTdr s val ∨ mcxnSaiWrite s clocks off val = s)) ∨
      (SaiPlain off ∧ (∀ l, off ≠ saiCsr l) ∧
      mcxnSaiWrite s clocks off val = s.setReg off val) := by
  by_cases hcsr : ∃ l, off = saiCsr l
  · exact .inl hcsr
  have hno : ∀ l, off ≠ saiCsr l := fun l hl => hcsr ⟨l, hl⟩
  have htx : off ≠ saiTcsr := hno .tx
  have hrx : off ≠ saiRcsr := hno .rx
  refine .inr ?_
  unfold mcxnSaiWrite
  by_cases hsize : saiSize ≤ off
  · exact .inl ⟨fun hplain => absurd hplain.1 (Nat.not_lt.mpr hsize), hno, .inr (if_pos hsize)⟩
  by_cases hro : SaiReadOnly off
  · exact .inl ⟨fun hplain => hplain.2.1 hro, hno, .inr (by rw [if_neg hsize, if_pos hro])⟩
  rw [if_neg hsize, if_neg hro, if_neg htx, if_neg hrx]
  by_cases htdr : off = saiTdr0 ∨ off = saiTdr0 + 4
  · rw [if_pos htdr]
    exact .inl ⟨fun hplain => htdr.elim hplain.2.2.2.2.1 hplain.2.2.2.2.2, hno, .inl rfl⟩
  rw [if_neg htdr]
  rw [not_or] at htdr
  exact .inr ⟨⟨Nat.lt_of_not_le hsize, hro, htx, hrx, htdr.1, htdr.2⟩, hno, rfl⟩

variable {x : Clocked}

section

variable (h : Published x.dev ∧ Timed x.dev x.mclk)
include h

lemma right_iff_of_write
    (now off : ℕ) (val : Word) : Right x (.write now off val) ↔ Moves x (.write now off val) := by
  obtain ⟨l, rfl⟩ | ⟨hplain, hno, hwrite⟩ | ⟨hplain, hno, hwrite⟩ :=
    write_cases x.dev ⟨now, x.mclk⟩ off val
  · have hplain : ¬ SaiPlain (saiCsr l) := by cases l <;> decide
    have hstate : Published (lineStep x (.write now (saiCsr l) val)).dev ∧
        Timed (lineStep x (.write now (saiCsr l) val)).dev
          (lineStep x (.write now (saiCsr l) val)).mclk := by
      simp only [lineStep, saiWrite_csr]
      exact ⟨updateIrq_published _, writeCsr_timed h.2 now l val⟩
    rw [Right, emptied_iff, and_iff_right hstate, Moves, and_iff_right fun hp => absurd hp hplain]
    exact ⟨fun hfef _ _ => hfef, fun hfef => hfef l rfl⟩
  · refine iff_of_true ⟨?_, fun l hl => absurd hl (hno l)⟩
      ⟨fun hp => absurd hp hplain, fun l hl => absurd hl (hno l)⟩
    obtain hwrite | hwrite := hwrite <;> simp only [lineStep, hwrite]
    · exact ⟨updateIrq_published _, writeTdr_timed h.2 val⟩
    · exact h
  have hemptied : Emptied x (.write now off val) := fun l hl => absurd hl (hno l)
  rw [Right, and_iff_left hemptied, Moves, and_iff_left fun l hl => absurd hl (hno l)]
  simp only [lineStep, hwrite, imp_iff_right hplain, Published, Timed]
  have htimer : (x.dev.setReg off val).wordTimer.isSome ↔ Running x.dev x.mclk := h.2
  have hirq : (x.dev.setReg off val).irq = x.dev.interrupts := h.1.1
  have hdma : (x.dev.setReg off val).dmaReq.level = x.dev.asks := h.1.2
  rw [hirq, hdma, htimer]
  constructor
  · rintro ⟨⟨hirq', hdma'⟩, htimer'⟩
    exact ⟨hirq'.symm, hdma'.symm, htimer'.symm⟩
  · rintro ⟨hirq', hdma', htimer'⟩
    exact ⟨⟨hirq'.symm, hdma'.symm⟩, htimer'.symm⟩

lemma right_iff (e : LineEvent) : Right x e ↔ Moves x e := by
  cases e with
  | write now off val => exact right_iff_of_write h now off val
  | read off =>
    refine iff_of_true ⟨?_, trivial⟩ trivial
    have hread : (mcxnSaiRead x.dev off).2 = x.dev ∨
        (mcxnSaiRead x.dev off).2 = (saiReadRdr x.dev).2 := by
      unfold mcxnSaiRead
      split_ifs <;> simp
    obtain hread | hread := hread <;> simp only [lineStep, hread]
    · exact h
    refine ⟨?_, readRdr_timed h.2⟩
    unfold saiReadRdr
    split <;> exact updateIrq_published _
  | tick =>
    refine iff_of_true ⟨?_, trivial⟩ trivial
    simp only [lineStep]
    split
    next hpend =>
      have hte : x.dev.te := (h.2.mp hpend).1
      refine ⟨?_, wordTick_timed hte⟩
      have hte' : SaiState.te { x.dev with wordTimer := none } = true := hte
      unfold mcxnSaiWordTick
      simp only [hte', Bool.not_true, Bool.false_eq_true, if_false]
      exact updateIrq_published _
    · exact h
  | mclk hz =>
    have htimer : Timed x.dev hz ↔ (Running x.dev hz ↔ Running x.dev x.mclk) := by
      unfold Timed
      rw [show x.dev.wordTimer.isSome = true ↔ Running x.dev x.mclk from h.2]
      exact Iff.comm
    exact ⟨fun hright => htimer.mp hright.1.2, fun hmoves => ⟨⟨h.1, htimer.mpr hmoves⟩, trivial⟩⟩

end

lemma reset_right (loopback : Bool) : Published (mcxnSaiReset (.created loopback)) ∧
    (mcxnSaiReset (.created loopback)).te = false := by
  have hlines : ∀ l, (mcxnSaiReset (.created loopback)).dmaReq.level l =
      (mcxnSaiReset (.created loopback)).asks l := by
    intro l
    cases loopback <;> cases l <;> decide
  refine ⟨⟨?_, funext hlines⟩, ?_⟩ <;> cases loopback <;> decide

/-- From reset, every event leaves the lines and the word timer right and a FIFO it resets
empty and without an error, exactly in the runs whose plain stores and clock changes move no
condition and whose FIFO resets clear the error flag themselves. -/
theorem lines_and_clock_right_iff (loopback : Bool) (mclk : Word) (events : List LineEvent) :
    Admits lineStep Right ⟨mcxnSaiReset (.created loopback), mclk⟩ events ↔
      Admits lineStep Moves ⟨mcxnSaiReset (.created loopback), mclk⟩ events := by
  refine admits_congr (I := fun x => Published x.dev ∧ Timed x.dev x.mclk)
    (fun x e h => right_iff h e) (fun x e hmoves h => ((right_iff h e).mpr hmoves).1) ?_ events
  obtain ⟨hpublished, hstopped⟩ := reset_right loopback
  refine ⟨hpublished, iff_of_false (by simp [mcxnSaiReset]) fun hruns => ?_⟩
  exact absurd (hstopped.symm.trans hruns.1) (by decide)

def afterReset (events : List LineEvent) : Clocked :=
  run lineStep ⟨mcxnSaiReset (.created true), 1000000⟩ events

/-- `TCR1` is lowered under a request, `TCR2` gets its divider after `TE`, and a FIFO is reset
after it was read empty. -/
theorem watermark_divider_and_reset_stale :
    ((afterReset [.write 0 0x0C 1, .write 0 0x20 7, .write 0 0x08 1,
        .write 0 0x0C 0]).dev.dmaReq.level .tx = true ∧
      (afterReset [.write 0 0x0C 1, .write 0 0x20 7, .write 0 0x08 1,
        .write 0 0x0C 0]).dev.asks .tx = false) ∧
      ((afterReset [.write 0 0x08 0x80000000, .write 0 0x10 0x01000000]).dev.wordTimer = none ∧
        (afterReset [.write 0 0x08 0x80000000, .write 0 0x10 0x01000000]).dev.te = true ∧
        saiWordPeriodNs (afterReset [.write 0 0x08 0x80000000, .write 0 0x10 0x01000000]).dev
          1000000 = 2000) ∧
      anyBit (mcxnSaiRead (afterReset [.read 0xA0, .write 0 0x88 0x02000000]).dev 0x88).1 csrFef =
        true := by
  decide +kernel

end Mcxn947.Sai
