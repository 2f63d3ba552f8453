import Mcxn947.DacModel
import Mcxn947.EventRuns

/-!
# The FIFO of the DAC as a bounded queue

The samples between the two pointers of the ring, read from `rptr` on, are a queue.
-/

namespace Mcxn947.Dac

open MachineWords EventRuns List Function Nat

inductive QueueEvent
  | write (offset : ℕ) (v : Word)
  | hwTrigger (level : Bool)

def queueStep (s : DacState) : QueueEvent → DacState
  | .write offset v => mcxnDacWrite s offset 4 v
  | .hwTrigger level => dacHwTrigger s level

def DacState.queue (s : DacState) : List HalfWord :=
  (List.range s.count).map fun i => s.fifo ((s.rptr + i) % dacDepth s)

structure Ring (s : DacState) : Prop where
  wptr : s.wptr < dacDepth s
  rptr : s.rptr < dacDepth s
  ends : s.wptr = (s.rptr + s.count) % dacDepth s
  count : s.count ≤ dacDepth s

/-- `FSR` describes the length of the queue. -/
def Described (s : DacState) : Prop :=
  anyBit (mcxnDacRead s dacFsr) fsrFull = decide (s.queue.length = dacDepth s) ∧
    anyBit (mcxnDacRead s dacFsr) fsrEmpty = decide (s.queue.length = 0) ∧
    anyBit (mcxnDacRead s dacFsr) fsrWm = decide (s.queue.length ≤ s.wml)

def Triggered (s : DacState) : QueueEvent → Prop
  | .write offset v => offset = dacTcr ∧ anyBit v tcrSwtrg = true
  | .hwTrigger level => level = true ∧ anyBit (s.reg dacGcr) gcrTrgsel = false

instance (s : DacState) (e : QueueEvent) : Decidable (Triggered s e) := by
  cases e <;> exact inferInstanceAs (Decidable (_ ∧ _))

def accepted (s : DacState) : QueueEvent → List HalfWord
  | .write offset v =>
    if offset = dacData ∧ s.queue.length ≠ dacDepth s then [(v &&& dacDataMask s).setWidth 16]
    else []
  | .hwTrigger _ => []

/-- The samples that leave the queue, with whether the output takes them. -/
def leaving (s : DacState) (e : QueueEvent) : List (HalfWord × Bool) :=
  if Triggered s e then s.queue.head?.toList.map (·, true)
  else match e with
    | .write offset v =>
      if offset = dacRcr ∧ anyBit v rcrFiforst = true then s.queue.map (·, false) else []
    | .hwTrigger _ => []

def On (s : DacState) : Prop :=
  anyBit (s.reg dacGcr) gcrDacen = true ∧ anyBit (s.reg dacGcr) gcrFifoen = true
deriving Decidable

def Held (s : DacState) (e : QueueEvent) : Prop := On s ∧ On (queueStep s e)
deriving Decidable

/-- What an event does to the output and the error flags. -/
structure Queued (s : DacState) (e : QueueEvent) : Prop where
  refused : ∀ v, e = .write dacData v →
    ((queueStep s e).queue = s.queue ↔ s.queue.length = dacDepth s) ∧
      (s.queue.length = dacDepth s →
        queueStep s e = dacUpdateIrq (s.setReg dacFsr (s.reg dacFsr ||| fsrOf)))
  output : (queueStep s e).out =
    (((leaving s e).filter Prod.snd).head?.map fun x => x.1.setWidth 32).getD s.out
  underflow : Triggered s e → s.queue = [] → anyBit ((queueStep s e).reg dacFsr) fsrUf = true
  ignored : ∀ level, e = .hwTrigger level → ¬ Triggered s e → queueStep s e = s

def Refines (s : DacState) (e : QueueEvent) : Prop :=
  Queued s e ∧ (leaving s e).map Prod.fst ++ (queueStep s e).queue = s.queue ++ accepted s e

variable {s : DacState} {e : QueueEvent}

lemma length_queue : s.queue.length = s.count := by simp [DacState.queue]

lemma depth_pos (s : DacState) : 0 < dacDepth s := by
  unfold dacDepth
  split <;> decide

lemma anyBit_ite (c : Prop) [Decidable c] (flag bits : Word) :
    anyBit (if c then flag else 0) bits = (decide c && anyBit flag bits) := by
  split <;> simp [*, anyBit_zero_left]

lemma Ring.described (h : Ring s) : Described s := by
  have hfull : dacDepth s ≤ s.count ↔ s.count = dacDepth s :=
    ⟨Nat.le_antisymm h.count, fun hcount => hcount.ge⟩
  have hlatch : ∀ flag, fsrW1cMask &&& flag = 0 →
      anyBit (s.reg dacFsr &&& fsrW1cMask) flag = false := by
    intro flag hflag
    simp [anyBit, BitVec.and_assoc, hflag]
  have hcross : anyBit fsrFull fsrFull ∧ anyBit fsrEmpty fsrEmpty ∧
      anyBit fsrWm fsrWm ∧ anyBit fsrEmpty fsrFull = false ∧
      anyBit fsrWm fsrFull = false ∧ anyBit fsrFull fsrEmpty = false ∧
      anyBit fsrWm fsrEmpty = false ∧ anyBit fsrFull fsrWm = false ∧
      anyBit fsrEmpty fsrWm = false := by decide
  have hread : mcxnDacRead s dacFsr = dacFsrValue s := rfl
  rw [Described, hread, length_queue]
  simp only [dacFsrValue, anyBit_or, anyBit_ite, hfull, hlatch fsrFull (by decide),
    hlatch fsrEmpty (by decide), hlatch fsrWm (by decide), hcross, Bool.and_true,
    Bool.and_false, Bool.or_false, Bool.false_or, and_self]

lemma plain_write (s : DacState) {offset : ℕ} (v : Word) (hdata : offset ≠ dacData)
    (htcr : offset ≠ dacTcr) (hrcr : offset ≠ dacRcr) :
    ∃ regs irq dmaReq, mcxnDacWrite s offset 4 v =
      { s with regs := regs, irq := irq, dmaReq := dmaReq } := by
  unfold mcxnDacWrite
  split_ifs <;> exact ⟨_, _, _, rfl⟩

lemma Ring.of_empty (hw : s.wptr = 0) (hr : s.rptr = 0) (hcount : s.count = 0) : Ring s := by
  have hpos := depth_pos s
  refine ⟨hw ▸ hpos, hr ▸ hpos, ?_, hcount ▸ hpos.le⟩
  rw [hw, hr, hcount, zero_mod]

lemma Ring.push (h : Ring s) (v : Word) : Ring (dacPush s v) := by
  unfold dacPush
  split
  · exact ⟨h.wptr, h.rptr, h.ends, h.count⟩
  split
  · exact ⟨h.wptr, h.rptr, h.ends, h.count⟩
  rename_i hroom
  refine ⟨mod_lt _ (depth_pos s), h.rptr, ?_, Nat.lt_of_not_le hroom⟩
  show (s.wptr + 1) % dacDepth s = (s.rptr + (s.count + 1)) % dacDepth s
  rw [h.ends, mod_add_mod, Nat.add_assoc]

lemma Ring.trigger (h : Ring s) : Ring (dacTrigger s) := by
  unfold dacTrigger
  split
  · exact h
  split
  · exact h
  split
  · exact ⟨h.wptr, h.rptr, h.ends, h.count⟩
  refine ⟨h.wptr, mod_lt _ (depth_pos s), ?_, (sub_le _ _).trans h.count⟩
  show s.wptr = ((s.rptr + 1) % dacDepth s + (s.count - 1)) % dacDepth s
  rw [h.ends, mod_add_mod]
  congr 1
  omega

lemma Ring.writeRcr (h : Ring s) (v : Word) : Ring (dacWriteRcr s v) := by
  unfold dacWriteRcr
  split
  · exact .of_empty rfl rfl rfl
  split
  · exact .of_empty rfl rfl rfl
  · exact ⟨h.wptr, h.rptr, h.ends, h.count⟩

lemma Ring.step (s : DacState) (e : QueueEvent) (h : Ring s) : Ring (queueStep s e) := by
  cases e with
  | write offset v =>
    show Ring (mcxnDacWrite s offset 4 v)
    by_cases hdata : offset = dacData
    · exact hdata ▸ h.push v
    by_cases htcr : offset = dacTcr
    · subst htcr
      show Ring (if anyBit v tcrSwtrg then dacTrigger s else s)
      split
      · exact h.trigger
      · exact h
    by_cases hrcr : offset = dacRcr
    · exact hrcr ▸ h.writeRcr v
    obtain ⟨regs, irq, dmaReq, hwrite⟩ := plain_write s v hdata htcr hrcr
    rw [hwrite]
    exact ⟨h.wptr, h.rptr, h.ends, h.count⟩
  | hwTrigger level =>
    show Ring (dacHwTrigger s level)
    unfold dacHwTrigger
    split_ifs
    · exact h
    · exact h
    · exact h.trigger

section

variable (h : Ring s)
include h

lemma queue_push (hroom : s.count < dacDepth s) (v : HalfWord) (w : ℕ) :
    DacState.queue { s with
      fifo := update s.fifo s.wptr v, wptr := w, count := s.count + 1 } =
      s.queue ++ [v] := by
  have hother : ∀ i ∈ List.range s.count,
      update s.fifo s.wptr v ((s.rptr + i) % dacDepth s) =
        s.fifo ((s.rptr + i) % dacDepth s) := by
    intro i hi
    have hi : i < s.count := List.mem_range.mp hi
    apply update_of_ne
    rw [h.ends]
    intro heq
    have hmod : i % dacDepth s = s.count % dacDepth s := Nat.ModEq.add_left_cancel' s.rptr heq
    rw [mod_eq_of_lt (hi.trans hroom), mod_eq_of_lt hroom] at hmod
    omega
  show (List.range (s.count + 1)).map
    (fun i => update s.fifo s.wptr v ((s.rptr + i) % dacDepth s)) = _
  rw [range_succ, map_append, map_congr_left hother, map_singleton, ← h.ends, update_self]
  rfl

lemma queue_pop (hcount : s.count ≠ 0) (out : Word) : s.queue = s.fifo s.rptr ::
      DacState.queue { s with
        out := out, rptr := (s.rptr + 1) % dacDepth s, count := s.count - 1 } := by
  obtain ⟨n, hn⟩ := exists_eq_succ_of_ne_zero hcount
  have hrest : ∀ i, s.fifo (((s.rptr + 1) % dacDepth s + i) % dacDepth s) =
      s.fifo ((s.rptr + (i + 1)) % dacDepth s) := by
    intro i
    rw [mod_add_mod]
    congr 2
    omega
  show _ = s.fifo s.rptr :: (List.range (s.count - 1)).map
    fun i => s.fifo (((s.rptr + 1) % dacDepth s + i) % dacDepth s)
  simp only [hrest, DacState.queue, hn, succ_sub_one, succ_eq_add_one,
    range_succ_eq_map, map_cons, List.map_map, Nat.add_zero, mod_eq_of_lt h.rptr]
  rfl

lemma push_on (hon : On s) (v : Word) : (s.count = dacDepth s →
      dacPush s v = dacUpdateIrq (s.setReg dacFsr (s.reg dacFsr ||| fsrOf))) ∧
    (s.count ≠ dacDepth s → (dacPush s v).queue = s.queue ++ [(v &&& dacDataMask s).setWidth 16] ∧
      (dacPush s v).out = s.out) := by
  unfold dacPush
  simp only [hon.2, Bool.not_true, Bool.false_eq_true, if_false]
  refine ⟨fun hfull => if_pos hfull.ge, fun hroom => ?_⟩
  have hroom := lt_of_le_of_ne h.count hroom
  rw [if_neg hroom.not_ge]
  exact ⟨queue_push h hroom _ ((s.wptr + 1) % dacDepth s), rfl⟩

lemma trigger_on (hon : On s) :
    (s.count = 0 → dacTrigger s = dacUpdateIrq (s.setReg dacFsr (s.reg dacFsr ||| fsrUf))) ∧
    (s.count ≠ 0 → ∃ x, s.queue = x :: (dacTrigger s).queue ∧
      (dacTrigger s).out = x.setWidth 32) := by
  unfold dacTrigger
  simp only [hon.1, hon.2, Bool.not_true, Bool.false_eq_true, if_false]
  refine ⟨fun hempty => if_pos hempty, fun hcount => ⟨s.fifo s.rptr, ?_, ?_⟩⟩
  · rw [if_neg hcount]
    exact queue_pop h hcount ((s.fifo s.rptr).setWidth 32)
  · rw [if_neg hcount]
    rfl

lemma refines_of_triggered (hon : On s) (ht : Triggered s e)
    (hstep : queueStep s e = dacTrigger s) (hdata : ∀ v, e ≠ .write dacData v)
    (haccepted : accepted s e = []) : Refines s e := by
  have hleaving : leaving s e = s.queue.head?.toList.map (·, true) := if_pos ht
  obtain ⟨hempty, hpop⟩ := trigger_on h hon
  by_cases hcount : s.count = 0
  · have hq : s.queue = [] := by simp [DacState.queue, hcount]
    have hset : ∀ t, (dacUpdateIrq (s.setReg dacFsr t)).queue = s.queue := fun _ => rfl
    refine ⟨⟨fun v hv => absurd hv (hdata v), ?_, fun _ _ => ?_,
      fun _ _ hnot => absurd ht hnot⟩, ?_⟩
    · rw [hstep, hempty hcount, hleaving, hq]
      rfl
    · rw [hstep, hempty hcount]
      show anyBit (update s.regs 6 (s.reg dacFsr ||| fsrUf) 6) fsrUf = true
      rw [update_self, anyBit_or, show anyBit fsrUf fsrUf = true from by decide, Bool.or_true]
    · rw [hstep, hempty hcount, hset, hleaving, haccepted, hq]
      rfl
  obtain ⟨x, hq, hout⟩ := hpop hcount
  refine ⟨⟨fun v hv => absurd hv (hdata v), ?_, fun _ hnil => ?_,
    fun _ _ hnot => absurd ht hnot⟩, ?_⟩
  · rw [hstep, hout, hleaving, hq]
    rfl
  · exact absurd (hq.symm.trans hnil) (cons_ne_nil _ _)
  · rw [hstep, hleaving, haccepted, hq]
    simp

end

lemma refines_of_quiet (ht : ¬ Triggered s e) (hdata : ∀ v, e ≠ .write dacData v)
    (hleaving : leaving s e = []) (haccepted : accepted s e = [])
    (hqueue : (queueStep s e).queue = s.queue) (hout : (queueStep s e).out = s.out)
    (hhw : ∀ level, e = .hwTrigger level → queueStep s e = s) : Refines s e := by
  refine ⟨⟨fun v hv => absurd hv (hdata v), ?_, fun h => absurd h ht, fun l he _ => hhw l he⟩, ?_⟩
  · rw [hout, hleaving]
    rfl
  · rw [hleaving, haccepted, hqueue, append_nil]
    rfl

lemma refines_of_data (h : Ring s) (hon : On s) (v : Word) : Refines s (.write dacData v) := by
  obtain ⟨hfull, hroom⟩ := push_on h hon v
  have hleaving : leaving s (.write dacData v) = [] := by
    simp [leaving, Triggered, dacData, dacTcr, dacRcr]
  have hstep : queueStep s (.write dacData v) = dacPush s v := rfl
  have hnot : ¬ Triggered s (.write dacData v) := fun ht => absurd ht.1 (by decide)
  have hqueue : (dacPush s v).queue = s.queue ↔ s.count = dacDepth s := by
    refine ⟨fun hsame => ?_, fun hcount => hfull hcount ▸ rfl⟩
    by_contra hcount
    have hlength := congrArg List.length ((hroom hcount).1.symm.trans hsame)
    simp at hlength
  have hout : (dacPush s v).out = s.out := by
    by_cases hcount : s.count = dacDepth s
    · rw [hfull hcount]
      rfl
    · exact (hroom hcount).2
  refine ⟨⟨fun w hw => ?_, ?_, fun ht => absurd ht hnot, nofun⟩, ?_⟩
  · obtain rfl : v = w := (QueueEvent.write.inj hw).2
    rw [hstep, length_queue]
    exact ⟨hqueue, hfull⟩
  · rw [hstep, hleaving, hout]
    rfl
  rw [hleaving, hstep, accepted, length_queue]
  by_cases hcount : s.count = dacDepth s
  · simp [hcount, hqueue.mpr hcount]
  · simp [hcount, (hroom hcount).1]

lemma refines_of_rcr {v : Word} (hon : On (queueStep s (.write dacRcr v))) :
    Refines s (.write dacRcr v) := by
  have hstep : queueStep s (.write dacRcr v) = dacWriteRcr s v := rfl
  have hnot : ¬ Triggered s (.write dacRcr v) := fun ht => absurd ht.1 (by decide)
  have hdata : ∀ w, QueueEvent.write dacRcr v ≠ .write dacData w :=
    fun w hw => absurd (QueueEvent.write.inj hw).1 (by decide)
  have hsoft : anyBit v rcrSwrst = false := by
    by_contra hsoft
    rw [Bool.not_eq_false] at hsoft
    have hoff : (dacWriteRcr s v).reg dacGcr = 0 := by
      unfold dacWriteRcr
      rw [if_pos hsoft]
      rfl
    rw [hstep, On, hoff] at hon
    exact absurd hon.1 (by decide)
  have haccepted : accepted s (.write dacRcr v) = [] := by simp [accepted, dacRcr, dacData]
  by_cases hfifo : anyBit v rcrFiforst = true
  · have hleaving : leaving s (.write dacRcr v) = s.queue.map (·, false) := by
      simp [leaving, hnot, hfifo]
    have hwrite : (dacWriteRcr s v).queue = [] ∧ (dacWriteRcr s v).out = s.out := by
      unfold dacWriteRcr
      simp only [hsoft, hfifo, Bool.false_eq_true, if_false, if_true]
      exact ⟨rfl, rfl⟩
    refine ⟨⟨fun w hw => absurd hw (hdata w), ?_, fun ht => absurd ht hnot, nofun⟩, ?_⟩
    · rw [hstep, hwrite.2, hleaving]
      simp [List.filter_map, comp_def]
    · rw [hleaving, hstep, hwrite.1, haccepted]
      simp [comp_def]
  refine refines_of_quiet hnot hdata ?_ haccepted ?_ ?_ nofun
  · simp [leaving, hnot, hfifo]
  all_goals
    rw [hstep]
    unfold dacWriteRcr
    simp only [hsoft, hfifo, Bool.false_eq_true, if_false]
    rfl

lemma refines_of_held (h : Ring s) (hheld : Held s e) : Refines s e := by
  obtain ⟨hon, hafter⟩ := hheld
  cases e with
  | write offset v =>
    by_cases hdata : offset = dacData
    · exact hdata ▸ refines_of_data h hon v
    have hnodata : ∀ w, QueueEvent.write offset v ≠ .write dacData w :=
      fun w hw => hdata (QueueEvent.write.inj hw).1
    have haccepted : accepted s (.write offset v) = [] := by simp [accepted, hdata]
    by_cases hrcr : offset = dacRcr
    · subst hrcr
      exact refines_of_rcr hafter
    by_cases ht : Triggered s (.write offset v)
    · obtain ⟨rfl, hsw⟩ := id ht
      exact refines_of_triggered h hon ht (if_pos hsw) hnodata haccepted
    have hleaving : leaving s (.write offset v) = [] := by simp [leaving, ht, hrcr]
    have hsame : (mcxnDacWrite s offset 4 v).queue = s.queue ∧
        (mcxnDacWrite s offset 4 v).out = s.out := by
      by_cases htcr : offset = dacTcr
      · subst htcr
        have hwrite : mcxnDacWrite s dacTcr 4 v = s := if_neg fun hsw => ht ⟨rfl, hsw⟩
        rw [hwrite]
        exact ⟨rfl, rfl⟩
      obtain ⟨regs, irq, dmaReq, hwrite⟩ := plain_write s v hdata htcr hrcr
      rw [hwrite]
      exact ⟨rfl, rfl⟩
    exact refines_of_quiet ht hnodata hleaving haccepted hsame.1 hsame.2 nofun
  | hwTrigger level =>
    by_cases ht : Triggered s (.hwTrigger level)
    · refine refines_of_triggered h hon ht ?_ nofun rfl
      simp [queueStep, dacHwTrigger, ht.1, ht.2]
    have hstep : queueStep s (.hwTrigger level) = s := by
      simp only [queueStep, dacHwTrigger]
      split_ifs with hlevel hsel
      · rfl
      · rfl
      · exact absurd ⟨by simpa using hlevel, by simpa using hsel⟩ ht
    exact refines_of_quiet ht nofun (if_neg ht) rfl (congrArg _ hstep) (congrArg _ hstep)
      fun _ _ => hstep

lemma account {events : List QueueEvent} (h : Ring s) (hheld : Admits queueStep Held s events) :
    (outputs queueStep leaving s events).map Prod.fst ++ (run queueStep s events).queue =
      s.queue ++ outputs queueStep accepted s events ∧ Admits queueStep Queued s events := by
  induction events generalizing s with
  | nil => simp [outputs, Admits]
  | cons e rest ih =>
    obtain ⟨hrest, hadm⟩ := ih (Ring.step s e h) hheld.2
    obtain ⟨hqueued, hmove⟩ := refines_of_held h hheld.1
    refine ⟨?_, hqueued, hadm⟩
    simp only [outputs, map_append, List.append_assoc, run_cons]
    rw [hrest, ← List.append_assoc, hmove, List.append_assoc]

/-- The ring is a bounded queue after any events; while the DAC and its FIFO stay enabled, what
leaves the queue is what entered it, in order. -/
theorem fifo_refines_queue (hpdac : Bool) (before events : List QueueEvent)
    (hheld : Admits queueStep Held (run queueStep (mcxnDacReset (.created hpdac)) before) events) :
    let s := run queueStep (mcxnDacReset (.created hpdac)) before
    Ring s ∧ Described s ∧
      (outputs queueStep leaving s events).map Prod.fst ++ (run queueStep s events).queue =
        s.queue ++ outputs queueStep accepted s events ∧
      Admits queueStep Queued s events := by
  have hring : Ring (run queueStep (mcxnDacReset (.created hpdac)) before) :=
    run_invariant Ring.step (.of_empty rfl rfl rfl) before
  exact ⟨hring, hring.described, account hring hheld⟩

theorem two_samples_queued :
    Admits queueStep Queued (run queueStep (mcxnDacReset (.created false)) [.write 0x0C 9])
      [.write 0x08 5, .write 0x08 7, .write 0x28 1, .hwTrigger true] :=
  (fifo_refines_queue false [.write 0x0C 9] _ (by decide)).2.2.2

end Mcxn947.Dac
