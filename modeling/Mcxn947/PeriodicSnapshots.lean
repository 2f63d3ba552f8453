import Mcxn947.BusAccesses
import Mcxn947.RtcModel
import Mcxn947.SaiModel
import Mcxn947.SctModel
import Mcxn947.TimedObservation

/-!
# Snapshots of the periodic devices

The RTC, the SCT and the SAI set each deadline from the last one.
-/

namespace Mcxn947.PeriodicSnapshots

open MachineWords EventRuns TimedObservation BusAccesses Rtc Sct Sai LevelLines List Function
open RtcState SaiState SctState

inductive Event where
  | read (off : ℕ) (width : Width)
  | write (w : RegWrite)
  | poll
  | clock (hz : Word)
  | input (level : Byte)
  | reset

inductive Answer where
  | value (v : Word)
  | ticked (b : Bool)
  | done
deriving DecidableEq

def Answer.fired : Answer → Bool
  | .ticked b => b
  | _ => false

def Event.Later : Event → Prop
  | .reset => False
  | _ => True

def due (deadline : Option ℕ) (t : ℕ) : Bool := deadline.any (· ≤ t)

lemma due_some (d t : ℕ) : due (some d) t = decide (d ≤ t) := rfl

def rtcStep (s : RtcState) : ℕ × Event → RtcState × Answer
  | (_, .read off width) => (s, .value (mcxnRtcRead s off width.bytes))
  | (_, .write w) => (mcxnRtcWrite s w.off w.value, .done)
  | (t, .poll) => (if due s.tick t then mcxnRtcTick s else s, .ticked (due s.tick t))
  | (_, .clock _) => (s, .done)
  | (_, .input _) => (s, .done)
  | (_, .reset) => (mcxnRtcReset s, .done)

def rtcPowerOn (now : ℕ) : RtcState := mcxnRtcReset (.realized now)

def rtcRun (s : RtcState) (history : List (ℕ × Event)) : RtcState :=
  run (fun s e => (rtcStep s e).1) s history

def rtcRestore (born : ℕ) (s : RtcState) : RtcState :=
  mcxnRtcUpdateIrq { rtcPowerOn born with regs := s.regs, tick := s.tick }

structure RtcRight (s : RtcState) : Prop where
  tick : s.tick = some s.nextTickNs
  irq : s.irq = s.interrupts

variable {s : RtcState}

lemma rtcWrite_right (h : RtcRight s) (offset : ℕ) (v : Word) :
    RtcRight (mcxnRtcWrite s offset v) := by
  unfold mcxnRtcWrite
  split
  · exact ⟨h.tick, rfl⟩
  rename_i hwide
  have hfar : rIsr / 4 ≠ offset / 4 := by
    simp only [mcxnRtcIs16bit, decide_eq_true_eq, rIsr] at hwide ⊢
    omega
  have hstore : ∀ v', RtcRight (s.setWord offset v') := by
    intro v'
    refine ⟨h.tick, ?_⟩
    simp only [RtcState.interrupts, RtcState.setWord, update_of_ne hfar]
    exact h.irq
  split
  · exact h
  split <;> exact hstore _

lemma rtcTick_right (s : RtcState) : RtcRight (mcxnRtcTick s) := ⟨rfl, rfl⟩

lemma rtcTick_nextTickNs (s : RtcState) :
    (mcxnRtcTick s).nextTickNs = s.nextTickNs + nanosecondsPerSecond := by
  have hadvance : (rtcAdvance s).nextTickNs = s.nextTickNs := rfl
  unfold mcxnRtcTick
  dsimp only [mcxnRtcUpdateIrq]
  split <;> exact congrArg (· + _) hadvance

lemma rtcReset_right (h : s.tick = some s.nextTickNs) : RtcRight (mcxnRtcReset s) := by
  have hword : (mcxnRtcReset s).regs (rIsr / 4) = 0 := rfl
  refine ⟨h, ?_⟩
  rw [RtcState.interrupts, hword]
  rfl

lemma rtcStep_right (e : ℕ × Event) (h : RtcRight s) : RtcRight (rtcStep s e).1 := by
  obtain ⟨t, e⟩ := e
  cases e with
  | read off width => exact h
  | write w => exact rtcWrite_right h w.off w.value
  | poll =>
    simp only [rtcStep]
    split
    · exact rtcTick_right s
    · exact h
  | clock hz | input level => exact h
  | reset => exact rtcReset_right h.tick

lemma rtc_periodic : Periodic rtcStep Answer.fired .poll nanosecondsPerSecond
      fun s d => s.tick = some d ∧ s.nextTickNs = d where
  fires s d t h := by simp only [rtcStep, Answer.fired, h.1, due_some]
  rearms s d t h hd := by
    simp only [rtcStep, h.1, due_some, hd, decide_true, if_true]
    have hnext := rtcTick_nextTickNs s
    rw [h.2] at hnext
    exact ⟨(rtcTick_right s).tick.trans (congrArg some hnext), hnext⟩

lemma rtc_alike_iff (h : RtcRight s) (born T : ℕ) :
    Alike rtcStep RtcState.irq Event.Later T s (rtcRestore born s) ↔
      s.nextTickNs = born + nanosecondsPerSecond := by
  constructor
  · intro halike
    -- the saved deadline fires in both; the next one is computed from the unsaved one
    have hnext := (halike.next (t := max T s.nextTickNs) (le_max_left _ _) (e := .poll) trivial).2
    have hcopy : (rtcRestore born s).tick = some s.nextTickNs := h.tick
    have hlate : due (some s.nextTickNs) (max T s.nextTickNs) := by simp [due_some]
    simp only [rtcStep, h.tick, hcopy, hlate, if_true] at hnext
    have heq := hnext.deadline_eq rtc_periodic (by decide) trivial
      ⟨(rtcTick_right s).tick, rfl⟩ ⟨(rtcTick_right _).tick, rfl⟩
    rw [rtcTick_nextTickNs, rtcTick_nextTickNs] at heq
    exact Nat.add_right_cancel heq
  intro hdue
  have hcopy : rtcRestore born s =
      { s with nextTickNs := born + nanosecondsPerSecond, irq := s.interrupts } := rfl
  rw [hcopy, ← hdue, ← h.irq]
  exact ⟨rfl, fun _ _ _ => rfl⟩

variable (s : SctState)

def sctStep : ℕ × Event → SctState × Answer
  | (_, .read off width) => (s, .value (mcxnSctRead s off width.bytes))
  | (t, .write w) => (mcxnSctWrite s t w.off w.width.bytes w.value, .done)
  | (t, .poll) =>
    (if due s.eventTimer t then mcxnSctEventTick s else s, .ticked (due s.eventTimer t))
  | (_, .clock hz) => ({ s with hz := hz }, .done)
  | (_, .input level) => (mcxnSctSetInputs s level, .done)
  | (_, .reset) => (mcxnSctReset s, .done)

def sctRun (s : SctState) (history : List (ℕ × Event)) : SctState :=
  run (fun s e => (sctStep s e).1) s history

def sctPowerOn (hz : Word) : SctState := mcxnSctReset (.realized hz)

def sctRestore : SctState :=
  mcxnSctUpdateIrq
    { sctPowerOn s.hz with
      regs := s.regs, eventTimer := s.eventTimer, inLevel := s.inLevel }

def SctTimed : Prop := ∀ d, s.eventTimer = some d → d = s.nextEventNs ∧ 0 < d

lemma SctTimed.of_eq {s t : SctState} (h : SctTimed s)
    (htimer : t.eventTimer = s.eventTimer) (hnext : t.nextEventNs = s.nextEventNs) :
    SctTimed t := by
  intro d hd
  rw [hnext]
  exact h d (htimer ▸ hd)

lemma sctRearm_timed (start : ℕ) : SctTimed (sctRearm s start) := by
  unfold sctRearm
  split
  · intro d hd
    cases hd
    exact ⟨rfl, by omega⟩
  · intro d hd
    cases hd

lemma sctStoreBytes_timer (offset size : ℕ) (v : Word) :
    (sctStoreBytes s offset size v).nextEventNs = s.nextEventNs ∧
      (sctStoreBytes s offset size v).eventTimer = s.eventTimer := by
  apply run_invariant (P := fun t : SctState =>
    t.nextEventNs = s.nextEventNs ∧ t.eventTimer = s.eventTimer) _ ⟨rfl, rfl⟩
  intro t i h
  split <;> exact h

lemma sctWrite_timed {s : SctState} (h : SctTimed s) (now offset size : ℕ)
    (v : Word) : SctTimed (mcxnSctWrite s now offset size v) := by
  unfold mcxnSctWrite
  split
  · unfold sctWriteCtrl
    extract_lets count count₁ count₂ s₁ v₁ s₂
    split
    · exact sctRearm_timed s₂ now
    · intro d hd
      cases hd
  split
  · split <;> exact h.of_eq rfl rfl
  have hbytes := sctStoreBytes_timer s offset size v
  split <;> exact h.of_eq hbytes.2 hbytes.1

lemma sctEvalInputs_timer (oldv newv : Byte) :
    (mcxnSctEvalInputs s oldv newv).nextEventNs = s.nextEventNs ∧
      (mcxnSctEvalInputs s oldv newv).eventTimer = s.eventTimer := by
  unfold mcxnSctEvalInputs
  dsimp only
  split <;> exact ⟨rfl, rfl⟩

lemma sctSetInputs_timer (level : Byte) :
    (mcxnSctSetInputs s level).nextEventNs = s.nextEventNs ∧
      (mcxnSctSetInputs s level).eventTimer = s.eventTimer := by
  unfold mcxnSctSetInputs
  rw [(sctEvalInputs_timer _ _ _).1, (sctEvalInputs_timer _ _ _).2]
  exact ⟨rfl, rfl⟩

lemma sctSetInputs_timed {s : SctState} (h : SctTimed s) (level : Byte) :
    SctTimed (mcxnSctSetInputs s level) := by
  have htimer := sctSetInputs_timer s level
  exact h.of_eq htimer.2 htimer.1

lemma sctStep_timed {s : SctState} (e : ℕ × Event) (h : SctTimed s) : SctTimed (sctStep s e).1 := by
  obtain ⟨t, e⟩ := e
  cases e with
  | read off width => exact h
  | write w => exact sctWrite_timed h t w.off w.width.bytes w.value
  | poll =>
    simp only [sctStep]
    split
    · exact sctRearm_timed _ _
    · exact h
  | clock hz => exact h
  | input level => exact sctSetInputs_timed h level
  | reset =>
    intro d hd
    cases hd

lemma sct_periodic (period : ℕ) : Periodic sctStep Answer.fired .poll period
      fun s d => s.eventTimer = some d ∧ s.nextEventNs = d ∧ s.hz ≠ 0 ∧
      mcxnSctPeriodNs s = period where
  fires s d t h := by simp only [sctStep, Answer.fired, h.1, due_some]
  rearms s d t h hd := by
    obtain ⟨htimer, hnext, hhz, hperiod⟩ := h
    simp only [sctStep, htimer, due_some, hd, decide_true, if_true]
    have harmed := eventTick_armed hhz
    rw [hnext, hperiod] at harmed
    exact ⟨harmed.1, harmed.2.1, by rwa [eventTick_hz], harmed.2.2⟩

variable {T n : ℕ} {e : Event}

lemma sct_unarmed_of_alike {s : SctState} (h : SctTimed s)
    (halike : Alike sctStep SctState.irq Event.Later T s (sctRestore s)) : s.eventTimer = none := by
  cases htimer : s.eventTimer with
  | none => rfl
  | some d =>
    exfalso
    obtain ⟨hd, hpos⟩ := h d htimer
    -- the guest gives the SCT a clock, then the saved deadline fires in both
    have hclock := (halike.next (le_refl T) (e := .clock 1000000000) trivial).2
    have hnext := (hclock.next (t := max T d) (le_max_left _ _) (e := .poll) trivial).2
    have hcopy : (sctRestore s).eventTimer = some d := htimer
    have hlate : due (some d) (max T d) := by simp [due_some]
    simp only [sctStep, htimer, hcopy, hlate, if_true] at hnext
    have hhz : (1000000000 : Word) ≠ 0 := by decide
    have ha := eventTick_armed (s := { s with hz := 1000000000 }) hhz
    have hb := eventTick_armed (s := { sctRestore s with hz := 1000000000 }) hhz
    have hperiod : mcxnSctPeriodNs { sctRestore s with hz := 1000000000 } =
        mcxnSctPeriodNs { s with hz := 1000000000 } := rfl
    rw [hperiod] at hb
    have heq := hnext.deadline_eq (sct_periodic (mcxnSctPeriodNs { s with hz := 1000000000 }))
      (periodNs_pos hhz) trivial
      ⟨ha.1, ha.2.1, by rwa [eventTick_hz], ha.2.2⟩
      ⟨hb.1, hb.2.1, by rwa [eventTick_hz], hb.2.2⟩
    have hzero : (sctRestore s).nextEventNs = 0 := rfl
    simp only [hzero] at heq
    omega

def SctSame (a b : SctState) : Prop :=
  ∃ n, b = { a with nextEventNs := n } ∧ (a.eventTimer ≠ none → n = a.nextEventNs)

lemma sctRearm_same (n start : ℕ) :
    SctSame (sctRearm s start) (sctRearm { s with nextEventNs := n } start) := by
  have hperiod : mcxnSctPeriodNs { s with nextEventNs := n } = mcxnSctPeriodNs s := rfl
  unfold sctRearm
  rw [hperiod]
  split
  · exact ⟨_, rfl, fun _ => rfl⟩
  · exact ⟨n, rfl, fun h => absurd rfl h⟩

lemma sctStoreBytes_next (n offset size : ℕ) (v : Word) :
    sctStoreBytes { s with nextEventNs := n } offset size v =
      { sctStoreBytes s offset size v with nextEventNs := n } := by
  unfold sctStoreBytes
  generalize List.range size = is
  induction is generalizing s with
  | nil => rfl
  | cons i is ih =>
    simp only [foldl_cons]
    split
    · exact ih (s.setByte (offset + i) (v.extractLsb' (8 * i) 8))
    · exact ih s

lemma sctWrite_same {s : SctState}
    (hn : s.eventTimer ≠ none → n = s.nextEventNs) (now offset size : ℕ) (v : Word) :
    SctSame (mcxnSctWrite s now offset size v)
      (mcxnSctWrite { s with nextEventNs := n } now offset size v) := by
  unfold mcxnSctWrite
  split
  · unfold sctWriteCtrl
    extract_lets count count₁ count₂ s₁ v₁ s₂ count' count₁' count₂' s₁' s₂'
    split
    · exact sctRearm_same s₂ n now
    · exact ⟨n, rfl, fun h => absurd rfl h⟩
  split
  · split <;> exact ⟨n, rfl, hn⟩
  have hbytes := sctStoreBytes_timer s offset size v
  rw [sctStoreBytes_next s n]
  have hkeep : (sctStoreBytes s offset size v).eventTimer ≠ none →
      n = (sctStoreBytes s offset size v).nextEventNs := by
    rw [hbytes.1, hbytes.2]
    exact hn
  split <;> exact ⟨n, rfl, hkeep⟩

lemma sctEvalInputs_next (n : ℕ) (oldv newv : Byte) :
    mcxnSctEvalInputs { s with nextEventNs := n } oldv newv =
      { mcxnSctEvalInputs s oldv newv with nextEventNs := n } := by
  have hfires : sctInputFires { s with nextEventNs := n } oldv newv =
      sctInputFires s oldv newv := rfl
  unfold mcxnSctEvalInputs
  rw [hfires]
  dsimp only
  split <;> rfl

lemma sctSetInputs_next (n : ℕ) (level : Byte) :
    mcxnSctSetInputs { s with nextEventNs := n } level =
      { mcxnSctSetInputs s level with nextEventNs := n } := by
  have hpins : { s with nextEventNs := n, inLevel := level }.st32 sctInput (level.setWidth 32) =
      { { s with inLevel := level }.st32 sctInput (level.setWidth 32) with
        nextEventNs := n } := rfl
  unfold mcxnSctSetInputs
  rw [hpins, sctEvalInputs_next]

lemma sctSetInputs_same {s : SctState}
    (hn : s.eventTimer ≠ none → n = s.nextEventNs) (level : Byte) :
    SctSame (mcxnSctSetInputs s level) (mcxnSctSetInputs { s with nextEventNs := n } level) := by
  refine ⟨n, sctSetInputs_next s n level, ?_⟩
  rw [(sctSetInputs_timer s level).1, (sctSetInputs_timer s level).2]
  exact hn

lemma sctStep_same {a b : SctState} (t : ℕ) (he : e.Later) (h : SctSame a b) :
    (sctStep a (t, e)).2 = (sctStep b (t, e)).2 ∧
      SctSame (sctStep a (t, e)).1 (sctStep b (t, e)).1 := by
  obtain ⟨n, rfl, hn⟩ := h
  cases e with
  | read off width => exact ⟨rfl, n, rfl, hn⟩
  | write w => exact ⟨rfl, sctWrite_same hn t w.off w.width.bytes w.value⟩
  | poll =>
    refine ⟨rfl, ?_⟩
    simp only [sctStep]
    split
    next hdue =>
      have harmed : a.eventTimer ≠ none := by
        intro hnone
        rw [hnone] at hdue
        cases hdue
      rw [hn harmed]
      exact ⟨_, rfl, fun _ => rfl⟩
    · exact ⟨n, rfl, hn⟩
  | clock hz => exact ⟨rfl, n, rfl, hn⟩
  | input level => exact ⟨rfl, sctSetInputs_same hn level⟩
  | reset => exact he.elim

lemma sct_alike_iff {s : SctState} (h : SctTimed s) (T : ℕ) :
    Alike sctStep SctState.irq Event.Later T s (sctRestore s) ↔
      s.eventTimer = none ∧ s.irq = s.interrupts := by
  constructor
  · intro halike
    exact ⟨sct_unarmed_of_alike h halike, halike.1⟩
  rintro ⟨htimer, hirq⟩
  apply alike_of_relation (R := SctSame)
  · rintro a _ ⟨n, rfl, -⟩
    rfl
  · exact fun a b t e he hab => sctStep_same t he hab
  refine ⟨0, ?_, fun harmed => absurd htimer harmed⟩
  have hcopy : sctRestore s = { s with nextEventNs := 0, irq := s.interrupts } := rfl
  rw [hcopy, ← hirq]

structure SaiNode where
  dev : SaiState
  mclk : Word

def saiStep (x : SaiNode) : ℕ × Event → SaiNode × Answer
  | (_, .read off _) =>
    ({ x with dev := (mcxnSaiRead x.dev off).2 }, .value (mcxnSaiRead x.dev off).1)
  | (t, .write w) => ({ x with dev := mcxnSaiWrite x.dev ⟨t, x.mclk⟩ w.off w.value }, .done)
  | (t, .poll) =>
    ({ x with dev := if due x.dev.wordTimer t then mcxnSaiWordTick x.dev x.mclk else x.dev },
      -- with TE clear the callback returns at once and no word moves
      .ticked (due x.dev.wordTimer t && x.dev.te))
  | (_, .clock hz) => ({ x with mclk := hz }, .done)
  | (_, .input _) => (x, .done)
  | (_, .reset) => ({ x with dev := mcxnSaiReset x.dev }, .done)

def saiRun (x : SaiNode) (history : List (ℕ × Event)) : SaiNode :=
  run (fun x e => (saiStep x e).1) x history

def saiPowerOn (loopback : Bool) (mclk : Word) : SaiNode := ⟨mcxnSaiReset (.created loopback), mclk⟩

def saiSaved (s : SaiState) : SaiState := { mcxnSaiReset (.created s.loopback) with regs := s.regs }

def saiRestore (x : SaiNode) : SaiNode := ⟨mcxnSaiUpdateIrq (saiSaved x.dev), x.mclk⟩

def SaiNode.irq (x : SaiNode) : Bool := x.dev.irq

variable {x : SaiNode}

structure SaiIdle (s : SaiState) : Prop where
  tx : s.txFifo = []
  rx : s.rxFifo = []
  timer : s.te = true → s.wordTimer = none

def SaiBounded (s : SaiState) : Prop := s.txFifo.length ≤ fifoDepth ∧ s.rxFifo.length ≤ fifoDepth

lemma saiShiftWord_bounded {s : SaiState} (h : SaiBounded s) : SaiBounded (saiShiftWord s) := by
  unfold saiShiftWord
  split
  · exact h
  rename_i word rest hfifo
  have htx : rest.length ≤ fifoDepth := by
    have hlen := h.1
    rw [hfifo, length_cons] at hlen
    omega
  dsimp only
  split
  · split
    next hroom => exact ⟨htx, by simpa using hroom⟩
    · exact ⟨htx, h.2⟩
  · exact ⟨htx, h.2⟩

lemma saiRearm_bounded {s : SaiState} (h : SaiBounded s) (mclk : Word) (start : ℕ) :
    SaiBounded (saiRearm s mclk start) := by
  unfold saiRearm
  split <;> exact h

lemma saiWordTick_bounded {s : SaiState} (h : SaiBounded s) (mclk : Word) :
    SaiBounded (mcxnSaiWordTick s mclk) := by
  unfold mcxnSaiWordTick
  dsimp only
  split
  · exact h
  · exact saiRearm_bounded (saiShiftWord_bounded (s := { s with wordTimer := none }) h) _ _

lemma saiRead_bounded {s : SaiState} (h : SaiBounded s) (off : ℕ) :
    SaiBounded (mcxnSaiRead s off).2 := by
  have hrdr : SaiBounded (saiReadRdr s).2 := by
    unfold saiReadRdr
    split
    · exact h
    rename_i word rest hfifo
    have hlen := h.2
    rw [hfifo, length_cons] at hlen
    exact ⟨h.1, by dsimp only [mcxnSaiUpdateIrq]; omega⟩
  unfold mcxnSaiRead
  repeat' split
  all_goals first | exact hrdr | exact h

lemma saiLatchCsr_bounded {s : SaiState} (h : SaiBounded s) (l : SaiLine) (val : Word) :
    SaiBounded (saiLatchCsr s l val) := by
  unfold saiLatchCsr
  split
  · cases l with
    | tx => exact ⟨Nat.zero_le _, h.2⟩
    | rx => exact ⟨h.1, Nat.zero_le _⟩
  · exact h

lemma saiWrite_bounded {s : SaiState} (h : SaiBounded s) (clocks : SaiClocks)
    (off : ℕ) (val : Word) : SaiBounded (mcxnSaiWrite s clocks off val) := by
  have htx : SaiBounded (saiWriteCsr s clocks .tx val) := by
    unfold saiWriteCsr saiGateTimer
    dsimp only
    split
    · exact saiRearm_bounded (saiLatchCsr_bounded h .tx val) _ _
    split <;> exact saiLatchCsr_bounded h .tx val
  have htdr : SaiBounded (saiWriteTdr s val) := by
    unfold saiWriteTdr
    split
    · exact h
    refine ⟨?_, h.2⟩
    simp only [mcxnSaiUpdateIrq, length_append, length_singleton]
    omega
  unfold mcxnSaiWrite
  split
  · exact h
  split
  · exact h
  split
  · exact htx
  split
  · exact saiLatchCsr_bounded h .rx val
  split
  · exact htdr
  · exact h

lemma saiStep_bounded (e : ℕ × Event) (h : SaiBounded x.dev) : SaiBounded (saiStep x e).1.dev := by
  obtain ⟨t, e⟩ := e
  cases e with
  | read off width => exact saiRead_bounded h off
  | write w => exact saiWrite_bounded h _ w.off w.value
  | poll =>
    simp only [saiStep]
    split
    · exact saiWordTick_bounded h _
    · exact h
  | clock hz | input level => exact h
  | reset => exact ⟨Nat.zero_le _, Nat.zero_le _⟩

def wordRead (off : ℕ) : Event := .read off .word

lemma length_eq_zero_of_pointer (h : n ≤ fifoDepth)
    (hread : (BitVec.ofNat 32 n &&& 0xF) <<< 16 = (BitVec.ofNat 32 0 &&& 0xF) <<< 16) : n = 0 := by
  unfold fifoDepth at h
  interval_cases n <;> simp_all +decide

lemma saiSaved_eq {s : SaiState} (htx : s.txFifo = []) (hrx : s.rxFifo = []) : saiSaved s =
      { s with wordTimer := none, nextWordNs := 0, irq := false, dmaReq := .low } := by
  rw [htx, hrx]
  rfl

lemma sai_idle_of_alike (h : SaiBounded x.dev)
    (halike : Alike saiStep SaiNode.irq Event.Later T x (saiRestore x)) :
    SaiIdle x.dev ∧ x.dev.irq = x.dev.interrupts := by
  have htfr := (halike.next (le_refl T) (e := wordRead saiTfr0) trivial).1
  have hrfr := (halike.next (le_refl T) (e := wordRead saiRfr0) trivial).1
  have htx : x.dev.txFifo = [] :=
    eq_nil_of_length_eq_zero (length_eq_zero_of_pointer h.1 (Answer.value.inj htfr))
  have hrx : x.dev.rxFifo = [] :=
    eq_nil_of_length_eq_zero (length_eq_zero_of_pointer h.2 (Answer.value.inj hrfr))
  refine ⟨⟨htx, hrx, ?_⟩, ?_⟩
  · intro hte
    cases htimer : x.dev.wordTimer with
    | none => rfl
    | some d =>
      -- the word due at `d` leaves the original only
      have hword := (halike.next (t := max T d) (le_max_left _ _) (e := .poll) trivial).1
      have hcopy : (saiRestore x).dev.wordTimer = none := rfl
      simp [saiStep, htimer, hcopy, hte, due] at hword
  have hirq : x.dev.irq = (saiSaved x.dev).interrupts := halike.1
  rw [hirq, saiSaved_eq htx hrx]
  rfl

def retimed (s : SaiState) (timer : Option ℕ) (next : ℕ) (lines : Lines SaiLine) : SaiState :=
  { s with wordTimer := timer, nextWordNs := next, dmaReq := lines }

def SameWords (s : SaiState) (timer : Option ℕ) (next : ℕ) : Prop :=
  (timer = s.wordTimer ∧ next = s.nextWordNs) ∨ (s.te = true → s.wordTimer = none ∧ timer = none)

def SaiSame (a b : SaiState) : Prop :=
  ∃ timer next lines, b = retimed a timer next lines ∧ SameWords a timer next

def Untimed (f : SaiState → SaiState) : Prop :=
  ∀ s timer next lines,
    (∃ lines', f (retimed s timer next lines) = retimed (f s) timer next lines') ∧
      (f s).wordTimer = s.wordTimer ∧ (f s).nextWordNs = s.nextWordNs ∧
      ((f s).te = true → s.te = true)

section Untimed

open SaiState

variable {f : SaiState → SaiState}

lemma SameWords.mono {s t : SaiState} {timer : Option ℕ} {next : ℕ}
    (h : SameWords s timer next) (htimer : t.wordTimer = s.wordTimer)
    (hnext : t.nextWordNs = s.nextWordNs) (hte : t.te → s.te) : SameWords t timer next := by
  unfold SameWords at h ⊢
  rw [htimer, hnext]
  exact h.imp_right fun hstopped ht => hstopped (hte ht)

lemma Untimed.same (hf : Untimed f) {a b : SaiState} (h : SaiSame a b) : SaiSame (f a) (f b) := by
  obtain ⟨timer, next, lines, rfl, hwords⟩ := h
  obtain ⟨⟨lines', heq⟩, htimer, hnext, hte⟩ := hf a timer next lines
  exact ⟨timer, next, lines', heq, hwords.mono htimer hnext hte⟩

lemma Untimed.update (hf : Untimed f) : Untimed fun s => mcxnSaiUpdateIrq (f s) := by
  intro s timer next lines
  obtain ⟨⟨lines', heq⟩, hkeep⟩ := hf s timer next lines
  refine ⟨⟨lines'.publishAll [.tx, .rx] (f s).asks, ?_⟩, hkeep⟩
  dsimp only
  rw [heq]
  rfl

lemma setReg_te {s : SaiState} {off : ℕ} (h : off / 4 ≠ saiTcsr / 4) (v : Word) :
    (s.setReg off v).te = s.te := by
  unfold te reg setReg
  dsimp only
  rw [update_of_ne (Ne.symm h)]

lemma untimed_readRdr : Untimed fun s => (saiReadRdr s).2 := by
  intro s timer next lines
  obtain ⟨loopback, regs, txFifo, rxFifo, wordTimer, nextWordNs, irq, dmaReq⟩ := s
  cases rxFifo with
  | nil =>
    refine ⟨⟨_, rfl⟩, rfl, rfl, fun hte => ?_⟩
    exact (setReg_te (by decide) _).symm.trans hte
  | cons word rest => exact ⟨⟨_, rfl⟩, rfl, rfl, fun hte => hte⟩

lemma untimed_writeTdr (val : Word) : Untimed fun s => saiWriteTdr s val := by
  apply Untimed.update (f := fun s =>
    if fifoDepth ≤ s.txFifo.length then s.setReg saiTcsr (s.reg saiTcsr ||| csrFef)
    else { s with txFifo := s.txFifo ++ [val] })
  intro s timer next lines
  by_cases hfull : fifoDepth ≤ s.txFifo.length
  · have hfull' : fifoDepth ≤ (retimed s timer next lines).txFifo.length := hfull
    simp only [if_pos hfull, if_pos hfull']
    exact ⟨⟨lines, rfl⟩, rfl, rfl, fun hte => (setReg_fef_te s).symm.trans hte⟩
  have hfull' : ¬ fifoDepth ≤ (retimed s timer next lines).txFifo.length := hfull
  simp only [if_neg hfull, if_neg hfull']
  exact ⟨⟨lines, rfl⟩, trivial, trivial, fun hte => hte⟩

lemma saiLatchCsr_retimed (s : SaiState) (timer : Option ℕ) (next : ℕ)
    (lines : Lines SaiLine) (l : SaiLine) (val : Word) :
    saiLatchCsr (retimed s timer next lines) l val =
      retimed (saiLatchCsr s l val) timer next lines := by
  unfold saiLatchCsr
  split
  · cases l <;> rfl
  · rfl

lemma saiLatchCsr_timer (s : SaiState) (l : SaiLine) (val : Word) :
    (saiLatchCsr s l val).wordTimer = s.wordTimer ∧
      (saiLatchCsr s l val).nextWordNs = s.nextWordNs := by
  unfold saiLatchCsr
  split
  · cases l <;> exact ⟨rfl, rfl⟩
  · exact ⟨rfl, rfl⟩

lemma untimed_writeRcsr (clocks : SaiClocks) (val : Word) :
    Untimed fun s => saiWriteCsr s clocks .rx val := by
  apply Untimed.update (f := fun s => saiLatchCsr s .rx val)
  intro s timer next lines
  refine ⟨⟨lines, saiLatchCsr_retimed s timer next lines .rx val⟩,
    (saiLatchCsr_timer s .rx val).1, (saiLatchCsr_timer s .rx val).2, fun hte => ?_⟩
  unfold saiLatchCsr at hte
  rw [setReg_te (by decide)] at hte
  split at hte
  · rwa [saiFifoReset, setReg_te (by decide)] at hte
  · exact hte

lemma untimed_store (w : RegWrite) (h : w.off ≠ saiTcsr) :
    Untimed fun s => s.setReg w.off w.value := by
  intro s timer next lines
  refine ⟨⟨lines, rfl⟩, rfl, rfl, fun hte => ?_⟩
  by_cases hword : w.off / 4 = saiTcsr / 4
  · have hnarrow := w.narrow (by simp only [saiTcsr] at h hword; omega)
    have hclear : anyBit w.value csrEn = false := by
      have hbit : csrEn = BitVec.twoPow 32 31 := by decide
      rw [hbit, anyBit_twoPow, BitVec.getLsbD]
      exact Nat.testBit_lt_two_pow (hnarrow.trans (by decide))
    simp [te, reg, setReg, hword, hclear] at hte
  · rwa [setReg_te hword] at hte

end Untimed

variable (s : SaiState) (timer : Option ℕ) {a b : SaiState} (mclk : Word)

lemma saiRearm_same (next : ℕ) (lines : Lines SaiLine) (mclk : Word) (start : ℕ) :
    SaiSame (saiRearm s mclk start) (saiRearm (retimed s timer next lines) mclk start) := by
  have hperiod : saiWordPeriodNs (retimed s timer next lines) mclk =
      saiWordPeriodNs s mclk := rfl
  unfold saiRearm
  rw [hperiod]
  split
  · exact ⟨_, _, lines, rfl, .inl ⟨rfl, rfl⟩⟩
  · exact ⟨none, next, lines, rfl, .inr fun _ => ⟨rfl, rfl⟩⟩

lemma saiGateTimer_same {s : SaiState} {timer : Option ℕ} {next : ℕ} {wasTe : Bool}
    (lines : Lines SaiLine) (clocks : SaiClocks) (h : s.te = wasTe → SameWords s timer next) :
    SaiSame (saiGateTimer s clocks wasTe)
      (saiGateTimer (retimed s timer next lines) clocks wasTe) := by
  have hte : (retimed s timer next lines).te = s.te := rfl
  unfold saiGateTimer
  rw [hte]
  split
  · exact saiRearm_same s timer next lines _ _
  split
  · exact ⟨none, next, lines, rfl, .inr fun _ => ⟨rfl, rfl⟩⟩
  have hsame : s.te = wasTe := by
    cases hs : s.te <;> cases hw : wasTe <;> simp_all
  exact ⟨timer, next, lines, rfl, h hsame⟩

section

variable (h : SaiSame a b)
include h

lemma saiUpdateIrq_same : SaiSame (mcxnSaiUpdateIrq a) (mcxnSaiUpdateIrq b) :=
  Untimed.same (f := mcxnSaiUpdateIrq)
    (Untimed.update (f := id) fun _ _ _ lines => ⟨⟨lines, rfl⟩, rfl, rfl, fun h => h⟩) h

lemma saiWriteTcsr_same (clocks : SaiClocks) (val : Word) :
    SaiSame (saiWriteCsr a clocks .tx val) (saiWriteCsr b clocks .tx val) := by
  obtain ⟨timer, next, lines, rfl, hwords⟩ := h
  have hte : (retimed a timer next lines).te = a.te := rfl
  have hlatch := saiLatchCsr_timer a .tx val
  apply saiUpdateIrq_same
  rw [hte, saiLatchCsr_retimed]
  apply saiGateTimer_same
  intro hsame
  exact hwords.mono hlatch.1 hlatch.2 fun ht => hsame.symm.trans ht

lemma saiRead_same (off : ℕ) : (mcxnSaiRead a off).1 = (mcxnSaiRead b off).1 ∧
      SaiSame (mcxnSaiRead a off).2 (mcxnSaiRead b off).2 := by
  by_cases hoff : off = saiRdr0 ∨ off = saiRdr0 + 4
  · have hread : ∀ s, mcxnSaiRead s off = saiReadRdr s := by
      intro s
      rcases hoff with rfl | rfl <;> rfl
    rw [hread, hread]
    refine ⟨?_, untimed_readRdr.same h⟩
    obtain ⟨timer, next, lines, rfl, -⟩ := h
    obtain ⟨loopback, regs, txFifo, rxFifo, wordTimer, nextWordNs, irq, dmaReq⟩ := a
    cases rxFifo <;> rfl
  have hkeep : ∀ s, (mcxnSaiRead s off).2 = s := by
    intro s
    unfold mcxnSaiRead
    simp only [if_neg hoff]
    repeat' split
    all_goals rfl
  rw [hkeep, hkeep]
  refine ⟨?_, h⟩
  obtain ⟨timer, next, lines, rfl, -⟩ := h
  unfold mcxnSaiRead
  simp only [if_neg hoff]
  repeat' split
  all_goals rfl

lemma saiWrite_same (clocks : SaiClocks) (w : RegWrite) :
    SaiSame (mcxnSaiWrite a clocks w.off w.value) (mcxnSaiWrite b clocks w.off w.value) := by
  unfold mcxnSaiWrite
  split
  · exact h
  split
  · exact h
  split
  · exact saiWriteTcsr_same h clocks w.value
  rename_i htcsr
  split
  · exact (untimed_writeRcsr clocks w.value).same h
  split
  · exact (untimed_writeTdr w.value).same h
  · exact (untimed_store w htcsr).same h

end

lemma saiShiftWord_retimed (next : ℕ) (lines : Lines SaiLine) :
    saiShiftWord (retimed s timer next lines) = retimed (saiShiftWord s) timer next lines := by
  obtain ⟨loopback, regs, txFifo, rxFifo, wordTimer, nextWordNs, irq, dmaReq⟩ := s
  cases txFifo with
  | nil => rfl
  | cons word rest =>
    by_cases hjumper : (loopback && anyBit (regs (saiRcsr / 4)) csrEn) = true
    · by_cases hroom : rxFifo.length < fifoDepth
      · simp [saiShiftWord, retimed, SaiState.reg, hjumper, hroom]
      · simp [saiShiftWord, retimed, SaiState.reg, SaiState.setReg, hjumper, hroom]
    · simp [saiShiftWord, retimed, SaiState.reg, hjumper]

lemma saiShiftWord_nextWordNs : (saiShiftWord s).nextWordNs = s.nextWordNs := by
  unfold saiShiftWord
  split
  · rfl
  dsimp only
  split
  · split <;> rfl
  · rfl

lemma saiWordTick_same (lines : Lines SaiLine) (mclk : Word) : SaiSame (mcxnSaiWordTick s mclk)
      (mcxnSaiWordTick (retimed s timer s.nextWordNs lines) mclk) := by
  have hexpired : { retimed s timer s.nextWordNs lines with wordTimer := none } =
      retimed { s with wordTimer := none } none s.nextWordNs lines := rfl
  have hte : (retimed { s with wordTimer := none } none s.nextWordNs lines).te =
      { s with wordTimer := none }.te := rfl
  unfold mcxnSaiWordTick
  rw [hexpired]
  dsimp only
  rw [hte]
  split
  · exact ⟨none, s.nextWordNs, lines, rfl, .inl ⟨rfl, rfl⟩⟩
  apply saiUpdateIrq_same
  have hnext : (retimed (saiShiftWord { s with wordTimer := none }) none s.nextWordNs
      lines).nextWordNs = (saiShiftWord { s with wordTimer := none }).nextWordNs :=
    (saiShiftWord_nextWordNs { s with wordTimer := none }).symm
  rw [saiShiftWord_retimed, hnext]
  exact saiRearm_same _ none s.nextWordNs lines mclk _

lemma saiWordTick_off {s : SaiState} (h : s.te = false) (mclk : Word) :
    mcxnSaiWordTick s mclk = { s with wordTimer := none } := by
  have hte : { s with wordTimer := none }.te = false := h
  unfold mcxnSaiWordTick
  simp only [hte, Bool.not_false, if_true]

lemma saiPoll_same (t : ℕ) (h : SaiSame a b) :
    (due a.wordTimer t && a.te) = (due b.wordTimer t && b.te) ∧
      SaiSame (if due a.wordTimer t then mcxnSaiWordTick a mclk else a)
      (if due b.wordTimer t then mcxnSaiWordTick b mclk else b) := by
  obtain ⟨timer, next, lines, rfl, hwords⟩ := h
  have htimer : (retimed a timer next lines).wordTimer = timer := rfl
  have hte : (retimed a timer next lines).te = a.te := rfl
  rw [htimer, hte]
  cases hon : a.te with
  | false =>
    -- both callbacks return at once
    have hoff : (retimed a timer next lines).te = false := hon
    simp only [Bool.and_false, true_and, saiWordTick_off hon, saiWordTick_off hoff]
    have hstill : ∀ w w', SaiSame { a with wordTimer := w }
        { retimed a timer next lines with wordTimer := w' } := fun w w' =>
      ⟨w', next, lines, rfl, .inr fun ht => by
        have hclear : { a with wordTimer := w }.te = false := hon
        rw [hclear] at ht
        cases ht⟩
    split <;> split
    · exact hstill none none
    · exact hstill none timer
    · exact hstill a.wordTimer none
    · exact hstill a.wordTimer timer
  | true =>
    rcases hwords with ⟨rfl, rfl⟩ | hstopped
    · refine ⟨rfl, ?_⟩
      split
      · exact saiWordTick_same a a.wordTimer lines mclk
      · exact ⟨_, _, lines, rfl, .inl ⟨rfl, rfl⟩⟩
    obtain ⟨hnone, rfl⟩ := hstopped hon
    rw [hnone]
    exact ⟨rfl, none, next, lines, rfl, .inr fun _ => ⟨hnone, rfl⟩⟩

lemma saiStep_same (t : ℕ) (he : e.Later) (h : SaiSame a b) :
    (saiStep ⟨a, mclk⟩ (t, e)).2 = (saiStep ⟨b, mclk⟩ (t, e)).2 ∧
      (saiStep ⟨a, mclk⟩ (t, e)).1.mclk = (saiStep ⟨b, mclk⟩ (t, e)).1.mclk ∧
      SaiSame (saiStep ⟨a, mclk⟩ (t, e)).1.dev (saiStep ⟨b, mclk⟩ (t, e)).1.dev := by
  cases e with
  | read off width =>
    have hread := saiRead_same h off
    exact ⟨congrArg Answer.value hread.1, rfl, hread.2⟩
  | write w => exact ⟨rfl, rfl, saiWrite_same h ⟨t, mclk⟩ w⟩
  | poll =>
    have hpoll := saiPoll_same mclk t h
    exact ⟨congrArg Answer.ticked hpoll.1, rfl, hpoll.2⟩
  | clock hz | input level => exact ⟨rfl, rfl, h⟩
  | reset => exact he.elim

lemma sai_alike_iff (h : SaiBounded x.dev) (T : ℕ) :
    Alike saiStep SaiNode.irq Event.Later T x (saiRestore x) ↔
      SaiIdle x.dev ∧ x.dev.irq = x.dev.interrupts := by
  constructor
  · exact sai_idle_of_alike h
  rintro ⟨hidle, hirq⟩
  apply alike_of_relation (R := fun x y : SaiNode => x.mclk = y.mclk ∧ SaiSame x.dev y.dev)
  · rintro ⟨a, _⟩ ⟨_, _⟩ ⟨-, timer, next, lines, rfl, -⟩
    rfl
  · rintro ⟨a, mclk⟩ ⟨b, _⟩ t e he ⟨rfl, hab⟩
    exact saiStep_same mclk t he hab
  refine ⟨rfl, none, 0, (saiRestore x).dev.dmaReq, ?_, .inr fun hte => ⟨hidle.timer hte, rfl⟩⟩
  have hcopy : (saiRestore x).dev = { x.dev with
        wordTimer := none, nextWordNs := 0, irq := x.dev.interrupts
        dmaReq := (saiRestore x).dev.dmaReq } := by
    unfold saiRestore
    rw [saiSaved_eq hidle.tx hidle.rx]
    rfl
  rw [hcopy, ← hirq]
  rfl

/-- In every reachable state, a snapshot of the RTC is transparent exactly when the
pending deadline is the one of a device realized at `born`; one of the SCT, when no
event is pending and the interrupt line is up to date; one of the SAI, when no word is
waiting or has a time and the line is up to date. -/
theorem periodic_snapshots_transparent_iff
    (start born T : ℕ) (hz mclk : Word) (loopback : Bool) (history : List (ℕ × Event)) :
    (Alike rtcStep irq Event.Later T (rtcRun (rtcPowerOn start) history)
        (rtcRestore born (rtcRun (rtcPowerOn start) history)) ↔
      (rtcRun (rtcPowerOn start) history).nextTickNs = born + nanosecondsPerSecond) ∧
    (Alike sctStep irq Event.Later T (sctRun (sctPowerOn hz) history)
        (sctRestore (sctRun (sctPowerOn hz) history)) ↔
      (sctRun (sctPowerOn hz) history).eventTimer = none ∧ (sctRun (sctPowerOn hz) history).irq =
          (sctRun (sctPowerOn hz) history).interrupts) ∧
    (Alike saiStep SaiNode.irq Event.Later T (saiRun (saiPowerOn loopback mclk) history)
        (saiRestore (saiRun (saiPowerOn loopback mclk) history)) ↔
      SaiIdle (saiRun (saiPowerOn loopback mclk) history).dev ∧
        (saiRun (saiPowerOn loopback mclk) history).dev.irq =
          (saiRun (saiPowerOn loopback mclk) history).dev.interrupts) := by
  have hrtc : RtcRight (rtcRun (rtcPowerOn start) history) :=
    run_invariant (P := RtcRight) (fun _ e h => rtcStep_right e h) (rtcReset_right rfl) history
  have hsct : SctTimed (sctRun (sctPowerOn hz) history) :=
    run_invariant (P := SctTimed) (fun _ e h => sctStep_timed e h) (fun d hd => by cases hd) history
  have hsai : SaiBounded (saiRun (saiPowerOn loopback mclk) history).dev :=
    run_invariant (P := fun x : SaiNode => SaiBounded x.dev)
      (fun _ e h => saiStep_bounded e h) ⟨Nat.zero_le _, Nat.zero_le _⟩ history
  exact ⟨rtc_alike_iff hrtc born T, sct_alike_iff hsct T, sai_alike_iff hsai T⟩

def write32 (off : ℕ) (v : Word) (h : off % 4 = 0) : Event := .write ⟨off, .word, v, h, word_fits v⟩

theorem periodic_snapshots_differ : ¬ Alike rtcStep irq Event.Later 1200000000
        (rtcRun (rtcPowerOn 0) [(1000000000, .poll)])
        (rtcRestore 0 (rtcRun (rtcPowerOn 0) [(1000000000, .poll)])) ∧
      ¬ Alike sctStep irq Event.Later 1500 (sctRun (sctPowerOn 1000000000)
          [(0, write32 0x180 999 rfl), (0, write32 0x04 0 rfl), (1000, .poll)])
        (sctRestore (sctRun (sctPowerOn 1000000000)
          [(0, write32 0x180 999 rfl), (0, write32 0x04 0 rfl), (1000, .poll)])) ∧
      ¬ Alike saiStep SaiNode.irq Event.Later 0
        (saiRun (saiPowerOn false 0) [(0, write32 0x20 7 rfl)])
        (saiRestore (saiRun (saiPowerOn false 0) [(0, write32 0x20 7 rfl)])) := by
  refine ⟨fun h => ?_, fun h => ?_, fun h => ?_⟩
  · have htwice := h.2 [(2000000000, .poll), (2000000000, .poll)]
      (.cons (by decide) (.cons (by decide) (.nil _))) (by simp [Event.Later])
    revert htwice
    decide +kernel
  · have htwice := h.2 [(2000, .poll), (2000, .poll)]
      (.cons (by decide) (.cons (by decide) (.nil _))) (by simp [Event.Later])
    revert htwice
    decide +kernel
  have hword := (h.next (le_refl 0) (e := wordRead saiTfr0) trivial).1
  revert hword
  decide +kernel

end Mcxn947.PeriodicSnapshots
