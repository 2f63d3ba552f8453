import Mcxn947.EventRuns
import Mcxn947.SaiModel

/-!
# The SAI's loopback stream

With the jumper fitted and both directions enabled, words pass from `TDR` through the two
FIFOs to `RDR`, one per word tick.
-/

namespace Mcxn947.Sai

open MachineWords EventRuns LevelLines List Function SaiState

/-- A data register is a window of two words. -/
inductive StreamEvent
  | tdr (upper : Bool) (val : Word) (clocks : SaiClocks)
  | tick (mclk : Word)
  | rdr (upper : Bool)

def port (base : ℕ) (upper : Bool) : ℕ := if upper then base + 4 else base

def streamStep (s : SaiState) : StreamEvent → SaiState
  | .tdr upper val clocks => mcxnSaiWrite s clocks (port saiTdr0 upper) val
  | .tick mclk => mcxnSaiWordTick s mclk
  | .rdr upper => (mcxnSaiRead s (port saiRdr0 upper)).2

structure Looped (s : SaiState) : Prop where
  jumper : s.loopback = true
  te : anyBit (s.reg saiTcsr) csrEn = true
  re : anyBit (s.reg saiRcsr) csrEn = true
  tx : s.txFifo.length ≤ fifoDepth
  rx : s.rxFifo.length ≤ fifoDepth

def Refused (s : SaiState) : StreamEvent → Prop
  | .tdr upper val clocks => (streamStep s (.tdr upper val clocks)).txFifo = s.txFifo
  | _ => False

instance (s : SaiState) (e : StreamEvent) : Decidable (Refused s e) :=
  match e with
  | .tdr _ _ _ => inferInstanceAs (Decidable (_ = _))
  | .tick _ => inferInstanceAs (Decidable False)
  | .rdr _ => inferInstanceAs (Decidable False)

def accepted (s : SaiState) : StreamEvent → List Word
  | .tdr upper val clocks => if Refused s (.tdr upper val clocks) then [] else [val]
  | _ => []

def returned (s : SaiState) : StreamEvent → List Word
  | .rdr upper => if s.rxFifo = [] then [] else [(mcxnSaiRead s (port saiRdr0 upper)).1]
  | _ => []

/-- The word that leaves the transmit FIFO, with whether the receive FIFO has room for it. -/
def shifted (s : SaiState) : StreamEvent → List (Word × Bool)
  | .tick _ => s.txFifo.head?.toList.map fun word => (word, decide (s.rxFifo.length ≠ fifoDepth))
  | _ => []

/-- The event sets the error flags that are due. -/
def Flags (s : SaiState) (e : StreamEvent) : Prop :=
  (Refused s e ∨ (∃ mclk, e = .tick mclk) ∧ s.txFifo = [] →
    anyBit ((streamStep s e).reg saiTcsr) csrFef = true) ∧
  ((∃ w, (w, false) ∈ shifted s e) ∨ (∃ upper, e = .rdr upper) ∧ s.rxFifo = [] →
    anyBit ((streamStep s e).reg saiRcsr) csrFef = true)

variable {s : SaiState}

lemma write_tdr (s : SaiState) (clocks : SaiClocks) (upper : Bool) (val : Word) :
    mcxnSaiWrite s clocks (port saiTdr0 upper) val = saiWriteTdr s val := by
  cases upper <;> rfl

lemma read_rdr (s : SaiState) (upper : Bool) :
    mcxnSaiRead s (port saiRdr0 upper) = saiReadRdr s := by
  cases upper <;> rfl

def streamView (s : SaiState) : Bool × List Word × List Word × Word × Word :=
  (s.loopback, s.txFifo, s.rxFifo, s.reg saiTcsr, s.reg saiRcsr)

lemma streamView_tdr (s : SaiState) (val : Word) : streamView (saiWriteTdr s val) =
      if fifoDepth ≤ s.txFifo.length then
      (s.loopback, s.txFifo, s.rxFifo, s.reg saiTcsr ||| csrFef, s.reg saiRcsr)
      else (s.loopback, s.txFifo ++ [val], s.rxFifo, s.reg saiTcsr, s.reg saiRcsr) := by
  unfold saiWriteTdr
  split <;> rfl

lemma streamView_rdr (s : SaiState) : streamView (saiReadRdr s).2 = match s.rxFifo with
      | [] => (s.loopback, s.txFifo, [], s.reg saiTcsr, s.reg saiRcsr ||| csrFef)
      | _ :: rest => (s.loopback, s.txFifo, rest, s.reg saiTcsr, s.reg saiRcsr) := by
  unfold saiReadRdr
  cases hrx : s.rxFifo with
  | nil => simp only [streamView, mcxnSaiUpdateIrq, setReg, hrx]; rfl
  | cons word rest => rfl

lemma streamView_tick (h : Looped s) (mclk : Word) : streamView (mcxnSaiWordTick s mclk) =
      match s.txFifo with
      | [] => (s.loopback, [], s.rxFifo, s.reg saiTcsr ||| csrFef, s.reg saiRcsr) | word :: rest =>
        if s.rxFifo.length < fifoDepth then
          (s.loopback, rest, s.rxFifo ++ [word], s.reg saiTcsr, s.reg saiRcsr)
        else (s.loopback, rest, s.rxFifo, s.reg saiTcsr, s.reg saiRcsr ||| csrFef) := by
  have hte : te { s with wordTimer := none } := h.te
  have hrearm : ∀ (t : SaiState) (start : ℕ),
      streamView (mcxnSaiUpdateIrq (saiRearm t mclk start)) = streamView t := by
    intro t start
    unfold saiRearm
    split <;> rfl
  unfold mcxnSaiWordTick
  simp only [hte, Bool.not_true, Bool.false_eq_true, if_false, hrearm]
  cases htx : s.txFifo with
  | nil => simp only [streamView]; rfl
  | cons word rest =>
    have hboth : (s.loopback && anyBit (s.reg saiRcsr) csrEn) := by
      rw [h.jumper, h.re, Bool.and_self]
    refine (congrArg streamView (if_pos hboth)).trans ?_
    split <;> rfl

lemma anyBit_or_of_left {v mask other : Word} (h : anyBit v mask) :
    anyBit (v ||| other) mask = true := by
  rw [anyBit_or, h, Bool.true_or]

lemma anyBit_fef (v : Word) : anyBit (v ||| csrFef) csrFef := by
  rw [anyBit_or, show anyBit csrFef csrFef = true by decide, Bool.or_true]

/-- What one event does to the words and the flags. -/
structure Accounted (s : SaiState) (e : StreamEvent) : Prop where
  looped : Looped (streamStep s e)
  sent : s.txFifo ++ accepted s e = (shifted s e).map (·.1) ++ (streamStep s e).txFifo
  received : s.rxFifo ++ ((shifted s e).filter (·.2)).map (·.1) =
    returned s e ++ (streamStep s e).rxFifo
  refused : Refused s e ↔ (∃ upper val clocks, e = .tdr upper val clocks) ∧
    s.txFifo.length = fifoDepth
  flags : Flags s e

section

variable (h : Looped s)
include h

lemma Looped.tdr (upper : Bool) (val : Word) (clocks : SaiClocks) :
    Accounted s (.tdr upper val clocks) := by
  have hview := streamView_tdr s val
  rw [← write_tdr s clocks upper] at hview
  have htx := h.tx
  by_cases hfull : fifoDepth ≤ s.txFifo.length
  · rw [if_pos hfull] at hview
    simp only [streamView, Prod.mk.injEq] at hview
    obtain ⟨hjumper, hsent, hrx, htcsr, hrcsr⟩ := hview
    have hrefused : Refused s (.tdr upper val clocks) := hsent
    refine ⟨⟨hjumper.trans h.jumper, ?_, ?_, ?_, ?_⟩, ?_, ?_, ?_, fun _ => ?_, ?_⟩
    · show anyBit ((mcxnSaiWrite s clocks _ val).reg saiTcsr) csrEn = true
      rw [htcsr]
      exact anyBit_or_of_left h.te
    · exact hrcsr ▸ h.re
    · exact hsent ▸ h.tx
    · exact hrx ▸ h.rx
    · simp only [accepted, if_pos hrefused, shifted, append_nil, map_nil, nil_append, streamStep]
      exact hsent.symm
    · simp only [shifted, returned, filter_nil, map_nil, append_nil, nil_append, streamStep]
      exact hrx.symm
    · exact iff_of_true hrefused ⟨⟨_, _, _, rfl⟩, le_antisymm htx hfull⟩
    · show anyBit ((mcxnSaiWrite s clocks _ val).reg saiTcsr) csrFef = true
      rw [htcsr]
      exact anyBit_fef _
    · simp [shifted]
  rw [if_neg hfull] at hview
  simp only [streamView, Prod.mk.injEq] at hview
  obtain ⟨hjumper, hsent, hrx, htcsr, hrcsr⟩ := hview
  have hrefused : ¬ Refused s (.tdr upper val clocks) := by
    intro hsame
    have hlen := congrArg List.length (hsent.symm.trans hsame)
    simp at hlen
  refine ⟨⟨hjumper.trans h.jumper, htcsr ▸ h.te, hrcsr ▸ h.re, ?_, hrx ▸ h.rx⟩, ?_, ?_, ?_, ?_, ?_⟩
  · show (mcxnSaiWrite s clocks _ val).txFifo.length ≤ fifoDepth
    rw [hsent, length_append, length_singleton]
    omega
  · simp only [accepted, if_neg hrefused, shifted, map_nil, nil_append, streamStep]
    exact hsent.symm
  · simp only [shifted, returned, filter_nil, map_nil, append_nil, nil_append, streamStep]
    exact hrx.symm
  · exact iff_of_false hrefused fun hboth => hfull hboth.2.ge
  · simp [hrefused]
  · simp [shifted]

lemma Looped.rdr (upper : Bool) : Accounted s (.rdr upper) := by
  have hview := streamView_rdr s
  have hread : (mcxnSaiRead s (port saiRdr0 upper)).1 = (saiReadRdr s).1 :=
    congrArg Prod.fst (read_rdr s upper)
  rw [← read_rdr s upper] at hview
  cases hrx : s.rxFifo with
  | nil =>
    simp only [hrx, streamView, Prod.mk.injEq] at hview
    obtain ⟨hjumper, htx, hempty, htcsr, hrcsr⟩ := hview
    refine ⟨⟨hjumper.trans h.jumper, htcsr ▸ h.te, ?_, htx ▸ h.tx, ?_⟩, ?_, ?_, ?_, ?_, fun _ => ?_⟩
    · show anyBit ((mcxnSaiRead s _).2.reg saiRcsr) csrEn = true
      rw [hrcsr]
      exact anyBit_or_of_left h.re
    · simp [streamStep, hempty]
    · simp [accepted, shifted, streamStep, htx]
    · simp [returned, shifted, streamStep, hrx, hempty]
    · simp [Refused]
    · simp [Refused]
    show anyBit ((mcxnSaiRead s _).2.reg saiRcsr) csrFef = true
    rw [hrcsr]
    exact anyBit_fef _
  | cons word rest =>
    have hword : (saiReadRdr s).1 = word := by rw [saiReadRdr, hrx]
    simp only [hrx, streamView, Prod.mk.injEq] at hview
    obtain ⟨hjumper, htx, hrest, htcsr, hrcsr⟩ := hview
    have hlen := h.rx
    rw [hrx, length_cons] at hlen
    refine ⟨⟨hjumper.trans h.jumper, htcsr ▸ h.te, hrcsr ▸ h.re, htx ▸ h.tx, ?_⟩,
      ?_, ?_, ?_, ?_, ?_⟩
    · simp only [streamStep, hrest]
      omega
    · simp [accepted, shifted, streamStep, htx]
    · simp [returned, shifted, streamStep, hrx, hrest, hread, hword]
    · simp [Refused]
    · simp [Refused]
    · simp [shifted, hrx]

lemma Looped.tick (mclk : Word) : Accounted s (.tick mclk) := by
  have hview := streamView_tick h mclk
  have hlen := h.tx
  have hrx := h.rx
  cases htx : s.txFifo with
  | nil =>
    simp only [htx, streamView, Prod.mk.injEq] at hview
    obtain ⟨hjumper, hempty, hkept, htcsr, hrcsr⟩ := hview
    refine ⟨⟨hjumper.trans h.jumper, ?_, hrcsr ▸ h.re, ?_, hkept ▸ h.rx⟩,
      ?_, ?_, ?_, fun _ => ?_, ?_⟩
    · show anyBit ((mcxnSaiWordTick s mclk).reg saiTcsr) csrEn = true
      rw [htcsr]
      exact anyBit_or_of_left h.te
    · simp [streamStep, hempty]
    · simp [accepted, shifted, streamStep, htx, hempty]
    · simp [returned, shifted, streamStep, htx, hkept]
    · simp [Refused]
    · show anyBit ((mcxnSaiWordTick s mclk).reg saiTcsr) csrFef = true
      rw [htcsr]
      exact anyBit_fef _
    · simp [shifted, htx]
  | cons word rest =>
    rw [htx, length_cons] at hlen
    by_cases hroom : s.rxFifo.length < fifoDepth
    · simp only [htx, if_pos hroom, streamView, Prod.mk.injEq] at hview
      obtain ⟨hjumper, hrest, hkept, htcsr, hrcsr⟩ := hview
      refine ⟨⟨hjumper.trans h.jumper, htcsr ▸ h.te, hrcsr ▸ h.re, ?_, ?_⟩, ?_, ?_, ?_, ?_, ?_⟩
      · simp only [streamStep, hrest]
        omega
      · simp only [streamStep, hkept, length_append, length_singleton]
        omega
      · simp [accepted, shifted, streamStep, htx, hrest]
      · simp [returned, shifted, streamStep, htx, hkept, hroom.ne]
      · simp [Refused]
      · simp [Refused, htx]
      · simp [shifted, htx, hroom.ne]
    simp only [htx, if_neg hroom, streamView, Prod.mk.injEq] at hview
    obtain ⟨hjumper, hrest, hkept, htcsr, hrcsr⟩ := hview
    have hfull : s.rxFifo.length = fifoDepth := by omega
    refine ⟨⟨hjumper.trans h.jumper, htcsr ▸ h.te, ?_, ?_, hkept ▸ h.rx⟩,
      ?_, ?_, ?_, ?_, fun _ => ?_⟩
    · show anyBit ((mcxnSaiWordTick s mclk).reg saiRcsr) csrEn = true
      rw [hrcsr]
      exact anyBit_or_of_left h.re
    · simp only [streamStep, hrest]
      omega
    · simp [accepted, shifted, streamStep, htx, hrest]
    · simp [returned, shifted, streamStep, htx, hkept, hfull]
    · simp [Refused]
    · simp [Refused, htx]
    show anyBit ((mcxnSaiWordTick s mclk).reg saiRcsr) csrFef = true
    rw [hrcsr]
    exact anyBit_fef _

lemma Looped.accounted (e : StreamEvent) : Accounted s e := by
  cases e with
  | tdr upper val clocks => exact h.tdr upper val clocks
  | tick mclk => exact h.tick mclk
  | rdr upper => exact h.rdr upper

lemma Looped.run (events : List StreamEvent) : Looped (run streamStep s events) ∧
      s.txFifo ++ outputs streamStep accepted s events =
      (outputs streamStep shifted s events).map (·.1) ++ (run streamStep s events).txFifo ∧
      s.rxFifo ++ ((outputs streamStep shifted s events).filter (·.2)).map (·.1) =
      outputs streamStep returned s events ++ (run streamStep s events).rxFifo := by
  induction events generalizing s with
  | nil => simpa [outputs, EventRuns.run] using h
  | cons e rest ih =>
    obtain ⟨hlooped, hsent, hreceived, -, -⟩ := h.accounted e
    obtain ⟨hlast, hsent', hreceived'⟩ := ih hlooped
    refine ⟨hlast, ?_, ?_⟩
    · rw [outputs, outputs, ← append_assoc, hsent, append_assoc, hsent', map_append,
        append_assoc, run_cons]
    · rw [outputs, outputs, filter_append, map_append, ← append_assoc, hreceived,
        append_assoc, hreceived', append_assoc, run_cons]

end

/-- Every word in order: those in the receive FIFO, those the transmitter sent, each with
whether there was room for it, and those still waiting. -/
def stream (s : SaiState) (events : List StreamEvent) : List (Word × Bool) :=
  s.rxFifo.map (·, true) ++ outputs streamStep shifted s events ++
    (run streamStep s events).txFifo.map (·, true)

lemma count_masked {n : ℕ} (h : n ≤ fifoDepth) :
    (BitVec.ofNat 32 n &&& 0xF) <<< 16 = (BitVec.ofNat 32 n <<< 16 : Word) := by
  revert h
  revert n
  decide

/-- The words returned, those in the receive FIFO and those in the transmit FIFO are the
words of the stream that found room; the words of the stream are the initial ones and the
accepted ones; and in every state the counts, the refusals and the error flags are right. -/
theorem loopback_stream (s : SaiState) (h : Looped s) (events : List StreamEvent) :
    (stream s events).map (·.1) = s.rxFifo ++ s.txFifo ++ outputs streamStep accepted s events ∧
      ((stream s events).filter (·.2)).map (·.1) = outputs streamStep returned s events ++
        (run streamStep s events).rxFifo ++ (run streamStep s events).txFifo ∧
      (run streamStep s events).txFifo.length ≤ fifoDepth ∧
      (run streamStep s events).rxFifo.length ≤ fifoDepth ∧
      (∀ upper, (mcxnSaiRead (run streamStep s events) (port saiTfr0 upper)).1 =
        BitVec.ofNat 32 (run streamStep s events).txFifo.length <<< 16) ∧
      (∀ upper, (mcxnSaiRead (run streamStep s events) (port saiRfr0 upper)).1 =
        BitVec.ofNat 32 (run streamStep s events).rxFifo.length <<< 16) ∧
      ∀ e, (Refused (run streamStep s events) e ↔ (∃ upper val clocks, e = .tdr upper val clocks) ∧
        (run streamStep s events).txFifo.length = fifoDepth) ∧
        Flags (run streamStep s events) e := by
  obtain ⟨hlooped, hsent, hreceived⟩ := h.run events
  have hall : ∀ words : List Word, ((words.map (·, true)).filter (·.2)).map (·.1) = words := by
    intro words
    simp [filter_map, comp_def]
  have hfst : ∀ words : List Word, (words.map (·, true)).map (·.1) = words := by
    intro words
    simp [comp_def]
  refine ⟨?_, ?_, hlooped.tx, hlooped.rx, ?_, ?_, fun e => ?_⟩
  · rw [stream, map_append, map_append, hfst, hfst, append_assoc, ← hsent, append_assoc]
  · rw [stream, filter_append, filter_append, map_append, map_append, hall, hall, hreceived]
  · intro upper
    rw [← count_masked hlooped.tx]
    cases upper <;> rfl
  · intro upper
    rw [← count_masked hlooped.rx]
    cases upper <;> rfl
  · exact ⟨(hlooped.accounted e).refused, (hlooped.accounted e).flags⟩

def bothEnabled : SaiState := ((created true).setReg saiTcsr csrEn).setReg saiRcsr csrEn

def nineWords : List StreamEvent :=
  (range 9).flatMap (fun k => [.tdr false (BitVec.ofNat 32 k) ⟨0, 0⟩, .tick 0]) ++
    [.rdr false, .rdr false]

/-- Nine words are shifted and two read; the ninth finds the receive FIFO full. -/
theorem loopback_stream_nine_words :
    (stream bothEnabled nineWords).map (·.1) = [0, 1, 2, 3, 4, 5, 6, 7, 8] ∧
    outputs streamStep returned bothEnabled nineWords ++
        (run streamStep bothEnabled nineWords).rxFifo ++
        (run streamStep bothEnabled nineWords).txFifo = [0, 1, 2, 3, 4, 5, 6, 7] := by
  have hlooped : Looped bothEnabled := ⟨rfl, by decide, by decide, by decide, by decide⟩
  obtain ⟨hsent, hkept, -⟩ := loopback_stream bothEnabled hlooped nineWords
  exact ⟨hsent.trans (by decide +kernel), hkept.symm.trans (by decide +kernel)⟩

end Mcxn947.Sai
