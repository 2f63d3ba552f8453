import Mcxn947.EdmaLinks

/-!
# Scatter/gather completion

With `TCD_CSR[ESG]` the end of a major loop loads the next descriptor from memory.
-/

namespace Mcxn947.Edma

open MachineWords Bool Chan Engine

variable {μ : Type} {bus : Bus μ} {x : Engine μ} {n : ChanIdx}

def Engine.atLoad (bus : Bus μ) (x : Engine μ) (n : ChanIdx) : Engine μ :=
  ((edmaMinorBody bus x n).modifyCh n adjusted).followLink
    (edmaLinkChannel bus 1) (x.st.ch n).raisedLink

def Engine.selfLinked (x : Engine μ) (n : ChanIdx) : Bool :=
  decide ((x.st.ch n).raisedLink = some n.val) && !x.st.inLink

def Engine.Restarts (x : Engine μ) (n : ChanIdx) : Prop :=
  x.selfLinked n = true ∧ (x.st.ch n).moved.adjusted.Accepted

def Chan.PointsTo (c : Chan) (readable : Bool) : Prop :=
  c.tcdDlast ≠ 0 ∧ anyBit c.tcdDlast 0x1F = false ∧ readable = true

structure Loaded (c : Chan) (image : Vector Byte 32) (c' : Chan) : Prop where
  tcd : c' = c'.withTcd image
  intr : anyBit c'.intr chIntInt = (anyBit c.intr chIntInt || anyBit c.tcdCsr tcdCsrIntmajor)
  erq : anyBit c'.csr chCsrErq = (anyBit c.csr chCsrErq && !anyBit c.tcdCsr tcdCsrDreq)

structure LoadFailed (c c' : Chan) : Prop where
  sge : anyBit c'.es chEsSge = true
  err : anyBit c'.es chEsErr = true
  tcd : c' = { c.moved.adjusted with
    csr := c'.csr, es := c'.es, intr := c'.intr, tcdCsr := c'.tcdCsr }
  tcdCsr : SameButStart c'.tcdCsr c.tcdCsr
  intr : anyBit c'.intr chIntInt =
    (anyBit c.intr chIntInt || anyBit c.tcdCsr tcdCsrIntmajor || anyBit c.csr chCsrEei)

/-- The last minor loop of channel `n` at `x` ends, in `z`, as its descriptor
asks: it is the only minor loop of the channel, and the load is accounted to
the completed descriptor. -/
structure CompletesOwn (x : Engine μ) (n : ChanIdx) (image : Vector Byte 32)
    (readable : Bool) (z : Engine μ) : Prop where
  once : (minorLoops z.trace).count n = (minorLoops x.trace).count n + 1
  loaded : (x.st.ch n).PointsTo readable → Loaded (x.st.ch n) image (z.st.ch n)
  failed : ¬ (x.st.ch n).PointsTo readable → LoadFailed (x.st.ch n) (z.st.ch n)

structure FlagsAgree (x : Engine μ) (n : ChanIdx) (image : Vector Byte 32) : Prop where
  intr : anyBit (x.st.ch n).intr chIntInt = true ∨
    (anyBit (lduwLeP image 0x1C) tcdCsrIntmajor ||
      (x.selfLinked n && anyBit (x.st.ch n).csr chCsrEei)) =
      anyBit (x.st.ch n).tcdCsr tcdCsrIntmajor
  erq : anyBit (x.st.ch n).csr chCsrErq = false ∨
    anyBit (lduwLeP image 0x1C) tcdCsrDreq = anyBit (x.st.ch n).tcdCsr tcdCsrDreq

def ErrorSeen (x : Engine μ) (n : ChanIdx) : Prop :=
  anyBit (x.st.ch n).csr chCsrEei = true → anyBit (x.st.ch n).intr chIntInt = true ∨
    anyBit (x.st.ch n).tcdCsr tcdCsrIntmajor = true ∨ x.selfLinked n = true

structure AwaitsLoad (c : Chan) (extra : Bool) (c' : Chan) : Prop where
  kept : c' = { c.moved.adjusted with
    csr := c'.csr, es := c'.es, intr := c'.intr, tcdCsr := c'.tcdCsr }
  tcdCsr : SameButStart c'.tcdCsr c.tcdCsr
  csr : c'.csr &&& ~~~chCsrDone = c.csr &&& ~~~chCsrDone
  intr : anyBit c'.intr chIntInt = (anyBit c.intr chIntInt || extra)

lemma AwaitsLoad.self (c : Chan) : AwaitsLoad c false c.moved.adjusted :=
  ⟨rfl, rfl, rfl, by simp [adjusted, moved]⟩

lemma AwaitsLoad.refused {c c' : Chan} (h : ChanRefused c.moved.adjusted c') :
    AwaitsLoad c (anyBit c.csr chCsrEei) c' := by
  refine ⟨h.kept, h.tcdCsr, ?_, ?_⟩
  · rw [h.done, BitVec.and_assoc, BitVec.and_self]
    rfl
  · rw [h.intr]
    exact anyBit_intr_raised _ _

section AtLoad

variable (hquiet : bus.Quiet) (haccepted : (x.st.ch n).Accepted)
include hquiet haccepted

lemma adjusted_facts : ((edmaMinorBody bus x n).modifyCh n adjusted).st.ch n =
      (x.st.ch n).moved.adjusted ∧
      ((edmaMinorBody bus x n).modifyCh n adjusted).st.inLink = x.st.inLink ∧
      minorLoops ((edmaMinorBody bus x n).modifyCh n adjusted).trace =
      minorLoops x.trace ++ [n] := by
  refine ⟨?_, minorBody_inLink hquiet, minorBody_minorLoops hquiet⟩
  rw [modifyCh_ch_self, minorBody_ch hquiet.toPlain haccepted]

lemma atLoad_restarts (h : x.Restarts n) :
    minorLoops (x.atLoad bus n).trace = minorLoops x.trace ++ [n, n] := by
  obtain ⟨hself, hagain⟩ := h
  obtain ⟨hch, hin, hminor⟩ := adjusted_facts hquiet haccepted
  rw [selfLinked, and_eq_true, decide_eq_true_eq, not_eq_true'] at hself
  rw [atLoad, hself.1, followLink,
    linkChannel_minorLoops hquiet (hin.trans hself.2) (by rw [hch]; exact hagain), hminor]
  simp

lemma atLoad_other (hself : x.selfLinked n = false) :
    (minorLoops (x.atLoad bus n).trace).count n = (minorLoops x.trace).count n + 1 ∧
      AwaitsLoad (x.st.ch n) false ((x.atLoad bus n).st.ch n) := by
  obtain ⟨hch, hin, hminor⟩ := adjusted_facts hquiet haccepted
  have hcount : (minorLoops ((edmaMinorBody bus x n).modifyCh n
      adjusted).trace).count n = (minorLoops x.trace).count n + 1 := by
    rw [hminor]
    simp
  have hstill := AwaitsLoad.self (x.st.ch n)
  rw [← hch] at hstill
  unfold atLoad
  cases hraised : (x.st.ch n).raisedLink with
  | none => exact ⟨hcount, hstill⟩
  | some l =>
    rw [followLink]
    cases hlink : x.st.inLink with
    | true =>
      rw [linkChannel_blocked (hin.trans hlink)]
      exact ⟨hcount, hstill⟩
    | false =>
      have hne : l ≠ n.val := by
        rintro rfl
        simp [selfLinked, hraised, hlink] at hself
      have hl := raisedLink_lt hraised
      have hln : (⟨l, hl⟩ : ChanIdx) ≠ n := fun h => hne (congrArg Fin.val h)
      rw [linkChannel_keeps hquiet.toPlain le_rfl _ hne]
      refine ⟨?_, hstill⟩
      by_cases hvalid : (((edmaMinorBody bus x n).modifyCh n adjusted).st.ch ⟨l, hl⟩).Accepted
      · have hrun := linkChannel_minorLoops hquiet (n := ⟨l, hl⟩) (hin.trans hlink) hvalid
        rw [hrun, List.count_append, hcount]
        simp [hln]
      · have hrun := linkChannel_minorLoops_refused bus (n := ⟨l, hl⟩) hvalid
        rw [hrun, hcount]

lemma atLoad_refused (hself : x.selfLinked n) (hrefused : ¬ (x.st.ch n).moved.adjusted.Accepted) :
    (minorLoops (x.atLoad bus n).trace).count n = (minorLoops x.trace).count n + 1 ∧
      AwaitsLoad (x.st.ch n) (anyBit (x.st.ch n).csr chCsrEei) ((x.atLoad bus n).st.ch n) := by
  obtain ⟨hch, hin, hminor⟩ := adjusted_facts hquiet haccepted
  rw [selfLinked, and_eq_true, decide_eq_true_eq, not_eq_true'] at hself
  have hrefused' : ¬ (((edmaMinorBody bus x n).modifyCh n adjusted).st.ch n).Accepted := by
    rw [hch]
    exact hrefused
  have hrun := linkChannel_minorLoops_refused bus hrefused'
  obtain ⟨x', link, hprepared⟩ := (Service.link (hin.trans hself.2) :
    Service bus _ n _ [] _).prepared
  have hchan := (hprepared.refused (exists_violated hrefused')).chan
  rw [hch] at hchan
  unfold atLoad
  rw [hself.1, followLink]
  refine ⟨?_, AwaitsLoad.refused hchan⟩
  rw [hrun, hminor]
  simp

lemma atLoad_awaits (h : ¬ x.Restarts n) : (minorLoops (x.atLoad bus n).trace).count n =
      (minorLoops x.trace).count n + 1 ∧
      AwaitsLoad (x.st.ch n) (x.selfLinked n && anyBit (x.st.ch n).csr chCsrEei)
      ((x.atLoad bus n).st.ch n) := by
  cases hself : x.selfLinked n with
  | false => exact atLoad_other hquiet haccepted hself
  | true => exact atLoad_refused hquiet haccepted hself fun hagain => h ⟨hself, hagain⟩

end AtLoad

lemma loadNextTcd_ch (hquiet : bus.Quiet) {y : Engine μ}
    {image : Vector Byte 32} {readable : Bool}
    (hread : (bus.read y (y.st.ch n).tcdDlast 32).2 = (image, readable)) :
    ((y.st.ch n).PointsTo readable →
      (edmaLoadNextTcd bus y n).1.st.ch n = (y.st.ch n).withTcd image) ∧
    (¬ (y.st.ch n).PointsTo readable → (edmaLoadNextTcd bus y n).1.st.ch n =
        { y.st.ch n with es := (y.st.ch n).es ||| (chEsSge ||| chEsErr) }) := by
  have hch : (addressSpaceRead bus y (y.st.ch n).tcdDlast 32).1.st.ch n =
      y.st.ch n :=
    congrFun (addressSpaceRead_sameService hquiet y _ 32).ch n
  have hreply : (addressSpaceRead bus y (y.st.ch n).tcdDlast 32).2 = (image, readable) := hread
  unfold edmaLoadNextTcd
  dsimp only
  rw [hreply]
  split
  next hbad =>
    refine ⟨fun hgood => ?_, fun _ => modifyCh_ch_self _ _ _⟩
    rcases hbad with hzero | hmisaligned
    · exact absurd hzero hgood.1
    · rw [hgood.2.1] at hmisaligned
      cases hmisaligned
  rename_i hok
  push Not at hok
  have halign := eq_false_of_not_eq_true hok.2
  split
  next hreadable =>
    refine ⟨fun _ => ?_, fun hnot => absurd ⟨hok.1, halign, hreadable⟩ hnot⟩
    rw [modifyCh_ch_self, hch]
  rename_i hunreadable
  refine ⟨fun hgood => absurd hgood.2.2 hunreadable, fun _ => ?_⟩
  rw [modifyCh_ch_self, hch]

private lemma raised_iff (pending extra own asked : Bool) :
    (pending || extra || own) = (pending || asked) ↔ pending ∨ (own || extra) = asked := by
  cases pending <;> cases extra <;> cases own <;> cases asked <;> decide

private lemma cleared_iff (on own asked : Bool) :
    (on && !own) = (on && !asked) ↔ on = false ∨ own = asked := by
  cases on <;> cases own <;> cases asked <;> decide

private lemma error_raised_iff (pending self eei own : Bool) :
    (pending || self && eei || own) = (pending || own || eei) ↔ (eei → pending ∨ own ∨ self) := by
  cases pending <;> cases self <;> cases eei <;> cases own <;> decide

section Awaits

variable {c c₂ : Chan}

lemma AwaitsLoad.erq {extra : Bool} (h : AwaitsLoad c extra c₂) :
    anyBit c₂.csr chCsrErq = anyBit c.csr chCsrErq :=
  anyBit_erq_of_eq_outside_done h.csr

section

variable (h : AwaitsLoad (x.st.ch n) (x.selfLinked n && anyBit (x.st.ch n).csr chCsrEei) c₂)
include h

lemma AwaitsLoad.loaded_iff (image : Vector Byte 32) :
    Loaded (x.st.ch n) image (c₂.withTcd image).finished ↔ FlagsAgree x n image := by
  have hintr : anyBit (c₂.withTcd image).finished.intr chIntInt =
      (anyBit (x.st.ch n).intr chIntInt || (x.selfLinked n && anyBit (x.st.ch n).csr chCsrEei) ||
        anyBit (lduwLeP image 0x1C) tcdCsrIntmajor) := by
    rw [finished_intr, ← h.intr]
    rfl
  have herq : anyBit (c₂.withTcd image).finished.csr chCsrErq = (anyBit (x.st.ch n).csr chCsrErq &&
        !anyBit (lduwLeP image 0x1C) tcdCsrDreq) := by
    rw [finished_erq, ← h.erq]
    rfl
  constructor
  · intro hloaded
    exact ⟨(raised_iff _ _ _ _).mp (hintr.symm.trans hloaded.intr),
      (cleared_iff _ _ _).mp (herq.symm.trans hloaded.erq)⟩
  intro hagree
  exact ⟨rfl, hintr.trans ((raised_iff _ _ _ _).mpr hagree.intr),
    herq.trans ((cleared_iff _ _ _).mpr hagree.erq)⟩

lemma AwaitsLoad.failed_iff :
    LoadFailed (x.st.ch n) ({ c₂ with es := c₂.es ||| (chEsSge ||| chEsErr) } : Chan).finished ↔
      ErrorSeen x n := by
  have hsge : anyBit (chEsSge ||| chEsErr) chEsSge := by decide
  have herr : anyBit (chEsSge ||| chEsErr) chEsErr := by decide
  have hint : anyBit c₂.tcdCsr tcdCsrIntmajor = anyBit (x.st.ch n).tcdCsr tcdCsrIntmajor :=
    h.tcdCsr.flag (by decide)
  have hintr : anyBit ({ c₂ with es := c₂.es ||| (chEsSge ||| chEsErr) } :
      Chan).finished.intr chIntInt =
      (anyBit (x.st.ch n).intr chIntInt || (x.selfLinked n && anyBit (x.st.ch n).csr chCsrEei) ||
        anyBit (x.st.ch n).tcdCsr tcdCsrIntmajor) := by
    rw [finished_intr, ← h.intr, ← hint]
  have hkept : ({ c₂ with es := c₂.es ||| (chEsSge ||| chEsErr) } :
      Chan).finished = { (x.st.ch n).moved.adjusted with
        csr := ({ c₂ with es := c₂.es ||| (chEsSge ||| chEsErr) } : Chan).finished.csr
        es := c₂.es ||| (chEsSge ||| chEsErr)
        intr := ({ c₂ with es := c₂.es ||| (chEsSge ||| chEsErr) } : Chan).finished.intr
        tcdCsr := c₂.tcdCsr } := by
    rw [h.kept]
    rfl
  constructor
  · intro hfailed
    exact (error_raised_iff _ _ _ _).mp (hintr.symm.trans hfailed.intr)
  intro hseen
  refine ⟨?_, ?_, hkept, h.tcdCsr, hintr.trans ((error_raised_iff _ _ _ _).mpr hseen)⟩
  · change anyBit (c₂.es ||| (chEsSge ||| chEsErr)) chEsSge = true
    rw [anyBit_or, hsge, Bool.or_true]
  · change anyBit (c₂.es ||| (chEsSge ||| chEsErr)) chEsErr = true
    rw [anyBit_or, herr, Bool.or_true]

end

end Awaits

/-- The last minor loop of a valid descriptor with `ESG` completes as that
descriptor asks, just when its link does not start it over and, if the pointer
leads to an image, the image has the same completion flags as far as they make
a difference; if not, the error interrupt is off or seen anyway. -/
theorem scatterGather_completes_own_iff (hquiet : bus.Quiet) (haccepted : (x.st.ch n).Accepted)
    (hlast : (x.st.ch n).lastLoop = true)
    (hesg : anyBit (x.st.ch n).tcdCsr tcdCsrEsg = true)
    {image : Vector Byte 32} {readable : Bool}
    (hread : (bus.read (x.atLoad bus n) (x.st.ch n).tcdDlast 32).2 = (image, readable)) :
    CompletesOwn x n image readable (edmaMinorLoop bus x n).1 ↔ ¬ x.Restarts n ∧
      ((x.st.ch n).PointsTo readable → FlagsAgree x n image) ∧
      (¬ (x.st.ch n).PointsTo readable → ErrorSeen x n) := by
  have hend : (edmaMinorLoop bus x n).1 = edmaConclude bus (x.atLoad bus n) n :=
    minorLoopWith_last hquiet.toPlain _ haccepted hlast
  have hminor : minorLoops (edmaMinorLoop bus x n).1.trace = minorLoops (x.atLoad bus n).trace := by
    rw [hend]
    exact (conclude_keeps hquiet).1
  by_cases hrestarts : x.Restarts n
  · -- the channel runs twice
    have htwice := atLoad_restarts hquiet haccepted hrestarts
    constructor
    · intro hcompletes
      have honce := hcompletes.once
      rw [hminor, htwice] at honce
      simp at honce
    · exact fun h => absurd hrestarts h.1
  obtain ⟨honce, hawaits⟩ := atLoad_awaits hquiet haccepted hrestarts
  have hkept := congrArg tcdDlast hawaits.kept
  have hdlast : ((x.atLoad bus n).st.ch n).tcdDlast = (x.st.ch n).tcdDlast := hkept
  have hesg' : anyBit ((x.atLoad bus n).st.ch n).tcdCsr tcdCsrEsg = true :=
    (hawaits.tcdCsr.flag (by decide)).trans hesg
  have hch : (edmaMinorLoop bus x n).1.st.ch n =
      ((edmaLoadNextTcd bus (x.atLoad bus n) n).1.st.ch n).finished := by
    rw [hend, edmaConclude, if_pos hesg', finish_ch]
  have hpoints : ((x.atLoad bus n).st.ch n).PointsTo readable ↔ (x.st.ch n).PointsTo readable := by
    rw [Chan.PointsTo, hdlast, Chan.PointsTo]
  rw [← hdlast] at hread
  obtain ⟨hgood, hbad⟩ := loadNextTcd_ch hquiet hread
  rw [hpoints] at hgood hbad
  constructor
  · intro hcompletes
    refine ⟨hrestarts, fun hpointer => ?_, fun hpointer => ?_⟩
    · have hloaded := hcompletes.loaded hpointer
      rw [hch, hgood hpointer] at hloaded
      exact (hawaits.loaded_iff image).mp hloaded
    have hfailed := hcompletes.failed hpointer
    rw [hch, hbad hpointer] at hfailed
    exact hawaits.failed_iff.mp hfailed
  rintro ⟨_, hflags, herror⟩
  refine ⟨by rw [hminor, honce], fun hpointer => ?_, fun hpointer => ?_⟩
  · rw [hch, hgood hpointer]
    exact (hawaits.loaded_iff image).mpr (hflags hpointer)
  · rw [hch, hbad hpointer]
    exact hawaits.failed_iff.mpr (herror hpointer)

def sgEngine (flags : Byte) : Engine (Word → Byte) :=
  let c : Chan := { byteToWordChan with
    tcdCiter := 1, tcdBiter := 1, tcdDlast := 0x200, tcdCsr := 0x12 }
  ⟨{ EdmaState.created 0 with ch := fun _ => c }, fun a => if a = 0x21C then flags else 0, []⟩

def sgImage (flags : Byte) : Vector Byte 32 :=
  (memoryBus.read ((sgEngine flags).atLoad memoryBus 3) 0x200 32).2.1

theorem scatterGather_completes_own_intmajor : CompletesOwn (sgEngine 2) 3 (sgImage 2) true
      (edmaMinorLoop memoryBus (sgEngine 2) 3).1 := by
  have hint : anyBit (lduwLeP (sgImage 2) 0x1C) tcdCsrIntmajor = true := by
    decide +kernel
  have hflags : FlagsAgree (sgEngine 2) 3 (sgImage 2) := by
    refine ⟨.inr ?_, .inl (by decide)⟩
    decide
  exact (scatterGather_completes_own_iff memoryBus_quiet
    ((accepted_iff _).mpr (by decide)) (by decide) (by decide) rfl).mpr
    ⟨fun h => absurd h.1 (by decide), fun _ => hflags,
      fun h => absurd ⟨by decide, by decide, rfl⟩ h⟩

theorem scatterGather_loses_intmajor :
    (((sgEngine 0).st.ch 3).Accepted ∧ ((sgEngine 0).st.ch 3).lastLoop = true ∧
      anyBit ((sgEngine 0).st.ch 3).tcdCsr tcdCsrEsg = true) ∧
    ¬ CompletesOwn (sgEngine 0) 3 (sgImage 0) true (edmaMinorLoop memoryBus (sgEngine 0) 3).1 := by
  refine ⟨⟨(accepted_iff _).mpr (by decide), by decide, by decide⟩,
    fun hcompletes => ?_⟩
  have hloaded := hcompletes.loaded ⟨by decide, by decide, rfl⟩
  have hlow : anyBit ((edmaMinorLoop memoryBus (sgEngine 0) 3).1.st.ch 3).intr
      chIntInt = false := by
    decide +kernel
  have hasked : anyBit ((sgEngine 0).st.ch 3).tcdCsr tcdCsrIntmajor = true := by
    decide
  rw [hloaded.intr, hasked, Bool.or_true] at hlow
  cases hlow

end Mcxn947.Edma
