import Mcxn947.EdmaMajorCount

/-!
# Channel links

A minor loop raises at most one link.
-/

namespace Mcxn947.Edma

open MachineWords CountedLoops Chan Engine Function List

def minorLoops (trace : List BusMark) : List ChanIdx :=
  trace.filterMap fun
    | .minor n => some n
    | _ => none

@[simp] lemma minorLoops_append (l l' : List BusMark) :
    minorLoops (l ++ l') = minorLoops l ++ minorLoops l' :=
  filterMap_append

variable {μ : Type}

structure Bus.Quiet (bus : Bus μ) : Prop extends bus.Plain where
  read_inLink : ∀ x addr size, (bus.read x addr size).1.st.inLink = x.st.inLink
  write_inLink : ∀ x addr data, (bus.write x addr data).st.inLink = x.st.inLink

lemma memoryBus_quiet : memoryBus.Quiet := ⟨memoryBus_plain, fun _ _ _ => rfl, fun _ _ _ => rfl⟩

structure Engine.SameService (x y : Engine μ) : Prop where
  ch : y.st.ch = x.st.ch
  inLink : y.st.inLink = x.st.inLink
  minorLoops : minorLoops y.trace = minorLoops x.trace

lemma Engine.SameService.refl (x : Engine μ) : x.SameService x := ⟨rfl, rfl, rfl⟩

lemma Engine.SameService.trans {x y z : Engine μ}
    (hxy : x.SameService y) (hyz : y.SameService z) : x.SameService z :=
  ⟨hyz.ch.trans hxy.ch, hyz.inLink.trans hxy.inLink, hyz.minorLoops.trans hxy.minorLoops⟩

section Quiet

variable {bus : Bus μ} (hquiet : bus.Quiet)
include hquiet

variable (x : Engine μ)

lemma addressSpaceRead_sameService (addr : Word) (size : ℕ) :
    x.SameService (addressSpaceRead bus x addr size).1 := by
  refine ⟨hquiet.read_ch x addr size, hquiet.read_inLink x addr size, ?_⟩
  change minorLoops ((bus.read x addr size).1.trace ++ [.read _ _]) = _
  rw [minorLoops_append, hquiet.read_trace]
  exact append_nil _

lemma addressSpaceWrite_sameService (addr : Word) (data : List Byte) :
    x.SameService (addressSpaceWrite bus x addr data) := by
  refine ⟨hquiet.write_ch _ addr data, hquiet.write_inLink _ addr data, ?_⟩
  rw [addressSpaceWrite, hquiet.write_trace]
  change minorLoops (x.trace ++ [.write addr data]) = _
  rw [minorLoops_append]
  exact append_nil _

lemma move_sameService (c : Chan) (x : Engine μ) : x.SameService (edmaMove bus c x).x :=
  move_preserves (fun y addr size h => h.trans (addressSpaceRead_sameService hquiet y addr size))
    (fun y addr data h => h.trans (addressSpaceWrite_sameService hquiet y addr data)) c (.refl x)

variable {x : Engine μ} {n : ChanIdx}

lemma minorBody_minorLoops :
    minorLoops (edmaMinorBody bus x n).trace = minorLoops x.trace ++ [n] := by
  have hmove := move_sameService hquiet (x.st.ch n) (x.mark (.minor n))
  have hmark : minorLoops (x.mark (.minor n)).trace = minorLoops x.trace ++ [n] :=
    minorLoops_append _ _
  exact hmove.minorLoops.trans hmark

lemma minorBody_inLink : (edmaMinorBody bus x n).st.inLink = x.st.inLink :=
  (move_sameService hquiet (x.st.ch n) (x.mark (.minor n))).inLink

lemma conclude_keeps : minorLoops (edmaConclude bus x n).trace = minorLoops x.trace ∧
      (edmaConclude bus x n).st.inLink = x.st.inLink ∧ OthersKept n x (edmaConclude bus x n) := by
  have hfinish : ∀ y : Engine μ, OthersKept n y (y.finish n) := by
    intro y
    unfold finish
    split <;> exact modifyCh_othersKept y finished
  unfold edmaConclude
  split
  · have hload : minorLoops (edmaLoadNextTcd bus x n).1.trace = minorLoops x.trace ∧
        (edmaLoadNextTcd bus x n).1.st.inLink = x.st.inLink := by
      unfold edmaLoadNextTcd
      dsimp only
      split
      · exact ⟨rfl, rfl⟩
      have hread := addressSpaceRead_sameService hquiet x (x.st.ch n).tcdDlast 32
      split <;> exact ⟨hread.minorLoops, hread.inLink⟩
    rw [finish_trace, finish_inLink]
    exact ⟨hload.1, hload.2, (loadNextTcd_othersKept hquiet.toPlain x).trans (hfinish _)⟩
  · rw [finish_trace, finish_inLink]
    exact ⟨rfl, rfl, hfinish x⟩

lemma minorLoopWith_followed
    (link : Engine μ → ℕ → Engine μ) (haccepted : (x.st.ch n).Accepted) :
    ∃ y : Engine μ, minorLoops y.trace = minorLoops x.trace ++ [n] ∧
      y.st.inLink = x.st.inLink ∧ OthersKept n x y ∧
      minorLoops (edmaMinorLoopWith link bus x n).1.trace =
      minorLoops (y.followLink link (x.st.ch n).raisedLink).trace ∧
      (edmaMinorLoopWith link bus x n).1.st.inLink =
      (y.followLink link (x.st.ch n).raisedLink).st.inLink ∧
      OthersKept n (y.followLink link (x.st.ch n).raisedLink)
      (edmaMinorLoopWith link bus x n).1 := by
  have hothers : OthersKept n x (edmaMinorBody bus x n) :=
    fun _ hm => minorBody_others hquiet.toPlain hm
  cases hlast : (x.st.ch n).lastLoop with
  | false =>
    rw [minorLoopWith_more hquiet.toPlain link haccepted hlast]
    exact ⟨edmaMinorBody bus x n, minorBody_minorLoops hquiet,
      minorBody_inLink hquiet, hothers, rfl, rfl, .refl _⟩
  | true =>
    rw [minorLoopWith_last hquiet.toPlain link haccepted hlast]
    obtain ⟨hminor, hin, hkept⟩ := conclude_keeps (n := n) (x :=
      ((edmaMinorBody bus x n).modifyCh n adjusted).followLink link (x.st.ch n).raisedLink) hquiet
    exact ⟨(edmaMinorBody bus x n).modifyCh n adjusted,
      minorBody_minorLoops hquiet, minorBody_inLink hquiet,
      hothers.trans (modifyCh_othersKept _ _), hminor, hin, hkept⟩

omit hquiet in
lemma followLink_blocked (depth : ℕ) {y : Engine μ} (hbusy : y.st.inLink) (o : Option ℕ) :
    y.followLink (edmaLinkChannel bus depth) o = y := by
  cases o with
  | none => rfl
  | some l =>
    cases depth with
    | zero => rfl
    | succ depth => simp [followLink, edmaLinkChannel, hbusy]

lemma minorLoopWith_inLink (depth : ℕ) (hbusy : x.st.inLink)
    (haccepted : (x.st.ch n).Accepted) :
    minorLoops (edmaMinorLoopWith (edmaLinkChannel bus depth) bus x n).1.trace =
      minorLoops x.trace ++ [n] := by
  obtain ⟨y, hminor, hin, _, hfollow, _⟩ :=
    minorLoopWith_followed hquiet (edmaLinkChannel bus depth) haccepted
  rw [hfollow, followLink_blocked depth (hin.trans hbusy), hminor]

lemma runWith_inLink (depth : ℕ) (hbusy : x.st.inLink) :
    edmaRunWith (edmaLinkChannel bus depth) bus x n =
      edmaRunWith (edmaLinkChannel bus 0) bus x n := by
  have hloop : (edmaMinorLoopWith (edmaLinkChannel bus depth) bus x n).1 =
      (edmaMinorLoopWith (edmaLinkChannel bus 0) bus x n).1 := by
    by_cases hvalid : (x.st.ch n).Accepted
    · have hbody : (edmaMinorBody bus x n).st.inLink := (minorBody_inLink hquiet).trans hbusy
      have hadjusted : ((edmaMinorBody bus x n).modifyCh n adjusted).st.inLink := hbody
      cases hlast : (x.st.ch n).lastLoop with
      | false =>
        rw [minorLoopWith_more hquiet.toPlain _ hvalid hlast,
          minorLoopWith_more hquiet.toPlain _ hvalid hlast,
          followLink_blocked depth hbody, followLink_blocked 0 hbody]
      | true =>
        rw [minorLoopWith_last hquiet.toPlain _ hvalid hlast,
          minorLoopWith_last hquiet.toPlain _ hvalid hlast,
          followLink_blocked depth hadjusted, followLink_blocked 0 hadjusted]
    · have hbroken := exists_violated hvalid
      rw [minorLoopWith_refused bus _ hbroken, minorLoopWith_refused bus _ hbroken]
  rw [edmaRunWith, edmaRunWith, hloop]

lemma linkChannel_depth (depth : ℕ) (y : Engine μ) (l : ℕ) :
    edmaLinkChannel bus (depth + 1) y l = edmaLinkChannel bus 1 y l := by
  rw [edmaLinkChannel, edmaLinkChannel]
  split
  · split
    · rfl
    · dsimp only
      rw [runWith_inLink hquiet depth rfl]
  · rfl

variable {y : Engine μ}

lemma linkChannel_minorLoops (hfree : y.st.inLink = false) (haccepted : (y.st.ch n).Accepted) :
    minorLoops (edmaLinkChannel bus 1 y n).trace = minorLoops y.trace ++ [n] := by
  have hclear : (((y.setInLink true).modifyCh n clearDone).st.ch n).Accepted := by
    rw [modifyCh_ch_self]
    exact (accepted_clearDone _).mpr haccepted
  rw [linkChannel_taken hfree]
  exact minorLoopWith_inLink hquiet 0 rfl hclear

omit hquiet in
lemma linkChannel_minorLoops_refused (bus : Bus μ) (hrefused : ¬ (y.st.ch n).Accepted) :
    minorLoops (edmaLinkChannel bus 1 y n).trace = minorLoops y.trace := by
  cases hlink : y.st.inLink with
  | true => rw [linkChannel_blocked hlink]
  | false =>
    have hbroken : ∃ r : TcdRule, r.Violated
        (((y.setInLink true).modifyCh n clearDone).st.ch n) := by
      rw [modifyCh_ch_self]
      exact exists_violated (mt (accepted_clearDone _).mp hrefused)
    rw [linkChannel_taken hlink, edmaRunWith, minorLoopWith_refused bus _ hbroken]
    rfl

end Quiet

/-- A service request on channel `n` from outside the engine: a software start,
or a hardware request that the service loop accepts.  `c` holds the registers
that the request finds. -/
inductive ServiceRequest (bus : Bus μ) (x : Engine μ) (n : ChanIdx) : Chan → Engine μ → Prop where
  | start (off : ℕ) (v : Word) : EdmaReg.ofOffset off = some (.chan n .tcdCsr) →
      anyBit v (tcdCsrStart.setWidth 32) = true →
      ServiceRequest bus x n ((x.st.ch n).write v .tcdCsr) (edmaWrite bus x off v)
  | hardware : x.st.eligible n = true →
      ServiceRequest bus x n (x.st.ch n) (serviceChannel bus x n).1

structure RequestPrepared (bus : Bus μ) (x : Engine μ) (n : ChanIdx) (c : Chan)
    (z x' : Engine μ) : Prop where
  minorLoops : minorLoops x'.trace = minorLoops x.trace
  inLink : x'.st.inLink = x.st.inLink
  chan : x'.st.ch n = c.clearDone
  others : OthersKept n x x'
  after_trace : z.trace = (edmaMinorLoop bus x' n).1.trace
  after_others : OthersKept n (edmaMinorLoop bus x' n).1 z

section Requests

variable {bus : Bus μ} {x z : Engine μ} {a : ChanIdx} {c : Chan}

lemma ServiceRequest.prepared (h : ServiceRequest bus x a c z) :
    ∃ x', RequestPrepared bus x a c z x' := by
  cases h with
  | start off v hoff hstart =>
    refine ⟨(x.modifyCh a fun c => c.write v .tcdCsr).modifyCh a clearDone, ?_⟩
    rw [write_start bus x hoff hstart]
    exact {
      minorLoops := rfl
      inLink := rfl
      chan := by simp
      others := (modifyCh_othersKept x _).trans (modifyCh_othersKept _ _)
      after_trace := rfl
      after_others := modifyCh_othersKept _ _ }
  | hardware helig =>
    refine ⟨(x.mark (.request a (muxSrc (x.st.ch a).mux))).modifyCh a clearDone, ?_⟩
    unfold serviceChannel
    dsimp only
    rw [if_pos helig]
    constructor
    case minorLoops => exact (minorLoops_append _ _).trans (append_nil _)
    case inLink => rfl
    case chan => exact modifyCh_ch_self _ _ _
    case others => exact modifyCh_othersKept (x.mark _) _
    case after_trace => split <;> rfl
    case after_others => intro m _; split <;> rfl

section

variable (hquiet : bus.Quiet) (h : ServiceRequest bus x a c z) (haccepted : c.Accepted)
include hquiet h haccepted

lemma ServiceRequest.followed : ∃ y : Engine μ, minorLoops y.trace = minorLoops x.trace ++ [a] ∧
      y.st.inLink = x.st.inLink ∧ OthersKept a x y ∧
      minorLoops z.trace = minorLoops (y.followLink (edmaLinkChannel bus 1) c.raisedLink).trace ∧
      OthersKept a (y.followLink (edmaLinkChannel bus 1) c.raisedLink) z := by
  obtain ⟨x', hprepared⟩ := h.prepared
  have haccepted' : (x'.st.ch a).Accepted := by
    rw [hprepared.chan]
    exact c.accepted_clearDone.mpr haccepted
  obtain ⟨y, hminor, hin, hkept, hfollow, _, hafter⟩ :=
    minorLoopWith_followed hquiet (edmaLinkChannel bus 1) haccepted'
  have hraised : (x'.st.ch a).raisedLink = c.raisedLink := by
    rw [hprepared.chan]
    rfl
  rw [hraised] at hfollow hafter
  refine ⟨y, ?_, hin.trans hprepared.inLink, hprepared.others.trans hkept, ?_,
    hafter.trans hprepared.after_others⟩
  · rw [hminor, hprepared.minorLoops]
  · rw [hprepared.after_trace]
    exact hfollow

lemma ServiceRequest.runs_alone (hnone : c.raisedLink = none) :
    minorLoops z.trace = minorLoops x.trace ++ [a] ∧ OthersKept a x z := by
  obtain ⟨y, hminor, _, hkept, hfollow, hafter⟩ := h.followed hquiet haccepted
  rw [hnone] at hfollow hafter
  exact ⟨hfollow.trans hminor, hkept.trans hafter⟩

end

variable {b : ChanIdx}

section

variable (hquiet : bus.Quiet) (h : ServiceRequest bus x a c z)
include hquiet h

lemma ServiceRequest.runs_linked (hidle : x.st.inLink = false)
    (haccepted : c.Accepted) (hlink : c.raisedLink = some b.val)
    (hba : b ≠ a) (hlinked : (x.st.ch b).Accepted) :
    minorLoops z.trace = minorLoops x.trace ++ [a, b] := by
  obtain ⟨y, hminor, hin, hkept, hfollow, _⟩ := h.followed hquiet haccepted
  rw [hlink] at hfollow
  have hb : (y.st.ch b).Accepted := by
    rw [hkept b hba]
    exact hlinked
  have hrun := linkChannel_minorLoops hquiet (hin.trans hidle) hb
  rw [hfollow, followLink, hrun, hminor]
  simp

lemma ServiceRequest.runs_refused (haccepted : c.Accepted)
    (hlink : c.raisedLink = some b.val) (hba : b ≠ a) (hrefused : ¬ (x.st.ch b).Accepted) :
    minorLoops z.trace = minorLoops x.trace ++ [a] := by
  obtain ⟨y, hminor, _, hkept, hfollow, _⟩ := h.followed hquiet haccepted
  rw [hlink] at hfollow
  have hb : ¬ (y.st.ch b).Accepted := by
    rw [hkept b hba]
    exact hrefused
  rw [hfollow, followLink, linkChannel_minorLoops_refused bus hb, hminor]

lemma ServiceRequest.linked_ch (hidle : x.st.inLink = false)
    (haccepted : c.Accepted) (hlink : c.raisedLink = some b.val)
    (hba : b ≠ a) (hlinked : (x.st.ch b).Accepted)
    (hesg : anyBit (x.st.ch b).tcdCsr tcdCsrEsg = false) :
    z.st.ch b = (x.st.ch b).clearDone.served.clearStart := by
  obtain ⟨y, _, hin, hkept, _, hafter⟩ := h.followed hquiet haccepted
  rw [hlink] at hafter
  have hb := hkept b hba
  rw [hafter b hba, followLink, ← hb]
  exact linkChannel_ch hquiet.toPlain (hin.trans hidle)
    (by rw [hb]; exact hlinked) (by rw [hb]; exact hesg)

lemma ServiceRequest.unlinked_ch (haccepted : c.Accepted)
    (hlink : c.raisedLink ≠ some b.val) (hba : b ≠ a) : z.st.ch b = x.st.ch b := by
  obtain ⟨y, _, _, hkept, _, hafter⟩ := h.followed hquiet haccepted
  have hfollow : (y.followLink (edmaLinkChannel bus 1) c.raisedLink).st.ch b =
      y.st.ch b := by
    cases hraised : c.raisedLink with
    | none => rfl
    | some l =>
      apply linkChannel_keeps hquiet.toPlain le_rfl
      rintro rfl
      exact hlink hraised
  rw [hafter b hba, hfollow, hkept b hba]

end

/-- A request on `a` runs one minor loop of `a` and, if that raises a link to
`b`, one of `b`, which leaves `b` as a software start of its own would; a
deeper recursion of links would change nothing. -/
theorem request_runs_raised_link (hquiet : bus.Quiet) {b : ChanIdx}
    (hab : a ≠ b) (hrequest : ServiceRequest bus x a c z)
    (hidle : x.st.inLink = false) (ha : c.Accepted)
    (hself : c.raisedLink ≠ some a.val) (hb : (x.st.ch b).Accepted)
    (hminor : (x.st.ch b).minorLink = none)
    (hmajor : (x.st.ch b).majorLink = none)
    (hesg : anyBit (x.st.ch b).tcdCsr tcdCsrEsg = false) :
    (∃ new, minorLoops z.trace = minorLoops x.trace ++ new ∧ new.filter (fun m => m = a ∨ m = b) =
        if c.raisedLink = some b.val then [a, b] else [a]) ∧
    (c.raisedLink = some b.val → ∀ off v, EdmaReg.ofOffset off = some (.chan b .tcdCsr) →
      anyBit v (tcdCsrStart.setWidth 32) = true →
      SameButStart (v.setWidth 16) (x.st.ch b).tcdCsr →
      z.st.ch b = (edmaWrite bus x off v).st.ch b) ∧
    (c.raisedLink ≠ some b.val → z.st.ch b = x.st.ch b) ∧
    (∀ (y : Engine μ) (m : ChanIdx) (depth : ℕ),
      edmaRunWith (edmaLinkChannel bus (depth + 1)) bus y m = edmaRun bus y m) := by
  have hdepth : ∀ depth, edmaLinkChannel bus (depth + 1) = edmaLinkChannel bus 1 := fun depth =>
    funext fun y => funext fun l => linkChannel_depth hquiet depth y l
  refine ⟨?_, ?_, fun hne => hrequest.unlinked_ch hquiet ha hne hab.symm, ?_⟩
  · by_cases hlink : c.raisedLink = some b.val
    · refine ⟨[a, b], hrequest.runs_linked hquiet hidle ha hlink hab.symm hb, ?_⟩
      simp [hlink]
    rw [if_neg hlink]
    cases hraised : c.raisedLink with
    | none =>
      exact ⟨[a], (hrequest.runs_alone hquiet ha hraised).1, by simp⟩
    | some l =>
      -- a third channel, which may be refused
      have hl := raisedLink_lt hraised
      have hla : (⟨l, hl⟩ : ChanIdx) ≠ a := by
        rintro rfl
        exact hself hraised
      have hlb : (⟨l, hl⟩ : ChanIdx) ≠ b := by
        rintro rfl
        exact hlink hraised
      by_cases hvalid : (x.st.ch ⟨l, hl⟩).Accepted
      · refine ⟨[a, ⟨l, hl⟩], hrequest.runs_linked hquiet hidle ha
          (b := ⟨l, hl⟩) hraised hla hvalid, ?_⟩
        simp [hla, hlb]
      · exact ⟨[a], hrequest.runs_refused hquiet ha (b := ⟨l, hl⟩) hraised hla hvalid, by simp⟩
  · intro hlink off v hoff hstart hcsr
    have hfound : ((x.st.ch b).write v .tcdCsr) =
        { x.st.ch b with tcdCsr := ((x.st.ch b).write v .tcdCsr).tcdCsr } := rfl
    have hnone : ((x.st.ch b).write v .tcdCsr).raisedLink ≠ some b.val := by
      have hmajor' : ((x.st.ch b).write v .tcdCsr).majorLink = (x.st.ch b).majorLink := by
        rw [majorLink, majorLink]
        change (if anyBit (v.setWidth 16) _ then some (tcdCsrMajorlinkch (v.setWidth 16))
          else none) = _
        rw [hcsr.majorlinkch, hcsr.flag (by decide)]
      have hminor' : ((x.st.ch b).write v .tcdCsr).minorLink = none := hminor
      unfold raisedLink
      rw [hmajor', hmajor, hminor']
      split <;> simp
    have hvalid : ((x.st.ch b).write v .tcdCsr).Accepted := by
      intro r hr
      exact hb r (by cases r <;> exact hr)
    have hplain := write_start_ch hquiet.toPlain hoff hstart hvalid
      ((hcsr.flag (by decide)).trans hesg) hnone
    rw [hrequest.linked_ch hquiet hidle ha hlink hab.symm hb hesg, hplain]
    exact (SameButStart.served hfound hcsr).symm
  intro y m depth
  rw [hdepth]
  rfl

end Requests

def linkChan (l : HalfWord) : Chan :=
  { byteToWordChan with
    csr := chCsrErq, mux := 25, tcdCiter := 0x8002 ||| (l <<< 9) }

def chainEngine : Engine (Word → Byte) :=
  let ch : ChanIdx → Chan := fun n =>
    if n = 3 then linkChan 4 else if n = 4 then linkChan 5 else byteToWordChan
  ⟨{ EdmaState.created 0 with
      ch := ch, reqLevel := fun _ => true, reqEnabled := fun _ => true }, fun _ => 0xA5, []⟩

theorem request_runs_link_to_5 :
    ∃ new, minorLoops (edmaWrite memoryBus chainEngine 0x503C 1).trace = new ∧
      new.filter (fun m => m = 4 ∨ m = 5) = [4, 5] := by
  obtain ⟨⟨new, hnew, hfilter⟩, _⟩ := request_runs_raised_link
    (x := chainEngine) (a := 4) (b := 5) memoryBus_quiet (by decide)
    (.start 0x503C 1 (by decide) (by decide)) rfl
    ((accepted_iff _).mpr (by decide)) (by decide)
    ((accepted_iff _).mpr (by decide)) (by decide) (by decide) (by decide)
  exact ⟨new, hnew, hfilter⟩

def selfLinkEngine : Engine (Word → Byte) :=
  let ch : ChanIdx → Chan := fun n =>
    if n = 3 then linkChan 3 else byteToWordChan
  ⟨{ EdmaState.created 0 with ch := ch }, fun _ => 0xA5, []⟩

theorem request_runs_self_link_twice :
    ((selfLinkEngine.st.ch 3).Accepted ∧ (selfLinkEngine.st.ch 4).Accepted ∧
      (selfLinkEngine.st.ch 4).minorLink = none ∧
      (selfLinkEngine.st.ch 4).majorLink = none ∧
      anyBit (selfLinkEngine.st.ch 4).tcdCsr tcdCsrEsg = false) ∧
    minorLoops (edmaWrite memoryBus selfLinkEngine 0x403C 1).trace = [3, 3] := by
  refine ⟨⟨(accepted_iff _).mpr (by decide),
    (accepted_iff _).mpr (by decide), by decide, by decide, by decide⟩, ?_⟩
  decide +kernel

def LinkGraph (regs : ChanIdx → Chan) (m m' : ChanIdx) : Prop :=
  (regs m).minorLink = some m'.val ∨ (regs m).majorLink = some m'.val

instance (regs : ChanIdx → Chan) (m m' : ChanIdx) : Decidable (LinkGraph regs m m') :=
  inferInstanceAs (Decidable (_ ∨ _))

def Raises (regs : ChanIdx → Chan) (m m' : ChanIdx) : Prop := (regs m).raisedLink = some m'.val

instance (regs : ChanIdx → Chan) (m m' : ChanIdx) : Decidable (Raises regs m m') :=
  inferInstanceAs (Decidable (_ = _))

lemma Raises.linkGraph {regs : ChanIdx → Chan} {m m' : ChanIdx}
    (h : Raises regs m m') : LinkGraph regs m m' := by
  unfold Raises raisedLink at h
  split at h
  · exact .inr h
  · exact .inl h

section Chains

open Relation

variable {bus : Bus μ} {x z : Engine μ} {a : ChanIdx} {c : Chan}

/-- In an acyclic link graph a request runs one minor loop of every channel that
the raised links lead to, just when the channel that the first link starts
raises none itself. -/
theorem request_follows_all_links_iff (hquiet : bus.Quiet)
    (hrequest : ServiceRequest bus x a c z) (hidle : x.st.inLink = false)
    {regs : ChanIdx → Chan} (hregs : regs = update x.st.ch a c)
    (hvalid : ∀ m, ReflTransGen (LinkGraph regs) a m → (regs m).Accepted)
    (hacyclic : ∀ m, ReflTransGen (LinkGraph regs) a m → ¬ TransGen (LinkGraph regs) m m) :
    (∃ new, minorLoops z.trace = minorLoops x.trace ++ new ∧
      ∀ m, (ReflTransGen (Raises regs) a m → new.count m = 1) ∧
        (¬ ReflTransGen (Raises regs) a m → new.count m = 0)) ↔
    ∀ b, Raises regs a b → (regs b).raisedLink = none := by
  have hc : regs a = c := by rw [hregs, update_self]
  have ha : c.Accepted := by
    rw [← hc]
    exact hvalid a .refl
  cases hraised : c.raisedLink with
  | none =>
    have hnone : ∀ b, ¬ Raises regs a b := by
      intro b hb
      rw [Raises, hc, hraised] at hb
      cases hb
    refine ⟨fun _ b hb => absurd hb (hnone b), fun _ => ?_⟩
    refine ⟨[a], (hrequest.runs_alone hquiet ha hraised).1, fun m => ?_⟩
    have hreach : ReflTransGen (Raises regs) a m ↔ m = a := by
      constructor
      · intro h
        rcases h.cases_head with h | ⟨b, hb, _⟩
        · exact h.symm
        · exact absurd hb (hnone b)
      · rintro rfl
        exact .refl
    rw [hreach]
    constructor
    · rintro rfl
      simp
    · intro hne
      simp [Ne.symm hne]
  | some l =>
    have hl := raisedLink_lt hraised
    set b : ChanIdx := ⟨l, hl⟩ with hbdef
    have hab : Raises regs a b := by
      rw [Raises, hc, hraised]
    have hunique : ∀ m, Raises regs a m → m = b := by
      intro m hm
      rw [Raises, hc, hraised] at hm
      exact Fin.ext (Option.some.inj hm).symm
    have hba : b ≠ a := by
      intro h
      have hloop := hab.linkGraph
      rw [h] at hloop
      exact hacyclic a .refl (.single hloop)
    have hb : (x.st.ch b).Accepted := by
      have hreached := hvalid b (.single hab.linkGraph)
      rwa [hregs, update_of_ne hba] at hreached
    have hnew := hrequest.runs_linked hquiet hidle ha (b := b) hraised hba hb
    constructor
    · rintro ⟨new, htrace, hcount⟩ m hm
      rw [hunique m hm]
      rw [hnew, append_cancel_left_eq] at htrace
      by_contra hlink
      obtain ⟨k, hk⟩ := Option.ne_none_iff_exists'.mp hlink
      set d : ChanIdx := ⟨k, raisedLink_lt hk⟩ with hddef
      have hbd : Raises regs b d := hk
      -- the dropped link leads to a channel that did not run
      have hone := (hcount d).1 (.tail (.single hab) hbd)
      have hda : d ≠ a := by
        intro h
        have hback := hbd.linkGraph
        rw [h] at hback
        exact hacyclic a .refl (.tail (.single hab.linkGraph) hback)
      have hdb : d ≠ b := by
        intro h
        have hback := hbd.linkGraph
        rw [h] at hback
        exact hacyclic b (.single hab.linkGraph) (.single hback)
      rw [← htrace] at hone
      simp [hda.symm, hdb.symm] at hone
    intro hend
    refine ⟨[a, b], hnew, fun m => ?_⟩
    have hreach : ReflTransGen (Raises regs) a m ↔ m = a ∨ m = b := by
      constructor
      · intro h
        rcases h.cases_head with h | ⟨d, hd, hrest⟩
        · exact .inl h.symm
        rw [hunique d hd] at hrest
        rcases hrest.cases_head with h | ⟨e, he, _⟩
        · exact .inr h.symm
        · rw [Raises, hend b hab] at he
          cases he
      rintro (rfl | rfl)
      · exact .refl
      · exact .single hab
    rw [hreach]
    constructor
    · rintro (rfl | rfl)
      · simp [hba]
      · simp [hba.symm]
    intro hne
    push Not at hne
    simp [hne.1.symm, hne.2.symm]

end Chains

lemma chainEngine_acyclic (m : ChanIdx) :
    ¬ Relation.TransGen (LinkGraph chainEngine.st.ch) m m := by
  have hup : ∀ m m', LinkGraph chainEngine.st.ch m m' → m < m' := by decide +kernel
  have hlt : ∀ {m m'}, Relation.TransGen (LinkGraph chainEngine.st.ch) m m' → m < m' := by
    intro m m' h
    induction h with
    | single h => exact hup _ _ h
    | tail _ h ih => exact ih.trans (hup _ _ h)
  exact fun h => lt_irrefl m (hlt h)

lemma chainEngine_accepted (m : ChanIdx) : (chainEngine.st.ch m).Accepted := by
  have hall : ∀ m, ¬ ((chainEngine.st.ch m).dsize = 0 ∨
      (chainEngine.st.ch m).nbytes = 0 ∨ (chainEngine.st.ch m).citer = 0) ∧
      (chainEngine.st.ch m).tcdErr = 0 := by
    decide +kernel
  exact (accepted_iff _).mpr (hall m)

theorem request_follows_link_to_5 :
    ∃ new, minorLoops (serviceChannel memoryBus chainEngine 4).1.trace = new ∧
      new.count 4 = 1 ∧ new.count 5 = 1 := by
  have hiff := request_follows_all_links_iff (x := chainEngine) (a := 4)
    memoryBus_quiet (.hardware (by decide)) rfl
    (update_eq_self 4 chainEngine.st.ch).symm
    (fun m _ => chainEngine_accepted m) (fun m _ => chainEngine_acyclic m)
  have hlast : ∀ b, Raises chainEngine.st.ch 4 b → (chainEngine.st.ch b).raisedLink = none := by
    decide +kernel
  obtain ⟨new, hnew, hcount⟩ := hiff.mpr hlast
  have hlink : Raises chainEngine.st.ch 4 5 := by decide
  exact ⟨new, hnew, (hcount 4).1 .refl, (hcount 5).1 (.single hlink)⟩

theorem request_drops_link_to_5 : (∀ m, (chainEngine.st.ch m).Accepted) ∧
    (∀ m, ¬ Relation.TransGen (LinkGraph chainEngine.st.ch) m m) ∧
    ServiceRequest memoryBus chainEngine 3 (chainEngine.st.ch 3)
      (serviceChannel memoryBus chainEngine 3).1 ∧
    Relation.ReflTransGen (Raises chainEngine.st.ch) 3 5 ∧
    minorLoops (serviceChannel memoryBus chainEngine 3).1.trace = [3, 4] := by
  have hfirst : Raises chainEngine.st.ch 3 4 := by decide
  have hsecond : Raises chainEngine.st.ch 4 5 := by decide
  refine ⟨chainEngine_accepted, chainEngine_acyclic, .hardware (by decide),
    .tail (.single hfirst) hsecond, ?_⟩
  decide +kernel

end Mcxn947.Edma
