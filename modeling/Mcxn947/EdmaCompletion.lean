import Mcxn947.EdmaRefusal

/-!
# What a minor loop leaves in its channel

On a bus of plain memory and peripherals the registers of a channel after a minor loop are a
function of its registers before it: the transfer moves the addresses and the count
(`moved`), the end of the major loop adjusts them (`adjusted`) and sets the completion flags
(`finished`).
-/

namespace Mcxn947.Edma

open MachineWords BitVec Chan Engine

variable (c : Chan)

def Chan.moved : Chan :=
  { c with
    tcdSaddr := c.advanceS^[c.nbytes / c.ssize] c.tcdSaddr
    tcdDaddr := c.advanceD^[c.nbytes / c.dsize] c.tcdDaddr
    tcdCiter := (c.tcdCiter &&& ~~~c.cmask) ||| (c.citer - 1) }

def Chan.adjusted : Chan :=
  { c with
    tcdSaddr := c.tcdSaddr + c.tcdSlast
    tcdDaddr := if anyBit c.tcdCsr tcdCsrEsg then c.tcdDaddr else c.tcdDaddr + c.tcdDlast
    tcdCiter := c.tcdBiter }

def Chan.finished : Chan :=
  { c with
    csr :=
      if anyBit c.tcdCsr tcdCsrDreq then (c.csr ||| chCsrDone) &&& ~~~chCsrErq
      else c.csr ||| chCsrDone
    intr := if anyBit c.tcdCsr tcdCsrIntmajor then c.intr ||| chIntInt else c.intr }

lemma Chan.finished_done : anyBit c.finished.csr chCsrDone := by
  have hdone : anyBit chCsrDone chCsrDone := by decide
  unfold finished
  split
  · rw [anyBit_clear_of_disjoint (by decide), anyBit_or, hdone, Bool.or_true]
  · rw [anyBit_or, hdone, Bool.or_true]

lemma Chan.finished_erq : anyBit c.finished.csr chCsrErq =
      (anyBit c.csr chCsrErq && !anyBit c.tcdCsr tcdCsrDreq) := by
  have hdone : anyBit chCsrDone chCsrErq = false := by decide
  unfold finished
  split
  next hdreq =>
    rw [anyBit_clear_of_subset (by decide), hdreq]
    simp
  rename_i hdreq
  rw [anyBit_or, hdone, Bool.eq_false_of_not_eq_true hdreq]
  simp

lemma Chan.finished_csr_rest : c.finished.csr &&& ~~~(chCsrDone ||| chCsrErq) =
      c.csr &&& ~~~(chCsrDone ||| chCsrErq) := by
  unfold finished
  apply eq_of_getLsbD_eq
  intro i hi
  split <;>
    simp only [getLsbD_and, getLsbD_or, getLsbD_not, hi, decide_true, Bool.true_and] <;>
    cases c.csr.getLsbD i <;> cases chCsrDone.getLsbD i <;>
    cases chCsrErq.getLsbD i <;> rfl

lemma anyBit_intr_raised (v : Word) (on : Bool) :
    anyBit (if on then v ||| chIntInt else v) chIntInt = (anyBit v chIntInt || on) := by
  have hint : anyBit chIntInt chIntInt := by decide
  cases on with
  | false => simp
  | true => simp [hint]

lemma Chan.finished_intr : anyBit c.finished.intr chIntInt =
      (anyBit c.intr chIntInt || anyBit c.tcdCsr tcdCsrIntmajor) :=
  anyBit_intr_raised _ _

def Chan.lastLoop : Bool := c.citer = 1

def Chan.minorLink : Option ℕ := if c.elink then some (citerLinkch c.tcdCiter) else none

def Chan.majorLink : Option ℕ :=
  if anyBit c.tcdCsr tcdCsrMajorelink then some (tcdCsrMajorlinkch c.tcdCsr)
  else none

def Chan.raisedLink : Option ℕ := if c.lastLoop then c.majorLink else c.minorLink

def Chan.served : Chan := if c.lastLoop then c.moved.adjusted.finished else c.moved

lemma Chan.lastLoop_eq_false {c : Chan} : c.lastLoop = false ↔ c.citer - 1 ≠ 0 := by
  rw [lastLoop, decide_eq_false_iff_not, ne_eq, not_iff_not]
  constructor
  · intro h
    rw [h]
    rfl
  · intro h
    exact (BitVec.sub_eq_iff_eq_add.mp h).trans (BitVec.zero_add 1)

lemma citerLinkch_lt (v : HalfWord) : citerLinkch v < 16 := by
  have hle : ((v >>> 9) &&& 0xF : HalfWord).toNat ≤ 15 := by exact Nat.and_le_right
  unfold citerLinkch
  omega

lemma tcdCsrMajorlinkch_lt (v : HalfWord) : tcdCsrMajorlinkch v < 16 := by
  have hle : ((v >>> 8) &&& 0xF : HalfWord).toNat ≤ 15 := by exact Nat.and_le_right
  unfold tcdCsrMajorlinkch
  omega

lemma Chan.raisedLink_lt {c : Chan} {l : ℕ} (h : c.raisedLink = some l) : l < 16 := by
  unfold raisedLink majorLink minorLink at h
  split at h
  · split at h
    · rw [← Option.some.inj h]
      exact tcdCsrMajorlinkch_lt _
    · cases h
  split at h
  · rw [← Option.some.inj h]
    exact citerLinkch_lt _
  · cases h

variable {μ : Type}

def Engine.followLink (link : Engine μ → ℕ → Engine μ) (x : Engine μ) : Option ℕ → Engine μ
  | none => x
  | some l => link x l

def Engine.finish (x : Engine μ) (n : ChanIdx) : Engine μ :=
  let y := x.modifyCh n finished
  if anyBit (x.st.ch n).tcdCsr tcdCsrIntmajor then
    { y with st := edmaUpdateIrq y.st n }
  else y

def edmaConclude (bus : Bus μ) (x : Engine μ) (n : ChanIdx) : Engine μ :=
  if anyBit (x.st.ch n).tcdCsr tcdCsrEsg then
    (edmaLoadNextTcd bus x n).1.finish n
  else x.finish n

@[simp] lemma Engine.modifyCh_ch_self (x : Engine μ) (n : ChanIdx) (f : Chan → Chan) :
    (x.modifyCh n f).st.ch n = f (x.st.ch n) :=
  Function.update_self _ _ _

lemma Engine.modifyCh_congr {x : Engine μ} {n : ChanIdx} {f g : Chan → Chan}
    (h : f (x.st.ch n) = g (x.st.ch n)) : x.modifyCh n f = x.modifyCh n g := by
  simp [modifyCh, EdmaState.modifyCh, h]

section

variable (x : Engine μ) (n : ChanIdx)

@[simp] lemma Engine.finish_ch : (x.finish n).st.ch n = (x.st.ch n).finished := by
  unfold finish
  split <;> exact x.modifyCh_ch_self n _

@[simp] lemma Engine.finish_trace : (x.finish n).trace = x.trace := by
  unfold finish
  split <;> rfl

@[simp] lemma Engine.finish_inLink : (x.finish n).st.inLink = x.st.inLink := by
  unfold finish
  split <;> rfl

lemma finish_eq : (let x := x.modifyCh n fun c => { c with csr := c.csr ||| chCsrDone }
     let x :=
       if anyBit (x.st.ch n).tcdCsr tcdCsrDreq then
         x.modifyCh n fun c => { c with csr := c.csr &&& ~~~chCsrErq }
       else x
     if anyBit (x.st.ch n).tcdCsr tcdCsrIntmajor then
       let x := x.modifyCh n fun c => { c with intr := c.intr ||| chIntInt }
       { x with st := edmaUpdateIrq x.st n }
     else x) = x.finish n := by
  unfold finish
  dsimp only
  cases hdreq : anyBit (x.st.ch n).tcdCsr tcdCsrDreq <;>
    cases hint : anyBit (x.st.ch n).tcdCsr tcdCsrIntmajor <;>
    simp [hint, hdreq, modifyCh, EdmaState.modifyCh, finished]

end

lemma majorDone_eq (link : Engine μ → ℕ → Engine μ) (bus : Bus μ) (t : Xfer μ) (x : Engine μ)
    (n : ChanIdx) (hsaddr : t.saddr = (x.st.ch n).tcdSaddr)
    (hdaddr : t.daddr = (x.st.ch n).tcdDaddr) : edmaMajorDone link bus t x n = edmaConclude bus
      ((x.modifyCh n adjusted).followLink link (x.st.ch n).majorLink) n := by
  have hadjust : x.modifyCh n (fun c =>
      { c with
        tcdSaddr := t.saddr + c.tcdSlast
        tcdDaddr := if anyBit c.tcdCsr tcdCsrEsg then t.daddr else t.daddr + c.tcdDlast
        tcdCiter := c.tcdBiter }) = x.modifyCh n adjusted := by
    apply modifyCh_congr
    rw [hsaddr, hdaddr]
    rfl
  unfold edmaMajorDone edmaConclude
  rw [hadjust]
  have hlink : (if anyBit ((x.modifyCh n adjusted).st.ch n).tcdCsr tcdCsrMajorelink then
      link (x.modifyCh n adjusted) (tcdCsrMajorlinkch ((x.modifyCh n adjusted).st.ch n).tcdCsr)
      else x.modifyCh n adjusted) =
      (x.modifyCh n adjusted).followLink link (x.st.ch n).majorLink := by
    rw [modifyCh_ch_self]
    unfold majorLink
    have hcsr : (x.st.ch n).adjusted.tcdCsr = (x.st.ch n).tcdCsr := rfl
    rw [hcsr]
    split <;> rfl
  dsimp only
  rw [hlink]
  split <;> exact finish_eq _ n

section Plain

variable {bus : Bus μ} (hplain : bus.Plain) {x : Engine μ} {n : ChanIdx}
include hplain

lemma minorBody_ch (haccepted : (x.st.ch n).Accepted) :
    (edmaMinorBody bus x n).st.ch n = (x.st.ch n).moved := by
  obtain ⟨ops, hdone⟩ := minorBody_done hplain haccepted.chunk_dvd (haccepted .nbytesZero)
  have hciter := minorBody_citer hplain x n
  have hsaddr := hdone.saddr
  have hdaddr := hdone.daddr
  have hkept : (edmaMinorBody bus x n).st.ch n = { x.st.ch n with
        tcdSaddr := ((edmaMinorBody bus x n).st.ch n).tcdSaddr
        tcdDaddr := ((edmaMinorBody bus x n).st.ch n).tcdDaddr
        tcdCiter := ((edmaMinorBody bus x n).st.ch n).tcdCiter } := by
    simp only [edmaMinorBody, edmaWriteBack, modifyCh_ch_self]
    rw [move_ch hplain]
    rfl
  rw [hkept, hsaddr, hdaddr, hciter]
  rfl

lemma minorBody_others {m : ChanIdx} (hm : m ≠ n) :
    (edmaMinorBody bus x n).st.ch m = x.st.ch m := by
  have hmove := move_ch hplain (x.st.ch n) (x.mark (.minor n))
  have hback : (edmaMinorBody bus x n).st.ch m =
      (edmaMove bus (x.st.ch n) (x.mark (.minor n))).x.st.ch m :=
    Function.update_of_ne hm _ _
  rw [hback, hmove]
  rfl

variable (link : Engine μ → ℕ → Engine μ)

section

variable (haccepted : (x.st.ch n).Accepted)
include haccepted

lemma minorLoopWith_more (hmore : (x.st.ch n).lastLoop = false) :
    (edmaMinorLoopWith link bus x n).1 =
      (edmaMinorBody bus x n).followLink link (x.st.ch n).raisedLink := by
  rw [minorLoopWith_accepted bus link haccepted]
  rw [if_pos (Chan.lastLoop_eq_false.mp hmore)]
  cases helink : (x.st.ch n).elink with
  | false => simp [raisedLink, hmore, minorLink, helink, followLink]
  | true =>
    have hlinkch := citerLinkch_writeBack helink (haccepted .citerZero)
    rw [minorBody_citer hplain x n, hlinkch]
    simp [raisedLink, hmore, minorLink, helink, followLink]

lemma minorLoopWith_last (hlast : (x.st.ch n).lastLoop) :
    (edmaMinorLoopWith link bus x n).1 = edmaConclude bus
      (((edmaMinorBody bus x n).modifyCh n adjusted).followLink link (x.st.ch n).raisedLink) n := by
  have hzero : ¬ (x.st.ch n).citer - 1 ≠ 0 := by
    rw [← lastLoop_eq_false, hlast]
    decide
  have hmajor : ((edmaMinorBody bus x n).st.ch n).majorLink = (x.st.ch n).raisedLink := by
    rw [minorBody_ch hplain haccepted, raisedLink, hlast]
    rfl
  rw [minorLoopWith_accepted bus link haccepted]
  rw [if_neg hzero, majorDone_eq, hmajor]
  · simp [edmaMinorBody, edmaWriteBack]
  · simp [edmaMinorBody, edmaWriteBack]

section

variable (hesg : anyBit (x.st.ch n).tcdCsr tcdCsrEsg = false)
  (hlink : ∀ y l, (x.st.ch n).raisedLink = some l → (link y l).st.ch n = y.st.ch n)
include hesg hlink

lemma minorLoopWith_ch : (edmaMinorLoopWith link bus x n).1.st.ch n = (x.st.ch n).served := by
  have hfollow : ∀ y : Engine μ,
      (y.followLink link (x.st.ch n).raisedLink).st.ch n = y.st.ch n := by
    intro y
    cases hraised : (x.st.ch n).raisedLink with
    | none => rfl
    | some l => exact hlink y l hraised
  cases hlast : (x.st.ch n).lastLoop with
  | false =>
    rw [minorLoopWith_more hplain link haccepted hlast, hfollow,
      minorBody_ch hplain haccepted]
    simp [served, hlast]
  | true =>
    have hbody : ((edmaMinorBody bus x n).modifyCh n adjusted).st.ch n =
        (x.st.ch n).moved.adjusted := by
      rw [modifyCh_ch_self, minorBody_ch hplain haccepted]
    have hesg' : anyBit (x.st.ch n).moved.adjusted.tcdCsr tcdCsrEsg = false := hesg
    rw [minorLoopWith_last hplain link haccepted hlast, edmaConclude,
      hfollow, hbody, hesg', if_neg Bool.false_ne_true, finish_ch, hfollow, hbody]
    simp [served, hlast]

lemma runWith_ch : (edmaRunWith link bus x n).st.ch n = (x.st.ch n).served.clearStart := by
  rw [edmaRunWith, modifyCh_ch_self, minorLoopWith_ch hplain link haccepted hesg hlink]

end

end

omit link in
lemma linkChannel_keeps {depth : ℕ} (hdepth : depth ≤ 1)
    (y : Engine μ) {l : ℕ} (hl : l ≠ n.val) :
    (edmaLinkChannel bus depth y l).st.ch n = y.st.ch n := by
  interval_cases depth
  · rfl
  by_cases hlt : l < 16
  · have hne : n ≠ ⟨l, hlt⟩ := fun h => hl (congrArg Fin.val h).symm
    exact linkChannel_othersKept (n := ⟨l, hlt⟩) hplain y n hne
  · simp [edmaLinkChannel, hlt]

omit link in
lemma linkChannel_ch (hfree : x.st.inLink = false) (haccepted : (x.st.ch n).Accepted)
    (hesg : anyBit (x.st.ch n).tcdCsr tcdCsrEsg = false) :
    (edmaLinkChannel bus 1 x n).st.ch n = (x.st.ch n).clearDone.served.clearStart := by
  have hclear : ((x.setInLink true).modifyCh n clearDone).st.ch n = (x.st.ch n).clearDone :=
    modifyCh_ch_self _ _ _
  have hrun := runWith_ch (x := (x.setInLink true).modifyCh n clearDone)
    hplain (edmaLinkChannel bus 0) (n := n)
    (by rw [hclear]; exact (accepted_clearDone _).mpr haccepted)
    (by rw [hclear]; exact hesg) (fun _ _ _ => rfl)
  rw [linkChannel_taken hfree, ← hclear]
  exact hrun

end Plain

end Mcxn947.Edma
