import Mcxn947.EdmaCompletion
import Mcxn947.EdmaRings

/-!
# Counting down a major loop

A major loop of a channel takes as many service requests as its count says.
-/

namespace Mcxn947.Edma

open MachineWords AlignedBlocks Function Nat Chan

def Chan.countWidth (c : Chan) : ℕ := if c.elink then 9 else 15

lemma Chan.cmask_eq (c : Chan) : c.cmask = (1 : HalfWord) <<< c.countWidth - 1 := by
  unfold cmask countWidth
  cases c.elink <;> decide

lemma Chan.citer_toNat (c : Chan) : c.citer.toNat = c.tcdCiter.toNat % 2 ^ c.countWidth := by
  rw [citer, cmask_eq, and_lowMask_toNat]

variable {c : Chan}

lemma Chan.citer_sub_one_toNat (h : c.citer ≠ 0) : (c.citer - 1).toNat = c.citer.toNat - 1 := by
  have hpos : (1 : HalfWord).toNat ≤ c.citer.toNat :=
    Nat.pos_of_ne_zero fun hzero => h (BitVec.eq_of_toNat_eq hzero)
  rw [BitVec.toNat_sub_of_le (BitVec.le_def.mpr hpos)]
  rfl

lemma Chan.moved_tcdCiter (h : c.citer ≠ 0) :
    c.moved.tcdCiter = splice c.countWidth c.tcdCiter (c.citer - 1) := by
  have hfits : (c.citer - 1) &&& ((1 : HalfWord) <<< c.countWidth - 1) = c.citer - 1 := by
    apply BitVec.eq_of_toNat_eq
    have hlt := mod_lt c.tcdCiter.toNat (Nat.two_pow_pos c.countWidth)
    rw [← c.citer_toNat] at hlt
    rw [and_lowMask_toNat, citer_sub_one_toNat h]
    exact mod_eq_of_lt (by omega)
  rw [splice, hfits, ← c.cmask_eq]
  rfl

lemma Chan.moved_count (h : c.citer ≠ 0) :
    (c.moved.tcdCiter &&& c.cmask).toNat = c.citer.toNat - 1 := by
  have hlt := mod_lt c.tcdCiter.toNat (Nat.two_pow_pos c.countWidth)
  rw [← c.citer_toNat] at hlt
  rw [moved_tcdCiter h, cmask_eq, and_lowMask_toNat, splice_toNat,
    mul_add_mod, mod_mod, citer_sub_one_toNat h]
  exact mod_eq_of_lt (by omega)

lemma Chan.moved_upper (h : c.citer ≠ 0) :
    c.moved.tcdCiter &&& ~~~c.cmask = c.tcdCiter &&& ~~~c.cmask := by
  rw [moved_tcdCiter h, cmask_eq, and_not_lowMask_eq_iff, block_splice]

variable {c₀ : Chan}

lemma Chan.elink_of_upper (h : c.tcdCiter &&& ~~~c₀.cmask = c₀.tcdCiter &&& ~~~c₀.cmask) :
    c.elink = c₀.elink := by
  have hdisj : c₀.cmask &&& citerElink = 0 := by
    unfold cmask
    cases c₀.elink <;> decide
  rw [elink, elink, ← anyBit_clear_of_disjoint hdisj c.tcdCiter, h, anyBit_clear_of_disjoint hdisj]

lemma Chan.minorLink_of_upper (h : c.tcdCiter &&& ~~~c₀.cmask = c₀.tcdCiter &&& ~~~c₀.cmask) :
    c.minorLink = c₀.minorLink := by
  have helink := elink_of_upper h
  unfold minorLink
  rw [helink]
  cases hlink : c₀.elink with
  | false => rfl
  | true =>
    have hmask : c₀.cmask = citerElinkMask := by simp [cmask, hlink]
    have hkeep : (~~~citerElinkMask) >>> 9 &&& (0xF : HalfWord) = 0xF := by decide
    have hlinkch : ∀ v : HalfWord, citerLinkch v = citerLinkch (v &&& ~~~citerElinkMask) := by
      intro v
      unfold citerLinkch
      rw [BitVec.ushiftRight_and_distrib, BitVec.and_assoc, hkeep]
    rw [hmask] at h
    rw [hlinkch c.tcdCiter, h, ← hlinkch]

def SameButStart (v v' : HalfWord) : Prop := v &&& ~~~tcdCsrStart = v' &&& ~~~tcdCsrStart
deriving Decidable

variable {v v' : HalfWord}

lemma SameButStart.flag {mask : HalfWord} (h : SameButStart v v')
    (hdisj : tcdCsrStart &&& mask = 0) : anyBit v mask = anyBit v' mask := by
  rw [← anyBit_clear_of_disjoint hdisj v, h, anyBit_clear_of_disjoint hdisj]

lemma SameButStart.majorlinkch (h : SameButStart v v') :
    tcdCsrMajorlinkch v = tcdCsrMajorlinkch v' := by
  have hkeep : (~~~tcdCsrStart) >>> 8 &&& (0xF : HalfWord) = 0xF := by decide
  have hclear : ∀ v : HalfWord, tcdCsrMajorlinkch v = tcdCsrMajorlinkch (v &&& ~~~tcdCsrStart) := by
    intro v
    unfold tcdCsrMajorlinkch
    rw [BitVec.ushiftRight_and_distrib, BitVec.and_assoc, hkeep]
  rw [hclear v, h, ← hclear]

variable {d : Chan}

lemma SameButStart.served (hfound : d = { c with tcdCsr := d.tcdCsr })
    (h : SameButStart d.tcdCsr c.tcdCsr) :
    d.clearDone.served.clearStart = c.clearDone.served.clearStart := by
  have hesg : anyBit d.tcdCsr tcdCsrEsg = anyBit c.tcdCsr tcdCsrEsg := h.flag (by decide)
  have hdreq : anyBit d.tcdCsr tcdCsrDreq = anyBit c.tcdCsr tcdCsrDreq := h.flag (by decide)
  have hint : anyBit d.tcdCsr tcdCsrIntmajor = anyBit c.tcdCsr tcdCsrIntmajor := h.flag (by decide)
  have hclear : d.tcdCsr &&& ~~~tcdCsrStart = c.tcdCsr &&& ~~~tcdCsrStart := h
  have hmoved : d.clearDone.moved = { c.clearDone.moved with tcdCsr := d.tcdCsr } := by
    rw [hfound]
    rfl
  have hlast : d.clearDone.lastLoop = c.clearDone.lastLoop := by
    rw [hfound]
    rfl
  unfold Chan.served
  rw [hlast, hmoved]
  cases c.clearDone.lastLoop with
  | false => simp [clearStart, moved, clearDone, hclear]
  | true =>
    simp only [if_true, clearStart, finished, adjusted, moved, clearDone, hclear, hesg, hdreq, hint]
    congr

lemma SameButStart.trans {u : HalfWord} (h : SameButStart u v)
    (h' : SameButStart v v') : SameButStart u v' :=
  Eq.trans h h'

lemma sameButStart_clear (v : HalfWord) : SameButStart (v &&& ~~~tcdCsrStart) v := by
  rw [SameButStart, BitVec.and_assoc, BitVec.and_self]

variable {μ : Type} {bus : Bus μ} {n : ChanIdx} {x z : Engine μ} {log : List BusMark}

lemma Service.found (h : Service bus x n d log z) : d = { x.st.ch n with tcdCsr := d.tcdCsr } := by
  cases h <;> rfl

lemma linkChannel_raised (hplain : bus.Plain)
    (hself : d.raisedLink ≠ some n.val) (y : Engine μ) (l : ℕ) (hl : d.raisedLink = some l) :
    (edmaLinkChannel bus 1 y l).st.ch n = y.st.ch n := by
  apply linkChannel_keeps hplain le_rfl
  rintro rfl
  exact hself hl

lemma write_start_ch (hplain : bus.Plain) {off : ℕ} {v : Word}
    (hoff : EdmaReg.ofOffset off = some (.chan n .tcdCsr))
    (hstart : anyBit v (tcdCsrStart.setWidth 32))
    (haccepted : ((x.st.ch n).write v .tcdCsr).Accepted)
    (hesg : anyBit ((x.st.ch n).write v .tcdCsr).tcdCsr tcdCsrEsg = false)
    (hself : ((x.st.ch n).write v .tcdCsr).raisedLink ≠ some n.val) :
    (edmaWrite bus x off v).st.ch n =
      ((x.st.ch n).write v .tcdCsr).clearDone.served.clearStart := by
  have hentry : ((x.modifyCh n fun c => c.write v .tcdCsr).modifyCh n
      clearDone).st.ch n = ((x.st.ch n).write v .tcdCsr).clearDone := by
    simp
  rw [write_start bus x hoff hstart, edmaRun, runWith_ch hplain, hentry]
  · rw [hentry]
    exact (accepted_clearDone _).mpr haccepted
  · rw [hentry]
    exact hesg
  · rw [hentry]
    exact linkChannel_raised hplain hself

lemma Service.served (hplain : bus.Plain) (h : Service bus x n d log z) (haccepted : d.Accepted)
    (hesg : anyBit d.tcdCsr tcdCsrEsg = false) (hself : d.raisedLink ≠ some n.val) :
    (z.st.ch n = d.clearDone.served ∧ d = x.st.ch n) ∨
      z.st.ch n = d.clearDone.served.clearStart := by
  cases h with
  | start off v hoff hstart =>
    exact .inr (write_start_ch hplain hoff hstart haccepted hesg hself)
  | request helig =>
    left
    refine ⟨?_, rfl⟩
    have hentry : ((x.mark (.request n (muxSrc (x.st.ch n).mux))).modifyCh n
        clearDone).st.ch n = (x.st.ch n).clearDone :=
      Engine.modifyCh_ch_self _ _ _
    have hminor := minorLoopWith_ch (n := n)
      (x := (x.mark (.request n (muxSrc (x.st.ch n).mux))).modifyCh n
        clearDone) hplain (edmaLinkChannel bus 1)
      (by
        rw [hentry]
        exact (accepted_clearDone _).mpr haccepted)
      (by rw [hentry]; exact hesg)
      (by rw [hentry]; exact linkChannel_raised hplain hself)
    rw [hentry] at hminor
    unfold serviceChannel edmaMinorLoop
    dsimp only
    rw [if_pos helig]
    split <;> exact hminor
  | link hfree => exact .inr (linkChannel_ch hplain hfree haccepted hesg)

/-- `j` service requests on channel `n` from `x`.  Everything else that happens
leaves the channel's registers alone, and a software start writes back the CSR
it finds, with `START` set. -/
inductive Requested (bus : Bus μ) (n : ChanIdx) (x : Engine μ) : ℕ → Engine μ → Prop where
  | none : Requested bus n x 0 x
  | elsewhere {j : ℕ} {y z : Engine μ} :
      Requested bus n x j y → z.st.ch n = y.st.ch n → Requested bus n x j z
  | service {j : ℕ} {y z : Engine μ} {d : Chan} {log : List BusMark} :
      Requested bus n x j y → Service bus y n d log z →
      SameButStart d.tcdCsr (y.st.ch n).tcdCsr → Requested bus n x (j + 1) z

structure MajorProgress (c₀ c : Chan) (j : ℕ) : Prop where
  saddr : c.tcdSaddr = c₀.advanceS^[j * c₀.nbytes / c₀.ssize] c₀.tcdSaddr
  daddr : c.tcdDaddr = c₀.advanceD^[j * c₀.nbytes / c₀.dsize] c₀.tcdDaddr
  count : (c.tcdCiter &&& c₀.cmask).toNat = c₀.citer.toNat - j
  upper : c.tcdCiter &&& ~~~c₀.cmask = c₀.tcdCiter &&& ~~~c₀.cmask
  done : 0 < j ∨ anyBit c₀.csr chCsrDone = false → anyBit c.csr chCsrDone = false
  csr : c.csr &&& ~~~chCsrDone = c₀.csr &&& ~~~chCsrDone
  tcdCsr : SameButStart c.tcdCsr c₀.tcdCsr
  start : anyBit c₀.tcdCsr tcdCsrStart = false → c.tcdCsr = c₀.tcdCsr
  kept : c = { c₀ with
    csr := c.csr, tcdSaddr := c.tcdSaddr, tcdDaddr := c.tcdDaddr,
    tcdCiter := c.tcdCiter, tcdCsr := c.tcdCsr }

structure MajorComplete (c₀ c : Chan) : Prop where
  saddr : c.tcdSaddr =
    c₀.advanceS^[c₀.citer.toNat * c₀.nbytes / c₀.ssize] c₀.tcdSaddr + c₀.tcdSlast
  daddr : c.tcdDaddr =
    c₀.advanceD^[c₀.citer.toNat * c₀.nbytes / c₀.dsize] c₀.tcdDaddr + c₀.tcdDlast
  citer : c.tcdCiter = c₀.tcdBiter
  done : anyBit c.csr chCsrDone = true
  erq : anyBit c.csr chCsrErq = (anyBit c₀.csr chCsrErq && !anyBit c₀.tcdCsr tcdCsrDreq)
  csr : c.csr &&& ~~~(chCsrDone ||| chCsrErq) = c₀.csr &&& ~~~(chCsrDone ||| chCsrErq)
  intr : c.intr = if anyBit c₀.tcdCsr tcdCsrIntmajor then c₀.intr ||| chIntInt else c₀.intr
  tcdCsr : SameButStart c.tcdCsr c₀.tcdCsr
  start : anyBit c₀.tcdCsr tcdCsrStart = false → c.tcdCsr = c₀.tcdCsr
  kept : c = { c₀ with
    csr := c.csr, intr := c.intr, tcdSaddr := c.tcdSaddr,
    tcdDaddr := c.tcdDaddr, tcdCiter := c.tcdCiter, tcdCsr := c.tcdCsr }

lemma MajorProgress.zero (c₀ : Chan) : MajorProgress c₀ c₀ 0 where
  saddr := by simp
  daddr := by simp
  count := by simp [citer]
  upper := rfl
  done := by simp
  csr := rfl
  tcdCsr := rfl
  start := fun _ => rfl
  kept := rfl

lemma RingsKept.accepted (h : RingsKept c₀ c)
    (haccepted : c₀.Accepted) (hciter : c.citer ≠ 0) : c.Accepted := by
  have hssize : c.ssize = c₀.ssize := congrArg (2 ^ attrSsize ·) h.attr
  have hdsize : c.dsize = c₀.dsize := congrArg (2 ^ attrDsize ·) h.attr
  have hnbytes : c.nbytes = c₀.nbytes := congrArg (fun v => (v &&& nbytesMask).toNat) h.nbytes
  intro r
  have hrule := haccepted r
  cases r with
  | citerZero => exact hciter
  | saddr =>
    rw [TcdRule.Violated, hssize, not_not]
    exact h.source.aligned
  | daddr =>
    rw [TcdRule.Violated, hdsize, not_not]
    exact h.dest.aligned
  | nbytesZero => rwa [TcdRule.Violated, hnbytes]
  | soff => rwa [TcdRule.Violated, hssize, h.soff]
  | doff => rwa [TcdRule.Violated, hdsize, h.doff]
  | nbytesMultiple => rwa [TcdRule.Violated, hssize, hdsize, hnbytes]
  | xferSize => rwa [TcdRule.Violated, hssize, hdsize]

private lemma succ_mul_div {a b : ℕ} (h : b ∣ a) (j : ℕ) : (j + 1) * a / b = a / b + j * a / b := by
  rw [Nat.mul_div_assoc _ h, Nat.mul_div_assoc _ h]
  ring

section Step

open Chan

variable {c₀ c d : Chan} {j : ℕ}

section

variable (h : MajorProgress c₀ c j)
include h

lemma MajorProgress.entered (hfound : d = { c with tcdCsr := d.tcdCsr }) : d.clearDone = { c₀ with
      csr := c.csr &&& ~~~chCsrDone, tcdSaddr := c.tcdSaddr,
      tcdDaddr := c.tcdDaddr, tcdCiter := c.tcdCiter, tcdCsr := d.tcdCsr } := by
  rw [hfound, h.kept]
  rfl

lemma MajorProgress.ringsKept
    (haccepted : c₀.Accepted) (hfound : d = { c with tcdCsr := d.tcdCsr }) :
    RingsKept c₀ d.clearDone := by
  have hsource := haccepted.ringsKept.source.iterate
    ((attrSsize_le c₀.tcdAttr).trans (by decide)) (not_not.mp (haccepted .soff))
    (j * c₀.nbytes / c₀.ssize)
  have hdest := haccepted.ringsKept.dest.iterate
    ((attrDsize_le c₀.tcdAttr).trans (by decide)) (not_not.mp (haccepted .doff))
    (j * c₀.nbytes / c₀.dsize)
  rw [h.entered hfound]
  refine ⟨?_, ?_, rfl, rfl, rfl, rfl⟩
  · rw [h.saddr]
    exact hsource
  · rw [h.daddr]
    exact hdest

lemma MajorProgress.citer (hfound : d = { c with tcdCsr := d.tcdCsr }) :
    d.clearDone.cmask = c₀.cmask ∧ d.clearDone.citer.toNat = c₀.citer.toNat - j := by
  have hciter := congrArg tcdCiter hfound
  have htcd : d.tcdCiter = c.tcdCiter := hciter
  have helink : d.clearDone.elink = c₀.elink :=
    elink_of_upper (c := d) (by rw [htcd]; exact h.upper)
  have hmask : d.clearDone.cmask = c₀.cmask := by rw [cmask, helink, cmask]
  refine ⟨hmask, ?_⟩
  have hfield : d.clearDone.citer = c.tcdCiter &&& c₀.cmask := by
    rw [Chan.citer, hmask, ← htcd]
    rfl
  rw [hfield]
  exact h.count

lemma MajorProgress.moved_addrs
    (haccepted : c₀.Accepted) (hfound : d = { c with tcdCsr := d.tcdCsr }) :
    d.clearDone.moved.tcdSaddr = c₀.advanceS^[(j + 1) * c₀.nbytes / c₀.ssize] c₀.tcdSaddr ∧
      d.clearDone.moved.tcdDaddr = c₀.advanceD^[(j + 1) * c₀.nbytes / c₀.dsize] c₀.tcdDaddr := by
  have hmultiple := not_not.mp (haccepted .nbytesMultiple)
  rw [h.entered hfound, succ_mul_div hmultiple.1, succ_mul_div hmultiple.2,
    iterate_add_apply, iterate_add_apply, ← h.saddr, ← h.daddr]
  exact ⟨rfl, rfl⟩

lemma MajorProgress.raisedLink_ne (hfound : d = { c with tcdCsr := d.tcdCsr })
    (hcsr : SameButStart d.tcdCsr c₀.tcdCsr)
    (hminor : c₀.minorLink ≠ some n.val) (hmajor : c₀.majorLink ≠ some n.val) :
    d.raisedLink ≠ some n.val := by
  have hupper : d.tcdCiter &&& ~~~c₀.cmask = c₀.tcdCiter &&& ~~~c₀.cmask := by
    rw [congrArg tcdCiter hfound]
    exact h.upper
  have hmajor' : d.majorLink = c₀.majorLink := by
    rw [majorLink, majorLink, hcsr.majorlinkch, hcsr.flag (by decide)]
  unfold raisedLink
  split
  · rw [hmajor']
    exact hmajor
  · rw [minorLink_of_upper hupper]
    exact hminor

variable {v : HalfWord}

lemma MajorProgress.tcdCsr_after (hcsr : SameButStart d.tcdCsr c.tcdCsr)
    (hv : (v = d.tcdCsr ∧ d = c) ∨ v = d.tcdCsr &&& ~~~tcdCsrStart) :
    SameButStart v c₀.tcdCsr ∧ (anyBit c₀.tcdCsr tcdCsrStart = false → v = c₀.tcdCsr) := by
  rcases hv with ⟨rfl, rfl⟩ | rfl
  · exact ⟨h.tcdCsr, h.start⟩
  refine ⟨(sameButStart_clear _).trans (hcsr.trans h.tcdCsr), fun hclear => ?_⟩
  rw [hcsr, h.start hclear]
  exact and_not_eq_self_iff.mpr hclear

lemma MajorProgress.step (haccepted : c₀.Accepted)
    (hj : j + 1 < c₀.citer.toNat) (hfound : d = { c with tcdCsr := d.tcdCsr })
    (hcsr : SameButStart d.tcdCsr c.tcdCsr)
    (hv : (v = d.tcdCsr ∧ d = c) ∨ v = d.tcdCsr &&& ~~~tcdCsrStart) :
    MajorProgress c₀ { d.clearDone.served with tcdCsr := v } (j + 1) := by
  obtain ⟨hmask, hcount⟩ := h.citer hfound
  have hne : d.clearDone.citer ≠ 0 := by
    intro hzero
    rw [hzero] at hcount
    have hleft : (0 : HalfWord).toNat = 0 := rfl
    omega
  have hmore : d.clearDone.lastLoop = false := by
    rw [lastLoop, decide_eq_false_iff_not]
    intro hone
    rw [hone] at hcount
    have hleft : (1 : HalfWord).toNat = 1 := rfl
    omega
  have hserv : d.clearDone.served = d.clearDone.moved := by simp [served, hmore]
  obtain ⟨hsaddr, hdaddr⟩ := h.moved_addrs haccepted hfound
  have hdone : anyBit (c.csr &&& ~~~chCsrDone) chCsrDone = false :=
    anyBit_clear_of_subset (by decide) _
  have hcsrDone : d.clearDone.csr = c.csr &&& ~~~chCsrDone := congrArg Chan.csr (h.entered hfound)
  obtain ⟨hsame, hstart⟩ := h.tcdCsr_after hcsr hv
  rw [hserv]
  refine ⟨hsaddr, hdaddr, ?_, ?_, ?_, ?_, hsame, hstart, ?_⟩
  · have hmoved := moved_count hne
    rw [hmask] at hmoved
    rw [hmoved, hcount]
    omega
  · have hmoved := moved_upper hne
    rw [hmask] at hmoved
    rw [hmoved, congrArg tcdCiter (h.entered hfound)]
    exact h.upper
  · intro _
    exact (congrArg (anyBit · chCsrDone) hcsrDone).trans hdone
  · change d.clearDone.csr &&& ~~~chCsrDone = _
    rw [hcsrDone, BitVec.and_assoc, BitVec.and_self]
    exact h.csr
  · rw [moved, h.entered hfound]

lemma MajorProgress.complete (haccepted : c₀.Accepted) (hesg : anyBit c₀.tcdCsr tcdCsrEsg = false)
    (hj : j + 1 = c₀.citer.toNat) (hfound : d = { c with tcdCsr := d.tcdCsr })
    (hcsr : SameButStart d.tcdCsr c.tcdCsr)
    (hv : (v = d.tcdCsr ∧ d = c) ∨ v = d.tcdCsr &&& ~~~tcdCsrStart) :
    MajorComplete c₀ { d.clearDone.served with tcdCsr := v } := by
  obtain ⟨_, hcount⟩ := h.citer hfound
  have hlast : d.clearDone.lastLoop := by
    rw [lastLoop, decide_eq_true_eq]
    apply BitVec.eq_of_toNat_eq
    have hright : (1 : HalfWord).toNat = 1 := rfl
    omega
  have hserv : d.clearDone.served = d.clearDone.moved.adjusted.finished := by simp [served, hlast]
  obtain ⟨hsaddr, hdaddr⟩ := h.moved_addrs haccepted hfound
  rw [hj] at hsaddr hdaddr
  have hall : SameButStart d.tcdCsr c₀.tcdCsr := hcsr.trans h.tcdCsr
  have hesg' : anyBit d.tcdCsr tcdCsrEsg = false := (hall.flag (by decide)).trans hesg
  have hdreq : anyBit d.tcdCsr tcdCsrDreq = anyBit c₀.tcdCsr tcdCsrDreq := hall.flag (by decide)
  have hint : anyBit d.tcdCsr tcdCsrIntmajor = anyBit c₀.tcdCsr tcdCsrIntmajor :=
    hall.flag (by decide)
  have hentered := h.entered hfound
  have hcsr' : d.clearDone.csr &&& ~~~chCsrDone = c₀.csr &&& ~~~chCsrDone := by
    rw [congrArg Chan.csr hentered, BitVec.and_assoc, BitVec.and_self]
    exact h.csr
  obtain ⟨hsame, hstart⟩ := h.tcdCsr_after hcsr hv
  refine ⟨?_, ?_, ?_, ?_, ?_, ?_, ?_, hsame, hstart, ?_⟩
  · have hslast := congrArg tcdSlast hentered
    rw [hserv]
    exact congrArg₂ (· + ·) hsaddr hslast
  · have hdlast := congrArg tcdDlast hentered
    have hadjust : d.clearDone.moved.adjusted.tcdDaddr =
        d.clearDone.moved.tcdDaddr + d.clearDone.tcdDlast :=
      if_neg (by rw [← Bool.not_eq_true] at hesg'; exact hesg')
    rw [hserv]
    exact hadjust.trans (congrArg₂ (· + ·) hdaddr hdlast)
  · have hbiter := congrArg tcdBiter hentered
    rw [hserv]
    exact hbiter
  · rw [hserv]
    exact finished_done _
  · have herq := anyBit_erq_of_eq_outside_done hcsr'
    rw [hserv, ← herq, ← hdreq]
    exact finished_erq _
  · have hrest : ∀ v : Word, v &&& ~~~(chCsrDone ||| chCsrErq) =
        (v &&& ~~~chCsrDone) &&& ~~~(chCsrDone ||| chCsrErq) := by
      intro v
      rw [BitVec.not_or, BitVec.and_assoc, ← BitVec.and_assoc (~~~chCsrDone), BitVec.and_self]
    rw [hserv, hrest c₀.csr, ← hcsr', ← hrest]
    exact finished_csr_rest _
  · have hintr := congrArg intr hentered
    rw [hserv, ← hint]
    exact congrArg (fun w => if anyBit d.tcdCsr tcdCsrIntmajor
      then w ||| chIntInt else w) hintr
  · rw [hserv, finished, adjusted, moved, hentered]

end

end Step

/-- A channel with a valid descriptor, without scatter/gather and without a link
to itself, needs exactly as many service requests as its count says: before
the last one the descriptor is on its way, after it the major loop is
complete. -/
theorem major_loop_takes_citer_requests (hplain : bus.Plain) {x : Engine μ}
    (haccepted : (x.st.ch n).Accepted)
    (hesg : anyBit (x.st.ch n).tcdCsr tcdCsrEsg = false)
    (hminor : (x.st.ch n).minorLink ≠ some n.val)
    (hmajor : (x.st.ch n).majorLink ≠ some n.val)
    (hbiter : (x.st.ch n).tcdCiter = (x.st.ch n).tcdBiter)
    {j : ℕ} {y : Engine μ} (hrun : Requested bus n x j y) :
    (j < (x.st.ch n).citer.toNat → MajorProgress (x.st.ch n) (y.st.ch n) j) ∧
    (j = (x.st.ch n).citer.toNat → MajorComplete (x.st.ch n) (y.st.ch n) ∧
        (y.st.ch n).tcdCiter = (x.st.ch n).tcdCiter) := by
  have hpositive :=
    Nat.pos_of_ne_zero fun hzero => haccepted .citerZero (BitVec.eq_of_toNat_eq hzero)
  induction hrun with
  | none => exact ⟨fun _ => MajorProgress.zero _, fun h => absurd h hpositive.ne⟩
  | elsewhere _ hkept ih =>
    rw [hkept]
    exact ih
  | @service j y z d log hbefore hservice hcsr ih =>
    by_cases hj : j < (x.st.ch n).citer.toNat
    · have hprogress := ih.1 hj
      have hfound := hservice.found
      have hall := hcsr.trans hprogress.tcdCsr
      obtain ⟨_, hcount⟩ := hprogress.citer hfound
      have hne : d.clearDone.citer ≠ 0 := by
        intro hzero
        rw [hzero] at hcount
        have hleft : (0 : HalfWord).toNat = 0 := rfl
        omega
      have hclear := (hprogress.ringsKept haccepted hfound).accepted haccepted hne
      have hvalid : d.Accepted := d.accepted_clearDone.mp hclear
      have hserved := hservice.served hplain hvalid ((hall.flag (by decide)).trans hesg)
        (hprogress.raisedLink_ne hfound hall hminor hmajor)
      -- in both cases only `TCD_CSR[START]` is left open
      obtain ⟨v, hv, hz⟩ : ∃ v : HalfWord,
          ((v = d.tcdCsr ∧ d = y.st.ch n) ∨ v = d.tcdCsr &&& ~~~tcdCsrStart) ∧
            z.st.ch n = { d.clearDone.served with tcdCsr := v } := by
        have htcdCsr : d.clearDone.served.tcdCsr = d.tcdCsr := by
          unfold Chan.served
          split <;> rfl
        rcases hserved with ⟨hz, hsame⟩ | hz
        · exact ⟨_, .inl ⟨rfl, hsame⟩, by rw [hz, ← htcdCsr]⟩
        · exact ⟨_, .inr rfl, by rw [hz, ← htcdCsr]; rfl⟩
      rw [hz]
      refine ⟨fun hmore => hprogress.step haccepted hmore hfound hcsr hv, fun hlast => ?_⟩
      have hcomplete := hprogress.complete haccepted hesg hlast hfound hcsr hv
      exact ⟨hcomplete, hcomplete.citer.trans hbiter.symm⟩
    · exact ⟨fun h => absurd h (by omega), fun h => absurd h (by omega)⟩

theorem major_loop_takes_two_requests : ∃ y : Engine (Word → Byte), Requested memoryBus 3
        ⟨{ EdmaState.created 0 with ch := fun _ =>
          { byteToWordChan with tcdBiter := 2, tcdCsr := 0xA } },
          fun _ => 0xA5, []⟩ 2 y ∧
      MajorComplete { byteToWordChan with tcdBiter := 2, tcdCsr := 0xA } (y.st.ch 3) := by
  let x : Engine (Word → Byte) :=
    ⟨{ EdmaState.created 0 with ch := fun _ =>
      { byteToWordChan with tcdBiter := 2, tcdCsr := 0xA } }, fun _ => 0xA5, []⟩
  have hfirst : Requested memoryBus 3 x 1 (edmaWrite memoryBus x 0x403C 0xB) :=
    .service .none (.start 0x403C 0xB (by decide) (by decide)) (by decide)
  have hsecond : Requested memoryBus 3 x 2
      (edmaLinkChannel memoryBus 1 (edmaWrite memoryBus x 0x403C 0xB) (3 : ChanIdx)) :=
    .service hfirst (.link (by decide +kernel)) rfl
  exact ⟨_, hsecond, ((major_loop_takes_citer_requests memoryBus_plain
    ((Chan.accepted_iff _).mpr (by decide)) (by decide) (by decide)
    (by decide) rfl hsecond).2 (by decide)).1⟩

end Mcxn947.Edma
