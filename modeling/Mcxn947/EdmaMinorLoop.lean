import Mcxn947.EdmaTransfer

/-!
# One minor loop

The minor loop of an accepted descriptor: what it does on the bus, where the
descriptor's addresses end, and what is left to do after the write-back, which
is either a link to another channel or the end of the major loop.
-/

namespace Mcxn947.Edma

open MachineWords CountedLoops StridedAccess BitVec Function Nat Chan EdmaState

lemma Chan.Accepted.chunk_dvd {c : Chan} (h : c.Accepted) : c.chunk ∣ c.nbytes := by
  have hmultiple := not_not.mp (h .nbytesMultiple)
  unfold chunk
  split
  · exact hmultiple.1
  · exact hmultiple.2

private lemma div_mul_div_of_dvd {a b c : ℕ} (hbc : c ∣ b) (hab : b ∣ a) (hb : 0 < b) :
    a / b * (b / c) = a / c := by
  obtain ⟨j, rfl⟩ := hbc
  obtain ⟨k, rfl⟩ := hab
  have hc : 0 < c := Nat.pos_of_mul_pos_right hb
  rw [Nat.mul_div_cancel_left k hb, Nat.mul_div_cancel_left j hc, mul_assoc,
    Nat.mul_div_cancel_left (j * k) hc, mul_comm]

structure MinorLoopDone {μ : Type}
    (x : Engine μ) (n : ChanIdx) (y : Engine μ) (ops : List BusMark) :
    Prop where
  trace : y.trace = x.trace ++ .minor n :: ops
  readAddrs : (busReads ops).map Prod.fst =
    (List.range ((x.st.ch n).nbytes / (x.st.ch n).ssize)).map fun k =>
      (fun addr => edmaAdvance addr (x.st.ch n).tcdSoff
        (attrSmod (x.st.ch n).tcdAttr))^[k] (x.st.ch n).tcdSaddr
  writeAddrs : (busWrites ops).map Prod.fst =
    (List.range ((x.st.ch n).nbytes / (x.st.ch n).dsize)).map fun k =>
      (fun addr => edmaAdvance addr (x.st.ch n).tcdDoff
        (attrDmod (x.st.ch n).tcdAttr))^[k] (x.st.ch n).tcdDaddr
  readSize : ∀ r ∈ busReads ops, r.2.length = (x.st.ch n).ssize
  writeSize : ∀ w ∈ busWrites ops, w.2.length = (x.st.ch n).dsize
  stream : ((busWrites ops).map Prod.snd).flatten = ((busReads ops).map Prod.snd).flatten
  saddr : (y.st.ch n).tcdSaddr =
    (fun addr => edmaAdvance addr (x.st.ch n).tcdSoff
      (attrSmod (x.st.ch n).tcdAttr))^[(x.st.ch n).nbytes / (x.st.ch n).ssize] (x.st.ch n).tcdSaddr
  daddr : (y.st.ch n).tcdDaddr =
    (fun addr => edmaAdvance addr (x.st.ch n).tcdDoff
      (attrDmod (x.st.ch n).tcdAttr))^[(x.st.ch n).nbytes / (x.st.ch n).dsize] (x.st.ch n).tcdDaddr

section Accepted

variable {μ : Type} {bus : Bus μ}

def edmaMinorBody (bus : Bus μ) (x : Engine μ) (n : ChanIdx) : Engine μ :=
  edmaWriteBack (x.st.ch n) (edmaMove bus (x.st.ch n) (x.mark (.minor n))) n

variable {x : Engine μ} {n : ChanIdx}

lemma minorLoopWith_accepted (bus : Bus μ) (link : Engine μ → ℕ → Engine μ)
    (haccepted : (x.st.ch n).Accepted) : edmaMinorLoopWith link bus x n =
      let y := edmaMinorBody bus x n
      if (x.st.ch n).citer - 1 ≠ 0 then
        (if (x.st.ch n).elink then link y (citerLinkch (y.st.ch n).tcdCiter)
          else y, false)
      else
        (edmaMajorDone link bus (edmaMove bus (x.st.ch n) (x.mark (.minor n))) y n, true) := by
  obtain ⟨hfirst, hsecond⟩ := (x.st.ch n).accepted_iff.mp haccepted
  unfold edmaMinorLoopWith
  rw [if_neg hfirst, if_neg (not_not.mpr hsecond)]
  rfl

lemma minorBody_done (hplain : bus.Plain) (hdvd : (x.st.ch n).chunk ∣ (x.st.ch n).nbytes)
    (hbytes : (x.st.ch n).nbytes ≠ 0) : ∃ ops, MinorLoopDone x n (edmaMinorBody bus x n) ops := by
  set c := x.st.ch n with hc
  obtain ⟨ops, items, pieces, h⟩ := move_done hplain c (x.mark (.minor n)) hdvd
  have hchunk : 0 < c.chunk := pos_of_dvd_of_pos hdvd (Nat.pos_of_ne_zero hbytes)
  have hreads := div_mul_div_of_dvd c.ssize_dvd_chunk hdvd hchunk
  have hwrites := div_mul_div_of_dvd c.dsize_dvd_chunk hdvd hchunk
  refine ⟨ops, ?_⟩
  constructor
  · change (edmaMove bus c (x.mark (.minor n))).x.trace = _
    rw [h.trace]
    simp [Engine.mark]
  · rw [h.reads, stride_map_fst, h.readCount, hreads]
    rfl
  · rw [h.writes, stride_map_fst, h.writeCount, hwrites]
    rfl
  · intro r hr
    rw [h.reads] at hr
    have hmem := List.mem_map_of_mem (f := Prod.snd) hr
    rw [stride_map_snd] at hmem
    exact h.readSize _ hmem
  · intro w hw
    rw [h.writes] at hw
    have hmem := List.mem_map_of_mem (f := Prod.snd) hw
    rw [stride_map_snd] at hmem
    exact h.writeSize _ hmem
  · rw [h.writes, h.reads, stride_map_snd, stride_map_snd, h.stream]
  · simp only [edmaMinorBody, edmaWriteBack, Engine.modifyCh, EdmaState.modifyCh, update_self]
    rw [← hc, h.saddr, hreads]
    rfl
  simp only [edmaMinorBody, edmaWriteBack, Engine.modifyCh, EdmaState.modifyCh, update_self]
  rw [← hc, h.daddr, hwrites]
  rfl

end Accepted

def OthersKept {μ : Type} (n : ChanIdx) (x y : Engine μ) : Prop :=
  ∀ m, m ≠ n → y.st.ch m = x.st.ch m

section Others

variable {μ : Type} {bus : Bus μ} {n : ChanIdx}

variable (x : Engine μ)

lemma OthersKept.refl : OthersKept n x x := fun _ _ => rfl

lemma OthersKept.trans {x y z : Engine μ}
    (hxy : OthersKept n x y) (hyz : OthersKept n y z) : OthersKept n x z :=
  fun m hm => (hyz m hm).trans (hxy m hm)

lemma OthersKept.of_ch_eq {x y : Engine μ} (h : y.st.ch = x.st.ch) : OthersKept n x y :=
  fun m _ => congrFun h m

lemma modifyCh_othersKept (f : Chan → Chan) : OthersKept n x (x.modifyCh n f) :=
  fun _ hm => update_of_ne hm _ _

lemma refuse_othersKept (err : Word) :
    OthersKept n x { x with st := edmaRefuse x.st n err } := by
  intro m hm
  unfold edmaRefuse
  dsimp only
  split
  · simp [edmaUpdateIrq, EdmaState.modifyCh, hm]
  · simp [EdmaState.modifyCh, hm]

lemma move_ch (hplain : bus.Plain) (c : Chan) (x : Engine μ) :
    (edmaMove bus c x).x.st.ch = x.st.ch :=
  move_preserves (P := fun y => y.st.ch = x.st.ch)
    (fun y addr size h => (hplain.read_ch y addr size).trans h)
    (fun _ addr data h => (hplain.write_ch _ addr data).trans h) c rfl

lemma loadNextTcd_othersKept (hplain : bus.Plain) (x : Engine μ) :
    OthersKept n x (edmaLoadNextTcd bus x n).1 := by
  unfold edmaLoadNextTcd
  dsimp only
  split
  · exact modifyCh_othersKept x _
  have hread : OthersKept n x (addressSpaceRead bus x (x.st.ch n).tcdDlast 32).1 :=
    .of_ch_eq (hplain.read_ch x _ 32)
  split <;> exact hread.trans (modifyCh_othersKept _ _)

variable {link : Engine μ → ℕ → Engine μ}

section

variable (hplain : bus.Plain) (hlink : ∀ x l, OthersKept n x (link x l))
include hplain hlink

lemma majorDone_othersKept (t : Xfer μ) (x : Engine μ) :
    OthersKept n x (edmaMajorDone link bus t x n) := by
  unfold edmaMajorDone
  extract_lets x₁ x₂ x₃ x₄ x₅ x₆
  have h₂ : OthersKept n x₁ x₂ := by
    simp only [x₂]
    split
    · exact hlink _ _
    · exact .refl _
  have h₃ : OthersKept n x₂ x₃ := by
    simp only [x₃]
    split
    · exact loadNextTcd_othersKept hplain x₂
    · exact .refl _
  have h₅ : OthersKept n x₄ x₅ := by
    simp only [x₅]
    split
    · exact modifyCh_othersKept x₄ _
    · exact .refl _
  have hbefore := (((modifyCh_othersKept x _).trans h₂).trans h₃).trans
    ((modifyCh_othersKept x₃ _).trans h₅)
  split
  · have hint : OthersKept n x₅ x₆ := modifyCh_othersKept x₅ _
    exact hbefore.trans hint
  · exact hbefore

lemma minorLoopWith_othersKept (x : Engine μ) :
    OthersKept n x (edmaMinorLoopWith link bus x n).1 := by
  unfold edmaMinorLoopWith
  dsimp only
  split
  · exact refuse_othersKept x _
  split
  · exact refuse_othersKept x _
  have hbody : OthersKept n x (edmaMinorBody bus x n) := (OthersKept.of_ch_eq
      (move_ch hplain (x.st.ch n) (x.mark (.minor n)))).trans
      (modifyCh_othersKept _ _)
  split
  · refine hbody.trans ?_
    split
    · exact hlink _ _
    · exact .refl _
  · exact hbody.trans (majorDone_othersKept hplain hlink _ _)

lemma runWith_othersKept (x : Engine μ) : OthersKept n x (edmaRunWith link bus x n) :=
  (minorLoopWith_othersKept hplain hlink x).trans (modifyCh_othersKept _ _)

end

variable {x}

lemma linkChannel_taken (hfree : x.st.inLink = false) :
    edmaLinkChannel bus 1 x n = (edmaRunWith (edmaLinkChannel bus 0) bus
      ((x.setInLink true).modifyCh n clearDone) n).setInLink false := by
  unfold edmaLinkChannel
  rw [dif_pos n.isLt, hfree]
  rfl

lemma linkChannel_blocked (hbusy : x.st.inLink) (l : ℕ) : edmaLinkChannel bus 1 x l = x := by
  simp [edmaLinkChannel, hbusy]

lemma linkChannel_othersKept (hplain : bus.Plain) (x : Engine μ) :
    OthersKept n x (edmaLinkChannel bus 1 x n) := by
  cases hlink : x.st.inLink with
  | true =>
    rw [linkChannel_blocked hlink]
    exact .refl x
  | false =>
    rw [linkChannel_taken hlink]
    have hclear : OthersKept n x ((x.setInLink true).modifyCh n clearDone) :=
      modifyCh_othersKept (x.setInLink true) _
    exact hclear.trans (runWith_othersKept hplain (fun x _ => .refl x) _)

end Others

lemma citerLinkch_writeBack {c : Chan} (helink : c.elink) (hciter : c.citer ≠ 0) :
    citerLinkch ((c.tcdCiter &&& ~~~c.cmask) ||| (c.citer - 1)) = citerLinkch c.tcdCiter := by
  have hmask : c.cmask = citerElinkMask := by simp [cmask, helink]
  have hle : c.citer.toNat ≤ 0x1FF := by
    rw [citer, hmask, toNat_and]
    exact Nat.and_le_right
  have hpos : 0 < c.citer.toNat := Nat.pos_of_ne_zero fun h => hciter (eq_of_toNat_eq h)
  have hcount : (c.citer - 1) >>> 9 = 0#16 := by
    apply eq_of_toNat_eq
    have hsub : (c.citer - 1).toNat = c.citer.toNat - 1 := by
      rw [toNat_sub_of_le]
      · rfl
      · exact BitVec.le_def.mpr hpos
    rw [toNat_ushiftRight, hsub, shiftRight_eq_div_pow]
    exact div_eq_of_lt (by omega)
  have hkeep : (~~~citerElinkMask) >>> 9 &&& (0xF : HalfWord) = 0xF := by decide
  unfold citerLinkch
  rw [ushiftRight_or_distrib, hcount, BitVec.or_zero, hmask,
    ushiftRight_and_distrib, BitVec.and_assoc, hkeep]

variable {μ : Type} {bus : Bus μ}

lemma minorBody_citer (hplain : bus.Plain) (x : Engine μ) (n : ChanIdx) :
    ((edmaMinorBody bus x n).st.ch n).tcdCiter = ((x.st.ch n).tcdCiter &&& ~~~(x.st.ch n).cmask) |||
      ((x.st.ch n).citer - 1) := by
  simp only [edmaMinorBody, edmaWriteBack, Engine.modifyCh, EdmaState.modifyCh, update_self]
  rw [move_ch hplain]
  rfl

def memoryBus : Bus (Word → Byte) where
  read x addr _ := (x, Vector.ofFn fun i => x.mem (addr + BitVec.ofNat 32 i.val), true)
  write x addr data :=
    { x with mem := fun a =>
        let i := (a - addr).toNat
        if i < data.length then data.getD i 0 else x.mem a }

lemma memoryBus_plain : memoryBus.Plain :=
  ⟨fun _ _ _ => rfl, fun _ _ _ => rfl, fun _ _ _ => rfl, fun _ _ _ => rfl⟩

def byteToWordChan : Chan :=
  { Chan.zero with
    tcdDaddr := 0x100, tcdNbytes := 4, tcdSoff := 1, tcdAttr := 2, tcdDoff := 4, tcdCiter := 2 }

end Mcxn947.Edma
