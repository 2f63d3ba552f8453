import Mcxn947.FlexcanModel

/-!
# A frame from one FlexCAN to another

The bus hands a frame once to every other client that can receive.
-/

namespace Mcxn947.CanRoundTrip

open MachineWords Flexcan List BitVec Function FlexcanState

variable {ι : Type} [DecidableEq ι]

def busDeliver (frame : Option CanFrame) (s : FlexcanState) : FlexcanState :=
  match frame with
  | some f => if flexcanBusCanReceive s then flexcanBusReceive s f else s
  | none => s

def busWrite (nodes : ι → FlexcanState) (a : ι) (off size : ℕ) (v : Word) : ι → FlexcanState :=
  fun i =>
    if i = a then (flexcanWrite (nodes a) off size v).1
    else busDeliver (flexcanWrite (nodes a) off size v).2 (nodes i)

def idField (cs id : Word) : Word :=
  if anyBit cs mbIde then id &&& 0x1FFFFFFF else id &&& 0x1FFC0000

variable (s : FlexcanState)

def FirstListener (id : Word) (mb : ℕ) : Prop :=
  mb < mbCount ∧ Listens s id mb ∧ ∀ j < mb, ¬ Listens s id j

def Accepts (id : Word) : Prop := flexcanEnabled s = true ∧ ∃ mb < mbCount, Listens s id mb

def SameMailboxes (s s' : FlexcanState) (keep : ℕ → Prop) : Prop :=
  ∀ mb < mbCount, keep mb → ∀ k < 4, s'.mbWord mb k = s.mbWord mb k

structure Received (cs id : Word) (data : ℕ → Byte) (s s' : FlexcanState) (mb : ℕ) : Prop where
  code : mbCode (s'.mbWord mb 0) =
    if mbCode (s.mbWord mb 0) = codeRxEmpty then codeRxFull else codeRxOverrun
  id : s'.mbWord mb 1 = idField cs id
  ide : anyBit (s'.mbWord mb 0) mbIde = anyBit cs mbIde
  rtr : anyBit (s'.mbWord mb 0) mbRtr = anyBit cs mbRtr
  dlc : mbDlc (s'.mbWord mb 0) = min (mbDlc cs) 8
  bytes : ∀ i < 8, s'.mbByte mb i = if i < min (mbDlc cs) 8 then data i else 0
  others : SameMailboxes s s' (· ≠ mb)
  flag : s'.reg rIflag1 = s.reg rIflag1 ||| ((1 : Word) <<< mb)

structure Transmitted (a a' b b' : FlexcanState) (t : ℕ) (cs : Word) : Prop where
  delivered : ∀ mb, flexcanEnabled b = true → FirstListener b (idField cs (a.mbWord t 1)) mb →
    Received cs (a.mbWord t 1) (a.mbByte t) b b' mb
  ignored : ¬ Accepts b (idField cs (a.mbWord t 1)) →
    SameMailboxes b b' (fun _ => True) ∧ b'.reg rIflag1 = b.reg rIflag1
  sender : SameMailboxes (a.setWord (mbIdx t 0) cs) a' fun _ => True
  sent : (a'.reg rIflag1).getLsbD t = true
  senderLine : a'.irq = a'.interrupts
  receiverLine : b'.irq = b'.interrupts

variable {id : Word}

lemma and_or_and_of_disjoint {mask extra : Word} (h : extra &&& mask = 0) :
    ((id &&& mask) ||| extra) &&& mask = id &&& mask := by
  apply eq_of_getLsbD_eq
  intro i hi
  have hbit := congrArg (fun v => BitVec.getLsbD v i) h
  simp only [getLsbD_and, getLsbD_or, ofNat_eq_ofNat, getLsbD_zero] at hbit ⊢
  cases hmask : mask.getLsbD i <;> simp_all

lemma standard_shift (id : Word) : ((id >>> 18) &&& qemuCanSffMask) <<< 18 = id &&& 0x1FFC0000 := by
  apply eq_of_getLsbD_eq
  intro i hi
  interval_cases i <;> simp [qemuCanSffMask]

def idFlags (cs : Word) : Word :=
  (if anyBit cs mbIde then qemuCanEffFlag else 0) |||
    (if anyBit cs mbRtr then qemuCanRtrFlag else 0)

def idBits (cs id : Word) : Word :=
  if anyBit cs mbIde then id &&& qemuCanEffMask else (id >>> 18) &&& qemuCanSffMask

lemma frame_canId (tx : ℕ) : (flexcanFrame s tx).canId =
      idBits (s.mbWord tx 0) (s.mbWord tx 1) ||| idFlags (s.mbWord tx 0) := by
  unfold flexcanFrame idBits idFlags
  dsimp only
  split
  · split
    · exact BitVec.or_assoc _ _ _
    · simp
  · split <;> simp

section Identifier

variable (cs id : Word)

lemma idBits_and_flags {flag : Word} (h : qemuCanEffMask &&& flag = 0) :
    anyBit (idBits cs id) flag = false := by
  have hstd : qemuCanSffMask &&& qemuCanEffMask = qemuCanSffMask := by decide
  have hbits : idBits cs id &&& qemuCanEffMask = idBits cs id := by
    unfold idBits
    split
    · rw [BitVec.and_assoc, BitVec.and_self]
    · rw [BitVec.and_assoc, hstd]
  rw [anyBit_eq_false, ← hbits, BitVec.and_assoc, h]
  simp

lemma anyBit_eff : anyBit (idBits cs id ||| idFlags cs) qemuCanEffFlag = anyBit cs mbIde := by
  rw [anyBit_or, idBits_and_flags cs id (by decide), Bool.false_or, idFlags]
  split <;> split <;> simp_all <;> decide

lemma anyBit_rtr : anyBit (idBits cs id ||| idFlags cs) qemuCanRtrFlag = anyBit cs mbRtr := by
  rw [anyBit_or, idBits_and_flags cs id (by decide), Bool.false_or, idFlags]
  split <;> split <;> simp_all <;> decide

lemma anyBit_err : anyBit (idBits cs id ||| idFlags cs) qemuCanErrFlag = false := by
  rw [anyBit_or, idBits_and_flags cs id (by decide), Bool.false_or, idFlags]
  split <;> split <;> decide

end Identifier

variable (s : FlexcanState)

lemma frameId_flexcanFrame (tx : ℕ) :
    frameId (flexcanFrame s tx) = idField (s.mbWord tx 0) (s.mbWord tx 1) := by
  have heff : idFlags (s.mbWord tx 0) &&& qemuCanEffMask = 0 := by
    unfold idFlags
    split <;> split <;> decide
  have hstd : idFlags (s.mbWord tx 0) &&& qemuCanSffMask = 0 := by
    unfold idFlags
    split <;> split <;> decide
  unfold frameId
  rw [frame_canId, anyBit_eff]
  unfold idField idBits
  split
  · exact and_or_and_of_disjoint heff
  · rw [and_or_and_of_disjoint hstd]
    exact standard_shift _

lemma mbIdx_eq (mb k : ℕ) : mbIdx mb k = 0x20 + 4 * mb + k := by
  unfold mbIdx mbBase mbStride
  omega

variable {k mb len : ℕ}

lemma mbIdx_ne {mb' k' : ℕ} (hk : k < 4) (hk' : k' < 4) (h : mb ≠ mb' ∨ k ≠ k') :
    mbIdx mb k ≠ mbIdx mb' k' := by
  rw [mbIdx_eq, mbIdx_eq]
  omega

lemma byte_of_or (w : Word) (b : Byte) {j : ℕ} (hj : j < 4) (hk : k < 4) :
    ((w ||| (b.setWidth 32 <<< (24 - 8 * j))) >>> (24 - 8 * k)).setWidth 8 =
      if j = k then (w >>> (24 - 8 * k)).setWidth 8 ||| b else (w >>> (24 - 8 * k)).setWidth 8 := by
  apply eq_of_getLsbD_eq
  intro i hi
  interval_cases j <;> interval_cases k <;> simp [hi] <;> grind

structure Filled (s s' : FlexcanState) (mb len : ℕ) (data : ℕ → Byte) : Prop where
  frame : ∀ idx, idx ≠ mbIdx mb 2 → idx ≠ mbIdx mb 3 → s'.regs idx = s.regs idx
  bytes : ∀ i < 8, s'.mbByte mb i = if i < len then data i else 0

lemma fill_filled (mb : ℕ) (data : ℕ → Byte)
    (hlen : len ≤ 8) : Filled s (flexcanFill s mb len data) mb len data := by
  induction len with
  | zero =>
    constructor
    · intro idx h2 h3
      simp only [flexcanFill, range_zero, foldl_nil, setWord]
      rw [update_of_ne h3, update_of_ne h2]
    intro i hi
    have hword : 2 + i / 4 = 2 ∨ 2 + i / 4 = 3 := by omega
    have hne : mbIdx mb 2 ≠ mbIdx mb 3 := mbIdx_ne (by decide) (by decide) (.inr (by decide))
    simp only [flexcanFill, range_zero, foldl_nil, setWord, mbByte, mbWord]
    rcases hword with h | h <;> rw [h] <;> simp [hne]
  | succ len ih =>
    have hfilled := ih (by omega)
    have hstep : flexcanFill s mb (len + 1) data =
        (flexcanFill s mb len data).setWord (mbIdx mb (2 + len / 4))
          ((flexcanFill s mb len data).mbWord mb (2 + len / 4) |||
            ((data len).setWidth 32 <<< (24 - 8 * (len % 4)))) := by
      unfold flexcanFill
      rw [range_succ, foldl_append]
      rfl
    have hword : 2 + len / 4 = 2 ∨ 2 + len / 4 = 3 := by omega
    constructor
    · intro idx h2 h3
      have hne : idx ≠ mbIdx mb (2 + len / 4) := by
        rcases hword with h | h <;> rw [h] <;> assumption
      rw [hstep, setWord]
      exact (update_of_ne hne _ _).trans (hfilled.frame idx h2 h3)
    intro i hi
    have hbefore := hfilled.bytes i hi
    have hword' : ∀ n < 8, 2 + n / 4 < 4 := fun n hn => by omega
    unfold mbByte at hbefore ⊢
    rw [hstep]
    by_cases hlane : i / 4 = len / 4
    · have hhere : ((flexcanFill s mb len data).setWord (mbIdx mb (2 + len / 4))
          ((flexcanFill s mb len data).mbWord mb (2 + len / 4) |||
            ((data len).setWidth 32 <<< (24 - 8 * (len % 4))))).mbWord mb (2 + i / 4) =
          (flexcanFill s mb len data).mbWord mb (2 + i / 4) |||
            ((data len).setWidth 32 <<< (24 - 8 * (len % 4))) := by
        rw [hlane]
        exact update_self _ _ _
      rw [hhere, byte_of_or _ _ (by omega) (by omega), hbefore]
      by_cases hsame : len % 4 = i % 4
      · obtain rfl : i = len := by omega
        simp
      rw [if_neg hsame]
      congr 1
      simp only [eq_iff_iff]
      omega
    have hthere : ((flexcanFill s mb len data).setWord (mbIdx mb (2 + len / 4))
        ((flexcanFill s mb len data).mbWord mb (2 + len / 4) |||
          ((data len).setWidth 32 <<< (24 - 8 * (len % 4))))).mbWord mb (2 + i / 4) =
        (flexcanFill s mb len data).mbWord mb (2 + i / 4) :=
      update_of_ne (mbIdx_ne (hword' i hi) (hword' len hlen) (.inr (by omega))) _ _
    rw [hthere, hbefore]
    congr 1
    simp only [eq_iff_iff]
    omega

def csWord (code : Word) (len : ℕ) (eff rtr : Bool) : Word :=
  (code <<< 24) ||| (BitVec.ofNat 32 len <<< 16) |||
    (if eff then mbIde ||| mbSrr else 0) ||| (if rtr then mbRtr else 0)

lemma csWord_fields (full eff rtr : Bool) (len : Fin 9) :
    mbCode (csWord (if full then codeRxFull else codeRxOverrun) len eff rtr) =
      (if full then codeRxFull else codeRxOverrun) ∧
      anyBit (csWord (if full then codeRxFull else codeRxOverrun) len eff rtr) mbIde = eff ∧
      anyBit (csWord (if full then codeRxFull else codeRxOverrun) len eff rtr) mbRtr = rtr ∧
      mbDlc (csWord (if full then codeRxFull else codeRxOverrun) len eff rtr) = len := by
  revert full eff rtr len
  decide +kernel

structure Delivered (s s' : FlexcanState) (mb : ℕ) (f : CanFrame) (rxId : Word)
    (eff rtr : Bool) (len : ℕ) : Prop where
  cs : s'.mbWord mb 0 = csWord (deliveredCode (s.mbWord mb 0)) len eff rtr
  id : s'.mbWord mb 1 = rxId
  bytes : ∀ i < 8, s'.mbByte mb i = if i < len then f.data i else 0
  others : SameMailboxes s s' (· ≠ mb)
  flag : s'.reg rIflag1 = s.reg rIflag1 ||| ((1 : Word) <<< mb)
  line : s'.irq = s'.interrupts

lemma deliver_delivered (f : CanFrame) (mb : ℕ) (rxId : Word)
    (eff rtr : Bool) (hlen : len ≤ 8) :
    Delivered s (flexcanDeliver s f mb rxId eff rtr len) mb f rxId eff rtr len := by
  have hfill := fill_filled (s.setWord (mbIdx mb 1) rxId) mb f.data hlen
  set filled := flexcanFill (s.setWord (mbIdx mb 1) rxId) mb len f.data with hfilled
  -- the registers after the delivery, as two stores over the filled mailbox
  have hregs : (flexcanDeliver s f mb rxId eff rtr len).regs = update
        (update filled.regs (mbIdx mb 0) (csWord (deliveredCode (s.mbWord mb 0)) len eff rtr))
        (rIflag1 / 4)
        (update filled.regs (mbIdx mb 0)
          (csWord (deliveredCode (s.mbWord mb 0)) len eff rtr) (rIflag1 / 4) |||
            ((1 : Word) <<< mb)) := rfl
  have hmb : ∀ mb k, mbIdx mb k ≠ rIflag1 / 4 := by
    intro mb k
    rw [mbIdx_eq, rIflag1]
    omega
  have hword : ∀ mb' k, k < 4 → (mb' ≠ mb ∨ k ≠ 0) →
      (flexcanDeliver s f mb rxId eff rtr len).mbWord mb' k = filled.mbWord mb' k := by
    intro mb' k hk hne
    unfold mbWord
    rw [hregs, update_of_ne (hmb mb' k), update_of_ne (mbIdx_ne hk (by decide) hne)]
  constructor
  · unfold mbWord
    rw [hregs, update_of_ne (hmb mb 0), update_self]
    rfl
  · rw [hword mb 1 (by decide) (.inr (by decide))]
    refine (hfill.frame _ (mbIdx_ne (by decide) (by decide) (.inr (by decide)))
      (mbIdx_ne (by decide) (by decide) (.inr (by decide)))).trans ?_
    exact update_self _ _ _
  · intro i hi
    unfold mbByte
    rw [hword mb (2 + i / 4) (by omega) (.inr (by omega))]
    exact hfill.bytes i hi
  · intro mb' _ hne k hk
    rw [hword mb' k hk (.inl hne)]
    refine (hfill.frame _ (mbIdx_ne hk (by decide) (.inl hne))
      (mbIdx_ne hk (by decide) (.inl hne))).trans ?_
    exact update_of_ne (mbIdx_ne hk (by decide) (.inl hne)) _ _
  · unfold reg
    rw [hregs, update_self, update_of_ne (hmb mb 0).symm,
      hfill.frame _ (hmb mb 2).symm (hmb mb 3).symm]
    exact congrArg (· ||| _) (update_of_ne (hmb mb 1).symm _ _)
  · rfl

lemma deliveredCode_eq (cs : Word) : deliveredCode cs =
      if decide (mbCode cs = codeRxEmpty) then codeRxFull else codeRxOverrun := by
  unfold deliveredCode
  split <;> simp_all

variable {a : FlexcanState} {t : ℕ}

lemma Delivered.received {s s' : FlexcanState}
    (h : Delivered s s' mb (flexcanFrame a t) (frameId (flexcanFrame a t))
      (anyBit (flexcanFrame a t).canId qemuCanEffFlag)
      (anyBit (flexcanFrame a t).canId qemuCanRtrFlag) (flexcanFrame a t).canDlc) :
    Received (a.mbWord t 0) (a.mbWord t 1) (a.mbByte t) s s' mb := by
  have hlen : (flexcanFrame a t).canDlc = min (mbDlc (a.mbWord t 0)) 8 := by
    simp only [flexcanFrame]
    split <;> omega
  have hle : (flexcanFrame a t).canDlc < 9 := by omega
  have hcs := h.cs
  rw [frame_canId, anyBit_eff, anyBit_rtr, deliveredCode_eq] at hcs
  have hfields := csWord_fields (decide (mbCode (s.mbWord mb 0) = codeRxEmpty))
    (anyBit (a.mbWord t 0) mbIde) (anyBit (a.mbWord t 0) mbRtr)
    ⟨(flexcanFrame a t).canDlc, hle⟩
  rw [← hcs] at hfields
  refine ⟨?_, h.id.trans (frameId_flexcanFrame a t), hfields.2.1, hfields.2.2.1,
    hfields.2.2.2.trans hlen, ?_, h.others, h.flag⟩
  · rw [hfields.1]
    simp only [decide_eq_true_eq]
  intro i hi
  rw [h.bytes i hi, hlen]
  split
  next hin =>
    have hframe : (flexcanFrame a t).data i =
        if i < (flexcanFrame a t).canDlc then a.mbByte t i else 0 := rfl
    rw [hframe, hlen, if_pos hin]
  · rfl

def csOff (t : ℕ) : ℕ := mbBase + t * mbStride

def armed (a : FlexcanState) (t : ℕ) (cs : Word) : FlexcanState := a.setWord (mbIdx t 0) cs

lemma armed_reg {off : ℕ} (cs : Word) (h : off < mbBase) : (armed a t cs).reg off = a.reg off := by
  apply update_of_ne
  rw [mbIdx_eq]
  unfold mbBase at h
  omega

section

variable (a : FlexcanState) (t : ℕ) (cs : Word)

lemma armed_mbWord (hk : k < 4) (hne : k ≠ 0) : (armed a t cs).mbWord t k = a.mbWord t k :=
  update_of_ne (mbIdx_ne hk (by decide) (.inr hne)) _ _

lemma armed_mbByte {i : ℕ} (hi : i < 8) : (armed a t cs).mbByte t i = a.mbByte t i := by
  unfold mbByte
  rw [armed_mbWord a t cs (by omega) (by omega)]

lemma armed_cs : (armed a t cs).mbWord t 0 = cs := update_self _ _ _

end

lemma write_arm {cs : Word} (ht : t < mbCount)
    (henabled : flexcanEnabled a) (hlpb : anyBit (a.reg rCtrl1) ctrl1Lpb = false)
    (hbus : a.canbus) (hcode : mbCode cs = codeTxData) :
    flexcanWrite a (csOff t) 4 cs = (flexcanUpdateIrq ((armed a t cs).setReg rIflag1
      ((armed a t cs).reg rIflag1 ||| ((1 : Word) <<< t))),
      some (flexcanFrame (armed a t cs) t)) := by
  unfold mbCount at ht
  have hoff : csOff t = 4 * (0x20 + 4 * t) := by
    unfold csOff mbBase mbStride
    omega
  have hidx : csOff t / 4 = 0x20 + 4 * t := by omega
  have hlane : csOff t % 4 * 8 = 0 := by omega
  have hmb : IsMbCs (csOff t) := by
    simp only [IsMbCs, mbBase, mbCount, mbStride]
    omega
  have htx : (csOff t - mbBase) / mbStride = t := by
    simp only [mbBase, mbStride]
    omega
  have hval : (a.reg (csOff t) &&& ~~~(0xFFFFFFFF : Word)) |||
      ((cs <<< 0) &&& 0xFFFFFFFF) = cs := by
    apply eq_of_getLsbD_eq
    intro i hi
    interval_cases i <;> simp
  have hset : a.setReg (csOff t) cs = armed a t cs := by
    unfold setReg armed
    rw [hidx, mbIdx_eq, Nat.add_zero]
  have hsize : ¬ flexcanSize ≤ csOff t := by
    unfold flexcanSize
    omega
  have hne : ∀ off, off < mbBase → ¬ csOff t / 4 = off / 4 := by
    unfold mbBase
    omega
  have hro : ¬ FlexcanReadOnly (csOff t) := by
    simp only [FlexcanReadOnly, rEsr2, rCrcr, rRxfir, rFdcrc]
    omega
  have hen : flexcanEnabled (armed a t cs) := by
    unfold flexcanEnabled
    rw [armed_reg cs (by decide)]
    exact henabled
  have hlpb' : anyBit ((armed a t cs).reg rCtrl1) ctrl1Lpb = false := by
    rw [armed_reg cs (by decide)]
    exact hlpb
  have hbus' : (armed a t cs).canbus = true := hbus
  unfold flexcanWrite
  simp only [flexcanMask, if_true, hlane, hval, if_neg hsize, if_neg (hne rMcr (by decide)),
    if_neg (hne rEsr1 (by decide)), if_neg (hne rIflag1 (by decide)),
    if_neg (hne rImask1 (by decide)), if_neg hro, if_pos (And.intro hmb hcode), hset, htx]
  unfold flexcanTransmit
  simp only [hen, hlpb', hbus', Bool.not_true, Bool.not_false, Bool.and_true, if_true,
    Bool.false_eq_true, if_false]

lemma find_firstListener {s : FlexcanState} (h : FirstListener s id mb) :
    (List.range mbCount).find? (Listens s id) = some mb := by
  rw [List.find?_range_eq_some]
  refine ⟨by simpa using h.2.1, List.mem_range.mpr h.1, ?_⟩
  intro j hj
  simpa using h.2.2 j hj

lemma exists_firstListener {s : FlexcanState} (h : Accepts s id) : ∃ mb, FirstListener s id mb := by
  classical
  obtain ⟨-, hsome⟩ := h
  have hfind := Nat.find_spec hsome
  refine ⟨Nat.find hsome, hfind.1, hfind.2, fun j hj hlistens => ?_⟩
  exact Nat.find_min hsome hj ⟨lt_trans hj hfind.1, hlistens⟩

section Receiver

variable {a b : FlexcanState} {t : ℕ}

lemma frame_len (a : FlexcanState) (t : ℕ) : (flexcanFrame a t).canDlc ≤ 8 := by
  simp only [flexcanFrame]
  split <;> omega

lemma busDeliver_first (hen : flexcanEnabled b)
    (hfirst : FirstListener b (frameId (flexcanFrame a t)) mb) :
    Delivered b (busDeliver (some (flexcanFrame a t)) b) mb (flexcanFrame a t)
      (frameId (flexcanFrame a t)) (anyBit (flexcanFrame a t).canId qemuCanEffFlag)
      (anyBit (flexcanFrame a t).canId qemuCanRtrFlag) (flexcanFrame a t).canDlc := by
  have hlen := frame_len a t
  have herr : anyBit (flexcanFrame a t).canId qemuCanErrFlag = false := by
    rw [frame_canId, anyBit_err]
  have hreceive : busDeliver (some (flexcanFrame a t)) b =
      flexcanDeliver b (flexcanFrame a t) mb (frameId (flexcanFrame a t))
        (anyBit (flexcanFrame a t).canId qemuCanEffFlag)
        (anyBit (flexcanFrame a t).canId qemuCanRtrFlag) (flexcanFrame a t).canDlc := by
    simp only [busDeliver, flexcanBusCanReceive, hen, if_true, flexcanBusReceive, herr,
      Bool.false_eq_true, if_false, Bool.not_true, find_firstListener hfirst,
      if_neg (Nat.not_lt.mpr hlen)]
  rw [hreceive]
  exact deliver_delivered b _ mb _ _ _ hlen

lemma busDeliver_ignored (h : ¬ Accepts b (frameId (flexcanFrame a t))) :
    busDeliver (some (flexcanFrame a t)) b = b := by
  unfold busDeliver flexcanBusCanReceive
  dsimp only
  split
  next hen =>
    have hnone : (List.range mbCount).find? (Listens b (frameId (flexcanFrame a t))) =
        none := by
      rw [List.find?_eq_none]
      intro mb hmb hlistens
      exact h ⟨hen, mb, List.mem_range.mp hmb, by simpa using hlistens⟩
    unfold flexcanBusReceive
    rw [hnone]
    split
    · rfl
    · split <;> rfl
  · rfl

end Receiver

/-- For every enabled controller `a` on the bus, not in loopback, whose guest arms
mailbox `t`, and every other controller `b` whose interrupt line shows its condition, as it
does in every run of the machine: the transmission does everything it is for. -/
theorem can_transmission (nodes : ι → FlexcanState) (a b : ι) (hab : b ≠ a) (t : ℕ) (cs : Word)
    (ht : t < mbCount) (henabled : flexcanEnabled (nodes a) = true)
    (hlpb : anyBit ((nodes a).reg rCtrl1) ctrl1Lpb = false)
    (hbus : (nodes a).canbus = true) (hcode : mbCode cs = codeTxData)
    (hline : (nodes b).irq = (nodes b).interrupts) :
    Transmitted (nodes a) (busWrite nodes a (csOff t) 4 cs a) (nodes b)
      (busWrite nodes a (csOff t) 4 cs b) t cs := by
  have hwrite := write_arm ht henabled hlpb hbus hcode
  have ha : busWrite nodes a (csOff t) 4 cs a =
      flexcanUpdateIrq ((armed (nodes a) t cs).setReg rIflag1
        ((armed (nodes a) t cs).reg rIflag1 ||| ((1 : Word) <<< t))) := by
    simp only [busWrite, if_true, hwrite]
  have hb : busWrite nodes a (csOff t) 4 cs b =
      busDeliver (some (flexcanFrame (armed (nodes a) t cs) t)) (nodes b) := by
    simp only [busWrite, if_neg hab, hwrite]
  have hid : frameId (flexcanFrame (armed (nodes a) t cs) t) =
      idField cs ((nodes a).mbWord t 1) := by
    rw [frameId_flexcanFrame, armed_cs, armed_mbWord _ t cs (by decide) (by decide)]
  have hreceived : ∀ mb, flexcanEnabled (nodes b) = true →
      FirstListener (nodes b) (idField cs ((nodes a).mbWord t 1)) mb →
      Received cs ((nodes a).mbWord t 1) ((nodes a).mbByte t) (nodes b)
          (busWrite nodes a (csOff t) 4 cs b) mb ∧
        (busWrite nodes a (csOff t) 4 cs b).irq =
          (busWrite nodes a (csOff t) 4 cs b).interrupts := by
    intro mb hen hfirst
    rw [← hid] at hfirst
    have hdelivered := busDeliver_first hen hfirst
    have hreceived := hdelivered.received
    rw [armed_cs, armed_mbWord _ t cs (by decide) (by decide)] at hreceived
    rw [hb]
    refine ⟨{ hreceived with bytes := ?_ }, hdelivered.line⟩
    intro i hi
    rw [hreceived.bytes i hi, armed_mbByte _ t cs hi]
  have hignored : ¬ Accepts (nodes b) (idField cs ((nodes a).mbWord t 1)) →
      busWrite nodes a (csOff t) 4 cs b = nodes b := by
    intro hno
    rw [hb]
    exact busDeliver_ignored (by rwa [hid])
  constructor
  · exact fun mb hen hfirst => (hreceived mb hen hfirst).1
  · intro hno
    rw [hignored hno]
    exact ⟨fun _ _ _ _ _ => rfl, rfl⟩
  · intro mb hmb _ k hk
    rw [ha]
    apply update_of_ne
    rw [mbIdx_eq, rIflag1]
    omega
  · rw [ha]
    unfold mbCount at ht
    simp [flexcanUpdateIrq, reg, setReg, setWord, ht]
  · rw [ha]
    rfl
  by_cases haccepts : Accepts (nodes b) (idField cs ((nodes a).mbWord t 1))
  · obtain ⟨mb, hfirst⟩ := exists_firstListener haccepts
    exact (hreceived mb haccepts.1 hfirst).2
  · rwa [hignored haccepts]

def freshPair : Bool → FlexcanState := fun _ => mcxnFlexcanReset (.created true)

def senderOn (nodes : Bool → FlexcanState) : Bool → FlexcanState := busWrite nodes false 0x000 4 0

def listeningPair : Bool → FlexcanState :=
  busWrite (busWrite freshPair true 0x000 4 0) true (csOff 3) 4 0x04000000

theorem can_transmission_to_mailbox_3 : Transmitted (senderOn listeningPair false)
      (busWrite (senderOn listeningPair) false (csOff 0) 4 0x0C080000 false)
      (senderOn listeningPair true)
      (busWrite (senderOn listeningPair) false (csOff 0) 4 0x0C080000 true) 0 0x0C080000 :=
  can_transmission (senderOn listeningPair) false true (by decide) 0 0x0C080000
    (by decide) (by decide +kernel) (by decide +kernel) (by decide +kernel)
    (by decide +kernel) (by decide +kernel)

end Mcxn947.CanRoundTrip
