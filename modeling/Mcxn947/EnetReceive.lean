import Mcxn947.EnetModel

/-!
# Receiving a frame into the descriptor ring

The receive loop gives each descriptor back to the driver as soon as its buffer is filled.
-/

namespace Mcxn947.Enet

open MachineWords GuestMemory List Nat EnetState

section Ring

variable (x : Controller)

variable (s : EnetState) (j : ℕ)

def rxDesc : ℕ := s.rxBase.toNat + 16 * j

def rxCount : ℕ := s.rxRinglen.toNat

def rxBuffer : ℕ := (load32 x.mem (rxDesc x.st j)).toNat

def rxOwned : Bool := anyBit (load32 x.mem (rxDesc x.st j + 12)) desOwn

structure RxRing (i : ℕ) : Prop where
  inside : i < rxCount x.st
  cur : x.st.curRx.toNat = rxDesc x.st i
  fits : rxDesc x.st (rxCount x.st) < 2 ^ 32
  buffersApart : ∀ j < rxCount x.st, ∀ k < rxCount x.st, j ≠ k →
    Apart (rxBuffer x j) x.st.rbsz (rxBuffer x k) x.st.rbsz
  buffersOffRing : ∀ j < rxCount x.st, ∀ k < rxCount x.st,
    Apart (rxBuffer x j) x.st.rbsz (rxDesc x.st k) 16

def rxSlot (i t : ℕ) : ℕ := ringSlot (rxCount s) i t

end Ring

variable (s : EnetState)

lemma rbsz_pos : 0 < s.rbsz := by
  simp only [rbsz]
  by_cases h : ((s.regs rRxCtrl >>> 1) &&& 0x3FFF).toNat = 0 ∨
      enetFrameMax < ((s.regs rRxCtrl >>> 1) &&& 0x3FFF).toNat
  · rw [if_pos h]
    decide
  · rw [if_neg h]
    exact Nat.pos_of_ne_zero fun h0 => h (.inl h0)

lemma rxCount_pos : 0 < rxCount s := by
  rw [rxCount, rxRinglen, ringlen_toNat]
  omega

lemma rxSlot_lt (i t : ℕ) : rxSlot s i t < rxCount s := ringSlot_lt (rxCount_pos s) i t

lemma rxSlot_zero {s : EnetState} {i : ℕ} (h : i < rxCount s) : rxSlot s i 0 = i := ringSlot_zero h

lemma rxSlot_ne {s : EnetState} {i t u : ℕ} (htu : t < u) (hu : u < rxCount s) :
    rxSlot s i t ≠ rxSlot s i u :=
  ringSlot_ne htu hu

section Chunks

variable (x : Controller) (i : ℕ) (frame : List Byte)

def rxChunk (t : ℕ) : List Byte := (frame.drop (t * x.st.rbsz)).take x.st.rbsz

def writeBack (k t : ℕ) : Word :=
  (if t = 0 then desFd else 0) ||| (if t + 1 = k then desLd else 0) |||
    BitVec.ofNat 32 (min ((t + 1) * x.st.rbsz) frame.length)

structure Written (k t : ℕ) (m : Mem) : Prop where
  data : ∀ u < t, load m (rxBuffer x (rxSlot x.st i u)) (rxChunk x frame u).length =
    rxChunk x frame u
  word3 : ∀ u < t, load32 m (rxDesc x.st (rxSlot x.st i u) + 12) = writeBack x frame k u
  rest : ∀ a, (∀ u < t, ¬ Covers (rxBuffer x (rxSlot x.st i u)) (rxChunk x frame u).length a ∧
      ¬ Covers (rxDesc x.st (rxSlot x.st i u) + 12) 4 a) → m a = x.mem a

end Chunks

variable {x y : Controller} {i k t : ℕ} {frame : List Byte} {m : Mem}

lemma length_rxChunk_le (x : Controller) (frame : List Byte) (t : ℕ) :
    (rxChunk x frame t).length ≤ x.st.rbsz := by
  simp [rxChunk]

lemma writeBack_not_owned (hlen : frame.length ≤ enetFrameMax) :
    anyBit (writeBack x frame k t) desOwn = false := by
  have hsmall : min ((t + 1) * x.st.rbsz) frame.length < 2 ^ 31 :=
    lt_of_le_of_lt (Nat.min_le_right _ _) (lt_of_le_of_lt hlen (by decide))
  have hbit : (BitVec.ofNat 32 (min ((t + 1) * x.st.rbsz) frame.length)).getLsbD 31 =
      false := by
    rw [BitVec.getLsbD_ofNat, testBit_lt_two_pow hsmall]
    simp
  rw [show desOwn = BitVec.twoPow 32 31 from by decide, anyBit_twoPow]
  rw [writeBack, BitVec.getLsbD_or, BitVec.getLsbD_or, hbit]
  split <;> split <;> decide

variable {c : ℕ}

section

variable (hring : RxRing x i) (hw : Written x i frame k t m) (ht : t < rxCount x.st)
include hring hw ht

lemma Written.load32_desc (hc : c + 4 ≤ 16) : load32 m (rxDesc x.st (rxSlot x.st i t) + c) =
      load32 x.mem (rxDesc x.st (rxSlot x.st i t) + c) := by
  apply load32_congr
  rintro a ⟨hle, hlt⟩
  apply hw.rest
  intro u hu
  have hoff := hring.buffersOffRing _ (rxSlot_lt x.st i u) _ (rxSlot_lt x.st i t)
  have hne := rxSlot_ne (i := i) hu ht
  have hchunk := length_rxChunk_le x frame u
  simp only [Covers, Apart, rxDesc] at *
  omega

lemma Written.succ : Written x i frame k (t + 1)
      (store32 (store m (rxBuffer x (rxSlot x.st i t)) (rxChunk x frame t))
      (rxDesc x.st (rxSlot x.st i t) + 12) (writeBack x frame k t)) := by
  set b := rxBuffer x (rxSlot x.st i t) with hb
  set d := rxDesc x.st (rxSlot x.st i t) with hd
  have hchunk := length_rxChunk_le x frame
  have hoff : ∀ u v, Apart (rxBuffer x (rxSlot x.st i u)) x.st.rbsz
      (rxDesc x.st (rxSlot x.st i v)) 16 := fun u v =>
    hring.buffersOffRing _ (rxSlot_lt x.st i u) _ (rxSlot_lt x.st i v)
  -- an address outside the new chunk and the new word keeps its byte
  have hkeep : ∀ a, ¬ Covers b (rxChunk x frame t).length a → ¬ Covers (d + 12) 4 a →
      store32 (store m b (rxChunk x frame t)) (d + 12) (writeBack x frame k t) a = m a := by
    intro a hbuf hword
    rw [store32, store_apply_of_not_covers hword, store_apply_of_not_covers hbuf]
  refine ⟨?_, ?_, ?_⟩
  · intro u hu
    rcases Nat.lt_succ_iff_lt_or_eq.mp hu with hlt | rfl
    · have happart := hring.buffersApart _ (rxSlot_lt x.st i u) _ (rxSlot_lt x.st i t)
        (rxSlot_ne hlt ht)
      refine (load_congr ?_).trans (hw.data u hlt)
      intro a ha
      have hu' := hchunk u
      have ht' := hchunk t
      have hut := hoff u t
      apply hkeep <;> simp only [Covers, Apart] at * <;> omega
    refine (load_congr ?_).trans (load_store_self m b (rxChunk x frame u))
    intro a ha
    have hu' := hchunk u
    have huu := hoff u u
    rw [store32, store_apply_of_not_covers]
    simp only [Covers, Apart, length_wordBytes] at *
    omega
  · intro u hu
    rcases Nat.lt_succ_iff_lt_or_eq.mp hu with hlt | rfl
    · rw [← hw.word3 u hlt]
      apply load32_congr
      intro a ha
      have hne := rxSlot_ne (i := i) hlt ht
      have ht' := hchunk t
      have htu := hoff t u
      apply hkeep <;> simp only [Covers, Apart, rxDesc, hd] at * <;> omega
    · exact load32_store32_self _ _ _
  intro a ha
  have hnew := ha t (lt_succ_self t)
  rw [hkeep a hnew.1 hnew.2]
  exact hw.rest a fun u hu => ha u (lt_succ_of_lt hu)

end

variable (s : EnetState)

def rxPasses (frame : List Byte) : ℕ := max 1 ((frame.length + s.rbsz - 1) / s.rbsz)

lemma lt_rxPasses_iff (frame : List Byte) (t : ℕ) :
    t + 1 < rxPasses s frame ↔ (t + 1) * s.rbsz < frame.length := by
  have hR := rbsz_pos s
  have hceil : t + 2 ≤ (frame.length + s.rbsz - 1) / s.rbsz ↔
      (t + 2) * s.rbsz ≤ frame.length + s.rbsz - 1 := Nat.le_div_iff_mul_le hR
  have hmul : (t + 2) * s.rbsz = (t + 1) * s.rbsz + s.rbsz := by ring
  rw [rxPasses, lt_max_iff]
  omega

lemma mul_rbsz_le_length {s : EnetState} (h : t < rxPasses s frame) :
    t * s.rbsz ≤ frame.length := by
  cases t with
  | zero => simp
  | succ t => exact ((lt_rxPasses_iff s frame t).mp h).le

lemma rxPasses_eq (h : 1 ≤ frame.length) :
    rxPasses s frame = (frame.length + s.rbsz - 1) / s.rbsz := by
  have hpos : 1 ≤ (frame.length + s.rbsz - 1) / s.rbsz :=
    (Nat.le_div_iff_mul_le (rbsz_pos s)).mpr (by omega)
  exact max_eq_right hpos

lemma rxPasses_le (frame : List Byte) : rxPasses s frame ≤ frame.length + 1 := by
  by_contra h
  have hlast := (lt_rxPasses_iff s frame frame.length).mp (by omega)
  have := Nat.le_mul_of_pos_right (frame.length + 1) (rbsz_pos s)
  omega

lemma offset_succ {s : EnetState} (h : t < rxPasses s frame) :
    t * s.rbsz + min s.rbsz (frame.length - t * s.rbsz) = min ((t + 1) * s.rbsz) frame.length := by
  have hle := mul_rbsz_le_length h
  rw [Nat.add_mul, Nat.one_mul]
  omega

structure Progress (x : Controller) (i : ℕ) (frame : List Byte) (k t : ℕ)
    (y : Controller) : Prop where
  regs : y.st.regs = x.st.regs
  cur : y.st.curRx.toNat = rxDesc x.st (rxSlot x.st i t)
  mem : Written x i frame k t y.mem

structure StopsAt (x : Controller) (i k n : ℕ) : Prop where
  le_passes : n ≤ k
  le_count : n ≤ rxCount x.st
  owned : ∀ t < n, rxOwned x (rxSlot x.st i t)
  stop : n = k ∨ n = rxCount x.st ∨ rxOwned x (rxSlot x.st i n) = false

lemma exists_stopsAt (x : Controller) (i k : ℕ) : ∃ n, StopsAt x i k n := by
  classical
  have hex : ∃ n, n = k ∨ n = rxCount x.st ∨ rxOwned x (rxSlot x.st i n) = false := ⟨k, .inl rfl⟩
  refine ⟨Nat.find hex, Nat.find_min' hex (.inl rfl), Nat.find_min' hex (.inr (.inl rfl)),
    fun t ht => ?_, Nat.find_spec hex⟩
  have hnot := Nat.find_min hex ht
  simp only [not_or, Bool.not_eq_false] at hnot
  exact hnot.2.2

structure Stopped (x : Controller) (i : ℕ) (frame : List Byte) (k n : ℕ)
    (r : Controller × Bool) : Prop where
  ok : r.2 = decide (n = k)
  cur : r.1.st.curRx.toNat = rxDesc x.st (rxSlot x.st i n)
  mem : Written x i frame k n r.1.mem
  unavailable : n ≠ k → anyBit (r.1.st.regs rStatus) dmaStatRbu

lemma Progress.descRead (hring : RxRing x i) (hy : Progress x i frame k t y) (ht : t < rxCount x.st)
    (hc : c < 4) :
    enetDescRead y.mem y.st.curRx c = load32 x.mem (rxDesc x.st (rxSlot x.st i t) + 4 * c) := by
  rw [enetDescRead, hy.cur]
  exact hy.mem.load32_desc hring ht (by omega)

section Loop

variable {n : ℕ} (hring : RxRing x i) (hlen : frame.length ≤ enetFrameMax)
include hring hlen

lemma Progress.not_owned (hstop : StopsAt x i k n) (hn : n ≠ k) (hy : Progress x i frame k n y) :
    anyBit (enetDescRead y.mem y.st.curRx 3) desOwn = false := by
  by_cases hcount : n = rxCount x.st
  · rw [enetDescRead, hy.cur, hcount, rxSlot, ringSlot_full, ← rxSlot,
      hy.mem.word3 0 (hcount ▸ rxCount_pos x.st)]
    exact writeBack_not_owned hlen
  · rw [hy.descRead hring (lt_of_le_of_ne hstop.le_count hcount) (by decide)]
    exact (hstop.stop.resolve_left hn).resolve_left hcount

lemma Progress.pass (hk : k = rxPasses x.st frame) (hy : Progress x i frame k t y)
    (htk : t < k) (ht : t < rxCount x.st) :
    Progress x i frame k (t + 1) (deliverChunk frame y (t * x.st.rbsz) (decide (t = 0))).1 := by
  subst hk
  have hR : y.st.rbsz = x.st.rbsz := by simp only [rbsz, hy.regs]
  have hbase : y.st.rxBase = x.st.rxBase := by simp only [rxBase, hy.regs]
  have hcount : y.st.rxRinglen = x.st.rxRinglen := by simp only [rxRinglen, hy.regs]
  have hslot := rxSlot_lt x.st i t
  have hfits := hring.fits
  have hmem := hy.mem.succ hring ht
  -- the chunk and the word are those of position t
  have hchunk : (frame.drop (t * x.st.rbsz)).take
      (min x.st.rbsz (frame.length - t * x.st.rbsz)) = rxChunk x frame t := by
    rw [rxChunk, ← length_drop, ← take_eq_take_min]
  have hlast : frame.length ≤ min ((t + 1) * x.st.rbsz) frame.length ↔
      t + 1 = rxPasses x.st frame := by
    have hmore := lt_rxPasses_iff x.st frame t
    omega
  have hlength : BitVec.ofNat 32 (min ((t + 1) * x.st.rbsz) frame.length) &&&
      rdes3PlMask = BitVec.ofNat 32 (min ((t + 1) * x.st.rbsz) frame.length) := by
    apply BitVec.eq_of_toNat_eq
    have hsmall : frame.length ≤ 2048 := hlen
    rw [BitVec.toNat_and, BitVec.toNat_ofNat,
      show rdes3PlMask.toNat = 2 ^ 15 - 1 from rfl, and_two_pow_sub_one_eq_mod]
    omega
  have hword : (y.st.curRx + 12).toNat = rxDesc x.st (rxSlot x.st i t) + 12 := by
    have hcur := hy.cur
    simp only [rxDesc] at hcur hfits ⊢
    rw [add_twelve_toNat (by omega), hcur]
  refine ⟨hy.regs, ?_, ?_⟩
  · simp only [deliverChunk, hbase, hcount]
    exact nextDesc_toNat (rxCount_pos x.st) hy.cur hfits
  simp only [deliverChunk]
  rw [hR, hy.descRead hring ht (by decide), hchunk, offset_succ htk, hlength,
    enetDescWriteWord3, hword]
  simpa only [writeBack, rxBuffer, hlast, decide_eq_true_eq, Nat.mul_zero, Nat.add_zero] using hmem

lemma deliverLoop_stops (hk : k = rxPasses x.st frame) (hstop : StopsAt x i k n) :
    ∀ fuel t y, t ≤ n → t < k → k ≤ t + fuel → Progress x i frame k t y → Stopped x i frame k n
      (deliverLoop frame fuel y (t * x.st.rbsz) (decide (t = 0))) := by
  intro fuel
  induction fuel with
  | zero => intro t y _ htk hfuel; omega
  | succ fuel ih =>
    intro t y htn htk hfuel hy
    rw [deliverLoop]
    rcases htn.eq_or_lt with rfl | hlt
    · -- the loop stops here, short of the frame's end
      have hno := hy.not_owned hring hlen hstop htk.ne
      rw [if_pos (by rw [hno]; rfl)]
      refine ⟨by simp [htk.ne], hy.cur, hy.mem, fun _ => ?_⟩
      have hself : anyBit dmaStatRbu dmaStatRbu := by decide
      simp [mcxnEnetUpdateIrq, orReg, setReg, hself]
    have ht : t < rxCount x.st := hlt.trans_le hstop.le_count
    have howned : anyBit (enetDescRead y.mem y.st.curRx 3) desOwn := by
      rw [hy.descRead hring ht (by decide)]
      exact hstop.owned t hlt
    have hnext := hy.pass hring hlen hk htk ht
    have hoff : (deliverChunk frame y (t * x.st.rbsz) (decide (t = 0))).2 =
        min ((t + 1) * x.st.rbsz) frame.length := by
      have hR : y.st.rbsz = x.st.rbsz := by simp only [rbsz, hy.regs]
      simp only [deliverChunk, hR]
      exact offset_succ (hk ▸ htk)
    have hmore := lt_rxPasses_iff x.st frame t
    rw [if_neg (by rw [howned]; decide)]
    simp only [hoff]
    by_cases hlast : t + 1 = k
    · have hn : n = k := by
        have := hstop.le_passes
        omega
      rw [if_neg (by omega)]
      subst hn
      rw [hlast] at hnext
      exact ⟨by simp, hnext.cur, hnext.mem, fun h => absurd rfl h⟩
    have hoffset : min ((t + 1) * x.st.rbsz) frame.length = (t + 1) * x.st.rbsz := by omega
    rw [if_pos (by omega), hoffset]
    have := ih (t + 1) _ hlt (by omega) (by omega) hnext
    simpa using this

end Loop

lemma deliver_stops {n : ℕ} (hring : RxRing x i)
    (hlen : frame.length ≤ enetFrameMax) (hon : x.st.rxEnabled)
    (hstop : StopsAt x i (rxPasses x.st frame) n) :
    Stopped x i frame (rxPasses x.st frame) n (mcxnEnetDeliver x frame) := by
  have hstart : Progress x i frame (rxPasses x.st frame) 0 x :=
    ⟨rfl, by rw [rxSlot_zero hring.inside]; exact hring.cur, ⟨by simp, by simp, fun _ _ => rfl⟩⟩
  have hpos : 0 < rxPasses x.st frame := lt_of_lt_of_le one_pos (le_max_left _ _)
  have hfuel := rxPasses_le x.st frame
  have hrun := deliverLoop_stops hring hlen rfl hstop (frame.length + 1) 0 x
    (Nat.zero_le n) hpos (by omega) hstart
  rw [mcxnEnetDeliver, if_neg (by rw [hon]; decide), take_of_length_le hlen]
  simpa using hrun

def Available (x : Controller) (i k : ℕ) : Prop :=
  k ≤ rxCount x.st ∧ ∀ t < k, rxOwned x (rxSlot x.st i t)

structure Received (x : Controller) (i : ℕ) (frame : List Byte) (k : ℕ)
    (r : Controller × Bool) : Prop where
  ok : r.2 = true
  bytes : (List.range k).flatMap (fun t =>
      load r.1.mem (rxBuffer x (rxSlot x.st i t)) (rxChunk x frame t).length) = frame
  memory : Written x i frame k k r.1.mem
  released : ∀ t < k, anyBit (writeBack x frame k t) desOwn = false
  cur : r.1.st.curRx.toNat = rxDesc x.st (rxSlot x.st i k)

structure Refused (x : Controller) (r : Controller × Bool) : Prop where
  failed : r.2 = false
  descriptors : ∀ j < rxCount x.st, ∀ a, Covers (rxDesc x.st j) 16 a → r.1.mem a = x.mem a
  buffers : ∀ j < rxCount x.st, ∀ a, Covers (rxBuffer x j) x.st.rbsz a → r.1.mem a = x.mem a
  cur : r.1.st.curRx = x.st.curRx
  unavailable : x.st.rxEnabled = true → anyBit (r.1.st.regs rStatus) dmaStatRbu

/-- A frame is stored whole where its buffers are available and leaves no trace otherwise. -/
def AllOrNothing (x : Controller) (i : ℕ) (frame : List Byte) : Prop :=
  let k := (frame.length + x.st.rbsz - 1) / x.st.rbsz
  (x.st.rxEnabled = true ∧ Available x i k → Received x i frame k (mcxnEnetDeliver x frame)) ∧
  (¬ (x.st.rxEnabled = true ∧ Available x i k) → Refused x (mcxnEnetDeliver x frame))

lemma flatMap_rxChunk (x : Controller) (frame : List Byte) (k : ℕ) :
    (List.range k).flatMap (rxChunk x frame) = frame.take (k * x.st.rbsz) := by
  induction k with
  | zero => simp
  | succ k ih =>
    rw [range_succ, flatMap_append, ih, Nat.add_mul, Nat.one_mul, take_add]
    simp [rxChunk]

lemma StopsAt.available_iff {n : ℕ} (hstop : StopsAt x i k n) : Available x i k ↔ n = k := by
  constructor
  · rintro ⟨hcount, howned⟩
    have hle := hstop.le_passes
    rcases hstop.stop with h | h | h
    · exact h
    · omega
    by_contra hne
    have := howned n (lt_of_le_of_ne hle hne)
    simp [h] at this
  · rintro rfl
    exact ⟨hstop.le_count, hstop.owned⟩

lemma Stopped.received (hlen : frame.length ≤ enetFrameMax) {r : Controller × Bool}
    (hr : Stopped x i frame (rxPasses x.st frame) (rxPasses x.st frame) r) :
    Received x i frame (rxPasses x.st frame) r := by
  refine ⟨by simpa using hr.ok, ?_, hr.mem, fun _ _ => writeBack_not_owned hlen, hr.cur⟩
  have hloads : ∀ t ∈ List.range (rxPasses x.st frame),
      load r.1.mem (rxBuffer x (rxSlot x.st i t)) (rxChunk x frame t).length =
        rxChunk x frame t := fun t ht => hr.mem.data t (List.mem_range.mp ht)
  rw [flatMap_congr hloads, flatMap_rxChunk]
  apply take_of_length_le
  -- past the last chunk there are no bytes left
  obtain ⟨t, ht⟩ : ∃ t, rxPasses x.st frame = t + 1 :=
    ⟨rxPasses x.st frame - 1, by have : 1 ≤ rxPasses x.st frame := le_max_left _ _; omega⟩
  have hmore := lt_rxPasses_iff x.st frame t
  rw [ht] at hmore ⊢
  omega

lemma Written.eq_of_zero (h : Written x i frame k 0 m) : m = x.mem :=
  funext fun a => h.rest a fun u hu => absurd hu (Nat.not_lt_zero u)

/-- Ethernet receive is all-or-nothing exactly when the receiver is off, the first
descriptor is the driver's, or there is room for the whole frame. -/
theorem deliver_all_or_nothing_iff (x : Controller) (i : ℕ) (frame : List Byte)
    (hring : RxRing x i) (hpos : 1 ≤ frame.length)
    (hlen : frame.length ≤ enetFrameMax) :
    AllOrNothing x i frame ↔ (x.st.rxEnabled = true → rxOwned x i = true →
        Available x i ((frame.length + x.st.rbsz - 1) / x.st.rbsz)) := by
  simp only [AllOrNothing, ← rxPasses_eq x.st hpos]
  cases hon : x.st.rxEnabled with
  | false =>
    have hrefused : Refused x (mcxnEnetDeliver x frame) := by
      rw [mcxnEnetDeliver, if_pos (by rw [hon]; rfl)]
      exact ⟨rfl, fun _ _ _ _ => rfl, fun _ _ _ _ => rfl, rfl, by simp [hon]⟩
    simp [hrefused]
  | true =>
    obtain ⟨n, hstop⟩ := exists_stopsAt x i (rxPasses x.st frame)
    have hr := deliver_stops hring hlen hon hstop
    have hfirst : rxSlot x.st i 0 = i := rxSlot_zero hring.inside
    simp only [true_and, hstop.available_iff, forall_const]
    constructor
    · rintro ⟨-, hrefuse⟩ howned
      by_contra hne
      -- the first descriptor has been given back
      have hstart : n ≠ 0 := by
        rintro rfl
        rcases hstop.stop with h | h | h
        · omega
        · have := rxCount_pos x.st
          omega
        · simp [hfirst, howned] at h
      have hgiven := hr.mem.word3 0 (Nat.pos_of_ne_zero hstart)
      have hsame : load32 (mcxnEnetDeliver x frame).1.mem (rxDesc x.st i + 12) =
          load32 x.mem (rxDesc x.st i + 12) := by
        apply load32_congr
        rintro a ⟨hle, hlt⟩
        exact (hrefuse hne).descriptors i hring.inside a ⟨by omega, by omega⟩
      rw [hfirst, hsame] at hgiven
      have hclear := writeBack_not_owned (x := x) (k := rxPasses x.st frame) (t := 0) hlen
      rw [← hgiven] at hclear
      simp [rxOwned, hclear] at howned
    intro hcond
    constructor
    · rintro rfl
      exact hr.received hlen
    intro hne
    have hzero : n = 0 := by
      by_contra h
      have := hstop.owned 0 (Nat.pos_of_ne_zero h)
      rw [hfirst] at this
      exact hne (hcond this)
    subst hzero
    have hmem := hr.mem.eq_of_zero
    refine ⟨by simpa [hne] using hr.ok, ?_, ?_, ?_, fun _ => hr.unavailable hne⟩
    · intro _ _ _ _; rw [hmem]
    · intro _ _ _ _; rw [hmem]
    · apply BitVec.eq_of_toNat_eq
      rw [hr.cur, hfirst, hring.cur]

def twoBuffers (second : Bool) : Controller where
  st :=
    { regs := fun r =>
        if r = rMacConfiguration then macCfgRe
        else if r = rRxCtrl then (4 <<< 1) ||| dmaRxSr
        else if r = rRxdescList then 0x100
        else if r = rRxringLen then 1
        else 0
      phy := fun _ => 0
      curTx := 0
      curRx := 0x100
      irq := false }
  mem := fun a =>
    if a = 0x101 then 2 else if a = 0x10F then 0x80
    else if a = 0x111 then 3 else if a = 0x11F ∧ second then 0x80 else 0
  queued := []
  sent := []
  released := []

lemma rxRing_twoBuffers (second : Bool) : RxRing (twoBuffers second) 0 := by
  cases second <;>
    exact ⟨by decide, by decide, by decide, by decide, by decide⟩

theorem deliver_all_or_nothing_two_buffers : (twoBuffers true).st.rxEnabled = true ∧
      AllOrNothing (twoBuffers true) 0 [1, 2, 3, 4, 5, 6, 7, 8] :=
  ⟨by decide, (deliver_all_or_nothing_iff (twoBuffers true) 0 [1, 2, 3, 4, 5, 6, 7, 8]
    (rxRing_twoBuffers true) (by decide) (by decide)).mpr
      fun _ _ => ⟨by decide, by decide⟩⟩

theorem partial_frame_released : RxRing (twoBuffers false) 0 ∧
      ¬ AllOrNothing (twoBuffers false) 0 [1, 2, 3, 4, 5, 6, 7, 8] := by
  refine ⟨rxRing_twoBuffers false, fun h => ?_⟩
  have hmissing : ¬ ((twoBuffers false).st.rxEnabled = true ∧ Available (twoBuffers false) 0
        ((8 + (twoBuffers false).st.rbsz - 1) / (twoBuffers false).st.rbsz)) := by
    rintro ⟨-, -, howned⟩
    have := howned 1 (by decide)
    revert this
    decide
  have hsame := (h.2 hmissing).descriptors 0 (by decide) 0x10F ⟨by decide, by decide⟩
  revert hsame
  decide

end Mcxn947.Enet
