import Mcxn947.AlignedBlocks
import Mcxn947.EnetReceive

/-!
# Transmitting from the descriptor ring

A write to the transmit tail pointer hands descriptors to the DMA.
-/

namespace Mcxn947.Enet

open MachineWords GuestMemory List Nat EnetState

structure SameTransmit (x y : Controller) : Prop where
  regs : ∀ r, r ≠ rStatus → y.st.regs r = x.st.regs r
  ti : anyBit (y.st.regs rStatus) dmaStatTi = anyBit (x.st.regs rStatus) dmaStatTi
  curTx : y.st.curTx = x.st.curTx
  sent : y.sent = x.sent
  released : y.released = x.released

lemma SameTransmit.refl (x : Controller) : SameTransmit x x := ⟨fun _ _ => rfl, rfl, rfl, rfl, rfl⟩

lemma SameTransmit.trans {x y z : Controller} (hxy : SameTransmit x y)
    (hyz : SameTransmit y z) : SameTransmit x z :=
  ⟨fun r hr => (hyz.regs r hr).trans (hxy.regs r hr), hyz.ti.trans hxy.ti,
    hyz.curTx.trans hxy.curTx, hyz.sent.trans hxy.sent, hyz.released.trans hxy.released⟩

lemma SameTransmit.orStatus (x : Controller) {bits : Word} (h : anyBit bits dmaStatTi = false) :
    SameTransmit x { x with st := mcxnEnetUpdateIrq (x.st.orReg rStatus bits) } := by
  refine ⟨fun r hr => ?_, ?_, rfl, rfl, rfl⟩
  · simp [mcxnEnetUpdateIrq, orReg, setReg, hr]
  · simp [mcxnEnetUpdateIrq, orReg, setReg, h]

lemma deliverLoop_sameTransmit (frame : List Byte) :
    ∀ fuel x off first, SameTransmit x (deliverLoop frame fuel x off first).1 := by
  intro fuel
  induction fuel with
  | zero => intro x off first; exact .refl x
  | succ fuel ih =>
    intro x off first
    have hchunk : SameTransmit x (deliverChunk frame x off first).1 :=
      ⟨fun _ _ => rfl, rfl, rfl, rfl, rfl⟩
    rw [deliverLoop]
    split
    · exact .orStatus x (by decide)
    dsimp only
    split
    · exact hchunk.trans (ih _ _ _)
    · exact hchunk.trans (.orStatus _ (by decide))

lemma deliver_sameTransmit (x : Controller) (frame : List Byte) :
    SameTransmit x (mcxnEnetDeliver x frame).1 := by
  rw [mcxnEnetDeliver]
  split
  · exact .refl x
  · exact deliverLoop_sameTransmit _ _ _ _ _

structure RxClearOf (area : ℕ → Prop) (x : Controller) : Prop where
  ring : ∃ j, RxRing x j
  clear : ∀ a, area a → ∀ j < rxCount x.st,
    ¬ Covers (rxBuffer x j) x.st.rbsz a ∧ ¬ Covers (rxDesc x.st j) 16 a

variable (s : EnetState) {area : ℕ → Prop}

lemma RxClearOf.of_same {x y : Controller} (hx : RxClearOf area x)
    (hbase : y.st.rxBase = x.st.rxBase) (hlen : y.st.rxRinglen = x.st.rxRinglen)
    (hsize : y.st.rbsz = x.st.rbsz) (hcur : ∃ j < rxCount x.st, y.st.curRx.toNat = rxDesc x.st j)
    (hbuf : ∀ j < rxCount x.st, load32 y.mem (rxDesc x.st j) = load32 x.mem (rxDesc x.st j)) :
    RxClearOf area y := by
  obtain ⟨i, hring⟩ := hx.ring
  obtain ⟨j, hj, hcur⟩ := hcur
  have hcount : rxCount y.st = rxCount x.st := by rw [rxCount, hlen]; rfl
  have hdesc : rxDesc y.st = rxDesc x.st := by funext k; simp only [rxDesc, hbase]
  have hbuffer : ∀ k < rxCount x.st, rxBuffer y k = rxBuffer x k := fun k hk => by
    rw [rxBuffer, hdesc, hbuf k hk]; rfl
  refine ⟨⟨j, ?_, ?_, ?_, ?_, ?_⟩, ?_⟩
  · rw [hcount]; exact hj
  · rw [hdesc]; exact hcur
  · rw [hdesc, hcount]; exact hring.fits
  · intro k hk l hl hne
    rw [hcount] at hk hl
    rw [hbuffer k hk, hbuffer l hl, hsize]
    exact hring.buffersApart k hk l hl hne
  · intro k hk l hl
    rw [hcount] at hk hl
    rw [hbuffer k hk, hdesc, hsize]
    exact hring.buffersOffRing k hk l hl
  intro a ha k hk
  rw [hcount] at hk
  rw [hbuffer k hk, hdesc, hsize]
  exact hx.clear a ha k hk

lemma RxClearOf.of_same_mem {x y : Controller} (hx : RxClearOf area x)
    (hregs : ∀ c, c ≠ rStatus → c ≠ rTxdescTail → y.st.regs c = x.st.regs c)
    (hcur : y.st.curRx = x.st.curRx) (hmem : y.mem = x.mem) : RxClearOf area y := by
  obtain ⟨j, hj⟩ := hx.ring
  refine hx.of_same ?_ ?_ ?_ ⟨j, hj.inside, by rw [hcur]; exact hj.cur⟩
    fun _ _ => by rw [hmem]
  · rw [rxBase, hregs _ (by decide) (by decide)]; rfl
  · rw [rxRinglen, hregs _ (by decide) (by decide)]; rfl
  · simp only [rbsz, hregs rRxCtrl (by decide) (by decide)]

lemma SameTransmit.rxRegs {x y : Controller} (h : SameTransmit x y) :
    y.st.rxBase = x.st.rxBase ∧ y.st.rxRinglen = x.st.rxRinglen ∧ y.st.rbsz = x.st.rbsz := by
  refine ⟨?_, ?_, ?_⟩
  · rw [rxBase, h.regs _ (by decide)]; rfl
  · rw [rxRinglen, h.regs _ (by decide)]; rfl
  · simp only [rbsz, h.regs rRxCtrl (by decide)]

lemma RxClearOf.deliver {x : Controller} (hx : RxClearOf area x)
    {frame : List Byte} (hlen : frame.length ≤ enetFrameMax) :
    RxClearOf area (mcxnEnetDeliver x frame).1 ∧
      ∀ a, area a → (mcxnEnetDeliver x frame).1.mem a = x.mem a := by
  obtain ⟨i, hring⟩ := hx.ring
  cases hon : x.st.rxEnabled with
  | false =>
    rw [mcxnEnetDeliver, if_pos (by rw [hon]; rfl)]
    exact ⟨hx, fun _ _ => rfl⟩
  | true =>
    obtain ⟨n, hstop⟩ := exists_stopsAt x i (rxPasses x.st frame)
    have hr := deliver_stops hring hlen hon hstop
    obtain ⟨hbase, hringlen, hsize⟩ := (deliver_sameTransmit x frame).rxRegs
    constructor
    · refine hx.of_same hbase hringlen hsize ⟨_, rxSlot_lt x.st i n, hr.cur⟩ ?_
      intro j hj
      apply load32_congr
      rintro a ⟨hle, hlt⟩
      apply hr.mem.rest
      intro u hu
      have hoff := hring.buffersOffRing _ (rxSlot_lt x.st i u) j hj
      have hchunk := length_rxChunk_le x frame u
      simp only [Covers, Apart, rxDesc] at *
      omega
    intro a ha
    apply hr.mem.rest
    intro u hu
    have hclear := hx.clear a ha _ (rxSlot_lt x.st i u)
    have hchunk := length_rxChunk_le x frame u
    simp only [Covers] at *
    omega

def txDesc (j : ℕ) : ℕ := s.txBase.toNat + 16 * j

def txCount : ℕ := s.txRinglen.toNat

lemma txCount_pos : 0 < txCount s := by
  rw [txCount, txRinglen, ringlen_toNat]
  omega

section Ring

variable (x : Controller) (i : ℕ)

def txAddr (t : ℕ) : ℕ := txDesc x.st (ringSlot (txCount x.st) i t)

def txWord (t c : ℕ) : Word := load32 x.mem (txAddr x i t + 4 * c)

def txLen1 (t : ℕ) : ℕ := (txWord x i t 2 &&& 0x3FFF).toNat

def txLen2 (t : ℕ) : ℕ := ((txWord x i t 2 >>> 16) &&& 0x3FFF).toNat

def txBuffers (t : ℕ) : List Byte :=
  load x.mem (txWord x i t 0).toNat (txLen1 x i t) ++
    load x.mem (txWord x i t 1).toNat (txLen2 x i t)

def TxArea (total a : ℕ) : Prop :=
  ∃ t < total, Covers (txAddr x i t) 16 a ∨ Covers (txWord x i t 0).toNat (txLen1 x i t) a ∨
    Covers (txWord x i t 1).toNat (txLen2 x i t) a

/-- The transmitter is on, `cur_tx` is descriptor `i`, the next `total` descriptors
are being handed over and do not overlap their buffers, nor the receive ring if
frames are looped back. -/
structure TxRing (total : ℕ) : Prop where
  inside : i < txCount x.st
  cur : x.st.curTx.toNat = txDesc x.st i
  fits : txDesc x.st (txCount x.st) < 2 ^ 32
  room : total < txCount x.st
  enabled : x.st.txEnabled = true
  buffersOffRing : ∀ t < total, ∀ u < total,
    Apart (txWord x i t 0).toNat (txLen1 x i t) (txAddr x i u) 16 ∧
    Apart (txWord x i t 1).toNat (txLen2 x i t) (txAddr x i u) 16
  loopback : x.st.loopback = true → RxClearOf (TxArea x i total) x

structure IsPacket (p n : ℕ) : Prop where
  pos : 0 < n
  owned : ∀ t < n, anyBit (txWord x i (p + t) 3) desOwn = true
  first : ∀ t < n, anyBit (txWord x i (p + t) 3) desFd = decide (t = 0)
  last : ∀ t < n, anyBit (txWord x i (p + t) 3) desLd = decide (t + 1 = n)

def packetBytes (p n : ℕ) : List Byte := (List.range n).flatMap fun t => txBuffers x i (p + t)

def packetIoc (p n : ℕ) : Bool := (List.range n).any fun t => anyBit (txWord x i (p + t) 2) tdes2Ioc

def Packets : ℕ → List ℕ → Prop
  | _, [] => True
  | p, n :: ns =>
    IsPacket x i p n ∧ (packetBytes x i p n).length ≤ enetFrameMax ∧ Packets (p + n) ns

def packetFrames : ℕ → List ℕ → List (List Byte)
  | _, [] => []
  | p, n :: ns => packetBytes x i p n :: packetFrames (p + n) ns

def packetsIoc : ℕ → List ℕ → Bool
  | _, [] => false
  | p, n :: ns => packetIoc x i p n || packetsIoc (p + n) ns

end Ring

variable {x y : Controller} {i total : ℕ}

lemma txAddr_ne (x : Controller) (i : ℕ) {t u : ℕ} (htu : t < u) (hu : u < txCount x.st) :
    txAddr x i t + 16 ≤ txAddr x i u ∨ txAddr x i u + 16 ≤ txAddr x i t := by
  have hne := ringSlot_ne (i := i) htu hu
  simp only [txAddr, txDesc]
  omega

lemma TxRing.txAddr_lt (hring : TxRing x i total) (t : ℕ) : txAddr x i t + 16 < 2 ^ 32 := by
  have hfits := hring.fits
  have hslot := ringSlot_lt (txCount_pos x.st) i t
  simp only [txAddr, txDesc] at *
  omega

/-- `given` descriptors have been given back, `cur_tx` is at position `cur`, the
frames `frames` have been sent, `ti` says whether one of them asked for an interrupt
and `tail` is the tail register. -/
structure TxRun where
  (given cur : ℕ)
  frames : List (List Byte)
  ti : Bool
  tail : Word

structure TxAt (x : Controller) (i total : ℕ) (r : TxRun) (y : Controller) : Prop where
  regs : ∀ c, c ≠ rStatus → c ≠ rTxdescTail → y.st.regs c = x.st.regs c
  tail : y.st.regs rTxdescTail = r.tail
  cur : y.st.curTx.toNat = txAddr x i r.cur
  sent : y.sent = x.sent ++ r.frames
  ti : anyBit (y.st.regs rStatus) dmaStatTi = (anyBit (x.st.regs rStatus) dmaStatTi || r.ti)
  released : y.released.map BitVec.toNat =
    x.released.map BitVec.toNat ++ (List.range r.given).map (txAddr x i)
  given : ∀ t < r.given, load32 y.mem (txAddr x i t + 12) = txWord x i t 3 &&& ~~~desOwn
  keep : ∀ a, TxArea x i total a ∨ x.st.loopback = false →
    (∀ t < r.given, ¬ Covers (txAddr x i t + 12) 4 a) → y.mem a = x.mem a
  rx : x.st.loopback = true → RxClearOf (TxArea x i total) y

section Walk

variable {r : TxRun} (hring : TxRing x i total)
include hring
variable {c u q n : ℕ} {start : TxLocals} {ns : List ℕ}

section

variable (hy : TxAt x i total r y)
include hy

lemma TxAt.load32_desc (hu : u < total) (hgiven : r.given ≤ u) (hc : c < 4) :
    load32 y.mem (txAddr x i u + 4 * c) = txWord x i u c := by
  apply load32_congr
  rintro a ⟨hle, hlt⟩
  apply hy.keep a (.inl ⟨u, hu, .inl ⟨by omega, by omega⟩⟩)
  intro t ht
  have hapart := txAddr_ne x i (lt_of_lt_of_le ht hgiven) (hu.trans hring.room)
  simp only [Covers]
  omega

lemma TxAt.load_buffers (hu : u < total) (hgiven : r.given ≤ total) :
    load y.mem (txWord x i u 0).toNat (txLen1 x i u) ++
      load y.mem (txWord x i u 1).toNat (txLen2 x i u) = txBuffers x i u := by
  have hoff := hring.buffersOffRing u hu
  congr 1
  · apply load_congr
    intro a ha
    apply hy.keep a (.inl ⟨u, hu, .inr (.inl ha)⟩)
    intro t ht
    have hapart := (hoff t (by omega)).1
    simp only [Covers, Apart] at *
    omega
  apply load_congr
  intro a ha
  apply hy.keep a (.inl ⟨u, hu, .inr (.inr ha)⟩)
  intro t ht
  have hapart := (hoff t (by omega)).2
  simp only [Covers, Apart] at *
  omega

lemma TxAt.descRead (hcur : r.cur < total) (hgiven : r.given ≤ r.cur) (hc : c < 4) :
    enetDescRead y.mem y.st.curTx c = txWord x i r.cur c := by
  rw [enetDescRead, hy.cur]
  exact hy.load32_desc hring hcur hgiven hc

lemma TxAt.release (hcur : r.cur < total) (hgiven : r.given = r.cur) :
    TxAt x i total { r with given := r.cur + 1 } (txRelease y) := by
  have hword : (y.st.curTx + 12).toNat = txAddr x i r.cur + 12 := by
    have hlt := hring.txAddr_lt r.cur
    rw [add_twelve_toNat (by rw [hy.cur]; omega), hy.cur]
  have hread := hy.descRead hring hcur hgiven.le (c := 3) (by decide)
  have hmem : (txRelease y).mem =
      store32 y.mem (txAddr x i r.cur + 12) (txWord x i r.cur 3 &&& ~~~desOwn) := by
    rw [txRelease, enetDescWriteWord3, hword, hread]
  have houtside : ∀ a, ¬ Covers (txAddr x i r.cur + 12) 4 a → (txRelease y).mem a = y.mem a := by
    intro a ha
    rw [hmem, store32, store_apply_of_not_covers ha]
  refine ⟨hy.regs, hy.tail, hy.cur, hy.sent, hy.ti, ?_, ?_, ?_, ?_⟩
  · simp [txRelease, hy.released, hy.cur, hgiven, range_succ]
  · intro t ht
    rcases Nat.lt_succ_iff_lt_or_eq.mp ht with hlt | rfl
    · rw [← hy.given t (by omega)]
      apply load32_congr
      rintro a ⟨hle, hlt'⟩
      apply houtside
      have hapart := txAddr_ne x i hlt (hcur.trans hring.room)
      simp only [Covers]
      omega
    · rw [hmem]
      exact load32_store32_self _ _ _
  · intro a ha hnot
    rw [houtside a (hnot r.cur (lt_succ_self _))]
    exact hy.keep a ha fun t ht => hnot t (by simp only; omega)
  intro hloop
  have hrx := hy.rx hloop
  obtain ⟨j, hj⟩ := hrx.ring
  refine hrx.of_same rfl rfl rfl ⟨j, hj.inside, hj.cur⟩ ?_
  intro k hk
  apply load32_congr
  rintro a ⟨hle, hlt⟩
  apply houtside
  rintro ⟨hle', hlt'⟩
  -- the descriptor given back is in the area that the receive ring avoids
  have harea : TxArea x i total a := ⟨r.cur, hcur, .inl ⟨by omega, by omega⟩⟩
  exact (hrx.clear a harea k hk).2 ⟨hle, by omega⟩

end

omit hring in
lemma TxAt.send (hy : TxAt x i total r y) (hgiven : r.given ≤ total)
    {frame : List Byte} (hlen : frame.length ≤ enetFrameMax) :
    TxAt x i total { r with frames := r.frames ++ [frame] } (sendFrame y frame) := by
  have hloop : y.st.loopback = x.st.loopback := by
    rw [loopback, hy.regs _ (by decide) (by decide)]; rfl
  -- the state in which the frame is handed out
  let z : Controller := { y with sent := y.sent ++ [frame] }
  have hz : TxAt x i total { r with frames := r.frames ++ [frame] } z :=
    ⟨hy.regs, hy.tail, hy.cur, by simp [z, hy.sent], hy.ti, hy.released, hy.given, hy.keep,
      fun h => (hy.rx h).of_same_mem (fun _ _ _ => rfl) rfl rfl⟩
  have hsend : sendFrame y frame = if x.st.loopback then (mcxnEnetDeliver z frame).1 else z := by
    rw [← hloop]; rfl
  rw [hsend]
  cases hmode : x.st.loopback with
  | false => exact hz
  | true =>
    have hsame := deliver_sameTransmit z frame
    obtain ⟨hrx, hmem⟩ := (hz.rx hmode).deliver hlen
    refine ⟨fun c hc hc' => (hsame.regs c hc).trans (hz.regs c hc hc'),
      (hsame.regs _ (by decide)).trans hz.tail, by rw [if_pos rfl, hsame.curTx]; exact hz.cur,
      hsame.sent.trans hz.sent, hsame.ti.trans hz.ti, ?_, ?_, ?_, fun _ => hrx⟩
    · rw [if_pos rfl, hsame.released]
      exact hz.released
    · intro t ht
      refine (load32_congr ?_).trans (hz.given t ht)
      rintro a ⟨hle, hlt⟩
      exact hmem a ⟨t, lt_of_lt_of_le ht hgiven, .inl ⟨by omega, by omega⟩⟩
    intro a ha hnot
    rcases ha with ha | hoff
    · exact (hmem a ha).trans (hz.keep a (.inl ha) hnot)
    · simp [hmode] at hoff

omit hring in
lemma TxAt.complete (hy : TxAt x i total r y) (hgiven : r.given ≤ total)
    {t : TxLocals} (hlen : t.frame.length ≤ enetFrameMax) :
    TxAt x i total { r with frames := r.frames ++ [t.frame], ti := r.ti || t.ioc }
      (txComplete y t) := by
  have hsent := hy.send hgiven hlen
  cases hioc : t.ioc with
  | false => simpa [txComplete, hioc] using hsent
  | true =>
    simp only [txComplete, hioc, if_true]
    refine ⟨fun c hc hc' => ?_, ?_, hsent.cur, hsent.sent, ?_, hsent.released, hsent.given,
      hsent.keep, fun h => ?_⟩
    · rw [← hsent.regs c hc hc']
      simp [orReg, setReg, hc]
    · rw [← hsent.tail]
      simp [orReg, setReg, show rTxdescTail ≠ rStatus by decide]
    · have hself : anyBit dmaStatTi dmaStatTi := by decide
      simp [orReg, setReg, hself]
    · refine (hsent.rx h).of_same_mem (fun c hc _ => ?_) rfl rfl
      simp [orReg, setReg, hc]

lemma TxAt.advance (hy : TxAt x i total r y) :
    TxAt x i total { r with cur := r.cur + 1 } (txAdvance y) := by
  have hbase : y.st.txBase = x.st.txBase := by rw [txBase, hy.regs _ (by decide) (by decide)]; rfl
  have hcount : y.st.txRinglen = x.st.txRinglen := by
    rw [txRinglen, hy.regs _ (by decide) (by decide)]; rfl
  refine ⟨hy.regs, hy.tail, ?_, hy.sent, hy.ti, hy.released, hy.given, hy.keep, fun h => ?_⟩
  · simp only [txAdvance, hbase, hcount]
    exact nextDesc_toNat (txCount_pos x.st) hy.cur hring.fits
  · exact (hy.rx h).of_same_mem (fun _ _ _ => rfl) rfl rfl

omit hring in
lemma addBuffer_eq {m : Mem} {frame : List Byte} {addr : Word} {len : ℕ}
    (h : frame.length + len ≤ enetFrameMax) :
    addBuffer m frame addr len = frame ++ load m addr.toNat len := by
  rw [addBuffer]
  by_cases hlen : len = 0
  · simp [hlen, load]
  · rw [if_pos ⟨hlen, h⟩]

section

variable (hy : TxAt x i total r y) (hcur : r.cur < total) (hgiven : r.given = r.cur) (t : TxLocals)
  (hstart : start = if anyBit (txWord x i r.cur 3) desFd then ⟨[], false⟩ else t)
  (hlen : (start.frame ++ txBuffers x i r.cur).length ≤ enetFrameMax)
include hy hcur hgiven hstart hlen

lemma TxAt.gather :
    txGather y.mem (enetDescRead y.mem y.st.curTx) t = ⟨start.frame ++ txBuffers x i r.cur,
      start.ioc || anyBit (txWord x i r.cur 2) tdes2Ioc⟩ := by
  have hread : ∀ c < 4, enetDescRead y.mem y.st.curTx c = txWord x i r.cur c :=
    fun c hc => hy.descRead hring hcur hgiven.le hc
  have hbuffers := hy.load_buffers hring hcur (by omega)
  rw [← hbuffers] at hlen ⊢
  simp only [length_append, length_load, txLen1, txLen2] at hlen ⊢
  simp only [txGather, hread 0 (by decide), hread 1 (by decide), hread 2 (by decide),
    hread 3 (by decide), ← hstart]
  have hone : start.frame.length + (txWord x i r.cur 2 &&& 0x3FFF).toNat ≤
      enetFrameMax := by omega
  rw [addBuffer_eq hone, addBuffer_eq (by rw [length_append, length_load]; omega),
    List.append_assoc]

lemma TxAt.descriptor : let t' : TxLocals := ⟨start.frame ++ txBuffers x i r.cur,
      start.ioc || anyBit (txWord x i r.cur 2) tdes2Ioc⟩
    let r' : TxRun := { r with given := r.cur + 1, cur := r.cur + 1 }
    ∃ y', TxAt x i total (if anyBit (txWord x i r.cur 3) desLd then
          { r' with frames := r.frames ++ [t'.frame], ti := r.ti || t'.ioc }
        else r') y' ∧
      txDescriptor y t = (y', if anyBit (txWord x i r.cur 3) desLd then
        { t' with frame := [] } else t') := by
  have hgather := hy.gather hring hcur hgiven t hstart hlen
  have hread := hy.descRead hring hcur hgiven.le (c := 3) (by decide)
  have hrelease := hy.release hring hcur hgiven
  simp only [txDescriptor, hgather, hread]
  cases hld : anyBit (txWord x i r.cur 3) desLd with
  | false => exact ⟨_, hrelease.advance hring, rfl⟩
  | true =>
    have hdone := hrelease.complete (by exact hcur) (t := ⟨start.frame ++ txBuffers x i r.cur,
      start.ioc || anyBit (txWord x i r.cur 2) tdes2Ioc⟩) hlen
    exact ⟨_, hdone.advance hring, rfl⟩

end

omit hring in
lemma packetBytes_succ (x : Controller) (i p n : ℕ) :
    packetBytes x i p (n + 1) = packetBytes x i p n ++ txBuffers x i (p + n) := by
  simp [packetBytes, range_succ]

omit hring in
lemma packetIoc_succ (x : Controller) (i p n : ℕ) : packetIoc x i p (n + 1) =
      (packetIoc x i p n || anyBit (txWord x i (p + n) 2) tdes2Ioc) := by
  simp [packetIoc, range_succ]

omit hring in
lemma length_packetBytes_mono (x : Controller) (i p : ℕ) {m n : ℕ} (h : m ≤ n) :
    (packetBytes x i p m).length ≤ (packetBytes x i p n).length := by
  induction n, h using le_induction with
  | base => exact le_rfl
  | succ n _ ih =>
    rw [packetBytes_succ, length_append]
    omega

def TailAt (x : Controller) (i q : ℕ) (tail : Word) : Prop := (tail &&& ~~~3).toNat = txAddr x i q

omit hring in
lemma TxAt.cur_eq_tail_iff (hy : TxAt x i total r y) {q : ℕ} (hq : TailAt x i q r.tail) :
    y.st.curTx = y.st.txTail ↔ txAddr x i r.cur = txAddr x i q := by
  rw [← BitVec.toNat_inj, hy.cur, txTail, hy.tail, hq]

lemma TxAt.txLoop_succ (hy : TxAt x i total r y) (hq : TailAt x i q r.tail)
    (hcur : r.cur < q) (hqt : q ≤ total) (hgiven : r.given = r.cur)
    (howned : anyBit (txWord x i r.cur 3) desOwn) (guard : ℕ) (t : TxLocals) :
    txLoop (guard + 1) y t = txLoop guard (txDescriptor y t).1 (txDescriptor y t).2 := by
  have hapart := txAddr_ne x i hcur (lt_of_le_of_lt hqt hring.room)
  have hne : y.st.curTx ≠ y.st.txTail := by
    rw [Ne, hy.cur_eq_tail_iff hq]
    omega
  have hread := hy.descRead hring (by omega) hgiven.le (c := 3) (by decide)
  rw [txLoop, if_neg hne, if_neg (by rw [hread, howned]; decide)]

def TxRun.packet (x : Controller) (i : ℕ) (r : TxRun) (n : ℕ) : TxRun :=
  { r with
    given := r.cur + n, cur := r.cur + n, frames := r.frames ++ [packetBytes x i r.cur n]
    ti := r.ti || packetIoc x i r.cur n }

def TxRun.inside (x : Controller) (i : ℕ) (r : TxRun) (n m : ℕ) : TxRun :=
  if m = n then r.packet x i n else { r with given := r.cur + m, cur := r.cur + m }

omit hring in
lemma TxRun.settled (r : TxRun) (h : r.given = r.cur) :
    { r with given := r.cur, cur := r.cur } = r := by
  cases r
  simp_all

lemma TxAt.packet_pass {m : ℕ} (hpk : IsPacket x i r.cur n)
    (hlen : (packetBytes x i r.cur n).length ≤ enetFrameMax) (hq : TailAt x i q r.tail)
    (hnq : r.cur + n ≤ q) (hqt : q ≤ total) (hm : m < n)
    (hy : TxAt x i total (r.inside x i n m) y) {t : TxLocals}
    (ht : 0 < m → t = ⟨packetBytes x i r.cur m, packetIoc x i r.cur m⟩) :
    ∃ y' t', TxAt x i total (r.inside x i n (m + 1)) y' ∧
      (m + 1 < n → t' = ⟨packetBytes x i r.cur (m + 1), packetIoc x i r.cur (m + 1)⟩) ∧
      ∀ guard, txLoop (guard + 1) y t = txLoop guard y' t' := by
  rw [TxRun.inside, if_neg hm.ne] at hy
  have hstart : (⟨packetBytes x i r.cur m, packetIoc x i r.cur m⟩ : TxLocals) =
      if anyBit (txWord x i (r.cur + m) 3) desFd then ⟨[], false⟩ else t := by
    rw [hpk.first m hm]
    cases m with
    | zero => rfl
    | succ m => simp [ht]
  have hfits : (packetBytes x i r.cur m ++ txBuffers x i (r.cur + m)).length ≤
      enetFrameMax := by
    rw [← packetBytes_succ]
    exact (length_packetBytes_mono x i r.cur hm).trans hlen
  obtain ⟨y', hy', hstep⟩ := hy.descriptor hring (by simp only; omega) rfl t hstart hfits
  have hloop := fun guard => hy.txLoop_succ hring hq (by simp only; omega) hqt rfl
    (hpk.owned m hm) guard t
  simp only [hpk.last m hm, decide_eq_true_eq, ← packetBytes_succ, ← packetIoc_succ] at hy' hstep
  refine ⟨y', _, ?_, ?_, fun guard => by rw [hloop guard, hstep]⟩
  · rw [TxRun.inside]
    split_ifs at hy' ⊢ with hlast
    · subst hlast
      exact hy'
    · exact hy'
  · intro hmore
    rw [if_neg hmore.ne]

lemma TxAt.inside_packet (hy : TxAt x i total r y) (hpk : IsPacket x i r.cur n)
    (hlen : (packetBytes x i r.cur n).length ≤ enetFrameMax) (hq : TailAt x i q r.tail)
    (hnq : r.cur + n ≤ q) (hqt : q ≤ total) (hgiven : r.given = r.cur) (t : TxLocals) :
    ∀ m ≤ n, ∃ y' t', TxAt x i total (r.inside x i n m) y' ∧
      (0 < m → m < n → t' = ⟨packetBytes x i r.cur m, packetIoc x i r.cur m⟩) ∧
      ∀ guard, txLoop (guard + m) y t = txLoop guard y' t' := by
  intro m
  induction m with
  | zero =>
    intro _
    have hrecord : r.inside x i n 0 = r := by
      rw [TxRun.inside, if_neg hpk.pos.ne]
      exact r.settled hgiven
    exact ⟨y, t, by rwa [hrecord], by simp, by simp⟩
  | succ m ih =>
    intro hm
    obtain ⟨z, u, hz, hu, hloop⟩ := ih (by omega)
    obtain ⟨y', t', hy', ht', hstep⟩ :=
      TxAt.packet_pass hring hpk hlen hq hnq hqt hm hz fun h => hu h hm
    refine ⟨y', t', hy', fun _ => ht', fun guard => ?_⟩
    rw [show guard + (m + 1) = guard + 1 + m by omega, hloop, hstep]

def TxRun.packets (x : Controller) (i : ℕ) (r : TxRun) (ns : List ℕ) : TxRun :=
  { r with
    given := r.cur + ns.sum, cur := r.cur + ns.sum, frames := r.frames ++ packetFrames x i r.cur ns
    ti := r.ti || packetsIoc x i r.cur ns }

lemma TxAt.txLoop_packets (hy : TxAt x i total r y)
    (hpk : Packets x i r.cur ns) (hq : TailAt x i q r.tail) (hqr : q = r.cur + ns.sum)
    (hqt : q ≤ total) (hgiven : r.given = r.cur) (guard : ℕ) (t : TxLocals) :
    TxAt x i total (r.packets x i ns) (txLoop (guard + ns.sum) y t) := by
  induction ns generalizing r y t with
  | nil =>
    have hrecord : r.packets x i [] = r := by
      simpa [TxRun.packets, packetFrames, packetsIoc] using r.settled hgiven
    have hstop : txLoop guard y t = y := by
      cases guard with
      | zero => rfl
      | succ guard => rw [txLoop, if_pos ((hy.cur_eq_tail_iff hq).mpr (by simp [hqr]))]
    simpa [hrecord, hstop] using hy
  | cons n ns ih =>
    obtain ⟨hpacket, hlen, hrest⟩ := hpk
    rw [sum_cons] at hqr
    obtain ⟨y', t', hy', -, hloop⟩ := hy.inside_packet hring hpacket hlen hq (by omega) hqt
      hgiven t n le_rfl
    rw [TxRun.inside, if_pos rfl] at hy'
    have hnext := ih hy' hrest hq (by simp only [TxRun.packet]; omega) rfl t'
    have hrecord : (r.packet x i n).packets x i ns = r.packets x i (n :: ns) := by
      simp [TxRun.packet, TxRun.packets, packetFrames, packetsIoc, Nat.add_assoc, Bool.or_assoc]
    rw [sum_cons, show guard + (n + ns.sum) = guard + ns.sum + n by omega, hloop, ← hrecord]
    exact hnext

omit hring in
lemma and_not_three_toNat (v : Word) : (v &&& ~~~3).toNat = 4 * (v.toNat / 4) :=
  AlignedBlocks.and_not_lowMask_toNat 2 v

def tailWord (x : Controller) (i q : ℕ) : Word := BitVec.ofNat 32 (txAddr x i q)

lemma tailAt_tailWord (q : ℕ) : TailAt x i q (tailWord x i q) := by
  have hlt := hring.txAddr_lt q
  have hvalue : (tailWord x i q).toNat = txAddr x i q := by
    rw [tailWord, BitVec.toNat_ofNat, mod_eq_of_lt (by omega)]
  have hbase := and_not_three_toNat (x.st.regs rTxdescList)
  rw [TailAt, and_not_three_toNat, hvalue, txAddr, txDesc, txBase]
  omega

def doorbell (x : Controller) (i q : ℕ) (y : Controller) : Controller :=
  enetWrite y 0x1120 4 (tailWord x i q)

omit hring in
lemma doorbell_eq (q : ℕ) : doorbell x i q y =
      mcxnEnetTxProcess { y with st := y.st.setReg rTxdescTail (tailWord x i q) } := by
  have hwrite := write_word y rTxdescTail (tailWord x i q)
  rw [if_neg (by decide)] at hwrite
  refine hwrite.trans ?_
  rw [enetWriteReg, if_neg (by decide), if_neg (by decide), if_neg (by decide),
    if_neg (by decide), if_neg (by decide), if_neg (by decide), if_neg (by decide),
    if_neg (by decide), if_pos rfl]

omit hring in
lemma TxAt.setTail (hy : TxAt x i total r y) (w : Word) :
    TxAt x i total { r with tail := w } { y with st := y.st.setReg rTxdescTail w } := by
  refine ⟨fun c hc hc' => ?_, ?_, hy.cur, hy.sent, ?_, hy.released, hy.given, hy.keep, fun h => ?_⟩
  · simpa [setReg, hc'] using hy.regs c hc hc'
  · simp [setReg]
  · simpa [setReg, show rStatus ≠ rTxdescTail by decide] using hy.ti
  · refine (hy.rx h).of_same_mem (fun c _ hc => ?_) rfl rfl
    simp [setReg, hc]

lemma TxAt.doorbell (hy : TxAt x i total r y) (hpk : Packets x i r.cur ns)
    (hguard : ns.sum ≤ enetRingGuard) (hqt : r.cur + ns.sum ≤ total) (hgiven : r.given = r.cur) :
    TxAt x i total ({ r with tail := tailWord x i (r.cur + ns.sum) }.packets x i ns)
      (doorbell x i (r.cur + ns.sum) y) := by
  have hz := hy.setTail (tailWord x i (r.cur + ns.sum))
  have hwalk := hz.txLoop_packets hring hpk (tailAt_tailWord hring _) rfl hqt hgiven
    (enetRingGuard - ns.sum) ⟨[], false⟩
  rw [Nat.sub_add_cancel hguard] at hwalk
  have hon : (y.st.setReg rTxdescTail (tailWord x i (r.cur + ns.sum))).txEnabled := by
    have hx := hring.enabled
    simp only [txEnabled, txBase] at hx ⊢
    rwa [← hz.regs rMacConfiguration (by decide) (by decide),
      ← hz.regs rTxCtrl (by decide) (by decide),
      ← hz.regs rTxdescList (by decide) (by decide)] at hx
  rw [doorbell_eq, mcxnEnetTxProcess, if_neg (by rw [hon]; decide)]
  refine ⟨hwalk.regs, hwalk.tail, hwalk.cur, hwalk.sent, hwalk.ti, hwalk.released,
    hwalk.given, hwalk.keep, fun h => (hwalk.rx h).of_same_mem (fun _ _ _ => rfl) rfl rfl⟩

def ringDoorbells (x : Controller) (i : ℕ) : Controller → ℕ → List (List ℕ) → Controller
  | y, _, [] => y
  | y, p, ns :: rest => ringDoorbells x i (doorbell x i (p + ns.sum) y) (p + ns.sum) rest

omit hring in
lemma packets_append (x : Controller) (i : ℕ) (ns ms : List ℕ) :
    ∀ p, Packets x i p (ns ++ ms) ↔ Packets x i p ns ∧ Packets x i (p + ns.sum) ms := by
  induction ns with
  | nil => simp [Packets]
  | cons n ns ih =>
    intro p
    simp only [List.cons_append, Packets, ih, sum_cons, Nat.add_assoc, and_assoc]

omit hring in
lemma packetFrames_append (x : Controller) (i : ℕ) (ns ms : List ℕ) :
    ∀ p, packetFrames x i p (ns ++ ms) =
      packetFrames x i p ns ++ packetFrames x i (p + ns.sum) ms := by
  induction ns with
  | nil => simp [packetFrames]
  | cons n ns ih =>
    intro p
    simp [packetFrames, ih, Nat.add_assoc]

omit hring in
lemma packetsIoc_append (x : Controller) (i : ℕ) (ns ms : List ℕ) :
    ∀ p, packetsIoc x i p (ns ++ ms) = (packetsIoc x i p ns || packetsIoc x i (p + ns.sum) ms) := by
  induction ns with
  | nil => simp [packetsIoc]
  | cons n ns ih =>
    intro p
    simp [packetsIoc, ih, Nat.add_assoc, Bool.or_assoc]

lemma TxAt.doorbells (groups : List (List ℕ)) (hy : TxAt x i total r y)
    (hpk : Packets x i r.cur groups.flatten) (hguard : ∀ ns ∈ groups, ns.sum ≤ enetRingGuard)
    (hqt : r.cur + groups.flatten.sum ≤ total) (hgiven : r.given = r.cur) :
    ∃ w, TxAt x i total ({ r with tail := w }.packets x i groups.flatten)
      (ringDoorbells x i y r.cur groups) := by
  induction groups generalizing r y with
  | nil =>
    refine ⟨r.tail, ?_⟩
    have hrecord : r.packets x i [] = r := by
      simpa [TxRun.packets, packetFrames, packetsIoc] using r.settled hgiven
    simpa [ringDoorbells, hrecord] using hy
  | cons ns groups ih =>
    rw [flatten_cons, packets_append] at hpk
    rw [flatten_cons, List.sum_append] at hqt
    have hring' := hy.doorbell hring hpk.1 (hguard ns (by simp)) (by omega) hgiven
    obtain ⟨w, hrest⟩ := ih hring' hpk.2 (fun ms hms => hguard ms (by simp [hms]))
      (by simp only [TxRun.packets]; omega) rfl
    refine ⟨w, ?_⟩
    have hrecord : ({ { r with tail := tailWord x i (r.cur + ns.sum) }.packets x i ns with
        tail := w }).packets x i groups.flatten =
        { r with tail := w }.packets x i (ns :: groups).flatten := by
      simp [TxRun.packets, packetFrames_append, packetsIoc_append, Nat.add_assoc, Bool.or_assoc]
    rw [← hrecord]
    exact hrest

end Walk

/-- The packets are sent in order and each descriptor is given back once. -/
structure Transmitted (x : Controller) (i : ℕ) (ns : List ℕ) (y : Controller) : Prop where
  sent : y.sent = x.sent ++ packetFrames x i 0 ns
  released : y.released.map BitVec.toNat =
    x.released.map BitVec.toNat ++ (List.range ns.sum).map (txAddr x i)
  once : ((List.range ns.sum).map (txAddr x i)).Nodup
  given : ∀ t < ns.sum, load32 y.mem (txAddr x i t + 12) = txWord x i t 3 &&& ~~~desOwn
  keep : x.st.loopback = false → ∀ a,
    (∀ t < ns.sum, ¬ Covers (txAddr x i t + 12) 4 a) → y.mem a = x.mem a
  ti : anyBit (y.st.regs rStatus) dmaStatTi =
    (anyBit (x.st.regs rStatus) dmaStatTi || packetsIoc x i 0 ns)
  cur : y.st.curTx.toNat = txAddr x i ns.sum

lemma TxRing.nodup (hring : TxRing x i total) : ((List.range total).map (txAddr x i)).Nodup := by
  refine List.Nodup.map_on ?_ nodup_range
  intro t ht u hu h
  rw [mem_range] at ht hu
  rcases Nat.lt_trichotomy t u with hlt | heq | hlt
  · have := txAddr_ne x i hlt (hu.trans hring.room)
    omega
  · exact heq
  · have := txAddr_ne x i hlt (ht.trans hring.room)
    omega

/-- Doorbells that end on packet boundaries and hand over at most
`ENET_RING_GUARD` descriptors each send every packet as one frame, in order, in any
grouping. -/
theorem doorbells_transmit (x : Controller) (i : ℕ) (groups : List (List ℕ))
    (hring : TxRing x i groups.flatten.sum) (hpackets : Packets x i 0 groups.flatten)
    (hguard : ∀ ns ∈ groups, ns.sum ≤ enetRingGuard) :
    Transmitted x i groups.flatten (ringDoorbells x i x 0 groups) := by
  have hstart : TxAt x i groups.flatten.sum ⟨0, 0, [], false, x.st.regs rTxdescTail⟩ x := by
    refine ⟨fun _ _ _ => rfl, rfl, ?_, by simp, by simp, by simp, by simp,
      fun _ _ _ => rfl, hring.loopback⟩
    rw [txAddr, ringSlot_zero hring.inside]
    exact hring.cur
  obtain ⟨w, hend⟩ := hstart.doorbells hring groups hpackets hguard (by simp) rfl
  simp only [TxRun.packets, Nat.zero_add, nil_append, Bool.false_or] at hend
  exact ⟨hend.sent, hend.released, hring.nodup, hend.given,
    fun hmode a ha => hend.keep a (.inr hmode) ha, hend.ti, hend.cur⟩

def twoPackets : Controller where
  st :=
    { regs := fun r =>
        if r = rMacConfiguration then macCfgTe
        else if r = rTxCtrl then dmaTxSt
        else if r = rTxdescList then 0x100
        else if r = rTxringLen then 3
        else 0
      phy := fun _ => 0
      curTx := 0x100
      curRx := 0
      irq := false }
  mem := fun a =>
    ([(0x101, 2), (0x108, 1), (0x10F, 0xA0), (0x110, 1), (0x111, 2), (0x118, 1), (0x11F, 0x90),
      (0x120, 2), (0x121, 2), (0x128, 1), (0x12B, 0x80), (0x12F, 0xB0),
      (0x200, 11), (0x201, 12), (0x202, 13)].lookup a).getD 0
  queued := []
  sent := []
  released := []

lemma txRing_twoPackets : TxRing twoPackets 0 3 where
  inside := by decide
  cur := by decide
  fits := by decide
  room := by decide
  enabled := by decide
  buffersOffRing := by decide
  loopback := fun h => absurd h (by decide)

lemma packets_twoPackets : Packets twoPackets 0 0 [2, 1] :=
  ⟨⟨by decide, by decide, by decide, by decide⟩, by decide,
    ⟨by decide, by decide, by decide, by decide⟩, by decide, trivial⟩

theorem doorbells_transmit_two_packets : packetFrames twoPackets 0 0 [2, 1] = [[11, 12], [13]] ∧
      Transmitted twoPackets 0 [2, 1] (ringDoorbells twoPackets 0 twoPackets 0 [[2], [1]]) :=
  ⟨by decide, doorbells_transmit twoPackets 0 [[2], [1]] txRing_twoPackets
    packets_twoPackets (by decide)⟩

theorem split_packet_truncated : TxRing twoPackets 0 3 ∧ Packets twoPackets 0 0 [2, 1] ∧
      (doorbell twoPackets 0 3 twoPackets).sent = [[11, 12], [13]] ∧
      (doorbell twoPackets 0 3 (doorbell twoPackets 0 1 twoPackets)).sent = [[12], [13]] :=
  ⟨txRing_twoPackets, packets_twoPackets, by decide +kernel, by decide +kernel⟩

end Mcxn947.Enet
