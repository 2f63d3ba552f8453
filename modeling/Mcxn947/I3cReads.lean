import Mcxn947.I3cModel

/-!
# Controller reads of the I3C controller

A read request clocks the target at once and keeps what it supplied in the receive FIFO, from
which the guest pops it through `MRDATAB` and `MRDATAH`.
-/

namespace Mcxn947.I3c

open MachineWords BusAccesses EventRuns List

/-- A halfword register is read by halves or words. -/
inductive ReadEvent
  | mrdatab (width : Width)
  | mrdatah (word : Bool)
  | ack (v : Word)

def readStep (s : I3cState) : ReadEvent → I3cState
  | .mrdatab width => (mcxnI3cRead s rMrdatab width.bytes).2
  | .mrdatah word => (mcxnI3cRead s rMrdatah (if word then 4 else 2)).2
  | .ack v => mcxnI3cWrite s rMstatus 4 v ⟨true, fun _ => 0⟩

def obtained (s : I3cState) : ReadEvent → List Byte
  | .mrdatab width => [(mcxnI3cRead s rMrdatab width.bytes).1.setWidth 8]
  | .mrdatah word =>
    let v := (mcxnI3cRead s rMrdatah (if word then 4 else 2)).1
    [v.setWidth 8, (v >>> 8).setWidth 8]
  | .ack _ => []

def RxEmpty (s : I3cState) : Prop := anyBit (mcxnI3cRead s rMdatactrl 4).1 datactrlRxempty = true
deriving Decidable

def RxPend (s : I3cState) : Prop := anyBit (mcxnI3cRead s rMstatus 4).1 mstatusRxpend = true

/-- The guest pops while there is something to pop, until there is nothing left. -/
def Drains (s : I3cState) (events : List ReadEvent) : Prop :=
  Admits readStep (fun s e => (∃ v, e = .ack v) ∨ ¬ RxEmpty s) s events ∧
    RxEmpty (run readStep s events)

def ReadEvent.isHalf : ReadEvent → Bool
  | .mrdatah _ => true
  | _ => false

def ReadEvent.acks : ReadEvent → Bool
  | .ack v => anyBit v mstatusRxpend
  | _ => false

/-- The guest obtains the first `n` bytes of `data`, which are all the target was clocked for
since `bus`, and the two flags tell at all times whether bytes are left. -/
structure Delivered (bus : List I2cOp) (n : ℕ) (data : ℕ → Byte) (s : I3cState)
    (events : List ReadEvent) : Prop where
  bytes : outputs readStep obtained s events = (List.range n).map data
  clocked : s.bus = bus ++ List.replicate n .recv
  pend : ∀ before, before <+: events → (RxPend (run readStep s before) ↔
    (run readStep s before).rxPos < (run readStep s before).rxCount ∧
      before.any ReadEvent.acks = false)
  empty : ∀ before, before <+: events → (RxEmpty (run readStep s before) ↔
    (run readStep s before).rxCount ≤ (run readStep s before).rxPos)

variable {s : I3cState}

lemma rxEmpty_iff : RxEmpty s ↔ s.rxCount ≤ s.rxPos := by
  have hread : (mcxnI3cRead s rMdatactrl 4).1 = mdatactrlValue s (s.reg rMdatactrl) :=
    readBytes_word rfl _
  have hcount : anyBit ((BitVec.ofNat 32 (s.rxCount - s.rxPos) &&& 0x1F) <<< 24)
      datactrlRxempty = false := by
    rw [BitVec.shiftLeft_and_distrib, anyBit_eq_false, BitVec.and_assoc]
    exact BitVec.and_zero
  have hclear : anyBit (s.reg rMdatactrl &&& ~~~(datactrlFifoMask ||| datactrlRxcount |||
      datactrlTxcount)) datactrlRxempty = false := anyBit_clear_of_subset (by decide) _
  have hbit : anyBit datactrlRxempty datactrlRxempty := by decide
  rw [RxEmpty, hread, mdatactrlValue, ← Nat.sub_eq_zero_iff_le]
  split
  · rw [anyBit_or, hbit, Bool.or_true]
    exact iff_of_true rfl ‹_›
  · rw [anyBit_or, hclear, hcount]
    exact iff_of_false nofun ‹_›

lemma rxPend_iff : RxPend s ↔ (s.reg rMstatus).getLsbD 11 := by
  have hread : (mcxnI3cRead s rMstatus 4).1 = s.reg rMstatus := readBytes_word rfl _
  rw [RxPend, hread, show mstatusRxpend = BitVec.twoPow 32 11 from rfl, anyBit_twoPow]

lemma readStep_pop {e : ReadEvent} (he : ∀ v, e ≠ .ack v) : readStep s e = (i3cPop s).2 := by
  cases e with
  | mrdatab width => rfl
  | mrdatah word => cases word <;> rfl
  | ack v => exact absurd rfl (he v)

lemma pop_state (h : s.rxPos < s.rxCount) : (i3cPop s).2 = { s with
      rxPos := s.rxPos + 1
      regs := if s.rxCount ≤ s.rxPos + 1 then
        s.regs.set rMstatus (s.reg rMstatus &&& ~~~mstatusRxpend) else s.regs } := by
  unfold i3cPop
  rw [if_pos h]
  dsimp only
  split <;> rfl

lemma readStep_ack (s : I3cState) (v : Word) : readStep s (.ack v) =
    mcxnI3cUpdateIrq (s.setReg rMstatus (s.reg rMstatus &&& ~~~v)) := by
  have hwritten : writtenBytes rMstatus 4 v = v := by
    exact (BitVec.and_allOnes).trans (BitVec.shiftLeft_zero v)
  show mcxnI3cUpdateIrq (s.setReg rMstatus (s.reg rMstatus &&& ~~~writtenBytes rMstatus 4 v)) = _
  rw [hwritten]

lemma obtained_pop (h : s.rxPos < s.rxCount) (e : ReadEvent) :
    (e.isHalf → (obtained s e).length = 2) ∧
      ((∀ v, e ≠ .ack v) → e.isHalf = false → obtained s e = [s.rxFifo s.rxPos]) := by
  cases e with
  | mrdatab width =>
    refine ⟨nofun, fun _ _ => ?_⟩
    have hpop : (i3cPop s).1 = (s.rxFifo s.rxPos).setWidth 32 := by rw [i3cPop, if_pos h]
    have hread : (mcxnI3cRead s rMrdatab width.bytes).1 =
        readBytes (i3cPop s).1 rMrdatab width.bytes := rfl
    rw [obtained, hread, hpop, readBytes_byte rfl]
    simp
  | mrdatah word => exact ⟨fun _ => rfl, nofun⟩
  | ack v => exact ⟨nofun, fun hno => absurd rfl (hno v)⟩

lemma obtained_drain {events : List ReadEvent} (hle : s.rxPos ≤ s.rxCount) (h : Drains s events) :
    (outputs readStep obtained s events).length =
      s.rxCount - s.rxPos + events.countP ReadEvent.isHalf ∧
      (events.countP ReadEvent.isHalf = 0 → outputs readStep obtained s events =
      (List.range (s.rxCount - s.rxPos)).map fun i => s.rxFifo (s.rxPos + i)) := by
  induction events generalizing s with
  | nil =>
    have hempty : s.rxCount ≤ s.rxPos := rxEmpty_iff.mp h.2
    simp [outputs, Nat.sub_eq_zero_of_le hempty]
  | cons e rest ih =>
    have hrest : Drains (readStep s e) rest := ⟨h.1.2, h.2⟩
    by_cases hack : ∃ v, e = .ack v
    · obtain ⟨v, rfl⟩ := hack
      rw [readStep_ack] at hrest
      simp only [outputs, obtained, readStep_ack, nil_append, countP_cons,
        ReadEvent.isHalf, Bool.false_eq_true, if_false, Nat.add_zero]
      exact ih hle hrest
    have hlt : s.rxPos < s.rxCount := by
      have hmore := h.1.1.resolve_left hack
      rw [rxEmpty_iff] at hmore
      omega
    rw [not_exists] at hack
    obtain ⟨hhalf, hbyte⟩ := obtained_pop hlt e
    have hstep := readStep_pop (s := s) hack
    rw [pop_state hlt] at hstep
    have hlen : (obtained s e).length = 1 + if e.isHalf then 1 else 0 := by
      cases hwidth : e.isHalf
      · rw [hbyte hack hwidth]
        rfl
      · rw [hhalf hwidth]
        rfl
    rw [hstep] at hrest
    obtain ⟨ihlen, ihbytes⟩ := ih (s := { s with rxPos := s.rxPos + 1, regs := _ }) hlt hrest
    simp only [outputs, hstep, length_append, countP_cons] at ihlen ihbytes ⊢
    refine ⟨?_, fun hnone => ?_⟩
    · omega
    have hsplit : s.rxCount - s.rxPos = s.rxCount - (s.rxPos + 1) + 1 := by omega
    have hwidth : e.isHalf = false := by
      by_contra hwidth
      simp [hwidth] at hnone
    rw [hbyte hack hwidth, ihbytes (by omega), hsplit, range_succ_eq_map]
    simp [Function.comp_def, Nat.add_assoc, Nat.add_comm 1]

lemma pend_run {acked : Bool} (events : List ReadEvent)
    (h : RxPend s ↔ s.rxPos < s.rxCount ∧ acked = false) : RxPend (run readStep s events) ↔
      (run readStep s events).rxPos < (run readStep s events).rxCount ∧
      (acked || events.any ReadEvent.acks) = false := by
  induction events generalizing s acked with
  | nil => simpa using h
  | cons e rest ih =>
    rw [run_cons, any_cons, ← Bool.or_assoc]
    apply ih
    rw [rxPend_iff] at h ⊢
    cases e with
    | ack v =>
      rw [readStep_ack]
      have hreg : (mcxnI3cUpdateIrq (s.setReg rMstatus (s.reg rMstatus &&& ~~~v))).reg rMstatus =
          s.reg rMstatus &&& ~~~v := rfl
      have hbit : anyBit v mstatusRxpend = v.getLsbD 11 := anyBit_twoPow v 11
      show _ ↔ s.rxPos < s.rxCount ∧ _
      rw [hreg, ReadEvent.acks, hbit, BitVec.getLsbD_and, BitVec.getLsbD_not]
      simp only [Bool.and_eq_true, h, Bool.or_eq_false_iff]
      simp [and_assoc]
    | mrdatab _ | mrdatah _ =>
      rw [readStep_pop (fun _ => ReadEvent.noConfusion)]
      show _ ↔ _ ∧ (acked || false) = false
      rw [Bool.or_false]
      by_cases hlt : s.rxPos < s.rxCount
      · rw [pop_state hlt]
        by_cases hlast : s.rxCount ≤ s.rxPos + 1
        · refine iff_of_false ?_ fun hmore => Nat.not_lt.mpr hlast hmore.1
          simp [hlast, I3cState.reg, mstatusRxpend]
        · have hmore := Nat.lt_of_not_le hlast
          simpa [hlast, hlt, hmore, I3cState.reg] using h
      · rw [i3cPop, if_neg hlt]
        exact h

/-- The loop of a read request, from an empty FIFO. -/
lemma recv_loop (reply : I2cReply) (h : s.rxCount = 0) (n : ℕ) :
    (List.range n).foldl (i3cRecv reply) s = { s with
        rxFifo := fun i => if i < n then reply.data i else s.rxFifo i, rxCount := n
        bus := s.bus ++ List.replicate n .recv } := by
  induction n with
  | zero =>
    obtain ⟨⟩ := s
    simp_all
  | succ n ih =>
    rw [range_succ, foldl_append, ih, List.replicate_succ']
    simp only [foldl_cons, foldl_nil, i3cRecv, List.append_assoc]
    congr 1
    funext i
    by_cases hi : i = n
    · simp [hi]
    · simp [hi, Nat.le_iff_lt_or_eq]

def request (s : I3cState) (w : RegWrite) : Word :=
  mergeBytes (s.reg w.off) w.off w.width.bytes w.value

def requested (s : I3cState) (w : RegWrite) (reply : I2cReply) : I3cState :=
  mcxnI3cWrite s w.off w.width.bytes w.value reply

lemma requested_spec {w : RegWrite} {reply : I2cReply} (hoff : w.off / 4 = rMctrl / 4)
    (hreq : request s w &&& mctrlRequest = reqEmitstartaddr) (hdir : mctrlDir (request s w))
    (hack : reply.nack = false) (hn : 1 ≤ mctrlRdterm (request s w)) : let t := requested s w reply
    let count := min (mctrlRdterm (request s w)) rxFifoSize
    t.rxCount = count ∧ t.rxPos = 0 ∧ (∀ i < count, t.rxFifo i = reply.data i) ∧
      t.bus = s.bus ++ [.start (mctrlAddr (request s w)) true] ++ List.replicate count .recv ∧
      (t.reg rMstatus).getLsbD 11 = true := by
  have hstart : requested s w reply =
      i3cStart (s.setReg rMctrl (request s w)) (request s w) reply := by
    have hsize : ¬ i3cSize ≤ w.off := by
      simp only [i3cSize, rMctrl] at *
      omega
    have hwrite : requested s w reply =
        i3cRequest (s.setReg rMctrl (request s w)) (request s w) reply := by
      unfold requested mcxnI3cWrite
      simp only [hoff, hsize, false_or]
      rfl
    rw [hwrite, i3cRequest, if_pos hreq]
  have hpos : min (mctrlRdterm (request s w)) rxFifoSize ≠ 0 := by
    simp only [rxFifoSize]
    omega
  intro t count
  simp only [t, hstart, i3cStart, hack, hdir, Bool.false_eq_true, if_false, if_true, i3cReceive]
  rw [recv_loop reply (by rfl)]
  simp only [hpos, ne_eq, not_false_eq_true, if_true]
  refine ⟨rfl, rfl, fun i hi => if_pos hi, rfl, ?_⟩
  show ((_ ||| mstatusRxpend) ||| (mstatusMctrldone ||| mstatusComplete) : Word).getLsbD 11 = true
  simp [mstatusRxpend]

/-- A read request delivers exactly if it asks for no more than the FIFO holds and the guest
pops byte by byte. -/
theorem read_delivers_iff {w : RegWrite} {reply : I2cReply} (hoff : w.off / 4 = rMctrl / 4)
    (hreq : request s w &&& mctrlRequest = reqEmitstartaddr) (hdir : mctrlDir (request s w) = true)
    (hack : reply.nack = false) (hn : 1 ≤ mctrlRdterm (request s w)) {events : List ReadEvent}
    (hdrains : Drains (requested s w reply) events) :
    Delivered (s.bus ++ [.start (mctrlAddr (request s w)) true]) (mctrlRdterm (request s w))
        reply.data (requested s w reply) events ↔
      mctrlRdterm (request s w) ≤ rxFifoSize ∧ ∀ e ∈ events, e.isHalf = false := by
  obtain ⟨hcount, hpos, hfifo, hbus, hpend⟩ := requested_spec hoff hreq hdir hack hn
  obtain ⟨hlen, hbytes⟩ := obtained_drain (by omega) hdrains
  rw [hcount, hpos, Nat.sub_zero] at hlen hbytes
  have hhalves : events.countP ReadEvent.isHalf = 0 ↔ ∀ e ∈ events, e.isHalf = false := by
    simp [countP_eq_zero]
  rw [← hhalves]
  constructor
  · intro h
    have hall := congrArg List.length h.bytes
    have hclocked := congrArg List.length (h.clocked.symm.trans hbus)
    simp only [length_append, length_replicate, length_map, length_range,
      length_singleton, hlen] at hall hclocked
    omega
  rintro ⟨hfits, hnone⟩
  rw [Nat.min_eq_left hfits] at *
  refine ⟨?_, hbus, fun before _ => ?_, fun before _ => rxEmpty_iff⟩
  · rw [hbytes hnone]
    refine map_congr_left fun i hi => ?_
    rw [Nat.zero_add]
    exact hfifo i (List.mem_range.mp hi)
  have hstart : RxPend (requested s w reply) ↔
      (requested s w reply).rxPos < (requested s w reply).rxCount ∧ false = false := by
    rw [rxPend_iff, hpos, hcount]
    exact iff_of_true hpend ⟨hn, rfl⟩
  simpa using pend_run before hstart

def readRequest (v : Word) : RegWrite := .ofWord (rMctrl / 4) v

def counting : I2cReply := ⟨false, fun i => BitVec.ofNat 8 (i + 1)⟩

lemma drains_two : Drains (requested .powerOn (readRequest 0x020101) counting)
    [.mrdatab .byte, .mrdatab .word] :=
  ⟨⟨.inr (by decide), .inr (by decide), trivial⟩, by decide⟩

theorem two_bytes_delivered :
    Delivered [.start 0 true] 2 counting.data (requested .powerOn (readRequest 0x020101) counting)
      [.mrdatab .byte, .mrdatab .word] :=
  (read_delivers_iff (s := .powerOn) rfl (by decide) (by decide) rfl (by decide) drains_two).mpr
    (by decide)

/-- A halfword read gets one byte of two, and of 33 bytes the target is clocked for 32. -/
theorem halfword_and_long_read_short :
    (obtained (requested .powerOn (readRequest 0x020101) counting) (.mrdatah false) = [1, 0] ∧
      (requested .powerOn (readRequest 0x210101) counting).rxCount = 32) ∧
    ¬ Delivered [.start 0 true] 2 counting.data
        (requested .powerOn (readRequest 0x020101) counting) [.mrdatah false] ∧
    ∀ events, ¬ Delivered [.start 0 true] 33 counting.data
      (requested .powerOn (readRequest 0x210101) counting) events :=
  ⟨by decide, fun h => absurd h.bytes (by decide),
    fun _ h => absurd (congrArg length h.clocked) (by decide)⟩

end Mcxn947.I3c
