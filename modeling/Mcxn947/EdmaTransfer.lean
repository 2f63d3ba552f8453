import Mcxn947.EdmaEngineMoves
import Mcxn947.EdmaRules
import Mcxn947.StridedAccess

/-!
# The data phase of a minor loop

The reads and the writes of one minor loop walk two independent strides through
one staging buffer of `max(ssize, dsize)` bytes.
-/

namespace Mcxn947.Edma

open MachineWords CountedLoops StridedAccess List Function

def busReads : List BusMark → List (Word × List Byte)
  | [] => []
  | .read addr data :: rest => (addr, data) :: busReads rest
  | _ :: rest => busReads rest

def busWrites : List BusMark → List (Word × List Byte)
  | [] => []
  | .write addr data :: rest => (addr, data) :: busWrites rest
  | _ :: rest => busWrites rest

@[simp] lemma busReads_append (a b : List BusMark) :
    busReads (a ++ b) = busReads a ++ busReads b := by
  induction a with
  | nil => rfl
  | cons m rest ih => cases m <;> simp [busReads, ih]

@[simp] lemma busWrites_append (a b : List BusMark) :
    busWrites (a ++ b) = busWrites a ++ busWrites b := by
  induction a with
  | nil => rfl
  | cons m rest ih => cases m <;> simp [busWrites, ih]

structure Bus.Plain {μ : Type} (bus : Bus μ) : Prop where
  read_trace : ∀ x addr size, (bus.read x addr size).1.trace = x.trace
  read_ch : ∀ x addr size, (bus.read x addr size).1.st.ch = x.st.ch
  write_trace : ∀ x addr data, (bus.write x addr data).trace = x.trace
  write_ch : ∀ x addr data, (bus.write x addr data).st.ch = x.st.ch

def Chan.advanceS (c : Chan) (addr : Word) : Word := edmaAdvance addr c.tcdSoff (attrSmod c.tcdAttr)

def Chan.advanceD (c : Chan) (addr : Word) : Word := edmaAdvance addr c.tcdDoff (attrDmod c.tcdAttr)

lemma Chan.ssize_dvd_chunk (c : Chan) : c.ssize ∣ c.chunk := by
  unfold chunk
  split
  · exact dvd_rfl
  rename_i hle
  exact (Nat.pow_dvd_pow_iff_le_right (by decide)).mpr
    ((Nat.pow_le_pow_iff_right (by decide)).mp (not_lt.mp hle))

lemma Chan.dsize_dvd_chunk (c : Chan) : c.dsize ∣ c.chunk := by
  unfold chunk
  split
  next hlt =>
    exact (Nat.pow_dvd_pow_iff_le_right (by decide)).mpr
      ((Nat.pow_le_pow_iff_right (by decide)).mp hlt.le)
  · exact dvd_rfl

section DataPhase

variable {μ : Type} {bus : Bus μ} (hplain : bus.Plain) (c : Chan)
include hplain

structure ReadsDone (t₀ : Xfer μ) (j : ℕ) (t : Xfer μ) (items : List (List Byte)) : Prop where
  count : items.length = j
  size : ∀ item ∈ items, item.length = c.ssize
  trace : ∃ ops, t.x.trace = t₀.x.trace ++ ops ∧
    busReads ops = stride c.advanceS t₀.saddr items ∧ busWrites ops = []
  buf : ∀ i < j * c.ssize, t.buf i = items.flatten.getD i 0
  saddr : t.saddr = c.advanceS^[j] t₀.saddr
  daddr : t.daddr = t₀.daddr
  ch : t.x.st.ch = t₀.x.st.ch

omit hplain in
lemma fillBuf_flatten {buf : ℕ → Byte} {items : List (List Byte)} {data : List Byte}
    (hsize : ∀ item ∈ items, item.length = c.ssize) (hdata : data.length = c.ssize)
    (hbuf : ∀ i < items.length * c.ssize, buf i = items.flatten.getD i 0) :
    ∀ i < (items.length + 1) * c.ssize, fillBuf buf (items.length * c.ssize) data i =
      (items ++ [data]).flatten.getD i 0 := by
  intro i hi
  have hlen : items.flatten.length = items.length * c.ssize := by
    rw [length_flatten, eq_replicate_of_mem
      (a := c.ssize) (l := items.map List.length) (by simpa using hsize)]
    simp
  simp only [flatten_append, flatten_cons, flatten_nil, append_nil]
  by_cases hlow : items.length * c.ssize ≤ i
  · have hin : items.length * c.ssize ≤ i ∧ i < items.length * c.ssize + data.length := by
      rw [hdata]
      exact ⟨hlow, by rw [Nat.succ_mul] at hi; exact hi⟩
    rw [fillBuf, if_pos hin, flatten_getD_of_length items hsize data i 0 hlow]
  have hbelow : i < items.length * c.ssize := not_le.mp hlow
  rw [fillBuf, if_neg (fun h => hlow h.1), hbuf i hbelow]
  simp only [getD_eq_getElem?_getD]
  rw [List.getElem?_append_left (by omega)]

variable {t₀ t : Xfer μ}
variable {items : List (List Byte)} {count : ℕ}

lemma readChunk_step {j : ℕ} (h : ReadsDone c t₀ j t items) :
    ∃ data, ReadsDone c t₀ (j + 1) (readChunk bus c (j * c.ssize) t) (items ++ [data]) := by
  let reply := bus.read t.x t.saddr c.ssize
  have hdata : reply.2.1.toList.length = c.ssize := by simp
  obtain ⟨ops, htrace, hreads, hwrites⟩ := h.trace
  refine ⟨reply.2.1.toList, ?_, ?_, ?_, ?_, ?_, h.daddr, ?_⟩
  · simp [h.count]
  · intro item hitem
    rcases List.mem_append.mp hitem with hitem | hitem
    · exact h.size item hitem
    · rw [List.mem_singleton.mp hitem, hdata]
  · refine ⟨ops ++ [.read t.saddr reply.2.1.toList], ?_, ?_, ?_⟩
    · change reply.1.trace ++ [.read t.saddr reply.2.1.toList] = _
      rw [hplain.read_trace, htrace, List.append_assoc]
    · rw [busReads_append, hreads, stride_append, h.count, h.saddr]
      rfl
    · simp [hwrites, busWrites]
  · have hbuf : ∀ i < items.length * c.ssize, t.buf i = items.flatten.getD i 0 := by
      rw [h.count]
      exact h.buf
    have hfill := fillBuf_flatten c h.size hdata hbuf
    rwa [h.count] at hfill
  · change c.advanceS t.saddr = _
    rw [h.saddr]
    exact (iterate_succ_apply' _ _ _).symm
  · change reply.1.st.ch = _
    rw [hplain.read_ch, h.ch]

lemma readLoop_done (t₀ : Xfer μ) (hcount : c.chunk = count * c.ssize) :
    ∃ items, ReadsDone c t₀ count (forLoop c.ssize c.chunk (readChunk bus c) t₀) items := by
  rw [hcount]
  refine forLoop_invariant c.ssize_pos (P := fun j t => ∃ items, ReadsDone c t₀ j t items) ?_ ?_
  · rintro j t _ ⟨items, h⟩
    obtain ⟨data, hnext⟩ := readChunk_step hplain c h
    exact ⟨_, hnext⟩
  · exact ⟨[], rfl, by simp, ⟨[], by simp [busReads, busWrites, stride]⟩, by simp, rfl, rfl, rfl⟩

structure WritesDone (t₀ : Xfer μ) (j : ℕ) (t : Xfer μ) : Prop where
  trace : ∃ ops, t.x.trace = t₀.x.trace ++ ops ∧ busReads ops = [] ∧
    busWrites ops = stride c.advanceD t₀.daddr
      ((List.range j).map fun i => sliceBuf t₀.buf (i * c.dsize) c.dsize)
  buf : t.buf = t₀.buf
  saddr : t.saddr = t₀.saddr
  daddr : t.daddr = c.advanceD^[j] t₀.daddr
  ch : t.x.st.ch = t₀.x.st.ch

lemma writeLoop_done (t₀ : Xfer μ) (hcount : c.chunk = count * c.dsize) :
    WritesDone c t₀ count (forLoop c.dsize c.chunk (writeChunk bus c) t₀) := by
  rw [hcount]
  refine forLoop_invariant c.dsize_pos (P := fun j t => WritesDone c t₀ j t) ?_ ?_
  · intro j t _ h
    obtain ⟨ops, htrace, hreads, hwrites⟩ := h.trace
    let data := sliceBuf t.buf (j * c.dsize) c.dsize
    refine ⟨⟨ops ++ [.write t.daddr data], ?_, ?_, ?_⟩, h.buf, h.saddr, ?_, ?_⟩
    · change (bus.write (t.x.mark (.write t.daddr data)) t.daddr data).trace = _
      rw [hplain.write_trace]
      simp [Engine.mark, htrace]
    · simp [hreads, busReads]
    · rw [busWrites_append, hwrites, range_succ, map_append,
        stride_append, length_map, length_range, h.daddr]
      simp [busWrites, stride, data, h.buf]
    · change c.advanceD t.daddr = _
      rw [h.daddr]
      exact (iterate_succ_apply' _ _ _).symm
    change (bus.write (t.x.mark (.write t.daddr data)) t.daddr data).st.ch = _
    rw [hplain.write_ch]
    exact h.ch
  · exact ⟨⟨[], by simp [busReads, busWrites, stride]⟩, rfl, rfl, rfl, rfl⟩

structure ChunksDone (t₀ : Xfer μ) (m : ℕ) (t : Xfer μ)
    (ops : List BusMark) (items pieces : List (List Byte)) : Prop where
  trace : t.x.trace = t₀.x.trace ++ ops
  reads : busReads ops = stride c.advanceS t₀.saddr items
  writes : busWrites ops = stride c.advanceD t₀.daddr pieces
  readCount : items.length = m * (c.chunk / c.ssize)
  writeCount : pieces.length = m * (c.chunk / c.dsize)
  readSize : ∀ item ∈ items, item.length = c.ssize
  writeSize : ∀ piece ∈ pieces, piece.length = c.dsize
  stream : pieces.flatten = items.flatten
  saddr : t.saddr = c.advanceS^[m * (c.chunk / c.ssize)] t₀.saddr
  daddr : t.daddr = c.advanceD^[m * (c.chunk / c.dsize)] t₀.daddr
  ch : t.x.st.ch = t₀.x.st.ch

omit hplain in
lemma ReadsDone.range_map_buf (h : ReadsDone c t₀ count t items) :
    (List.range (count * c.ssize)).map t.buf = items.flatten := by
  have hlen : items.flatten.length = count * c.ssize := by
    rw [length_flatten, eq_replicate_of_mem
      (a := c.ssize) (l := items.map List.length) (by simpa using h.size)]
    simp [h.count]
  apply ext_getElem
  · simp [hlen]
  intro i hi hi'
  have hbound : i < count * c.ssize := by simpa using hi
  simp [h.buf i hbound, List.getElem?_eq_getElem hi']

lemma chunk_step {m : ℕ} {ops : List BusMark} {pieces : List (List Byte)}
    (h : ChunksDone c t₀ m t ops items pieces) :
    ∃ ops' items' pieces', ChunksDone c t₀ (m + 1) (forLoop c.dsize c.chunk (writeChunk bus c)
      (forLoop c.ssize c.chunk (readChunk bus c) t)) ops' items' pieces' := by
  have hreadCount : c.chunk = c.chunk / c.ssize * c.ssize :=
    (Nat.div_mul_cancel c.ssize_dvd_chunk).symm
  have hwriteCount : c.chunk = c.chunk / c.dsize * c.dsize :=
    (Nat.div_mul_cancel c.dsize_dvd_chunk).symm
  obtain ⟨new, hr⟩ := readLoop_done hplain c t hreadCount
  have hw := writeLoop_done hplain c (forLoop c.ssize c.chunk (readChunk bus c) t) hwriteCount
  obtain ⟨opsR, htraceR, hreadsR, hwritesR⟩ := hr.trace
  obtain ⟨opsW, htraceW, hreadsW, hwritesW⟩ := hw.trace
  set tR := forLoop c.ssize c.chunk (readChunk bus c) t with htR
  set out := (List.range (c.chunk / c.dsize)).map
    fun i => sliceBuf tR.buf (i * c.dsize) c.dsize with hout
  -- the pieces written are the buffer, and the buffer is the items read
  have hstream : out.flatten = new.flatten := by
    rw [← hr.range_map_buf, ← hreadCount, hout]
    simp only [sliceBuf]
    rw [flatten_pieces tR.buf c.dsize (c.chunk / c.dsize), ← hwriteCount]
  refine ⟨ops ++ (opsR ++ opsW), items ++ new, pieces ++ out, ?_⟩
  constructor
  · rw [htraceW, htraceR, h.trace]
    simp
  · rw [busReads_append, busReads_append, h.reads, hreadsR, hreadsW,
      append_nil, stride_append, h.readCount, h.saddr]
  · rw [busWrites_append, busWrites_append, h.writes, hwritesR, hwritesW,
      nil_append, stride_append, h.writeCount, hr.daddr, h.daddr]
  · rw [length_append, h.readCount, hr.count]
    ring
  · rw [length_append, h.writeCount, hout, length_map, length_range]
    ring
  · intro item hitem
    rcases List.mem_append.mp hitem with hitem | hitem
    · exact h.readSize item hitem
    · exact hr.size item hitem
  · intro piece hpiece
    rcases List.mem_append.mp hpiece with hpiece | hpiece
    · exact h.writeSize piece hpiece
    · obtain ⟨i, _, rfl⟩ := List.mem_map.mp hpiece
      simp [sliceBuf]
  · rw [flatten_append, flatten_append, h.stream, hstream]
  · rw [hw.saddr, hr.saddr, h.saddr, ← iterate_add_apply]
    congr 2
    ring
  · rw [hw.daddr, hr.daddr, h.daddr, ← iterate_add_apply]
    congr 2
    ring
  · rw [hw.ch, hr.ch, h.ch]

lemma move_done (x : Engine μ) (hdvd : c.chunk ∣ c.nbytes) : ∃ ops items pieces, ChunksDone c
      { x := x, saddr := c.tcdSaddr, daddr := c.tcdDaddr, buf := fun _ => 0 }
      (c.nbytes / c.chunk) (edmaMove bus c x) ops items pieces := by
  have hpos : 0 < c.chunk := by
    unfold Chan.chunk
    split
    · exact c.ssize_pos
    · exact c.dsize_pos
  unfold edmaMove
  nth_rewrite 2 [← Nat.div_mul_cancel hdvd]
  refine forLoop_invariant hpos (P := fun m t => ∃ ops items pieces, ChunksDone c
        { x := x, saddr := c.tcdSaddr, daddr := c.tcdDaddr, buf := fun _ => 0 }
        m t ops items pieces) ?_ ?_
  · rintro m t _ ⟨ops, items, pieces, h⟩
    exact chunk_step hplain c h
  · exact ⟨[], [], [], by constructor <;> simp [busReads, busWrites, stride]⟩

end DataPhase

end Mcxn947.Edma
