import Mcxn947.AlignedBlocks
import Mcxn947.EdmaRefusal

/-!
# Circular buffers

With `ATTR[SMOD] = k` the source address wraps inside its `2 ^ k`-byte block,
with `ATTR[DMOD]` the destination address does.
-/

namespace Mcxn947.Edma

open MachineWords AlignedBlocks Function Chan List

variable {k j : ℕ} {addr base : Word} {off : HalfWord}

section

variable (addr : Word) (off : HalfWord) (hk : k ≠ 0)
include hk

lemma advance_of_ne_zero :
    edmaAdvance addr off k = splice k addr (addr + off.signExtend 32) := by
  have hone : ((1 <<< k : ℕ) : Word) = (1 : Word) <<< k := by
    apply BitVec.eq_of_toNat_eq
    simp [Nat.shiftLeft_eq]
  rw [edmaAdvance, if_neg hk, splice, hone]

lemma advance_block : block k (edmaAdvance addr off k) = block k addr := by
  rw [advance_of_ne_zero addr off hk, block_splice]

end

lemma advance_dvd (hj : j ≤ 32)
    (haddr : 2 ^ j ∣ addr.toNat) (hoff : ((2 ^ j : ℕ) : ℤ) ∣ off.toInt)
    (k : ℕ) : 2 ^ j ∣ (edmaAdvance addr off k).toNat := by
  have hsum := dvd_add_signExtend hj haddr hoff
  by_cases hk : k = 0
  · rw [edmaAdvance, if_pos hk]
    exact hsum
  · rw [advance_of_ne_zero addr off hk]
    exact dvd_splice k haddr hsum

lemma attrSsize_le (a : HalfWord) : attrSsize a ≤ 7 := by exact Nat.and_le_right

lemma attrDsize_le (a : HalfWord) : attrDsize a ≤ 7 := by exact Nat.and_le_right

structure OnRing (j k : ℕ) (base addr : Word) : Prop where
  aligned : 2 ^ j ∣ addr.toNat
  inBlock : k ≠ 0 → block k addr = block k base

lemma OnRing.iterate (hj : j ≤ 32) (hoff : ((2 ^ j : ℕ) : ℤ) ∣ off.toInt)
    (h : OnRing j k base addr) (count : ℕ) :
    OnRing j k base ((fun a => edmaAdvance a off k)^[count] addr) := by
  induction count with
  | zero => exact h
  | succ count ih =>
    rw [iterate_succ_apply']
    refine ⟨advance_dvd hj ih.aligned hoff k, fun hk => ?_⟩
    rw [advance_block _ off hk, ih.inBlock hk]

lemma OnRing.bytes (h : OnRing j k base addr) (hk : k ≠ 0) (hsize : 2 ^ j ≤ 2 ^ k) :
    ∀ i < 2 ^ j, (addr.toNat + i) / 2 ^ k = block k base := by
  intro i hi
  have hjk : j ≤ k := (Nat.pow_le_pow_iff_right (by decide)).mp hsize
  rw [block_of_aligned hjk h.aligned hi, h.inBlock hk]

structure SameTransfer (c c' : Chan) : Prop where
  saddr : c'.tcdSaddr = c.tcdSaddr
  daddr : c'.tcdDaddr = c.tcdDaddr
  soff : c'.tcdSoff = c.tcdSoff
  doff : c'.tcdDoff = c.tcdDoff
  attr : c'.tcdAttr = c.tcdAttr
  nbytes : c'.tcdNbytes = c.tcdNbytes

variable {μ : Type}

inductive MinorLoopEntry (x : Engine μ) (n : ChanIdx) : Engine μ → Prop where
  | start (v : Word) : anyBit v (tcdCsrStart.setWidth 32) = true →
      MinorLoopEntry x n ((x.modifyCh n fun c => c.write v .tcdCsr).modifyCh n clearDone)
  | request : x.st.eligible n = true →
      MinorLoopEntry x n
        ((x.mark (.request n (muxSrc (x.st.ch n).mux))).modifyCh n clearDone)
  | link : x.st.inLink = false → MinorLoopEntry x n ((x.setInLink true).modifyCh n clearDone)

lemma MinorLoopEntry.sameTransfer {x x' : Engine μ} {n : ChanIdx}
    (h : MinorLoopEntry x n x') : SameTransfer (x.st.ch n) (x'.st.ch n) := by
  cases h <;>
    constructor <;>
    simp [Engine.modifyCh, EdmaState.modifyCh, Engine.mark, Engine.setInLink,
      Chan.write, Chan.clearDone]

/-- A run of minor loops of channel `n` from `x`, with the accesses each of
them makes.  Between two of them, and after a write-back, the engine may do
anything that keeps the channel's transfer registers; so the run ends where
`SLAST` and `DLAST` are applied. -/
inductive MajorLoop (bus : Bus μ) (n : ChanIdx) (x : Engine μ) :
    List (List BusMark) → Engine μ → Prop where
  | begin : MajorLoop bus n x [] x
  | elsewhere {log : List (List BusMark)} {y z : Engine μ} :
      MajorLoop bus n x log y → SameTransfer (y.st.ch n) (z.st.ch n) →
      MajorLoop bus n x log z
  | minorLoop {log : List (List BusMark)} {y x' : Engine μ} {ops : List BusMark} :
      MajorLoop bus n x log y → MinorLoopEntry y n x' →
      (edmaMinorBody bus x' n).trace = x'.trace ++ .minor n :: ops →
      MajorLoop bus n x (log ++ [ops]) (edmaMinorBody bus x' n)

structure RingsKept (c c' : Chan) : Prop where
  source : OnRing (attrSsize c.tcdAttr) (attrSmod c.tcdAttr) c.tcdSaddr c'.tcdSaddr
  dest : OnRing (attrDsize c.tcdAttr) (attrDmod c.tcdAttr) c.tcdDaddr c'.tcdDaddr
  soff : c'.tcdSoff = c.tcdSoff
  doff : c'.tcdDoff = c.tcdDoff
  attr : c'.tcdAttr = c.tcdAttr
  nbytes : c'.tcdNbytes = c.tcdNbytes

lemma RingsKept.sameTransfer {c c' c'' : Chan} (h : RingsKept c c')
    (hsame : SameTransfer c' c'') : RingsKept c c'' where
  source := by rw [hsame.saddr]; exact h.source
  dest := by rw [hsame.daddr]; exact h.dest
  soff := hsame.soff.trans h.soff
  doff := hsame.doff.trans h.doff
  attr := hsame.attr.trans h.attr
  nbytes := hsame.nbytes.trans h.nbytes

structure AccessesOnRings (c : Chan) (ops : List BusMark) : Prop where
  readSize : ∀ r ∈ busReads ops, r.2.length = c.ssize
  writeSize : ∀ w ∈ busWrites ops, w.2.length = c.dsize
  reads : ∀ r ∈ busReads ops, OnRing (attrSsize c.tcdAttr) (attrSmod c.tcdAttr) c.tcdSaddr r.1
  writes : ∀ w ∈ busWrites ops, OnRing (attrDsize c.tcdAttr) (attrDmod c.tcdAttr) c.tcdDaddr w.1

lemma Chan.Accepted.ringsKept {c : Chan} (h : c.Accepted) : RingsKept c c where
  source := ⟨not_not.mp (h .saddr), fun _ => rfl⟩
  dest := ⟨not_not.mp (h .daddr), fun _ => rfl⟩
  soff := rfl
  doff := rfl
  attr := rfl
  nbytes := rfl

section Run

variable {bus : Bus μ} {n : ChanIdx} {c : Chan}

lemma minorBody_registers (hplain : bus.Plain) (x : Engine μ) :
    ((edmaMinorBody bus x n).st.ch n).tcdSoff = (x.st.ch n).tcdSoff ∧
      ((edmaMinorBody bus x n).st.ch n).tcdDoff = (x.st.ch n).tcdDoff ∧
      ((edmaMinorBody bus x n).st.ch n).tcdAttr = (x.st.ch n).tcdAttr ∧
      ((edmaMinorBody bus x n).st.ch n).tcdNbytes = (x.st.ch n).tcdNbytes := by
  simp only [edmaMinorBody, edmaWriteBack, Engine.modifyCh, EdmaState.modifyCh, update_self]
  rw [move_ch hplain]
  exact ⟨rfl, rfl, rfl, rfl⟩

lemma RingsKept.minorLoop (hplain : bus.Plain) (haccepted : c.Accepted)
    {x' : Engine μ} {ops : List BusMark} (hkept : RingsKept c (x'.st.ch n))
    (htrace : (edmaMinorBody bus x' n).trace = x'.trace ++ .minor n :: ops) :
    AccessesOnRings c ops ∧ RingsKept c ((edmaMinorBody bus x' n).st.ch n) := by
  have hdvd : (x'.st.ch n).chunk ∣ (x'.st.ch n).nbytes := by
    simp only [chunk, ssize, dsize, Chan.nbytes, hkept.attr, hkept.nbytes]
    exact haccepted.chunk_dvd
  have hbytes : (x'.st.ch n).nbytes ≠ 0 := by
    rw [Chan.nbytes, hkept.nbytes]
    exact haccepted .nbytesZero
  obtain ⟨ops', hdone⟩ := minorBody_done hplain hdvd hbytes
  obtain rfl : ops' = ops := by simpa using hdone.trace.symm.trans htrace
  have hsoff : ((2 ^ attrSsize c.tcdAttr : ℕ) : ℤ) ∣ (x'.st.ch n).tcdSoff.toInt := by
    rw [hkept.soff]
    exact not_not.mp (haccepted .soff)
  have hdoff : ((2 ^ attrDsize c.tcdAttr : ℕ) : ℤ) ∣ (x'.st.ch n).tcdDoff.toInt := by
    rw [hkept.doff]
    exact not_not.mp (haccepted .doff)
  have hsource := hkept.source.iterate ((attrSsize_le c.tcdAttr).trans (by decide)) hsoff
  have hdest := hkept.dest.iterate ((attrDsize_le c.tcdAttr).trans (by decide)) hdoff
  have hssize : (x'.st.ch n).ssize = c.ssize := by rw [ssize, hkept.attr, ssize]
  have hdsize : (x'.st.ch n).dsize = c.dsize := by rw [dsize, hkept.attr, dsize]
  refine ⟨⟨?_, ?_, ?_, ?_⟩, ?_⟩
  · intro r hr
    rw [hdone.readSize r hr, hssize]
  · intro w hw
    rw [hdone.writeSize w hw, hdsize]
  · intro r hr
    have hmem := mem_map_of_mem (f := Prod.fst) hr
    rw [hdone.readAddrs, mem_map] at hmem
    obtain ⟨count, _, hcount⟩ := hmem
    rw [← hcount, hkept.attr]
    exact hsource count
  · intro w hw
    have hmem := mem_map_of_mem (f := Prod.fst) hw
    rw [hdone.writeAddrs, mem_map] at hmem
    obtain ⟨count, _, hcount⟩ := hmem
    rw [← hcount, hkept.attr]
    exact hdest count
  obtain ⟨hsoff', hdoff', hattr', hnbytes'⟩ := minorBody_registers (n := n) hplain x'
  refine ⟨?_, ?_, hsoff'.trans hkept.soff, hdoff'.trans hkept.doff,
    hattr'.trans hkept.attr, hnbytes'.trans hkept.nbytes⟩
  · rw [hdone.saddr, hkept.attr]
    exact hsource _
  · rw [hdone.daddr, hkept.attr]
    exact hdest _

lemma MajorLoop.onRings (hplain : bus.Plain) {x y : Engine μ}
    {log : List (List BusMark)} (hrun : MajorLoop bus n x log y)
    (haccepted : (x.st.ch n).Accepted) :
    (∀ ops ∈ log, AccessesOnRings (x.st.ch n) ops) ∧ RingsKept (x.st.ch n) (y.st.ch n) := by
  induction hrun with
  | begin => exact ⟨by simp, haccepted.ringsKept⟩
  | elsewhere _ hsame ih => exact ⟨ih.1, ih.2.sameTransfer hsame⟩
  | minorLoop _ hentry htrace ih =>
    have hentered := ih.2.sameTransfer hentry.sameTransfer
    obtain ⟨hnew, hkept⟩ := hentered.minorLoop hplain haccepted htrace
    refine ⟨?_, hkept⟩
    intro ops hops
    rcases List.mem_append.mp hops with hold | hlast
    · exact ih.1 ops hold
    · rw [List.mem_singleton.mp hlast]
      exact hnew

/-- A valid descriptor with a source modulo of at least the transfer size
reads only inside the block of its first source address, over the whole major
loop, and its source address stays aligned; likewise for what it writes. -/
theorem majorLoop_stays_in_blocks (hplain : bus.Plain) {x y : Engine μ}
    {log : List (List BusMark)} (hrun : MajorLoop bus n x log y)
    (haccepted : (x.st.ch n).Accepted) :
    (∀ k, attrSmod (x.st.ch n).tcdAttr = k → 0 < k → (x.st.ch n).ssize ≤ 2 ^ k →
        (∀ ops ∈ log, ∀ r ∈ busReads ops, r.2.length = (x.st.ch n).ssize ∧ ∀ i < (x.st.ch n).ssize,
            (r.1.toNat + i) / 2 ^ k = (x.st.ch n).tcdSaddr.toNat / 2 ^ k) ∧
        (x.st.ch n).ssize ∣ (y.st.ch n).tcdSaddr.toNat) ∧
    (∀ k, attrDmod (x.st.ch n).tcdAttr = k → 0 < k → (x.st.ch n).dsize ≤ 2 ^ k →
        (∀ ops ∈ log, ∀ w ∈ busWrites ops, w.2.length = (x.st.ch n).dsize ∧ ∀ i < (x.st.ch n).dsize,
            (w.1.toNat + i) / 2 ^ k = (x.st.ch n).tcdDaddr.toNat / 2 ^ k) ∧
        (x.st.ch n).dsize ∣ (y.st.ch n).tcdDaddr.toNat) := by
  obtain ⟨haccesses, hkept⟩ := hrun.onRings hplain haccepted
  constructor
  · rintro k rfl hk hsize
    refine ⟨fun ops hops r hr => ⟨(haccesses ops hops).readSize r hr, ?_⟩, hkept.source.aligned⟩
    exact ((haccesses ops hops).reads r hr).bytes hk.ne' hsize
  rintro k rfl hk hsize
  refine ⟨fun ops hops w hw => ⟨(haccesses ops hops).writeSize w hw, ?_⟩, hkept.dest.aligned⟩
  exact ((haccesses ops hops).writes w hw).bytes hk.ne' hsize

end Run

def ringChan : Chan :=
  { byteToWordChan with tcdSaddr := 0x46, tcdAttr := 0x1822, tcdSoff := 0xFFFF }

def ringEngine : Engine (Word → Byte) :=
  ⟨{ EdmaState.created 0 with ch := fun _ => ringChan }, fun _ => 0xA5, []⟩

theorem majorLoop_stays_in_ringChan : ∃ (ops : List BusMark) (y : Engine (Word → Byte)),
      MajorLoop memoryBus 3 ringEngine [ops] y ∧
      ∀ r ∈ busReads ops, r.1.toNat / 2 ^ 3 = 0x46 / 2 ^ 3 := by
  have hentry : MinorLoopEntry ringEngine 3 _ := .start 1 (by decide)
  obtain ⟨ops, hdone⟩ := minorBody_done memoryBus_plain
    (x := (ringEngine.modifyCh 3 fun c => c.write 1 .tcdCsr).modifyCh 3
      clearDone) (n := 3) (by decide) (by decide)
  have hrun : MajorLoop memoryBus 3 ringEngine [ops] _ := .minorLoop .begin hentry hdone.trace
  refine ⟨ops, _, hrun, fun r hr => ?_⟩
  have hreads := (majorLoop_stays_in_blocks memoryBus_plain hrun
    ((accepted_iff _).mpr (by decide))).1 3 (by decide) (by decide)
      (by decide)
  exact (hreads.1 ops (by simp) r hr).2 0 (by decide)

end Mcxn947.Edma
