import Mcxn947.AlignedBlocks
import Mcxn947.EventRuns
import Mcxn947.FlexspiModel

/-!
# The mirror of the NOR

Between IP commands the mirror is the array of the NOR.
-/

namespace Mcxn947.Flexspi

open MachineWords GuestMemory SpiNor EventRuns List BitVec Nat Nor

variable {part : Part}

lemma toNat_clear_low (v mask : Word) (k : ℕ) (hmask : mask = (1 : Word) <<< k - 1) :
    (v &&& ~~~mask).toNat = v.toNat / 2 ^ k * 2 ^ k := by
  rw [hmask, AlignedBlocks.and_not_lowMask_toNat, AlignedBlocks.block, Nat.mul_comm]

lemma norOff_lt (part : Part) (addr : Word) : (norOff part addr).toNat < part.size := by
  have hle : (norOff part addr).toNat ≤ (part.size - 1) % 2 ^ 32 := by exact Nat.and_le_right
  have hpos := part.size_pos
  omega

lemma lt_addressable {a : ℕ} (h : a < part.size) : a < 2 ^ 24 := lt_of_lt_of_le h part.addressable

variable {nor : Nor} {op : Byte} {x : Board} {base : Mem} {q : FlexSPISeq} {addr : Word}
  (s : FlexspiState) (val : Word)

lemma frame_command {bits : ℕ}
    (hsel : nor.selected = false) (haddr : addr.toNat < 2 ^ 24) (hbits : bits / 8 = 3)
    (hkind : kind op = .read ∨ kind op = .program ∨ ∃ unit, kind op = .erase unit) :
    (nor.select true).send part (op :: spiSendAddr addr bits) =
      (nor.select true).execute part (kind op) addr.toNat := by
  have hbytes : spiSendAddr addr bits = [(addr >>> (2 * 8)).setWidth 8,
      (addr >>> (1 * 8)).setWidth 8, (addr >>> (0 * 8)).setWidth 8] := by
    rw [spiSendAddr, hbits]
    rfl
  rw [hbytes]
  apply send_command
  · exact select_selected true
  · rw [select_start hsel]
  · exact hkind
  · simp only [toNat_setWidth, toNat_ushiftRight, shiftRight_eq_div_pow]
    omega

variable {off : Word} {budget datsz : ℕ}

lemma norRead_spec (len : ℕ) (hsel : nor.selected = false)
    (hoff : off.toNat < part.size) (hend : off.toNat + len ≤ part.size) :
    (norRead part nor off len).1 = load nor.data off.toNat len ∧
      (norRead part nor off len).2.data = nor.data ∧
      (norRead part nor off len).2.selected = false := by
  have hcommand : (nor.select true).send part (norRead03 :: spiSendAddr off 24) =
      { nor.select true with phase := .read off.toNat } :=
    frame_command hsel (lt_addressable hoff) rfl (.inl rfl)
  have hread := receive_read len
    (n := { nor.select true with phase := .read off.toNat }) (select_selected true) rfl hend
  simp only [norRead, hcommand]
  refine ⟨?_, ?_, select_selected false⟩
  · rw [hread.1, select_data]
  · rw [select_data, hread.2, select_data]

def Shows (part : Part) (mirror base : Mem) : Prop := ∀ a < part.size, mirror a = base a

structure Idle (part : Part) (x : Board) : Prop where
  pending : x.st.pgmPending = false
  deselected : x.nor.selected = false
  shows : Shows part x.mirror x.nor.data

structure Waiting (part : Part) (x : Board) : Prop where
  pending : x.st.pgmPending = true
  shows : ∃ base, Shows part x.mirror base ∧
    Nor.Confined part x.nor base (x.st.pgmAddr.toNat / 256 * 256)
      (x.st.pgmAddr.toNat / 256 * 256 + 256) (x.st.pgmLen - x.st.txLen)

def Synced (part : Part) (x : Board) : Prop := Idle part x ∨ Waiting part x

def touched (k : Kind) (addr size : ℕ) : ℕ × ℕ :=
  match k with
  | .program => (addr / 256 * 256, 256)
  | .erase unit => (addr / unit * unit, unit)
  | .chipErase => (0, size)
  | _ => (0, 0)

def Within (part : Part) (nor : Nor) (base : Mem) (k : Kind) (addr budget : ℕ) : Prop :=
  Nor.Confined part nor base (touched k addr part.size).1
    ((touched k addr part.size).1 + (touched k addr part.size).2) budget

lemma dirtyRange_touched (cmd : Byte) (addr : Word) (size : ℕ) :
    ((flexspiDirtyRange cmd addr size).map fun r => (r.1.toNat, r.2)).getD (0, 0) =
      touched (kind cmd) addr.toNat size := by
  unfold kind
  split
  · rfl
  · rfl
  · rfl
  · exact congrArg (·, 256) (toNat_clear_low addr _ 8 rfl)
  · exact congrArg (·, 256) (toNat_clear_low addr _ 8 rfl)
  · exact congrArg (·, 0x1000) (toNat_clear_low addr _ 12 rfl)
  · exact congrArg (·, 0x8000) (toNat_clear_low addr _ 15 rfl)
  · exact congrArg (·, 0x10000) (toNat_clear_low addr _ 16 rfl)
  · rfl
  · rfl
  · unfold flexspiDirtyRange
    split <;> simp_all [touched]

lemma mirrorResync_spec (off : Word) (len : ℕ)
    (hsel : x.nor.selected = false) (hbase : Shows part x.mirror base)
    (hout : ∀ a, ¬ Covers off.toNat len a → x.nor.data a = base a) :
    (mirrorResync part x off len).nor.selected = false ∧
      Shows part (mirrorResync part x off len).mirror (mirrorResync part x off len).nor.data ∧
      (mirrorResync part x off len).st = x.st := by
  unfold mirrorResync
  split
  · refine ⟨hsel, ?_, rfl⟩
    intro a ha
    rw [hbase a ha, hout a (fun h => by have := h.1; omega)]
  rename_i hoff
  obtain ⟨hbytes, hdata, hsel'⟩ := norRead_spec
    (min len (part.size - off.toNat)) hsel (Nat.lt_of_not_le hoff) (by omega)
  refine ⟨hsel', ?_, rfl⟩
  intro a ha
  dsimp only
  rw [hbytes, hdata]
  by_cases hin : Covers off.toNat (min len (part.size - off.toNat)) a
  · rw [store_apply_of_covers (by rwa [length_load])]
    have hlt : a - off.toNat < min len (part.size - off.toNat) := by
      have := hin.1
      have := hin.2
      omega
    have hback := Nat.add_sub_cancel' hin.1
    simp [load, hlt, hback]
  rw [store_apply_of_not_covers (by rwa [length_load]), hbase a ha]
  refine (hout a fun h => hin ⟨h.1, ?_⟩).symm
  have := h.2
  omega

lemma finish_idle {cmd : Byte} (hbase : Shows part x.mirror base)
    (hwithin : Within part x.nor base (kind cmd) addr.toNat budget) :
    Idle part (flexspiFinish part x cmd addr) := by
  have htouched := dirtyRange_touched cmd addr part.size
  have hout := hwithin.outside
  unfold flexspiFinish
  cases hrange : flexspiDirtyRange cmd addr part.size with
  | none =>
    rw [hrange] at htouched
    refine ⟨rfl, select_selected false, ?_⟩
    intro a ha
    rw [select_data, hbase a ha]
    refine (hout a ?_).symm
    rw [← htouched]
    exact fun h => absurd h.2 (by simp)
  | some range =>
    obtain ⟨off, len⟩ := range
    rw [hrange] at htouched
    obtain ⟨hsel, hshows, -⟩ := mirrorResync_spec
      (x := { x with nor := x.nor.select false }) off len (select_selected false) hbase
      (by simpa [Covers, ← htouched] using hout)
    exact ⟨rfl, hsel, hshows⟩

lemma writeEnable_data (part : Part) (hsel : nor.selected = false) :
    (((nor.select true).send part [norWren]).select false).data = nor.data := by
  simp [transfer, select_start hsel, decode, norWren, kind]

lemma norProgramPage_same (hsel : nor.selected = false) (hend : off.toNat + 256 ≤ part.size) :
    (norProgramPage part nor off (load nor.data off.toNat 256)).data = nor.data := by
  have hoff : off.toNat < part.size := by omega
  rw [norProgramPage, ← writeEnable_data part hsel]
  have harmed : (((nor.select true).send part [norWren]).select false).selected = false :=
    select_selected false
  generalize ((nor.select true).send part [norWren]).select false = armed at harmed ⊢
  have hprogram : (armed.select true).send part (norPp :: spiSendAddr off 24) =
      { armed.select true with phase := .program off.toNat } :=
    frame_command harmed (lt_addressable hoff) rfl (.inr (.inl rfl))
  have hsame := send_program_same (n := { armed.select true with phase := .program off.toNat })
    (select_selected true) rfl hend
  simp only [hprogram, select_data] at hsame ⊢
  exact hsame

lemma flushPage_same (mirror : Mem) {page : ℕ} (hsel : nor.selected = false)
    (hshows : Shows part mirror nor.data) (hpage : page < part.size / mcxnNorPage) :
    (flushPage part mirror nor page).data = nor.data ∧
      (flushPage part mirror nor page).selected = false := by
  have hend : page * 256 + 256 ≤ part.size :=
    calc page * 256 + 256 = (page + 1) * 256 := (Nat.succ_mul _ _).symm
      _ ≤ part.size / 256 * 256 := Nat.mul_le_mul_right _ hpage
      _ ≤ part.size := div_mul_le_self _ _
  have hsize := part.addressable
  have hoff : (BitVec.ofNat 32 (page * 256)).toNat = page * 256 := by exact mod_eq_of_lt (by omega)
  have hload : load mirror (page * 256) 256 = load nor.data (page * 256) 256 := by
    apply load_congr
    intro a ha
    have := ha.2
    exact hshows a (by omega)
  simp only [flushPage]
  split
  · exact ⟨rfl, hsel⟩
  refine ⟨?_, select_selected false⟩
  have hsame := norProgramPage_same hsel (hoff.symm ▸ hend)
  rwa [hoff, ← hload] at hsame

lemma flushLoaderImage_idle (h : Idle part x) :
    Idle part (flexspiFlushLoaderImage part x) := by
  -- along the pages the array and the chip select are those of the start
  have hpages : ∀ (pages : List ℕ) (nor : Nor), (∀ p ∈ pages, p < part.size / mcxnNorPage) →
      nor.data = x.nor.data → nor.selected = false →
      (pages.foldl (flushPage part x.mirror) nor).data = x.nor.data ∧
        (pages.foldl (flushPage part x.mirror) nor).selected = false := by
    intro pages
    induction pages with
    | nil => exact fun nor _ hdata hsel => ⟨hdata, hsel⟩
    | cons p rest ih =>
      intro nor hlt hdata hsel
      obtain ⟨hdata', hsel'⟩ := flushPage_same x.mirror hsel
        (by rw [hdata]; exact h.shows) (hlt p mem_cons_self)
      exact ih _ (fun q hq => hlt q (mem_cons_of_mem _ hq)) (hdata'.trans hdata) hsel'
  obtain ⟨hdata, hsel⟩ := hpages (List.range (part.size / mcxnNorPage)) x.nor
    (fun p hp => List.mem_range.mp hp) rfl h.deselected
  refine ⟨h.pending, hsel, ?_⟩
  intro a ha
  simp only [flexspiFlushLoaderImage]
  rw [hdata]
  exact h.shows a ha

def dataBytes (q : FlexSPISeq) (datsz : ℕ) : ℕ := if q.hasRead || q.hasWrite then datsz else 0

def WaitsForData (q : FlexSPISeq) (datsz : ℕ) : Prop :=
  q.hasRead = false ∧ q.hasWrite = true ∧ datsz ≠ 0

def SequenceFits (part : Part) (q : FlexSPISeq) (addr datsz : ℕ) : Prop :=
  match kind q.cmd with
  | .program => q.addrBits / 8 = 3 ∧ addr % 256 + q.dummyCycles / 8 + dataBytes q datsz ≤ 256
  | .erase unit =>
    q.addrBits / 8 = 3 ∧ part.eraseStart addr unit = addr / unit * unit ∧ ¬ WaitsForData q datsz
  | .chipErase => ¬ WaitsForData q datsz
  | _ => True

lemma page_end_le {addr : ℕ} (h : addr < part.size) : addr / 256 * 256 + 256 ≤ part.size := by
  obtain ⟨pages, hpages⟩ := part.pages
  omega

section

variable (hsel : nor.selected = false)
include hsel

lemma opcode_passive {lo hi : ℕ}
    (hkind : kind op = .writeEnable ∨ kind op = .writeDisable ∨ kind op = .read ∨
      kind op = .other) :
    Nor.Confined part ((nor.select true).transfer part op).2 nor.data lo hi budget := by
  apply Nor.Confined.of_inert <;>
    rcases hkind with h | h | h | h <;>
    simp [transfer, select_start hsel, decode, h, Nor.Inert]

lemma opcode_chipErase (hkind : kind op = .chipErase) (budget : ℕ) :
    Nor.Confined part ((nor.select true).transfer part op).2 nor.data 0 part.size budget := by
  simp only [transfer, select_start hsel, decode, hkind, if_true]
  refine ⟨?_, .inl trivial⟩
  intro a ha
  split
  · exact if_neg (by simpa using ha)
  · rfl

lemma command_within (haddr : addr.toNat < part.size)
    (hfits : SequenceFits part q addr.toNat datsz) :
    Within part ((nor.select true).send part (commandBytes q addr)) nor.data (kind q.cmd)
      addr.toNat (dataBytes q datsz) := by
  rw [Within, commandBytes, send_append]
  apply Nor.Confined.send
  rw [length_replicate]
  unfold SequenceFits at hfits
  cases hkind : kind q.cmd with
  | program =>
    rw [hkind] at hfits
    obtain ⟨hbits, hroom⟩ := hfits
    have hpage := page_end_le haddr
    rw [frame_command hsel (lt_addressable haddr) hbits (.inr (.inl hkind)), hkind]
    refine ⟨fun a _ => by simp [execute], .inr ⟨addr.toNat, rfl, ?_, ?_, ?_⟩⟩
    · exact div_mul_le_self _ _
    · dsimp only [touched]
      omega
    · omega
  | erase unit =>
    rw [hkind] at hfits
    obtain ⟨hbits, hstart, -⟩ := hfits
    rw [frame_command hsel (lt_addressable haddr) hbits (.inr (.inr ⟨unit, hkind⟩)), hkind]
    refine ⟨?_, .inl trivial⟩
    intro a ha
    simp only [execute, mod_eq_of_lt haddr, hstart, select_data]
    split
    · exact if_neg ha
    · rfl
  | chipErase =>
    rw [send_cons]
    apply Nor.Confined.send
    simpa [touched] using opcode_chipErase hsel hkind _
  | writeEnable => exact (opcode_passive hsel (.inl hkind)).send
  | writeDisable => exact (opcode_passive hsel (.inr (.inl hkind))).send
  | read => exact (opcode_passive hsel (.inr (.inr (.inl hkind)))).send
  | other => exact (opcode_passive hsel (.inr (.inr (.inr hkind)))).send

end

structure Steady (s s' : FlexspiState) : Prop where
  pending : s'.pgmPending = s.pgmPending
  program : s.pgmPending = true → s'.pgmAddr = s.pgmAddr ∧ s'.pgmLen = s.pgmLen ∧ s'.txLen = s.txLen

lemma Steady.refl : Steady s s := ⟨rfl, fun _ => ⟨rfl, rfl, rfl⟩⟩

lemma Steady.trans {s s' s'' : FlexspiState} (h : Steady s s') (h' : Steady s' s'') :
    Steady s s'' := by
  refine ⟨h'.pending.trans h.pending, ?_⟩
  intro hpend
  obtain ⟨haddr, hlen, htx⟩ := h.program hpend
  obtain ⟨haddr', hlen', htx'⟩ := h'.program (h.pending.trans hpend)
  exact ⟨haddr'.trans haddr, hlen'.trans hlen, htx'.trans htx⟩

lemma Steady.ite {s a b : FlexspiState} {c : Prop} [Decidable c] (ha : Steady s a)
    (hb : Steady s b) : Steady s (if c then a else b) := by
  split
  · exact ha
  · exact hb

lemma steady_setReg (r : RegIdx) (v : Word) : Steady s (s.setReg r v) :=
  ⟨rfl, fun _ => ⟨rfl, rfl, rfl⟩⟩

lemma steady_setRegIf (r : RegIdx) (v : Word) (c : Prop) [Decidable c] :
    Steady s (if c then s.setReg r v else s) :=
  Steady.ite (steady_setReg s r v) (Steady.refl s)

lemma steady_updateIrq : Steady s (mcxnFlexspiUpdateIrq s) := ⟨rfl, fun _ => ⟨rfl, rfl, rfl⟩⟩

lemma steady_updateDmaReq : Steady s (flexspiUpdateDmaReq s) := by
  simp only [flexspiUpdateDmaReq]
  split <;> split <;> exact ⟨rfl, fun _ => ⟨rfl, rfl, rfl⟩⟩

lemma Synced.steady {st : FlexspiState} (h : Synced part x)
    (hsteady : Steady x.st st) : Synced part { x with st := st } := by
  rcases h with h | h
  · exact .inl ⟨hsteady.pending.trans h.pending, h.deselected, h.shows⟩
  obtain ⟨haddr, hlen, htx⟩ := hsteady.program h.pending
  refine .inr ⟨hsteady.pending.trans h.pending, ?_⟩
  simpa only [haddr, hlen, htx] using h.shows

lemma steady_writeIntr : Steady s (writeIntr s val) := by
  have hpop : Steady s (popWatermark s val) :=
    Steady.ite ⟨rfl, fun _ => ⟨rfl, rfl, rfl⟩⟩ (Steady.refl s)
  unfold writeIntr
  refine Steady.trans ?_ ((steady_updateIrq _).trans (steady_updateDmaReq _))
  refine Steady.trans ?_ (steady_setRegIf _ _ _ _)
  refine Steady.trans ?_ (steady_setRegIf _ _ _ _)
  exact hpop.trans (steady_setReg _ _ _)

lemma steady_writeIprxfcr : Steady s (writeIprxfcr s val) := by
  refine Steady.trans ?_ (steady_updateDmaReq _)
  split <;> exact ⟨rfl, fun _ => ⟨rfl, rfl, rfl⟩⟩

lemma steady_writeIptxfcr : Steady s (writeIptxfcr s val) := by
  refine Steady.trans ?_ (steady_updateDmaReq _)
  split
  next hclear =>
    have hidle : s.pgmPending = false := hclear.2
    exact ⟨rfl, fun hpend => by simp [hidle] at hpend⟩
  · exact steady_setReg _ _ _

lemma steady_writeQuiet (off : Fin 0x1000) (val : Word) : Steady s (writeQuiet s off val) := by
  unfold writeQuiet
  split
  · exact Steady.refl s
  split
  · exact steady_setReg _ _ _
  split
  · exact steady_writeIntr s val
  split
  · exact (steady_setReg _ _ _).trans (steady_updateIrq _)
  split
  · exact steady_writeIprxfcr s val
  split
  · exact steady_writeIptxfcr s val
  split
  · exact Steady.refl s
  · exact steady_setReg _ _ _

lemma steady_read (off : ℕ) : Steady s (mcxnFlexspiRead s off).2 := by
  have hpop : Steady s (rfdrPop s) := by
    refine Steady.trans ?_ (steady_updateDmaReq _)
    split <;> exact ⟨rfl, fun _ => ⟨rfl, rfl, rfl⟩⟩
  have hrfdr : Steady s (if (off - 0x100) / 4 = 0 ∧ anyBit (s.regs rIprxfcr) fcrDmaen ∧
      s.rxPos < s.rxLen then rfdrPop s else s) := Steady.ite hpop (Steady.refl s)
  unfold mcxnFlexspiRead
  generalize (if h : off < 0x1000 then s.regs ⟨off / 4, _⟩ else (0 : Word)) = v
  iterate 5
    split
    · exact Steady.refl s
  split
  · exact hrfdr
  · exact Steady.refl s

lemma waiting_confined {addr : ℕ}
    (hwaits : WaitsForData q datsz) (hfits : SequenceFits part q addr datsz)
    (h : Within part nor base (kind q.cmd) addr (dataBytes q datsz)) :
    Nor.Confined part nor base (addr / 256 * 256) (addr / 256 * 256 + 256) datsz := by
  have hbudget : dataBytes q datsz = datsz - 1 + 1 := by
    simp only [dataBytes, hwaits.2.1, Bool.or_true, if_true]
    exact (succ_pred hwaits.2.2).symm
  unfold Within at h
  unfold SequenceFits at hfits
  cases hkind : kind q.cmd with
  | program => simpa [hkind, touched, dataBytes, hwaits.2.1] using h
  | erase unit => exact absurd hwaits (by simp only [hkind] at hfits; exact hfits.2.2)
  | chipErase => exact absurd hwaits (by simpa only [hkind] using hfits)
  | writeEnable | writeDisable =>
    exact Nor.Confined.of_empty (by simpa [hkind, touched, hbudget] using h)
  | read | other => exact Nor.Confined.of_empty (by simpa [hkind, touched, hbudget] using h)

lemma runSequence_synced (hidle : Idle part x) (haddr : addr.toNat < part.size)
    (hfits : SequenceFits part q addr.toNat datsz) :
    Synced part (runSequence part x q addr datsz) := by
  unfold runSequence
  have hflushed : Idle part (if x.st.loaderFlushed then x else flexspiFlushLoaderImage part x) := by
    split
    · exact hidle
    · exact flushLoaderImage_idle hidle
  generalize (if x.st.loaderFlushed then x else flexspiFlushLoaderImage part x) = y at hflushed
  have hframe := command_within hflushed.deselected haddr hfits
  split
  next hread =>
    have hdone : Within part (receive part datsz
        ((y.nor.select true).send part (commandBytes q addr))).2 y.nor.data (kind q.cmd)
        addr.toNat 0 := by
      rw [receive_eq_send]
      apply Nor.Confined.send
      simpa [Within, dataBytes, hread] using hframe
    refine Synced.steady (.inl ?_) (steady_updateDmaReq _)
    exact finish_idle (x := { y with st := _, nor := _ }) hflushed.shows hdone
  split
  next hread hwrite =>
    have hwaits : WaitsForData q datsz := ⟨by simpa using hread, hwrite.1, hwrite.2⟩
    have hpage := (waiting_confined hwaits hfits hframe).le (sub_le datsz y.st.txLen)
    refine Synced.steady (x := { y with
        st := { y.st with pgmPending := true, pgmAddr := addr, pgmLen := datsz }, nor := _ })
      (.inr ⟨rfl, y.nor.data, hflushed.shows, hpage⟩) ?_
    exact (steady_setReg _ _ _).trans ((steady_updateIrq _).trans (steady_updateDmaReq _))
  · exact .inl (finish_idle hflushed.shows hframe)

lemma feedProgram_synced (h : Waiting part x) (val : Word) :
    Synced part (feedProgram part x val) := by
  obtain ⟨base, hbase, hconfined⟩ := h.shows
  have hlen : ((wordBytes val).take (x.st.pgmLen - x.st.txLen)).length ≤
      x.st.pgmLen - x.st.txLen := by
    rw [length_take]
    exact Nat.min_le_left _ _
  unfold feedProgram
  generalize (wordBytes val).take (x.st.pgmLen - x.st.txLen) = bytes at hlen
  have hleft : x.st.pgmLen - x.st.txLen =
      x.st.pgmLen - (x.st.txLen + bytes.length) + bytes.length := by
    omega
  rw [hleft] at hconfined
  have hsent := hconfined.send
  refine Synced.steady ?_ (steady_updateDmaReq _)
  split
  · have hidle : Idle part (flexspiFinish part _ norPp x.st.pgmAddr) :=
      finish_idle (x := { x with
        st := { x.st with txLen := x.st.txLen + bytes.length },
        nor := x.nor.send part bytes }) hbase hsent
    exact Synced.steady (.inl hidle) ((steady_setReg _ _ _).trans (steady_updateIrq _))
  · exact .inr ⟨h.pending, base, hbase, hsent⟩

def CommandFits (part : Part) (x : Board) : Prop :=
  let ipcr1 := x.st.regs rIpcr1
  let q := flexspiDecodeLut x.st (ipcr1Iseqid ipcr1)
  x.st.pgmPending = false ∧
    (q.valid = true → ipcr1Idatsz ipcr1 ≤ mcxnFlexspiXferMax →
      SequenceFits part q (norOff part (x.st.regs rIpcr0)).toNat (ipcr1Idatsz ipcr1))

def EventFits (part : Part) (x : Board) : Event → Prop
  | .write off val => off = 0xB0 → anyBit val ipcmdTrg = true → CommandFits part x
  | _ => True

lemma ipCommand_synced (h : Synced part x) (hfits : CommandFits part x) :
    Synced part (flexspiIpCommand part x) := by
  obtain ⟨hpend, hseq⟩ := hfits
  have hidle : Idle part x := by
    rcases h with h | h
    · exact h
    · exact absurd h.pending (by simp [hpend])
  unfold flexspiIpCommand
  dsimp only
  split
  · exact .inl ⟨hpend, hidle.deselected, hidle.shows⟩
  rename_i hvalid
  split
  · exact .inl ⟨hpend, hidle.deselected, hidle.shows⟩
  rename_i hsize
  refine runSequence_synced ⟨hpend, hidle.deselected, hidle.shows⟩ (norOff_lt part _) ?_
  exact hseq (by simpa using hvalid) (Nat.le_of_not_lt hsize)

lemma step_synced {event : Event} (hfits : EventFits part x event)
    (h : Synced part x) : Synced part (step part x event) := by
  cases event with
  | read off => exact h.steady (steady_read x.st off)
  | windowStore off val => exact h
  | write off val =>
    simp only [step, mcxnFlexspiWrite]
    split
    · split
      next hipcmd =>
        split
        next htrg => exact ipCommand_synced h (hfits hipcmd htrg)
        · exact h
      split
      · split
        next hpend =>
          rcases h with h | h
          · exact absurd h.pending (by simp [hpend])
          · exact feedProgram_synced h val
        · exact h
      · exact h.steady (steady_writeQuiet x.st _ val)
    · exact h

/-- From an idle controller whose mirror shows the flash, along every run whose IP
commands fit: whenever no program waits for data the mirror is the flash, and a
CPU store to the window changes nothing. -/
theorem mirror_shows_flash (hpending : x.st.pgmPending = false)
    (hdeselected : x.nor.selected = false)
    (hmirror : ∀ a < part.size, x.mirror a = x.nor.data a) {events : List Event}
    (hfits : Admits (step part) (EventFits part) x events) :
    ((run (step part) x events).st.pgmPending = false →
      ∀ a < part.size, (run (step part) x events).mirror a =
        (run (step part) x events).nor.data a) ∧
    ∀ off val, step part (run (step part) x events) (.windowStore off val) =
      run (step part) x events := by
  have hinit : Synced part x := .inl ⟨hpending, hdeselected, hmirror⟩
  have hsynced := run_invariant_of_admits (fun _ _ hfits h => step_synced hfits h) hinit hfits
  refine ⟨?_, fun _ _ => rfl⟩
  intro hidle
  rcases hsynced with h | h
  · exact h.shows
  · exact absurd h.pending (by simp [hidle])

def blank : Board where
  st :=
    { regs := fun _ => 0, loaderFlushed := true, rxBuf := fun _ => 0, rxLen := 0, rxPos := 0,
      txLen := 0, pgmPending := false, pgmAddr := 0, pgmLen := 0, rxDmaLvl := false,
      txDmaLvl := false, irq := false, dmaReqRx := false, dmaReqTx := false }
  mirror := fun _ => 0xFF
  nor := { data := fun _ => 0xFF, writeEnabled := false, selected := false, phase := .opcode }

def programTwoBytes (addr : Word) : List Event :=
  [.write 0x200 0x00000406, .write 0x210 0x08180402, .write 0x214 0x00002000,
    .write 0xA4 0x00000000, .write 0xB0 1,
    .write 0xA0 addr, .write 0xA4 0x00010002, .write 0xB0 1, .write 0x180 0]

theorem two_bytes_inside_page_shown :
    (∀ a < w25q64.size, (run (step w25q64) blank (programTwoBytes 0xFE)).mirror a =
        (run (step w25q64) blank (programTwoBytes 0xFE)).nor.data a) ∧
      (run (step w25q64) blank (programTwoBytes 0xFE)).nor.data 0xFF = 0 := by
  have hfits : Admits (step w25q64) (EventFits w25q64) blank (programTwoBytes 0xFE) := by
    refine ⟨?_, ?_, ?_, ?_, ?_, ?_, ?_, ?_, ?_, trivial⟩
    · exact fun h => absurd h (by decide)
    · exact fun h => absurd h (by decide)
    · exact fun h => absurd h (by decide)
    · exact fun h => absurd h (by decide)
    · exact fun _ _ => ⟨rfl, fun _ _ => trivial⟩
    · exact fun h => absurd h (by decide)
    · exact fun h => absurd h (by decide)
    · refine fun _ _ => ⟨rfl, fun _ _ => ⟨rfl, by decide⟩⟩
    · exact fun h => absurd h (by decide)
  have hshown := mirror_shows_flash rfl rfl (fun _ _ => rfl) hfits
  exact ⟨hshown.1 (by decide +kernel), by decide +kernel⟩

theorem program_across_page_stale :
    (run (step w25q64) blank (programTwoBytes 0xFF)).st.pgmPending = false ∧
      (run (step w25q64) blank (programTwoBytes 0xFF)).nor.data 0x100 = 0 ∧
      (run (step w25q64) blank (programTwoBytes 0xFF)).mirror 0x100 = 0xFF := by
  decide +kernel

end Mcxn947.Flexspi
