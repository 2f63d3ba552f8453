import Mcxn947.DacModel
import Mcxn947.NarrowWrites
import Mcxn947.PdmModel
import Mcxn947.SincModel

/-!
# Narrow writes to the DAC, the SINC filter and the microphone interface

Each of the three merges a narrow write into the register file, except at the offsets that
have a case of their own: there the value is stored as the whole word, or its ones clear
flags.
-/

namespace Mcxn947.NarrowRegisters

open MachineWords LevelLines BusAccesses Function RegWrite List

section Dac

open Dac

structure DacView where
  regs : ℕ → Word
  hpdac : Bool
  fifo : ℕ → HalfWord
  (wptr rptr count : ℕ)
  out : Word
  (irq dma : Bool)

variable (s : DacState) (i : ℕ) (w : RegWrite)

def dacVisible (v : Word) : Word := if i = dacFsr / 4 then v &&& fsrW1cMask else v

def dacView : DacView where
  regs := fun i => dacVisible i (s.regs i)
  hpdac := s.hpdac
  fifo := s.fifo
  wptr := s.wptr
  rptr := s.rptr
  count := s.count
  out := s.out
  irq := s.irq
  dma := s.dmaReq.level ()

def dacBank : Bank DacState where
  holds i := i ∉ [dacVerid / 4, dacParam / 4, dacData / 4, dacFpr / 4, dacRcr / 4, dacTcr / 4]
  commands _ := 0
  fields i := if i = dacFsr / 4 then ⟨fsrW1cMask, ~~~fsrW1cMask⟩ else .plain
  word s i := s.regs i
  put s i x := dacUpdateIrq { s with regs := Function.update s.regs i x }

@[simp] lemma dacBank_word : dacBank.word s i = s.regs i := rfl

def dacDevice : DacState := mcxnDacWrite s w.off w.width.bytes w.value

def DacSafe : Prop :=
  if w.idx = dacFsr / 4 then
    w.lane = 0 ∨ w.placed &&& fsrW1cMask = 0 ∧ s.regs w.idx &&& (w.lanes &&& fsrW1cMask) = 0
  else if w.lane = 0 ∧ w.idx ∈ [dacGcr / 4, dacFcr / 4, dacIer / 4, dacDer / 4] then
    s.regs w.idx &&& ~~~w.lanes = 0
  else True

lemma dacView_update {s t : DacState}
    (hregs : ∀ i, dacVisible i (s.regs i) = dacVisible i (t.regs i))
    (hrest : dacView { s with regs := t.regs, irq := t.irq, dmaReq := t.dmaReq } = dacView t) :
    dacView (dacUpdateIrq s) = dacView (dacUpdateIrq t) := by
  simp only [dacView, DacView.mk.injEq, and_true] at hrest
  obtain ⟨-, hhpdac, hfifo, hwptr, hrptr, hcount, hout⟩ := hrest
  have hreg : ∀ off, off / 4 ≠ dacFsr / 4 → s.reg off = t.reg off := by
    intro off hne
    have h := hregs (off / 4)
    rwa [dacVisible, dacVisible, if_neg hne, if_neg hne] at h
  have hflags : s.reg dacFsr &&& fsrW1cMask = t.reg dacFsr &&& fsrW1cMask := by
    have h := hregs (dacFsr / 4)
    rwa [dacVisible, dacVisible, if_pos rfl, if_pos rfl] at h
  have hwml : s.wml = t.wml := by
    unfold DacState.wml
    rw [hreg dacFcr (by decide), hhpdac]
  have hdepth : dacDepth s = dacDepth t := by
    unfold dacDepth
    rw [hhpdac]
  have hfsr : dacFsrValue s = dacFsrValue t := by
    unfold dacFsrValue
    rw [hflags, hcount, hwml, hdepth]
  have hirq : s.interrupts = t.interrupts := by
    unfold DacState.interrupts
    rw [hfsr, hreg dacIer (by decide)]
  have hasks : s.asks = t.asks := by
    unfold DacState.asks
    rw [hfsr, hreg dacDer (by decide)]
  have hlevel : ∀ s : DacState, (dacUpdateIrq s).dmaReq.level () = s.asks := by
    intro s
    simp only [dacUpdateIrq, Lines.publishAll, foldl_cons, foldl_nil,
      Lines.publish_level, Function.update_self]
  simp only [dacView, hlevel, DacView.mk.injEq]
  exact ⟨funext hregs, hhpdac, hfifo, hwptr, hrptr, hcount, hout, hirq, hasks⟩

lemma dacVisible_into {i : ℕ} {old old' : Word} (h : dacVisible i old = dacVisible i old') :
    dacVisible i (w.into (dacBank.fields i) old) =
      dacVisible i (w.into (dacBank.fields i) old') := by
  unfold dacVisible at *
  by_cases hfsr : i = dacFsr / 4
  · have hfields : dacBank.fields i = ⟨fsrW1cMask, ~~~fsrW1cMask⟩ := if_pos hfsr
    rw [if_pos hfsr, if_pos hfsr] at h ⊢
    rw [hfields]
    exact w.into_and_congr h
  · rw [if_neg hfsr, if_neg hfsr] at h
    rw [h]

lemma dacView_put_iff (x y : Word) : dacView (dacBank.put s i x) = dacView (dacBank.put s i y) ↔
      dacVisible i x = dacVisible i y := by
  constructor
  · intro h
    have hreg := congrFun (congrArg DacView.regs h) i
    simpa [dacBank, dacView, dacUpdateIrq] using hreg
  intro h
  refine dacView_update (fun j => ?_) rfl
  by_cases hj : j = i
  · subst hj
    simpa using h
  · simp [hj]

lemma dacBank_lawful : dacBank.Lawful dacView where
  congr s t w _ h := by
    have hregs : ∀ i, dacVisible i (s.regs i) = dacVisible i (t.regs i) :=
      congrFun (congrArg DacView.regs h)
    refine dacView_update (fun j => ?_) ?_
    · by_cases hj : j = w.idx
      · subst hj
        simpa using dacVisible_into w (hregs w.idx)
      · simpa [hj] using hregs j
    · simp only [dacView, DacView.mk.injEq] at h ⊢
      simp [h]
  word_put s i x _ := update_self _ _ _
  put_put s i x y _ _ := by
    refine dacView_update (fun j => ?_) rfl
    simp [dacBank, dacUpdateIrq]

lemma dacDevice_merge {s : DacState} {w : RegWrite} (htakes : dacBank.Takes w)
    (hcase : w.lane ≠ 0 ∨ w.idx ∉ [dacFsr / 4, dacGcr / 4, dacFcr / 4, dacIer / 4, dacDer / 4]) :
    dacDevice s w = dacBank.put s w.idx (w.merge (s.regs w.idx)) := by
  have hheld : ∀ off ∈ [dacVerid, dacParam, dacData, dacFpr, dacRcr, dacTcr], w.off ≠ off :=
    off_ne_of_mem (by decide) (.inr htakes.1)
  have hown : ∀ off ∈ [dacFsr, dacGcr, dacFcr, dacIer, dacDer], w.off ≠ off :=
    off_ne_of_mem (by decide) hcase
  have hmerge : (s.reg w.off &&& ~~~dacLaneMask (w.off % 4) w.width.bytes) |||
      ((w.value <<< (w.off % 4 * 8)) &&& dacLaneMask (w.off % 4) w.width.bytes) =
        w.merge (s.regs w.idx) := mergeBytes_eq (s.regs w.idx)
  simp only [forall_mem_cons] at hheld hown
  unfold dacDevice mcxnDacWrite
  simp only [hheld, hown, or_self, if_false, hmerge]
  rfl

lemma dacDevice_exact_iff (htakes : dacBank.Takes w) :
    dacBank.Exact dacView dacDevice s w ↔ DacSafe s w := by
  unfold Bank.Exact Bank.write DacSafe
  by_cases hfsr : w.idx = dacFsr / 4
  · have hfields : dacBank.fields w.idx = ⟨fsrW1cMask, ~~~fsrW1cMask⟩ := if_pos hfsr
    rw [if_pos hfsr, hfields]
    by_cases hlane : w.lane = 0
    · have hoff : w.off = dacFsr := RegWrite.off_eq_iff.mpr ⟨hfsr, hlane⟩
      refine iff_of_true ?_ (.inl hlane)
      have hdevice : dacDevice s w = dacBank.put s w.idx
          (s.regs w.idx &&& ~~~(w.value &&& fsrW1cMask)) := by
        unfold dacDevice mcxnDacWrite
        rw [hoff, hfsr]
        rfl
      rw [hdevice, clear_eq_into hlane]
      rfl
    rw [dacDevice_merge htakes (.inl hlane), dacView_put_iff, dacVisible, dacVisible,
      if_pos hfsr, if_pos hfsr, dacBank_word, merge_eq_into_iff, or_iff_right hlane]
  have hfields : dacBank.fields w.idx = .plain := if_neg hfsr
  have hvisible : ∀ v, dacVisible w.idx v = v := fun v => if_neg hfsr
  rw [if_neg hfsr, hfields, into_plain]
  by_cases hown : w.lane = 0 ∧ w.idx ∈ [dacGcr / 4, dacFcr / 4, dacIer / 4, dacDer / 4]
  · obtain ⟨hlane, hmem⟩ := hown
    have hdevice : dacDevice s w = dacBank.put s w.idx w.value := by
      unfold dacDevice mcxnDacWrite
      simp only [mem_cons, not_mem_nil, or_false] at hmem
      rcases hmem with h | h | h | h <;>
        (rw [h, RegWrite.off_eq_iff.mpr ⟨h, hlane⟩]; rfl)
    rw [if_pos ⟨hlane, hmem⟩, hdevice, dacView_put_iff, hvisible, hvisible]
    exact value_eq_merge_iff hlane _
  rw [if_neg hown]
  have hcase : w.lane ≠ 0 ∨
      w.idx ∉ [dacFsr / 4, dacGcr / 4, dacFcr / 4, dacIer / 4, dacDer / 4] := by
    by_cases hlane : w.lane = 0
    · refine .inr fun hmem => ?_
      rcases List.mem_cons.mp hmem with h | h
      · exact hfsr h
      · exact hown ⟨hlane, h⟩
    · exact .inl hlane
  rw [dacDevice_merge htakes hcase]
  exact iff_of_true rfl trivial

end Dac

section Sinc

open Sinc SincState

structure SincView where
  regs : ℕ → Word
  ch : ℕ → SincChannel
  irq : Bool
  dma : ℕ → Bool

variable (s : SincState) (w : RegWrite) (i : ℕ) (x : Word)

def sincView : SincView := ⟨s.regs, s.ch, s.irq, s.dmaReq.level⟩

def sincSetWord : SincState := { s with regs := Function.update s.regs i x }

def sincEnables : List ℕ := [sincNie / 4, sincEie / 4, sincFifoie / 4]
def sincFlags : List ℕ := [sincNis / 4, sincEis / 4, sincFifois / 4]

def IsChannelReg (rel i : ℕ) : Prop := chBase ≤ 4 * i ∧ 4 * i < chLast ∧ relOf (4 * i) = rel
deriving Decidable

def sincBank : Bank SincState where
  holds i := i ∉ [sincVerid / 4, sincParameter / 4, sincSr / 4] ∧ ¬ IsChannelReg chCrdata i ∧
    ¬ IsChannelReg chCmpdata i ∧ ¬ IsChannelReg chCdbgr i
  commands i := if i = sincMcr / 4 then mcrStrigAll ||| mcrRst else 0
  fields i := if i ∈ sincFlags then ⟨0xFFFFFFFF, ~~~0xFFFFFFFF⟩ else .plain
  word s i := s.regs i
  put s i x :=
    if i ∈ sincEnables ∨ i ∈ sincFlags then sincUpdateIrq (sincSetWord s i x)
    else if IsChannelReg chCcr i then sincWriteCcr s (4 * i) x
    else if IsChannelReg chCcfr i then sincUpdateDmaReq (sincSetWord s i x) (chOf (4 * i))
    else sincSetWord s i x

@[simp] lemma sincBank_word : sincBank.word s i = s.regs i := rfl

def sincDevice : SincState := mcxnSincWrite s w.off w.width.bytes w.value

/-- A register with a case of its own has nothing in the bytes that are not written; a
write inside such a word, which only merges, changes no flag and leaves the lines as they
are. -/
def SincSafe : Prop :=
  if w.lane = 0 then
    w.idx = sincMcr / 4 ∨ w.idx ∈ sincEnables ∨ IsChannelReg chCcr w.idx ∨
        IsChannelReg chCcfr w.idx →
      s.regs w.idx &&& ~~~w.lanes = 0
  else if w.idx ∈ sincFlags then
    w.placed = 0 ∧ s.regs w.idx &&& w.lanes = 0 ∧ s.irq = s.interrupts
  else if w.idx ∈ sincEnables then
    s.irq = (sincSetWord s w.idx (w.merge (s.regs w.idx))).interrupts
  else if IsChannelReg chCcr w.idx ∨ IsChannelReg chCcfr w.idx then
    s.dmaReq.level (chOf (4 * w.idx)) =
      (sincSetWord s w.idx (w.merge (s.regs w.idx))).asks (chOf (4 * w.idx))
  else True

variable {off rel : ℕ} {v : Word}

lemma isChannelReg_iff (hrel : rel % 4 = 0) :
    (chBase ≤ off ∧ off < chLast) ∧ relOf off = rel ↔ off % 4 = 0 ∧ IsChannelReg rel (off / 4) := by
  simp only [IsChannelReg, relOf, chBase, chLast, chStep, numCh]
  omega

lemma chOf_word {i : ℕ} (h : IsChannelReg chCcr i) : chOff (chOf (4 * i)) chCcr = 4 * i := by
  simp only [IsChannelReg, relOf, chBase, chLast, chStep, numCh, chCcr, chOff, chOf] at *
  omega

lemma sincBank_put_regs : (sincBank.put s i x).regs = update s.regs i x := by
  have hccr : (sincWriteCcr s (4 * i) x).regs = update s.regs i x := by
    have hidx : 4 * i / 4 = i := by omega
    unfold sincWriteCcr
    dsimp only
    split <;> simp only [sincUpdateDmaReq, setCh, setReg, hidx]
  unfold sincBank
  dsimp only
  split
  · rfl
  split
  · exact hccr
  · split <;> rfl

lemma sincView_put_iff (x y : Word) :
    sincView (sincBank.put s i x) = sincView (sincBank.put s i y) ↔ x = y := by
  constructor
  · intro h
    have hreg := congrFun (congrArg SincView.regs h) i
    simpa only [sincView, sincBank_put_regs, Function.update_self] using hreg
  · rintro rfl
    rfl

lemma sincDevice_merge {s : SincState} {w : RegWrite} (htakes : sincBank.Takes w)
    (hcase : w.lane ≠ 0 ∨ (w.idx ≠ sincMcr / 4 ∧ w.idx ∉ sincEnables ∧ w.idx ∉ sincFlags ∧
      ¬ IsChannelReg chCcr w.idx ∧ ¬ IsChannelReg chCcfr w.idx)) :
    sincDevice s w = sincSetWord s w.idx (w.merge (s.regs w.idx)) := by
  obtain ⟨hids, hcrdata, hcmpdata, hcdbgr⟩ := htakes.1
  have hheld : ∀ off ∈ [sincVerid, sincParameter, sincSr], w.off ≠ off :=
    RegWrite.off_ne_of_mem (by decide) (.inr hids)
  have hown : ∀ off ∈ [sincMcr, sincNie, sincEie, sincFifoie, sincNis, sincEis, sincFifois],
      w.off ≠ off := by
    refine RegWrite.off_ne_of_mem (by decide) (hcase.imp_right fun h => ?_)
    simp only [sincEnables, sincFlags, List.map_cons, List.map_nil, List.mem_cons,
      List.not_mem_nil, or_false, not_or] at h ⊢
    tauto
  have hrel : ∀ rel, rel % 4 = 0 → ¬ (w.lane = 0 ∧ IsChannelReg rel w.idx) →
      ¬ ((chBase ≤ w.off ∧ w.off < chLast) ∧ relOf w.off = rel) :=
    fun rel hmod hno h => hno ((isChannelReg_iff hmod).mp h)
  have hmerge : sincMerge s w.off w.width.bytes w.value =
      sincSetWord s w.idx (w.merge (s.regs w.idx)) := by
    unfold sincMerge setReg reg
    rw [show w.off / 4 = w.idx from rfl, RegWrite.mergeBytes_eq]
    rfl
  simp only [List.forall_mem_cons] at hheld hown
  unfold sincDevice mcxnSincWrite
  simp only [hheld, hown, or_self, if_false]
  by_cases hch : chBase ≤ w.off ∧ w.off < chLast
  · have hcrdata' := hrel chCrdata (by decide) fun h => hcrdata h.2
    have hcmpdata' := hrel chCmpdata (by decide) fun h => hcmpdata h.2
    have hcdbgr' := hrel chCdbgr (by decide) fun h => hcdbgr h.2
    have hccr' := hrel chCcr (by decide) fun h => hcase.elim (· h.1) (·.2.2.2.1 h.2)
    have hccfr' := hrel chCcfr (by decide) fun h => hcase.elim (· h.1) (·.2.2.2.2 h.2)
    simp only [hch, true_and, and_self] at hcrdata' hcmpdata' hcdbgr' hccr' hccfr'
    unfold sincWriteChannel
    simp only [hch, and_self, if_true, hcrdata', hcmpdata', hcdbgr', hccr', hccfr', or_self,
      if_false]
    exact hmerge
  · rw [if_neg hch]
    exact hmerge

def sincChannels (ch : ℕ → SincChannel) (n : ℕ) (old new : Word) : ℕ → SincChannel :=
  if anyBit old ccrChen && !anyBit new ccrChen then
    Function.update ch n { sincResetChannelFilter (ch n) with running := false }
  else ch

def sincAsks (regs : ℕ → Word) (ch : ℕ → SincChannel) (n : ℕ) : Bool :=
  (mk regs ch false .low).asks n

lemma sincView_updateDmaReq (n : ℕ) : sincView (sincUpdateDmaReq s n) =
      ⟨s.regs, s.ch, s.irq, update s.dmaReq.level n (sincAsks s.regs s.ch n)⟩ := by
  simp only [sincView, sincUpdateDmaReq, Lines.publish_level]
  rfl

lemma sincView_writeCcr {i : ℕ} (h : IsChannelReg chCcr i) (x : Word) :
    sincView (sincWriteCcr s (4 * i) x) =
      ⟨update s.regs i x, sincChannels s.ch (chOf (4 * i)) (s.regs i) x, s.irq,
      update s.dmaReq.level (chOf (4 * i)) (sincAsks (update s.regs i x)
      (sincChannels s.ch (chOf (4 * i)) (s.regs i) x) (chOf (4 * i)))⟩ := by
  have hidx : 4 * i / 4 = i := by omega
  have hold : sincChReg s (chOf (4 * i)) chCcr = s.regs i := by
    unfold sincChReg reg
    rw [chOf_word h, hidx]
  unfold sincWriteCcr sincChannels
  simp only [hold]
  split <;>
    simp only [sincView, sincUpdateDmaReq, setCh, setReg, hidx, Lines.publish_level] <;> rfl

lemma sincChannels_between {ch : ℕ → SincChannel} {n : ℕ} {old x y : Word}
    (h : Bank.Between old x y) :
    sincChannels (sincChannels ch n old x) n x y = sincChannels ch n old y := by
  have hbit : anyBit x ccrChen = anyBit old ccrChen ∨ anyBit x ccrChen = anyBit y ccrChen := by
    simp only [ccrChen, anyBit_twoPow]
    exact h 0 (by decide)
  unfold sincChannels
  cases hx : anyBit x ccrChen <;> cases hold : anyBit old ccrChen <;>
    cases hy : anyBit y ccrChen <;> simp_all

lemma sincBank_lawful : sincBank.Lawful sincView where
  congr s t w _ h := by
    have hregs : s.regs = t.regs := congrArg SincView.regs h
    have hch : s.ch = t.ch := congrArg SincView.ch h
    have hirq : s.irq = t.irq := congrArg SincView.irq h
    have hdma : s.dmaReq.level = t.dmaReq.level := congrArg SincView.dma h
    have hset : ∀ i x, (sincSetWord s i x).regs = (sincSetWord t i x).regs := by
      intro i x
      simp only [sincSetWord, hregs]
    unfold Bank.write
    rw [sincBank_word, sincBank_word, hregs]
    unfold sincBank
    dsimp only
    split
    · simp only [sincView, sincUpdateIrq, interrupts, reg, hset, SincView.mk.injEq]
      exact ⟨trivial, hch, trivial, hdma⟩
    split
    next hccr => rw [sincView_writeCcr s hccr, sincView_writeCcr t hccr, hregs, hch, hirq, hdma]
    split
    · rw [sincView_updateDmaReq, sincView_updateDmaReq, hset]
      simp only [sincSetWord, hch, hirq, hdma]
    · simp only [sincView, hset, SincView.mk.injEq]
      exact ⟨trivial, hch, hirq, hdma⟩
  word_put s i x _ := by rw [sincBank_word, sincBank_put_regs, update_self]
  put_put s i x y _ h := by
    unfold sincBank
    dsimp only
    split
    · simp only [sincView, sincUpdateIrq, sincSetWord, update_idem]
      rfl
    split
    next hccr =>
      have hfirst := sincView_writeCcr s hccr x
      simp only [sincView, SincView.mk.injEq] at hfirst
      obtain ⟨hregs, hch, hirq, hdma⟩ := hfirst
      rw [sincView_writeCcr _ hccr, sincView_writeCcr _ hccr, hregs, hch, hirq, hdma,
        update_idem, update_idem, update_self,
        sincChannels_between (show Bank.Between (s.regs i) x y from h)]
    split
    · have hfirst := sincView_updateDmaReq (sincSetWord s i x) (chOf (4 * i))
      simp only [sincView, SincView.mk.injEq] at hfirst
      rw [sincView_updateDmaReq, sincView_updateDmaReq]
      simp only [sincSetWord] at hfirst ⊢
      simp only [hfirst, update_idem]
    · simp only [sincView, sincSetWord, update_idem]

lemma sincWriteMcr_quiet {s : SincState} (h : v &&& (mcrStrigAll ||| mcrRst) = 0) :
    sincWriteMcr s v = sincSetWord s (sincMcr / 4) v := by
  have hbit : ∀ m : Word, m &&& (mcrStrigAll ||| mcrRst) = m → anyBit v m = false := by
    intro m hm
    rw [anyBit_eq_false, ← hm, BitVec.and_comm m, ← BitVec.and_assoc, h]
    simp
  have hrst : anyBit v mcrRst = false := hbit _ (by decide)
  have hstrig : ∀ n ∈ List.range numCh, anyBit v (mcrStrig n) = false := by
    intro n hn
    apply hbit
    revert n
    decide
  have hkeep : v &&& ~~~mcrStrigAll = v := by
    have hall : v &&& mcrStrigAll = 0 := anyBit_eq_false.mp (hbit _ (by decide))
    apply BitVec.eq_of_getLsbD_eq
    intro i hi
    have hboth := congrArg (fun u => BitVec.getLsbD u i) hall
    simp only [BitVec.getLsbD_and, BitVec.getLsbD_not, hi, decide_true, Bool.true_and] at hboth ⊢
    cases hv : v.getLsbD i <;> simp_all
  have hloop : (List.range numCh).foldl
      (fun s n => if anyBit v (mcrStrig n) then sincTrigger s n else s) s = s := by
    rw [foldl_ext _ (fun s _ => s) s fun t n hn => by rw [hstrig n hn]; rfl]
    exact foldl_fixed _
  unfold sincWriteMcr
  simp only [hrst, Bool.false_eq_true, if_false, hloop, hkeep]
  rfl

lemma sincView_setWord_iff_update :
    sincView (sincSetWord s i x) = sincView (sincUpdateIrq (sincSetWord s i x)) ↔
      s.irq = (sincSetWord s i x).interrupts := by
  simp only [sincView, sincUpdateIrq, SincView.mk.injEq, true_and, and_true]
  rfl

lemma sincView_setWord_iff_updateDmaReq (i n : ℕ) (x : Word) :
    sincView (sincSetWord s i x) = sincView (sincUpdateDmaReq (sincSetWord s i x) n) ↔
      s.dmaReq.level n = (sincSetWord s i x).asks n := by
  rw [sincView_updateDmaReq]
  simp only [sincView, SincView.mk.injEq, true_and]
  constructor
  · intro h
    have hlevel := congrFun h n
    rwa [update_self] at hlevel
  intro h
  have hlevel : s.dmaReq.level n = sincAsks (sincSetWord s i x).regs (sincSetWord s i x).ch n := h
  rw [← hlevel]
  exact (update_eq_self n _).symm

lemma sincWriteCcr_merge {s : SincState} {w : RegWrite} (hlane : w.lane ≠ 0)
    (h : IsChannelReg chCcr w.idx) :
    sincView (sincWriteCcr s (4 * w.idx) (w.merge (s.regs w.idx))) =
      sincView (sincUpdateDmaReq (sincSetWord s w.idx (w.merge (s.regs w.idx)))
      (chOf (4 * w.idx))) := by
  have hchen : anyBit (w.merge (s.regs w.idx)) ccrChen = anyBit (s.regs w.idx) ccrChen := by
    have hlanes : w.lanes.getLsbD 0 = false := by
      rw [w.getLsbD_lanes (by decide)]
      simp only [decide_eq_false_iff_not]
      omega
    simp only [ccrChen, anyBit_twoPow]
    rw [getLsbD_merge _ (by decide), hlanes]
    rfl
  have hchannels : sincChannels s.ch (chOf (4 * w.idx)) (s.regs w.idx)
      (w.merge (s.regs w.idx)) = s.ch := by
    unfold sincChannels
    rw [hchen, Bool.and_not_self]
    rfl
  rw [sincView_writeCcr s h, sincView_updateDmaReq, hchannels]
  rfl

variable {i} {x}

lemma sincBank_put_plain {s : SincState} (hen : i ∉ sincEnables)
    (hflag : i ∉ sincFlags) (hccr : ¬ IsChannelReg chCcr i) (hccfr : ¬ IsChannelReg chCcfr i) :
    sincBank.put s i x = sincSetWord s i x := by
  unfold sincBank
  simp only [hen, hflag, hccr, hccfr, or_self, if_false]

lemma sincBank_put_irq {s : SincState} (h : i ∈ sincEnables ∨ i ∈ sincFlags) :
    sincBank.put s i x = sincUpdateIrq (sincSetWord s i x) :=
  if_pos h

lemma IsChannelReg.not_word (h : IsChannelReg rel i) : ¬ (i ∈ sincEnables ∨ i ∈ sincFlags) := by
  simp only [IsChannelReg, chBase, sincEnables, sincFlags, sincNie, sincEie, sincFifoie,
    sincNis, sincEis, sincFifois, mem_cons, not_mem_nil, or_false] at *
  omega

lemma sincBank_put_ccr {s : SincState} (h : IsChannelReg chCcr i) :
    sincBank.put s i x = sincWriteCcr s (4 * i) x :=
  (if_neg h.not_word).trans (if_pos h)

lemma sincBank_put_ccfr {s : SincState} (h : IsChannelReg chCcfr i) :
    sincBank.put s i x = sincUpdateDmaReq (sincSetWord s i x) (chOf (4 * i)) := by
  have hccr : ¬ IsChannelReg chCcr i := fun hccr => by
    have heq := hccr.2.2.symm.trans h.2.2
    revert heq
    decide
  exact (if_neg h.not_word).trans ((if_neg hccr).trans (if_pos h))

lemma sincDevice_exact_iff_inside {s : SincState} {w : RegWrite} (htakes : sincBank.Takes w)
    (hlane : w.lane ≠ 0) : sincBank.Exact sincView sincDevice s w ↔ SincSafe s w := by
  unfold Bank.Exact Bank.write SincSafe
  rw [sincBank_word, if_neg hlane, sincDevice_merge htakes (.inl hlane)]
  by_cases hflag : w.idx ∈ sincFlags
  · have hfields : sincBank.fields w.idx = ⟨0xFFFFFFFF, ~~~0xFFFFFFFF⟩ := if_pos hflag
    have hall : ∀ v : Word, v &&& 0xFFFFFFFF = v := fun v => BitVec.and_allOnes
    have hword := merge_eq_into_iff (w := w) 0xFFFFFFFF (s.regs w.idx)
    rw [hall, hall, hall, hall] at hword
    rw [if_pos hflag, hfields, sincBank_put_irq (.inr hflag)]
    have hself : w.placed = 0 → s.regs w.idx &&& w.lanes = 0 →
        sincSetWord s w.idx (w.merge (s.regs w.idx)) = s := by
      intro hplaced hold
      rw [merge_eq_self hplaced hold, sincSetWord, update_eq_self]
    constructor
    · intro h
      have hregs := congrFun (congrArg SincView.regs h) w.idx
      simp only [sincView, sincSetWord, sincUpdateIrq, update_self] at hregs
      obtain ⟨hplaced, hold⟩ := hword.mp hregs
      rw [← hregs, sincView_setWord_iff_update, hself hplaced hold] at h
      exact ⟨hplaced, hold, h⟩
    rintro ⟨hplaced, hold, hirq⟩
    rw [← hword.mpr ⟨hplaced, hold⟩, sincView_setWord_iff_update, hself hplaced hold]
    exact hirq
  have hfields : sincBank.fields w.idx = .plain := if_neg hflag
  rw [if_neg hflag, hfields, into_plain]
  by_cases hen : w.idx ∈ sincEnables
  · rw [if_pos hen, sincBank_put_irq (.inl hen)]
    exact sincView_setWord_iff_update _ _ _
  rw [if_neg hen]
  by_cases hccr : IsChannelReg chCcr w.idx
  · rw [if_pos (.inl hccr), sincBank_put_ccr hccr, sincWriteCcr_merge hlane hccr]
    exact sincView_setWord_iff_updateDmaReq _ _ _ _
  by_cases hccfr : IsChannelReg chCcfr w.idx
  · rw [if_pos (.inr hccfr), sincBank_put_ccfr hccfr]
    exact sincView_setWord_iff_updateDmaReq _ _ _ _
  · rw [if_neg (not_or.mpr ⟨hccr, hccfr⟩), sincBank_put_plain hen hflag hccr hccfr]
    exact iff_of_true rfl trivial

lemma sincWrite_channel {s : SincState} {size : ℕ} (h : chBase ≤ off ∧ off < chLast) :
    mcxnSincWrite s off size v = sincWriteChannel s off size v := by
  have hne : ∀ off' ∈ [sincVerid, sincParameter, sincSr, sincMcr, sincNie, sincEie, sincFifoie,
      sincNis, sincEis, sincFifois], off ≠ off' := by
    rintro off' hmem rfl
    have hlt : ∀ off' ∈ [sincVerid, sincParameter, sincSr, sincMcr, sincNie, sincEie, sincFifoie,
        sincNis, sincEis, sincFifois], off' < chBase := by decide
    exact absurd (hlt _ hmem) (Nat.not_lt.mpr h.1)
  simp only [forall_mem_cons, not_mem_nil, false_implies, implies_true, and_true] at hne
  unfold mcxnSincWrite
  simp only [hne, or_self, if_false, if_pos h]

lemma sincDevice_own {s : SincState} {w : RegWrite} (htakes : sincBank.Takes w) (hlane : w.lane = 0)
    (hown : w.idx = sincMcr / 4 ∨ w.idx ∈ sincEnables ∨ IsChannelReg chCcr w.idx ∨
      IsChannelReg chCcfr w.idx) : sincDevice s w = sincBank.put s w.idx w.value := by
  have hoff : w.off = 4 * w.idx := RegWrite.off_eq_iff.mpr ⟨rfl, hlane⟩
  unfold sincDevice
  rcases hown with hmcr | hen | hccr | hccfr
  · have hquiet := htakes.2
    rw [RegWrite.placed_of_lane hlane, hmcr] at hquiet
    rw [hoff, hmcr]
    exact sincWriteMcr_quiet hquiet
  · rw [sincBank_put_irq (.inl hen), hoff]
    simp only [sincEnables, mem_cons, not_mem_nil, or_false] at hen
    rcases hen with h | h | h <;> (rw [h]; rfl)
  · rw [sincBank_put_ccr hccr, hoff, sincWrite_channel ⟨hccr.1, hccr.2.1⟩]
    unfold sincWriteChannel
    rw [hccr.2.2]
    rfl
  rw [sincBank_put_ccfr hccfr, hoff, sincWrite_channel ⟨hccfr.1, hccfr.2.1⟩]
  have hidx : 4 * w.idx / 4 = w.idx := by omega
  unfold sincWriteChannel setReg
  rw [hccfr.2.2, hidx]
  rfl

lemma sincDevice_exact_iff (htakes : sincBank.Takes w) :
    sincBank.Exact sincView sincDevice s w ↔ SincSafe s w := by
  by_cases hlane : w.lane = 0
  · unfold Bank.Exact Bank.write SincSafe
    rw [sincBank_word, if_pos hlane]
    by_cases hown : w.idx = sincMcr / 4 ∨ w.idx ∈ sincEnables ∨ IsChannelReg chCcr w.idx ∨
        IsChannelReg chCcfr w.idx
    · have hflag : w.idx ∉ sincFlags := by
        simp only [IsChannelReg, chBase, sincEnables, sincFlags, sincNie, sincEie, sincFifoie,
          sincNis, sincEis, sincFifois, sincMcr, mem_cons, not_mem_nil, or_false] at *
        omega
      have hfields : sincBank.fields w.idx = .plain := if_neg hflag
      rw [sincDevice_own htakes hlane hown, hfields, into_plain, sincView_put_iff,
        value_eq_merge_iff hlane]
      exact ⟨fun h _ => h, fun h => h hown⟩
    refine iff_of_true ?_ fun h => absurd h hown
    by_cases hflag : w.idx ∈ sincFlags
    · have hfields : sincBank.fields w.idx = ⟨0xFFFFFFFF, ~~~0xFFFFFFFF⟩ := if_pos hflag
      have hall : w.value &&& 0xFFFFFFFF = w.value := BitVec.and_allOnes
      rw [hfields, ← clear_eq_into hlane, hall, sincBank_put_irq (.inr hflag)]
      unfold sincDevice
      rw [RegWrite.off_eq_iff.mpr ⟨rfl, hlane⟩]
      simp only [sincFlags, mem_cons, not_mem_nil, or_false] at hflag
      rcases hflag with h | h | h <;> (rw [h]; rfl)
    obtain ⟨hmcr, hen, hccr, hccfr⟩ : w.idx ≠ sincMcr / 4 ∧ w.idx ∉ sincEnables ∧
        ¬ IsChannelReg chCcr w.idx ∧ ¬ IsChannelReg chCcfr w.idx := by
      simpa only [not_or] using hown
    have hfields : sincBank.fields w.idx = .plain := if_neg hflag
    rw [sincDevice_merge htakes (.inr ⟨hmcr, hen, hflag, hccr, hccfr⟩), hfields,
      into_plain, sincBank_put_plain hen hflag hccr hccfr]
  · exact sincDevice_exact_iff_inside htakes hlane

end Sinc

section Pdm

open Pdm

structure PdmView where
  regs : RegIdx → Word
  fifo : Channel → List Word
  (irq dma : Bool)

variable (v : PdmView) {w : RegWrite} (s : PdmState) (i : ℕ) (r : RegIdx) (x : Word)

def pdmVisible (v : Word) : Word := if r = rStat then v &&& statChfAll else v

def pdmView : PdmView := ⟨fun r => pdmVisible r (s.regs r), s.fifo, s.irq, s.dmaLvl⟩

def PdmView.interrupts : Bool :=
  (v.regs rCtrl1 &&& ctrl1Disel == ctrl1DiselIrq && anyBit (v.regs rStat) statChfAll) ||
    (anyBit (v.regs rCtrl1) ctrl1Erren && v.regs rFifoStat != 0)

def PdmView.asks : Bool :=
  v.regs rCtrl1 &&& ctrl1Disel == ctrl1DiselDma &&
    (v.regs rFifoCtrl &&& fifoCtrlWmk).toNat < (v.fifo 0).length

def PdmView.setReg : PdmView := { v with regs := update v.regs r (pdmVisible r x) }

def pdmReg : RegIdx := Fin.ofNat 0x400 i

def pdmGates : List ℕ := [0x00 / 4, 0x10 / 4]

def pdmFlags : List ℕ := [0x14 / 4, 0x7C / 4]

def pdmBank : Bank PdmState where
  holds i := i < 0x400 ∧ i ∉ [0x84 / 4, 0x88 / 4, 0x64 / 4, 0x24 / 4, 0x28 / 4, 0x2C / 4, 0x30 / 4]
  commands i := if i = 0x00 / 4 then ctrl1Sres else 0
  fields i :=
    if i = 0x08 / 4 then ⟨statChfAll, ~~~statChfAll⟩
    else if i ∈ pdmFlags then ⟨0xFFFFFFFF, ~~~0xFFFFFFFF⟩ else .plain
  word s i := s.regs (pdmReg i)
  put s i x :=
    if i ∈ pdmGates then pdmUpdateIrq (pdmUpdateDmaReq (s.setReg (pdmReg i) x))
    else if i = 0x08 / 4 ∨ i ∈ pdmFlags then pdmUpdateIrq (s.setReg (pdmReg i) x)
    else s.setReg (pdmReg i) x

@[simp] lemma pdmBank_word : pdmBank.word s i = s.regs (pdmReg i) := rfl

def pdmDevice (w : RegWrite) : PdmState := mcxnPdmWrite s w.off w.width.bytes w.value

/-- As for the SINC filter: a register with a case of its own has nothing in the bytes that
are not written, and a write inside such a word changes no flag and leaves the lines as
they are. -/
def PdmSafe (w : RegWrite) : Prop :=
  if w.lane = 0 then w.idx ∈ pdmGates → s.regs (pdmReg w.idx) &&& ~~~w.lanes = 0
  else if w.idx ∈ pdmGates then
    s.irq = (pdmUpdateIrq (s.setReg (pdmReg w.idx) (w.merge (s.regs (pdmReg w.idx))))).irq ∧
      s.dmaLvl =
        (pdmUpdateDmaReq (s.setReg (pdmReg w.idx) (w.merge (s.regs (pdmReg w.idx))))).dmaLvl
  else if w.idx = 0x08 / 4 then s.irq = (pdmUpdateIrq s).irq
  else if w.idx ∈ pdmFlags then
    w.placed = 0 ∧ s.regs (pdmReg w.idx) &&& w.lanes = 0 ∧ s.irq = (pdmUpdateIrq s).irq
  else True

lemma pdmView_setReg : pdmView (s.setReg r x) = (pdmView s).setReg r x := by
  simp only [pdmView, PdmState.setReg, PdmView.setReg, PdmView.mk.injEq, and_self, and_true]
  funext r'
  by_cases h : r' = r
  · subst h
    simp
  · simp [h]

lemma pdmUpdateIrq_irq : (pdmUpdateIrq s).irq = (pdmView s).interrupts := by
  have hstat : anyBit (pdmVisible rStat (s.regs rStat)) statChfAll =
      anyBit (s.regs rStat) statChfAll := by
    rw [pdmVisible, if_pos rfl]
    simp only [anyBit, BitVec.and_assoc, BitVec.and_self]
  have hother : ∀ r, r ≠ rStat → pdmVisible r (s.regs r) = s.regs r := fun r h => if_neg h
  simp only [pdmUpdateIrq, PdmView.interrupts, pdmView, hstat, hother rCtrl1 (by decide),
    hother rFifoStat (by decide)]

lemma pdmView_updateIrq :
    pdmView (pdmUpdateIrq s) = { pdmView s with irq := (pdmView s).interrupts } := by
  rw [← pdmUpdateIrq_irq]
  rfl

lemma pdmUpdateDmaReq_dmaLvl : (pdmUpdateDmaReq s).dmaLvl = (pdmView s).asks := by
  have hother : ∀ r, r ≠ rStat → pdmVisible r (s.regs r) = s.regs r := fun r h => if_neg h
  have hasks : (pdmView s).asks = (s.regs rCtrl1 &&& ctrl1Disel == ctrl1DiselDma &&
      decide (s.wmk < (s.fifo 0).length)) := by
    rfl
  unfold pdmUpdateDmaReq
  rw [← hasks]
  by_cases hsame : (pdmView s).asks ≠ s.dmaLvl
  · rw [if_pos hsame]
  · rw [if_neg hsame]
    exact (not_not.mp hsame).symm

lemma pdmView_updateDmaReq :
    pdmView (pdmUpdateDmaReq s) = { pdmView s with dma := (pdmView s).asks } := by
  rw [← pdmUpdateDmaReq_dmaLvl]
  unfold pdmUpdateDmaReq
  dsimp only
  split <;> rfl

def PdmView.put (v : PdmView) (i : ℕ) (x : Word) : PdmView :=
  let v := v.setReg (pdmReg i) x
  { v with
    irq := if i ∈ pdmGates ∨ i = 0x08 / 4 ∨ i ∈ pdmFlags then v.interrupts else v.irq
    dma := if i ∈ pdmGates then v.asks else v.dma }

lemma pdmView_put : pdmView (pdmBank.put s i x) = (pdmView s).put i x := by
  unfold pdmBank PdmView.put
  by_cases hgate : i ∈ pdmGates
  · simp only [hgate, if_true, true_or, pdmView_updateIrq, pdmView_updateDmaReq, pdmView_setReg]
    rfl
  simp only [hgate, if_false, false_or]
  by_cases hflag : i = 0x08 / 4 ∨ i ∈ pdmFlags
  · simp only [hflag, if_true, pdmView_updateIrq, pdmView_setReg]
  · simp only [hflag, if_false, pdmView_setReg]

lemma pdmReg_eq_stat {i : ℕ} (hi : i < 0x400) : pdmReg i = rStat ↔ i = 0x08 / 4 := by
  unfold pdmReg rStat
  rw [Fin.ext_iff]
  simp only [Fin.ofNat, Nat.mod_eq_of_lt hi]
  rfl

lemma pdmVisible_into {i : ℕ} (hi : i < 0x400) {old old' : Word} (w : RegWrite)
    (h : pdmVisible (pdmReg i) old = pdmVisible (pdmReg i) old') :
    pdmVisible (pdmReg i) (w.into (pdmBank.fields i) old) =
      pdmVisible (pdmReg i) (w.into (pdmBank.fields i) old') := by
  unfold pdmVisible at *
  by_cases hstat : pdmReg i = rStat
  · have hfields : pdmBank.fields i = ⟨statChfAll, ~~~statChfAll⟩ :=
      if_pos ((pdmReg_eq_stat hi).mp hstat)
    rw [if_pos hstat, if_pos hstat] at h ⊢
    rw [hfields]
    exact into_and_congr w h
  · rw [if_neg hstat, if_neg hstat] at h
    rw [h]

lemma pdmBank_lawful : pdmBank.Lawful pdmView where
  congr s t w hw h := by
    have hvisible := congrFun (congrArg PdmView.regs h) (pdmReg w.idx)
    have hinto := pdmVisible_into hw.1 w hvisible
    unfold Bank.write
    rw [pdmView_put, pdmView_put, h]
    unfold PdmView.put PdmView.setReg
    rw [pdmBank_word, pdmBank_word, hinto]
  word_put s i x _ := by
    have hset : (s.setReg (pdmReg i) x).regs (pdmReg i) = x := Function.update_self _ _ _
    have hdma : ∀ s : PdmState, (pdmUpdateDmaReq s).regs = s.regs := by
      intro s
      unfold pdmUpdateDmaReq
      dsimp only
      split <;> rfl
    unfold pdmBank
    dsimp only
    split
    · exact (congrFun (hdma _) _).trans hset
    · split <;> exact hset
  put_put s i x y _ _ := by
    rw [pdmView_put, pdmView_put, pdmView_put]
    by_cases hgate : i ∈ pdmGates
    · simp only [PdmView.put, PdmView.setReg, Function.update_idem, hgate, true_or, if_true]
      rfl
    by_cases hflag : i = 0x08 / 4 ∨ i ∈ pdmFlags
    · simp only [PdmView.put, PdmView.setReg, Function.update_idem, hgate, hflag, false_or,
        if_true, if_false]
      rfl
    · simp only [PdmView.put, PdmView.setReg, Function.update_idem, hgate, hflag, false_or,
        if_false]

lemma pdm_mergeBytes (old : Word) : (old &&& ~~~laneMask (w.off % 4) w.width.bytes) |||
      ((w.value <<< (8 * (w.off % 4))) &&& laneMask (w.off % 4) w.width.bytes) = w.merge old := by
  have hmask : laneMask (w.off % 4) w.width.bytes = byteMask (w.off % 4) w.width.bytes := by
    unfold laneMask byteMask
    rw [Nat.mul_comm (w.off % 4)]
    cases w.width <;> rfl
  rw [← mergeBytes_eq, mergeBytes, hmask, Nat.mul_comm 8]

lemma pdmWrite_reg (hlt : w.idx < 0x400) (h : w.off < 0x1000) :
    (⟨w.off / 4, div_four_lt h⟩ : RegIdx) = pdmReg w.idx := by
  apply Fin.ext
  exact (Nat.mod_eq_of_lt hlt).symm

lemma pdmDevice_merge {s : PdmState} (htakes : pdmBank.Takes w)
    (hcase : w.lane ≠ 0 ∨ (w.idx ∉ pdmGates ∧ w.idx ≠ 0x08 / 4 ∧ w.idx ∉ pdmFlags)) :
    pdmDevice s w = s.setReg (pdmReg w.idx) (w.merge (s.regs (pdmReg w.idx))) := by
  obtain ⟨hlt, hids⟩ := htakes.1
  have hidx : w.idx = w.off / 4 := rfl
  have hsize : w.off < 0x1000 := by omega
  have hown : ∀ off ∈ [0x00, 0x10, 0x08, 0x14, 0x7C], w.off ≠ off := by
    refine RegWrite.off_ne_of_mem (by decide) (hcase.imp_right fun h => ?_)
    simp only [pdmGates, pdmFlags, List.map_cons, List.map_nil, List.mem_cons, List.not_mem_nil,
      or_false, not_or] at h ⊢
    tauto
  simp only [List.forall_mem_cons, List.not_mem_nil, false_implies, implies_true, and_true] at hown
  simp only [List.mem_cons, List.not_mem_nil, or_false, not_or] at hids
  have hro : ¬ (w.off = 0x84 ∨ w.off = 0x88 ∨ w.off = 0x64) := by omega
  have hdatach : ¬ PdmIsDatach w.off := by
    unfold PdmIsDatach
    omega
  unfold pdmDevice mcxnPdmWrite
  rw [dif_pos hsize]
  simp only [hro, hown, hdatach, or_self, if_false, pdmWrite_reg hlt hsize, pdm_mergeBytes]

lemma pdmDevice_gate {s : PdmState} (htakes : pdmBank.Takes w)
    (hlane : w.lane = 0) (hgate : w.idx ∈ pdmGates) :
    pdmView (pdmDevice s w) = pdmView (pdmBank.put s w.idx w.value) := by
  have hput : pdmBank.put s w.idx w.value =
      pdmUpdateIrq (pdmUpdateDmaReq (s.setReg (pdmReg w.idx) w.value)) := if_pos hgate
  rw [hput]
  unfold pdmDevice
  simp only [pdmGates, List.mem_cons, List.not_mem_nil, or_false] at hgate
  rcases hgate with h | h
  · have hsres : anyBit w.value ctrl1Sres = false := by
      have hquiet := htakes.2
      rw [placed_of_lane hlane, h] at hquiet
      exact anyBit_eq_false.mpr hquiet
    have hwrite : mcxnPdmWrite s 0x00 w.width.bytes w.value = pdmWriteCtrl1 s w.value := rfl
    rw [off_eq_iff.mpr ⟨h, hlane⟩, h]
    refine (congrArg pdmView hwrite).trans ?_
    unfold pdmWriteCtrl1
    rw [hsres, if_neg (by simp)]
    simp only [pdmView_updateIrq, pdmView_updateDmaReq]
    rfl
  · rw [RegWrite.off_eq_iff.mpr ⟨h, hlane⟩, h]
    rfl

lemma pdmDevice_clear {s : PdmState} (hlane : w.lane = 0)
    (hflag : w.idx = 0x08 / 4 ∨ w.idx ∈ pdmFlags) : pdmDevice s w =
      pdmBank.put s w.idx (w.into (pdmBank.fields w.idx) (s.regs (pdmReg w.idx))) := by
  have hall : w.value &&& 0xFFFFFFFF = w.value := BitVec.and_allOnes
  have hones := RegWrite.clear_eq_into hlane 0xFFFFFFFF (s.regs (pdmReg w.idx))
  rw [hall] at hones
  have hchf := RegWrite.clear_eq_into hlane statChfAll (s.regs (pdmReg w.idx))
  unfold pdmDevice
  simp only [pdmFlags, List.mem_cons, List.not_mem_nil, or_false] at hflag
  rcases hflag with h | hflag
  · have hfields : pdmBank.fields w.idx = ⟨statChfAll, ~~~statChfAll⟩ := if_pos h
    rw [hfields, ← hchf, RegWrite.off_eq_iff.mpr ⟨h, hlane⟩, h]
    rfl
  have hfields : pdmBank.fields w.idx = ⟨0xFFFFFFFF, ~~~0xFFFFFFFF⟩ := by
    rcases hflag with h | h <;> (rw [h]; rfl)
  rw [hfields, ← hones]
  rcases hflag with h | h <;> (rw [RegWrite.off_eq_iff.mpr ⟨h, hlane⟩, h]; rfl)

lemma pdmView_put_iff (x y : Word) : pdmView (pdmBank.put s i x) = pdmView (pdmBank.put s i y) ↔
      pdmVisible (pdmReg i) x = pdmVisible (pdmReg i) y := by
  rw [pdmView_put, pdmView_put]
  constructor
  · intro h
    have hreg := congrFun (congrArg PdmView.regs h) (pdmReg i)
    simpa only [PdmView.put, PdmView.setReg, update_self] using hreg
  · intro h
    simp only [PdmView.put, PdmView.setReg, h]

lemma pdmView_merge_iff_flags {s : PdmState} {i : ℕ} {x y : Word}
    (hgate : i ∉ pdmGates) (hflag : i = 0x08 / 4 ∨ i ∈ pdmFlags)
    (hsame : pdmVisible (pdmReg i) y = pdmVisible (pdmReg i) (s.regs (pdmReg i))) :
    pdmView (s.setReg (pdmReg i) x) = pdmView (pdmBank.put s i y) ↔
      pdmVisible (pdmReg i) x = pdmVisible (pdmReg i) (s.regs (pdmReg i)) ∧
      s.irq = (pdmUpdateIrq s).irq := by
  have hself : (pdmView s).setReg (pdmReg i) y = pdmView s := by
    simp only [PdmView.setReg, hsame]
    rw [show pdmVisible (pdmReg i) (s.regs (pdmReg i)) = (pdmView s).regs (pdmReg i) from rfl,
      update_eq_self]
  have hput : (pdmView s).put i y = { pdmView s with irq := (pdmView s).interrupts } := by
    simp only [PdmView.put, hself, hgate, hflag, false_or, if_true, if_false]
  rw [pdmView_put, hput, pdmView_setReg, pdmUpdateIrq_irq]
  constructor
  · intro h
    have hreg := congrFun (congrArg PdmView.regs h) (pdmReg i)
    simp only [PdmView.setReg, update_self] at hreg
    exact ⟨hreg, congrArg PdmView.irq h⟩
  rintro ⟨hreg, hirq⟩
  have hregs : update (pdmView s).regs (pdmReg i)
      (pdmVisible (pdmReg i) (s.regs (pdmReg i))) = (pdmView s).regs :=
    update_eq_self (pdmReg i) (pdmView s).regs
  rw [PdmView.setReg, hreg, hregs, ← hirq]
  rfl

lemma lanes_and_statChfAll (hlane : w.lane ≠ 0) : w.lanes &&& statChfAll = 0 := by
  rw [and_eq_zero_iff]
  intro i hi hcovered
  rw [w.getLsbD_lanes hi, decide_eq_true_eq] at hcovered
  have hhigh : ∀ i < 32, 8 ≤ i → statChfAll.getLsbD i = false := by decide
  exact hhigh i hi (by omega)

lemma pdmDevice_exact_iff_inside {s : PdmState} (htakes : pdmBank.Takes w)
    (hlane : w.lane ≠ 0) : pdmBank.Exact pdmView pdmDevice s w ↔ PdmSafe s w := by
  unfold Bank.Exact Bank.write PdmSafe
  rw [if_neg hlane, pdmDevice_merge htakes (.inl hlane), pdmBank_word]
  by_cases hgate : w.idx ∈ pdmGates
  · have hfields : pdmBank.fields w.idx = .plain := by
      simp only [pdmGates, mem_cons, not_mem_nil, or_false] at hgate
      rcases hgate with h | h <;> (rw [h]; rfl)
    rw [if_pos hgate, hfields, into_plain, pdmView_put, pdmUpdateIrq_irq,
      pdmUpdateDmaReq_dmaLvl, pdmView_setReg]
    simp only [PdmView.put, hgate, true_or, if_true]
    constructor
    · intro h
      exact ⟨congrArg PdmView.irq h, congrArg PdmView.dma h⟩
    rintro ⟨hirq, hdma⟩
    rw [← hirq, ← hdma]
    rfl
  rw [if_neg hgate]
  by_cases hstat : w.idx = 0x08 / 4
  · have hreg : pdmReg w.idx = rStat := (pdmReg_eq_stat htakes.1.1).mpr hstat
    have hfields : pdmBank.fields w.idx = ⟨statChfAll, ~~~statChfAll⟩ := if_pos hstat
    have hlanes := lanes_and_statChfAll hlane
    have hkeep : ∀ v : Word, (∀ i < 32, w.lanes.getLsbD i = false →
        v.getLsbD i = (s.regs (pdmReg w.idx)).getLsbD i) →
        pdmVisible (pdmReg w.idx) v = pdmVisible (pdmReg w.idx) (s.regs (pdmReg w.idx)) := by
      intro v hv
      rw [pdmVisible, pdmVisible, if_pos hreg, if_pos hreg]
      apply BitVec.eq_of_getLsbD_eq
      intro i hi
      rw [BitVec.getLsbD_and, BitVec.getLsbD_and]
      cases hcovered : w.lanes.getLsbD i
      · rw [hv i hi hcovered]
      · rw [RegWrite.and_eq_zero_iff.mp hlanes i hi hcovered, Bool.and_false, Bool.and_false]
    have hmerge := hkeep (w.merge (s.regs (pdmReg w.idx))) fun i hi h => by
      rw [getLsbD_merge _ hi, h]
      rfl
    have hinto := hkeep (w.into (pdmBank.fields w.idx) (s.regs (pdmReg w.idx))) fun i hi h => by
        rw [getLsbD_into _ _ hi, h]
        rfl
    rw [if_pos hstat, pdmView_merge_iff_flags hgate (.inl hstat) hinto]
    exact and_iff_right hmerge
  rw [if_neg hstat]
  by_cases hflag : w.idx ∈ pdmFlags
  · have hfields : pdmBank.fields w.idx = ⟨0xFFFFFFFF, ~~~0xFFFFFFFF⟩ :=
      (if_neg hstat).trans (if_pos hflag)
    have hreg : pdmReg w.idx ≠ rStat := fun h => hstat ((pdmReg_eq_stat htakes.1.1).mp h)
    have hvisible : ∀ v, pdmVisible (pdmReg w.idx) v = v := fun v => if_neg hreg
    have hall : ∀ v : Word, v &&& 0xFFFFFFFF = v := fun v => BitVec.and_allOnes
    have hword := merge_eq_into_iff (w := w) 0xFFFFFFFF (s.regs (pdmReg w.idx))
    rw [hall, hall, hall, hall] at hword
    rw [if_pos hflag, hfields]
    constructor
    · intro h
      have hregs := congrFun (congrArg PdmView.regs h) (pdmReg w.idx)
      rw [pdmView_setReg, pdmView_put] at hregs
      simp only [PdmView.put, PdmView.setReg, update_self, hvisible] at hregs
      obtain ⟨hplaced, hold⟩ := hword.mp hregs
      have hself := merge_eq_self hplaced hold
      rw [pdmView_merge_iff_flags hgate (.inr hflag) (by rw [← hregs, hself])] at h
      exact ⟨hplaced, hold, h.2⟩
    rintro ⟨hplaced, hold, hirq⟩
    have hself := merge_eq_self hplaced hold
    have hregs := hword.mpr ⟨hplaced, hold⟩
    rw [pdmView_merge_iff_flags hgate (.inr hflag) (by rw [← hregs, hself]), hself]
    exact ⟨rfl, hirq⟩
  have hfields : pdmBank.fields w.idx = .plain := (if_neg hstat).trans (if_neg hflag)
  have hput : ∀ x, pdmBank.put s w.idx x = s.setReg (pdmReg w.idx) x := fun x =>
    (if_neg hgate).trans (if_neg (not_or.mpr ⟨hstat, hflag⟩))
  rw [if_neg hflag, hfields, into_plain, hput]
  exact iff_of_true rfl trivial

lemma pdmDevice_exact_iff (w : RegWrite) (htakes : pdmBank.Takes w) :
    pdmBank.Exact pdmView pdmDevice s w ↔ PdmSafe s w := by
  by_cases hlane : w.lane = 0
  · unfold Bank.Exact Bank.write PdmSafe
    rw [if_pos hlane, pdmBank_word]
    by_cases hgate : w.idx ∈ pdmGates
    · have hfields : pdmBank.fields w.idx = .plain := by
        simp only [pdmGates, mem_cons, not_mem_nil, or_false] at hgate
        rcases hgate with h | h <;> (rw [h]; rfl)
      have hreg : pdmReg w.idx ≠ rStat := by
        rw [Ne, pdmReg_eq_stat htakes.1.1]
        intro h
        rw [h] at hgate
        revert hgate
        decide
      have hvisible : ∀ v, pdmVisible (pdmReg w.idx) v = v := fun v => if_neg hreg
      rw [pdmDevice_gate htakes hlane hgate, hfields, into_plain, pdmView_put_iff,
        hvisible, hvisible, value_eq_merge_iff hlane]
      exact ⟨fun h _ => h, fun h => h hgate⟩
    refine iff_of_true ?_ fun h => absurd h hgate
    by_cases hflag : w.idx = 0x08 / 4 ∨ w.idx ∈ pdmFlags
    · rw [pdmDevice_clear hlane hflag]
    obtain ⟨hstat, hflags⟩ := not_or.mp hflag
    have hfields : pdmBank.fields w.idx = .plain := (if_neg hstat).trans (if_neg hflags)
    have hput : ∀ x, pdmBank.put s w.idx x = s.setReg (pdmReg w.idx) x := fun x =>
      (if_neg hgate).trans (if_neg hflag)
    rw [pdmDevice_merge htakes (.inr ⟨hgate, hstat, hflags⟩), hfields, into_plain, hput]
  · exact pdmDevice_exact_iff_inside htakes hlane

end Pdm

end Mcxn947.NarrowRegisters
