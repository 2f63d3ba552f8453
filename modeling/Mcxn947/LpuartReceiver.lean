import Mcxn947.FlexcommLines

/-!
# The receiver of the LPUART

The guest works on the receiver through the LPUART register map, the character backend
through `can_rx` and `rx`.
-/

namespace Mcxn947.Flexcomm

open MachineWords EventRuns LpuartReg

def ctrlRe : Word := 0x00040000

variable (s : FlexcommState) (ch : Byte)

def mcxnLpuartCanRx : ℤ :=
  if anyBit s.ctrl ctrlRe then
    (BitVec.ofNat 32 (lpuartRxDepth s) - BitVec.ofNat 32 s.rxCount).toInt
  else 0

lemma rxDepth_le : lpuartRxDepth s ≤ 8 := by
  unfold lpuartRxDepth lpuartFifoDepth
  split <;> omega

def lpuartRxOne : FlexcommState :=
  if (lpuartRxPush s ch).2 then (lpuartRxPush s ch).1
  else { (lpuartRxPush s ch).1 with
    statOr := (lpuartRxPush s ch).1.statOr ||| statOr }

lemma rxAll_cons (rest : List Byte) (s : FlexcommState) :
    lpuartRxAll (ch :: rest) s = lpuartRxAll rest (lpuartRxOne s ch) := rfl

lemma rxOne_depth : lpuartRxDepth (lpuartRxOne s ch) = lpuartRxDepth s := by
  unfold lpuartRxOne lpuartRxPush
  split
  · split <;> rfl
  · split <;> rfl

inductive UartEvent where
  | read (offset : ℕ)
  | write (offset : ℕ) (value : Word)
  | chunk (buf : List Byte)
  | query
deriving DecidableEq

def UartEvent.OnLpuart : UartEvent → Prop
  | .read offset | .write offset _ => offset ≠ lpflexcommPselid
  | .chunk _ | .query => True

instance (e : UartEvent) : Decidable e.OnLpuart :=
  match e with
  | .read offset => inferInstanceAs (Decidable (offset ≠ lpflexcommPselid))
  | .write offset _ => inferInstanceAs (Decidable (offset ≠ lpflexcommPselid))
  | .chunk _ => .isTrue trivial
  | .query => .isTrue trivial

variable {π ο : Type}

def uartNext (p : Peers π) (x : Device π) : UartEvent → Device π
  | .read offset => (mcxnLpuartRead p x offset).1
  | .write offset value => mcxnLpuartWrite p x offset value
  | .chunk buf => mcxnLpuartRx p x buf
  | .query => x

structure SameReceiver (s s' : FlexcommState) : Prop where
  pselid : s'.pselid = s.pselid
  fifo : s'.fifo = s.fifo
  water : s'.water = s.water
  ctrl : s'.ctrl = s.ctrl
  rxFifo : s'.rxFifo = s.rxFifo
  rxHead : s'.rxHead = s.rxHead
  rxCount : s'.rxCount = s.rxCount
  statOr : s'.statOr = s.statOr

lemma SameReceiver.refl (s : FlexcommState) : SameReceiver s s :=
  ⟨rfl, rfl, rfl, rfl, rfl, rfl, rfl, rfl⟩

lemma updateIrq_sameReceiver (p : Peers π) (x : Device π) :
    SameReceiver x.st (mcxnFlexcommUpdateIrq p x).st := by
  rw [updateIrq_st]
  exact ⟨rfl, rfl, rfl, rfl, rfl, rfl, rfl, rfl⟩

def receiverWrite (s : FlexcommState) (value : Word) : Option LpuartReg → FlexcommState
  | some .global =>
    if anyBit value globalRst then
      { s with
        ctrl := 0, fifo := 0, water := 0, rxHead := 0, rxCount := 0, statOr := 0 }
    else s
  | some .ctrl => { s with ctrl := value }
  | some .fifo =>
    if anyBit value fifoRxflush then
      { s with
        rxCount := 0, rxHead := 0, fifo := (value &&& ~~~lpuartFifoSizesMask) &&& ~~~fifoRxflush }
    else { s with fifo := value &&& ~~~lpuartFifoSizesMask }
  | some .water => { s with water := value &&& 0x00070007 }
  | _ => s

def fifoWritten (p : Peers π) (x : Device π) : Device π :=
  mcxnFlexcommUpdateIrq p (x.modify fun s =>
    { s with fifo := s.fifo &&& ~~~fifoTxflush })

lemma writeFifo_plain (p : Peers π) (x : Device π) {value : Word}
    (hflush : anyBit value fifoRxflush ≠ true) : lpuartWriteFifo p x value =
      fifoWritten p (x.modify fun s => receiverWrite s value (some .fifo)) := by
  unfold lpuartWriteFifo receiverWrite
  dsimp only
  simp only [if_neg hflush]
  rfl

lemma write_receiver (p : Peers π) (x : Device π) (value : Word)
    {r : Option LpuartReg} (hfifo : r ≠ some .fifo) :
    SameReceiver (receiverWrite x.st value r) (lpuartWrite p x value r).st := by
  rcases r with _ | r
  · exact .refl _
  cases r with
  | fifo => exact absurd rfl hfifo
  | global =>
    unfold lpuartWrite lpuartWriteGlobal receiverWrite
    dsimp only
    split
    · have h := updateIrq_sameReceiver p
        ((x.modify fun s => { s with global := value }).modify fun s =>
          { s with
            ctrl := 0, baud := 0, fifo := 0, water := 0, rxHead := 0, rxCount := 0, statOr := 0 })
      exact ⟨h.pselid, h.fifo, h.water, h.ctrl, h.rxFifo, h.rxHead, h.rxCount, h.statOr⟩
    · exact ⟨rfl, rfl, rfl, rfl, rfl, rfl, rfl, rfl⟩
  | ctrl => exact updateIrq_sameReceiver p (x.modify fun s => { s with ctrl := value })
  | water =>
    exact updateIrq_sameReceiver p (x.modify fun s => { s with water := value &&& 0x00070007 })
  | baud =>
    have h := updateIrq_sameReceiver p (x.modify fun s => { s with baud := value })
    exact ⟨h.pselid, h.fifo, h.water, h.ctrl, h.rxFifo, h.rxHead, h.rxCount, h.statOr⟩
  | data =>
    unfold lpuartWrite lpuartWriteData receiverWrite
    dsimp only
    split
    · exact updateIrq_sameReceiver p { x with peers := p.chrWriteAll x.peers _ }
    · exact updateIrq_sameReceiver p x
  | _ => exact ⟨rfl, rfl, rfl, rfl, rfl, rfl, rfl, rfl⟩

structure Observer (ο : Type) where
  read : FlexcommState → Option LpuartReg → ο → ο
  write : FlexcommState → Option LpuartReg → Word → ο → ο
  chunk : FlexcommState → List Byte → ο → ο
  (accept query : FlexcommState → ο → ο)

section Watch

variable (p : Peers π) (o : Observer ο)

variable (u : Device π × ο) (r : Option LpuartReg)

def watchChunk (buf : List Byte) : Device π × ο := (mcxnLpuartRx p u.1 buf, o.chunk u.1.st buf u.2)

def watchCalled : Device π × ο :=
  ({ u.1 with peers := (p.chrAcceptInput u.1.peers).1 }, o.accept u.1.st u.2)

def watchAccept : Device π × ο :=
  (p.chrAcceptInput u.1.peers).2.foldl (watchChunk p o) (watchCalled p o u)

def watchPopped : Device π × ο :=
  (mcxnFlexcommUpdateIrq p (u.1.modify fun s => (lpuartRxPop s).1), o.read u.1.st r u.2)

def watchRead : Device π × ο :=
  if r = some .data ∧ u.1.st.rxCount ≠ 0 then watchAccept p o (watchPopped p o u r)
  else (u.1, o.read u.1.st r u.2)

def watchFlushed (value : Word) : Device π × ο :=
  (u.1.modify fun s => receiverWrite s value (some .fifo), o.write u.1.st (some .fifo) value u.2)

def watchWrite (value : Word) : Device π × ο :=
  if r = some .fifo ∧ anyBit value fifoRxflush = true then
    let w := watchAccept p o (watchFlushed o u value)
    (fifoWritten p w.1, w.2)
  else (lpuartWrite p u.1 value r, o.write u.1.st r value u.2)

def watch : UartEvent → Device π × ο
  | .read offset => watchRead p o u (ofOffset offset)
  | .write offset value => watchWrite p o u (ofOffset offset) value
  | .chunk buf => watchChunk p o u buf
  | .query => (u.1, o.query u.1.st u.2)

lemma watchAccept_fst : (watchAccept p o u).1 = chrAcceptInput p u.1 := by
  have hfold : ∀ (chunks : List (List Byte)) (u : Device π × ο),
      (chunks.foldl (watchChunk p o) u).1 = chunks.foldl (mcxnLpuartRx p) u.1 := by
    intro chunks
    induction chunks with
    | nil => intro u; rfl
    | cons buf rest ih => intro u; exact ih (watchChunk p o u buf)
  exact hfold _ _

lemma ofOffset_istat : ofOffset lpflexcommIstat = none := by decide

lemma watch_fst {u : Device π × ο} (hmode : u.1.st.persel = .lpuart)
    {e : UartEvent} (he : e.OnLpuart) : (watch p o u e).1 = uartNext p u.1 e := by
  cases e with
  | chunk buf | query => rfl
  | read offset =>
    have hread : (mcxnLpuartRead p u.1 offset).1 = (lpuartRead p u.1 (ofOffset offset)).1 := by
      unfold mcxnLpuartRead
      rw [if_neg he, hmode]
      split
      next histat =>
        rw [histat, ofOffset_istat]
        rfl
      · rfl
    rw [uartNext, hread, watch, watchRead]
    split
    next hdata =>
      rw [hdata.1, watchAccept_fst, lpuartRead, if_neg hdata.2]
      rfl
    rename_i hquiet
    cases hreg : ofOffset offset with
    | none => rfl
    | some r =>
      cases r with
      | data =>
        have hempty : u.1.st.rxCount = 0 := by
          by_contra hne
          exact hquiet ⟨hreg, hne⟩
        simp [lpuartRead, hempty]
      | _ => rfl
  | write offset value =>
    have hwrite : mcxnLpuartWrite p u.1 offset value =
        lpuartWrite p u.1 value (ofOffset offset) := by
      unfold mcxnLpuartWrite
      rw [if_neg he, hmode]
      split
      next histat =>
        rw [histat, ofOffset_istat]
        rfl
      · rfl
    rw [uartNext, hwrite, watch, watchWrite]
    split
    next hflush =>
      dsimp only
      rw [watchAccept_fst, hflush.1, lpuartWrite, lpuartWriteFifo]
      rw [if_pos hflush.2]
      unfold watchFlushed receiverWrite
      simp only [hflush.2, if_true]
      rfl
    · rfl

end Watch

structure ReceiverInvariant (o : Observer ο) (admits : FlexcommState → ο → List Byte → Prop)
    (I : FlexcommState → ο → Prop) : Prop where
  view : ∀ s s' w, SameReceiver s s' → I s w → I s' w
  txflush : ∀ s w, I s w → I { s with fifo := s.fifo &&& ~~~fifoTxflush } w
  accept : ∀ s w, I s w → I s (o.accept s w)
  chunk : ∀ s w buf, admits s w buf → I s w → I (lpuartRxAll buf s) (o.chunk s buf w)

def AcceptAdmits (p : Peers π) (o : Observer ο)
    (admits : FlexcommState → ο → List Byte → Prop) (u : Device π × ο) : Prop :=
  Admits (watchChunk p o) (fun u buf => admits u.1.st u.2 buf) (watchCalled p o u)
    (p.chrAcceptInput u.1.peers).2

def ChunksAdmitted (p : Peers π) (o : Observer ο)
    (admits : FlexcommState → ο → List Byte → Prop) (u : Device π × ο) :
    UartEvent → Prop
  | .read offset =>
    ofOffset offset = some .data → u.1.st.rxCount ≠ 0 →
      AcceptAdmits p o admits (watchPopped p o u (some .data))
  | .write offset value =>
    ofOffset offset = some .fifo → anyBit value fifoRxflush = true →
      AcceptAdmits p o admits (watchFlushed o u value)
  | .chunk buf => admits u.1.st u.2 buf
  | .query => True

section Invariants

variable {p : Peers π} {o : Observer ο}
  {admits : FlexcommState → ο → List Byte → Prop} {I : FlexcommState → ο → Prop}
  (h : ReceiverInvariant o admits I)

include h

variable {u : Device π × ο}

lemma ReceiverInvariant.watchChunk {buf : List Byte}
    (hbuf : admits u.1.st u.2 buf) (hu : I u.1.st u.2) :
    I (watchChunk p o u buf).1.st (watchChunk p o u buf).2 :=
  h.view _ _ _ (updateIrq_sameReceiver p (u.1.modify (lpuartRxAll buf))) (h.chunk _ _ _ hbuf hu)

lemma ReceiverInvariant.watchAccept (hadm : AcceptAdmits p o admits u) (hu : I u.1.st u.2) :
    I (watchAccept p o u).1.st (watchAccept p o u).2 :=
  run_invariant_of_admits (P := fun u : Device π × ο => I u.1.st u.2)
    (fun _ _ hbuf hu => h.watchChunk hbuf hu) (h.accept _ _ hu) hadm

lemma ReceiverInvariant.fifoWritten {x : Device π} {w : ο} (hx : I x.st w) :
    I (fifoWritten p x).st w :=
  h.view _ _ _ (updateIrq_sameReceiver p _) (h.txflush _ _ hx)

lemma ReceiverInvariant.watch {e : UartEvent} (hadm : ChunksAdmitted p o admits u e)
    (hpop : ∀ offset, e = .read offset → ofOffset offset = some .data → u.1.st.rxCount ≠ 0 →
      I (lpuartRxPop u.1.st).1 (o.read u.1.st (some .data) u.2))
    (hread : ∀ offset, e = .read offset → ¬ (ofOffset offset = some .data ∧ u.1.st.rxCount ≠ 0) →
      I u.1.st (o.read u.1.st (ofOffset offset) u.2))
    (hwrite : ∀ offset value, e = .write offset value →
      I (receiverWrite u.1.st value (ofOffset offset)) (o.write u.1.st (ofOffset offset) value u.2))
    (hquery : e = .query → I u.1.st (o.query u.1.st u.2)) (hu : I u.1.st u.2) :
    I (watch p o u e).1.st (watch p o u e).2 := by
  cases e with
  | chunk buf => exact h.watchChunk hadm hu
  | query => exact hquery rfl
  | read offset =>
    unfold Flexcomm.watch watchRead
    dsimp only
    split
    next hdata =>
      rw [hdata.1]
      apply h.watchAccept (hadm hdata.1 hdata.2)
      exact h.view _ _ _ (updateIrq_sameReceiver p
        (u.1.modify fun s => (lpuartRxPop s).1)) (hpop offset rfl hdata.1 hdata.2)
    next hquiet => exact hread offset rfl hquiet
  | write offset value =>
    have heffect := hwrite offset value rfl
    unfold Flexcomm.watch watchWrite
    dsimp only
    split
    next hflush =>
      rw [hflush.1] at heffect
      exact h.fifoWritten (h.watchAccept (hadm hflush.1 hflush.2) heffect)
    rename_i hplain
    by_cases hfifo : ofOffset offset = some .fifo
    · have hflush : anyBit value fifoRxflush ≠ true := fun hyes =>
        hplain ⟨hfifo, hyes⟩
      rw [hfifo] at heffect ⊢
      dsimp only
      rw [lpuartWrite, writeFifo_plain p u.1 hflush]
      exact h.fifoWritten heffect
    · exact h.view _ _ _ (write_receiver p u.1 value hfifo) heffect

end Invariants

lemma run_watch_fst {p : Peers π} {o : Observer ο}
    {guard : Device π × ο → UartEvent → Prop} {I : FlexcommState → ο → Prop}
    (hmode : ∀ s w, I s w → s.persel = .lpuart)
    (hstep : ∀ u e, guard u e → I u.1.st u.2 → I (watch p o u e).1.st (watch p o u e).2)
    {u : Device π × ο} (hu : I u.1.st u.2) {events : List UartEvent}
    (hevents : ∀ e ∈ events, e.OnLpuart) (hadm : Admits (watch p o) guard u events) :
    (run (watch p o) u events).1 = run (uartNext p) u.1 events := by
  induction events generalizing u with
  | nil => rfl
  | cons e rest ih =>
    obtain ⟨hguard, hrest⟩ := hadm
    have hfst := watch_fst p o (hmode _ _ hu) (hevents e List.mem_cons_self)
    rw [run_cons, run_cons, ← hfst]
    exact ih (hstep u e hguard hu) (fun e he => hevents e (List.mem_cons_of_mem _ he)) hrest

end Mcxn947.Flexcomm
