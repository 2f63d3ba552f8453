import Mcxn947.LpuartReceiver
import Mcxn947.RingBuffers

/-!
# The receive queue of the LPUART

The ring `rx_fifo`, `rx_head`, `rx_count` holds a bounded queue whose depth the guest
chooses with `FIFO[RXFE]`, and five registers show it.
-/

namespace Mcxn947.Flexcomm

open MachineWords EventRuns RingBuffers List BitVec Nat Device FlexcommState LpuartReg QueueLog

variable (s : FlexcommState)

def uartQueue : List Byte := contents s.rxFifo s.rxHead s.rxCount

@[simp] lemma length_uartQueue : (uartQueue s).length = s.rxCount := length_contents _ _ _

lemma rxPush_refused_iff (ch : Byte) :
    (lpuartRxPush s ch).2 = false ↔ lpuartRxDepth s ≤ (uartQueue s).length := by
  unfold lpuartRxPush
  split
  · simpa
  · simpa using not_le.mp ‹_›

lemma uartQueue_push {s : FlexcommState} {ch : Byte} (h : (lpuartRxPush s ch).2) :
    uartQueue (lpuartRxPush s ch).1 = uartQueue s ++ [ch] := by
  have hroom : ¬ lpuartRxDepth s ≤ s.rxCount := by
    intro hfull
    simp [lpuartRxPush, hfull] at h
  have hlt : s.rxCount < 8 := by
    have := rxDepth_le s
    omega
  rw [lpuartRxPush, if_neg hroom]
  exact contents_push s.rxFifo s.rxHead hlt ch

lemma uartQueue_pop : uartQueue (lpuartRxPop s).1 = (uartQueue s).tail := by
  unfold lpuartRxPop uartQueue
  cases hcount : s.rxCount with
  | zero => simp [contents, hcount]
  | succ k =>
    rw [contents_succ]
    rfl

lemma data_eq : lpuartData s = match uartQueue s with
      | [] => lpuartDataRxempt
      | ch :: _ => ch.setWidth 32 := by
  unfold lpuartData uartQueue
  cases hcount : s.rxCount with
  | zero => rfl
  | succ k =>
    rw [contents_succ]
    rfl

lemma data_rxempt : anyBit (lpuartData s) lpuartDataRxempt = decide (uartQueue s = []) := by
  rw [data_eq]
  cases uartQueue s with
  | nil => decide
  | cons ch rest =>
    have hbit : lpuartDataRxempt = BitVec.twoPow 32 12 := by decide
    simp [hbit, anyBit_dataByte]

structure UartLog where
  log : QueueLog Byte
  seen : List Byte

def UartLog.empty : UartLog := ⟨.empty, []⟩

def queueObserver : Observer UartLog where
  read s r w :=
    if r = some .data ∧ anyBit (lpuartData s) lpuartDataRxempt = false then
      ⟨w.log.take, w.seen ++ [(lpuartData s).setWidth 8]⟩
    else w
  write _ r value w :=
    { w with log :=
        match r with
        | some .stat => if anyBit value statOr then w.log.forgive else w.log
        | some .fifo => if anyBit value fifoRxflush then w.log.discard else w.log
        | some .global =>
          if anyBit value globalRst then w.log.discard.forgive else w.log
        | _ => w.log }
  chunk s buf w := { w with log := buf.foldl (receive (lpuartRxDepth s)) w.log }
  accept _ w := w
  query _ w := w

structure Refines (s : FlexcommState) (w : UartLog) : Prop where
  mode : s.persel = .lpuart
  queue : uartQueue s = w.log.queue
  bound : s.rxCount ≤ 8
  ordered : w.log.Ordered
  seen : w.seen = w.log.returned
  overrun : s.statOr = if w.log.lost then statOr else 0
  rxempt : anyBit s.fifo fifoRxempt = false

variable {w : UartLog} {offset : ℕ}

lemma Refines.view {s s' : FlexcommState}
    (hsame : SameReceiver s s') (h : Refines s w) : Refines s' w where
  mode := by
    rw [persel, hsame.pselid]
    exact h.mode
  queue := by
    rw [uartQueue, hsame.rxFifo, hsame.rxHead, hsame.rxCount]
    exact h.queue
  bound := by
    rw [hsame.rxCount]
    exact h.bound
  ordered := h.ordered
  seen := h.seen
  overrun := by
    rw [hsame.statOr]
    exact h.overrun
  rxempt := by
    rw [hsame.fifo]
    exact h.rxempt

lemma Refines.receive {s : FlexcommState} (h : Refines s w) (ch : Byte) :
    Refines (lpuartRxOne s ch) { w with log := w.log.receive (lpuartRxDepth s) ch } := by
  have hdepth := rxDepth_le s
  have hlength : w.log.queue.length = s.rxCount := by rw [← h.queue, length_uartQueue]
  have hqueue := queue_receive h.ordered (lpuartRxDepth s) ch
  cases hpush : (lpuartRxPush s ch).2 with
  | true =>
    have hroom : ¬ lpuartRxDepth s ≤ s.rxCount := by
      intro hfull
      simp [lpuartRxPush, hfull] at hpush
    have hone : lpuartRxOne s ch = (lpuartRxPush s ch).1 := by rw [lpuartRxOne, hpush, if_pos rfl]
    have hlog : w.log.receive (lpuartRxDepth s) ch = { w.log with kept := w.log.kept ++ [ch] } := by
      rw [QueueLog.receive, if_pos (by omega)]
    have hregs : (lpuartRxPush s ch).1.pselid = s.pselid ∧ (lpuartRxPush s ch).1.fifo = s.fifo ∧
        (lpuartRxPush s ch).1.statOr = s.statOr ∧
        (lpuartRxPush s ch).1.rxCount = s.rxCount + 1 := by
      rw [lpuartRxPush, if_neg hroom]
      exact ⟨rfl, rfl, rfl, rfl⟩
    rw [hone]
    constructor
    case mode =>
      rw [persel, hregs.1]
      exact h.mode
    case queue => rw [uartQueue_push hpush, hqueue, if_pos (by omega), h.queue]
    case bound => omega
    case ordered => exact h.ordered.receive _ ch
    case seen =>
      rw [hlog]
      exact h.seen
    case overrun =>
      rw [hlog, hregs.2.2.1]
      exact h.overrun
    case rxempt =>
      rw [hregs.2.1]
      exact h.rxempt
  | false =>
    have hfull : lpuartRxDepth s ≤ s.rxCount := by
      have hiff := (rxPush_refused_iff s ch).mp hpush
      rwa [length_uartQueue] at hiff
    have hone : lpuartRxOne s ch = { s with statOr := s.statOr ||| statOr } := by
      rw [lpuartRxOne, hpush, if_neg Bool.false_ne_true, lpuartRxPush, if_pos hfull]
    have hlog : w.log.receive (lpuartRxDepth s) ch = { w.log with lost := true } := by
      rw [QueueLog.receive, if_neg (by omega)]
    rw [hone, hlog]
    refine ⟨h.mode, h.queue, h.bound, h.ordered, h.seen, ?_, h.rxempt⟩
    change s.statOr ||| statOr = statOr
    rw [h.overrun]
    cases w.log.lost <;> decide

lemma Refines.chunk (buf : List Byte) {s : FlexcommState} (h : Refines s w) :
    Refines (lpuartRxAll buf s)
      { w with log := buf.foldl (QueueLog.receive (lpuartRxDepth s)) w.log } := by
  induction buf generalizing s w with
  | nil => exact h
  | cons ch rest ih =>
    rw [rxAll_cons, foldl_cons, ← rxOne_depth s ch]
    have hone := h.receive ch
    rw [← rxOne_depth s ch] at hone
    exact ih hone

lemma Refines.read {s : FlexcommState} (h : Refines s w)
    {r : Option LpuartReg} (hquiet : ¬ (r = some .data ∧ s.rxCount ≠ 0)) :
    Refines s (queueObserver.read s r w) := by
  have hskip : ¬ (r = some .data ∧ anyBit (lpuartData s) lpuartDataRxempt = false) := by
    rintro ⟨hdata, hshown⟩
    rw [data_rxempt, decide_eq_false_iff_not, uartQueue, contents_eq_nil_iff] at hshown
    exact hquiet ⟨hdata, hshown⟩
  rw [queueObserver]
  dsimp only
  rw [if_neg hskip]
  exact h

lemma Refines.pop {s : FlexcommState} (h : Refines s w) (hsome : s.rxCount ≠ 0) :
    Refines (lpuartRxPop s).1 (queueObserver.read s (some .data) w) := by
  have hne : uartQueue s ≠ [] := fun hnil => hsome (contents_eq_nil_iff.mp hnil)
  have hshown : anyBit (lpuartData s) lpuartDataRxempt = false := by
    rw [data_rxempt]
    exact decide_eq_false hne
  have hbyte : w.log.queue.take 1 = [(lpuartData s).setWidth 8] := by
    rw [← h.queue, data_eq]
    cases hqueue : uartQueue s with
    | nil => exact absurd hqueue hne
    | cons ch rest =>
      have hround : (ch.setWidth 32).setWidth 8 = ch := by
        apply eq_of_toNat_eq
        simp
      rw [take_succ_cons, take_zero, hround]
  have hregs : (lpuartRxPop s).1.pselid = s.pselid ∧ (lpuartRxPop s).1.fifo = s.fifo ∧
      (lpuartRxPop s).1.statOr = s.statOr ∧ (lpuartRxPop s).1.rxCount ≤ s.rxCount := by
    rw [lpuartRxPop, if_neg hsome]
    exact ⟨rfl, rfl, rfl, sub_le _ _⟩
  rw [queueObserver]
  dsimp only
  rw [if_pos ⟨rfl, hshown⟩]
  constructor
  case mode =>
    rw [persel, hregs.1]
    exact h.mode
  case queue => rw [uartQueue_pop, queue_take, h.queue]
  case bound => exact hregs.2.2.2.trans h.bound
  case ordered => exact h.ordered.take
  case seen =>
    change _ = w.log.returned ++ w.log.queue.take 1
    rw [hbyte, h.seen]
  case overrun =>
    rw [hregs.2.2.1]
    exact h.overrun
  case rxempt =>
    rw [hregs.2.1]
    exact h.rxempt

def KeepsFlags : UartEvent → Prop
  | .write offset value =>
    (ofOffset offset = some .fifo → anyBit value fifoRxempt = false) ∧
      (ofOffset offset = some .stat → anyBit value statOr = true → anyBit s.statOr statOr = false)
  | .read _ | .chunk _ | .query => True

lemma Refines.write {s : FlexcommState} (h : Refines s w)
    {value : Word} (hkeeps : KeepsFlags s (.write offset value)) :
    Refines (receiverWrite s value (ofOffset offset))
      (queueObserver.write s (ofOffset offset) value w) := by
  obtain ⟨hfifo, hstat⟩ := hkeeps
  generalize ofOffset offset = r at hfifo hstat ⊢
  unfold receiverWrite queueObserver
  rcases r with _ | r
  · exact h
  cases r with
  | global =>
    dsimp only
    split
    · refine ⟨h.mode, ?_, Nat.zero_le 8, h.ordered.discard, h.seen, rfl, ?_⟩
      · exact (queue_discard w.log).symm
      · exact anyBit_zero_left _
    · exact h
  | stat =>
    dsimp only
    split
    next hclears =>
      -- nothing to clear: the history has no overrun either
      have hnone : w.log.lost = false := by
        cases hlost : w.log.lost with
        | false => rfl
        | true =>
          have hset := hstat rfl hclears
          rw [h.overrun, hlost] at hset
          exact absurd hset (by decide)
      refine ⟨h.mode, h.queue, h.bound, h.ordered, h.seen, ?_, h.rxempt⟩
      rw [h.overrun, hnone]
      rfl
    · exact h
  | fifo =>
    have hsizes : ∀ v : Word, anyBit (v &&& ~~~lpuartFifoSizesMask) fifoRxempt =
        anyBit v fifoRxempt :=
      anyBit_clear_of_disjoint (by decide)
    have hflush : ∀ v : Word, anyBit (v &&& ~~~fifoRxflush) fifoRxempt =
        anyBit v fifoRxempt :=
      anyBit_clear_of_disjoint (by decide)
    dsimp only
    split
    · refine ⟨h.mode, ?_, Nat.zero_le 8, h.ordered.discard, h.seen, h.overrun, ?_⟩
      · exact (queue_discard w.log).symm
      · rw [hflush, hsizes]
        exact hfifo rfl
    refine ⟨h.mode, h.queue, h.bound, h.ordered, h.seen, h.overrun, ?_⟩
    rw [hsizes]
    exact hfifo rfl
  | _ => exact ⟨h.mode, h.queue, h.bound, h.ordered, h.seen, h.overrun, h.rxempt⟩

lemma refines_invariant : ReceiverInvariant queueObserver (fun _ _ _ => True) Refines where
  view _ _ _ hsame h := h.view hsame
  txflush s w h := by
    refine ⟨h.mode, h.queue, h.bound, h.ordered, h.seen, h.overrun, ?_⟩
    exact (anyBit_clear_of_disjoint (by decide) s.fifo).trans h.rxempt
  accept _ _ h := h
  chunk _ _ buf _ h := h.chunk buf

variable {π : Type} {p : Peers π}

lemma watch_refines {u : Device π × UartLog} {e : UartEvent}
    (hkeeps : KeepsFlags u.1.st e) (h : Refines u.1.st u.2) :
    Refines (watch p queueObserver u e).1.st (watch p queueObserver u e).2 := by
  have hfree : ∀ (chunks : List (List Byte)) (v : Device π × UartLog),
      Admits (watchChunk p queueObserver) (fun _ _ => True) v chunks := by
    intro chunks
    induction chunks with
    | nil => exact fun _ => trivial
    | cons buf rest ih => exact fun v => ⟨trivial, ih _⟩
  have hadm : ChunksAdmitted p queueObserver (fun _ _ _ => True) u e := by
    cases e with
    | read offset | write offset value => exact fun _ _ => hfree _ _
    | chunk buf | query => trivial
  apply refines_invariant.watch hadm
  case hpop => exact fun _ _ _ hsome => h.pop hsome
  case hread => exact fun _ _ hquiet => h.read hquiet
  case hwrite =>
    rintro offset value rfl
    exact h.write hkeeps
  case hquery => exact fun _ => h
  case hu => exact h

variable {x : Device π}

lemma read_lpuart (hmode : x.st.persel = .lpuart) (hpselid : offset ≠ lpflexcommPselid)
    (histat : offset ≠ lpflexcommIstat) :
    mcxnLpuartRead p x offset = lpuartRead p x (ofOffset offset) := by
  rw [mcxnLpuartRead, if_neg hpselid, if_neg histat, hmode]

/-- The registers show the queue of received bytes and the loss of one. -/
structure ShowsQueue (p : Peers π) (x : Device π) (w : UartLog) : Prop where
  order : w.seen ++ uartQueue x.st = w.log.kept
  dataro : (mcxnLpuartRead p x 0x30).1 = x
  refused : ∀ ch, (lpuartRxPush x.st ch).2 = false ↔
    (if anyBit x.st.fifo fifoRxfe then 8 else 1) ≤ (uartQueue x.st).length
  overrun : anyBit (mcxnLpuartRead p x 0x14).2 statOr = w.log.lost
  rxcount : (((mcxnLpuartRead p x 0x2C).2 >>> 24) &&& 0xF).toNat = (uartQueue x.st).length
  fifoRxempt : anyBit (mcxnLpuartRead p x 0x28).2 fifoRxempt = decide (uartQueue x.st = [])
  dataRxempt : anyBit (mcxnLpuartRead p x 0x1C).2 lpuartDataRxempt = decide (uartQueue x.st = [])
  rdrf : anyBit (mcxnLpuartRead p x 0x14).2 statRdrf =
    decide (lpuartRxwater x.st < (uartQueue x.st).length)

lemma water_rxcount (water : Word) {count : ℕ} (h : count ≤ 8) :
    ((((water &&& (0x00070007 : Word)) ||| ((BitVec.ofNat 32 count &&& 0xF) <<< 24)) >>> 24)
      &&& 0xF).toNat = count := by
  have hlow : (water &&& 0x00070007) >>> 24 = 0 := by
    apply eq_of_toNat_eq
    have hle : (water &&& 0x00070007).toNat ≤ 0x00070007 := by exact Nat.and_le_right
    rw [toNat_ushiftRight, shiftRight_eq_div_pow]
    exact div_eq_of_lt (by omega)
  rw [ushiftRight_or_distrib, hlow]
  interval_cases count <;> decide

lemma Refines.shows (h : Refines x.st w) : ShowsQueue p x w := by
  have hreg : ∀ {offset : ℕ} {r : LpuartReg}, offset ≠ lpflexcommPselid →
      offset ≠ lpflexcommIstat → ofOffset offset = some r →
      mcxnLpuartRead p x offset = lpuartRead p x (some r) := by
    intro offset r hpselid histat hoff
    rw [read_lpuart h.mode hpselid histat, hoff]
  obtain ⟨hstat, hfifo, hwater, hdata, hdataro⟩ :
      mcxnLpuartRead p x 0x14 = lpuartRead p x (some .stat) ∧
      mcxnLpuartRead p x 0x28 = lpuartRead p x (some .fifo) ∧
      mcxnLpuartRead p x 0x2C = lpuartRead p x (some .water) ∧
      mcxnLpuartRead p x 0x1C = lpuartRead p x (some .data) ∧
      mcxnLpuartRead p x 0x30 = lpuartRead p x (some .dataro) := by
    refine ⟨hreg ?_ ?_ ?_, hreg ?_ ?_ ?_, hreg ?_ ?_ ?_, hreg ?_ ?_ ?_, hreg ?_ ?_ ?_⟩ <;> decide
  have hempty : (uartQueue x.st = []) ↔ x.st.rxCount = 0 := contents_eq_nil_iff
  constructor
  case order =>
    rw [h.seen, h.queue]
    exact h.ordered
  case dataro => rw [hdataro, lpuartRead]
  case refused => exact fun ch => rxPush_refused_iff x.st ch
  case overrun =>
    rw [hstat, lpuartRead, h.overrun]
    dsimp only
    cases w.log.lost <;> cases lpuartRdrf x.st <;> decide
  case rxcount =>
    rw [hwater, lpuartRead, length_uartQueue]
    exact water_rxcount x.st.water h.bound
  case fifoRxempt =>
    have hkept : anyBit (x.st.fifo &&& ~~~lpuartFifoSizesMask) Flexcomm.fifoRxempt =
        false :=
      (anyBit_clear_of_disjoint (by decide) x.st.fifo).trans h.rxempt
    have hsizes : anyBit lpuartFifoSizes Flexcomm.fifoRxempt = false := by decide
    have htxempt : anyBit fifoTxempt Flexcomm.fifoRxempt = false := by decide
    rw [hfifo, lpuartRead]
    simp only [anyBit_or, hkept, hsizes, htxempt, hempty, Bool.false_or, Bool.or_false]
    split
    next hnone =>
      rw [hnone]
      decide
    rename_i hsome
    rw [decide_eq_false hsome]
    decide
  case dataRxempt =>
    rw [hdata, lpuartRead]
    exact data_rxempt x.st
  case rdrf =>
    rw [hstat, lpuartRead, length_uartQueue]
    change _ = lpuartRdrf x.st
    rw [h.overrun]
    dsimp only
    cases w.log.lost <;> cases lpuartRdrf x.st <;> decide

structure FreshReceiver (s : FlexcommState) : Prop where
  mode : s.persel = .lpuart
  empty : s.rxCount = 0
  overrun : s.statOr = 0
  rxempt : anyBit s.fifo fifoRxempt = false

lemma FreshReceiver.refines {s : FlexcommState} (h : FreshReceiver s) : Refines s .empty where
  mode := h.mode
  queue := by
    rw [uartQueue, h.empty]
    rfl
  bound := by
    rw [h.empty]
    exact Nat.zero_le 8
  ordered := ordered_empty
  seen := rfl
  overrun := h.overrun
  rxempt := h.rxempt

lemma reset_fresh : FreshReceiver (mcxnLpuartReset s) :=
  ⟨reset_persel s, rfl, rfl, anyBit_zero_left _⟩

/-- The receiver refines a bounded queue in every run whose writes to `FIFO` leave
RXEMPT clear and whose writes to `STAT` set OR only while there is no overrun to
clear. -/
theorem lpuart_shows_queue (hfresh : FreshReceiver x.st)
    {events : List UartEvent} (hevents : ∀ e ∈ events, e.OnLpuart)
    (hadmits : Admits (watch p queueObserver) (fun u e => KeepsFlags u.1.st e) (x, .empty) events) :
    (run (watch p queueObserver) (x, .empty) events).1 = run (uartNext p) x events ∧
      ShowsQueue p (run (uartNext p) x events)
        (run (watch p queueObserver) (x, .empty) events).2 := by
  have hfst := run_watch_fst (u := (x, .empty)) (I := Refines) (fun _ _ h => h.mode)
    (fun _ _ hkeeps h => watch_refines hkeeps h) hfresh.refines hevents hadmits
  have hend := run_invariant_of_admits (P := fun u : Device π × UartLog => Refines u.1.st u.2)
    (fun _ _ hkeeps h => watch_refines hkeeps h) hfresh.refines hadmits
  refine ⟨hfst, ?_⟩
  rw [← hfst]
  exact hend.shows

def receiveTwo : List UartEvent :=
  [.write 0x18 ctrlRe, .write 0x28 fifoRxfe, .chunk [0x41, 0x42], .read 0x1C]

theorem lpuart_shows_queue_receiveTwo : ShowsQueue idlePeers.alone
      (run (uartNext idlePeers.alone) (powerOn ()) receiveTwo)
      (run (watch idlePeers.alone queueObserver) (powerOn (), .empty) receiveTwo).2 := by
  have hevents : ∀ e ∈ receiveTwo, e.OnLpuart := by decide
  have hadmits : Admits (watch idlePeers.alone queueObserver)
      (fun u e => KeepsFlags u.1.st e) (powerOn (), .empty) receiveTwo :=
    ⟨⟨by decide, by decide⟩, ⟨by decide, by decide⟩, trivial, trivial, trivial⟩
  exact (lpuart_shows_queue (reset_fresh _) hevents hadmits).2

theorem fifo_rxempt_and_stat_or_stuck : (uartQueue (run (uartNext idlePeers.alone) (powerOn ())
        [.write 0x28 ((mcxnLpuartRead idlePeers.alone (powerOn ()) 0x28).2 |||
          fifoRxfe), .chunk [0x41]]).st = [0x41] ∧
      anyBit (mcxnLpuartRead idlePeers.alone (run (uartNext idlePeers.alone) (powerOn ())
          [.write 0x28 ((mcxnLpuartRead idlePeers.alone (powerOn ()) 0x28).2 |||
            fifoRxfe), .chunk [0x41]]) 0x28).2 fifoRxempt = true) ∧
    anyBit (mcxnLpuartRead idlePeers.alone (run (uartNext idlePeers.alone) (powerOn ())
        [.chunk [0x41, 0x42], .write 0x14 statOr]) 0x14).2 statOr = true := by
  refine ⟨⟨?_, ?_⟩, ?_⟩ <;> decide +kernel

end Mcxn947.Flexcomm
