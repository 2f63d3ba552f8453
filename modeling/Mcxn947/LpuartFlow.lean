import Mcxn947.LpuartReceiver

/-!
# Flow control of the LPUART receiver

The backend asks `can_rx` for room and delivers no more than the answer.
-/

namespace Mcxn947.Flexcomm

open MachineWords EventRuns BitVec Device FlexcommState LpuartReg

def lpuartOverruns : List Byte → FlexcommState → Bool
  | [], _ => false
  | ch :: rest, s => !(lpuartRxPush s ch).2 || lpuartOverruns rest (lpuartRxOne s ch)

variable {s : FlexcommState}

lemma rxOne_count (hroom : s.rxCount < lpuartRxDepth s) (ch : Byte) :
    (lpuartRxPush s ch).2 ∧ (lpuartRxOne s ch).rxCount = s.rxCount + 1 := by
  have hpush : (lpuartRxPush s ch).2 := by simp [lpuartRxPush, Nat.not_le.mpr hroom]
  refine ⟨hpush, ?_⟩
  rw [lpuartRxOne, if_pos hpush, lpuartRxPush, if_neg (Nat.not_le.mpr hroom)]

variable {buf : List Byte}

lemma rxAll_fits (h : s.rxCount + buf.length ≤ lpuartRxDepth s) :
    lpuartOverruns buf s = false ∧ (lpuartRxAll buf s).rxCount = s.rxCount + buf.length ∧
      (lpuartRxAll buf s).fifo = s.fifo ∧ (lpuartRxAll buf s).pselid = s.pselid := by
  induction buf generalizing s with
  | nil => exact ⟨rfl, rfl, rfl, rfl⟩
  | cons ch rest ih =>
    rw [List.length_cons] at h
    obtain ⟨hpush, hcount⟩ := rxOne_count (s := s) (by omega) ch
    have hregs : (lpuartRxOne s ch).fifo = s.fifo ∧ (lpuartRxOne s ch).pselid = s.pselid := by
      rw [lpuartRxOne, if_pos hpush]
      unfold lpuartRxPush
      split <;> exact ⟨rfl, rfl⟩
    obtain ⟨hover, hall, hfifo, hpselid⟩ := ih (s := lpuartRxOne s ch) (by
      rw [rxOne_depth, hcount]
      omega)
    refine ⟨?_, ?_, hfifo.trans hregs.1, hpselid.trans hregs.2⟩
    · rw [lpuartOverruns, hpush, hover]
      rfl
    · rw [rxAll_cons, hall, hcount, List.length_cons]
      omega

lemma canRx_eq (h : s.rxCount ≤ lpuartRxDepth s) : mcxnLpuartCanRx s =
      if anyBit s.ctrl ctrlRe then ((lpuartRxDepth s - s.rxCount : ℕ) : ℤ) else 0 := by
  have hdepth := rxDepth_le s
  unfold mcxnLpuartCanRx
  split
  · have hsub : (BitVec.ofNat 32 (lpuartRxDepth s) - BitVec.ofNat 32 s.rxCount) =
        BitVec.ofNat 32 (lpuartRxDepth s - s.rxCount) := by
      apply eq_of_toNat_eq
      rw [toNat_sub, toNat_ofNat, toNat_ofNat, toNat_ofNat]
      omega
    rw [hsub, toInt_eq_toNat_cond, toNat_ofNat]
    split <;> omega
  · rfl

/-- What the backend knows, and what has gone wrong.  `standing` says that nothing has
taken room away since `can_rx` returned `last`; `accepted` that the access under way
called `accept_input`. -/
structure FlowLog where
  last : ℤ
  (standing accepted overran : Bool)

def FlowLog.start : FlowLog := ⟨0, true, false, false⟩

variable (s : FlexcommState)

def shrinks (value : Word) : Option LpuartReg → Bool
  | some .fifo => anyBit s.fifo fifoRxfe && !anyBit value fifoRxfe
  | some .global => anyBit s.fifo fifoRxfe && anyBit value globalRst
  | _ => false

def flowObserver : Observer FlowLog where
  read _ _ w := { w with accepted := false }
  write s r value w := { w with accepted := false, standing := w.standing && !shrinks s value r }
  chunk s buf w := { w with standing := false, overran := w.overran || lpuartOverruns buf s }
  accept _ w := { w with accepted := true }
  query s w := { w with last := mcxnLpuartCanRx s, standing := true }

def Asked (w : FlowLog) (buf : List Byte) : Prop :=
  (w.standing = true ∧ (buf.length : ℤ) ≤ w.last) ∨ (buf.length : ℤ) ≤ mcxnLpuartCanRx s

def KeepsDepth : UartEvent → Prop
  | .write offset value =>
    ofOffset offset = some .fifo → anyBit value fifoRxflush = false →
      anyBit value fifoRxfe = false → s.rxCount ≤ 1
  | .read _ | .chunk _ | .query => True

def NotSilent : UartEvent → Prop
  | .write offset value =>
    (ofOffset offset = some .fifo → anyBit value fifoRxflush = false →
      anyBit value fifoRxfe = true → anyBit s.fifo fifoRxfe = false →
      anyBit s.ctrl ctrlRe = true → s.rxCount ≠ 1) ∧
    (ofOffset offset = some .ctrl → anyBit value ctrlRe = true →
      anyBit s.ctrl ctrlRe = false → s.rxCount = lpuartRxDepth s)
  | .read _ | .chunk _ | .query => True

structure Flows (s : FlexcommState) (w : FlowLog) : Prop where
  mode : s.persel = .lpuart
  fits : s.rxCount ≤ lpuartRxDepth s
  answer : w.standing = true → w.last ≤ lpuartRxDepth s - s.rxCount
  never : w.overran = false

variable {s' : FlexcommState} {w : FlowLog}

lemma Flows.view {s : FlexcommState} (hsame : SameReceiver s s') (h : Flows s w) : Flows s' w := by
  have hdepth : lpuartRxDepth s' = lpuartRxDepth s := by
    rw [lpuartRxDepth, hsame.fifo]
    rfl
  constructor
  · rw [persel, hsame.pselid]
    exact h.mode
  · rw [hdepth, hsame.rxCount]
    exact h.fits
  · rw [hdepth, hsame.rxCount]
    exact h.answer
  · exact h.never

lemma Flows.chunk {s : FlexcommState} (hasked : Asked s w buf) (h : Flows s w) :
    Flows (lpuartRxAll buf s) (flowObserver.chunk s buf w) := by
  have hfits := h.fits
  have hbuf : s.rxCount + buf.length ≤ lpuartRxDepth s := by
    obtain ⟨hstanding, hlast⟩ | hnow := hasked
    · have hanswer := h.answer hstanding
      omega
    · rw [canRx_eq hfits] at hnow
      split at hnow <;> omega
  obtain ⟨hover, hcount, hfifo, hpselid⟩ := rxAll_fits hbuf
  have hdepth : lpuartRxDepth (lpuartRxAll buf s) = lpuartRxDepth s := by
    rw [lpuartRxDepth, hfifo]
    rfl
  refine ⟨?_, ?_, nofun, ?_⟩
  · rw [persel, hpselid]
    exact h.mode
  · rw [hdepth, hcount]
    exact hbuf
  change (w.overran || lpuartOverruns buf s) = false
  rw [h.never, hover]
  rfl

lemma depth_txflush :
    lpuartRxDepth { s with fifo := s.fifo &&& ~~~fifoTxflush } = lpuartRxDepth s := by
  have hbit : anyBit (s.fifo &&& ~~~fifoTxflush) fifoRxfe = anyBit s.fifo fifoRxfe :=
    anyBit_clear_of_disjoint (by decide) s.fifo
  simp only [lpuartRxDepth, hbit]

lemma flows_invariant : ReceiverInvariant flowObserver Asked Flows where
  view _ _ _ hsame h := h.view hsame
  txflush s w h := by
    refine ⟨h.mode, ?_, ?_, h.never⟩
    · rw [depth_txflush]
      exact h.fits
    · rw [depth_txflush]
      exact h.answer
  accept _ _ h := ⟨h.mode, h.fits, h.answer, h.never⟩
  chunk _ _ _ hasked h := h.chunk hasked

variable (value : Word)

lemma rxfe_sizes : anyBit (value &&& ~~~lpuartFifoSizesMask) fifoRxfe = anyBit value fifoRxfe :=
  anyBit_clear_of_disjoint (by decide) value

lemma rxfe_rxflush : anyBit (value &&& ~~~fifoRxflush) fifoRxfe = anyBit value fifoRxfe :=
  anyBit_clear_of_disjoint (by decide) value

lemma depth_fifo : lpuartRxDepth (receiverWrite s value (some .fifo)) =
      if anyBit value fifoRxfe then lpuartFifoDepth else 1 := by
  unfold receiverWrite lpuartRxDepth
  dsimp only
  split
  · simp only [rxfe_rxflush, rxfe_sizes]
  · simp only [rxfe_sizes]

lemma depth_fifo_zero (h : s.fifo = 0) : lpuartRxDepth s = 1 := by
  rw [lpuartRxDepth, h]
  rfl

lemma Flows.pop {s : FlexcommState} (h : Flows s w) (hsome : s.rxCount ≠ 0) :
    Flows (lpuartRxPop s).1 (flowObserver.read s (some .data) w) := by
  have hfits := h.fits
  rw [lpuartRxPop, if_neg hsome]
  refine ⟨h.mode, ?_, ?_, h.never⟩
  · change s.rxCount - 1 ≤ lpuartRxDepth s
    omega
  intro hstanding
  have hanswer := h.answer hstanding
  change w.last ≤ lpuartRxDepth s - (s.rxCount - 1 : ℕ)
  omega

variable {value : Word}

lemma Flows.writeFifo {s : FlexcommState} (h : Flows s w)
    (hclear : anyBit value fifoRxflush = false → anyBit value fifoRxfe = false → s.rxCount ≤ 1) :
    Flows (receiverWrite s value (some .fifo)) (flowObserver.write s (some .fifo) value w) := by
  have hfits := h.fits
  have hdepth := depth_fifo s value
  have hcount : (receiverWrite s value (some .fifo)).rxCount ≤ s.rxCount ∧
      (anyBit value fifoRxflush → (receiverWrite s value (some .fifo)).rxCount = 0) := by
    unfold receiverWrite
    dsimp only
    split
    · exact ⟨Nat.zero_le _, fun _ => rfl⟩
    next hplain => exact ⟨le_rfl, fun hflush => absurd hflush hplain⟩
  have hmode : (receiverWrite s value (some .fifo)).persel = .lpuart := by
    unfold receiverWrite
    dsimp only
    split <;> exact h.mode
  have hbefore : lpuartRxDepth s = if anyBit s.fifo fifoRxfe then lpuartFifoDepth else 1 := rfl
  have height := rxDepth_le s
  refine ⟨hmode, ?_, ?_, h.never⟩
  · cases hrxfe : anyBit value fifoRxfe with
    | true =>
      rw [hdepth, hrxfe, if_pos rfl]
      change _ ≤ 8
      omega
    | false =>
      rw [hdepth, hrxfe, if_neg (by simp)]
      cases hflush : anyBit value fifoRxflush with
      | true => rw [hcount.2 hflush]; exact Nat.zero_le 1
      | false => exact hcount.1.trans (hclear hflush hrxfe)
  intro hstanding
  obtain ⟨hold, hkept⟩ := Bool.and_eq_true_iff.mp hstanding
  have hanswer := h.answer hold
  -- the depth has not shrunk
  have hgrown : lpuartRxDepth s ≤ lpuartRxDepth (receiverWrite s value (some .fifo)) := by
    rw [hdepth, hbefore]
    cases hrxfe : anyBit value fifoRxfe <;> cases hwas : anyBit s.fifo fifoRxfe
    · exact le_rfl
    · simp [shrinks, hrxfe, hwas] at hkept
    · decide
    · exact le_rfl
  change w.last ≤ _
  omega

variable {offset : ℕ}

lemma Flows.write {s : FlexcommState} (h : Flows s w)
    (hkeeps : KeepsDepth s (.write offset value)) :
    Flows (receiverWrite s value (ofOffset offset))
      (flowObserver.write s (ofOffset offset) value w) := by
  change ofOffset offset = some .fifo → _ at hkeeps
  generalize ofOffset offset = r at hkeeps ⊢
  have hstanding : ∀ b, (w.standing && b) → w.last ≤ lpuartRxDepth s - s.rxCount :=
    fun b hb => h.answer (Bool.and_eq_true_iff.mp hb).1
  rcases r with _ | r
  · exact ⟨h.mode, h.fits, hstanding _, h.never⟩
  cases r with
  | fifo => exact h.writeFifo (hkeeps rfl)
  | global =>
    unfold receiverWrite
    dsimp only
    split
    next hreset =>
      refine ⟨h.mode, Nat.zero_le _, ?_, h.never⟩
      intro hstill
      obtain ⟨hold, hkept⟩ := Bool.and_eq_true_iff.mp hstill
      have hanswer := h.answer hold
      have hshallow : anyBit s.fifo fifoRxfe = false := by
        cases hwas : anyBit s.fifo fifoRxfe with
        | false => rfl
        | true => simp [shrinks, hwas, hreset] at hkept
      have hone : lpuartRxDepth s = 1 := by rw [lpuartRxDepth, hshallow, if_neg (by simp)]
      rw [depth_fifo_zero _ rfl]
      change w.last ≤ ((1 : ℕ) : ℤ) - (0 : ℕ)
      omega
    · exact ⟨h.mode, h.fits, hstanding _, h.never⟩
  | _ => exact ⟨h.mode, h.fits, hstanding _, h.never⟩

variable {π : Type} {p : Peers π}

def FlowKept (p : Peers π) (u : Device π × FlowLog) (e : UartEvent) : Prop :=
  KeepsDepth u.1.st e ∧ ChunksAdmitted p flowObserver Asked u e

variable {u : Device π × FlowLog} {e : UartEvent}

lemma watch_flows (hkept : FlowKept p u e) (h : Flows u.1.st u.2) :
    Flows (watch p flowObserver u e).1.st (watch p flowObserver u e).2 := by
  apply flows_invariant.watch hkept.2
  case hpop => exact fun _ _ _ hsome => h.pop hsome
  case hread => exact fun _ _ _ => ⟨h.mode, h.fits, h.answer, h.never⟩
  case hwrite =>
    rintro offset value rfl
    exact h.write hkept.1
  case hquery =>
    intro _
    refine ⟨h.mode, h.fits, fun _ => ?_, h.never⟩
    have hfits := h.fits
    change mcxnLpuartCanRx u.1.st ≤ _
    rw [canRx_eq hfits]
    split <;> omega
  case hu => exact h

lemma watchAccept_accepted (u : Device π × FlowLog) :
    (watchAccept p flowObserver u).2.accepted := by
  have hstep : ∀ (v : Device π × FlowLog) (buf : List Byte), v.2.accepted →
      (watchChunk p flowObserver v buf).2.accepted := fun _ _ hv => hv
  exact run_invariant (P := fun v : Device π × FlowLog => v.2.accepted = true) hstep rfl _

lemma canRx_view {s : FlexcommState} (hsame : SameReceiver s s') :
    mcxnLpuartCanRx s' = mcxnLpuartCanRx s := by
  unfold mcxnLpuartCanRx lpuartRxDepth
  rw [hsame.ctrl, hsame.fifo, hsame.rxCount]

lemma canRx_write {s : FlexcommState} (h : Flows s w) (hkeeps : KeepsDepth s (.write offset value))
    (hloud : NotSilent s (.write offset value))
    (hflush : ofOffset offset = some .fifo → anyBit value fifoRxflush = false)
    (hnone : mcxnLpuartCanRx s = 0) :
    mcxnLpuartCanRx (receiverWrite s value (ofOffset offset)) ≤ 0 := by
  have hflows := h.write hkeeps
  obtain ⟨hset, hctrl⟩ := hloud
  change ofOffset offset = some .fifo → _ at hkeeps
  rw [canRx_eq hflows.fits]
  rw [canRx_eq h.fits] at hnone
  have hfits := h.fits
  generalize ofOffset offset = r at hkeeps hset hctrl hflush ⊢
  rcases r with _ | r
  · exact hnone.le
  cases r with
  | ctrl =>
    change (if anyBit value ctrlRe then
      ((lpuartRxDepth s - s.rxCount : ℕ) : ℤ) else 0) ≤ 0
    split
    next hre =>
      cases hwas : anyBit s.ctrl ctrlRe with
      | true =>
        rw [hwas, if_pos rfl] at hnone
        exact hnone.le
      | false =>
        have hfull := hctrl rfl hre hwas
        omega
    · exact le_rfl
  | fifo =>
    have hplain : anyBit value fifoRxflush ≠ true := by
      rw [hflush rfl]
      exact Bool.false_ne_true
    have hsame : (receiverWrite s value (some .fifo)).ctrl = s.ctrl ∧
        (receiverWrite s value (some .fifo)).rxCount = s.rxCount := by
      unfold receiverWrite
      rw [if_neg hplain]
      exact ⟨rfl, rfl⟩
    rw [hsame.1, hsame.2, depth_fifo]
    cases hre : anyBit s.ctrl ctrlRe with
    | false => exact le_rfl
    | true =>
      rw [hre, if_pos rfl] at hnone
      have hdepth : lpuartRxDepth s =
        if anyBit s.fifo fifoRxfe then lpuartFifoDepth else 1 := rfl
      cases hrxfe : anyBit value fifoRxfe with
      | false =>
        rw [if_pos rfl, if_neg (by simp)]
        split at hdepth
        · change lpuartRxDepth s = 8 at hdepth
          omega
        · omega
      | true =>
        rw [if_pos rfl, if_pos rfl]
        cases hwas : anyBit s.fifo fifoRxfe with
        | true =>
          rw [hwas, if_pos rfl] at hdepth
          omega
        | false =>
          have hne := hset rfl (hflush rfl) hrxfe hwas hre
          rw [hwas, if_neg (by simp)] at hdepth
          omega
  | global =>
    unfold receiverWrite
    dsimp only
    split
    · simp
    · exact hnone.le
  | _ => exact hnone.le

def UartEvent.IsAccess : UartEvent → Prop
  | .read _ | .write _ _ => True
  | .chunk _ | .query => False

lemma watch_announces (haccess : e.IsAccess)
    (hkept : FlowKept p u e) (hloud : NotSilent u.1.st e) (h : Flows u.1.st u.2)
    (hnone : mcxnLpuartCanRx u.1.st = 0)
    (hroom : 0 < mcxnLpuartCanRx (watch p flowObserver u e).1.st) :
    (watch p flowObserver u e).2.accepted = true := by
  cases e with
  | chunk buf | query => exact haccess.elim
  | read offset =>
    unfold watch watchRead at hroom ⊢
    dsimp only at hroom ⊢
    split at hroom
    next hdata =>
      rw [if_pos hdata]
      exact watchAccept_accepted _
    · change 0 < mcxnLpuartCanRx u.1.st at hroom
      omega
  | write offset value =>
    unfold watch watchWrite at hroom ⊢
    dsimp only at hroom ⊢
    split at hroom
    next hflush =>
      rw [if_pos hflush]
      exact watchAccept_accepted _
    rename_i hplain
    exfalso
    have hnoflush : ofOffset offset = some .fifo → anyBit value fifoRxflush = false := fun hfifo =>
      Bool.eq_false_of_not_eq_true fun hyes => hplain ⟨hfifo, hyes⟩
    have hle := canRx_write h hkept.1 hloud hnoflush hnone
    by_cases hfifo : ofOffset offset = some .fifo
    · have hflush : anyBit value fifoRxflush ≠ true := by
        rw [hnoflush hfifo]
        exact Bool.false_ne_true
      rw [hfifo, lpuartWrite, writeFifo_plain p u.1 hflush, fifoWritten,
        canRx_view (updateIrq_sameReceiver p _)] at hroom
      rw [hfifo] at hle
      have htx : mcxnLpuartCanRx
          ((u.1.modify fun s => receiverWrite s value (some .fifo)).modify fun s =>
            { s with fifo := s.fifo &&& ~~~fifoTxflush }).st =
          mcxnLpuartCanRx (receiverWrite u.1.st value (some .fifo)) := by
        unfold mcxnLpuartCanRx Device.modify
        rw [depth_txflush]
      omega
    · rw [canRx_view (write_receiver p u.1 value hfifo)] at hroom
      omega

/-- Flow control in every run that keeps it: `can_rx` stays within the FIFO and the
overrun branch is never taken; and an access that makes room announces it, unless it is
one of the silent stores. -/
theorem lpuart_flow_control {x : Device π} (hmode : x.st.persel = .lpuart)
    (hfits : x.st.rxCount ≤ lpuartRxDepth x.st) {events : List UartEvent}
    (hevents : ∀ e ∈ events, e.OnLpuart)
    (hadmits : Admits (watch p flowObserver) (FlowKept p) (x, .start) events)
    {u : Device π × FlowLog}
    (hu : u = run (watch p flowObserver) (x, .start) events) :
    u.1 = run (uartNext p) x events ∧ (0 ≤ mcxnLpuartCanRx u.1.st ∧ mcxnLpuartCanRx u.1.st ≤ 8) ∧
      u.2.overran = false ∧
      ∀ e : UartEvent, e.IsAccess → e.OnLpuart → FlowKept p u e →
        NotSilent u.1.st e → mcxnLpuartCanRx u.1.st = 0 →
          0 < mcxnLpuartCanRx (uartNext p u.1 e).st →
        (watch p flowObserver u e).2.accepted = true := by
  have hstart : Flows x.st .start := by
    refine ⟨hmode, hfits, fun _ => ?_, rfl⟩
    change (0 : ℤ) ≤ _
    omega
  have hflows : Flows u.1.st u.2 := by
    rw [hu]
    exact run_invariant_of_admits (P := fun u : Device π × FlowLog => Flows u.1.st u.2)
      (fun _ _ hkept h => watch_flows hkept h) hstart hadmits
  have hfst : u.1 = run (uartNext p) x events := by
    rw [hu]
    exact run_watch_fst (u := (x, .start)) (I := Flows) (fun _ _ h => h.mode)
      (fun _ _ hkept h => watch_flows hkept h) hstart hevents hadmits
  have hdepth := rxDepth_le u.1.st
  refine ⟨hfst, ?_, hflows.never, ?_⟩
  · rw [canRx_eq hflows.fits]
    split <;> omega
  intro e haccess hlpuart hkept hloud hnone hroom
  rw [← watch_fst p flowObserver hflows.mode hlpuart] at hroom
  exact watch_announces haccess hkept hloud hflows hnone hroom

def askAndDeliver : List UartEvent :=
  [.write 0x18 ctrlRe, .write 0x28 fifoRxfe, .query, .chunk [0x41, 0x42], .read 0x1C]

theorem lpuart_flow_control_askAndDeliver :
    mcxnLpuartCanRx (run (watch idlePeers.alone flowObserver)
        (powerOn (), .start) askAndDeliver).1.st ≤ 8 ∧
      (run (watch idlePeers.alone flowObserver) (powerOn (), .start)
        askAndDeliver).2.overran = false := by
  have hevents : ∀ e ∈ askAndDeliver, e.OnLpuart := by decide
  have hctrl : KeepsDepth (powerOn ()).st (.write 0x18 ctrlRe) := fun h => absurd h (by decide)
  have hadmits : Admits (watch idlePeers.alone flowObserver) (FlowKept idlePeers.alone)
      (powerOn (), .start) askAndDeliver :=
    ⟨⟨hctrl, fun h => absurd h (by decide)⟩,
      ⟨fun _ _ h => absurd h (by decide), fun _ h => absurd h (by decide)⟩,
      ⟨trivial, trivial⟩, ⟨trivial, .inl ⟨rfl, by decide +kernel⟩⟩,
      ⟨trivial, fun _ _ => trivial⟩, trivial⟩
  obtain ⟨-, hrange, hnever, -⟩ := lpuart_flow_control
    (reset_persel _) (by decide) hevents hadmits rfl
  exact ⟨hrange.2, hnever⟩

theorem can_rx_negative_and_enable_silent :
    mcxnLpuartCanRx (run (uartNext idlePeers.alone) (powerOn ())
      [.write 0x18 ctrlRe, .write 0x28 fifoRxfe, .query,
        .chunk [0x41, 0x42, 0x43, 0x44, 0x45], .write 0x28 0]).st = -4 ∧
    (mcxnLpuartCanRx (powerOn ()).st = 0 ∧
      mcxnLpuartCanRx (uartNext idlePeers.alone (powerOn ()) (.write 0x18 ctrlRe)).st = 1 ∧
      (watch idlePeers.alone flowObserver (powerOn (), .start)
        (.write 0x18 ctrlRe)).2.accepted = false) := by
  refine ⟨?_, ?_, ?_, ?_⟩ <;> decide +kernel

end Mcxn947.Flexcomm
