import Mcxn947.EventRuns
import Mcxn947.SctModel

/-!
# The rate of the SCTimer's match event

The event is re-armed from its own deadline, so its deadlines lie a period apart.
-/

namespace Mcxn947.Sct

open MachineWords EventRuns List BitVec Function Int SctState

inductive Event
  | read (off size : ℕ)
  | write (now off size : ℕ) (v : Word)
  | inputs (val : Byte)
  | tick

def step (s : SctState) : Event → SctState
  | .read _ _ => s
  | .write now off size v => mcxnSctWrite s now off size v
  | .inputs val => mcxnSctSetInputs s val
  | .tick => mcxnSctEventTick s

def Event.ticks : Event → ℕ
  | .tick => 1
  | _ => 0

def ticksIn (events : List Event) : ℕ := (events.map Event.ticks).sum

def Event.Spares : Event → Prop
  | .write _ off size _ => (off + size ≤ sctCtrl ∨ sctCtrl + 4 ≤ off) ∧
      (off + size ≤ sctMatchrel0 ∨ sctMatchrel0 + 4 ≤ off)
  | _ => True

def clocks (matchrel0 ctrl : Word) : ℕ :=
  (matchrel0.toNat + 1) * (((ctrl >>> 5) &&& 0xFF).toNat + 1)

variable {product off offset size : ℕ} {v : Word}

structure Counting (t₀ period k : ℕ) (s : SctState) : Prop where
  timer : s.eventTimer = some (t₀ + (k + 1) * period)
  next : s.nextEventNs = t₀ + (k + 1) * period
  hz : s.hz ≠ 0
  period : mcxnSctPeriodNs s = period

variable {t₀ period k : ℕ} {s : SctState}

lemma Counting.congr {s' : SctState} (h : Counting t₀ period k s)
    (htimer : s'.eventTimer = s.eventTimer) (hnext : s'.nextEventNs = s.nextEventNs)
    (hhz : s'.hz = s.hz) (hmatch : s'.ld32 sctMatchrel0 = s.ld32 sctMatchrel0)
    (hctrl : s'.ld32 sctCtrl = s.ld32 sctCtrl) : Counting t₀ period k s' where
  timer := htimer.trans h.timer
  next := hnext.trans h.next
  hz := hhz ▸ h.hz
  period := (periodNs_congr hmatch hctrl hhz).trans h.period

lemma Counting.st32 (h : Counting t₀ period k s) (v : Word)
    (hoff : sctCtrl + 4 ≤ off ∧ off + 4 ≤ sctMatchrel0) : Counting t₀ period k (s.st32 off v) :=
  h.congr rfl rfl rfl (ld32_st32 (.inr hoff.2) s v) (ld32_st32 (.inl hoff.1) s v)

lemma Counting.updateIrq (h : Counting t₀ period k s) : Counting t₀ period k (mcxnSctUpdateIrq s) :=
  h.congr rfl rfl rfl rfl rfl

lemma storeBytes_regs (s : SctState) {a : ℕ} (v : Word)
    (h : a < offset ∨ offset + size ≤ a) : (sctStoreBytes s offset size v).regs a = s.regs a := by
  unfold sctStoreBytes
  induction size with
  | zero => rfl
  | succ n ih =>
    rw [range_succ, foldl_append, foldl_cons, foldl_nil]
    split
    · exact (update_of_ne (by omega) _ _).trans (ih (by omega))
    · exact ih (by omega)

lemma storeBytes_eq (s : SctState) (offset size : ℕ) (v : Word) :
    sctStoreBytes s offset size v = { s with regs := (sctStoreBytes s offset size v).regs } := by
  refine List.foldlRecOn (motive := fun t : SctState => t = { s with regs := t.regs }) _ _ rfl ?_
  intro t ht i _
  split
  · rw [setByte, ht]
  · exact ht

lemma storeBytes_ld32 (s : SctState) (v : Word) (h : offset + size ≤ off ∨ off + 4 ≤ offset) :
    (sctStoreBytes s offset size v).ld32 off = s.ld32 off := by
  have hbyte : ∀ i < 4, (sctStoreBytes s offset size v).regs (off + i) = s.regs (off + i) :=
    fun i hi => storeBytes_regs s v (by omega)
  rw [ld32, ld32, hbyte 3 (by decide), hbyte 2 (by decide), hbyte 1 (by decide)]
  exact congrArg _ (hbyte 0 (by decide))

lemma Counting.write (h : Counting t₀ period k s) {now : ℕ}
    (hspares : Event.Spares (.write now off size v)) :
    Counting t₀ period k (mcxnSctWrite s now off size v) := by
  obtain ⟨hctrl, hmatch⟩ := hspares
  unfold mcxnSctWrite
  split
  next hown => omega
  split
  next hflag =>
    have hset : Counting t₀ period k (s.st32 off (s.ld32 off &&& ~~~v)) := by
      refine h.st32 _ ?_
      rcases hflag.2 with rfl | rfl <;> decide
    split
    · exact hset.updateIrq
    · exact hset
  have hsame := storeBytes_eq s off size v
  have hstore : Counting t₀ period k (sctStoreBytes s off size v) :=
    h.congr (by rw [hsame]) (by rw [hsame]) (by rw [hsame]) (storeBytes_ld32 s v hmatch)
      (storeBytes_ld32 s v hctrl)
  split
  · exact hstore.updateIrq
  · exact hstore

lemma Counting.next_event {e : Event} (hspares : e.Spares) (h : Counting t₀ period k s) :
    Counting t₀ period (k + e.ticks) (step s e) := by
  cases e with
  | read off size => exact h
  | write now off size v => exact h.write hspares
  | inputs val =>
    have hlevel : Counting t₀ period k { s with inLevel := val } := h.congr rfl rfl rfl rfl rfl
    have hinput : Counting t₀ period k
        (SctState.st32 { s with inLevel := val } sctInput (val.setWidth 32)) :=
      hlevel.st32 _ (by decide)
    show Counting t₀ period k (mcxnSctSetInputs s val)
    unfold mcxnSctSetInputs mcxnSctEvalInputs
    dsimp only
    split
    · exact hinput
    · exact (hinput.st32 _ (by decide)).updateIrq
  | tick =>
    obtain ⟨htimer, hnext, hsame⟩ := eventTick_armed h.hz
    have hsum : s.nextEventNs + mcxnSctPeriodNs s = t₀ + (k + 1 + 1) * period := by
      rw [h.next, h.period]
      ring
    refine ⟨htimer.trans (congrArg some hsum), hnext.trans hsum, ?_, hsame.trans h.period⟩
    show (mcxnSctEventTick s).hz ≠ 0
    rw [eventTick_hz]
    exact h.hz

lemma Counting.run {events : List Event} (hspares : ∀ e ∈ events, e.Spares)
    (h : Counting t₀ period k s) : Counting t₀ period (k + ticksIn events) (run step s events) := by
  induction events generalizing s k with
  | nil => exact h
  | cons e rest ih =>
    have hrest := ih (fun e' he' => hspares e' (mem_cons_of_mem _ he'))
      (h.next_event (hspares e mem_cons_self))
    rw [run_cons, ticksIn, map_cons, sum_cons, ← Nat.add_assoc]
    exact hrest

def loaded (matchrel0 hz : Word) : SctState := (realized hz).st32 sctMatchrel0 matchrel0

end Mcxn947.Sct
