import Mcxn947.UsbBridge

/-!
# Exactly one reply to every request

The device keeps one slot per endpoint and direction, so it answers every
request exactly once in the runs that put no second request into a taken slot,
open no new connection over a taken slot, and whose backend completes no control
request from within its `setup`, does not refuse the data stage of one from host to
device, and does not both call back and decide a transfer in one operation.
-/

namespace Mcxn947.Usbdev

open MachineWords EventRuns Function List Mark Option UsbDevState

/-- The requests that wait for a reply are those in the slots of an open connection. -/
structure Matches (dev : UsbDevState) (waiting : List (ℕ × Option Slot)) : Prop where
  ids : (waiting.map Prod.fst).Nodup
  closed : dev.parser = false → waiting = []
  slots : dev.parser = true → ∀ id slot, (id, slot) ∈ waiting ↔
    ∃ σ, slot = some σ ∧ (dev.pending σ).active = true ∧ (dev.pending σ).id = id

lemma matches_nil {dev : UsbDevState}
    (h : ∀ σ, (dev.pending σ).active = false) : Matches dev [] where
  ids := nodup_nil
  closed _ := rfl
  slots _ id slot := by simp [h]

section Matches

variable {dev : UsbDevState} {waiting : List (ℕ × Option Slot)}

lemma Matches.congr {dev' : UsbDevState} (h : Matches dev waiting)
    (hparser : dev'.parser = dev.parser) (hpend : dev'.pending = dev.pending) :
    Matches dev' waiting := by
  constructor
  · exact h.ids
  · rw [hparser]
    exact h.closed
  · rw [hparser, hpend]
    exact h.slots

variable {σ : Slot} {p : UsbPending}

section

variable (h : Matches dev waiting) (hparser : dev.parser = true)
include h hparser

lemma Matches.free (hfree : (dev.pending σ).active = false) (id : ℕ) : (id, some σ) ∉ waiting := by
  rw [h.slots hparser]
  rintro ⟨τ, hτ, hact, -⟩
  cases hτ
  exact absurd hact (by simp [hfree])

lemma Matches.slot_unique {τ : Slot} (hσ : (dev.pending σ).active) (hτ : (dev.pending τ).active)
    (hid : (dev.pending τ).id = (dev.pending σ).id) : τ = σ := by
  have hmemσ := (h.slots hparser _ _).mpr ⟨σ, rfl, hσ, rfl⟩
  have hmemτ := (h.slots hparser _ _).mpr ⟨τ, rfl, hτ, hid⟩
  have hpair := inj_on_of_nodup_map h.ids hmemτ hmemσ rfl
  exact some.inj (Prod.mk.inj hpair).2

lemma Matches.register (hfree : (dev.pending σ).active = false)
    (hfresh : ∀ slot, (p.id, slot) ∉ waiting) (hp : p.active) :
    Matches (dev.setPending σ p) (waiting ++ [(p.id, some σ)]) where
  ids := by
    rw [map_append, nodup_append]
    refine ⟨h.ids, by simp, ?_⟩
    intro id hid id' hid'
    obtain ⟨⟨waitingId, slot⟩, hmem, rfl⟩ := List.mem_map.mp hid
    rw [map_singleton, mem_singleton] at hid'
    intro heq
    have hsame : waitingId = p.id := heq.trans hid'
    exact hfresh slot (hsame ▸ hmem)
  closed hclosed := absurd (hparser.symm.trans hclosed) (by decide)
  slots _ id slot := by
    rw [mem_append, mem_singleton, Prod.mk.injEq, h.slots hparser]
    constructor
    · rintro (⟨τ, rfl, hact, hid⟩ | ⟨rfl, rfl⟩)
      · have hne : τ ≠ σ := by
          rintro rfl
          exact absurd hact (by simp [hfree])
        exact ⟨τ, rfl, by simpa [setPending, hne] using ⟨hact, hid⟩⟩
      · exact ⟨σ, rfl, by simpa [setPending] using hp⟩
    rintro ⟨τ, rfl, hact, hid⟩
    by_cases hτ : τ = σ
    · subst hτ
      simp only [setPending, update_self] at hid
      exact Or.inr ⟨hid.symm, rfl⟩
    · simp only [setPending, update_of_ne hτ] at hact hid
      exact Or.inl ⟨τ, rfl, hact, hid⟩

lemma Matches.release (hact : (dev.pending σ).active) (hp : p.active = false) :
    Matches (dev.setPending σ p) (waiting.filter (·.1 ≠ (dev.pending σ).id)) where
  ids := h.ids.sublist (List.filter_sublist.map _)
  closed hclosed := absurd (hparser.symm.trans hclosed) (by decide)
  slots _ id slot := by
    rw [mem_filter, h.slots hparser]
    constructor
    · rintro ⟨⟨τ, rfl, hτ, rfl⟩, hne⟩
      have hτσ : τ ≠ σ := by
        rintro rfl
        simp at hne
      exact ⟨τ, rfl, by simpa [setPending, hτσ] using hτ⟩
    rintro ⟨τ, rfl, hτ, hid⟩
    by_cases hτσ : τ = σ
    · subst hτσ
      simp [setPending, hp] at hτ
    simp only [setPending, update_of_ne hτσ] at hτ hid
    refine ⟨⟨τ, rfl, hτ, hid⟩, ?_⟩
    have hne : id ≠ (dev.pending σ).id := fun heq =>
      hτσ (h.slot_unique hparser hact hτ (hid.trans heq))
    simpa using hne

end

lemma Matches.idle (h : Matches dev waiting)
    (hfree : (dev.pending σ).active = false) (hp : p.active = false) :
    Matches (dev.setPending σ p) waiting where
  ids := h.ids
  closed := h.closed
  slots hparser id slot := by
    rw [h.slots hparser]
    apply exists_congr
    intro τ
    by_cases hτ : τ = σ
    · subst hτ
      simp [setPending, hfree, hp]
    · simp [setPending, hτ]

lemma Matches.cancel (h : Matches dev waiting) (hparser : dev.parser) (id : ℕ) :
    Matches (usbdevCancelDataPacket dev id) (waiting.filter (·.1 ≠ id)) where
  ids := h.ids.sublist (List.filter_sublist.map _)
  closed hclosed := absurd (hparser.symm.trans hclosed) (by decide)
  slots _ id' slot := by
    rw [mem_filter, h.slots hparser]
    constructor
    · rintro ⟨⟨τ, rfl, hτ, rfl⟩, hne⟩
      have hkept : (dev.pending τ).id ≠ id := by simpa using hne
      exact ⟨τ, rfl, by simpa [usbdevCancelDataPacket, hkept] using hτ⟩
    rintro ⟨τ, rfl, hτ, hid⟩
    by_cases hhit : ((dev.pending τ).active && (dev.pending τ).id == id) = true
    · simp only [usbdevCancelDataPacket, if_pos hhit] at hτ
      cases hτ
    simp only [usbdevCancelDataPacket, if_neg hhit] at hτ hid
    refine ⟨⟨τ, rfl, hτ, hid⟩, ?_⟩
    simp only [hτ, Bool.true_and, beq_iff_eq] at hhit
    have hne : id' ≠ id := hid ▸ hhit
    simpa using hne

end Matches

def HostMessage.requestId : HostMessage → Option ℕ
  | .setConfiguration id _ | .setAltSetting id _ _ | .getConfiguration id
  | .getAltSetting id _ | .interruptReceiving id _ | .control id _ _
  | .bulk id _ _ _ _ => some id
  | .hello | .busReset | .cancel _ => none

def HostMessage.requestSlot : HostMessage → Option Slot
  | .setConfiguration _ _ | .setAltSetting _ _ _ => some 0
  | .control _ q _ => some q.slot
  | .bulk _ endpoint _ _ _ => some (usbdevSlot endpoint)
  | _ => none

variable {β γ : Type*}

/-- The host gives a request an id that no waiting request has. -/
def DistinctIds (x : Bridge β) : BridgeEvent γ → Prop
  | .message m => ∀ id ∈ m.requestId, ∀ slot, (id, slot) ∉ outstanding x.history
  | _ => True

/-- A call that neither completes a transfer in `slot` nor drops the requests. -/
def BackendCall.Spares (slot : Slot) : BackendCall → Prop
  | .attach _ => True
  | .detach => False
  | .completeIn ep _ => inSlot ep ≠ slot
  | .completeOut ep _ _ => outSlot ep ≠ slot

/-- The backend answers later, or at once and then without a call of its own. -/
def Reaction.Prompt (r : Reaction β) : Prop := r.rc = .async ∨ r.calls = []

def BackendKeeps (b : Backend β) (x : Bridge β) : HostMessage → Prop
  | .control _ q data =>
    let r := b.setup x.be q.setup
    (∀ call ∈ r.calls, call.Spares q.slot) ∧
      if anyBit q.requesttype 0x80 then (b.epIn r.be 0 q.length.toNat).Prompt
      else data ≠ [] → (b.epOut r.be 0 data).rc ≠ .stall
  | .bulk _ endpoint length lengthHigh data =>
    (x.bulkReaction b endpoint (bulkLength length.toNat lengthHigh.toNat) data).Prompt
  | _ => True

/-- The condition on an event: no taken slot is used again, and the backend keeps to what a
single slot can follow. -/
def Uncrowded (b : Backend β) (x : Bridge β) : BridgeEvent γ → Prop
  | .opened => ∀ σ, (x.dev.pending σ).active = false
  | .message m =>
    (∀ σ ∈ m.requestSlot, (x.dev.pending σ).active = false) ∧ BackendKeeps b x m
  | _ => True

def Keeps (waiting : List (ℕ × Option Slot)) (r : UsbDevState × List Mark) : Prop :=
  GoodFrom waiting r.2 ∧ Matches r.1 (r.2.foldl settle waiting)

section Marks

variable {dev dev' : UsbDevState} {waiting : List (ℕ × Option Slot)} {σ : Slot} {id : ℕ}
  {p : UsbPending} {call : BackendCall}

lemma keeps_announce (sent : List Sent)
    (h : Matches dev' waiting) (hsent : ∀ s ∈ sent, ∀ id packet, s ≠ .reply id packet) :
    Keeps waiting (dev', sent.map .sent) := by
  induction sent with
  | nil => exact ⟨trivial, h⟩
  | cons s rest ih =>
    have hrest := ih fun s hs => hsent s (mem_cons_of_mem _ hs)
    cases s with
    | reply id packet => exact absurd rfl (hsent _ mem_cons_self id packet)
    | _ => exact ⟨⟨trivial, hrest.1⟩, hrest.2⟩

lemma filter_fresh {slot : Option Slot} (hfresh : ∀ slot, (id, slot) ∉ waiting) :
    (waiting ++ [(id, slot)]).filter (·.1 ≠ id) = waiting := by
  rw [filter_append, List.filter_eq_self.mpr]
  · simp
  rintro ⟨id', slot'⟩ hmem
  have hne : id' ≠ id := by
    rintro rfl
    exact hfresh slot' hmem
  simpa using hne

lemma keeps_answered (slot : Option Slot) (packet : Packet) (h : Matches dev' waiting)
    (hfresh : ∀ slot, (id, slot) ∉ waiting) :
    Keeps waiting (dev', [.request id slot, .sent (.reply id packet)]) := by
  refine ⟨⟨trivial, ⟨slot, by simp [settle]⟩, trivial⟩, ?_⟩
  simp only [foldl_cons, foldl_nil, settle]
  rw [filter_fresh hfresh]
  exact h

lemma keeps_unanswered (h : Matches dev waiting)
    (hidle : (!(dev.pending σ).active || !dev.parser)) : Keeps waiting (dev, [.completed σ]) := by
  refine ⟨⟨?_, trivial⟩, h⟩
  intro id hid
  exfalso
  cases hparser : dev.parser with
  | false =>
    rw [h.closed hparser] at hid
    cases hid
  | true =>
    have hfree : (dev.pending σ).active = false := by simpa [hparser] using hidle
    exact h.free hparser hfree id hid

variable (packet : Packet)

lemma keeps_completed (h : Matches dev waiting)
    (hbusy : (!(dev.pending σ).active || !dev.parser) = false) (hp : p.active = false) :
    Keeps waiting (dev.setPending σ p,
      [.completed σ, .sent (.reply (dev.pending σ).id packet)]) := by
  simp only [Bool.or_eq_false_iff, Bool.not_eq_false'] at hbusy
  obtain ⟨hact, hparser⟩ := hbusy
  refine ⟨⟨?_, ⟨some σ, ?_⟩, trivial⟩, h.release hparser hact hp⟩
  · intro id hid
    obtain ⟨τ, hτ, -, rfl⟩ := (h.slots hparser _ _).mp hid
    cases hτ
    exact ⟨packet, [], rfl⟩
  · exact (h.slots hparser _ _).mpr ⟨σ, rfl, hact, rfl⟩

lemma keeps_attach (speed : Byte) (h : Matches dev' waiting) : Keeps waiting
    ((mcxnUsbdevAttach dev' speed).1, (mcxnUsbdevAttach dev' speed).2.map .sent) := by
  unfold mcxnUsbdevAttach
  dsimp only
  split <;> exact keeps_announce _ (h.congr rfl rfl) (by simp)

lemma answerCall_keeps (h : Matches dev waiting) (call : BackendCall) :
    Keeps waiting ((answerCall dev call).1, call.marks ++ (answerCall dev call).2.map .sent) := by
  cases call with
  | attach speed => exact keeps_attach speed h
  | detach =>
    have hempty : Matches (mcxnUsbdevDetach dev).1 [] := matches_nil fun _ => rfl
    have hannounce := keeps_announce (mcxnUsbdevDetach dev).2 hempty (by
      unfold mcxnUsbdevDetach
      dsimp only
      split <;> simp)
    exact ⟨⟨trivial, hannounce.1⟩, hannounce.2⟩
  | completeIn ep data | completeOut ep status len =>
    simp only [answerCall, BackendCall.marks, mcxnUsbdevCompleteIn, mcxnUsbdevCompleteOut]
    split
    next hidle => exact keeps_unanswered h hidle
    next hbusy => exact keeps_completed _ h (by simpa using hbusy) rfl

def Mark.Spares (σ : Slot) : Mark → Prop
  | .sent _ | .refused _ => True
  | .completed τ => τ ≠ σ
  | _ => False

lemma BackendCall.Spares.marks (h : call.Spares σ) (sent : List Sent) :
    ∀ m ∈ call.marks ++ sent.map .sent, m.Spares σ := by
  intro m hm
  rcases mem_append.mp hm with hcall | hsent
  · cases call with
    | attach speed => cases hcall
    | detach => exact h.elim
    | completeIn ep data | completeOut ep status len =>
      obtain rfl := mem_singleton.mp hcall
      exact h
  · obtain ⟨s, -, rfl⟩ := List.mem_map.mp hsent
    trivial

lemma answerCall_spares (dev : UsbDevState) (h : call.Spares σ) :
    (answerCall dev call).1.parser = dev.parser ∧
    (answerCall dev call).1.pending σ = dev.pending σ := by
  cases call with
  | attach speed =>
    simp only [answerCall, mcxnUsbdevAttach]
    split <;> exact ⟨rfl, rfl⟩
  | detach => exact h.elim
  | completeIn ep data | completeOut ep status len =>
    simp only [answerCall, mcxnUsbdevCompleteIn, mcxnUsbdevCompleteOut]
    split
    · exact ⟨rfl, rfl⟩
    · exact ⟨rfl, update_of_ne (Ne.symm h) _ _⟩

/-- Marks that spare a slot are good, and settle the same requests, with one more request
that waits for that slot. -/
lemma goodFrom_spared {marks : List Mark} (hgood : GoodFrom waiting marks)
    (hfresh : ∀ slot, (id, slot) ∉ waiting) (hspares : ∀ m ∈ marks, m.Spares σ) :
    GoodFrom (waiting ++ [(id, some σ)]) marks ∧
      marks.foldl settle (waiting ++ [(id, some σ)]) =
        marks.foldl settle waiting ++ [(id, some σ)] ∧
      ∀ slot, (id, slot) ∉ marks.foldl settle waiting := by
  induction marks generalizing waiting with
  | nil => exact ⟨trivial, rfl, hfresh⟩
  | cons m rest ih =>
    have hhere := hspares m mem_cons_self
    have hstep : GoodMark (waiting ++ [(id, some σ)]) rest m ∧
        m.settle (waiting ++ [(id, some σ)]) = m.settle waiting ++ [(id, some σ)] ∧
        ∀ slot, (id, slot) ∉ m.settle waiting := by
      cases m with
      | sent s =>
        cases s with
        | reply id' packet =>
          obtain ⟨slot, hmem⟩ := hgood.1
          have hne : id ≠ id' := by
            rintro rfl
            exact hfresh slot hmem
          refine ⟨⟨slot, mem_append_left _ hmem⟩, by simp [settle, hne], fun slot hmem => ?_⟩
          exact hfresh slot (List.mem_of_mem_filter hmem)
        | _ => exact ⟨trivial, rfl, hfresh⟩
      | completed τ =>
        refine ⟨fun id' hid' => ?_, rfl, hfresh⟩
        rcases mem_append.mp hid' with hold | hnew
        · exact hgood.1 id' hold
        · exact absurd (some.inj (Prod.mk.inj (mem_singleton.mp hnew)).2) hhere
      | refused id' => exact ⟨hgood.1, rfl, hfresh⟩
      | _ => exact hhere.elim
    obtain ⟨hmark, hsettle, hfresh'⟩ := hstep
    obtain ⟨hrest, hfold, hlast⟩ := ih hgood.2 hfresh' fun m hm => hspares m (mem_cons_of_mem _ hm)
    rw [foldl_cons, hsettle]
    exact ⟨⟨hmark, hsettle ▸ hrest⟩, hfold, hlast⟩

end Marks

/-- The history so far is good, and the slots hold the requests that wait. -/
structure Orderly (x : Bridge β) : Prop where
  good : GoodFrom [] x.history
  slots : Matches x.dev (outstanding x.history)

/-- As `Orderly`, but for one request that has been received and is in no slot yet. -/
structure Owing (x : Bridge β) (waiting : List (ℕ × Option Slot)) (id : ℕ) (σ : Slot) : Prop where
  good : GoodFrom [] x.history
  outstanding : outstanding x.history = waiting ++ [(id, some σ)]
  slots : Matches x.dev waiting
  fresh : ∀ slot, (id, slot) ∉ waiting
  parser : x.dev.parser = true
  free : (x.dev.pending σ).active = false

section Bridge

variable {b : Backend β} {x y : Bridge β} {id : ℕ} {σ : Slot} {p : UsbPending} {r : Reaction β}
  {waiting : List (ℕ × Option Slot)} {l : List Mark} {a : Packet}

lemma Orderly.extend (h : Orderly x) (hy : y.history = x.history ++ l)
    (hkeeps : Keeps (outstanding x.history) (y.dev, l)) : Orderly y := by
  refine ⟨?_, ?_⟩
  · rw [hy]
    exact h.good.append hkeeps.1
  · rw [hy, outstanding, foldl_append]
    exact hkeeps.2

lemma Orderly.answerCalls (h : Orderly x) (calls : List BackendCall) :
    Orderly (x.answerCalls calls) :=
  run_invariant (fun _ call hx => hx.extend (append_assoc ..) (answerCall_keeps hx.slots call)) h _

lemma Orderly.operate (h : Orderly x) (r : Reaction β) : Orderly (x.operate r) :=
  Orderly.answerCalls (x := { x with be := r.be }) ⟨h.good, h.slots⟩ r.calls

lemma Orderly.request (h : Orderly x) (hparser : x.dev.parser = true)
    (hfree : (x.dev.pending σ).active = false)
    (hfresh : ∀ slot, (id, slot) ∉ outstanding x.history) :
    Owing (x.record [.request id (some σ)]) (outstanding x.history) id σ where
  good := h.good.append ⟨trivial, trivial⟩
  outstanding := foldl_append
  slots := h.slots
  fresh := hfresh
  parser := hparser
  free := hfree

lemma Owing.register (h : Owing x waiting id σ) (hp : p.active = true) (hid : p.id = id) :
    Orderly { x with dev := x.dev.setPending σ p } := by
  subst hid
  refine ⟨h.good, ?_⟩
  rw [h.outstanding]
  exact h.slots.register h.parser h.free h.fresh hp

lemma Owing.append (h : Owing x waiting id σ)
    (hgood : GoodFrom (waiting ++ [(id, some σ)]) l) : GoodFrom [] (x.history ++ l) ∧
      Usbdev.outstanding (x.history ++ l) =
        l.foldl settle (waiting ++ [(id, some σ)]) := by
  have houtstanding := h.outstanding
  rw [Usbdev.outstanding] at houtstanding
  refine ⟨h.good.append (houtstanding ▸ hgood), ?_⟩
  rw [Usbdev.outstanding, foldl_append, houtstanding]

lemma Owing.reply (h : Owing x waiting id σ)
    (hmarks : l = [] ∨ l = [.completed σ] ∨ l = [.refused id])
    (hy : y.history = x.history ++ (l ++ [.sent (.reply id a)]))
    (hdev : Matches y.dev waiting) : Orderly y := by
  have hsettle : (l ++ [Mark.sent (.reply id a)]).foldl settle
      (waiting ++ [(id, some σ)]) = waiting := by
    rcases hmarks with rfl | rfl | rfl <;> exact filter_fresh h.fresh
  have hreply : ∃ slot, (id, slot) ∈ waiting ++ [(id, some σ)] := ⟨some σ, by simp⟩
  have hgood : GoodFrom (waiting ++ [(id, some σ)]) (l ++ [.sent (.reply id a)]) := by
    rcases hmarks with rfl | rfl | rfl
    · exact ⟨hreply, trivial⟩
    · refine ⟨fun id' hid' => ?_, hreply, trivial⟩
      rcases mem_append.mp hid' with hold | hnew
      · exact absurd hold (h.slots.free h.parser h.free id')
      · obtain rfl := (Prod.mk.inj (mem_singleton.mp hnew)).1
        exact ⟨a, [], rfl⟩
    · exact ⟨⟨a, [], rfl⟩, hreply, trivial⟩
  obtain ⟨hhistory, houtstanding⟩ := h.append hgood
  rw [← hy] at hhistory houtstanding
  refine ⟨hhistory, ?_⟩
  rwa [houtstanding, hsettle]

lemma Owing.answer (h : Owing x waiting id σ) {call : BackendCall} (hspares : call.Spares σ) :
    ∃ waiting', Owing (x.answer call) waiting' id σ := by
  obtain ⟨hgood, hslots⟩ := answerCall_keeps h.slots call
  obtain ⟨hgood', hfold, hfresh⟩ := goodFrom_spared hgood h.fresh (hspares.marks _)
  obtain ⟨hparser, hpending⟩ := answerCall_spares x.dev hspares
  have hhistory : (x.answer call).history =
      x.history ++ (call.marks ++ (answerCall x.dev call).2.map .sent) := append_assoc ..
  obtain ⟨hgood, houtstanding⟩ := h.append hgood'
  rw [← hhistory] at hgood houtstanding
  refine ⟨_, hgood, houtstanding.trans hfold, hslots, hfresh, hparser.trans h.parser, ?_⟩
  exact (congrArg UsbPending.active hpending).trans h.free

lemma Owing.operate (h : Owing x waiting id σ) (hspares : ∀ call ∈ r.calls, call.Spares σ) :
    ∃ waiting', Owing (x.operate r) waiting' id σ := by
  refine run_invariant_of_events (P := fun y => ∃ waiting', Owing y waiting' id σ)
    ?_ ⟨waiting, ?_⟩ hspares
  · rintro y call hcall ⟨waiting', hy⟩
    exact hy.answer hcall
  · exact ⟨h.good, h.outstanding, h.slots, h.fresh, h.parser, h.free⟩

lemma Owing.transfer (h : Owing x waiting id σ) (hp : p.active = true) (hid : p.id = id)
    (hprompt : r.Prompt) (packet : Xfer → Packet) :
    Orderly ({ x with dev := x.dev.setPending σ p }.transfer r (verdict id σ)
      fun dev rc => finishRequest dev id σ (packet rc) rc) := by
  by_cases hrc : r.rc = .async
  · have hwaits := (h.register hp hid).operate r
    refine hwaits.extend (l := []) ?_ ?_
    · simp [Bridge.transfer, Bridge.handle, Bridge.record, hrc, verdict, finishRequest]
    · simp only [Bridge.transfer, Bridge.handle, hrc, finishRequest]
      exact ⟨trivial, hwaits.slots⟩
  have hcalls := hprompt.resolve_left hrc
  have hmarks : verdict id σ r.rc = [] ∨ verdict id σ r.rc = [.completed σ] ∨
      verdict id σ r.rc = [.refused id] := by
    cases r.rc with
    | ok data => exact .inr (.inl rfl)
    | stall => exact .inr (.inr rfl)
    | async | nak => exact .inl rfl
  refine h.reply (a := packet r.rc) hmarks ?_ ?_
  · simp [Bridge.transfer, Bridge.operate, Bridge.answerCalls, Bridge.handle, Bridge.record,
      hcalls, finishRequest, hrc]
  · have hidle := h.slots.idle h.free (p := { p with active := false }) rfl
    simpa [Bridge.transfer, Bridge.operate, Bridge.answerCalls, Bridge.handle, hcalls,
      finishRequest, hrc, setPending] using hidle

section

variable (h : Orderly x) (hparser : x.dev.parser = true)
include h hparser

lemma Orderly.control {q : ControlRequest} {data : List Byte}
    (hfresh : ∀ slot, (id, slot) ∉ outstanding x.history)
    (hfree : (x.dev.pending q.slot).active = false)
    (hbackend : BackendKeeps b x (.control id q data)) : Orderly (x.control b id q data) := by
  obtain ⟨hsetup, hdata⟩ := hbackend
  have howing := h.request hparser hfree hfresh
  unfold Bridge.control
  dsimp only
  split
  · exact howing.reply (.inl rfl) rfl h.slots
  obtain ⟨waiting, hready⟩ := howing.operate hsetup
  have hbe : ((x.record [.request id (some q.slot)]).operate (b.setup x.be q.setup)).be =
      (b.setup x.be q.setup).be := Bridge.operate_be ..
  rw [← hbe] at hdata
  generalize (x.record [.request id (some q.slot)]).operate (b.setup x.be q.setup) = y
    at hready hdata ⊢
  split
  next hin =>
    rw [if_pos hin] at hdata
    rw [show q.slot = 16 from if_pos hin] at hready
    exact Owing.transfer (p := { y.dev.pending 16 with
      active := true, isControl := true, id := id, length := q.length.toNat, ep := 0x80 })
      hready rfl rfl hdata _
  next hout =>
    rw [if_neg hout] at hdata
    rw [show q.slot = 0 from if_neg hout] at hready
    have hregistered : Orderly { y with dev := registerControlOut y.dev id } :=
      hready.register rfl rfl
    split
    · exact hregistered
    next hsome =>
      have hoperated := hregistered.operate (b.epOut y.be 0 data)
      refine hoperated.extend (l := []) ?_ ⟨trivial, hoperated.slots⟩
      simp [Bridge.transfer, Bridge.handle, Bridge.record, hdata hsome]

lemma Orderly.bulk {endpoint : Byte} {length lengthHigh : HalfWord} {data : List Byte}
    (hfresh : ∀ slot, (id, slot) ∉ outstanding x.history)
    (hfree : (x.dev.pending (usbdevSlot endpoint)).active = false)
    (hbackend : BackendKeeps b x (.bulk id endpoint length lengthHigh data)) :
    Orderly (x.bulk b id endpoint length lengthHigh data) := by
  have howing := h.request hparser hfree hfresh
  unfold Bridge.bulk
  dsimp only
  split
  · exact howing.reply (.inl rfl) rfl h.slots
  · refine howing.transfer ?_ ?_ hbackend _
    · split <;> rfl
    · split <;> rfl

lemma Orderly.usbdevStdSetup (hpending : p.active = true) (hid : p.id = id)
    (hfresh : ∀ slot, (id, slot) ∉ outstanding x.history)
    (hfree : (x.dev.pending 0).active = false) (config bmreq breq : Byte) (val idx : HalfWord) :
    Orderly ({ x.record [.request id (some 0)] with
      dev := { x.dev with curConfig := config }.setPending 0 p }.usbdevStdSetup b
        bmreq breq val idx) := by
  have hset : Orderly { x with dev := { x.dev with curConfig := config } } :=
    ⟨h.good, h.slots.congr rfl rfl⟩
  have hregistered := (hset.request hparser hfree hfresh).register hpending hid
  unfold Bridge.usbdevStdSetup
  split
  · exact hregistered.operate _
  · exact hregistered

lemma Orderly.receive (m : HostMessage)
    (hdistinct : ∀ id ∈ m.requestId, ∀ slot, (id, slot) ∉ outstanding x.history)
    (hfree : ∀ σ ∈ m.requestSlot, (x.dev.pending σ).active = false)
    (hbackend : BackendKeeps b x m) : Orderly (x.receive b m) := by
  cases m with
  | hello =>
    refine h.extend rfl ?_
    change Keeps _ ((usbdevHello x.dev).1, (usbdevHello x.dev).2.map .sent)
    unfold usbdevHello
    dsimp only
    split
    · exact keeps_attach _ (h.slots.congr rfl rfl)
    · exact keeps_announce _ (h.slots.congr rfl rfl) (by simp)
  | busReset =>
    have hdropped : Orderly { x.record [.drop] with dev := usbdevReset x.dev } :=
      h.extend rfl ⟨⟨trivial, trivial⟩, matches_nil fun _ => rfl⟩
    simp only [Bridge.receive, Bridge.busReset]
    split
    · exact hdropped.operate _
    · exact hdropped
  | setConfiguration id configuration =>
    exact h.usbdevStdSetup hparser rfl rfl (hdistinct id rfl) (hfree 0 rfl) configuration ..
  | setAltSetting id interface alt =>
    exact h.usbdevStdSetup hparser rfl rfl (hdistinct id rfl) (hfree 0 rfl) x.dev.curConfig ..
  | getConfiguration id | getAltSetting id interface | interruptReceiving id endpoint =>
    exact h.extend (append_assoc ..) (keeps_answered none _ h.slots (hdistinct id rfl))
  | control id q data => exact h.control hparser (hdistinct id rfl) (hfree _ rfl) hbackend
  | bulk id endpoint length lengthHigh data =>
    exact h.bulk hparser (hdistinct id rfl) (hfree _ rfl) hbackend
  | cancel id =>
    exact h.extend (append_nil _) ⟨⟨trivial, trivial⟩, h.slots.cancel hparser id⟩

end

lemma Orderly.step {react : β → γ → Reaction β} (h : Orderly x) (e : BridgeEvent γ)
    (hdistinct : DistinctIds x e) (huncrowded : Uncrowded b x e) :
    Orderly (bridgeStep b react x e) := by
  cases e with
  | opened => exact h.extend (append_nil _) ⟨⟨trivial, trivial⟩, matches_nil huncrowded⟩
  | closed =>
    exact h.extend (append_nil _)
      ⟨⟨trivial, trivial⟩, nodup_nil, fun _ => rfl, fun hopen => by cases hopen⟩
  | message m =>
    simp only [bridgeStep]
    split
    next hparser => exact h.receive hparser m hdistinct huncrowded.1 huncrowded.2
    · exact h
  | backend e => exact h.operate _

end Bridge

def Bridge.start (be : β) (beOps : Bool) : Bridge β := ⟨.created beOps, be, []⟩

/-- In every run of the device with its backend whose host uses distinct ids and whose events
meet the condition, every reply answers an outstanding request of its connection, and
every request that is due is answered. -/
theorem usbredir_replies_exactly_once (b : Backend β) (step : β → γ → Reaction β) (be : β)
    (beOps : Bool) (events : List (BridgeEvent γ))
    (hdistinct : Admits (bridgeStep b step) DistinctIds (.start be beOps) events)
    (huncrowded : Admits (bridgeStep b step) (Uncrowded b) (.start be beOps) events) :
    RepliesSafe (run (bridgeStep b step) (.start be beOps) events).history ∧
      RepliesLive (run (bridgeStep b step) (.start be beOps) events).history := by
  have hinv : Orderly (run (bridgeStep b step) (.start be beOps) events) :=
    run_invariant_of_admits (P := Orderly) (fun x e hguard h => h.step e hguard.1 hguard.2)
      ⟨trivial, matches_nil fun _ => rfl⟩ (hdistinct.and huncrowded)
  exact ⟨hinv.good.repliesSafe, hinv.good.repliesLive⟩

/-- A backend that answers everything later; `calls` are what it calls back from `setup`. -/
def deferring (calls : List BackendCall) : Backend Unit where
  setup be _ := ⟨be, calls, .async⟩
  epIn be _ _ := ⟨be, [], .async⟩
  epOut be _ _ := ⟨be, [], .async⟩
  busReset be := ⟨be, [], .async⟩

def replayed (calls : List BackendCall) : Bridge Unit → BridgeEvent BackendCall → Bridge Unit :=
  bridgeStep (deferring calls) fun be call => ⟨be, [call], .async⟩

def getDescriptor : ControlRequest := ⟨0x80, 0x80, 6, 0x100, 0, 18⟩

def setAddress : ControlRequest := ⟨0x00, 0x00, 5, 1, 0, 0⟩

def controlEvents : List (BridgeEvent BackendCall) :=
  [.opened, .message (.control 7 getDescriptor []), .backend (.completeIn 0 [0x12])]

theorem usbredir_replies_exactly_once_control :
    RepliesSafe (run (replayed []) (.start () true) controlEvents).history ∧
      RepliesLive (run (replayed []) (.start () true) controlEvents).history :=
  usbredir_replies_exactly_once (deferring []) (fun be call => ⟨be, [call], .async⟩) () true
    controlEvents ⟨trivial, fun _ _ slot hmem => (by cases hmem), trivial, trivial⟩
    ⟨fun _ => rfl, ⟨fun σ hσ => (by cases hσ; rfl), fun _ hcall => (by cases hcall), .inl rfl⟩,
      trivial, trivial⟩

def pipelinedEvents : List (BridgeEvent BackendCall) :=
  [.opened, .message (.bulk 1 0x81 64 0 []), .message (.bulk 2 0x81 64 0 []),
    .backend (.completeIn 1 []), .backend (.completeIn 1 [])]

def reopenedEvents : List (BridgeEvent BackendCall) :=
  [.opened, .message (.bulk 1 0x81 64 0 []), .opened, .backend (.completeIn 1 [])]

/-- A second request in a slot, a new connection over a slot, and a status stage that the
backend completes from within `setup`. -/
theorem one_slot_loses_request :
    Admits (replayed []) DistinctIds (.start () true) pipelinedEvents ∧
      ¬ RepliesLive (run (replayed []) (.start () true) pipelinedEvents).history ∧
      ¬ RepliesSafe (run (replayed []) (.start () true) reopenedEvents).history ∧
      ¬ RepliesLive (run (replayed [.completeOut 0 .success 0]) (.start () true)
        [.opened, .message (.control 7 setAddress [])]).history := by
  refine ⟨⟨trivial, ?_, ?_, trivial, trivial, trivial⟩, ?_, ?_, ?_⟩
  · exact fun _ _ slot hmem => by cases hmem
  · intro id hid slot hmem
    cases hid
    have hone : (2, slot) ∈ [(1, some (17 : Slot))] := hmem
    simp at hone
  · intro hlive
    obtain ⟨packet, hmem⟩ := hlive [.boundary] 1 17 [.request 2 (some 17), .completed 17,
        .sent (.reply 2 (.bulk 0x81 .success 0 0 [])), .completed 17]
      (by decide) (by decide) (by decide) (by decide) (Or.inr (by decide))
    simp at hmem
  · intro hsafe
    obtain ⟨slot, hmem⟩ := hsafe [.boundary, .request 1 (some 17), .boundary, .completed 17] 1
      (.bulk 0x81 .success 0 0 []) [] (by decide)
    simp [outstanding, settle] at hmem
  · intro hlive
    obtain ⟨packet, hmem⟩ := hlive [.boundary] 7 0 [.completed 0]
      (by decide) (by decide) (by decide) (by decide) (Or.inr (by decide))
    simp at hmem

end Mcxn947.Usbdev
