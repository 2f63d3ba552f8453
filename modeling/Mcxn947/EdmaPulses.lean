import Mcxn947.EdmaVisits

/-!
# Pulse requests

A timer match raises its request line through `mcxn_edma_req_pulse`.
-/

namespace Mcxn947.Edma

open MachineWords EventRuns List Chan EdmaInput EdmaState Engine

variable {μ : Type} {src : ReqSrc}

def EdmaInput.pulses (src : ReqSrc) : EdmaInput → ℕ
  | .reqPulse s true => if reqSrc? s = some src then 1 else 0
  | .req _ _ | .reqEnable _ _ | .reqPulse _ false => 0

def EdmaInput.PulsesOnly (src : ReqSrc) : EdmaInput → Prop
  | .req s _ => reqSrc? s ≠ some src
  | .reqEnable _ _ | .reqPulse _ _ => True

def BusEffect.pulses (src : ReqSrc) : BusEffect → ℕ
  | .input i => i.pulses src
  | .ownWrite _ _ => 0

def pulsesIn (src : ReqSrc) (effects : List BusEffect) : ℕ :=
  (effects.map (BusEffect.pulses src)).sum

def Fabric.counting (f : Fabric μ) (src : ReqSrc) : Fabric (μ × ℕ) where
  read s mem addr size :=
    let (mem', data, ok, effects) := f.read s mem.1 addr size
    ((mem', mem.2 + pulsesIn src effects), data, ok, effects)
  write s mem addr data :=
    let (mem', effects) := f.write s mem.1 addr data
    ((mem', mem.2 + pulsesIn src effects), effects)

lemma Fabric.Drives.counting {f : Fabric μ} {kind : EdmaInput → Prop}
    (h : f.Drives kind) (src : ReqSrc) : (f.counting src).Drives kind where
  read s mem := h.read s mem.1
  write s mem := h.write s mem.1

lemma EdmaInput.drive_pulsesOnly {i : EdmaInput} (hi : i.PulsesOnly src) (s : EdmaState) :
    (i.pulses src = 1 ∧ (i.drive s).reqLevel src ∧
      (i.drive s).reqEdge src ∧ (i.drive s).bhScheduled) ∨
      (i.pulses src = 0 ∧ (i.drive s).reqLevel src = s.reqLevel src ∧
      (i.drive s).reqEdge src = s.reqEdge src ∧ (s.bhScheduled → (i.drive s).bhScheduled)) := by
  have hkept : ∀ j : EdmaInput, j.source? ≠ some src → (j.drive s).reqLevel src = s.reqLevel src ∧
        (j.drive s).reqEdge src = s.reqEdge src := fun j hj => drive_of_ne hj s
  cases i with
  | req line level =>
    obtain ⟨hlevel, hedge⟩ := hkept (.req line level) hi
    refine .inr ⟨rfl, hlevel, hedge, fun h => ?_⟩
    unfold drive mcxnEdmaReq
    dsimp only
    split
    · exact h
    split
    · rfl
    · exact h
  | reqEnable line level =>
    obtain ⟨hlevel, hedge⟩ := hkept (.reqEnable line level) nofun
    refine .inr ⟨rfl, hlevel, hedge, fun h => ?_⟩
    unfold drive mcxnEdmaReqEnable
    dsimp only
    split
    · exact h
    split
    · exact h
    split
    · rfl
    · exact h
  | reqPulse line level =>
    by_cases hline : reqSrc? line = some src
    · cases level with
      | true =>
        left
        simp [pulses, drive, mcxnEdmaReqPulse, hline, setLevel, scheduleBh]
      | false =>
        right
        simp [pulses, drive, mcxnEdmaReqPulse, hline]
    obtain ⟨hlevel, hedge⟩ := hkept (.reqPulse line level) hline
    refine .inr ⟨?_, hlevel, hedge, fun h => ?_⟩
    · cases level with
      | true => simp [pulses, hline]
      | false => rfl
    unfold drive mcxnEdmaReqPulse
    dsimp only
    split
    · exact h
    split
    · rfl
    · exact h

def requestsOn (src : ReqSrc) (trace : List BusMark) : List (ChanIdx × ReqSrc) :=
  (requests trace).filter fun r => r.2 = src

lemma requestsOn_append (l l' : List BusMark) :
    requestsOn src (l ++ l') = requestsOn src l ++ requestsOn src l' := by
  simp [requestsOn, requests_append]

def Engine.takenOn (src : ReqSrc) (x : Engine μ) : ℕ := (requestsOn src x.trace).length

def Engine.pending (src : ReqSrc) (x : Engine μ) : ℕ := (x.st.reqLevel src).toNat

lemma takenOn_mark_self (src : ReqSrc) (x : Engine μ) (n : ChanIdx) :
    (x.mark (.request n src)).takenOn src = x.takenOn src + 1 := by
  simp [takenOn, mark, requestsOn, requests]

lemma takenOn_mark_ne (x : Engine μ) (n : ChanIdx) {other : ReqSrc} (hother : other ≠ src) :
    (x.mark (.request n other)).takenOn src = x.takenOn src := by
  simp [takenOn, mark, requestsOn, requests, hother]

/-- The books on `src` since the count stood at `start`, when `base` requests
had been taken or were pending.  `owed` pulses of the access under way are
counted and not yet delivered.  Two pulses may fall together on the raised line,
so the account is a bound in general; it is exact as long as the pulses come to
no more than `limit`. -/
structure Account (src : ReqSrc) (start base limit owed : ℕ) (x : Engine (μ × ℕ)) : Prop where
  edge : x.st.reqLevel src = true → x.st.reqEdge src = true
  since : start ≤ x.mem.2
  room : limit ≤ x.takenOn src + 1
  le : x.takenOn src + x.pending src + owed + start ≤ x.mem.2 + base
  eq : x.mem.2 + base ≤ start + limit →
    x.takenOn src + x.pending src + owed + start = x.mem.2 + base

section Accounts

variable {start base limit owed : ℕ} {x : Engine (μ × ℕ)}

lemma Account.own (h : Account src start base limit owed x)
    {st : EdmaState} {log : List BusMark} (hsame : x.st.SameInputs st) (hlog : requests log = []) :
    Account src start base limit owed ⟨st, x.mem, x.trace ++ log⟩ := by
  have htaken : takenOn src (⟨st, x.mem, x.trace ++ log⟩ : Engine (μ × ℕ)) =
      x.takenOn src := by
    simp [takenOn, requestsOn, requests_append, hlog]
  have hpend : pending src (⟨st, x.mem, x.trace ++ log⟩ : Engine (μ × ℕ)) = x.pending src := by
    simp [pending, hsame.reqLevel]
  constructor
  · rw [hsame.reqLevel, hsame.reqEdge]
    exact h.edge
  · exact h.since
  · rw [htaken]
    exact h.room
  · rw [htaken, hpend]
    exact h.le
  · rw [htaken, hpend]
    exact h.eq

lemma Account.drive {i : EdmaInput} (hi : i.PulsesOnly src)
    (h : Account src start base limit (owed + i.pulses src) x) :
    Account src start base limit owed (x.drive i) := by
  have hle := h.le
  have hroom := h.room
  obtain ⟨hpulse, hlevel, hedge, -⟩ | ⟨hpulse, hlevel, hedge, -⟩ :=
    EdmaInput.drive_pulsesOnly hi x.st
  · have hpend : (x.drive i).pending src = 1 := congrArg Bool.toNat hlevel
    refine ⟨fun _ => hedge, h.since, h.room, ?_, ?_⟩
    · change x.takenOn src + _ + _ + _ ≤ x.mem.2 + base
      omega
    · change x.mem.2 + base ≤ _ → x.takenOn src + _ + _ + _ = x.mem.2 + base
      omega
  have hpend : (x.drive i).pending src = x.pending src := congrArg Bool.toNat hlevel
  rw [hpulse, Nat.add_zero] at h
  refine ⟨?_, h.since, h.room, ?_, ?_⟩
  · intro hraised
    change (i.drive x.st).reqEdge src = true
    rw [hedge]
    exact h.edge (hlevel.symm.trans hraised)
  · rw [hpend]
    exact h.le
  · rw [hpend]
    exact h.eq

variable {serve : Engine (μ × ℕ) → BusEffect → Engine (μ × ℕ)}

lemma Account.effects (hserve : ∀ owed x e, (∀ i, e = .input i → i.PulsesOnly src) →
      Account src start base limit (owed + e.pulses src) x →
      Account src start base limit owed (serve x e)) {effects : List BusEffect}
    (hkind : ∀ i, .input i ∈ effects → i.PulsesOnly src)
    (h : Account src start base limit (owed + pulsesIn src effects) x) :
    Account src start base limit owed (effects.foldl serve x) := by
  induction effects generalizing x with
  | nil => exact h
  | cons e rest ih =>
    refine ih (fun i hi => hkind i (mem_cons_of_mem _ hi)) ?_
    apply hserve
    · rintro i rfl
      exact hkind i mem_cons_self
    have hsum : pulsesIn src (e :: rest) = e.pulses src + pulsesIn src rest := by simp [pulsesIn]
    have hswap : owed + pulsesIn src rest + e.pulses src =
        owed + (e.pulses src + pulsesIn src rest) := by omega
    rw [hswap]
    exact h

lemma Account.count (h : Account src start base limit owed x) (mem : μ) (pulses : ℕ) :
    Account src start base limit (owed + pulses) { x with mem := (mem, x.mem.2 + pulses) } := by
  have hle := h.le
  have heq := h.eq
  have hsince := h.since
  refine ⟨h.edge, ?_, h.room, ?_, ?_⟩
  · change start ≤ x.mem.2 + pulses
    omega
  · change x.takenOn src + x.pending src + _ + start ≤ x.mem.2 + pulses + base
    omega
  change x.mem.2 + pulses + base ≤ _ →
    x.takenOn src + x.pending src + _ + start = x.mem.2 + pulses + base
  omega

variable {f : Fabric μ} (hdrives : f.Drives (EdmaInput.PulsesOnly src))

include hdrives

lemma account_busWith (hserve : ∀ owed x e, (∀ i, e = .input i → i.PulsesOnly src) →
      Account src start base limit (owed + e.pulses src) x →
      Account src start base limit owed (serve x e)) :
    BusInvariant ((f.counting src).busWith serve) (Account src start base limit owed) where
  own _ _ _ hsame hlog h := h.own hsame hlog
  read x addr size h := Account.effects hserve (hdrives.read x.st x.mem.1 addr size) (h.count _ _)
  write x addr data h := Account.effects hserve (hdrives.write x.st x.mem.1 addr data) (h.count _ _)

lemma account_engaged :
    BusInvariant (f.counting src).engagedBus (Account src start base limit owed) := by
  refine account_busWith hdrives ?_
  intro owed x e hkind h
  cases e with
  | input i => exact h.drive (hkind i rfl)
  | ownWrite off v => exact h

lemma account_service :
    BusInvariant (f.counting src).serviceBus (Account src start base limit owed) := by
  refine account_busWith hdrives ?_
  intro owed x e hkind h
  cases e with
  | input i => exact h.drive (hkind i rfl)
  | ownWrite off v => exact (account_engaged hdrives).edmaWrite h off v

lemma raised_service : BusInvariant f.serviceBus fun x : Engine μ =>
      x.st.reqLevel src = true ∧ x.st.reqEdge src := by
  refine Fabric.serviceBus_invariant hdrives ?_ (fun _ _ h => h) ?_
  · intro x st log hsame _ h
    rw [hsame.reqLevel, hsame.reqEdge]
    exact h
  intro x i hi h
  obtain ⟨-, hlevel, hedge, -⟩ | ⟨-, hlevel, hedge, -⟩ := drive_pulsesOnly hi x.st
  · exact ⟨hlevel, hedge⟩
  · exact ⟨hlevel.trans h.1, hedge.trans h.2⟩

lemma serviceChannel_account_self {n : ChanIdx}
    (h : Account src start base limit 0 x) (helig : x.st.eligible n)
    (hmux : muxSrc (x.st.ch n).mux = src) :
    Account src start base limit 0 (serviceChannel (f.counting src).serviceBus x n).1 := by
  have hlevel : x.st.reqLevel src := by
    rw [← hmux]
    exact ((x.st.eligible_iff n).mp helig).2.2.1
  have hle := h.le
  have heq := h.eq
  have hroom := h.room
  have htaken := takenOn_mark_self src x n
  -- from the mark on, the request counts as taken while its line is still up
  have hmark : Account src start (base + 1) (limit + 1) 0
      ((x.mark (.request n src)).modifyCh n clearDone) := by
    refine (account_service hdrives).store (x := x.mark (.request n src))
      ⟨rfl, rfl, rfl⟩ ⟨h.edge, h.since, ?_, ?_, ?_⟩
    · omega
    · change _ + x.pending src + 0 + start ≤ x.mem.2 + (base + 1)
      omega
    · change x.mem.2 + (base + 1) ≤ _ → _ + x.pending src + 0 + start = x.mem.2 + (base + 1)
      omega
  have hloop := (account_service hdrives).moves (edmaMinorLoop_moves _ n) hmark
  have hraised := (raised_service (hdrives.counting src)).moves
    (x := (x.mark (.request n src)).modifyCh n clearDone)
    (edmaMinorLoop_moves _ n) ⟨hlevel, h.edge hlevel⟩
  unfold serviceChannel
  rw [if_pos helig, hmux]
  dsimp only
  rw [if_pos hraised.2]
  generalize (edmaMinorLoop (f.counting src).serviceBus
    ((x.mark (.request n src)).modifyCh n clearDone) n).1 = y at hloop hraised ⊢
  have hup : y.pending src = 1 := by simp [pending, hraised.1]
  have hdown : pending src { y with st := y.st.setLevel src false } = 0 := by
    simp [pending, setLevel]
  have hle' := hloop.le
  have hroom' := hloop.room
  refine ⟨?_, hloop.since, ?_, ?_, ?_⟩
  · simp [setLevel]
  · change limit ≤ y.takenOn src + 1
    omega
  · change y.takenOn src + _ + 0 + start ≤ y.mem.2 + base
    omega
  · change y.mem.2 + base ≤ _ → y.takenOn src + _ + 0 + start = y.mem.2 + base
    omega

lemma serviceChannel_account (n : ChanIdx) (h : Account src start base limit 0 x) :
    Account src start base limit 0 (serviceChannel (f.counting src).serviceBus x n).1 := by
  cases helig : x.st.eligible n with
  | false => simpa [serviceChannel, helig] using h
  | true =>
    by_cases hmux : muxSrc (x.st.ch n).mux = src
    · exact serviceChannel_account_self hdrives h helig hmux
    have htaken := takenOn_mark_ne x n hmux
    have hmark : Account src start base limit 0
        ((x.mark (.request n (muxSrc (x.st.ch n).mux))).modifyCh n clearDone) := by
      refine (account_service hdrives).store (x := x.mark _)
        ⟨rfl, rfl, rfl⟩ ⟨h.edge, h.since, ?_, ?_, ?_⟩
      · rw [htaken]
        exact h.room
      · rw [htaken]
        exact h.le
      · rw [htaken]
        exact h.eq
    have hloop := (account_service hdrives).moves (edmaMinorLoop_moves _ n) hmark
    unfold serviceChannel
    dsimp only
    rw [if_pos helig]
    split
    · -- acknowledging another source leaves this line alone
      have hkept : ∀ s : EdmaState, (s.setLevel (muxSrc (x.st.ch n).mux) false).reqLevel src =
            s.reqLevel src := by
        intro s
        simp [setLevel, Ne.symm hmux]
      have hpend : ∀ y : Engine (μ × ℕ), pending src
          { y with st := y.st.setLevel (muxSrc (x.st.ch n).mux) false } =
            y.pending src := by
        intro y
        simp only [pending, hkept]
      refine ⟨?_, hloop.since, hloop.room, ?_, ?_⟩
      · rw [hkept]
        exact hloop.edge
      · rw [hpend]
        exact hloop.le
      · rw [hpend]
        exact hloop.eq
    · exact hloop

end Accounts

section Steps

variable (src)

structure EdmaState.Awaits (s : EdmaState) : Prop where
  edge : s.reqLevel src = true → s.reqEdge src = true
  woken : s.reqLevel src = true → s.bhScheduled = true

def EdmaEvent.PulsesOnly : EdmaEvent μ → Prop
  | .input i => i.PulsesOnly src
  | .mmioWrite _ _ | .bh | .world _ | .reset => True

def EdmaEvent.Between : EdmaEvent μ → Prop
  | .mmioWrite _ _ | .input _ | .world _ => True
  | .bh | .reset => False

variable (f : Fabric μ)

def arrived (x : Engine (μ × ℕ)) : EdmaEvent (μ × ℕ) → ℕ
  | .input i => i.pulses src
  | .mmioWrite off v => (edmaStep (f.counting src) x (.mmioWrite off v)).mem.2 - x.mem.2
  | .bh => (edmaStep (f.counting src) x .bh).mem.2 - x.mem.2
  | .world _ | .reset => 0

def arrivals (x : Engine (μ × ℕ)) : List (EdmaEvent (μ × ℕ)) → ℕ
  | [] => 0
  | e :: rest => arrived src f x e + arrivals (edmaStep (f.counting src) x e) rest

variable {src f} {x : Engine (μ × ℕ)}

lemma arrivals_append (before after : List (EdmaEvent (μ × ℕ))) :
    arrivals src f x (before ++ after) = arrivals src f x before +
      arrivals src f (run (edmaStep (f.counting src)) x before) after := by
  induction before generalizing x with
  | nil => simp [arrivals]
  | cons e rest ih => rw [List.cons_append, arrivals, arrivals, ih, run_cons, Nat.add_assoc]

lemma Account.opened (hedge : x.st.reqLevel src → x.st.reqEdge src) :
    Account src x.mem.2 (x.takenOn src + x.pending src) (x.takenOn src + 1) 0 x := by
  refine ⟨hedge, le_rfl, le_rfl, ?_, fun _ => ?_⟩
  · omega
  · omega

structure Engine.Kept (src : ReqSrc) (x y : Engine (μ × ℕ)) : Prop where
  account : ∀ start base limit, Account src start base limit 0 x → Account src start base limit 0 y
  trace : x.trace <+: y.trace

lemma Engine.Kept.refl (x : Engine (μ × ℕ)) : x.Kept src x := ⟨fun _ _ _ h => h, prefix_refl _⟩

lemma Engine.Kept.trans {x y z : Engine (μ × ℕ)} (hxy : x.Kept src y)
    (hyz : y.Kept src z) : x.Kept src z :=
  ⟨fun _ _ _ h => hyz.account _ _ _ (hxy.account _ _ _ h), hxy.trace.trans hyz.trace⟩

lemma Engine.takenOn_le {x y : Engine μ} (h : x.trace <+: y.trace) :
    x.takenOn src ≤ y.takenOn src := by
  obtain ⟨log, hlog⟩ := h
  simp [takenOn, ← hlog, requestsOn_append]

def EdmaState.Listens (s : EdmaState) (src : ReqSrc) (n : ChanIdx) : Prop :=
  anyBit (s.ch n).csr chCsrErq = true ∧ muxSrc (s.ch n).mux = src ∧ s.reqEnabled src = true

variable {s : EdmaState}

lemma EdmaState.Listens.eligible_iff {n : ChanIdx} (h : s.Listens src n) (hsrc : src ≠ 0) :
    s.eligible n = true ↔ s.reqLevel src := by
  rw [s.eligible_iff, h.2.1]
  simp [h.1, h.2.2, hsrc]

lemma EdmaInput.drive_woken (i : EdmaInput) (h : s.reqLevel src → s.bhScheduled)
    (hlevel : (i.drive s).reqLevel src) : (i.drive s).bhScheduled := by
  cases i with
  | req line level =>
    unfold drive mcxnEdmaReq at *
    dsimp only at *
    split at *
    · exact h hlevel
    cases level with
    | true => rfl
    | false =>
      refine h ?_
      by_contra hlow
      rename_i j _
      by_cases hj : src = j
      · simp [setLevel, hj] at hlevel
      · simp [setLevel, hj, hlow] at hlevel
  | reqEnable line level =>
    have hsame := (drive_of_ne (i := .reqEnable line level) (k := src)
      (Option.some_ne_none src).symm s).1
    have hsched := h (hsame.symm.trans hlevel)
    unfold drive mcxnEdmaReqEnable
    dsimp only
    split
    · exact hsched
    split
    · exact hsched
    split
    · rfl
    · exact hsched
  | reqPulse line level =>
    unfold drive mcxnEdmaReqPulse at *
    dsimp only at *
    split at *
    · exact h hlevel
    cases level with
    | true => rfl
    | false => exact h hlevel

lemma write_lineWoken (f : Fabric μ) {x : Engine μ}
    (h : x.st.reqLevel src → x.st.bhScheduled) (off : ℕ) (v : Word) :
    (edmaWrite f.engagedBus x off v).st.reqLevel src →
      (edmaWrite f.engagedBus x off v).st.bhScheduled := by
  unfold edmaWrite
  split
  · exact h
  · exact h
  · split <;> exact h
  next n _ =>
    split
    · refine engagedMoves_preserve (f := f)
        (P := fun s => s.reqLevel src = true → s.bhScheduled = true)
        (fun _ _ hframe h => ?_) (fun _ i h => i.drive_woken h)
        (run_moves _ n) h
      rw [hframe.reqLevel, hframe.bhScheduled]
      exact h
    · exact h
  · exact h
  · exact h
  · exact h
  · exact h

section

variable (hdrives : f.Drives (EdmaInput.PulsesOnly src))
include hdrives

lemma bhVisits_between (hsched : x.st.bhScheduled) : ∃ w : Engine (μ × ℕ),
      runBh (f.counting src).serviceBus x = { w with st := w.st.dropEdges } ∧ x.Kept src w ∧
      ∀ v ∈ bhVisits (f.counting src).serviceBus x, x.Kept src v.1 ∧
        (serviceChannel (f.counting src).serviceBus v.1 v.2).1.Kept src w := by
  have hvisit : ∀ (y : Engine (μ × ℕ)) (n : ChanIdx),
      y.Kept src (serviceChannel (f.counting src).serviceBus y n).1 := fun y n =>
    ⟨fun _ _ _ h => serviceChannel_account hdrives n h,
      (trace_grows (f.counting src) y.trace).serviceChannel (prefix_refl _) n⟩
  have hstart : x.Kept src { x with st := { x.st with bhScheduled := false } } :=
    ⟨fun _ _ _ h => (account_service hdrives).store ⟨rfl, rfl, rfl⟩ h, prefix_refl _⟩
  obtain ⟨hend, hvisits⟩ := loopVisits_between Engine.Kept.refl
    (fun _ _ _ => Engine.Kept.trans) hvisit maxLoops
    { x with st := { x.st with bhScheduled := false } }
  refine ⟨_, ?_, hstart.trans hend, ?_⟩
  · rw [runBh, if_pos hsched]
    rfl
  intro v hv
  rw [bhVisits, if_pos hsched] at hv
  obtain ⟨hbefore, hafter⟩ := hvisits v hv
  exact ⟨hstart.trans hbefore, hafter⟩

lemma runBh_taken (h : x.st.Awaits src) :
    (runBh (f.counting src).serviceBus x).st.reqLevel src = false ∧
      x.mem.2 ≤ (runBh (f.counting src).serviceBus x).mem.2 ∧
      (runBh (f.counting src).serviceBus x).takenOn src ≤ x.takenOn src + x.pending src +
      ((runBh (f.counting src).serviceBus x).mem.2 - x.mem.2) := by
  cases hsched : x.st.bhScheduled with
  | false =>
    have hlow : x.st.reqLevel src = false := by
      by_contra hup
      have hcoming := h.woken (by simpa using hup)
      rw [hsched] at hcoming
      cases hcoming
    have hidle : runBh (f.counting src).serviceBus x = x := by simp [runBh, hsched]
    rw [hidle]
    exact ⟨hlow, le_rfl, by omega⟩
  | true =>
    obtain ⟨w, hw, hkept, -⟩ := bhVisits_between hdrives hsched
    have hbooks := hkept.account _ _ _ (Account.opened h.edge)
    have hle := hbooks.le
    have hsince := hbooks.since
    rw [hw]
    refine ⟨?_, hsince, ?_⟩
    · change (!w.st.reqEdge src && w.st.reqLevel src) = false
      cases hlevel : w.st.reqLevel src with
      | false => simp
      | true => simp [hbooks.edge hlevel]
    · change w.takenOn src ≤ _ + (w.mem.2 - x.mem.2)
      omega

variable {v : Engine (μ × ℕ) × ChanIdx} {e : EdmaEvent (μ × ℕ)} {events : List (EdmaEvent (μ × ℕ))}

lemma runBh_takes_heard (hsrc : src ≠ 0) (h : x.st.Awaits src)
    (hv : v ∈ bhVisits (f.counting src).serviceBus x) (hlistens : v.1.st.Listens src v.2)
    (hheard : x.pending src + v.1.mem.2 = x.mem.2 + 1) :
    x.takenOn src < (runBh (f.counting src).serviceBus x).takenOn src := by
  have hsched := scheduled_of_mem_bhVisits hv
  obtain ⟨w, hw, -, hvisits⟩ := bhVisits_between hdrives hsched
  obtain ⟨hbefore, hafter⟩ := hvisits v hv
  have hbooks := hbefore.account _ _ _ (Account.opened h.edge)
  have hexact := hbooks.eq (by omega)
  have hend : (serviceChannel (f.counting src).serviceBus v.1 v.2).1.takenOn src ≤
      (runBh (f.counting src).serviceBus x).takenOn src := by
    rw [hw]
    exact takenOn_le hafter.trace
  have hhere : v.1.takenOn src ≤
      (serviceChannel (f.counting src).serviceBus v.1 v.2).1.takenOn src :=
    takenOn_le ((trace_grows (f.counting src) v.1.trace).serviceChannel (prefix_refl _) v.2)
  -- the pulse has been taken already, or it is still pending and is taken now
  cases hlevel : v.1.st.reqLevel src with
  | false =>
    have hdown : v.1.pending src = 0 := by simp [pending, hlevel]
    omega
  | true =>
    have hup : v.1.pending src = 1 := by simp [pending, hlevel]
    have helig := (hlistens.eligible_iff hsrc).mpr hlevel
    have htake := serviceChannel_requests (requests_serviceBus (f.counting src)) v.1 v.2
    have hcount : (serviceChannel (f.counting src).serviceBus v.1 v.2).1.takenOn src =
        v.1.takenOn src + 1 := by
      simp [takenOn, requestsOn, htake, takes, helig, taken, hlistens.2.1]
    omega

omit hdrives in
lemma requestsOn_runBh (src : ReqSrc) (f : Fabric μ) (x : Engine (μ × ℕ)) :
    requestsOn src (runBh (f.counting src).serviceBus x).trace = requestsOn src x.trace ++
      ((bhTakes (f.counting src).serviceBus x).map taken).filter fun r => r.2 = src := by
  have hrun := runBh_requests (requests_serviceBus (f.counting src)) x
  rw [requestsOn, hrun, filter_append]
  rfl

lemma heard_of_taken (hone : x.pending src +
      ((runBh (f.counting src).serviceBus x).mem.2 - x.mem.2) = 1) (h : x.st.Awaits src)
    (hv : v ∈ bhTakes (f.counting src).serviceBus x) (hmux : muxSrc (v.1.st.ch v.2).mux = src) :
    v ∈ bhVisits (f.counting src).serviceBus x ∧ v.1.st.Listens src v.2 ∧
      x.pending src + v.1.mem.2 = x.mem.2 + 1 := by
  obtain ⟨hvisit, helig⟩ := mem_bhTakes.mp hv
  have hsched := scheduled_of_mem_bhVisits hvisit
  obtain ⟨herq, -, hlevel, hgate⟩ := (v.1.st.eligible_iff v.2).mp helig
  rw [hmux] at hlevel hgate
  refine ⟨hvisit, ⟨herq, hmux, hgate⟩, ?_⟩
  obtain ⟨w, hw, -, hvisits⟩ := bhVisits_between hdrives hsched
  obtain ⟨hbefore, hafter⟩ := hvisits v hvisit
  have hle := (hbefore.account _ _ _ (Account.opened h.edge)).le
  have hgrown : x.takenOn src ≤ v.1.takenOn src := takenOn_le hbefore.trace
  have hup : v.1.pending src = 1 := by simp [pending, hlevel]
  -- the count does not run backwards from the visit to the end
  have hvedge := (hbefore.account _ _ _ (Account.opened h.edge)).edge
  have hlater := (hafter.account _ _ _ (serviceChannel_account hdrives v.2
    (Account.opened hvedge))).since
  have hmem : (runBh (f.counting src).serviceBus x).mem.2 = w.mem.2 := by rw [hw]
  omega

lemma runBh_one_pulse (hsrc : src ≠ 0) (h : x.st.Awaits src) (hone : x.pending src +
      ((runBh (f.counting src).serviceBus x).mem.2 - x.mem.2) = 1) :
    ((∃ v ∈ bhVisits (f.counting src).serviceBus x, v.1.st.Listens src v.2 ∧
      x.pending src + v.1.mem.2 = x.mem.2 + 1) →
      ∃ v ∈ bhTakes (f.counting src).serviceBus x, v.1.st.Listens src v.2 ∧
      requestsOn src (runBh (f.counting src).serviceBus x).trace =
      requestsOn src x.trace ++ [(v.2, src)] ∧
      (serviceChannel (f.counting src).serviceBus v.1 v.2).1.trace <+:
      (runBh (f.counting src).serviceBus x).trace) ∧
    ((¬ ∃ v ∈ bhVisits (f.counting src).serviceBus x, v.1.st.Listens src v.2 ∧
      x.pending src + v.1.mem.2 = x.mem.2 + 1) →
      requestsOn src (runBh (f.counting src).serviceBus x).trace = requestsOn src x.trace) := by
  obtain ⟨-, -, hatMost⟩ := runBh_taken hdrives h
  have hsplit := requestsOn_runBh src f x
  set onSrc := ((bhTakes (f.counting src).serviceBus x).map taken).filter
    fun r => r.2 = src with honSrc
  have hlength : (runBh (f.counting src).serviceBus x).takenOn src =
      x.takenOn src + onSrc.length := by
    rw [takenOn, hsplit, length_append]
    rfl
  have hsource : ∀ r ∈ onSrc, ∃ v ∈ bhTakes (f.counting src).serviceBus x,
      muxSrc (v.1.st.ch v.2).mux = src ∧ r = (v.2, src) := by
    intro r hr
    obtain ⟨htaken, hr⟩ := List.mem_filter.mp hr
    obtain ⟨v, hv, rfl⟩ := List.mem_map.mp htaken
    have hmux : muxSrc (v.1.st.ch v.2).mux = src := of_decide_eq_true hr
    exact ⟨v, hv, hmux, by rw [taken, hmux]⟩
  constructor
  · rintro ⟨v, hv, hlistens, hheard⟩
    have hsome := runBh_takes_heard hdrives hsrc h hv hlistens hheard
    have hsingle : onSrc.length = 1 := by omega
    obtain ⟨r, hr⟩ := List.length_eq_one_iff.mp hsingle
    obtain ⟨v, hv, hmux, hreq⟩ := hsource r (by simp [hr])
    obtain ⟨hvisit, hlistens, -⟩ := heard_of_taken hdrives hone h hv hmux
    have hsched := scheduled_of_mem_bhVisits hvisit
    obtain ⟨w, hw, -, hvisits⟩ := bhVisits_between hdrives hsched
    refine ⟨v, hv, hlistens, ?_, ?_⟩
    · rw [hsplit, hr, hreq]
    · rw [hw]
      exact (hvisits v hvisit).2.trace
  intro hnone
  have hnil : onSrc = [] := by
    by_contra hne
    obtain ⟨r, hr⟩ := exists_mem_of_ne_nil onSrc hne
    obtain ⟨v, hv, hmux, -⟩ := hsource r hr
    exact hnone ⟨v, heard_of_taken hdrives hone h hv hmux⟩
  rw [hsplit, hnil, append_nil]

lemma step_awaits (he : e.PulsesOnly src) (h : x.st.Awaits src) :
    (edmaStep (f.counting src) x e).st.Awaits src ∧ (edmaStep (f.counting src) x e).takenOn src +
      (edmaStep (f.counting src) x e).pending src ≤
      x.takenOn src + x.pending src + arrived src f x e := by
  cases e with
  | mmioWrite off v =>
    have hbooks := (account_engaged hdrives).edmaWrite (Account.opened h.edge) off v
    have hle := hbooks.le
    refine ⟨⟨hbooks.edge, write_lineWoken _ h.woken off v⟩, ?_⟩
    simp only [arrived, edmaStep] at *
    omega
  | input i =>
    have hbooks : (x.drive i).takenOn src = x.takenOn src := rfl
    have hwoken := i.drive_woken h.woken
    obtain ⟨hpulse, hlevel, hedge, -⟩ | ⟨hpulse, hlevel, hedge, -⟩ :=
      EdmaInput.drive_pulsesOnly he x.st
    · have hpend : (x.drive i).pending src = 1 := congrArg Bool.toNat hlevel
      refine ⟨⟨fun _ => hedge, hwoken⟩, ?_⟩
      simp only [arrived, edmaStep]
      omega
    have hpend : (x.drive i).pending src = x.pending src := congrArg Bool.toNat hlevel
    refine ⟨⟨fun hraised => ?_, hwoken⟩, ?_⟩
    · exact hedge.trans (h.edge (hlevel.symm.trans hraised))
    · simp only [arrived, edmaStep]
      omega
  | bh =>
    obtain ⟨hlow, hcount, htaken⟩ := runBh_taken hdrives h
    have hdown : (runBh (f.counting src).serviceBus x).pending src = 0 := by
      simp [Engine.pending, hlow]
    refine ⟨⟨fun hup => ?_, fun hup => ?_⟩, ?_⟩
    · exact absurd (hlow.symm.trans hup) Bool.false_ne_true
    · exact absurd (hlow.symm.trans hup) Bool.false_ne_true
    · simp only [arrived, edmaStep]
      omega
  | world mem => exact ⟨h, le_rfl⟩
  | reset =>
    have hlow := Bool.false_ne_true
    refine ⟨⟨fun hup => absurd hup hlow, fun hup => absurd hup hlow⟩, ?_⟩
    have hdown : (edmaStep (f.counting src) x .reset).pending src = 0 := rfl
    have hsame : (edmaStep (f.counting src) x .reset).takenOn src =
      x.takenOn src := rfl
    omega

lemma run_awaits (hevents : ∀ e ∈ events, e.PulsesOnly src) (h : x.st.Awaits src) :
    (run (edmaStep (f.counting src)) x events).st.Awaits src ∧
      (run (edmaStep (f.counting src)) x events).takenOn src +
      (run (edmaStep (f.counting src)) x events).pending src ≤
      x.takenOn src + x.pending src + arrivals src f x events := by
  induction events generalizing x with
  | nil => exact ⟨h, le_rfl⟩
  | cons e rest ih =>
    obtain ⟨hnext, hstep⟩ := step_awaits hdrives (hevents e mem_cons_self) h
    obtain ⟨hend, hrest⟩ := ih (fun e he => hevents e (mem_cons_of_mem _ he)) hnext
    refine ⟨hend, ?_⟩
    rw [run_cons, arrivals]
    omega

lemma step_between (he : e.PulsesOnly src) (hbetween : e.Between) (h : x.st.Awaits src)
    (hone : x.pending src + arrived src f x e ≤ 1) :
    requestsOn src (edmaStep (f.counting src) x e).trace = requestsOn src x.trace ∧
      (edmaStep (f.counting src) x e).pending src = x.pending src + arrived src f x e := by
  cases e with
  | mmioWrite off v =>
    have hrequests := (requests_engagedBus (f.counting src)
      (requests x.trace)).edmaWrite (x := x) rfl off v
    have hsame : requestsOn src (edmaWrite (f.counting src).engagedBus x off v).trace =
          requestsOn src x.trace := by
      rw [requestsOn, hrequests]
      rfl
    have hbooks := (account_engaged hdrives).edmaWrite (Account.opened h.edge) off v
    have hsince := hbooks.since
    have hexact := hbooks.eq
    have htaken : (edmaWrite (f.counting src).engagedBus x off v).takenOn src =
        x.takenOn src := congrArg List.length hsame
    refine ⟨hsame, ?_⟩
    simp only [arrived, edmaStep] at *
    omega
  | input i =>
    refine ⟨rfl, ?_⟩
    simp only [arrived] at hone ⊢
    obtain ⟨hpulse, hlevel, -⟩ | ⟨hpulse, hlevel, -⟩ := EdmaInput.drive_pulsesOnly he x.st
    · have hpend : (x.drive i).pending src = 1 := congrArg Bool.toNat hlevel
      change (x.drive i).pending src = _
      omega
    have hpend : (x.drive i).pending src = x.pending src := congrArg Bool.toNat hlevel
    change (x.drive i).pending src = _
    omega
  | bh => exact hbetween.elim
  | world mem => exact ⟨rfl, rfl⟩
  | reset => exact hbetween.elim

lemma run_between (hevents : ∀ e ∈ events, e.PulsesOnly src ∧ e.Between)
    (h : x.st.Awaits src) (hone : x.pending src + arrivals src f x events ≤ 1) :
    requestsOn src (run (edmaStep (f.counting src)) x events).trace = requestsOn src x.trace ∧
      (run (edmaStep (f.counting src)) x events).pending src =
      x.pending src + arrivals src f x events := by
  induction events generalizing x with
  | nil => exact ⟨rfl, rfl⟩
  | cons e rest ih =>
    obtain ⟨hkind, hbetween⟩ := hevents e mem_cons_self
    rw [arrivals] at hone ⊢
    obtain ⟨htrace, hpend⟩ := step_between hdrives hkind hbetween h (by omega)
    obtain ⟨hrest, hend⟩ := ih (fun e he => hevents e (mem_cons_of_mem _ he))
      (step_awaits hdrives hkind h).1 (by omega)
    rw [run_cons]
    exact ⟨hrest.trans htrace, by omega⟩

lemma pending_after_bh (dmaId : Byte) (mem : μ) {history : List (EdmaEvent (μ × ℕ))}
    (hhistory : ∀ e ∈ history, e.PulsesOnly src)
    (hserv : history = [] ∨ ∃ before, history = before ++ [.bh]) :
    (run (edmaStep (f.counting src)) (powerOn dmaId (mem, 0)) history).pending src = 0 := by
  obtain rfl | ⟨before, rfl⟩ := hserv
  · rfl
  have hbefore := (run_awaits (x := powerOn dmaId (mem, 0)) hdrives
    (fun e he => hhistory e (mem_append_left _ he)) ⟨nofun, nofun⟩).1
  rw [run_append, run_cons, run_nil]
  have hlow := (runBh_taken hdrives hbefore).1
  simp only [edmaStep, pending, hlow]
  rfl

end

/-- A source driven only by pulses, and a bottom half that has run since the pulse
before: a pulse that arrives before the next bottom half or during it is taken as
one request if that bottom half, once the pulse is there, comes to a channel that
listens, and is not taken otherwise.  Whatever happens later, requests on the
source are for later pulses. -/
theorem pulse_taken_once {src : ReqSrc} (hsrc : src ≠ 0) {f : Fabric μ}
    (hdrives : f.Drives (EdmaInput.PulsesOnly src)) (dmaId : Byte) (mem : μ)
    {history window : List (EdmaEvent (μ × ℕ))}
    (hhistory : ∀ e ∈ history, e.PulsesOnly src)
    (hserved : history = [] ∨ ∃ before, history = before ++ [.bh])
    (hwindow : ∀ e ∈ window, e.PulsesOnly src ∧ e.Between)
    {x y z : Engine (μ × ℕ)}
    (hx : x = run (edmaStep (f.counting src)) (powerOn dmaId (mem, 0)) history)
    (hy : y = run (edmaStep (f.counting src)) x window)
    (hz : z = edmaStep (f.counting src) y .bh)
    (hone : arrivals src f x (window ++ [.bh]) = 1) :
    requestsOn src y.trace = requestsOn src x.trace ∧
    ((∃ v ∈ bhVisits (f.counting src).serviceBus y, v.1.st.Listens src v.2 ∧
        arrivals src f x window + v.1.mem.2 = y.mem.2 + 1) →
      ∃ v ∈ bhTakes (f.counting src).serviceBus y, v.1.st.Listens src v.2 ∧
        requestsOn src z.trace = requestsOn src y.trace ++ [(v.2, src)] ∧
        ((v.1.st.ch v.2).Accepted → v.1.trace ++ [.request v.2 src, .minor v.2] <+: z.trace) ∧
        (¬ (v.1.st.ch v.2).Accepted → (serviceChannel (f.counting src).serviceBus v.1 v.2).1.trace =
            v.1.trace ++ [.request v.2 src])) ∧
    ((¬ ∃ v ∈ bhVisits (f.counting src).serviceBus y, v.1.st.Listens src v.2 ∧
        arrivals src f x window + v.1.mem.2 = y.mem.2 + 1) →
      requestsOn src z.trace = requestsOn src y.trace) ∧
    ∀ later, (∀ e ∈ later, e.PulsesOnly src) →
      (requestsOn src (run (edmaStep (f.counting src)) z later).trace).length ≤
        (requestsOn src z.trace).length + arrivals src f z later := by
  have hawaits : x.st.Awaits src := by
    rw [hx]
    exact (run_awaits (x := powerOn dmaId (mem, 0)) hdrives hhistory ⟨nofun, nofun⟩).1
  have hdown : x.pending src = 0 := by
    rw [hx]
    exact pending_after_bh hdrives dmaId mem hhistory hserved
  have hsplit : arrivals src f x window +
      ((runBh (f.counting src).serviceBus y).mem.2 - y.mem.2) = 1 := by
    rwa [arrivals_append, ← hy] at hone
  obtain ⟨hbefore, hpending⟩ := run_between hdrives hwindow hawaits (by omega)
  rw [← hy] at hbefore hpending
  rw [hdown, Nat.zero_add] at hpending
  have hyawaits : y.st.Awaits src := by
    rw [hy]
    exact (run_awaits hdrives (fun e he => (hwindow e he).1) hawaits).1
  have hz' : z = runBh (f.counting src).serviceBus y := hz
  rw [← hpending] at hsplit ⊢
  obtain ⟨hheard, hunheard⟩ := runBh_one_pulse hdrives hsrc hyawaits hsplit
  rw [← hz'] at hheard hunheard
  refine ⟨hbefore, ?_, hunheard, ?_⟩
  · intro hlisteners
    obtain ⟨v, hv, hlistens, hrequest, hprefix⟩ := hheard hlisteners
    obtain ⟨hminor, hrefused⟩ := serviceChannel_minor (f.counting src) (mem_bhTakes.mp hv).2
    rw [hlistens.2.1] at hminor hrefused
    exact ⟨v, hv, hlistens, hrequest, fun ha => (hminor ha).trans hprefix, hrefused⟩
  intro later hlater
  have hlow : z.pending src = 0 := by
    have hbh := (runBh_taken hdrives hyawaits).1
    rw [← hz'] at hbh
    simp [pending, hbh]
  have hzawaits : z.st.Awaits src := by
    rw [hz]
    exact (step_awaits (e := .bh) hdrives trivial hyawaits).1
  have hbound := (run_awaits hdrives hlater hzawaits).2
  simp only [takenOn, hlow] at hbound
  omega

end Steps

def armOneByte : List (EdmaEvent (Unit × ℕ)) :=
  [.mmioWrite 0x1014 1, .mmioWrite 0x1000 1, .mmioWrite 0x1028 1,
    .mmioWrite 0x1036 1, .input (.reqPulse 1 true)]

lemma idleFabric_drives (kind : EdmaInput → Prop) : idleFabric.Drives kind :=
  ⟨fun _ _ _ _ _ h => (nomatch h), fun _ _ _ _ _ h => (nomatch h)⟩

theorem pulse_taken_once_armOneByte : ∃ n, requestsOn 1 (edmaStep (idleFabric.counting 1)
      (run (edmaStep (idleFabric.counting 1)) (powerOn 0 ((), 0))
        armOneByte) .bh).trace = [(n, 1)] := by
  have hscheduled : (run (edmaStep (idleFabric.counting 1))
      (powerOn 0 ((), 0)) armOneByte).st.bhScheduled = true := by
    decide +kernel
  have hhistory : ∀ e ∈ ([] : List (EdmaEvent (Unit × ℕ))), e.PulsesOnly 1 := by
    simp
  have hwindow : ∀ e ∈ armOneByte, e.PulsesOnly 1 ∧ e.Between := by
    simp [armOneByte, EdmaEvent.PulsesOnly, EdmaInput.PulsesOnly, EdmaEvent.Between]
  obtain ⟨hbefore, hheard, -⟩ := pulse_taken_once (by decide)
    (idleFabric_drives _) 0 () hhistory (.inl rfl) hwindow rfl rfl rfl
    (by decide +kernel)
  obtain ⟨v, -, -, hrequest, -⟩ := hheard
    ⟨({ run (edmaStep (idleFabric.counting 1)) (powerOn 0 ((), 0))
        armOneByte with st := _ }, 0),
      by
        exact mem_append_left _ mem_cons_self,
      by
        unfold EdmaState.Listens
        decide +kernel,
      by decide +kernel⟩
  exact ⟨v.2, hrequest⟩

theorem pulse_refused_without_minor_loop : (run (edmaStep idleFabric) (powerOn 0 ())
      [.mmioWrite 0x1014 1, .mmioWrite 0x1000 1, .input (.reqPulse 1 true)]).st.Listens 1 0 ∧
    requestsOn 1 (run (edmaStep idleFabric) (powerOn 0 ())
      [.mmioWrite 0x1014 1, .mmioWrite 0x1000 1, .input (.reqPulse 1 true), .bh]).trace = [(0, 1)] ∧
    ∀ n, .minor n ∉ (run (edmaStep idleFabric) (powerOn 0 ())
      [.mmioWrite 0x1014 1, .mmioWrite 0x1000 1, .input (.reqPulse 1 true), .bh]).trace := by
  refine ⟨?_, ?_, ?_⟩
  · unfold EdmaState.Listens
    decide +kernel
  · decide +kernel
  · decide +kernel

end Mcxn947.Edma
