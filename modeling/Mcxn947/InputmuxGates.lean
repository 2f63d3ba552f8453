import Mcxn947.InputmuxModel
import Mcxn947.EdmaRequests

/-!
# The request gates

INPUTMUX holds the gates of both eDMAs in registers, the eDMAs hold them in `reqEnabled`,
and the two copies are reset separately.
-/

namespace Mcxn947.Inputmux

open MachineWords EventRuns Edma Function

variable {ρ : Type}

def gate (s : InputMuxState) (dma : Fin 2) (src : ReqSrc) : Bool :=
  (mcxnInputmuxRead s (reqEnable dma ⟨src / 32, by omega⟩)).getLsbD (src % 32)

structure Soc (ρ : Type) where
  mux : InputMuxState
  dma : Fin 2 → EdmaState
  rest : ρ

def applyGate (dmas : Fin 2 → EdmaState) (g : GateDrive) : Fin 2 → EdmaState :=
  Function.update dmas g.dma (mcxnEdmaReqEnable (dmas g.dma) g.src g.level)

variable (s : EdmaState) (x : Soc ρ)

def Soc.muxWrite (offset : MuxOffset) (v : Word) : Soc ρ :=
  let (mux, drives) := mcxnInputmuxWrite x.mux offset v
  { x with mux := mux, dma := drives.foldl applyGate x.dma }

def IsRequest : EdmaInput → Prop
  | .req _ _ | .reqPulse _ _ => True
  | .reqEnable _ _ => False

abbrev RequestInput := { i : EdmaInput // IsRequest i }

def Soc.setDma (k : Fin 2) (s : EdmaState) : Soc ρ := { x with dma := Function.update x.dma k s }

def Soc.request (k : Fin 2) (i : RequestInput) : Soc ρ := x.setDma k (i.val.drive (x.dma k))

def Soc.machineReset : Soc ρ :=
  { x with mux := mcxnInputmuxReset, dma := fun k => mcxnEdmaReset (x.dma k) }

/-- What an access of one eDMA sets off.  The other eDMA's registers can change
under it, by a write to its window and the transfer that starts there, but its
inputs only through their drivers. -/
inductive SocAction (ρ : Type) where
  | muxWrite (offset : MuxOffset) (v : Word)
  | request (k : Fin 2) (i : RequestInput)
  | peerRegs (f : { f : EdmaState → EdmaState // ∀ s : EdmaState, s.SameInputs (f s) })
  | ownWrite (off : ℕ) (v : Word)
  | rest (r : ρ)

structure SocBus (ρ : Type) where
  read : Fin 2 → Soc ρ → Word → (size : ℕ) → Vector Byte size × Bool × List (SocAction ρ)
  write : Fin 2 → Soc ρ → Word → List Byte → List (SocAction ρ)

def restored (k : Fin 2) (e : Engine (Soc ρ)) : Soc ρ := e.mem.setDma k e.st

def engine (k : Fin 2) : Engine (Soc ρ) := ⟨x.dma k, x, []⟩

def onSoc (k : Fin 2) (e : Engine (Soc ρ)) (f : Soc ρ → Soc ρ) : Engine (Soc ρ) :=
  { e with st := (f (restored k e)).dma k, mem := f (restored k e) }

def SocAction.perform (own : Engine (Soc ρ) → ℕ → Word → Engine (Soc ρ))
    (k : Fin 2) (e : Engine (Soc ρ)) : SocAction ρ → Engine (Soc ρ)
  | .muxWrite offset v => onSoc k e fun x => x.muxWrite offset v
  | .request d i => onSoc k e fun x => x.request d i
  | .peerRegs f => onSoc k e fun x => x.setDma k.rev (f.val (x.dma k.rev))
  | .ownWrite off v => own e off v
  | .rest r => onSoc k e fun x => { x with rest := r }

def SocBus.busWith (b : SocBus ρ) (own : Engine (Soc ρ) → ℕ → Word → Engine (Soc ρ)) (k : Fin 2) :
    Bus (Soc ρ) where
  read e addr size :=
    let (data, ok, actions) := b.read k (restored k e) addr size
    (actions.foldl (SocAction.perform own k) e, data, ok)
  write e addr data := (b.write k (restored k e) addr data).foldl (SocAction.perform own k) e

def SocBus.engagedBus (b : SocBus ρ) (k : Fin 2) : Bus (Soc ρ) := b.busWith (fun e _ _ => e) k

def SocBus.serviceBus (b : SocBus ρ) (k : Fin 2) : Bus (Soc ρ) :=
  b.busWith (fun e off v => edmaWrite (b.engagedBus k) e off v) k

inductive SocEvent (ρ : Type) where
  | muxWrite (offset : MuxOffset) (v : Word)
  | edmaWrite (k : Fin 2) (off : ℕ) (v : Word)
  | bh (k : Fin 2)
  | request (k : Fin 2) (i : RequestInput)
  | rest (r : ρ)
  | machineReset

def socStep (b : SocBus ρ) (x : Soc ρ) : SocEvent ρ → Soc ρ
  | .muxWrite offset v => x.muxWrite offset v
  | .edmaWrite k off v => restored k (edmaWrite (b.engagedBus k) (engine x k) off v)
  | .bh k => restored k (runBh (b.serviceBus k) (engine x k))
  | .request k i => x.request k i
  | .rest r => { x with rest := r }
  | .machineReset => x.machineReset

lemma bankAlias_none {base offset : ℕ} (h : bankAlias base offset = none) :
    offset < base ∨ base + 0x40 ≤ offset := by
  unfold bankAlias at h
  split at h
  · cases h
  · omega

variable {offset : MuxOffset} {bank : Fin 4} {dma : Fin 2} {src : ReqSrc}

lemma imDecodeReqEnable_none (h : imDecodeReqEnable offset = none) (dma : Fin 2) (bank : Fin 4) :
    regIdx (reqEnable dma bank) ≠ regIdx offset := by
  unfold imDecodeReqEnable at h
  cases hzero : bankAlias imDma0ReqEnable0 offset with
  | some v => simp [hzero] at h
  | none =>
    cases hone : bankAlias imDma1ReqEnable0 offset with
    | some v => simp [hzero, hone] at h
    | none =>
      have hbelow := bankAlias_none hzero
      have habove := bankAlias_none hone
      simp only [imDma0ReqEnable0, imDma1ReqEnable0] at hbelow habove
      simp only [regIdx, reqEnable, ne_eq, Fin.mk.injEq]
      split <;> omega

lemma regIdx_reqEnable_inj {dma' : Fin 2} {bank' : Fin 4} :
    regIdx (reqEnable dma bank) = regIdx (reqEnable dma' bank') ↔ dma = dma' ∧ bank = bank' := by
  simp only [regIdx, reqEnable, Fin.mk.injEq]
  constructor
  · intro h
    split at h <;> split at h <;> omega
  · rintro ⟨rfl, rfl⟩
    rfl

variable (v : Word)

lemma read_set_of_ne {s : InputMuxState} {offset' : MuxOffset}
    (h : regIdx offset' ≠ regIdx offset) :
    mcxnInputmuxRead (s.set offset v) offset' = mcxnInputmuxRead s offset' :=
  update_of_ne h _ _

lemma edmaReqEnable_reqEnabled (src : ReqSrc) (level : Bool) :
    (mcxnEdmaReqEnable s src.val level).reqEnabled = update s.reqEnabled src level := by
  have hsrc : reqSrc? (src.val : ℤ) = some src := reqSrc_val src
  unfold mcxnEdmaReqEnable
  simp only [hsrc]
  split
  next hsame => rw [← hsame, update_eq_self]
  · split <;> rfl

lemma foldl_applyGate_reqEnabled (dma : Fin 2) (level : ℕ → Bool)
    (srcs : List ℕ) (hsrcs : ∀ src ∈ srcs, src < 128)
    (dmas : Fin 2 → EdmaState) (d : Fin 2) (j : ReqSrc) :
    (((srcs.map fun src => ⟨dma, src, level src⟩).foldl applyGate dmas) d).reqEnabled j =
      if d = dma ∧ j.val ∈ srcs then level j else (dmas d).reqEnabled j := by
  induction srcs generalizing dmas with
  | nil => simp
  | cons src rest ih =>
    have hsrc : src < 128 := hsrcs src List.mem_cons_self
    have hone : (applyGate dmas ⟨dma, src, level src⟩ d).reqEnabled j =
        if d = dma ∧ j.val = src then level src else (dmas d).reqEnabled j := by
      unfold applyGate
      by_cases hd : d = dma
      · subst hd
        have hset := edmaReqEnable_reqEnabled (dmas d) ⟨src, hsrc⟩ (level src)
        rw [update_self, hset, update_apply]
        simp [Fin.ext_iff]
      · simp [hd]
    rw [List.map_cons, List.foldl_cons, ih (fun s hs => hsrcs s (List.mem_cons_of_mem _ hs)), hone]
    by_cases hd : d = dma
    · by_cases hj : j.val = src <;> simp [hd, hj]
    · simp [hd]

def bankSrcs (bank : Fin 4) : List ℕ := (List.range 32).map (bank * 32 + ·)

lemma mem_bankSrcs {src : ℕ} : src ∈ bankSrcs bank ↔ src / 32 = bank := by
  simp only [bankSrcs, List.mem_map, List.mem_range]
  constructor
  · rintro ⟨i, hi, rfl⟩
    omega
  · intro h
    exact ⟨src % 32, by omega, by omega⟩

section

variable (s : InputMuxState) (dma : Fin 2) (bank : Fin 4)

lemma imPushReqEnable_eq : imPushReqEnable s dma bank = (bankSrcs bank).map fun src =>
      ⟨dma, src, (mcxnInputmuxRead s (reqEnable dma bank)).getLsbD (src % 32)⟩ := by
  unfold imPushReqEnable bankSrcs
  rw [List.map_map, ← List.filterMap_eq_map]
  apply List.filterMap_congr
  intro i hi
  have hlt : i < 32 := List.mem_range.mp hi
  have hsrc : bank * 32 + i < nreq := by
    simp only [nreq]
    omega
  have hmod : (bank * 32 + i) % 32 = i := by omega
  simp [if_pos hsrc, hmod]

lemma foldl_imPushReqEnable (dmas : Fin 2 → EdmaState) (d : Fin 2) (src : ReqSrc) :
    (((imPushReqEnable s dma bank).foldl applyGate dmas) d).reqEnabled src =
      if d = dma ∧ src / 32 = bank.val then gate s d src else (dmas d).reqEnabled src := by
  have hbound : ∀ src ∈ bankSrcs bank, src < 128 := by
    intro src hsrc
    have := mem_bankSrcs.mp hsrc
    omega
  have hfold := foldl_applyGate_reqEnabled dma
    (fun src => (mcxnInputmuxRead s (reqEnable dma bank)).getLsbD (src % 32))
    (bankSrcs bank) hbound dmas d src
  rw [imPushReqEnable_eq, hfold]
  simp only [mem_bankSrcs]
  split
  next hhere =>
    obtain ⟨rfl, hbank⟩ := hhere
    have hidx : (⟨src / 32, by omega⟩ : Fin 4) = bank := Fin.ext hbank
    rw [gate, hidx]
  · rfl

end

def Soc.Gated : Prop :=
  ∀ (k : Fin 2) (src : ReqSrc), src.val < 122 → (x.dma k).reqEnabled src = gate x.mux k src

lemma gate_set_of_ne {s : InputMuxState} {k : Fin 2}
    (h : regIdx (reqEnable k ⟨src / 32, by omega⟩) ≠ regIdx offset) :
    gate (s.set offset v) k src = gate s k src := by
  unfold gate
  rw [read_set_of_ne v h]

lemma Soc.Gated.muxWrite {x : Soc ρ} (h : x.Gated) (offset : MuxOffset)
    (v : Word) : (x.muxWrite offset v).Gated := by
  intro k src hsrc
  unfold Soc.muxWrite mcxnInputmuxWrite
  cases hdecode : imDecodeReqEnable offset with
  | none =>
    rw [gate_set_of_ne v (imDecodeReqEnable_none hdecode k _)]
    exact h k src hsrc
  | some place =>
    obtain ⟨dma, bank, aliasIdx⟩ := place
    rw [foldl_imPushReqEnable]
    split
    · rfl
    rename_i helsewhere
    rw [gate_set_of_ne, h k src hsrc]
    rw [ne_eq, regIdx_reqEnable_inj]
    intro hhere
    exact helsewhere ⟨hhere.1, congrArg Fin.val hhere.2⟩

lemma Soc.muxWrite_other {d : Fin 2} {aliasIdx : Fin 4}
    (hdecode : imDecodeReqEnable offset = some (dma, bank, aliasIdx)) (hd : d ≠ dma) :
    ((x.muxWrite offset v).dma d).reqEnabled = (x.dma d).reqEnabled := by
  funext src
  unfold Soc.muxWrite mcxnInputmuxWrite
  rw [hdecode]
  rw [foldl_imPushReqEnable, if_neg (fun h => hd h.1)]

lemma Soc.Gated.setDma {x : Soc ρ} (h : x.Gated) (k : Fin 2) {s : EdmaState}
    (hs : s.reqEnabled = (x.dma k).reqEnabled) : (x.setDma k s).Gated := by
  intro d src hsrc
  have hgate := h d src hsrc
  unfold Soc.setDma
  dsimp only
  rw [update_apply]
  split
  next hd =>
    rw [hs, ← hd]
    exact hgate
  · exact hgate

lemma request_reqEnabled {i : EdmaInput} (hi : IsRequest i) :
    (i.drive s).reqEnabled = s.reqEnabled := by
  cases i with
  | req src level =>
    unfold EdmaInput.drive mcxnEdmaReq
    dsimp only
    split
    · rfl
    · split <;> rfl
  | reqPulse src level =>
    unfold EdmaInput.drive mcxnEdmaReqPulse
    dsimp only
    split
    · rfl
    · split <;> rfl
  | reqEnable src level => cases hi

lemma Soc.Gated.request {x : Soc ρ} (h : x.Gated) (k : Fin 2)
    (i : RequestInput) : (x.request k i).Gated :=
  h.setDma k (request_reqEnabled _ i.property)

variable (k : Fin 2)

lemma read_reset_reqEnable (bank : Fin 4) : mcxnInputmuxRead mcxnInputmuxReset (reqEnable k bank) =
      if bank = 3 then 0x3FFFFFF else 0xFFFFFFFF := by
  revert k bank
  decide

lemma gate_reset (hsrc : src.val < 122) : gate mcxnInputmuxReset k src := by
  have hbits : ∀ src : Fin 122, (if src.val / 32 = 3 then 0x3FFFFFF#32 else 0xFFFFFFFF#32).getLsbD
        (src % 32) = true := by decide
  rw [gate, read_reset_reqEnable]
  simpa [Fin.ext_iff] using hbits ⟨src.val, hsrc⟩

lemma Soc.machineReset_gated : x.machineReset.Gated := by
  intro k src hsrc
  exact (gate_reset k hsrc).symm

lemma restored_onSoc (e : Engine (Soc ρ)) (f : Soc ρ → Soc ρ) :
    restored k (onSoc k e f) = f (restored k e) := by
  simp [restored, onSoc, Soc.setDma]

lemma restored_engine : restored k (engine x k) = x := by simp [restored, engine, Soc.setDma]

lemma gated_restate {k : Fin 2} {e : Engine (Soc ρ)} (st : EdmaState)
    (trace : List BusMark) (hst : st.reqEnabled = e.st.reqEnabled)
    (h : (restored k e).Gated) : (restored k ⟨st, e.mem, trace⟩).Gated := by
  have hset : restored k ⟨st, e.mem, trace⟩ = (restored k e).setDma k st := by
    simp [restored, Soc.setDma]
  rw [hset]
  apply h.setDma
  simpa [restored, Soc.setDma] using hst

section Bus

open SocAction

variable (b : SocBus ρ) {k : Fin 2}
  {own : Engine (Soc ρ) → ℕ → Word → Engine (Soc ρ)}

lemma perform_gated (hown : ∀ e off v, (restored k e).Gated → (restored k (own e off v)).Gated)
    {e : Engine (Soc ρ)} (h : (restored k e).Gated) (a : SocAction ρ) :
    (restored k (a.perform own k e)).Gated := by
  cases a with
  | muxWrite offset v =>
    rw [perform, restored_onSoc]
    exact h.muxWrite offset v
  | request d i =>
    rw [perform, restored_onSoc]
    exact h.request d i
  | peerRegs f =>
    rw [perform, restored_onSoc]
    exact h.setDma k.rev (f.property _).reqEnabled
  | ownWrite off v => exact hown e off v h
  | rest r =>
    rw [perform, restored_onSoc]
    exact h

lemma gated_busWith (hown : ∀ e off v, (restored k e).Gated → (restored k (own e off v)).Gated) :
    ServiceInvariant (b.busWith own k) fun e => (restored k e).Gated := by
  have hactions : ∀ (actions : List (SocAction ρ)) (e : Engine (Soc ρ)), (restored k e).Gated →
      (restored k (actions.foldl (perform own k) e)).Gated := by
    intro actions e h
    exact run_invariant (P := fun e => (restored k e).Gated)
      (fun e a h => perform_gated hown h a) h actions
  exact
    { own := fun e st log hsame _ h => gated_restate st _ hsame.reqEnabled h
      read := fun e addr size h => hactions _ e h
      write := fun e addr data h => hactions _ e h
      take := fun e _ _ h => h
      ack := fun e _ _ h => gated_restate (e.st.setLevel _ false) e.trace rfl h
      drop := fun e h => gated_restate e.st.dropEdges e.trace rfl h }

lemma gated_engaged (k : Fin 2) : ServiceInvariant (b.engagedBus k) fun e => (restored k e).Gated :=
  gated_busWith b fun _ _ _ h => h

lemma gated_service (k : Fin 2) : ServiceInvariant (b.serviceBus k) fun e => (restored k e).Gated :=
  gated_busWith b fun _ off v h => (gated_engaged b k).edmaWrite h off v

lemma requests_busWith {r : List (ChanIdx × ReqSrc)}
    (hown : ∀ (e : Engine (Soc ρ)) off v, requests e.trace = r → requests (own e off v).trace = r) :
    BusInvariant (b.busWith own k) fun e => requests e.trace = r := by
  have hactions : ∀ (actions : List (SocAction ρ)) (e : Engine (Soc ρ)), requests e.trace = r →
      requests (actions.foldl (perform own k) e).trace = r := by
    intro actions e h
    apply run_invariant (P := fun e : Engine (Soc ρ) => requests e.trace = r) _ h
    intro e a h
    cases a with
    | ownWrite off v => exact hown e off v h
    | _ => exact h
  exact
    { own := fun e st log _ hlog h => by
        rw [requests_append, hlog, List.append_nil, h]
      read := fun e addr size h => hactions _ e h
      write := fun e addr data h => hactions _ e h }

section

variable (k : Fin 2) (r : List (ChanIdx × ReqSrc))

lemma requests_engaged : BusInvariant (b.engagedBus k) fun e => requests e.trace = r :=
  requests_busWith b fun _ _ _ h => h

lemma requests_service : BusInvariant (b.serviceBus k) fun e => requests e.trace = r :=
  requests_busWith b fun _ off v h => (requests_engaged b k r).edmaWrite h off v

end

end Bus

lemma socStep_gated (b : SocBus ρ) {x : Soc ρ} (h : x.Gated) (e : SocEvent ρ) :
    (socStep b x e).Gated := by
  have hengine : ∀ k, (restored k (engine x k)).Gated := by
    intro k
    rw [restored_engine]
    exact h
  cases e with
  | muxWrite offset v => exact h.muxWrite offset v
  | edmaWrite k off v => exact (gated_engaged b k).edmaWrite (hengine k) off v
  | bh k => exact (gated_service b k).runBh (hengine k)
  | request k i => exact h.request k i
  | rest r => exact h
  | machineReset => exact x.machineReset_gated

lemma eligible_reqEnabled {s : EdmaState} {n : ChanIdx}
    (h : s.eligible n) : s.reqEnabled (muxSrc (s.ch n).mux) := by
  unfold EdmaState.eligible at h
  simp only [Bool.and_eq_true] at h
  exact h.2

/-- In every state after a machine reset: each gate is the register bit the
guest reads; a write to one eDMA's gate registers leaves the other's gates
alone; and every hardware request taken by a bottom half, which is where all of
them are taken, finds its register bit set. -/
theorem inputmux_gates_requests (b : SocBus ρ) (start : Soc ρ) (events : List (SocEvent ρ)) :
    (∀ (k : Fin 2) (src : ReqSrc), src.val < 122 →
      ((run (socStep b) start.machineReset events).dma k).reqEnabled src =
        gate (run (socStep b) start.machineReset events).mux k src) ∧
    (∀ (offset : MuxOffset) (v : Word) (dma d : Fin 2) (bank aliasIdx : Fin 4),
      imDecodeReqEnable offset = some (dma, bank, aliasIdx) → d ≠ dma →
      (((run (socStep b) start.machineReset events).muxWrite offset v).dma d).reqEnabled =
        ((run (socStep b) start.machineReset events).dma d).reqEnabled) ∧
    (∀ k : Fin 2, requests (runBh (b.serviceBus k)
          (engine (run (socStep b) start.machineReset events) k)).trace =
        (bhTakes (b.serviceBus k)
          (engine (run (socStep b) start.machineReset events) k)).map taken ∧
      ∀ take ∈ bhTakes (b.serviceBus k) (engine (run (socStep b) start.machineReset events) k),
        (taken take).2.val < 122 → gate take.1.mem.mux k (taken take).2 = true) ∧
    (∀ (k : Fin 2) (off : ℕ) (v : Word), requests (edmaWrite (b.engagedBus k)
        (engine (run (socStep b) start.machineReset events) k) off v).trace = []) := by
  set x := run (socStep b) start.machineReset events
  have hgated : x.Gated := run_invariant (P := Soc.Gated) (fun y e h => socStep_gated b h e)
      start.machineReset_gated events
  refine ⟨hgated, ?_, ?_, ?_⟩
  · intro offset v dma d bank aliasIdx hdecode hd
    exact x.muxWrite_other v hdecode hd
  · intro k
    constructor
    · exact runBh_requests (requests_service b k) (engine x k)
    intro take htake hsrc
    have hengine : (restored k (engine x k)).Gated := by
      rw [restored_engine]
      exact hgated
    obtain ⟨htaken, heligible⟩ := (gated_service b k).bhTakes hengine htake
    have hcopy := htaken k (taken take).2 hsrc
    have hopen := eligible_reqEnabled heligible
    simp only [restored, Soc.setDma, update_self] at hcopy
    rw [← hcopy]
    exact hopen
  · intro k off v
    exact (requests_engaged b k []).edmaWrite (x := engine x k) rfl off v

def quietBus : SocBus Unit where
  read _ _ _ _ := (.replicate _ 0, true, [])
  write _ _ _ _ := []

def createdSoc : Soc Unit := ⟨mcxnInputmuxReset, fun k => EdmaState.created (BitVec.ofNat 8 k), ()⟩

theorem inputmux_gates_requests_closed : ((run (socStep quietBus) createdSoc.machineReset
      [.muxWrite 0x798 0x20]).dma 1).reqEnabled 37 = false :=
  ((inputmux_gates_requests quietBus createdSoc [.muxWrite 0x798 0x20]).1 1 37
    (by decide)).trans (by decide)

end Mcxn947.Inputmux
