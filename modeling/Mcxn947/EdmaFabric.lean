import Mcxn947.EdmaEngineMoves

/-!
# The engine in the machine

Whatever an access of the engine hits can act on the engine in two ways only: by driving its
request inputs, or, when the access decodes to the engine's own window, by a register write.
-/

namespace Mcxn947.Edma

open MachineWords EventRuns Function

inductive EdmaInput where
  | req (src : ℤ) (level : Bool)
  | reqEnable (src : ℤ) (level : Bool)
  | reqPulse (src : ℤ) (level : Bool)
deriving DecidableEq

variable (s : EdmaState) (i : ReqSrc)

def EdmaInput.drive : EdmaInput → EdmaState
  | .req src level => mcxnEdmaReq s src level
  | .reqEnable src level => mcxnEdmaReqEnable s src level
  | .reqPulse src level => mcxnEdmaReqPulse s src level

lemma reqSrc_val : reqSrc? (i.val : ℤ) = some i := by
  have hrange : (0 : ℤ) ≤ i.val ∧ (i.val : ℤ) < 128 := by omega
  unfold reqSrc?
  simp

def EdmaInput.source? : EdmaInput → Option ReqSrc
  | .req src _ | .reqPulse src _ => reqSrc? src
  | .reqEnable _ _ => none

lemma drive_req_reqLevel (level : Bool) : (EdmaInput.drive s (.req i.val level)).reqLevel =
      Function.update s.reqLevel i level := by
  cases level <;> simp [EdmaInput.drive, mcxnEdmaReq, reqSrc_val,
    EdmaState.setLevel, EdmaState.scheduleBh]

lemma drive_req_reqEdge (level : Bool) :
    (EdmaInput.drive s (.req i.val level)).reqEdge = s.reqEdge := by
  cases level <;> simp [EdmaInput.drive, mcxnEdmaReq, reqSrc_val,
    EdmaState.setLevel, EdmaState.scheduleBh]

lemma EdmaInput.drive_of_ne {i : EdmaInput} {k : ReqSrc} (hk : i.source? ≠ some k) (s : EdmaState) :
    (i.drive s).reqLevel k = s.reqLevel k ∧ (i.drive s).reqEdge k = s.reqEdge k := by
  cases i with
  | req src level =>
    unfold EdmaInput.drive
    dsimp only
    unfold mcxnEdmaReq
    cases hsrc : reqSrc? src with
    | none => exact ⟨rfl, rfl⟩
    | some j =>
      have hj : k ≠ j := fun h => hk (by rw [EdmaInput.source?, hsrc, h])
      have hlevel : Function.update s.reqLevel j level k = s.reqLevel k := update_of_ne hj _ _
      cases level <;> exact ⟨hlevel, rfl⟩
  | reqEnable src level =>
    unfold EdmaInput.drive mcxnEdmaReqEnable
    dsimp only
    split
    · exact ⟨rfl, rfl⟩
    split
    · exact ⟨rfl, rfl⟩
    · split <;> exact ⟨rfl, rfl⟩
  | reqPulse src level =>
    unfold EdmaInput.drive
    dsimp only
    unfold mcxnEdmaReqPulse
    cases hsrc : reqSrc? src with
    | none => exact ⟨rfl, rfl⟩
    | some j =>
      have hj : k ≠ j := fun h => hk (by rw [EdmaInput.source?, hsrc, h])
      cases level with
      | false => exact ⟨rfl, rfl⟩
      | true => exact ⟨update_of_ne hj _ _, update_of_ne hj _ _⟩

inductive BusEffect where
  | input (i : EdmaInput)
  | ownWrite (off : ℕ) (v : Word)
deriving DecidableEq

structure Fabric (μ : Type) where
  read : EdmaState → μ → Word → (size : ℕ) → μ × Vector Byte size × Bool × List BusEffect
  write : EdmaState → μ → Word → List Byte → μ × List BusEffect

variable {μ : Type}

def Engine.drive (x : Engine μ) (i : EdmaInput) : Engine μ := { x with st := i.drive x.st }

variable (f : Fabric μ) (x : Engine μ)

def Fabric.busWith (serve : Engine μ → BusEffect → Engine μ) : Bus μ where
  read x addr size :=
    let (mem, data, ok, effects) := f.read x.st x.mem addr size
    (effects.foldl serve { x with mem := mem }, data, ok)
  write x addr data :=
    let (mem, effects) := f.write x.st x.mem addr data
    effects.foldl serve { x with mem := mem }

def BusEffect.engage : BusEffect → Engine μ
  | .input i => x.drive i
  | .ownWrite _ _ => x

def Fabric.engagedBus : Bus μ := f.busWith BusEffect.engage

def BusEffect.serve : BusEffect → Engine μ
  | .input i => x.drive i
  | .ownWrite off v => edmaWrite f.engagedBus x off v

def Fabric.serviceBus : Bus μ := f.busWith (BusEffect.serve f)

inductive EdmaEvent (μ : Type) where
  | mmioWrite (off : ℕ) (v : Word)
  | input (i : EdmaInput)
  | bh
  | world (mem : μ)
  | reset

def edmaStep : EdmaEvent μ → Engine μ
  | .mmioWrite off v => edmaWrite f.engagedBus x off v
  | .input i => x.drive i
  | .bh => runBh f.serviceBus x
  | .world mem => { x with mem := mem }
  | .reset => { x with st := mcxnEdmaReset x.st }

def Engine.powerOn (dmaId : Byte) (mem : μ) : Engine μ :=
  ⟨mcxnEdmaReset (EdmaState.created dmaId), mem, []⟩

lemma engagedMoves_preserve {f : Fabric μ} {P : EdmaState → Prop}
    (hframe : ∀ s s', EdmaState.Frame s s' → P s → P s')
    (hinput : ∀ s i, P s → P (EdmaInput.drive s i))
    {x y : Engine μ} (hmoves : EngineMoves f.engagedBus x y) (hx : P x.st) : P y.st := by
  have heffects : ∀ (effects : List BusEffect) (x : Engine μ), P x.st →
      P (effects.foldl BusEffect.engage x).st := by
    intro effects x h
    apply run_invariant (P := fun x : Engine μ => P x.st) _ h effects
    intro x e h
    cases e with
    | input i => exact hinput x.st i h
    | ownWrite off v => exact h
  refine reflTransGen_preserves (P := fun x : Engine μ => P x.st) ?_ hmoves hx
  rintro x y (⟨st, log, hkept, _⟩ | ⟨addr, size⟩ | ⟨addr, data⟩) h
  · exact hframe x.st st hkept h
  · exact heffects _ _ h
  · exact heffects _ _ h

structure EdmaState.SameInputs (s s' : EdmaState) : Prop where
  reqLevel : s'.reqLevel = s.reqLevel
  reqEdge : s'.reqEdge = s.reqEdge
  reqEnabled : s'.reqEnabled = s.reqEnabled

lemma EdmaState.Frame.sameInputs {s s' : EdmaState} (h : s.Frame s') : s.SameInputs s' :=
  ⟨h.reqLevel, h.reqEdge, h.reqEnabled⟩

structure BusInvariant (bus : Bus μ) (P : Engine μ → Prop) : Prop where
  own : ∀ (x : Engine μ) (st : EdmaState) (log : List BusMark),
    x.st.SameInputs st → requests log = [] → P x → P ⟨st, x.mem, x.trace ++ log⟩
  read : ∀ (x : Engine μ) (addr : Word) (size : ℕ), P x → P (bus.read x addr size).1
  write : ∀ (x : Engine μ) (addr : Word) (data : List Byte), P x → P (bus.write x addr data)

structure ServiceInvariant (bus : Bus μ) (P : Engine μ → Prop) : Prop
    extends BusInvariant bus P where
  take : ∀ (x : Engine μ) (n : ChanIdx) (src : ReqSrc), P x → P (x.mark (.request n src))
  ack : ∀ (x : Engine μ) (src : ReqSrc), x.st.reqEdge src = true → P x →
    P { x with st := x.st.setLevel src false }
  drop : ∀ x : Engine μ, P x → P { x with st := x.st.dropEdges }

lemma foldl_inputs {serve : Engine μ → BusEffect → Engine μ}
    (hinput : ∀ x i, serve x (.input i) = x.drive i) (inputs : List EdmaInput) (x : Engine μ) :
    (inputs.map .input).foldl serve x = { x with st := inputs.foldl EdmaInput.drive x.st } := by
  induction inputs generalizing x with
  | nil => rfl
  | cons i rest ih =>
    rw [List.map_cons, List.foldl_cons, hinput, ih]
    rfl

section InputInvariants

variable {bus : Bus μ} {P : Engine μ → Prop}

section

variable (h : BusInvariant bus P)
include h

lemma BusInvariant.store {x : Engine μ} {st : EdmaState} (hsame : x.st.SameInputs st) (hx : P x) :
    P { x with st := st } := by
  have hown := h.own x st [] hsame rfl hx
  rwa [List.append_nil] at hown

lemma BusInvariant.moves {x y : Engine μ} (hmoves : EngineMoves bus x y) (hx : P x) : P y := by
  apply reflTransGen_preserves _ hmoves hx
  rintro x y (⟨st, log, hframe, hlog⟩ | ⟨addr, size⟩ | ⟨addr, data⟩) hx
  · exact h.own x st log hframe.sameInputs hlog hx
  · exact h.read x addr size hx
  · exact h.write x addr data hx

lemma BusInvariant.edmaWrite {x : Engine μ}
    (hx : P x) (off : ℕ) (v : Word) : P (edmaWrite bus x off v) := by
  have hstore : ∀ (y : Engine μ) (n : ChanIdx) (f : Chan → Chan), P y → P (y.modifyCh n f) :=
    fun y n f hy => h.store ⟨rfl, rfl, rfl⟩ hy
  unfold Edma.edmaWrite
  split
  · exact h.store ⟨rfl, rfl, rfl⟩ hx
  · exact h.store ⟨rfl, rfl, rfl⟩ hx
  next n _ =>
    split
    · exact h.store ⟨rfl, rfl, rfl⟩ (hstore x n _ hx)
    · exact hstore x n _ hx
  next n _ =>
    split
    · exact h.moves (run_moves _ n) (hstore _ n _ (hstore x n _ hx))
    · exact hstore x n _ hx
  next n r _ _ _ => exact hstore x n _ hx
  · exact hx
  · exact hx
  · exact hx

end

section

variable (h : ServiceInvariant bus P)
include h

lemma ServiceInvariant.serviceChannel {x : Engine μ} (hx : P x) (n : ChanIdx) :
    P (serviceChannel bus x n).1 := by
  unfold Edma.serviceChannel
  split
  · dsimp only
    have hmark : P ((x.mark (.request n (muxSrc (x.st.ch n).mux))).modifyCh n Chan.clearDone) :=
      h.store ⟨rfl, rfl, rfl⟩ (h.take x n _ hx)
    have hloop := h.moves (edmaMinorLoop_moves _ n) hmark
    split
    next hedge => exact h.ack _ _ hedge hloop
    · exact hloop
  · exact hx

lemma ServiceInvariant.servicePass {x : Engine μ} (hx : P x) : P (servicePass bus x).1 := by
  apply run_invariant (P := fun acc : Engine μ × Bool => P acc.1) _ hx
  intro acc n hacc
  exact h.serviceChannel hacc n

lemma ServiceInvariant.serviceLoop (passes : ℕ) {x : Engine μ} (hx : P x) :
    P (serviceLoop bus passes x) := by
  induction passes generalizing x with
  | zero => exact hx
  | succ passes ih =>
    rw [Edma.serviceLoop]
    split
    · exact ih (h.servicePass hx)
    · exact h.servicePass hx

lemma ServiceInvariant.runBh {x : Engine μ} (hx : P x) : P (runBh bus x) := by
  unfold Edma.runBh
  split
  · apply h.drop
    apply h.serviceLoop
    exact h.store ⟨rfl, rfl, rfl⟩ hx
  · exact hx

end

end InputInvariants

end Mcxn947.Edma
