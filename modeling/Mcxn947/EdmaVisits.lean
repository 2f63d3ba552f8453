import Mcxn947.EdmaWakeup
import Mcxn947.EdmaRequests

/-!
# What a bottom half leaves unchanged

The invariants of an engine on a fabric whose bus accesses drive inputs of one kind only.
-/

namespace Mcxn947.Edma

open MachineWords EventRuns List Chan Engine Fabric

section FabricInvariants

variable {μ : Type} {f : Fabric μ} {P : Engine μ → Prop} {kind : EdmaInput → Prop}

structure Fabric.Drives (f : Fabric μ) (kind : EdmaInput → Prop) : Prop where
  read : ∀ s mem addr size i, .input i ∈ (f.read s mem addr size).2.2.2 → kind i
  write : ∀ s mem addr data i, .input i ∈ (f.write s mem addr data).2 → kind i

variable (hdrives : f.Drives kind)
  (hown : ∀ (x : Engine μ) st log, x.st.SameInputs st → requests log = [] →
    P x → P ⟨st, x.mem, x.trace ++ log⟩)
  (hmem : ∀ x mem, P x → P { x with mem := mem })

include hdrives hown hmem

lemma Fabric.busWith_invariant {serve : Engine μ → BusEffect → Engine μ}
    (hinput : ∀ x i, kind i → P x → P (serve x (.input i)))
    (hwrite : ∀ x off v, P x → P (serve x (.ownWrite off v))) :
    BusInvariant (f.busWith serve) P := by
  have heffects : ∀ (effects : List BusEffect) (x : Engine μ),
      (∀ i, .input i ∈ effects → kind i) → P x → P (effects.foldl serve x) := by
    intro effects x hkind hx
    have hallowed : ∀ e ∈ effects, ∀ i, e = .input i → kind i := by
      rintro e he i rfl
      exact hkind i he
    refine run_invariant_of_events ?_ hx hallowed
    intro x e hthis hx
    cases e with
    | input i => exact hinput x i (hthis i rfl) hx
    | ownWrite off v => exact hwrite x off v hx
  constructor
  · exact hown
  · intro x addr size hx
    exact heffects _ _ (hdrives.read x.st x.mem addr size) (hmem x _ hx)
  · intro x addr data hx
    exact heffects _ _ (hdrives.write x.st x.mem addr data) (hmem x _ hx)

variable (hinput : ∀ x i, kind i → P x → P (x.drive i))

include hinput

lemma Fabric.engagedBus_invariant : BusInvariant f.engagedBus P :=
  busWith_invariant hdrives hown hmem hinput fun _ _ _ h => h

lemma Fabric.serviceBus_invariant : BusInvariant f.serviceBus P := by
  have hengaged := engagedBus_invariant hdrives hown hmem hinput
  exact busWith_invariant hdrives hown hmem hinput fun _ off v h => hengaged.edmaWrite h off v

end FabricInvariants

section Trace

variable {μ : Type} (f : Fabric μ)

lemma Fabric.drives_any : f.Drives fun _ => True :=
  ⟨fun _ _ _ _ _ _ => trivial, fun _ _ _ _ _ _ => trivial⟩

lemma requests_engagedBus (r : List (ChanIdx × ReqSrc)) :
    BusInvariant f.engagedBus fun x : Engine μ => requests x.trace = r := by
  refine engagedBus_invariant f.drives_any ?_ (fun _ _ h => h) (fun _ _ _ h => h)
  intro x st log _ hlog h
  rw [requests_append, hlog, append_nil, h]

lemma requests_serviceBus (r : List (ChanIdx × ReqSrc)) :
    BusInvariant f.serviceBus fun x : Engine μ => requests x.trace = r := by
  refine serviceBus_invariant f.drives_any ?_ (fun _ _ h => h) (fun _ _ _ h => h)
  intro x st log _ hlog h
  rw [requests_append, hlog, append_nil, h]

lemma trace_grows (l : List BusMark) :
    ServiceInvariant f.serviceBus fun x : Engine μ => l <+: x.trace := by
  have hbus : BusInvariant f.serviceBus fun x : Engine μ => l <+: x.trace :=
    serviceBus_invariant f.drives_any
      (fun _ _ _ _ _ h => h.trans (prefix_append _ _)) (fun _ _ h => h)
      (fun _ _ _ h => h)
  exact {
    toBusInvariant := hbus
    take := fun _ _ _ h => h.trans (prefix_append _ _)
    ack := fun _ _ _ h => h
    drop := fun _ h => h }

variable {n : ChanIdx} {x : Engine μ}

lemma minorLoop_begun {bus : Bus μ} (haccepted : (x.st.ch n).Accepted) :
    EngineMoves bus (x.mark (.minor n)) (edmaMinorLoop bus x n).1 := by
  have hbody : EngineMoves bus (x.mark (.minor n)) (edmaMinorBody bus x n) :=
    (move_moves _ _).trans (writeBack_moves _ _ n)
  rw [edmaMinorLoop, minorLoopWith_accepted bus _ haccepted]
  refine hbody.trans ?_
  split
  · split
    · exact linkChannel_moves 1 _ _
    · exact .refl
  · exact majorDone_moves (linkChannel_moves 1) _ _ n

lemma serviceChannel_minor (helig : x.st.eligible n) :
    ((x.st.ch n).Accepted → x.trace ++ [.request n (muxSrc (x.st.ch n).mux), .minor n] <+:
      (serviceChannel f.serviceBus x n).1.trace) ∧
      (¬ (x.st.ch n).Accepted → (serviceChannel f.serviceBus x n).1.trace =
      x.trace ++ [.request n (muxSrc (x.st.ch n).mux)]) := by
  have htrace : (serviceChannel f.serviceBus x n).1.trace =
      (edmaMinorLoop f.serviceBus ((x.mark (.request n
        (muxSrc (x.st.ch n).mux))).modifyCh n clearDone) n).1.trace := by
    unfold serviceChannel
    dsimp only
    rw [if_pos helig]
    split <;> rfl
  have hch : ((x.mark (.request n (muxSrc (x.st.ch n).mux))).modifyCh n
      clearDone).st.ch n = (x.st.ch n).clearDone := by
    simp [modifyCh, EdmaState.modifyCh, mark]
  rw [htrace]
  constructor
  · intro haccepted
    have haccepted' : (((x.mark (.request n (muxSrc (x.st.ch n).mux))).modifyCh n
        clearDone).st.ch n).Accepted := by
      rw [hch]
      exact (accepted_clearDone _).mpr haccepted
    refine (trace_grows f _).moves (minorLoop_begun haccepted') ?_
    simp [mark, modifyCh]
  intro hrefused
  have hbroken : ∃ r : TcdRule, r.Violated (((x.mark (.request n
      (muxSrc (x.st.ch n).mux))).modifyCh n clearDone).st.ch n) := by
    rw [hch]
    exact exists_violated (mt (accepted_clearDone _).mp hrefused)
  rw [edmaMinorLoop, minorLoopWith_refused f.serviceBus _ hbroken]
  rfl

end Trace

end Mcxn947.Edma
