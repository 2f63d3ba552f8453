import Mcxn947.EdmaModel
import Mcxn947.EventRuns

/-!
# What the engine can do to itself

Every service of a channel is a sequence of two kinds of move: the engine writes its own
registers, or it makes a bus access.
-/

namespace Mcxn947.Edma

open MachineWords CountedLoops EventRuns

structure EdmaState.Frame (s s' : EdmaState) : Prop where
  reqLevel : s'.reqLevel = s.reqLevel
  reqEdge : s'.reqEdge = s.reqEdge
  reqEnabled : s'.reqEnabled = s.reqEnabled
  bhScheduled : s'.bhScheduled = s.bhScheduled
  mux : ∀ n, (s'.ch n).mux = (s.ch n).mux
  erq : ∀ n, anyBit (s'.ch n).csr chCsrErq = true → anyBit (s.ch n).csr chCsrErq = true

variable (s : EdmaState) (n : ChanIdx)

lemma EdmaState.Frame.refl : s.Frame s := ⟨rfl, rfl, rfl, rfl, fun _ => rfl, fun _ h => h⟩

lemma EdmaState.Frame.trans
    {s t u : EdmaState} (hst : s.Frame t) (htu : t.Frame u) : s.Frame u where
  reqLevel := htu.reqLevel.trans hst.reqLevel
  reqEdge := htu.reqEdge.trans hst.reqEdge
  reqEnabled := htu.reqEnabled.trans hst.reqEnabled
  bhScheduled := htu.bhScheduled.trans hst.bhScheduled
  mux n := (htu.mux n).trans (hst.mux n)
  erq n h := hst.erq n (htu.erq n h)

variable {f : Chan → Chan}

lemma EdmaState.modifyCh_frame (hmux : ∀ c, (f c).mux = c.mux)
    (herq : ∀ c, anyBit (f c).csr chCsrErq → anyBit c.csr chCsrErq) : s.Frame (s.modifyCh n f) := by
  refine ⟨rfl, rfl, rfl, rfl, ?_, ?_⟩
  · intro m
    by_cases hm : m = n
    · subst hm
      simp [modifyCh, hmux]
    · simp [modifyCh, Function.update, hm]
  intro m h
  by_cases hm : m = n
  · subst hm
    simp only [modifyCh, Function.update_self] at h
    exact herq _ h
  · simpa [modifyCh, Function.update, hm] using h

lemma updateIrq_frame : s.Frame (edmaUpdateIrq s n) :=
  ⟨rfl, rfl, rfl, rfl, fun _ => rfl, fun _ h => h⟩

structure EdmaState.Quiet (s s' : EdmaState) : Prop extends s.Frame s' where
  irq : s'.irq = s.irq
  intr : ∀ n, (s'.ch n).intr = (s.ch n).intr

lemma EdmaState.Quiet.refl (s : EdmaState) : s.Quiet s := ⟨.refl s, rfl, fun _ => rfl⟩

lemma EdmaState.modifyCh_quiet (hmux : ∀ c, (f c).mux = c.mux)
    (herq : ∀ c, anyBit (f c).csr chCsrErq → anyBit c.csr chCsrErq)
    (hintr : ∀ c, (f c).intr = c.intr) : s.Quiet (s.modifyCh n f) := by
  refine ⟨s.modifyCh_frame n hmux herq, rfl, fun m => ?_⟩
  by_cases hm : m = n
  · subst hm
    simp [modifyCh, hintr]
  · simp [modifyCh, Function.update, hm]

def edmaRaise : EdmaState :=
  edmaUpdateIrq (s.modifyCh n fun c => { c with intr := c.intr ||| chIntInt }) n

lemma raise_frame : s.Frame (edmaRaise s n) := by
  refine .trans ?_ (updateIrq_frame _ n)
  exact s.modifyCh_frame n (fun _ => rfl) (fun _ h => h)

lemma refuse_frame (err : Word) : s.Frame (edmaRefuse s n err) := by
  have hes : s.Frame (s.modifyCh n fun c => { c with es := c.es ||| (err ||| chEsErr) }) :=
    s.modifyCh_frame n (fun _ => rfl) (fun _ h => h)
  unfold edmaRefuse
  dsimp only
  split
  · exact hes.trans (raise_frame _ n)
  · exact hes

def requests (trace : List BusMark) : List (ChanIdx × ReqSrc) :=
  trace.filterMap fun
    | .request n src => some (n, src)
    | _ => none

lemma anyBit_erq_of_or_done (v : Word) (h : anyBit (v ||| chCsrDone) chCsrErq) :
    anyBit v chCsrErq = true := by
  have hdone : anyBit chCsrDone chCsrErq = false := by decide
  simpa [hdone] using h

section Rules

variable {μ : Type} {bus : Bus μ} {R : Engine μ → Engine μ → Prop}

structure EngineRule (bus : Bus μ) (R : Engine μ → Engine μ → Prop) : Prop where
  refl : ∀ x, R x x
  trans : ∀ {x y z}, R x y → R y z → R x z
  own : ∀ (x : Engine μ) (st : EdmaState) (log : List BusMark),
    x.st.Quiet st → requests log = [] → R x ⟨st, x.mem, x.trace ++ log⟩
  raise : ∀ (x : Engine μ) (n : ChanIdx), R x { x with st := edmaRaise x.st n }
  read : ∀ (x : Engine μ) (addr : Word) (size : ℕ), R x (bus.read x addr size).1
  write : ∀ (x : Engine μ) (addr : Word) (data : List Byte), R x (bus.write x addr data)

namespace EngineRule

variable (h : EngineRule bus R)

include h

lemma store {x : Engine μ} {st : EdmaState} (hquiet : x.st.Quiet st) : R x { x with st := st } := by
  have hown := h.own x st [] hquiet rfl
  rwa [List.append_nil] at hown

section

variable (x : Engine μ)

lemma mark {m : BusMark} (hm : requests [m] = []) : R x (x.mark m) :=
  h.own x x.st [m] (.refl x.st) hm

lemma modifyCh (n : ChanIdx) (hmux : ∀ c, (f c).mux = c.mux)
    (herq : ∀ c, anyBit (f c).csr chCsrErq → anyBit c.csr chCsrErq)
    (hintr : ∀ c, (f c).intr = c.intr) : R x (x.modifyCh n f) :=
  h.store (x.st.modifyCh_quiet n hmux herq hintr)

lemma addressSpaceRead (addr : Word) (size : ℕ) : R x (addressSpaceRead bus x addr size).1 :=
  h.trans (h.read x addr size) (h.mark _ rfl)

lemma addressSpaceWrite (addr : Word) (data : List Byte) :
    R x (addressSpaceWrite bus x addr data) :=
  h.trans (h.mark _ rfl) (h.write _ addr data)

lemma edmaLoadNextTcd (n : ChanIdx) : R x (edmaLoadNextTcd bus x n).1 := by
  unfold Edma.edmaLoadNextTcd
  dsimp only
  split
  · exact h.modifyCh x n (fun _ => rfl) (fun _ h => h) (fun _ => rfl)
  refine h.trans (h.addressSpaceRead x (x.st.ch n).tcdDlast 32) ?_
  split <;> exact h.modifyCh _ n (fun _ => rfl) (fun _ h => h) (fun _ => rfl)

end

lemma edmaMove (c : Chan) (x : Engine μ) : R x (edmaMove bus c x).x :=
  move_preserves (fun y addr size hy => h.trans hy (h.addressSpaceRead y addr size))
    (fun y addr data hy => h.trans hy (h.addressSpaceWrite y addr data)) c (h.refl x)

lemma edmaWriteBack (c : Chan) (t : Xfer μ) (n : ChanIdx) : R t.x (edmaWriteBack c t n) :=
  h.modifyCh t.x n (fun _ => rfl) (fun _ h => h) (fun _ => rfl)

lemma edmaRefuse (x : Engine μ) (n : ChanIdx) (err : Word) :
    R x { x with st := edmaRefuse x.st n err } := by
  have hes : R x (x.modifyCh n fun c => { c with es := c.es ||| (err ||| chEsErr) }) :=
    h.modifyCh x n (fun _ => rfl) (fun _ h => h) (fun _ => rfl)
  unfold Edma.edmaRefuse
  dsimp only
  split
  · exact h.trans hes (h.raise _ n)
  · exact hes

variable {link : Engine μ → ℕ → Engine μ} (hlink : ∀ x l, R x (link x l))

include hlink

lemma edmaMajorDone (t : Xfer μ) (x : Engine μ) (n : ChanIdx) :
    R x (edmaMajorDone link bus t x n) := by
  unfold Edma.edmaMajorDone
  extract_lets x₁ x₂ x₃ x₄ x₅ x₆
  have h₁ : R x x₁ := h.modifyCh x n (fun _ => rfl) (fun _ h => h) (fun _ => rfl)
  have h₂ : R x₁ x₂ := by
    simp only [x₂]
    split
    · exact hlink _ _
    · exact h.refl _
  have h₃ : R x₂ x₃ := by
    simp only [x₃]
    split
    · exact h.edmaLoadNextTcd x₂ n
    · exact h.refl _
  have h₄ : R x₃ x₄ := h.modifyCh x₃ n (fun _ => rfl) (fun c h => anyBit_erq_of_or_done c.csr h)
      (fun _ => rfl)
  have h₅ : R x₄ x₅ := by
    simp only [x₅]
    split
    · exact h.modifyCh x₄ n (fun _ => rfl) (fun _ h => anyBit_of_anyBit_and h) (fun _ => rfl)
    · exact h.refl _
  have hbefore := h.trans (h.trans (h.trans (h.trans h₁ h₂) h₃) h₄) h₅
  split
  · exact h.trans hbefore (h.raise x₅ n)
  · exact hbefore

lemma edmaMinorLoopWith (x : Engine μ) (n : ChanIdx) : R x (edmaMinorLoopWith link bus x n).1 := by
  unfold Edma.edmaMinorLoopWith
  dsimp only
  split
  · exact h.edmaRefuse x n chEsNce
  split
  · exact h.edmaRefuse x n _
  have hmoved := h.trans (h.trans (h.mark x (m := .minor n) rfl) (h.edmaMove (x.st.ch n) _))
    (h.edmaWriteBack (x.st.ch n) _ n)
  split
  · refine h.trans hmoved ?_
    split
    · exact hlink _ _
    · exact h.refl _
  · exact h.trans hmoved (h.edmaMajorDone hlink _ _ n)

lemma edmaRunWith (x : Engine μ) (n : ChanIdx) : R x (edmaRunWith link bus x n) :=
  h.trans (h.edmaMinorLoopWith hlink x n)
    (h.modifyCh _ n (fun _ => rfl) (fun _ h => h) (fun _ => rfl))

omit hlink

lemma setInLink (x : Engine μ) (on : Bool) : R x (x.setInLink on) :=
  h.store ⟨⟨rfl, rfl, rfl, rfl, fun _ => rfl, fun _ h => h⟩, rfl, fun _ => rfl⟩

lemma edmaLinkChannel (depth : ℕ) (x : Engine μ) (l : ℕ) : R x (edmaLinkChannel bus depth x l) := by
  induction depth generalizing x l with
  | zero => exact h.refl x
  | succ depth ih =>
    unfold Edma.edmaLinkChannel
    split
    · split
      · exact h.refl x
      refine h.trans ?_ (h.setInLink _ false)
      refine h.trans ?_ (h.edmaRunWith ih _ _)
      exact h.trans (h.setInLink x true)
        (h.modifyCh _ _ (fun _ => rfl) (fun _ h => anyBit_of_anyBit_and h) (fun _ => rfl))
    · exact h.refl x

lemma edmaMinorLoop (x : Engine μ) (n : ChanIdx) : R x (edmaMinorLoop bus x n).1 :=
  h.edmaMinorLoopWith (h.edmaLinkChannel 1) x n

lemma edmaRun (x : Engine μ) (n : ChanIdx) : R x (edmaRun bus x n) :=
  h.edmaRunWith (h.edmaLinkChannel 1) x n

end EngineRule

end Rules

section Moves

variable {μ : Type} (bus : Bus μ)

inductive EngineMove : Engine μ → Engine μ → Prop where
  | own (x : Engine μ) (st : EdmaState) (log : List BusMark) : x.st.Frame st → requests log = [] →
      EngineMove x ⟨st, x.mem, x.trace ++ log⟩
  | read (x : Engine μ) (addr : Word) (size : ℕ) : EngineMove x (bus.read x addr size).1
  | write (x : Engine μ) (addr : Word) (data : List Byte) : EngineMove x (bus.write x addr data)

abbrev EngineMoves : Engine μ → Engine μ → Prop := Relation.ReflTransGen (EngineMove bus)

variable {bus}

lemma moves_rule : EngineRule bus (EngineMoves bus) where
  refl _ := .refl
  trans := .trans
  own x st log hquiet hlog := .single (.own x st log hquiet.toFrame hlog)
  raise x n := by
    have hmove : EngineMove bus x ⟨edmaRaise x.st n, x.mem, x.trace ++ []⟩ :=
      .own x _ [] (raise_frame x.st n) rfl
    rw [List.append_nil] at hmove
    exact .single hmove
  read x addr size := .single (.read x addr size)
  write x addr data := .single (.write x addr data)

lemma move_moves (c : Chan) (x : Engine μ) : EngineMoves bus x (edmaMove bus c x).x :=
  moves_rule.edmaMove c x

lemma writeBack_moves (c : Chan) (t : Xfer μ) (n : ChanIdx) :
    EngineMoves bus t.x (edmaWriteBack c t n) :=
  moves_rule.edmaWriteBack c t n

lemma majorDone_moves {link : Engine μ → ℕ → Engine μ}
    (hlink : ∀ x l, EngineMoves bus x (link x l)) (t : Xfer μ) (x : Engine μ) (n : ChanIdx) :
    EngineMoves bus x (edmaMajorDone link bus t x n) :=
  moves_rule.edmaMajorDone hlink t x n

lemma linkChannel_moves (depth : ℕ) (x : Engine μ) (l : ℕ) :
    EngineMoves bus x (edmaLinkChannel bus depth x l) :=
  moves_rule.edmaLinkChannel depth x l

lemma edmaMinorLoop_moves (x : Engine μ) (n : ChanIdx) :
    EngineMoves bus x (edmaMinorLoop bus x n).1 :=
  moves_rule.edmaMinorLoop x n

lemma run_moves (x : Engine μ) (n : ChanIdx) : EngineMoves bus x (edmaRun bus x n) :=
  moves_rule.edmaRun x n

end Moves

end Mcxn947.Edma
