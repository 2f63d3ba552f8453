import Mcxn947.UsdhcTransfer

/-!
# How a command completes

A write to `CMD_XFR_TYP` sends a command to the card and ends with `INT_STATUS[CC]` or
with `INT_STATUS[CTOE]`.
-/

namespace Mcxn947.Usdhc

open MachineWords GuestMemory List Controller UsdhcState

variable {κ : Type} (bus : SdBus κ)

def responseRequested (xfrtyp : Word) : Bool := anyBit xfrtyp 0x00030000

def AnswerLengths : Prop :=
  ∀ card cmd arg, (bus.doCommand card cmd arg).1.length = 0 ∨
    (bus.doCommand card cmd arg).1.length = 4 ∨ (bus.doCommand card cmd arg).1.length = 16

def Controller.withStatus (u : Controller κ) (status : Word) : Controller κ :=
  { u with st := u.st.setReg rIntStatus status }

def statusAfter (u : Controller κ) (xfrtyp status : Word) : Word :=
  (command bus (u.withStatus status) xfrtyp).st.regs rIntStatus

def Raises (u : Controller κ) (xfrtyp bit : Word) : Prop :=
  ∀ status, anyBit (statusAfter bus u xfrtyp status) bit = true

def Spares (u : Controller κ) (xfrtyp bit : Word) : Prop :=
  ∀ status, anyBit (statusAfter bus u xfrtyp status) bit = anyBit status bit

structure SamePio (s t : UsdhcState) : Prop where
  dataLen : t.dataLen = s.dataLen
  dataPos : t.dataPos = s.dataPos
  dataRead : t.dataRead = s.dataRead

def responseRegs : List RegIdx := [rCmdRsp0, rCmdRsp1, rCmdRsp2, rCmdRsp3]

structure Completes (u : Controller κ) (xfrtyp : Word) : Prop where
  one : Raises bus u xfrtyp intCc ∧ Spares bus u xfrtyp intCtoe ∨
    Raises bus u xfrtyp intCtoe ∧ Spares bus u xfrtyp intCc
  timeout : Raises bus u xfrtyp intCtoe →
    responseRequested xfrtyp = true ∧ (answer bus u xfrtyp).1 = []
  unanswered : Raises bus u xfrtyp intCtoe →
    (∀ r ∈ responseRegs, (command bus u xfrtyp).st.regs r = u.st.regs r) ∧
    SamePio u.st (command bus u xfrtyp).st ∧
    (command bus u xfrtyp).wire.mem = u.wire.mem
  noData : Raises bus u xfrtyp intCc → anyBit xfrtyp cmdXfrDpsel = false →
    SamePio u.st (command bus u xfrtyp).st

@[simp] lemma answer_withStatus (u : Controller κ) (xfrtyp status : Word) :
    answer bus (u.withStatus status) xfrtyp = answer bus u xfrtyp := by
  simp [answer, withStatus, setReg, show rCmdArg ≠ rIntStatus by decide]

variable {u : Controller κ} {xfrtyp : Word}

lemma command_unanswered (h : (answer bus u xfrtyp).1 = []) :
    command bus u xfrtyp = (raise { u with
          st := u.st.setReg rCmdXfrTyp xfrtyp
          wire := { u.wire with card := (answer bus u xfrtyp).2 } } intCtoe).updateIrq := by
  have harg : (u.st.setReg rCmdXfrTyp xfrtyp).regs rCmdArg = u.st.regs rCmdArg := by
    simp [setReg, show rCmdArg ≠ rCmdXfrTyp by decide]
  rw [answer] at h ⊢
  rw [command_eq, mcxnUsdhcSendCommand]
  simp only [harg, h]
  rfl

lemma command_completes
    (h : (answer bus u xfrtyp).1.length = 4 ∨ (answer bus u xfrtyp).1.length = 16) :
    ∃ u₀ : Controller κ, SamePio u.st u₀.st ∧
      u₀.st.regs rIntStatus = u.st.regs rIntStatus ||| intCc ∧
      command bus u xfrtyp = if anyBit xfrtyp cmdXfrDpsel then (mcxnUsdhcDoData bus u₀).updateIrq
      else u₀.updateIrq := by
  obtain ⟨st, hst, hcommand⟩ := command_answered bus h
  have hkeep : SamePio u.st st ∧ st.regs rIntStatus = u.st.regs rIntStatus := by
    rw [marshalResponse] at hst
    split_ifs at hst <;>
      · cases hst
        exact ⟨⟨rfl, rfl, rfl⟩, rfl⟩
  have hpio : SamePio u.st (st.orReg rIntStatus intCc) :=
    ⟨hkeep.1.dataLen, hkeep.1.dataPos, hkeep.1.dataRead⟩
  have hflag : (st.orReg rIntStatus intCc).regs rIntStatus = u.st.regs rIntStatus ||| intCc := by
    simp [orReg, setReg, hkeep.2]
  cases hdata : anyBit xfrtyp cmdXfrDpsel
  all_goals
    simp only [hdata, if_true, Bool.false_eq_true, if_false] at hcommand ⊢
    exact ⟨_, hpio, hflag, hcommand⟩

lemma doData_status (u : Controller κ) {bit : Word} (htc : anyBit intTc bit = false)
    (hdmae : anyBit intDmae bit = false) : anyBit ((mcxnUsdhcDoData bus u).st.regs rIntStatus) bit =
      anyBit (u.st.regs rIntStatus) bit := by
  have hraise : ∀ v : Controller κ,
      anyBit (v.raiseTc.st.regs rIntStatus) bit = anyBit (v.st.regs rIntStatus) bit := by
    intro v
    simp [raiseTc, raise, orReg, setReg, htc]
  rw [mcxnUsdhcDoData]
  split_ifs
  · exact hraise u
  · rfl
  · rw [hraise, mcxnUsdhcDoAdma2]
    rcases admaLoop bus u.st.dtdsel 4096 u.wire (u.st.regs rAdmaSysAddr).toNat u.st.total with
      ⟨wire, _ | desc⟩
    · simp [raise, orReg, setReg, hdmae]
    · simp [setReg, show rIntStatus ≠ rAdmaSysAddr by decide]
  · rw [hraise]
    simp [sdmaTransfer, setReg, show rIntStatus ≠ rDsAddr by decide]

section Ends

variable {bus} {u : Controller κ} {xfrtyp : Word}

lemma statusAfter_unanswered (h : (answer bus u xfrtyp).1 = []) (status : Word) :
    statusAfter bus u xfrtyp status = status ||| intCtoe := by
  rw [statusAfter, command_unanswered bus (by rw [answer_withStatus]; exact h)]
  simp [updateIrq, mcxnUsdhcUpdateIrq, raise, orReg,
    setReg, withStatus, show rIntStatus ≠ rCmdXfrTyp by decide]

variable {bit : Word}

lemma anyBit_statusAfter_answered
    (h : (answer bus u xfrtyp).1.length = 4 ∨ (answer bus u xfrtyp).1.length = 16)
    (htc : anyBit intTc bit = false) (hdmae : anyBit intDmae bit = false) (status : Word) :
    anyBit (statusAfter bus u xfrtyp status) bit = anyBit (status ||| intCc) bit := by
  obtain ⟨u₀, -, hstatus, hcommand⟩ :=
    command_completes bus (u := u.withStatus status) (by rw [answer_withStatus]; exact h)
  have hbefore : (u.withStatus status).st.regs rIntStatus = status := by simp [withStatus, setReg]
  rw [hbefore] at hstatus
  rw [statusAfter, hcommand, ← hstatus]
  split_ifs
  · exact doData_status bus u₀ htc hdmae
  · rfl

lemma raises_ctoe_of_unanswered (h : (answer bus u xfrtyp).1 = []) :
    Raises bus u xfrtyp intCtoe ∧ Spares bus u xfrtyp intCc := by
  constructor
  · intro status
    rw [statusAfter_unanswered h, anyBit_or, show anyBit intCtoe intCtoe = true by decide,
      Bool.or_true]
  intro status
  rw [statusAfter_unanswered h, anyBit_or, show anyBit intCtoe intCc = false by decide,
    Bool.or_false]

lemma raises_cc_of_answered
    (h : (answer bus u xfrtyp).1.length = 4 ∨ (answer bus u xfrtyp).1.length = 16) :
    Raises bus u xfrtyp intCc ∧ Spares bus u xfrtyp intCtoe := by
  constructor
  · intro status
    rw [anyBit_statusAfter_answered h (by decide) (by decide), anyBit_or,
      show anyBit intCc intCc = true by decide, Bool.or_true]
  intro status
  rw [anyBit_statusAfter_answered h (by decide) (by decide), anyBit_or,
    show anyBit intCc intCtoe = false by decide, Bool.or_false]

lemma Spares.not_raises (h : Spares bus u xfrtyp bit) : ¬ Raises bus u xfrtyp bit := by
  intro hraises
  have hzero := hraises 0
  rw [h 0] at hzero
  simp [anyBit] at hzero

lemma unanswered_keeps (h : (answer bus u xfrtyp).1 = []) :
    (∀ r ∈ responseRegs, (command bus u xfrtyp).st.regs r = u.st.regs r) ∧
    SamePio u.st (command bus u xfrtyp).st ∧ (command bus u xfrtyp).wire.mem = u.wire.mem := by
  rw [command_unanswered bus h]
  refine ⟨?_, ⟨rfl, rfl, rfl⟩, rfl⟩
  intro r hr
  have hne : r ≠ rIntStatus ∧ r ≠ rCmdXfrTyp := by
    simp only [responseRegs, mem_cons, not_mem_nil, or_false] at hr
    rcases hr with rfl | rfl | rfl | rfl <;> decide
  simp [updateIrq, mcxnUsdhcUpdateIrq, raise, orReg, setReg, hne.1, hne.2]

end Ends

/-- A command completes as it has to exactly when it asks for a response or gets one. -/
theorem command_completes_iff (hlengths : AnswerLengths bus) (u : Controller κ) (xfrtyp : Word) :
    Completes bus u xfrtyp ↔ responseRequested xfrtyp = true ∨ (answer bus u xfrtyp).1 ≠ [] := by
  rcases hlengths u.wire.card ((xfrtyp >>> 24) &&& 0x3F).toNat (u.st.regs rCmdArg) with
    hnone | hsome
  · have hempty : (answer bus u xfrtyp).1 = [] := List.length_eq_zero_iff.mp hnone
    obtain ⟨hctoe, hcc⟩ := raises_ctoe_of_unanswered hempty
    constructor
    · intro h
      exact .inl (h.timeout hctoe).1
    intro h
    have hasked : responseRequested xfrtyp = true := by
      rcases h with hasked | hanswer
      · exact hasked
      · exact absurd hempty hanswer
    exact ⟨.inr ⟨hctoe, hcc⟩, fun _ => ⟨hasked, hempty⟩, fun _ => unanswered_keeps hempty,
      fun hraised => absurd hraised hcc.not_raises⟩
  have hanswer : (answer bus u xfrtyp).1 ≠ [] := by
    intro hempty
    rw [answer] at hempty
    rw [hempty, length_nil] at hsome
    omega
  have hlength : (answer bus u xfrtyp).1.length = 4 ∨ (answer bus u xfrtyp).1.length = 16 := hsome
  obtain ⟨hcc, hctoe⟩ := raises_cc_of_answered hlength
  refine ⟨fun _ => .inr hanswer, fun _ => ⟨.inl ⟨hcc, hctoe⟩, ?_, ?_, ?_⟩⟩
  · exact fun hraised => absurd hraised hctoe.not_raises
  · exact fun hraised => absurd hraised hctoe.not_raises
  intro _ hdata
  obtain ⟨u₀, hpio, -, hcommand⟩ := command_completes bus hlength
  rw [hcommand, if_neg (by rw [hdata]; decide)]
  exact ⟨hpio.dataLen, hpio.dataPos, hpio.dataRead⟩

def resettableBus : SdBus Unit :=
  { quietBus with doCommand := fun _ cmd _ => (if cmd = 0 then [] else [0, 0, 0, 0], ()) }

lemma resettableBus_lengths : AnswerLengths resettableBus := by
  intro _ cmd _
  by_cases hcmd : cmd = 0
  · exact .inl (by simp [resettableBus, hcmd])
  · exact .inr (.inl (by simp [resettableBus, hcmd]))

theorem cmd8_completes : Completes resettableBus (admaSetup 0) 0x08020000 :=
  (command_completes_iff resettableBus resettableBus_lengths (admaSetup 0) 0x08020000).mpr
    (.inl (by decide))

theorem cmd0_times_out : responseRequested 0 = false ∧
      anyBit ((command resettableBus (admaSetup 0) 0).st.regs rIntStatus) intCtoe = true ∧
      anyBit ((command resettableBus (admaSetup 0) 0).st.regs rIntStatus) intCc = false ∧
      ¬ Completes resettableBus (admaSetup 0) 0 := by
  refine ⟨by decide, by decide, by decide, fun h => ?_⟩
  have hempty : (answer resettableBus (admaSetup 0) 0).1 = [] := by decide
  exact absurd (h.timeout (raises_ctoe_of_unanswered hempty).1).1 (by decide)

end Mcxn947.Usdhc
