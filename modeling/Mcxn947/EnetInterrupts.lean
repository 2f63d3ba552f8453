import Mcxn947.EnetModel
import Mcxn947.LevelLines
import Mcxn947.NarrowWrites

/-!
# The interrupt line of the Ethernet controller

The controller drives its line from the registers after each change of a cause, so the line
always shows the expression of `mcxn_enet_update_irq`.
-/

namespace Mcxn947.Enet

open MachineWords GuestMemory EventRuns BusAccesses LevelLines Function

inductive EnetEvent where
  | write (w : RegWrite)
  | frame (bytes : List Byte)
  | store (addr : ℕ) (bytes : List Byte)
  | reset

variable (s : EnetState) (x : Controller) (w : RegWrite)

def busWrite : Controller := enetWrite x w.off w.width.bytes w.value

def frameArrives (bytes : List Byte) : Controller :=
  if mcxnEnetCanReceive x.st then mcxnEnetReceive x bytes
  else { x with queued := x.queued ++ [bytes] }

def enetStep : EnetEvent → Controller
  | .write w => busWrite x w
  | .frame bytes => frameArrives x bytes
  | .store addr bytes => { x with mem := GuestMemory.store x.mem addr bytes }
  | .reset => mcxnEnetReset x

def phyPending : Bool :=
  anyBit (s.regs rMacInterruptStatus &&& s.regs rMacInterruptEnable) macIsPhyis

def dmaPending (flags : Word) : Bool := anyBit (s.regs rStatus &&& s.regs rIntEn) flags

def lineWanted : Bool := phyPending s || dmaPending s (dmaStatTi ||| dmaStatRi)

abbrev Driven : Prop := InStep EnetState.irq lineWanted s

def causes : List RegIdx := [rMacInterruptStatus, rMacInterruptEnable, rStatus, rIntEn]

lemma driven_updateIrq : Driven (mcxnEnetUpdateIrq s) := rfl

variable {t : EnetState}

lemma lineWanted_congr {s : EnetState} (h : ∀ r ∈ causes, t.regs r = s.regs r) :
    lineWanted t = lineWanted s := by
  simp only [lineWanted, phyPending, dmaPending, h rMacInterruptStatus (by simp [causes]),
    h rMacInterruptEnable (by simp [causes]), h rStatus (by simp [causes]),
    h rIntEn (by simp [causes])]

lemma Driven.congr {s : EnetState} (h : Driven s) (hirq : t.irq = s.irq)
    (hregs : ∀ r ∈ causes, t.regs r = s.regs r) : Driven t := by
  rw [Driven, InStep, hirq, lineWanted_congr hregs]
  exact h

lemma Driven.setReg {s : EnetState} (h : Driven s) {r : RegIdx} (hr : r ∉ causes)
    (v : Word) : Driven (s.setReg r v) := by
  refine h.congr (t := s.setReg r v) rfl ?_
  intro q hq
  have hne : q ≠ r := fun heq => hr (heq ▸ hq)
  exact update_of_ne hne _ _

lemma deliverChunk_driven {x : Controller} (h : Driven x.st) (frame : List Byte)
    (off : ℕ) (first : Bool) : Driven (deliverChunk frame x off first).1.st :=
  h.congr rfl fun _ _ => rfl

lemma deliverLoop_driven {x : Controller} (h : Driven x.st) (frame : List Byte)
    (fuel off : ℕ) (first : Bool) : Driven (deliverLoop frame fuel x off first).1.st := by
  induction fuel generalizing x off first with
  | zero => exact h
  | succ fuel ih =>
    unfold deliverLoop
    split
    · exact driven_updateIrq _
    dsimp only
    split
    · exact ih (deliverChunk_driven h frame off first) _ _
    · exact driven_updateIrq _

lemma deliver_driven {x : Controller} (h : Driven x.st) (frame : List Byte) :
    Driven (mcxnEnetDeliver x frame).1.st := by
  unfold mcxnEnetDeliver
  split
  · exact h
  · exact deliverLoop_driven h _ _ _ _

lemma flushQueued_driven {x : Controller} (h : Driven x.st) : Driven (flushQueued x).st := by
  have hframes : ∀ (frames : List (List Byte)) (y : Controller), Driven y.st →
      Driven (frames.foldl mcxnEnetReceive y).st := by
    intro frames
    induction frames with
    | nil => exact fun _ hy => hy
    | cons frame rest ih => exact fun y hy => ih _ (deliver_driven hy frame)
  exact hframes x.queued { x with queued := [] } h

lemma txProcess_driven {x : Controller} (h : Driven x.st) :
    Driven (mcxnEnetTxProcess x).st := by
  unfold mcxnEnetTxProcess
  split
  · exact h
  · exact driven_updateIrq _

lemma driven_ite {c : Prop} [Decidable c] {y z : Controller}
    (hy : c → Driven y.st) (hz : ¬ c → Driven z.st) : Driven (if c then y else z).st := by
  by_cases hc : c
  · rw [if_pos hc]
    exact hy hc
  · rw [if_neg hc]
    exact hz hc

lemma writeReg_driven {x : Controller} (h : Driven x.st) (r : RegIdx)
    (val ones : Word) : Driven (enetWriteReg x r val ones).st := by
  have hplain : ∀ q, q ∉ causes → r = q → ∀ v, Driven (x.st.setReg r v) := by
    rintro q hq rfl v
    exact h.setReg hq v
  refine driven_ite (fun hr => hplain _ (by decide) hr _) fun _ => ?_
  refine driven_ite (fun hr => hplain _ (by decide) hr _) fun _ => ?_
  refine driven_ite (fun hr => ?_) fun _ => ?_
  · have hmdio : r ∉ causes := by rw [hr]; decide
    refine driven_ite (fun _ => ?_) fun _ => hplain _ (by decide) hr _
    exact Driven.setReg (driven_updateIrq _) hmdio _
  refine driven_ite (fun _ => driven_updateIrq _) fun hmac => ?_
  refine driven_ite (fun _ => driven_updateIrq _) fun henable => ?_
  refine driven_ite (fun hr => ?_) fun _ => ?_
  · exact (hplain _ (by decide) hr val).congr rfl fun _ _ => rfl
  refine driven_ite (fun hr => ?_) fun _ => ?_
  · exact (hplain _ (by decide) hr val).congr rfl fun _ _ => rfl
  refine driven_ite (fun hr => ?_) fun _ => ?_
  · exact flushQueued_driven (hplain _ (by decide) hr val)
  refine driven_ite (fun hr => ?_) fun _ => ?_
  · exact txProcess_driven (hplain _ (by decide) hr val)
  refine driven_ite (fun _ => driven_updateIrq _) fun hdma => ?_
  refine driven_ite (fun hr => ?_) fun _ => ?_
  · have hconfig : Driven (x.st.setReg r val) := by
      rcases hr with hr | hr <;> exact hplain _ (by decide) hr val
    exact driven_ite (fun _ => flushQueued_driven hconfig) fun _ => hconfig
  apply h.setReg
  simp only [causes, List.mem_cons, List.not_mem_nil, or_false, not_or]
  exact ⟨hmac, fun hr => henable (Or.inl hr), hdma, fun hr => henable (Or.inr hr)⟩

lemma reset_driven : Driven (mcxnEnetReset x).st :=
  show false = lineWanted ⟨resetRegs, resetPhy, 0, 0, false⟩ by decide

lemma step_driven (e : EnetEvent) (h : Driven x.st) : Driven (enetStep x e).st := by
  cases e with
  | write w =>
    simp only [enetStep, busWrite, enetWrite]
    split
    · split
      · exact h
      · exact writeReg_driven h _ _ _
    · exact h
  | frame bytes =>
    simp only [enetStep, frameArrives]
    split
    · exact deliver_driven h bytes
    · exact h
  | store addr bytes => exact h
  | reset => exact reset_driven x

lemma run_driven (mem : Mem) (events : List EnetEvent) :
    Driven (run enetStep (.powerOn mem) events).st := by
  have hstart : Driven (Controller.powerOn mem).st := reset_driven _
  exact run_invariant (P := fun x : Controller => Driven x.st) step_driven hstart events

/-- The line shows the PHY event and the summary bit that the guest reads. -/
def Coherent : Prop := s.irq = true ↔ phyPending s = true ∨ anyBit (enetRead s 0x1008 4) 0x1 = true

lemma read_dmaInterruptStatus : anyBit (enetRead s 0x1008 4) 0x1 =
      dmaPending s (dmaStatTi ||| dmaStatRi ||| dmaStatRbu) := by
  have hread : enetRead s 0x1008 4 =
      ((if dmaPending s (dmaStatTi ||| dmaStatRi ||| dmaStatRbu) then (1 : Word) else 0) >>> 0)
        &&& laneMask 0 4 := rfl
  rw [hread]
  cases dmaPending s (dmaStatTi ||| dmaStatRi ||| dmaStatRbu) <;> decide

lemma dmaPending_or (a b : Word) : dmaPending s (a ||| b) = (dmaPending s a || dmaPending s b) := by
  rw [dmaPending, anyBit_comm, anyBit_or, anyBit_comm a, anyBit_comm b]
  rfl

lemma Driven.coherent_iff {s : EnetState} (h : Driven s) : Coherent s ↔ (dmaPending s dmaStatRbu →
      phyPending s ∨ dmaPending s (dmaStatTi ||| dmaStatRi)) := by
  rw [Coherent, read_dmaInterruptStatus, dmaPending_or, h]
  simp only [lineWanted, Bool.or_eq_true]
  cases phyPending s <;> cases dmaPending s (dmaStatTi ||| dmaStatRi) <;>
    cases dmaPending s dmaStatRbu <;> simp

def ClearsWritten : Prop := (busWrite x w).st.regs rStatus = x.st.regs rStatus &&& ~~~w.placed

lemma laneMask_eq_lanes : laneMask (w.off % 4) w.width.bytes = w.lanes := by
  cases hwidth : w.width with
  | byte | half => rw [RegWrite.lanes, hwidth]; rfl
  | word => rw [RegWrite.lanes_of_word hwidth]; rfl

lemma writeReg_status (val ones : Word) :
    (enetWriteReg x rStatus val ones).st.regs rStatus = x.st.regs rStatus &&& ~~~val := by
  have hwrite : enetWriteReg x rStatus val ones =
      { x with
        st := mcxnEnetUpdateIrq (x.st.setReg rStatus (x.st.regs rStatus &&& ~~~val)) } := rfl
  exact update_self rStatus _ x.st.regs

lemma busWrite_status {w : RegWrite} (hw : w.idx = rStatus.val) : (busWrite x w).st.regs rStatus =
      x.st.regs rStatus &&& ~~~((x.st.regs rStatus &&& ~~~w.lanes) ||| w.placed) := by
  have hlt : w.off < 0x2000 := by
    have hidx : w.off / 4 = 0x458 := hw
    omega
  have hreg : (⟨w.off / 4, by omega⟩ : RegIdx) = rStatus := Fin.ext hw
  have hro : enetRegRo rStatus = false := by decide
  have hones : w.value <<< (8 * (w.off % 4)) &&& w.lanes = w.placed := w.placed_and_lanes
  rw [busWrite, enetWrite, dif_pos hlt]
  simp only [hreg, hro, laneMask_eq_lanes, hones, Bool.false_eq_true, if_false]
  exact writeReg_status x _ _

lemma clearsWritten_iff {w : RegWrite} (hw : w.idx = rStatus.val) :
    ClearsWritten x w ↔ x.st.regs rStatus &&& ~~~w.lanes = 0 := by
  rw [ClearsWritten, busWrite_status x hw]
  generalize x.st.regs rStatus = status
  constructor
  · intro h
    apply BitVec.eq_of_getLsbD_eq
    intro i hi
    have hbit := congrArg (fun v => BitVec.getLsbD v i) h
    have hplaced : w.lanes.getLsbD i = false → w.placed.getLsbD i = false := w.placed_of_not_lanes
    simp only [BitVec.getLsbD_and, BitVec.getLsbD_or, BitVec.getLsbD_not, hi, decide_true,
      Bool.true_and] at hbit
    cases hs : status.getLsbD i <;> cases hl : w.lanes.getLsbD i <;> simp_all
  intro h
  have hzero : (0 : Word) ||| w.placed = w.placed := BitVec.zero_or
  rw [h, hzero]

/-- Interrupt coherence: in a reached state the line agrees with the PHY event and
the summary bit just when an unavailable buffer is not the only enabled cause, and a
write to `DMA_CH0_STATUS` clears what it writes as one just when no status bit is set
outside its bytes. -/
theorem interrupts_coherent_iff (mem : Mem) (events : List EnetEvent) {x : Controller}
    (hx : x = run enetStep (.powerOn mem) events) {w : RegWrite}
    (hw : w.idx = rStatus.val) :
    Coherent x.st ∧ ClearsWritten x w ↔ (dmaPending x.st dmaStatRbu = true →
        phyPending x.st = true ∨ dmaPending x.st (dmaStatTi ||| dmaStatRi) = true) ∧
      x.st.regs rStatus &&& ~~~w.lanes = 0 := by
  have hdriven : Driven x.st := by
    rw [hx]
    exact run_driven mem events
  rw [hdriven.coherent_iff, clearsWritten_iff x hw]

def receiveOne : List EnetEvent :=
  [.write (.ofWord 0x44D 0x80C1), .write (.ofWord 0x447 0x1000),
    .write (.ofWord 0x442 0x1), .write (.ofWord 0x000 0x1), .frame [0x55]]

def ackRbuByte : RegWrite := ⟨0x1160, .byte, 0x80, by decide, by decide⟩

def ackRbu : RegWrite := .ofWord 0x458 0x80

def oneBuffer : Mem := store32 (fun _ => 0) 0x100C desOwn

theorem interrupts_coherent_received :
    dmaPending (run enetStep (.powerOn oneBuffer) receiveOne).st dmaStatRi = true ∧
      Coherent (run enetStep (.powerOn oneBuffer) receiveOne).st ∧
      ClearsWritten (run enetStep (.powerOn oneBuffer) receiveOne) ackRbu := by
  refine ⟨by decide +kernel, ?_⟩
  exact (interrupts_coherent_iff oneBuffer receiveOne rfl (by decide)).mpr (by decide +kernel)

theorem rbu_line_low_and_byte_ack_clears_nis :
    ¬ Coherent (run enetStep (.powerOn fun _ => 0) receiveOne).st ∧ ackRbuByte.idx = rStatus.val ∧
      ¬ ClearsWritten (run enetStep (.powerOn fun _ => 0) receiveOne) ackRbuByte := by
  unfold Coherent ClearsWritten
  decide +kernel

end Mcxn947.Enet
