import Mcxn947.ElsModel
import Mcxn947.PowerquadModel

/-!
# Results of the accelerators

An operation of the ELS or the PowerQuad leaves its result in guest memory and its
failure in an error status.
-/

namespace Mcxn947.AcceleratorResults

open MachineWords GuestMemory StoreFootprints

def newBits (before after : Word) : Word := after &&& ~~~before

lemma newBits_self (v : Word) : newBits v v = 0 := by
  unfold newBits
  simp

lemma newBits_raise {k : ℕ} (hk : k < 32) (v : Word) :
    newBits v (v ||| BitVec.twoPow 32 k) = 0 ↔ anyBit v (BitVec.twoPow 32 k) := by
  rw [anyBit_twoPow]
  constructor
  · intro h
    have hbit := congrArg (fun u => BitVec.getLsbD u k) h
    simpa [newBits, hk] using hbit
  intro h
  apply BitVec.eq_of_getLsbD_eq
  intro i hi
  by_cases hik : k = i
  · subst hik
    simp [newBits, h]
  · simp +contextual [newBits, BitVec.getLsbD_twoPow, hik]

section Els

open Els

def Starts (ctrl : Word) : Prop :=
  anyBit ctrl elsCtrlReset = false ∧ anyBit ctrl elsCtrlEn = true ∧ anyBit ctrl elsCtrlStart = true

def elsResult (s : ElsState) (ctrl : Word) : Set ℕ :=
  {a | ¬ IsTeardown (elsCtrlCmd ctrl) ∧
    Covers (s.reg elsDmaRes0).toNat (s.reg elsDmaRes0Len).toNat a}

def ElsHonest (s : ElsState) (m : Memory) (ctrl : Word) : Prop :=
  Honest
    (newBits (mcxnElsRead s elsErrStatus).1
      (mcxnElsRead (mcxnElsWrite s m.fresh elsCtrl ctrl).1 elsErrStatus).1 = 0)
    (elsResult s ctrl) (mcxnElsWrite s m.fresh elsCtrl ctrl).2

def ElsBacked (s : ElsState) (m : Memory) (ctrl : Word) : Prop :=
  IsTeardown (elsCtrlCmd ctrl) ∨ s.reg elsDmaRes0Len = 0 ∨
    (elsCtrlCmd ctrl = elsCmdRndReq ∧ (s.reg elsDmaRes0Len).toNat ≤ elsRndMax ∧
      ∀ a, Covers (s.reg elsDmaRes0).toNat (s.reg elsDmaRes0Len).toNat a → m.writable a = true) ∨
    ((elsCtrlCmd ctrl ≠ elsCmdRndReq ∨ elsRndMax < (s.reg elsDmaRes0Len).toNat) ∧
      anyBit s.errStatus elsErrOpn = false)

variable {s : ElsState} {m : Memory} {ctrl : Word}

lemma elsSetCtrl_reg (s : ElsState) (v : Word) {off : ℕ} (h : off / 4 ≠ 1) :
    (s.setReg elsCtrl v).reg off = s.reg off :=
  Function.update_of_ne h _ _

lemma elsWrite_start (h : Starts ctrl) :
    mcxnElsWrite s m elsCtrl ctrl = elsStartCommand (s.setReg elsCtrl ctrl) m := by
  have hro : elsIsRo elsCtrl = false := by decide
  unfold mcxnElsWrite
  rw [if_neg (by decide), hro, if_neg (by simp), if_neg (by decide),
    if_neg (by decide), if_pos rfl, h.1, h.2.1, h.2.2]
  rfl

lemma elsStartCommand_cases (s : ElsState) (m : Memory) (ctrl : Word) :
    (IsTeardown (elsCtrlCmd ctrl) ∧
      elsStartCommand (s.setReg elsCtrl ctrl) m = (s.setReg elsCtrl ctrl, m)) ∨
    (¬ IsTeardown (elsCtrlCmd ctrl) ∧ elsCtrlCmd ctrl = elsCmdRndReq ∧
      s.reg elsDmaRes0Len ≠ 0 ∧ (s.reg elsDmaRes0Len).toNat ≤ elsRndMax ∧
      (elsStartCommand (s.setReg elsCtrl ctrl) m).1.errStatus = s.errStatus ∧
      Stores {a | Covers (s.reg elsDmaRes0).toNat (s.reg elsDmaRes0Len).toNat a} m
      (elsStartCommand (s.setReg elsCtrl ctrl) m).2) ∨
    (¬ IsTeardown (elsCtrlCmd ctrl) ∧ (elsCtrlCmd ctrl = elsCmdRndReq →
      s.reg elsDmaRes0Len = 0 ∨ elsRndMax < (s.reg elsDmaRes0Len).toNat) ∧
      (elsStartCommand (s.setReg elsCtrl ctrl) m).1.errStatus = s.errStatus ||| elsErrOpn ∧
      (elsStartCommand (s.setReg elsCtrl ctrl) m).2 = m) := by
  have hctrl : (s.setReg elsCtrl ctrl).reg elsCtrl = ctrl := by simp [ElsState.reg, ElsState.setReg]
  have hres : (s.setReg elsCtrl ctrl).reg elsDmaRes0 = s.reg elsDmaRes0 :=
    elsSetCtrl_reg s ctrl (by decide)
  have hlen : (s.setReg elsCtrl ctrl).reg elsDmaRes0Len = s.reg elsDmaRes0Len :=
    elsSetCtrl_reg s ctrl (by decide)
  have hzero : (s.reg elsDmaRes0Len).toNat = 0 ↔ s.reg elsDmaRes0Len = 0 := by
    rw [← BitVec.toNat_inj]
    rfl
  unfold elsStartCommand
  simp only [hctrl]
  by_cases hrnd : elsCtrlCmd ctrl = elsCmdRndReq
  · have htear : ¬ IsTeardown (elsCtrlCmd ctrl) := by
      rw [hrnd]
      decide
    simp only [if_pos hrnd, elsDoRndReq, hres, hlen]
    by_cases hrange : (s.reg elsDmaRes0Len).toNat = 0 ∨ elsRndMax < (s.reg elsDmaRes0Len).toNat
    · rw [if_pos hrange]
      exact .inr (.inr ⟨htear, fun _ => hrange.imp_left hzero.mp, rfl, rfl⟩)
    rw [if_neg hrange]
    obtain ⟨hne, hle⟩ := not_or.mp hrange
    refine .inr (.inl ⟨htear, hrnd, fun h => hne (hzero.mpr h), Nat.not_lt.mp hle, ?_, ?_⟩)
    · exact elsRndBytes_errStatus _ _
    have hstores := m.storeBytes_stores (s.reg elsDmaRes0).toNat
      (elsRndBytes (s.reg elsDmaRes0Len).toNat (s.setReg elsCtrl ctrl)).1
    rwa [length_elsRndBytes] at hstores
  rw [if_neg hrnd]
  by_cases htear : IsTeardown (elsCtrlCmd ctrl)
  · rw [if_pos htear]
    exact .inl ⟨htear, rfl⟩
  · rw [if_neg htear]
    exact .inr (.inr ⟨htear, fun h => absurd h hrnd, rfl, rfl⟩)

lemma elsHonest_iff (h : Starts ctrl) : ElsHonest s m ctrl ↔ ElsBacked s m ctrl := by
  have hopn : elsErrOpn = BitVec.twoPow 32 1 := by decide
  have hread : ∀ s : ElsState, (mcxnElsRead s elsErrStatus).1 = s.errStatus := fun _ => rfl
  unfold ElsHonest ElsBacked
  rw [elsWrite_start h, hread, hread]
  obtain ⟨htear, heq⟩ | ⟨htear, hrnd, hlen, hmax, herr, hstores⟩ |
    ⟨htear, hrange, herr, hmem⟩ := elsStartCommand_cases s m.fresh ctrl
  · rw [heq, honest_iff (Stores.refl _) (Set.empty_subset _)]
    refine iff_of_true (fun _ a ha => ?_) (.inl htear)
    exact absurd htear ha.1
  · have hsub : {a | Covers (s.reg elsDmaRes0).toNat (s.reg elsDmaRes0Len).toNat a} ⊆
        elsResult s ctrl := fun a ha => ⟨htear, ha⟩
    rw [herr, newBits_self, honest_iff hstores hsub]
    constructor
    · intro hall
      exact .inr (.inr (.inl ⟨hrnd, hmax, fun a ha => (hall rfl a ⟨htear, ha⟩).2⟩))
    rintro (hno | hno | ⟨-, -, hall⟩ | ⟨hno, -⟩)
    · exact absurd hno htear
    · exact absurd hno hlen
    · exact fun _ a ha => ⟨ha.2, hall a ha.2⟩
    rcases hno with hno | hno
    · exact absurd hrnd hno
    · exact absurd hno (Nat.not_lt.mpr hmax)
  rw [herr, hmem, hopn, newBits_raise (by decide), honest_iff (Stores.refl _) (Set.empty_subset _)]
  have hresult : (∀ a ∈ elsResult s ctrl, a ∈ (∅ : Set ℕ) ∧ m.writable a) ↔
      s.reg elsDmaRes0Len = 0 := by
    constructor
    · intro hall
      by_contra hne
      have hpos : 0 < (s.reg elsDmaRes0Len).toNat := by
        rw [Nat.pos_iff_ne_zero]
        exact fun h => hne (BitVec.eq_of_toNat_eq h)
      exact (hall (s.reg elsDmaRes0).toNat ⟨htear, le_rfl, by omega⟩).1
    intro hzero a ha
    have hcovers := ha.2
    rw [hzero] at hcovers
    exact absurd hcovers.2 (Nat.not_lt.mpr hcovers.1)
  rw [hresult]
  constructor
  · intro himp
    by_cases hset : anyBit s.errStatus (BitVec.twoPow 32 1) = true
    · exact .inr (.inl (himp hset))
    by_cases hzero : s.reg elsDmaRes0Len = 0
    · exact .inr (.inl hzero)
    refine .inr (.inr (.inr ⟨?_, Bool.not_eq_true _ ▸ hset⟩))
    by_cases hrnd : elsCtrlCmd ctrl = elsCmdRndReq
    · exact .inr ((hrange hrnd).resolve_left hzero)
    · exact .inl hrnd
  rintro (hno | hzero | ⟨hrnd, hmax, -⟩ | ⟨-, hclear⟩) hset
  · exact absurd hno htear
  · exact hzero
  · exact (hrange hrnd).resolve_right (Nat.not_lt.mpr hmax)
  · exact absurd hset (by rw [hclear]; decide)

end Els

section Powerquad

open Powerquad

def Computes (opcode : Word) : Prop :=
  opcode ∈ [pqMtxMult, pqMtxAdd, pqMtxSub, pqMtxScale, pqMtxTran, pqVecDotp]
deriving Decidable

def computedElems (opcode len : Word) : ℕ :=
  if opcode = pqMtxMult then rows len * cols2 len
  else if opcode = pqVecDotp then 1
  else rows len * cols len

def resultElems (elems : Word → Word → ℕ) (control len : Word) : ℕ :=
  if ctrlMachine control = cpMtx ∧ Computes (ctrlOpcode control) then
    computedElems (ctrlOpcode control) len
  else elems control len

def pqResult (elems : Word → Word → ℕ) (s : PowerquadState) (control : Word) : Set ℕ :=
  elements (s.reg rOutbase) (pqType (s.reg rOutformat)) (resultElems elems control (s.reg rLength))

variable {D : Type} (fp : Doubles D) (elems : Word → Word → ℕ)

def PqHonest (s : PowerquadState) (m : Memory) (control : Word) : Prop :=
  Honest
    (newBits (mcxnPowerquadRead s rErrstat)
      (mcxnPowerquadRead (mcxnPowerquadWrite fp s m.fresh rControl control).1 rErrstat) = 0)
    (pqResult elems s control) (mcxnPowerquadWrite fp s m.fresh rControl control).2

def PqBacked (s : PowerquadState) (m : Memory) (control : Word) : Prop :=
  if ctrlMachine control = cpMtx ∧ Computes (ctrlOpcode control) then
    ∀ a ∈ pqResult elems s control, m.writable a = true
  else
    elems control (s.reg rLength) = 0 ∨
      ctrlMachine control = cpMtx ∧ anyBit (s.reg rErrstat) errstatBuserror = false

lemma pqSetReg_reg_of_ne (s : PowerquadState) (v : Word) {off off' : ℕ}
    (h : off' / 4 ≠ off / 4) : (s.setReg off v).reg off' = s.reg off' :=
  Function.update_of_ne h _ _

variable {opcode : Word}

lemma matrix_computes (s : PowerquadState) (m : Memory) (h : Computes opcode) :
    (mcxnPowerquadMatrix fp s m opcode).1 = s ∧
      Stores (elements (s.reg rOutbase) (pqType (s.reg rOutformat))
      (computedElems opcode (s.reg rLength))) m (mcxnPowerquadMatrix fp s m opcode).2 := by
  simp only [Computes, List.mem_cons, List.not_mem_nil, or_false] at h
  rcases h with rfl | rfl | rfl | rfl | rfl | rfl
  · refine ⟨rfl, ?_⟩
    exact stores_matrix (fun i j => i * cols2 (s.reg rLength) + j)
      (fun i m j => pqStore_stores fp m _ _ _ _) (rowMajor_index _ _) m
  · exact ⟨rfl, stores_vector (fun m i => pqStore_stores fp m _ _ _ _) _ m⟩
  · exact ⟨rfl, stores_vector (fun m i => pqStore_stores fp m _ _ _ _) _ m⟩
  · exact ⟨rfl, stores_vector (fun m i => pqStore_stores fp m _ _ _ _) _ m⟩
  · refine ⟨rfl, ?_⟩
    exact stores_matrix (fun i j => j * rows (s.reg rLength) + i)
      (fun i m j => pqStore_stores fp m _ _ _ _) (columnMajor_index _ _) m
  refine ⟨rfl, (pqStore_stores fp m _ 0 _ _).congr fun a => ?_⟩
  have hone : computedElems pqVecDotp (s.reg rLength) = 1 := rfl
  simp [elements, hone]

lemma matrix_refuses (s : PowerquadState) (m : Memory) (h : ¬ Computes opcode) :
    mcxnPowerquadMatrix fp s m opcode =
      (s.setReg rErrstat (s.reg rErrstat ||| errstatBuserror), m) := by
  simp only [Computes, List.mem_cons, List.not_mem_nil, or_false, not_or] at h
  obtain ⟨hmult, hadd, hsub, hscale, htran, hdotp⟩ := h
  unfold mcxnPowerquadMatrix
  simp only [if_neg hmult, if_neg (not_or.mpr ⟨hadd, hsub⟩), if_neg hscale, if_neg htran,
    if_neg hdotp]

lemma elements_empty_iff (base : Word) (type : PqType) (n : ℕ) :
    elements base type n = ∅ ↔ n = 0 := by
  constructor
  · intro hempty
    by_contra hne
    have hsize : 0 < type.size := by cases type <;> decide
    have hmem : elementAddr base 0 type ∈ elements base type n :=
      ⟨0, Nat.pos_of_ne_zero hne, le_rfl, by omega⟩
    rwa [hempty] at hmem
  · rintro rfl
    simp [elements]

lemma honest_of_nothing_stored (noError : Prop) (s : PowerquadState) (m : Memory)
    {control : Word} (h : ¬ (ctrlMachine control = cpMtx ∧ Computes (ctrlOpcode control))) :
    Honest noError (pqResult elems s control) m.fresh ↔
      (noError → elems control (s.reg rLength) = 0) := by
  have hresult : pqResult elems s control = elements (s.reg rOutbase)
      (pqType (s.reg rOutformat)) (elems control (s.reg rLength)) := by
    rw [pqResult, resultElems, if_neg h]
  rw [honest_iff (Stores.refl _) (Set.empty_subset _), ← elements_empty_iff, ← hresult,
    Set.eq_empty_iff_forall_notMem]
  constructor
  · exact fun hall he a ha => (hall he a ha).1
  · exact fun hall he a ha => absurd ha (hall he a)

section

variable (s : PowerquadState) (m : Memory) (control : Word)

lemma write_launch :
    (mcxnPowerquadWrite fp s m rControl control).2 = (if ctrlMachine control = cpMtx then
      (mcxnPowerquadMatrix fp (s.setReg rControl (control &&& ~~~controlInstBusy)) m
      (ctrlOpcode control)).2 else m) ∧
      mcxnPowerquadRead (mcxnPowerquadWrite fp s m rControl control).1 rErrstat =
      if ctrlMachine control = cpMtx ∧ ¬ Computes (ctrlOpcode control) then
      s.reg rErrstat ||| errstatBuserror else s.reg rErrstat := by
  have hread : ∀ s : PowerquadState, mcxnPowerquadRead s rErrstat = s.reg rErrstat := fun _ => rfl
  have hirq : ∀ s : PowerquadState, ∀ off,
      (mcxnPowerquadUpdateIrq s).reg off = s.reg off := fun _ _ => rfl
  unfold mcxnPowerquadWrite
  rw [if_neg (by decide), if_pos rfl]
  rw [hread, hirq, pqSetReg_reg_of_ne _ _ (by decide)]
  by_cases hmtx : ctrlMachine control = cpMtx
  · simp only [hmtx, if_true, true_and]
    by_cases hcomp : Computes (ctrlOpcode control)
    · rw [(matrix_computes fp _ m hcomp).1, if_neg (not_not.mpr hcomp)]
      exact pqSetReg_reg_of_ne s _ (by decide)
    · rw [matrix_refuses fp _ m hcomp, if_pos hcomp]
      simp [PowerquadState.reg, PowerquadState.setReg, rErrstat, rControl]
  · simp only [hmtx, false_and, if_false, true_and]
    exact pqSetReg_reg_of_ne s _ (by decide)

lemma pqHonest_iff : PqHonest fp elems s m control ↔ PqBacked elems s m control := by
  have hbus : errstatBuserror = BitVec.twoPow 32 4 := by decide
  obtain ⟨hmem, herr⟩ := write_launch fp s m.fresh control
  have hread : mcxnPowerquadRead s rErrstat = s.reg rErrstat := rfl
  unfold PqHonest PqBacked
  rw [hmem, herr, hread]
  by_cases hmtx : ctrlMachine control = cpMtx
  · by_cases hcomp : Computes (ctrlOpcode control)
    · have hstores := (matrix_computes fp
        (s.setReg rControl (control &&& ~~~controlInstBusy)) m.fresh hcomp).2
      rw [pqSetReg_reg_of_ne _ _ (by decide), pqSetReg_reg_of_ne _ _ (by decide),
        pqSetReg_reg_of_ne _ _ (by decide)] at hstores
      have hresult : pqResult elems s control = elements (s.reg rOutbase)
          (pqType (s.reg rOutformat)) (computedElems (ctrlOpcode control) (s.reg rLength)) := by
        rw [pqResult, resultElems, if_pos ⟨hmtx, hcomp⟩]
      rw [if_pos hmtx, if_neg (fun h => h.2 hcomp), newBits_self,
        if_pos ⟨hmtx, hcomp⟩, hresult, honest_iff hstores subset_rfl]
      constructor
      · exact fun hall a ha => (hall rfl a ha).2
      · exact fun hall _ a ha => ⟨ha, hall a ha⟩
    have hnot : ¬ (ctrlMachine control = cpMtx ∧ Computes (ctrlOpcode control)) :=
      fun h => hcomp h.2
    rw [if_pos hmtx, matrix_refuses fp _ _ hcomp, if_pos ⟨hmtx, hcomp⟩,
      if_neg hnot, honest_of_nothing_stored elems _ s m hnot, hbus, newBits_raise (by decide)]
    cases anyBit (s.reg rErrstat) (BitVec.twoPow 32 4) <;> simp [hmtx]
  have hnot : ¬ (ctrlMachine control = cpMtx ∧ Computes (ctrlOpcode control)) := fun h => hmtx h.1
  rw [if_neg hmtx, if_neg (fun h => hmtx h.1), if_neg hnot,
    honest_of_nothing_stored elems _ s m hnot, newBits_self]
  simp [hmtx]

end

end Powerquad

open Els Powerquad

/-- For every ELS command and every PowerQuad instruction, over any guest memory: no new
error bit means that the whole result is stored, and nothing else ever is, exactly when
the engine can deliver the result or newly raises its error. -/
theorem accelerators_honest_iff {D : Type} (fp : Doubles D) (elems : Word → Word → ℕ) (m : Memory) :
    (∀ (s : ElsState) (ctrl : Word), Starts ctrl → (ElsHonest s m ctrl ↔ ElsBacked s m ctrl)) ∧
    (∀ (s : PowerquadState) (control : Word),
      PqHonest fp elems s m control ↔ PqBacked elems s m control) :=
  ⟨fun _ _ h => elsHonest_iff h, fun s control => pqHonest_iff fp elems s m control⟩

def ramOnly : Memory where
  bytes := fun _ => 0
  writable := fun a => 0x20000000 ≤ a && a < 0x20060000
  stored := []

def rndReqAt (addr : Word) : ElsState :=
  let s := (mcxnElsWrite (mcxnElsReset 1) ramOnly elsDmaRes0 addr).1
  (mcxnElsWrite s ramOnly elsDmaRes0Len 4).1

def outputAt (addr : Word) : PowerquadState :=
  let s := (mcxnPowerquadWrite hostDoubles mcxnPowerquadReset ramOnly rOutbase addr).1
  (mcxnPowerquadWrite hostDoubles s ramOnly rLength 8).1

theorem accelerators_honest_in_ram : ElsHonest (rndReqAt 0x20000000) ramOnly 0xC3 ∧
      PqHonest hostDoubles (fun _ _ => 16) (outputAt 0x20000000) ramOnly 0x19 := by
  obtain ⟨hels, hpq⟩ := accelerators_honest_iff hostDoubles (fun _ _ => 16) ramOnly
  have hram : ∀ addr len a, 0x20000000 ≤ addr → addr + len ≤ 0x20060000 →
      Covers addr len a → ramOnly.writable a = true := by
    intro addr len a hlow hhigh hcovers
    have hle := hcovers.1
    have hlt := hcovers.2
    simp only [ramOnly, Bool.and_eq_true, decide_eq_true_eq]
    omega
  constructor
  · refine (hels _ _ ⟨by decide, by decide, by decide⟩).mpr
      (.inr (.inr (.inl ⟨by decide, by decide +kernel, fun a ha => ?_⟩)))
    exact hram _ _ a (by decide +kernel) (by decide +kernel) ha
  refine (hpq _ _).mpr ?_
  rintro a ⟨i, hi, ha⟩
  obtain rfl : i = 0 := Nat.lt_one_iff.mp hi
  exact hram _ _ a (by decide +kernel) (by decide +kernel) ha

theorem accelerators_silent : ¬ ElsHonest (rndReqAt 0x1000) ramOnly 0xC3 ∧
      ¬ PqHonest hostDoubles (fun _ _ => 16) (outputAt 0x20000000) ramOnly 0x20 := by
  constructor
  · intro h
    have hstored := h.complete (by decide +kernel) 0x1000
      ⟨by decide +kernel, by decide +kernel, by decide +kernel⟩
    revert hstored
    decide +kernel
  intro h
  have hstored := h.complete (by decide +kernel) 0x20000000
    ⟨0, by decide +kernel, by decide +kernel, by decide +kernel⟩
  revert hstored
  decide +kernel

end Mcxn947.AcceleratorResults
