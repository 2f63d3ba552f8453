import Mcxn947.UsdhcModel

/-!
# When transfer-complete tells the truth

`INT_STATUS[TC]` ends the data phase of a command.
-/

namespace Mcxn947.Usdhc

open MachineWords GuestMemory List Controller UsdhcState

variable {κ : Type} (bus : SdBus κ) (read : Bool)

@[simp] lemma movePiece_exchanged (w : Wire κ) (addr n : ℕ) :
    (movePiece bus read w addr n).exchanged = w.exchanged + n := by
  cases read <;> rfl

lemma moveLoop_exchanged : ∀ fuel (w : Wire κ) addr len, len ≤ fuel →
      (moveLoop bus read fuel w addr len).exchanged = w.exchanged + len := by
  intro fuel
  induction fuel with
  | zero =>
    intro w addr len hlen
    rw [Nat.le_zero.mp hlen]
    rfl
  | succ fuel ih =>
    intro w addr len hlen
    rw [moveLoop]
    by_cases hzero : len = 0
    · simp [hzero]
    · rw [if_neg hzero, ih _ _ _ (by omega), movePiece_exchanged]
      omega

@[simp] lemma moveBytes_exchanged (w : Wire κ) (addr len : ℕ) :
    (moveBytes bus read w addr len).exchanged = w.exchanged + len :=
  moveLoop_exchanged bus read len w addr len le_rfl

def Usable (w : Wire κ) (desc : ℕ) : Prop :=
  descReadable w desc = true ∧ anyBit (descAttr w desc) admaValid = true

/-- From the descriptor at `desc` on, the table has `left` bytes to move, within
`guard` descriptors.  A transfer may overwrite later descriptors, so they are taken
as the earlier ones leave them. -/
inductive Supplies (read : Bool) : Wire κ → ℕ → ℕ → ℕ → Prop
  | done {w : Wire κ} {desc guard : ℕ} : Supplies read w desc 0 guard
  | transfer {w : Wire κ} {desc left guard : ℕ} : Usable w desc → descAct w desc = admaActTran →
      (descLen w desc < left → anyBit (descAttr w desc) admaEnd = false) →
      Supplies read (moveBytes bus read w (descAddr w desc) (min (descLen w desc) left))
        (desc + 8) (left - min (descLen w desc) left) guard →
      Supplies read w desc left (guard + 1)
  | link {w : Wire κ} {desc left guard : ℕ} : Usable w desc → descAct w desc = admaActLink →
      Supplies read w (descAddr w desc) left guard →
      Supplies read w desc left (guard + 1)
  | skip {w : Wire κ} {desc left guard : ℕ} :
      Usable w desc → descAct w desc ≠ admaActTran → descAct w desc ≠ admaActLink →
      anyBit (descAttr w desc) admaEnd = false →
      Supplies read w (desc + 8) left guard →
      Supplies read w desc left (guard + 1)

section Inversion

variable {bus} {read : Bool} {w : Wire κ} {desc left guard : ℕ}

section

variable (hleft : left ≠ 0)
include hleft

lemma Supplies.usable (h : Supplies bus read w desc left guard) : Usable w desc := by
  cases h with
  | done => exact absurd rfl hleft
  | transfer husable | link husable | skip husable => exact husable

lemma not_supplies_zero : ¬ Supplies bus read w desc left 0 := by
  intro h
  cases h
  exact hleft rfl

section

variable (husable : Usable w desc)
include husable

lemma supplies_transfer_iff (hact : descAct w desc = admaActTran) :
    Supplies bus read w desc left (guard + 1) ↔
      (descLen w desc < left → anyBit (descAttr w desc) admaEnd = false) ∧
      Supplies bus read (moveBytes bus read w (descAddr w desc) (min (descLen w desc) left))
      (desc + 8) (left - min (descLen w desc) left) guard := by
  constructor
  · intro h
    cases h with
    | done => exact absurd rfl hleft
    | transfer _ _ hmore hrest => exact ⟨hmore, hrest⟩
    | link _ hlink => rw [hact] at hlink; exact absurd hlink (by decide)
    | skip _ hno => exact absurd hact hno
  · rintro ⟨hmore, hrest⟩
    exact .transfer husable hact hmore hrest

lemma supplies_link_iff (hact : descAct w desc = admaActLink) :
    Supplies bus read w desc left (guard + 1) ↔
      Supplies bus read w (descAddr w desc) left guard := by
  constructor
  · intro h
    cases h with
    | done => exact absurd rfl hleft
    | transfer _ htran => rw [hact] at htran; exact absurd htran (by decide)
    | link _ _ hrest => exact hrest
    | skip _ _ hno => exact absurd hact hno
  · exact .link husable hact

lemma supplies_skip_iff
    (htran : descAct w desc ≠ admaActTran) (hlink : descAct w desc ≠ admaActLink) :
    Supplies bus read w desc left (guard + 1) ↔ anyBit (descAttr w desc) admaEnd = false ∧
      Supplies bus read w (desc + 8) left guard := by
  constructor
  · intro h
    cases h with
    | done => exact absurd rfl hleft
    | transfer _ hact => exact absurd hact htran
    | link _ hact => exact absurd hact hlink
    | skip _ _ _ hend hrest => exact ⟨hend, hrest⟩
  · rintro ⟨hend, hrest⟩
    exact .skip husable htran hlink hend hrest

end

end

end Inversion

lemma admaLoop_spec : ∀ guard (w : Wire κ) desc left,
      (admaLoop bus read guard w desc left).1.exchanged ≤ w.exchanged + left ∧
      ((admaLoop bus read guard w desc left).1.exchanged = w.exchanged + left ↔
      Supplies bus read w desc left guard) := by
  intro guard
  induction guard with
  | zero =>
    intro w desc left
    by_cases hleft : left = 0
    · subst hleft
      simp [admaLoop, Supplies.done]
    · simp [admaLoop, hleft, not_supplies_zero hleft]
  | succ guard ih =>
    intro w desc left
    by_cases hleft : left = 0
    · subst hleft
      simp [admaLoop, Supplies.done]
    rw [admaLoop, if_neg hleft]
    by_cases husable : Usable w desc
    · obtain ⟨hread, hvalid⟩ := id husable
      simp only [hread, hvalid, Bool.not_true, Bool.false_eq_true, if_false]
      by_cases htran : descAct w desc = admaActTran
      · rw [if_pos htran, supplies_transfer_iff hleft husable htran]
        cases hend : anyBit (descAttr w desc) admaEnd with
        | true =>
          -- the table ends here: all the bytes, or too few
          simp only [if_true, moveBytes_exchanged]
          refine ⟨by omega, ?_⟩
          constructor
          · intro hall
            have hlen : left - min (descLen w desc) left = 0 := by omega
            rw [hlen]
            exact ⟨fun hlt => by omega, .done⟩
          rintro ⟨hmore, -⟩
          by_contra hne
          exact absurd (hmore (by omega)) (by decide)
        | false =>
          have hnext := ih (moveBytes bus read w (descAddr w desc)
            (min (descLen w desc) left)) (desc + 8) (left - min (descLen w desc) left)
          simpa using hnext
      rw [if_neg htran]
      by_cases hlink : descAct w desc = admaActLink
      · rw [if_pos hlink, supplies_link_iff hleft husable hlink]
        exact ih w (descAddr w desc) left
      rw [if_neg hlink, supplies_skip_iff hleft husable htran hlink]
      cases hend : anyBit (descAttr w desc) admaEnd with
      | true => simp [hleft]
      | false => simpa using ih w (desc + 8) left
    have hno : ¬ Supplies bus read w desc left (guard + 1) := fun h =>
      husable (h.usable hleft)
    rw [Usable, not_and_or, Bool.not_eq_true, Bool.not_eq_true] at husable
    rcases husable with hread | hvalid
    · simp [hread, hno, hleft]
    · cases hread : descReadable w desc <;> simp [hvalid, hno, hleft]

inductive PortAccess
  | read
  | write (val : Word)

def portStep (u : Controller κ) : PortAccess → Controller κ
  | .read => (mcxnUsdhcRead bus u 0x20).2
  | .write val => mcxnUsdhcWrite bus u 0x20 val

def portAccesses (u : Controller κ) (accesses : List PortAccess) : Controller κ :=
  EventRuns.run (portStep bus) u accesses

variable (u : Controller κ)

lemma portStep_read : portStep bus u .read = (portRead bus u).2 := rfl

lemma portStep_write (val : Word) : portStep bus u (.write val) = portWrite bus u val := rfl

variable (s : UsdhcState) {u : Controller κ}

lemma portRead_armed (hlen : u.st.dataLen ≠ 0)
    (hdir : u.st.dataRead) : ∃ card, (portRead bus u).2 = portAdvance u card := by
  have harmed : (decide (u.st.dataLen = 0) || !u.st.dataRead) = false := by
    rw [decide_eq_false hlen, hdir]; rfl
  rw [portRead, harmed]
  exact ⟨_, rfl⟩

lemma portWrite_armed (hlen : u.st.dataLen ≠ 0) (hdir : u.st.dataRead = false) (val : Word) :
    ∃ card, portWrite bus u val = portAdvance u card := by
  have harmed : (decide (u.st.dataLen = 0) || u.st.dataRead) = false := by
    rw [decide_eq_false hlen, hdir]; rfl
  rw [portWrite, harmed]
  exact ⟨_, rfl⟩

lemma portStep_cases (u : Controller κ) (a : PortAccess) : portStep bus u a = u ∨
      u.st.dataLen ≠ 0 ∧ ∃ card, portStep bus u a = portAdvance u card := by
  by_cases hlen : u.st.dataLen = 0
  · left
    cases a with
    | read => rw [portStep_read, portRead, if_pos (by rw [decide_eq_true hlen]; rfl)]
    | write val => rw [portStep_write, portWrite, if_pos (by rw [decide_eq_true hlen]; rfl)]
  cases a with
  | read =>
    cases hdir : u.st.dataRead with
    | true => exact .inr ⟨hlen, portRead_armed bus hlen hdir⟩
    | false => left; simp [portStep_read, portRead, hdir]
  | write val =>
    cases hdir : u.st.dataRead with
    | true => left; simp [portStep_write, portWrite, hdir]
    | false => exact .inr ⟨hlen, portWrite_armed bus hlen hdir val⟩

lemma exists_portStep_armed (hlen : u.st.dataLen ≠ 0) :
    ∃ a card, portStep bus u a = portAdvance u card := by
  cases hdir : u.st.dataRead with
  | true => exact ⟨.read, portRead_armed bus hlen hdir⟩
  | false => exact ⟨.write 0, portWrite_armed bus hlen hdir 0⟩

lemma portAccesses_idle (hlen : u.st.dataLen = 0)
    (accesses : List PortAccess) : portAccesses bus u accesses = u := by
  refine EventRuns.run_invariant (P := fun v => v = u) ?_ rfl accesses
  rintro v a rfl
  rcases portStep_cases bus v a with h | ⟨h, -⟩
  · exact h
  · exact absurd hlen h

def maxTotal : ℕ := 0x1FFF * 0xFFFF

def WellPhased : Prop :=
  s.dataLen ≠ 0 →
    s.dataPos.toNat < s.dataLen.toNat ∧ 4 ∣ s.dataPos.toNat ∧ s.dataLen.toNat ≤ maxTotal

section

variable (hu : WellPhased u.st) (hlen : u.st.dataLen ≠ 0) (card : κ)
include hu hlen

lemma portAdvance_spec : (portAdvance u card).wire.exchanged = u.wire.exchanged + 4 ∧
    (u.st.dataLen.toNat ≤ u.st.dataPos.toNat + 4 ∧ (portAdvance u card).st.dataLen = 0 ∧
      (portAdvance u card).completions = u.completions ++ [u.wire.exchanged + 4] ∨
      u.st.dataPos.toNat + 4 < u.st.dataLen.toNat ∧ (portAdvance u card).st.dataLen = u.st.dataLen ∧
      (portAdvance u card).st.dataPos.toNat = u.st.dataPos.toNat + 4 ∧
      (portAdvance u card).completions = u.completions) := by
  obtain ⟨hpos, -, hmax⟩ := hu hlen
  have hnext : (u.st.dataPos + 4).toNat = u.st.dataPos.toNat + 4 := by
    rw [BitVec.toNat_add, show (4 : Word).toNat = 4 from rfl]
    rw [maxTotal] at hmax
    omega
  by_cases hlast : u.st.dataLen ≤ u.st.dataPos + 4
  · have hle := BitVec.le_def.mp hlast
    rw [hnext] at hle
    simp only [portAdvance, if_pos hlast]
    exact ⟨rfl, .inl ⟨hle, rfl, rfl⟩⟩
  have hlt := mt BitVec.le_def.mpr hlast
  rw [hnext, Nat.not_le] at hlt
  simp only [portAdvance, if_neg hlast]
  exact ⟨trivial, .inr ⟨hlt, trivial, hnext, trivial⟩⟩

lemma portAdvance_wellPhased : WellPhased (portAdvance u card).st := by
  obtain ⟨-, ⟨-, hdone, -⟩ | ⟨hmore, hkeep, hpos, -⟩⟩ := portAdvance_spec hu hlen card
  · exact fun h => absurd hdone h
  obtain ⟨-, hstep, hmax⟩ := hu hlen
  intro _
  rw [hkeep, hpos]
  exact ⟨hmore, Nat.dvd_add hstep (dvd_refl 4), hmax⟩

end

lemma portAdvance_tc (hlen : u.st.dataLen ≠ 0) (card : κ) :
    anyBit ((portAdvance u card).st.regs rIntStatus) intTc =
      (anyBit (u.st.regs rIntStatus) intTc || decide ((portAdvance u card).st.dataLen = 0)) := by
  by_cases hlast : u.st.dataLen ≤ u.st.dataPos + 4
  · simp only [portAdvance, if_pos hlast]
    simp [updateIrq, mcxnUsdhcUpdateIrq, raiseTc, raise, orReg, setReg, anyBit_or,
      show anyBit intTc intTc = true by decide]
  · simp only [portAdvance, if_neg hlast, decide_eq_false hlen, Bool.or_false]

/-- `INT_STATUS[TC]` is set just when it was set before, as `tc` says, or a completion has
been logged since. -/
def TcShown (tc : Bool) (u : Controller κ) : Prop :=
  anyBit (u.st.regs rIntStatus) intTc = (tc || !u.completions.isEmpty)

lemma tcShown_raiseTc (tc : Bool) (u : Controller κ) : TcShown tc u.raiseTc := by
  simp [TcShown, raiseTc, raise, orReg, setReg, anyBit_or, show anyBit intTc intTc = true by decide]

lemma TcShown.portAccesses {tc : Bool} (h : TcShown tc u) (accesses : List PortAccess) :
    TcShown tc (portAccesses bus u accesses) := by
  refine EventRuns.run_invariant (P := TcShown tc) ?_ h accesses
  intro v a hv
  rcases portStep_cases bus v a with hsame | ⟨-, card, hstep⟩
  · rwa [hsame]
  rw [hstep, portAdvance]
  dsimp only
  split
  · exact tcShown_raiseTc tc _
  · exact hv

def stillToMove : ℕ := 4 * ((s.dataLen.toNat + 3) / 4) - s.dataPos.toNat

section

variable (hu : WellPhased u.st) (hlen : u.st.dataLen ≠ 0)
include hu hlen

lemma portAccesses_completions (accesses : List PortAccess) :
    (portAccesses bus u accesses).completions = u.completions ∨
      (portAccesses bus u accesses).completions =
      u.completions ++ [u.wire.exchanged + stillToMove u.st] := by
  induction accesses generalizing u with
  | nil => exact .inl rfl
  | cons a rest ih =>
    rw [portAccesses, EventRuns.run_cons]
    rcases portStep_cases bus u a with hsame | ⟨-, card, hstep⟩
    · rw [hsame]
      exact ih hu hlen
    rw [hstep]
    obtain ⟨hpos, hfour, hmax⟩ := hu hlen
    obtain ⟨hexchanged, ⟨hlast, hzero, hdone⟩ | ⟨hmore, hkeep, hnext, hdone⟩⟩ :=
      portAdvance_spec hu hlen card
    · right
      have hidle := portAccesses_idle bus hzero rest
      rw [portAccesses] at hidle
      rw [hidle, hdone, stillToMove]
      congr 2
      omega
    have hrest := ih (portAdvance_wellPhased hu hlen card) (by rw [hkeep]; exact hlen)
    rw [portAccesses, hdone, hexchanged, stillToMove, hkeep, hnext] at hrest
    rw [stillToMove]
    have hsum : u.wire.exchanged + 4 +
        (4 * ((u.st.dataLen.toNat + 3) / 4) - (u.st.dataPos.toNat + 4)) =
        u.wire.exchanged + (4 * ((u.st.dataLen.toNat + 3) / 4) - u.st.dataPos.toNat) := by
      omega
    rw [← hsum]
    exact hrest

lemma exists_completed : ∃ accesses, (portAccesses bus u accesses).completions =
      u.completions ++ [u.wire.exchanged + stillToMove u.st] := by
  -- the bytes left decrease with each access that moves some
  induction hleft : u.st.dataLen.toNat - u.st.dataPos.toNat using Nat.strong_induction_on
    generalizing u with
  | _ left ih =>
    obtain ⟨a, card, hstep⟩ := exists_portStep_armed bus hlen
    obtain ⟨hpos, hfour, hmax⟩ := hu hlen
    obtain ⟨hexchanged, ⟨hlast, hzero, hdone⟩ | ⟨hmore, hkeep, hnext, hdone⟩⟩ :=
      portAdvance_spec hu hlen card
    · refine ⟨[a], ?_⟩
      rw [portAccesses, EventRuns.run_cons, EventRuns.run_nil, hstep, hdone, stillToMove]
      congr 2
      omega
    obtain ⟨rest, hrest⟩ := ih _ (by rw [hkeep, hnext]; omega)
      (portAdvance_wellPhased hu hlen card) (by rw [hkeep]; exact hlen) rfl
    refine ⟨a :: rest, ?_⟩
    rw [portAccesses, EventRuns.run_cons, hstep]
    rw [portAccesses, hdone, hexchanged, stillToMove, hkeep, hnext] at hrest
    rw [hrest, stillToMove]
    congr 2
    omega

end

def Truthful (u : Controller κ) (total : ℕ) : Prop :=
  ∀ accesses, ∀ e ∈ (portAccesses bus u accesses).completions, e = total

lemma truthful_completed_iff (hu : WellPhased u.st) (total : ℕ)
    (hdone : u.completions = [u.wire.exchanged]) :
    Truthful bus u total ↔ u.wire.exchanged = total ∧ u.st.dataLen = 0 := by
  constructor
  · intro h
    have hnow : u.wire.exchanged = total := h [] _ (by simp [portAccesses, hdone])
    refine ⟨hnow, ?_⟩
    by_contra hlen
    obtain ⟨accesses, hlater⟩ := exists_completed bus hu hlen
    have hthen := h accesses (u.wire.exchanged + stillToMove u.st) (by simp [hlater])
    obtain ⟨hpos, -, -⟩ := hu hlen
    rw [stillToMove] at hthen
    omega
  rintro ⟨hnow, hlen⟩ accesses e he
  rw [portAccesses_idle bus hlen, hdone, mem_singleton] at he
  rw [he, hnow]

lemma truthful_armed_iff (hu : WellPhased u.st) {total : ℕ}
    (hdone : u.completions = []) (hexchanged : u.wire.exchanged = 0)
    (hlen : u.st.dataLen.toNat = total) (htotal : total ≠ 0) (hpos : u.st.dataPos = 0) :
    Truthful bus u total ↔ total % 4 = 0 := by
  have harmed : u.st.dataLen ≠ 0 := by
    intro h
    rw [h] at hlen
    exact htotal hlen.symm
  have hmove : stillToMove u.st = 4 * ((total + 3) / 4) := by
    rw [stillToMove, hlen, hpos]
    rfl
  constructor
  · intro h
    obtain ⟨accesses, hlater⟩ := exists_completed bus hu harmed
    have hthen := h accesses (u.wire.exchanged + stillToMove u.st) (by simp [hlater])
    omega
  intro hfour accesses e he
  rcases portAccesses_completions bus hu harmed accesses with h | h
  · rw [h, hdone] at he
    exact absurd he (not_mem_nil)
  · rw [h, hdone, hexchanged, hmove, nil_append, mem_singleton] at he
    omega

inductive UsdhcEvent (κ : Type)
  | read (off : ℕ)
  | write (off : ℕ) (val : Word)
  | reset
  | outside (card : κ) (mem : Mem) (mapped : ℕ → Bool)

def usdhcStep (u : Controller κ) : UsdhcEvent κ → Controller κ
  | .read off => (mcxnUsdhcRead bus u off).2
  | .write off val => mcxnUsdhcWrite bus u off val
  | .reset => mcxnUsdhcReset u
  | .outside card mem mapped =>
    { u with wire := { u.wire with card := card, mem := mem, mapped := mapped } }

def Reachable (u : Controller κ) : Prop :=
  ∃ (start : Controller κ) (events : List (UsdhcEvent κ)),
    u = EventRuns.run (usdhcStep bus) (mcxnUsdhcReset start) events

def setupRegs : List RegIdx := [rBlkAtt, rMixCtrl, rProtCtrl, rAdmaSysAddr, rDsAddr]

structure SamePhase (u v : UsdhcState) : Prop where
  dataLen : v.dataLen = u.dataLen
  dataPos : v.dataPos = u.dataPos
  setup : ∀ r ∈ setupRegs, v.regs r = u.regs r

variable {v : UsdhcState} {response : List Byte}

lemma SamePhase.trans {u w : UsdhcState} (h : SamePhase u v) (h' : SamePhase v w) : SamePhase u w :=
  ⟨h'.dataLen.trans h.dataLen, h'.dataPos.trans h.dataPos,
    fun r hr => (h'.setup r hr).trans (h.setup r hr)⟩

lemma SamePhase.setReg {r : RegIdx} (hr : r ∉ setupRegs) (v : Word) :
    SamePhase s (s.setReg r v) := by
  refine ⟨rfl, rfl, fun c hc => ?_⟩
  have hne : c ≠ r := fun h => hr (h ▸ hc)
  simp [UsdhcState.setReg, hne]

lemma SamePhase.wellPhased {u : UsdhcState} (h : SamePhase u v) (hu : WellPhased u) :
    WellPhased v := by
  simpa only [WellPhased, h.dataLen, h.dataPos] using hu

lemma SamePhase.setResponse (s : UsdhcState) (rsp0 rsp1 rsp2 rsp3 : Word) :
    SamePhase s (setResponse s rsp0 rsp1 rsp2 rsp3) :=
  (((SamePhase.setReg s (by decide) rsp0).trans (.setReg _ (by decide) rsp1)).trans
    (.setReg _ (by decide) rsp2)).trans (.setReg _ (by decide) rsp3)

lemma marshalResponse_samePhase {s st : UsdhcState}
    (h : marshalResponse s response = some st) : SamePhase s st := by
  rw [marshalResponse] at h
  split_ifs at h
  · cases h
    exact .setResponse s _ _ _ _
  · cases h
    exact .setResponse s _ _ _ _

lemma SamePhase.total {u : UsdhcState} (h : SamePhase u v) :
    v.total = u.total ∧ v.dmaEnabled = u.dmaEnabled ∧ v.adma2 = u.adma2 ∧ v.dtdsel = u.dtdsel := by
  have hblk := h.setup rBlkAtt (by decide)
  have hmix := h.setup rMixCtrl (by decide)
  have hprot := h.setup rProtCtrl (by decide)
  simp only [UsdhcState.total, UsdhcState.blksize, UsdhcState.blkcnt,
    UsdhcState.dmaEnabled, UsdhcState.adma2, UsdhcState.dtdsel, hblk, hmix, hprot, and_self]

lemma total_le : s.total ≤ maxTotal := by
  have hsize : s.blksize ≤ 0x1FFF := by exact Nat.and_le_right
  have hcnt : s.blkcnt ≤ 0xFFFF := by
    have hlt : (s.regs rBlkAtt >>> 16).toNat ≤ 0xFFFF := by
      rw [BitVec.toNat_ushiftRight, Nat.shiftRight_eq_div_pow]
      omega
    simp only [blkcnt]
    split
    · decide
    · exact hlt
  exact Nat.mul_le_mul hsize hcnt

lemma doAdma2_spec (u : Controller κ) (total : ℕ) :
    let v := mcxnUsdhcDoAdma2 bus read u total
    v.wire = (admaLoop bus read 4096 u.wire (u.st.regs rAdmaSysAddr).toNat total).1 ∧
      v.completions = u.completions ∧ v.st.dataLen = u.st.dataLen ∧
      v.st.dataPos = u.st.dataPos := by
  simp only [mcxnUsdhcDoAdma2]
  generalize admaLoop bus read 4096 u.wire (u.st.regs rAdmaSysAddr).toNat total = r
  rcases r with ⟨wire, _ | desc⟩ <;> exact ⟨rfl, rfl, rfl, rfl⟩

def UsdhcState.pio : Prop := s.total ≠ 0 ∧ s.dmaEnabled = false

instance (s : UsdhcState) : Decidable s.pio := inferInstanceAs (Decidable (_ ∧ _))

lemma doData_pio (h : u.st.pio) : mcxnUsdhcDoData bus u = { u with st := { u.st with
        dataLen := BitVec.ofNat 32 u.st.total, dataPos := 0
        dataRead := u.st.dtdsel } } := by
  rw [mcxnUsdhcDoData, if_neg h.1, if_pos (by rw [h.2]; rfl)]

structure CompletedAtOnce (u v : Controller κ) : Prop where
  dataLen : v.st.dataLen = u.st.dataLen
  dataPos : v.st.dataPos = u.st.dataPos
  completions : v.completions = u.completions ++ [v.wire.exchanged]
  moved : v.wire.exchanged = u.wire.exchanged + u.st.total ↔
    (u.st.total ≠ 0 → u.st.adma2 = true →
      Supplies bus u.st.dtdsel u.wire (u.st.regs rAdmaSysAddr).toNat u.st.total 4096)

lemma doData_completed (h : ¬ u.st.pio) :
    CompletedAtOnce bus u (mcxnUsdhcDoData bus u) := by
  rw [mcxnUsdhcDoData]
  by_cases hzero : u.st.total = 0
  · rw [if_pos hzero]
    exact ⟨rfl, rfl, rfl, by simp [hzero]; rfl⟩
  have hdma : u.st.dmaEnabled := by
    by_contra hoff
    exact h ⟨hzero, Bool.not_eq_true _ ▸ hoff⟩
  rw [if_neg hzero, if_neg (by rw [hdma]; decide)]
  cases hadma : u.st.adma2 with
  | true =>
    obtain ⟨hwire, hdone, hlen, hpos⟩ := doAdma2_spec bus u.st.dtdsel u u.st.total
    have hspec := (admaLoop_spec bus u.st.dtdsel 4096 u.wire
      (u.st.regs rAdmaSysAddr).toNat u.st.total).2
    rw [← hwire] at hspec
    refine ⟨hlen, hpos, ?_, ?_⟩
    · simp [raiseTc, raise, hdone]
    · simpa [raiseTc, raise, hzero, hadma] using hspec
  | false =>
    refine ⟨rfl, rfl, rfl, ?_⟩
    simp [raiseTc, raise, sdmaTransfer, hadma]

lemma TcShown.doData {tc : Bool} (h : TcShown tc u) : TcShown tc (mcxnUsdhcDoData bus u) := by
  rw [mcxnUsdhcDoData]
  split_ifs
  · exact tcShown_raiseTc tc u
  · exact h
  · exact tcShown_raiseTc tc _
  · exact tcShown_raiseTc tc _

lemma doData_wellPhased (hu : WellPhased u.st) :
    WellPhased (mcxnUsdhcDoData bus u).st := by
  by_cases hpio : u.st.pio
  · have hmax := total_le u.st
    have hpos : 0 < u.st.total := Nat.pos_of_ne_zero hpio.1
    have hvalue : (BitVec.ofNat 32 u.st.total : Word).toNat = u.st.total := by
      rw [BitVec.toNat_ofNat]
      rw [maxTotal] at hmax
      omega
    rw [doData_pio bus hpio]
    intro _
    simp only [hvalue]
    exact ⟨hpos, dvd_zero 4, hmax⟩
  · have hdone := doData_completed bus hpio
    simpa only [WellPhased, hdone.dataLen, hdone.dataPos] using hu

def answer (u : Controller κ) (xfrtyp : Word) : List Byte × κ :=
  bus.doCommand u.wire.card ((xfrtyp >>> 24) &&& 0x3F).toNat (u.st.regs rCmdArg)

def command (u : Controller κ) (xfrtyp : Word) : Controller κ := mcxnUsdhcWrite bus u 0x0C xfrtyp

lemma command_eq (u : Controller κ) (xfrtyp : Word) : command bus u xfrtyp =
      mcxnUsdhcSendCommand bus { u with st := u.st.setReg rCmdXfrTyp xfrtyp } xfrtyp := rfl

lemma marshalResponse_answered (h : response.length = 4 ∨ response.length = 16) :
    ∃ st, marshalResponse s response = some st := by
  rcases h with h | h
  · exact ⟨_, by rw [marshalResponse, if_pos h]⟩
  · exact ⟨_, by rw [marshalResponse, if_neg (by omega), if_pos h]⟩

lemma command_answered {xfrtyp : Word}
    (h : (answer bus u xfrtyp).1.length = 4 ∨ (answer bus u xfrtyp).1.length = 16) :
    ∃ st, marshalResponse (u.st.setReg rCmdXfrTyp xfrtyp) (answer bus u xfrtyp).1 = some st ∧
      command bus u xfrtyp = if anyBit xfrtyp cmdXfrDpsel then
          (mcxnUsdhcDoData bus ⟨st.orReg rIntStatus intCc,
            { u.wire with card := (answer bus u xfrtyp).2, exchanged := 0 }, []⟩).updateIrq
        else Controller.updateIrq ⟨st.orReg rIntStatus intCc,
          { u.wire with card := (answer bus u xfrtyp).2 }, u.completions⟩ := by
  obtain ⟨st, hst⟩ := marshalResponse_answered (u.st.setReg rCmdXfrTyp xfrtyp) h
  have harg : (u.st.setReg rCmdXfrTyp xfrtyp).regs rCmdArg = u.st.regs rCmdArg := by
    simp [setReg, show rCmdArg ≠ rCmdXfrTyp by decide]
  refine ⟨st, hst, ?_⟩
  rw [command_eq, mcxnUsdhcSendCommand]
  rw [answer] at hst ⊢
  simp only [harg, hst]
  split <;> rfl

lemma command_starts {xfrtyp : Word} (hdata : anyBit xfrtyp cmdXfrDpsel = true)
    (hanswer : (answer bus u xfrtyp).1.length = 4 ∨ (answer bus u xfrtyp).1.length = 16) :
    ∃ u₀ : Controller κ, SamePhase u.st u₀.st ∧
      u₀.wire = { u.wire with card := (answer bus u xfrtyp).2, exchanged := 0 } ∧
      u₀.completions = [] ∧
      anyBit (u₀.st.regs rIntStatus) intTc = anyBit (u.st.regs rIntStatus) intTc ∧
      command bus u xfrtyp = (mcxnUsdhcDoData bus u₀).updateIrq := by
  obtain ⟨st, hst, hcommand⟩ := command_answered bus hanswer
  rw [if_pos hdata] at hcommand
  refine ⟨_, ?_, rfl, rfl, ?_, hcommand⟩
  rotate_left
  · have hkeep : st.regs rIntStatus = u.st.regs rIntStatus := by
      rw [marshalResponse] at hst
      split_ifs at hst <;>
        · cases hst
          rfl
    simp [orReg, setReg, hkeep, anyBit_or, show anyBit intCc intTc = false by decide]
  exact ((SamePhase.setReg u.st (by decide) xfrtyp).trans
    (marshalResponse_samePhase hst)).trans (.setReg st (by decide) _)

section

variable (hu : WellPhased u.st)
include hu

lemma sendCommand_wellPhased (xfrtyp : Word) :
    WellPhased (mcxnUsdhcSendCommand bus u xfrtyp).st := by
  rw [mcxnUsdhcSendCommand]
  dsimp only
  split
  · exact hu
  rename_i st hst
  have hcc : WellPhased (st.orReg rIntStatus intCc) :=
    ((marshalResponse_samePhase hst).trans (.setReg st (by decide) _)).wellPhased hu
  split
  · exact doData_wellPhased bus hcc
  · exact hcc

lemma portStep_wellPhased (a : PortAccess) : WellPhased (portStep bus u a).st := by
  rcases portStep_cases bus u a with h | ⟨hlen, card, h⟩
  · rw [h]
    exact hu
  · rw [h]
    exact portAdvance_wellPhased hu hlen card

lemma step_wellPhased (event : UsdhcEvent κ) : WellPhased (usdhcStep bus u event).st := by
  cases event with
  | read off =>
    simp only [usdhcStep, mcxnUsdhcRead]
    split
    · exact hu
    split
    · exact portStep_wellPhased bus hu .read
    split
    · exact hu
    split
    · exact hu
    · split <;> exact hu
  | write off val =>
    simp only [usdhcStep, mcxnUsdhcWrite]
    split_ifs
    · exact hu
    · exact hu
    · exact hu
    · exact hu
    · exact sendCommand_wellPhased bus (u := { u with st := u.st.setReg _ val }) hu val
    · exact portStep_wellPhased bus hu (.write val)
    · exact hu
    · exact hu
    · exact hu
  | reset => exact fun h => absurd rfl h
  | outside card mem mapped => exact hu

end

lemma Reachable.wellPhased (h : Reachable bus u) : WellPhased u.st := by
  obtain ⟨start, events, rfl⟩ := h
  exact EventRuns.run_invariant (P := fun v : Controller κ => WellPhased v.st)
    (fun v event hv => step_wellPhased bus hv event) (fun h => absurd rfl h) events

/-- `INT_STATUS[TC]` is set by a data command or the port accesses after it only when all its
bytes have moved, and a walk that stops early sets `DMAE` instead. -/
structure TellsTruth (u : Controller κ) (xfrtyp : Word) : Prop where
  shown : ∀ accesses, TcShown (anyBit (u.st.regs rIntStatus) intTc)
    (portAccesses bus (command bus u xfrtyp) accesses)
  complete : Truthful bus (command bus u xfrtyp) u.st.total
  early : u.st.total ≠ 0 → u.st.dmaEnabled = true → u.st.adma2 = true →
    (command bus u xfrtyp).wire.exchanged < u.st.total →
      anyBit ((command bus u xfrtyp).st.regs rIntStatus) intDmae = true ∧
        (command bus u xfrtyp).completions = []

def TableSupplies (u : Controller κ) (xfrtyp : Word) : Prop :=
  Supplies bus u.st.dtdsel { u.wire with card := (answer bus u xfrtyp).2, exchanged := 0 }
    (u.st.regs rAdmaSysAddr).toNat u.st.total 4096

/-- Transfer-complete tells the truth exactly for PIO transfers of whole words, and
for the others when no older PIO phase is armed and, under ADMA2, the table supplies
all the bytes. -/
theorem transfer_complete_iff (u : Controller κ) (xfrtyp : Word)
    (hreach : Reachable bus u) (hdata : anyBit xfrtyp cmdXfrDpsel = true)
    (hanswer : (answer bus u xfrtyp).1.length = 4 ∨ (answer bus u xfrtyp).1.length = 16) :
    TellsTruth bus u xfrtyp ↔ if u.st.pio then u.st.total % 4 = 0
      else u.st.dataLen = 0 ∧
        (u.st.total ≠ 0 → u.st.adma2 = true → TableSupplies bus u xfrtyp) := by
  obtain ⟨u₀, hsame, hwire, hdone, htc, hcommand⟩ := command_starts bus hdata hanswer
  obtain ⟨htotal, hdma, hadma, hread⟩ := hsame.total
  have hshown : ∀ accesses, TcShown (anyBit (u.st.regs rIntStatus) intTc)
      (portAccesses bus (command bus u xfrtyp) accesses) := by
    have hstart : TcShown (anyBit (u.st.regs rIntStatus) intTc) u₀ := by simp [TcShown, htc, hdone]
    rw [hcommand]
    exact TcShown.portAccesses bus (hstart.doData bus)
  have hwell₀ : WellPhased u₀.st := hsame.wellPhased hreach.wellPhased
  have hwell : WellPhased (command bus u xfrtyp).st := by
    rw [hcommand]
    exact doData_wellPhased bus hwell₀
  by_cases hpio : u.st.pio
  · rw [if_pos hpio]
    have hpio₀ : u₀.st.pio := by rwa [pio, htotal, hdma]
    have hvalue : (BitVec.ofNat 32 u.st.total : Word).toNat = u.st.total := by
      have hmax := total_le u.st
      rw [maxTotal] at hmax
      rw [BitVec.toNat_ofNat]
      omega
    have hstate := doData_pio bus hpio₀
    rw [← truthful_armed_iff bus hwell (by rw [hcommand, hstate]; exact hdone)
      (by rw [hcommand, hstate]; simp [updateIrq, hwire])
      (by rw [hcommand, hstate, htotal]; exact hvalue) hpio.1
      (by rw [hcommand, hstate]; rfl)]
    refine ⟨fun h => h.complete, fun h => ⟨hshown, h, fun _ hon => ?_⟩⟩
    rw [hpio.2] at hon
    exact absurd hon (by decide)
  rw [if_neg hpio]
  have hpio₀ : ¬ u₀.st.pio := by rwa [pio, htotal, hdma]
  have hend := doData_completed bus hpio₀
  have hmoved : (command bus u xfrtyp).wire.exchanged = u.st.total ↔
      (u.st.total ≠ 0 → u.st.adma2 = true → TableSupplies bus u xfrtyp) := by
    have := hend.moved
    rw [htotal, hadma, hread, hwire, hsame.setup rAdmaSysAddr (by decide),
      Nat.zero_add] at this
    rw [hcommand]
    exact this
  have hlen : (command bus u xfrtyp).st.dataLen = u.st.dataLen := by
    rw [hcommand]
    exact hend.dataLen.trans hsame.dataLen
  have hnow : (command bus u xfrtyp).completions = [(command bus u xfrtyp).wire.exchanged] := by
    have := hend.completions
    rw [hdone, nil_append] at this
    rw [hcommand]
    exact this
  have htruth := truthful_completed_iff bus hwell u.st.total hnow
  rw [hmoved, hlen, and_comm] at htruth
  rw [← htruth]
  refine ⟨fun h => h.complete, fun h => ⟨hshown, h, fun hzero _ hon hless => ?_⟩⟩
  -- all the bytes were moved, so the walk did not stop early
  have hall := hmoved.mpr (htruth.mp h).2
  omega

def quietBus : SdBus Unit where
  doCommand := fun _ _ _ => ([0, 0, 0, 0], ())
  readData := fun _ _ => (fun _ => 0, ())
  writeData := fun _ _ => ()
  inserted := fun _ => true
  running := fun _ => true

def admaSetup (desc : Word) : Controller Unit :=
  EventRuns.run (usdhcStep quietBus)
    (mcxnUsdhcReset ⟨⟨fun _ => 0, 0, 0, false, false⟩, ⟨(), fun _ => 0, fun _ => true, 0⟩, []⟩)
    [.write 0x48 mixDmaen, .write 0x28 0x200, .write 0x04 0x200, .write 0x58 0x100,
     .outside () (store32 (fun _ => 0) 0x100 desc) fun _ => true]

lemma reachable_admaSetup (desc : Word) : Reachable quietBus (admaSetup desc) := ⟨_, _, rfl⟩

theorem transfer_complete_one_descriptor :
    TableSupplies quietBus (admaSetup 0x02000023) cmdXfrDpsel ∧
      TellsTruth quietBus (admaSetup 0x02000023) cmdXfrDpsel := by
  have htable : TableSupplies quietBus (admaSetup 0x02000023) cmdXfrDpsel := by
    refine .transfer ⟨by decide, by decide⟩ (by decide) (fun h => absurd h (by decide)) ?_
    exact .done
  exact ⟨htable, (transfer_complete_iff quietBus (admaSetup 0x02000023) cmdXfrDpsel
    (reachable_admaSetup _) (by decide) (.inl (by decide))).mpr
      (by rw [if_neg (by decide)]; exact ⟨by decide, fun _ _ => htable⟩)⟩

theorem invalid_descriptor_completes : Reachable quietBus (admaSetup 0) ∧
      ((command quietBus (admaSetup 0) cmdXfrDpsel).st.regs rIntStatus =
        intCc ||| intDmae ||| intTc) ∧
      (command quietBus (admaSetup 0) cmdXfrDpsel).wire.exchanged = 0 ∧
      ¬ TellsTruth quietBus (admaSetup 0) cmdXfrDpsel := by
  refine ⟨reachable_admaSetup 0, by decide, by decide, fun h => ?_⟩
  have hzero := h.complete [] 0 (by decide)
  revert hzero
  decide

end Mcxn947.Usdhc
