import Mcxn947.BusAccesses
import Mcxn947.UsdhcTransfer

/-!
# Data through the buffer port

A PIO phase moves the bytes of its blocks through `DATA_BUFF_ACC_PORT`, by accesses of one,
two or four bytes.
-/

namespace Mcxn947.Usdhc

open MachineWords GuestMemory BusAccesses EventRuns

variable {κ : Type} (bus : SdBus κ)

inductive PortUse
  | read (width : Width)
  | write (width : Width) (val : Word)

def PortUse.width : PortUse → Width
  | .read width => width
  | .write width _ => width

def PortUse.isRead : PortUse → Bool
  | .read _ => true
  | .write _ _ => false

/-- A PIO phase as it should be: the card, the bytes left and moved, `INT_STATUS[TC]`, and that
the emulator still runs. -/
@[ext] structure PioPhase (κ : Type) where
  card : κ
  left : ℕ
  read : Bool
  moved : ℕ
  (tc running : Bool)

variable (p : PioPhase κ)

def PioPhase.advance (card : κ) (n : ℕ) : PioPhase κ :=
  { p with
    card := card, left := p.left - n, moved := p.moved + n, tc := p.tc || decide (n = p.left)
    running := true }

def PioPhase.Serves (a : PortUse) : Prop := p.left ≠ 0 ∧ p.read = a.isRead

instance (p : PioPhase κ) (a : PortUse) : Decidable (p.Serves a) :=
  inferInstanceAs (Decidable (_ ∧ _))

def PioPhase.share (a : PortUse) : ℕ := if p.Serves a then min a.width.bytes p.left else 0

def PioPhase.delivers : PortUse → List Byte
  | .read width => (List.range (p.share (.read width))).map
      (bus.readData p.card (p.share (.read width))).1
  | .write _ _ => []

def PioPhase.cardAfter (n : ℕ) : PortUse → κ
  | .read _ => (bus.readData p.card n).2
  | .write _ val => bus.writeData p.card ((wordBytes val).take n)

def PioPhase.access (a : PortUse) : PioPhase κ :=
  if p.Serves a then p.advance (p.cardAfter bus (p.share a) a) (p.share a) else p

lemma PioPhase.share_le (a : PortUse) : p.share a ≤ p.left := by
  rw [share]
  split
  · exact Nat.min_le_right _ _
  · exact Nat.zero_le _

/-- Of `total` bytes each is moved or left, and `TC` joins what `tc` says of the time before
just when none is left. -/
structure PioPhase.Accounts (p : PioPhase κ) (total : ℕ) (tc : Bool) : Prop where
  moved : p.moved + p.left = total
  tc : p.tc = (tc || decide (p.left = 0))

variable {total : ℕ} {tc : Bool}

lemma PioPhase.access_accounts {p : PioPhase κ} (h : p.Accounts total tc)
    (a : PortUse) : (p.access bus a).Accounts total tc := by
  by_cases hserves : p.Serves a
  · rw [access, if_pos hserves]
    have hle := p.share_le a
    have hmoved := h.moved
    have hnone := h.tc
    rw [decide_eq_false hserves.1, Bool.or_false] at hnone
    refine ⟨?_, ?_⟩
    · simp only [advance]
      omega
    simp only [advance, hnone]
    congr 2
    rw [eq_iff_iff]
    omega
  · rw [access, if_neg hserves]
    exact h

lemma PioPhase.run_accounts {p : PioPhase κ} (h : p.Accounts total tc) (accesses : List PortUse) :
    (run (PioPhase.access bus) p accesses).Accounts total tc :=
  run_invariant (P := fun q : PioPhase κ => q.Accounts total tc)
    (fun _ a hq => PioPhase.access_accounts bus hq a) h accesses

def portValue (u : Controller κ) (width : Width) : Word :=
  (mcxnUsdhcRead bus u 0x20).1 &&& byteMask 0 width.bytes

def portUse (u : Controller κ) : PortUse → Controller κ
  | .read _ => (mcxnUsdhcRead bus u 0x20).2
  | .write width val => mcxnUsdhcWrite bus u 0x20 (val &&& byteMask 0 width.bytes)

def phaseOf (u : Controller κ) : PioPhase κ where
  card := u.wire.card
  left := if u.st.dataLen = 0 then 0 else u.st.dataLen.toNat - u.st.dataPos.toNat
  read := u.st.dataRead
  moved := u.wire.exchanged
  tc := anyBit (u.st.regs rIntStatus) intTc
  running := bus.running u.wire.card

def portDelivers (u : Controller κ) : PortUse → List Byte
  | .read width => (wordBytes (portValue bus u width)).take ((phaseOf bus u).share (.read width))
  | .write _ _ => []

/-- The accesses take the controller through the phases that they should, `TC` and the card
included, and deliver the bytes of the card. -/
structure MovesExactly (u : Controller κ) (p : PioPhase κ) (accesses : List PortUse) : Prop where
  phase : ∀ before, before <+: accesses →
    phaseOf bus (run (portUse bus) u before) = run (PioPhase.access bus) p before
  delivered : ∀ before, before <+: accesses →
    outputs (portUse bus) (portDelivers bus) u before =
      outputs (PioPhase.access bus) (PioPhase.delivers bus) p before

def portCard (u : Controller κ) : PortUse → κ
  | .read _ => (bus.readData u.wire.card 4).2
  | .write width val => bus.writeData u.wire.card (wordBytes (val &&& byteMask 0 width.bytes))

/-- An access for which bytes are left is four bytes wide, finds four bytes left, and the card
moves them. -/
def WholeWord (u : Controller κ) (a : PortUse) : Prop :=
  (phaseOf bus u).Serves a → a.width = .word ∧
    u.st.dataPos.toNat + 4 ≤ u.st.dataLen.toNat ∧ bus.running (portCard bus u a) = true
deriving Decidable

lemma and_byteMask_word (v : Word) : v &&& byteMask 0 Width.word.bytes = v := BitVec.and_allOnes

section Access

variable {u : Controller κ} {a : PortUse}

lemma phaseOf_left (hlen : u.st.dataLen ≠ 0) :
    (phaseOf bus u).left = u.st.dataLen.toNat - u.st.dataPos.toNat :=
  if_neg hlen

lemma serves_iff (hu : WellPhased u.st) :
    (phaseOf bus u).Serves a ↔ u.st.dataLen ≠ 0 ∧ u.st.dataRead = a.isRead := by
  refine and_congr_left fun _ => ?_
  by_cases hlen : u.st.dataLen = 0
  · simp [phaseOf, hlen]
  obtain ⟨hpos, -, -⟩ := hu hlen
  rw [phaseOf_left bus hlen]
  simp only [ne_eq, hlen, not_false_eq_true, iff_true]
  omega

lemma portUse_idle (hu : WellPhased u.st) (h : ¬ (phaseOf bus u).Serves a) :
    portUse bus u a = u := by
  rw [serves_iff bus hu, not_and_or, not_not] at h
  cases a with
  | read width =>
    have hoff : (decide (u.st.dataLen = 0) || !u.st.dataRead) = true := by
      rcases h with hlen | hdir
      · simp [hlen]
      · simpa [PortUse.isRead] using Or.inr hdir
    exact congrArg Prod.snd (if_pos hoff : portRead bus u = (0, u))
  | write width val =>
    have hoff : (decide (u.st.dataLen = 0) || u.st.dataRead) = true := by
      rcases h with hlen | hdir
      · simp [hlen]
      · simpa [PortUse.isRead] using Or.inr hdir
    exact (if_pos hoff : portWrite bus u (val &&& byteMask 0 width.bytes) = u)

section

variable (hu : WellPhased u.st)
include hu

lemma portUse_armed (h : (phaseOf bus u).Serves a) :
    portUse bus u a = portAdvance u (portCard bus u a) := by
  obtain ⟨hlen, hdir⟩ := (serves_iff bus hu).mp h
  cases a with
  | read width =>
    have hon : (decide (u.st.dataLen = 0) || !u.st.dataRead) = false := by
      rw [decide_eq_false hlen, hdir]
      rfl
    show (portRead bus u).2 = _
    rw [portRead, hon]
    rfl
  | write width val =>
    have hon : (decide (u.st.dataLen = 0) || u.st.dataRead) = false := by
      rw [decide_eq_false hlen, hdir]
      rfl
    show portWrite bus u _ = _
    rw [portWrite, hon]
    rfl

lemma portUse_wellPhased (a : PortUse) : WellPhased (portUse bus u a).st := by
  by_cases hserves : (phaseOf bus u).Serves a
  · rw [portUse_armed bus hu hserves]
    exact portAdvance_wellPhased hu ((serves_iff bus hu).mp hserves).1 _
  · rw [portUse_idle bus hu hserves]
    exact hu

lemma portDelivers_word (h : (phaseOf bus u).Serves (.read .word))
    (hshare : (phaseOf bus u).share (.read .word) = 4) :
    portDelivers bus u (.read .word) = (phaseOf bus u).delivers bus (.read .word) := by
  obtain ⟨hlen, hdir⟩ := (serves_iff bus hu).mp h
  have hon : (decide (u.st.dataLen = 0) || !u.st.dataRead) = false := by
    rw [decide_eq_false hlen, hdir]
    rfl
  have hvalue : (mcxnUsdhcRead bus u 0x20).1 =
      (bus.readData u.wire.card 4).1 3 ++ (bus.readData u.wire.card 4).1 2 ++
        (bus.readData u.wire.card 4).1 1 ++ (bus.readData u.wire.card 4).1 0 := by
    show (portRead bus u).1 = _
    rw [portRead, hon]
    rfl
  rw [portDelivers, portValue, and_byteMask_word, hvalue, wordBytes_append, PioPhase.delivers,
    hshare]
  rfl

end

lemma portAdvance_card (u : Controller κ) (card : κ) :
    (portAdvance u card).wire.card = card ∧ (portAdvance u card).st.dataRead = u.st.dataRead := by
  simp only [portAdvance]
  split <;> exact ⟨rfl, rfl⟩

lemma phaseOf_portAdvance (hu : WellPhased u.st) (hlen : u.st.dataLen ≠ 0)
    (hleft : 4 ≤ (phaseOf bus u).left) {card : κ} (hcardRuns : bus.running card = true) :
    phaseOf bus (portAdvance u card) = (phaseOf bus u).advance card 4 := by
  obtain ⟨hcard, hread⟩ := portAdvance_card u card
  have htc : (phaseOf bus (portAdvance u card)).tc = ((phaseOf bus u).tc ||
      decide ((portAdvance u card).st.dataLen = 0)) := portAdvance_tc hlen card
  have hruns : bus.running (portAdvance u card).wire.card = true := by rw [hcard, hcardRuns]
  obtain ⟨hexchanged, ⟨hlast, hzero, -⟩ | ⟨hmore, hkeep, hnext, -⟩⟩ := portAdvance_spec hu hlen card
  · -- the last four bytes
    have hfour : (phaseOf bus u).left = 4 := by
      rw [phaseOf_left bus hlen] at hleft ⊢
      omega
    refine PioPhase.ext hcard ?_ hread hexchanged ?_ hruns
    · rw [PioPhase.advance, hfour]
      exact if_pos hzero
    · simp [PioPhase.advance, hfour, htc, hzero]
  have hstill : (portAdvance u card).st.dataLen ≠ 0 := by
    rw [hkeep]
    exact hlen
  refine PioPhase.ext hcard ?_ hread hexchanged ?_ hruns
  · rw [phaseOf_left bus hstill, hkeep, hnext, PioPhase.advance, phaseOf_left bus hlen]
    exact (Nat.sub_sub _ _ _).symm
  · have hmany : 4 ≠ (phaseOf bus u).left := by
      rw [phaseOf_left bus hlen]
      omega
    rw [htc, PioPhase.advance, decide_eq_false hmany, decide_eq_false hstill]

lemma wholeWord_iff (hu : WellPhased u.st) (a : PortUse) : WholeWord bus u a ↔
      phaseOf bus (portUse bus u a) = (phaseOf bus u).access bus a ∧
      portDelivers bus u a = (phaseOf bus u).delivers bus a := by
  by_cases hserves : (phaseOf bus u).Serves a
  · have hlen := ((serves_iff bus hu).mp hserves).1
    have hleft := phaseOf_left bus hlen
    have hshare : (phaseOf bus u).share a = min a.width.bytes (phaseOf bus u).left := if_pos hserves
    rw [portUse_armed bus hu hserves, PioPhase.access, if_pos hserves]
    constructor
    · intro hword
      obtain ⟨hwidth, hfour, hruns⟩ := hword hserves
      have hmove : (phaseOf bus u).share a = 4 := by
        rw [hshare, hwidth, hleft, Width.bytes]
        omega
      rw [phaseOf_portAdvance bus hu hlen (by omega) hruns, hmove]
      cases a with
      | read width =>
        obtain rfl : width = .word := hwidth
        exact ⟨rfl, portDelivers_word bus hu hserves hmove⟩
      | write width val =>
        obtain rfl : width = .word := hwidth
        refine ⟨?_, rfl⟩
        rw [portCard, and_byteMask_word]
        rfl
    rintro ⟨hphase, -⟩ -
    have hruns : bus.running (portCard bus u a) = true := by
      have hrunning := congrArg PioPhase.running hphase
      change bus.running (portAdvance u _).wire.card = true at hrunning
      rwa [(portAdvance_card u _).1] at hrunning
    have hmoved : u.wire.exchanged + 4 = u.wire.exchanged + (phaseOf bus u).share a :=
      (portAdvance_spec hu hlen _).1.symm.trans (congrArg PioPhase.moved hphase)
    rw [hshare, hleft] at hmoved
    cases hwidth : a.width with
    | word => exact ⟨rfl, by omega, hruns⟩
    | half | byte =>
      rw [hwidth, Width.bytes] at hmoved
      omega
  have hshare : (phaseOf bus u).share a = 0 := if_neg hserves
  rw [portUse_idle bus hu hserves, PioPhase.access, if_neg hserves]
  refine ⟨fun _ => ⟨rfl, ?_⟩, fun _ h => absurd h hserves⟩
  cases a with
  | read width => simp [portDelivers, PioPhase.delivers, hshare]
  | write width val => rfl

end Access

def startPhase (u : Controller κ) (xfrtyp : Word) : PioPhase κ :=
  ⟨(answer bus u xfrtyp).2, u.st.total, u.st.dtdsel, 0, anyBit (u.st.regs rIntStatus) intTc, true⟩

lemma phaseOf_command {u : Controller κ} {xfrtyp : Word} (hpio : u.st.pio)
    (hdata : anyBit xfrtyp cmdXfrDpsel)
    (hanswer : (answer bus u xfrtyp).1.length = 4 ∨ (answer bus u xfrtyp).1.length = 16)
    (hruns : bus.running (answer bus u xfrtyp).2 = true) :
    phaseOf bus (command bus u xfrtyp) = startPhase bus u xfrtyp := by
  obtain ⟨u₀, hsame, hwire, -, htc, hcommand⟩ := command_starts bus hdata hanswer
  obtain ⟨htotal, hdma, -, hread⟩ := hsame.total
  have hpio₀ : u₀.st.pio := by rwa [UsdhcState.pio, htotal, hdma]
  have hvalue : (BitVec.ofNat 32 u.st.total : Word).toNat = u.st.total := by
    have hmax := total_le u.st
    rw [maxTotal] at hmax
    rw [BitVec.toNat_ofNat]
    omega
  have hlen : (BitVec.ofNat 32 u.st.total : Word) ≠ 0 := by
    intro hzero
    rw [hzero] at hvalue
    exact hpio.1 hvalue.symm
  rw [hcommand, doData_pio bus hpio₀, htotal, hread]
  refine PioPhase.ext (congrArg Wire.card hwire) ?_ rfl (congrArg Wire.exchanged hwire) htc ?_
  rotate_left
  · exact (congrArg (fun w => bus.running w.card) hwire).trans hruns
  exact (if_neg hlen).trans hvalue

/-- Before a data phase is armed no access touches anything; the phase of a PIO command has
the bytes of its blocks to move and moves them exactly, with `TC` set by the last, whatever
accesses follow, just when every access for which bytes are left is four bytes wide, finds
four bytes left and a card that moves them. -/
theorem pio_exact_iff (u : Controller κ) (xfrtyp : Word) (hreach : Reachable bus u)
    (hpio : u.st.pio) (hdata : anyBit xfrtyp cmdXfrDpsel = true)
    (hanswer : (answer bus u xfrtyp).1.length = 4 ∨ (answer bus u xfrtyp).1.length = 16)
    (hruns : bus.running (answer bus u xfrtyp).2 = true) (accesses : List PortUse) :
    (u.st.dataLen = 0 → run (portUse bus) u accesses = u) ∧
    (run (PioPhase.access bus) (startPhase bus u xfrtyp) accesses).Accounts u.st.total
      (anyBit (u.st.regs rIntStatus) intTc) ∧
    (MovesExactly bus (command bus u xfrtyp) (startPhase bus u xfrtyp) accesses ↔
      Admits (portUse bus) (WholeWord bus) (command bus u xfrtyp) accesses) := by
  refine ⟨?_, ?_, ?_⟩
  · intro hlen
    refine run_invariant (P := fun v => v = u) ?_ rfl accesses
    rintro v a rfl
    apply portUse_idle bus hreach.wellPhased
    rintro ⟨hleft, -⟩
    exact hleft (if_pos hlen)
  · refine PioPhase.run_accounts bus ⟨Nat.zero_add _, ?_⟩ accesses
    rw [startPhase, decide_eq_false hpio.1, Bool.or_false]
  have hwell : WellPhased (command bus u xfrtyp).st :=
    step_wellPhased bus hreach.wellPhased (.write 0x0C xfrtyp)
  rw [← phaseOf_command bus hpio hdata hanswer hruns]
  rw [← follows_iff_admits (I := fun v : Controller κ => WellPhased v.st)
    (fun v a hv => portUse_wellPhased bus hv a) (fun v a hv => wholeWord_iff bus hv a) hwell]
  exact ⟨fun h before hb => ⟨h.phase before hb, h.delivered before hb⟩,
    fun h => ⟨fun before hb => (h before hb).1, fun before hb => (h before hb).2⟩⟩

def portSetup (size : Word) : Controller Unit :=
  run (usdhcStep quietBus)
    (mcxnUsdhcReset ⟨⟨fun _ => 0, 0, 0, false, false⟩, ⟨(), fun _ => 0, fun _ => true, 0⟩, []⟩)
    [.write 0x48 mixDtdsel, .write 0x04 size]

lemma reachable_portSetup (size : Word) : Reachable quietBus (portSetup size) := ⟨_, _, rfl⟩

theorem pio_exact_two_words : MovesExactly quietBus (command quietBus (portSetup 8) cmdXfrDpsel)
      (startPhase quietBus (portSetup 8) cmdXfrDpsel) [.read .word, .read .word] :=
  (pio_exact_iff quietBus (portSetup 8) cmdXfrDpsel (reachable_portSetup 8) (by decide)
    (by decide) (.inl (by decide)) rfl [.read .word, .read .word]).2.2.mpr (by decide)

theorem block_of_six_takes_eight : Reachable quietBus (portSetup 6) ∧ (portSetup 6).st.total = 6 ∧
      (run (portUse quietBus) (command quietBus (portSetup 6) cmdXfrDpsel)
        [.read .word, .read .word]).wire.exchanged = 8 ∧
      ¬ MovesExactly quietBus (command quietBus (portSetup 6) cmdXfrDpsel)
        (startPhase quietBus (portSetup 6) cmdXfrDpsel) [.read .word, .read .word] := by
  refine ⟨reachable_portSetup 6, by decide, by decide, fun h => ?_⟩
  have hmoved := congrArg PioPhase.moved (h.phase _ (List.prefix_refl _))
  revert hmoved
  decide

end Mcxn947.Usdhc
