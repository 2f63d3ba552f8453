import Mcxn947.NarrowFifoRegisters
import Mcxn947.RtcModel

/-!
# Narrow writes to the RTC

Below `0x800` every write to the RTC is taken as a write of the half word at the even
offset below it, whatever its width; above, every value is stored as the whole word.
-/

namespace Mcxn947.NarrowRegisters

open MachineWords BusAccesses Rtc Function Nat RegWrite RtcState Width

def rtcBank : Bank RtcState where
  holds i := i ∉ [rSubsecondCnt / 4, rWakeTimerCnt / 4]
  commands i := if i = rCtrl / 4 then 0x100 else 0
  fields i :=
    if i = rIsr / 4 then ⟨0xFFFC, 0x3⟩
    else if i = rWakeTimerCtrl / 4 then ⟨wakeTimerWakeFlag, 0⟩ else .plain
  word s i := s.regs i
  put s i x :=
    if i < 0x800 / 4 then mcxnRtcUpdateIrq { s with regs := update s.regs i x }
    else { s with regs := update s.regs i x }

variable (s : RtcState)

def rtcDevice (w : RegWrite) : RtcState := mcxnRtcWrite s w.off w.value

lemma rtcBank_put_regs (i : ℕ) (x : Word) : (rtcBank.put s i x).regs = update s.regs i x := by
  unfold rtcBank
  dsimp only
  split <;> rfl

lemma rtcBank_put_iff (i : ℕ) (x y : Word) : rtcBank.put s i x = rtcBank.put s i y ↔ x = y := by
  constructor
  · intro h
    have hreg := congrFun (congrArg regs h) i
    simpa only [rtcBank_put_regs, update_self] using hreg
  · rintro rfl
    rfl

lemma rtcBank_lawful : rtcBank.Lawful id where
  congr s t w _ h := by rw [show s = t from h]
  word_put s i x _ := by
    change (rtcBank.put s i x).regs i = x
    rw [rtcBank_put_regs, update_self]
  put_put s i x y _ _ := by
    unfold rtcBank
    dsimp only
    split
    · simp only [mcxnRtcUpdateIrq, update_idem, id]
      rfl
    · simp only [update_idem]

def asHalf (w : RegWrite) : RegWrite where
  off := w.off - w.off % 2
  width := .half
  value := w.value &&& 0xFFFF
  aligned := Nat.even_iff.mp ((even_sub' (mod_le _ _)).mpr (by
    rw [odd_iff, odd_iff, mod_mod]))
  fits := lt_of_le_of_lt (Nat.and_le_right) (by decide)

def sibling (w : RegWrite) : Word := (asHalf w).lanes &&& ~~~w.lanes

/-- A half word is always written exactly.  A word must not change its upper half; a byte
needs the other byte of its half word to be zero and, at an odd offset, must be zero
itself, but flags of ISR may stay.  Above `0x800` the bytes that are not written are zero
and so is a value that does not start the word. -/
def RtcSafe (w : RegWrite) : Prop :=
  if w.off < 0x800 then
    match w.width with
    | .half => True
    | .word => w.value &&& 0xFFFF0000 = s.regs w.idx &&& 0xFFFF0000
    | .byte =>
      if w.idx = rIsr / 4 ∧ w.lane < 2 then
        w.lane = 1 → s.regs w.idx &&& ((w.value ||| w.placed) &&& 0xFFFC) = 0
      else (w.lane % 2 = 1 → w.value = 0) ∧ s.regs w.idx &&& sibling w = 0
  else (w.lane ≠ 0 → w.value = 0) ∧ s.regs w.idx &&& ~~~w.lanes = 0

lemma getLsbD_withHalf (off : ℕ) (word : Word) (half : HalfWord) {i : ℕ} (hi : i < 32) :
    (withHalf off word half).getLsbD i =
      if 16 * (off / 2 % 2) ≤ i ∧ i < 16 * (off / 2 % 2) + 16 then
      half.getLsbD (i - 16 * (off / 2 % 2)) else word.getLsbD i := by
  have hlow : BitVec.getLsbD ((0x0000FFFF : ℕ) : Word) i = decide (i < 16) := by
    revert i
    decide
  have hhigh : (0xFFFF0000 : Word).getLsbD i = decide (16 ≤ i) := by
    revert i
    decide
  unfold withHalf
  by_cases hoff : off / 2 % 2 = 1
  · rw [if_pos hoff, hoff, BitVec.getLsbD_or, BitVec.getLsbD_and, hlow,
      BitVec.getLsbD_shiftLeft, BitVec.getLsbD_setWidth]
    by_cases h16 : i < 16
    · simp [h16, Nat.not_le.mpr h16]
    have hle : 16 ≤ i := by omega
    have hin : i - 16 < 32 := by omega
    simp [h16, hle, hi, hin]
  have hoff0 : off / 2 % 2 = 0 := by omega
  rw [if_neg hoff, hoff0, BitVec.getLsbD_or, BitVec.getLsbD_and, hhigh, BitVec.getLsbD_setWidth]
  by_cases h16 : i < 16
  · simp [h16, hi, Nat.not_le.mpr h16]
  · have hle : 16 ≤ i := by omega
    simp [h16, hle]

section Half

open BitVec

variable {w : RegWrite}

lemma asHalf_lane : (asHalf w).lane = w.lane - w.lane % 2 := by
  simp only [asHalf, lane]
  omega

variable {i j : ℕ}

lemma getLsbD_asHalf_lanes (hi : i < 32) : (asHalf w).lanes.getLsbD i =
      decide (8 * (w.lane - w.lane % 2) ≤ i ∧ i < 8 * (w.lane - w.lane % 2) + 16) := by
  rw [(asHalf w).getLsbD_lanes hi, asHalf_lane, decide_eq_decide]
  simp only [asHalf, bytes]
  omega

lemma getLsbD_asHalf_value (hi : i < 32) :
    (asHalf w).value.getLsbD i = (w.value.getLsbD i && decide (i < 16)) := by
  have hmask : (0xFFFF : Word).getLsbD i = decide (i < 16) := by
    revert i
    decide
  rw [← hmask]
  exact getLsbD_and

lemma getLsbD_rtcStore16 (old : Word) (reg : ℕ) (half : HalfWord) (hj : j < 16) :
    (rtcStore16 old reg half).getLsbD j = if reg = rCtrl then half.getLsbD j && !decide (j = 8)
      else if reg = rIsr then if j < 2 then old.getLsbD j else old.getLsbD j && !half.getLsbD j
      else half.getLsbD j := by
  have hswr : ctrlSwr.getLsbD j = decide (j = 8) := by
    revert j
    decide
  have hmask : isrW1cMask.getLsbD j = !decide (j < 2) := by
    revert j
    decide
  unfold rtcStore16
  split
  · rw [getLsbD_and, getLsbD_not, hswr]
    simp [hj]
  split
  · rw [getLsbD_and, getLsbD_not, getLsbD_and, hmask, getLsbD_setWidth]
    by_cases h2 : j < 2 <;> simp [hj, h2]
  · rfl

lemma rtcFields_bit {k : ℕ} (hlow : k < 0x800 / 4) (hi : i < 32) (old new : Bool) :
    (rtcBank.fields k).bit i old new =
      if 4 * k + 2 * (i / 16) = rIsr then if i < 2 then old else old && !new else new := by
  have hfixed : (0x3 : Word).getLsbD i = decide (i < 2) := by
    revert i
    decide
  have hw1c : (0xFFFC : Word).getLsbD i = decide (2 ≤ i ∧ i < 16) := by
    revert i
    decide
  have hwake : k ≠ rWakeTimerCtrl / 4 := by
    unfold rWakeTimerCtrl
    omega
  by_cases hisr : k = rIsr / 4
  · have hfields : rtcBank.fields k = ⟨0xFFFC, 0x3⟩ := if_pos hisr
    rw [hfields, hisr, Fields.bit, hfixed, hw1c]
    unfold rIsr
    by_cases h16 : i < 16
    · have hdiv : i / 16 = 0 := by omega
      by_cases h2 : i < 2
      · simp [hdiv, h2]
      · simp [hdiv, h2, h16, Nat.not_lt.mp h2]
    have hdiv : i / 16 = 1 := by omega
    have h2 : ¬ i < 2 := by omega
    simp [hdiv, h2, h16]
  have hfields : rtcBank.fields k = .plain := (if_neg hisr).trans (if_neg hwake)
  have hreg : 4 * k + 2 * (i / 16) ≠ rIsr := by
    unfold rIsr at hisr ⊢
    omega
  rw [hfields, if_neg hreg]
  simp [Fields.bit, Fields.plain]

lemma swr_clear (htakes : rtcBank.Takes w) (h : w.off - w.off % 2 = rCtrl) :
    w.value.getLsbD 8 = false := by
  have hidx : w.idx = rCtrl / 4 := by
    unfold rCtrl at *
    unfold idx
    omega
  have hquiet := htakes.2
  rw [hidx, show rtcBank.commands (rCtrl / 4) = 0x100 from rfl] at hquiet
  by_cases hlane : w.lane = 0
  · rw [placed_of_lane hlane] at hquiet
    have hbit := congrArg (fun v => BitVec.getLsbD v 8) hquiet
    simpa using hbit
  apply w.getLsbD_value_of_le
  have halign := w.aligned
  have hodd : w.off % 2 = 1 := by
    unfold rCtrl at h
    unfold lane at hlane
    omega
  cases hwidth : w.width with
  | byte => exact le_rfl
  | half | word =>
    rw [hwidth] at halign
    exact absurd halign (by simp only [bytes]; omega)

lemma rtcStore16_eq (htakes : rtcBank.Takes w) (hlow : w.idx < 0x800 / 4) (old : Word) :
    withHalf (w.off - w.off % 2) old (rtcStore16 old (w.off - w.off % 2) (w.value.setWidth 16)) =
      (asHalf w).into (rtcBank.fields w.idx) old := by
  have hlane4 : w.lane < 4 := mod_lt _ (by decide)
  have hidx : w.idx = w.off / 4 := rfl
  have hlane : w.lane = w.off % 4 := rfl
  have hbase : 16 * ((w.off - w.off % 2) / 2 % 2) = 8 * (w.lane - w.lane % 2) := by omega
  apply eq_of_getLsbD_eq
  intro i hi
  rw [getLsbD_withHalf _ _ _ hi, getLsbD_into _ _ hi, getLsbD_asHalf_lanes hi, hbase]
  simp only [decide_eq_true_eq]
  split
  case isFalse => rfl
  case isTrue hin =>
    have hj : i - 8 * (w.lane - w.lane % 2) < 16 := by omega
    have hreg : 4 * w.idx + 2 * (i / 16) = w.off - w.off % 2 := by omega
    rw [(asHalf w).getLsbD_placed hi, asHalf_lane, getLsbD_asHalf_value (by omega),
      rtcFields_bit hlow hi, getLsbD_rtcStore16 _ _ _ hj, hreg]
    simp only [hin.1, hj, decide_true, Bool.true_and, Bool.and_true, getLsbD_setWidth]
    by_cases hctrl : w.off - w.off % 2 = rCtrl
    · have hne : w.off - w.off % 2 ≠ rIsr := by
        rw [hctrl]
        decide
      rw [if_pos hctrl, if_neg hne]
      by_cases h8 : i - 8 * (w.lane - w.lane % 2) = 8
      · rw [h8, swr_clear htakes hctrl]
        rfl
      · simp [h8]
    rw [if_neg hctrl]
    by_cases hisr : w.off - w.off % 2 = rIsr
    · have hbase0 : 8 * (w.lane - w.lane % 2) = 0 := by
        unfold rIsr at hisr
        omega
      rw [if_pos hisr, if_pos hisr, hbase0, Nat.sub_zero]
    · rw [if_neg hisr, if_neg hisr]

lemma asHalf_into_eq_iff (old : Word) :
    (asHalf w).into (rtcBank.fields w.idx) old = w.into (rtcBank.fields w.idx) old ↔
      ∀ i < 32, (if (asHalf w).lanes.getLsbD i then
      (rtcBank.fields w.idx).bit i (old.getLsbD i) ((asHalf w).placed.getLsbD i)
      else old.getLsbD i) = if w.lanes.getLsbD i then
      (rtcBank.fields w.idx).bit i (old.getLsbD i) (w.placed.getLsbD i) else old.getLsbD i := by
  constructor
  · intro h i hi
    rw [← getLsbD_into _ _ hi, ← getLsbD_into _ _ hi, h]
  intro h
  apply eq_of_getLsbD_eq
  intro i hi
  rw [getLsbD_into _ _ hi, getLsbD_into _ _ hi]
  exact h i hi

lemma asHalf_into_of_half (hwidth : w.width = .half) (f : Fields) (old : Word) :
    (asHalf w).into f old = w.into f old := by
  have heven : w.lane % 2 = 0 := by
    have halign := w.aligned
    rw [hwidth, bytes] at halign
    unfold lane
    omega
  have hlanes : ∀ i < 32, (asHalf w).lanes.getLsbD i = w.lanes.getLsbD i := by
    intro i hi
    rw [getLsbD_asHalf_lanes hi, w.getLsbD_lanes hi, hwidth, bytes, decide_eq_decide]
    omega
  have hvalue : ∀ j, 16 ≤ j → w.value.getLsbD j = false := fun j hj =>
    w.getLsbD_value_of_le (by rw [hwidth]; exact hj)
  apply eq_of_getLsbD_eq
  intro i hi
  rw [getLsbD_into _ _ hi, getLsbD_into _ _ hi, hlanes i hi,
    getLsbD_placed _ hi, getLsbD_placed _ hi, asHalf_lane, heven, Nat.sub_zero,
    getLsbD_asHalf_value (by omega)]
  by_cases hj : i - 8 * w.lane < 16
  · simp [hj]
  · simp [hj, hvalue _ (Nat.not_lt.mp hj)]

lemma asHalf_into_of_word (hwidth : w.width = .word) (hlow : w.idx < 0x800 / 4) (old : Word) :
    (asHalf w).into (rtcBank.fields w.idx) old = w.into (rtcBank.fields w.idx) old ↔
      w.value &&& 0xFFFF0000 = old &&& 0xFFFF0000 := by
  have hlane := lane_of_word hwidth
  have hhigh : ∀ i < 32, (0xFFFF0000 : Word).getLsbD i = decide (16 ≤ i) := by decide
  have hall : ∀ i < 32, w.lanes.getLsbD i := by
    rw [lanes_of_word hwidth]
    decide
  have hbits : (w.value &&& 0xFFFF0000 = old &&& 0xFFFF0000) ↔
      ∀ i < 32, 16 ≤ i → w.value.getLsbD i = old.getLsbD i := by
    constructor
    · intro h i hi h16
      have hbit := congrArg (fun v => BitVec.getLsbD v i) h
      simpa only [getLsbD_and, hhigh i hi, h16, decide_true, Bool.and_true] using hbit
    intro h
    apply eq_of_getLsbD_eq
    intro i hi
    rw [getLsbD_and, getLsbD_and, hhigh i hi]
    by_cases h16 : 16 ≤ i
    · rw [h i hi h16]
    · simp [h16]
  rw [asHalf_into_eq_iff, hbits]
  refine forall_congr' fun i => forall_congr' fun hi => ?_
  rw [hall i hi, getLsbD_asHalf_lanes hi, placed_of_lane hlane, hlane]
  by_cases h16 : i < 16
  · have hplaced : (asHalf w).placed.getLsbD i = w.value.getLsbD i := by
      rw [(asHalf w).getLsbD_placed hi, asHalf_lane, hlane, getLsbD_asHalf_value (by omega)]
      simp [h16]
    simp [h16, hplaced, Nat.not_le.mpr h16]
  have hisr : 4 * w.idx + 2 * (i / 16) ≠ rIsr := by
    unfold rIsr
    omega
  have hle : 16 ≤ i := by omega
  have hout : ¬ (8 * (0 - 0 % 2) ≤ i ∧ i < 8 * (0 - 0 % 2) + 16) := by omega
  simp only [rtcFields_bit hlow hi, if_neg hisr, hout, hle, decide_false, Bool.false_eq_true,
    if_false, if_true, true_implies]
  exact eq_comm

section

variable (hwidth : w.width = .byte)
include hwidth

lemma byte_value (hj : 8 ≤ j) : w.value.getLsbD j = false :=
  w.getLsbD_value_of_le (by rw [hwidth]; exact hj)

lemma getLsbD_asHalf_placed_of_byte (hi : i < 32) :
    (asHalf w).placed.getLsbD i = (decide (8 * (w.lane - w.lane % 2) ≤ i) &&
      w.value.getLsbD (i - 8 * (w.lane - w.lane % 2))) := by
  rw [(asHalf w).getLsbD_placed hi, asHalf_lane, getLsbD_asHalf_value (by omega)]
  by_cases hj : i - 8 * (w.lane - w.lane % 2) < 16
  · simp [hj]
  · simp [hj, byte_value hwidth (show 8 ≤ i - 8 * (w.lane - w.lane % 2) by omega)]

lemma getLsbD_byte_lanes (hi : i < 32) :
    w.lanes.getLsbD i = decide (8 * w.lane ≤ i ∧ i < 8 * w.lane + 8) := by
  rw [w.getLsbD_lanes hi, hwidth, bytes]
  simp only [Nat.mul_add, Nat.mul_one]

lemma getLsbD_sibling (hi : i < 32) : (sibling w).getLsbD i =
      decide (if w.lane % 2 = 0 then 8 * w.lane + 8 ≤ i ∧ i < 8 * w.lane + 16
      else 8 * w.lane - 8 ≤ i ∧ i < 8 * w.lane) := by
  rw [sibling, getLsbD_and, getLsbD_not, getLsbD_asHalf_lanes hi, getLsbD_byte_lanes hwidth hi]
  simp only [hi, decide_true, Bool.true_and, ← decide_not, ← Bool.decide_and, decide_eq_decide]
  split <;> omega

lemma asHalf_bit_even (heven : w.lane % 2 = 0) (f : Fields) (old : Word) (hi : i < 32) :
    ((asHalf w).into f old).getLsbD i = (w.into f old).getLsbD i ↔
      ((sibling w).getLsbD i → f.bit i (old.getLsbD i) false = old.getLsbD i) := by
  rw [getLsbD_into _ _ hi, getLsbD_into _ _ hi, getLsbD_asHalf_lanes hi,
    getLsbD_asHalf_placed_of_byte hwidth hi, getLsbD_byte_lanes hwidth hi,
    w.getLsbD_placed hi, getLsbD_sibling hwidth hi, heven]
  simp only [Nat.sub_zero, if_true, decide_eq_true_eq]
  by_cases hin : 8 * w.lane ≤ i ∧ i < 8 * w.lane + 16
  · rw [if_pos hin]
    by_cases hlow : i < 8 * w.lane + 8
    · rw [if_pos ⟨hin.1, hlow⟩]
      exact iff_of_true rfl fun h => absurd hlow (by omega)
    have hzero : w.value.getLsbD (i - 8 * w.lane) = false := byte_value hwidth (by omega)
    rw [if_neg (by omega), hzero, Bool.and_false]
    exact ⟨fun h _ => h, fun h => h ⟨by omega, hin.2⟩⟩
  · rw [if_neg hin, if_neg (by omega)]
    exact iff_of_true rfl fun h => absurd h (by omega)

lemma asHalf_bit_odd (hodd : w.lane % 2 = 1) (f : Fields) (old : Word) (hi : i < 32) :
    ((asHalf w).into f old).getLsbD i = (w.into f old).getLsbD i ↔ ((sibling w).getLsbD i →
      f.bit i (old.getLsbD i) (w.value.getLsbD (i - (8 * w.lane - 8))) = old.getLsbD i) ∧
      (w.lanes.getLsbD i → f.bit i (old.getLsbD i) false =
      f.bit i (old.getLsbD i) (w.value.getLsbD (i - 8 * w.lane))) := by
  have hbase : 8 * (w.lane - w.lane % 2) = 8 * w.lane - 8 := by omega
  rw [getLsbD_into _ _ hi, getLsbD_into _ _ hi, getLsbD_asHalf_lanes hi,
    getLsbD_asHalf_placed_of_byte hwidth hi, getLsbD_byte_lanes hwidth hi,
    w.getLsbD_placed hi, getLsbD_sibling hwidth hi, hbase]
  simp only [hodd, Nat.one_ne_zero, if_false, decide_eq_true_eq]
  by_cases hin : 8 * w.lane - 8 ≤ i ∧ i < 8 * w.lane - 8 + 16
  · rw [if_pos hin]
    simp only [hin.1, decide_true, Bool.true_and]
    by_cases hlow : i < 8 * w.lane
    · rw [if_neg (by omega)]
      exact ⟨fun h => ⟨fun _ => h, fun hno => absurd hlow (by omega)⟩, fun h => h.1 ⟨trivial, hlow⟩⟩
    have hzero : w.value.getLsbD (i - (8 * w.lane - 8)) = false := byte_value hwidth (by omega)
    have hle : 8 * w.lane ≤ i := by omega
    rw [if_pos (by omega), hzero]
    simp only [hle, decide_true, Bool.true_and]
    exact ⟨fun h => ⟨fun hno => absurd hno.2 (by omega), fun _ => h⟩,
      fun h => h.2 ⟨trivial, by omega⟩⟩
  · rw [if_neg hin, if_neg (by omega)]
    exact iff_of_true rfl ⟨fun h => absurd h (by omega), fun h => absurd h (by omega)⟩

lemma asHalf_into_of_isr (hidx : w.idx = rIsr / 4) (hlane : w.lane < 2) (old : Word) :
    (asHalf w).into (rtcBank.fields w.idx) old = w.into (rtcBank.fields w.idx) old ↔
      (w.lane = 1 → old &&& ((w.value ||| w.placed) &&& 0xFFFC) = 0) := by
  have hbit : ∀ i < 16, ∀ o n, (rtcBank.fields w.idx).bit i o n = if i < 2 then o else o && !n := by
    intro i hi o n
    have hreg : 4 * w.idx + 2 * (i / 16) = rIsr := by
      rw [hidx, div_eq_of_lt hi]
      rfl
    have hlow : w.idx < 0x800 / 4 := by
      rw [hidx]
      decide
    rw [rtcFields_bit hlow (by omega), if_pos hreg]
  have hw1c : ∀ i < 32, (0xFFFC : Word).getLsbD i = decide (2 ≤ i ∧ i < 16) := by decide
  rw [eq_of_getLsbD_eq_iff]
  by_cases h1 : w.lane = 1
  · rw [and_eq_zero_iff]
    have hpoint : ∀ i < 32, ((asHalf w).into (rtcBank.fields w.idx) old).getLsbD i =
            (w.into (rtcBank.fields w.idx) old).getLsbD i ↔
          (old.getLsbD i → ((w.value ||| w.placed) &&& 0xFFFC).getLsbD i = false) := by
      intro i hi
      rw [asHalf_bit_odd hwidth (by rw [h1]) _ _ hi, getLsbD_sibling hwidth hi,
        getLsbD_byte_lanes hwidth hi, getLsbD_and, getLsbD_or, hw1c i hi, w.getLsbD_placed hi, h1]
      simp only [Nat.mul_one, Nat.reduceMod, Nat.one_ne_zero, if_false, decide_eq_true_eq,
        Nat.sub_self, Nat.zero_le, true_and, Nat.sub_zero]
      by_cases h8 : i < 8
      · have hle : ¬ 8 ≤ i := by omega
        rw [hbit i (by omega)]
        by_cases h2 : i < 2
        · simp [h2, hle, Nat.not_le.mpr h2]
        have hin : 2 ≤ i ∧ i < 16 := by omega
        simp only [h8, hle, h2, hin, if_false, true_implies, false_implies, and_true,
          decide_true, decide_false, Bool.and_true, Bool.false_and, Bool.or_false]
        cases old.getLsbD i <;> cases w.value.getLsbD i <;> decide
      have hvalue := byte_value hwidth (Nat.not_lt.mp h8)
      by_cases h16 : i < 16
      · have h2 : ¬ i < 2 := by omega
        have hin : 2 ≤ i ∧ i < 16 := by omega
        have hle : 8 ≤ i := by omega
        rw [hbit i h16, hbit i h16, hbit i h16, hvalue]
        simp only [h8, hle, h2, hin, if_false, true_implies, false_implies,
          decide_true, Bool.and_true, Bool.true_and, Bool.false_or, true_and]
        cases old.getLsbD i <;> cases w.value.getLsbD (i - 8) <;> decide
      · simp [h8, h16]
    rw [forall_congr' fun i => forall_congr' fun hi => hpoint i hi]
    exact ⟨fun h _ => h, fun h => h h1⟩
  refine iff_of_true (fun i hi => ?_) fun h => absurd h h1
  have h0 : w.lane = 0 := by omega
  rw [asHalf_bit_even hwidth (by rw [h0]) _ _ hi, getLsbD_sibling hwidth hi, h0]
  simp only [Nat.mul_zero, Nat.zero_add, zero_mod, if_true, decide_eq_true_eq]
  intro hin
  rw [hbit i hin.2, if_neg (by omega), Bool.not_false, Bool.and_true]

lemma asHalf_into_of_plain (hlow : w.idx < 0x800 / 4)
    (hplain : ¬ (w.idx = rIsr / 4 ∧ w.lane < 2)) (old : Word) :
    (asHalf w).into (rtcBank.fields w.idx) old = w.into (rtcBank.fields w.idx) old ↔
      (w.lane % 2 = 1 → w.value = 0) ∧ old &&& sibling w = 0 := by
  have hlane4 : w.lane < 4 := mod_lt _ (by decide)
  have hbit : ∀ i < 32, 8 * (w.lane - w.lane % 2) ≤ i → ∀ o n,
      i < 8 * (w.lane - w.lane % 2) + 16 → (rtcBank.fields w.idx).bit i o n = n := by
    intro i hi hle o n hlt
    rw [rtcFields_bit hlow hi, if_neg]
    unfold rIsr at hplain ⊢
    omega
  -- once the value is known to be zero, only the other byte of the half word matters
  have hpoint : (w.lane % 2 = 1 → w.value = 0) → ∀ i < 32,
      (((asHalf w).into (rtcBank.fields w.idx) old).getLsbD i =
          (w.into (rtcBank.fields w.idx) old).getLsbD i ↔
        (old.getLsbD i → (sibling w).getLsbD i = false)) := by
    intro hzero i hi
    have hset : ((asHalf w).into (rtcBank.fields w.idx) old).getLsbD i =
          (w.into (rtcBank.fields w.idx) old).getLsbD i ↔ ((sibling w).getLsbD i →
        (rtcBank.fields w.idx).bit i (old.getLsbD i) false = old.getLsbD i) := by
      by_cases hodd : w.lane % 2 = 1
      · rw [asHalf_bit_odd hwidth hodd _ _ hi, hzero hodd]
        simp
      · exact asHalf_bit_even hwidth (by omega) _ _ hi
    rw [hset]
    cases hsibling : (sibling w).getLsbD i
    · simp
    rw [getLsbD_sibling hwidth hi, decide_eq_true_eq] at hsibling
    split_ifs at hsibling <;>
      · rw [hbit i hi (by omega) _ _ (by omega)]
        cases old.getLsbD i <;> simp
  rw [eq_of_getLsbD_eq_iff, and_eq_zero_iff]
  constructor
  · intro h
    have hzero : w.lane % 2 = 1 → w.value = 0 := by
      intro hodd
      apply eq_of_getLsbD_eq
      intro j hj
      by_cases h8 : j < 8
      · have hcovered : w.lanes.getLsbD (8 * w.lane + j) := by
          rw [getLsbD_byte_lanes hwidth (by omega), decide_eq_true_eq]
          omega
        have hhere := ((asHalf_bit_odd hwidth hodd _ _ (by omega)).mp
          (h (8 * w.lane + j) (by omega))).2 hcovered
        rw [hbit _ (by omega) (by omega) _ _ (by omega),
          hbit _ (by omega) (by omega) _ _ (by omega), Nat.add_sub_cancel_left] at hhere
        rw [← hhere]
        simp
      · rw [byte_value hwidth (Nat.not_lt.mp h8)]
        simp
    exact ⟨hzero, fun i hi => (hpoint hzero i hi).mp (h i hi)⟩
  · rintro ⟨hzero, hold⟩ i hi
    exact (hpoint hzero i hi).mpr (hold i hi)

end

end Half

lemma rtcDevice_low {s : RtcState} {w : RegWrite} (htakes : rtcBank.Takes w)
    (hlow : w.off < 0x800) : rtcDevice s w =
      rtcBank.put s w.idx ((asHalf w).into (rtcBank.fields w.idx) (s.regs w.idx)) := by
  have hidx : w.idx < 0x800 / 4 := Nat.div_lt_of_lt_mul hlow
  have hword : (w.off - w.off % 2) / 4 = w.idx := by
    unfold idx
    omega
  have hput : ∀ x, rtcBank.put s w.idx x =
      mcxnRtcUpdateIrq { s with regs := update s.regs w.idx x } := fun x => if_pos hidx
  have h16 : mcxnRtcIs16bit w.off := decide_eq_true hlow
  unfold rtcDevice mcxnRtcWrite
  rw [if_pos h16, hput, ← rtcStore16_eq htakes hidx, rtcWrite16]
  simp only [setWord, hword]

lemma rtcWriteWakeTimerCtrl_iff {w : RegWrite} (hlane : w.lane = 0) (old : Word) :
    rtcWriteWakeTimerCtrl old w.value = w.into ⟨wakeTimerWakeFlag, 0⟩ old ↔
      old &&& ~~~w.lanes = 0 := by
  have hflag : ∀ i < 32, wakeTimerWakeFlag.getLsbD i = decide (i = 1) := by decide
  have hone : wakeTimerWakeFlag = BitVec.twoPow 32 1 := by decide
  have hleft : ∀ i < 32, (rtcWriteWakeTimerCtrl old w.value).getLsbD i =
      if i = 1 then old.getLsbD i && !w.value.getLsbD i else w.value.getLsbD i := by
    intro i hi
    have hany : anyBit w.value wakeTimerWakeFlag = w.value.getLsbD 1 := by rw [hone, anyBit_twoPow]
    unfold rtcWriteWakeTimerCtrl
    rw [hany]
    cases hset : w.value.getLsbD 1 with
    | false =>
      rw [if_neg (by simp), BitVec.getLsbD_or, BitVec.getLsbD_and, hflag i hi]
      by_cases h1 : i = 1
      · subst h1
        rw [hset]
        cases old.getLsbD 1 <;> rfl
      · rw [if_neg h1, decide_eq_false h1, Bool.and_false, Bool.false_or]
    | true =>
      rw [if_pos rfl, BitVec.getLsbD_or, BitVec.getLsbD_and, BitVec.getLsbD_and,
        BitVec.getLsbD_and, BitVec.getLsbD_not, hflag i hi]
      by_cases h1 : i = 1
      · subst h1
        rw [hset]
        cases old.getLsbD 1 <;> rfl
      · rw [if_neg h1, decide_eq_false h1, decide_eq_true hi]
        simp only [Bool.and_false, Bool.false_or, Bool.not_false, Bool.and_true]
  have hright : ∀ i < 32, (w.into ⟨wakeTimerWakeFlag, 0⟩ old).getLsbD i = if w.lanes.getLsbD i then
        if i = 1 then old.getLsbD i && !w.value.getLsbD i else w.value.getLsbD i
      else old.getLsbD i := by
    intro i hi
    rw [getLsbD_into _ _ hi, placed_of_lane hlane]
    simp [Fields.bit, hflag i hi]
  have hfirst : w.lanes.getLsbD 1 := by
    rw [w.getLsbD_lanes (by decide), hlane, decide_eq_true_eq]
    cases w.width <;> decide
  rw [BitVec.eq_of_getLsbD_eq_iff, and_eq_zero_iff]
  refine forall_congr' fun i => forall_congr' fun hi => ?_
  rw [hleft i hi, hright i hi, BitVec.getLsbD_not]
  cases hlanes : w.lanes.getLsbD i
  · have hne : i ≠ 1 := by
      rintro rfl
      rw [hfirst] at hlanes
      exact absurd hlanes (by decide)
    have hvalue := w.placed_of_not_lanes hlanes
    rw [placed_of_lane hlane] at hvalue
    rw [hvalue]
    cases old.getLsbD i <;> simp [hne, hi]
  · simp

lemma rtcDevice_exact_iff (s : RtcState) (w : RegWrite) (htakes : rtcBank.Takes w) :
    rtcBank.Exact id rtcDevice s w ↔ RtcSafe s w := by
  unfold Bank.Exact Bank.write RtcSafe
  by_cases hlow : w.off < 0x800
  · have hidx : w.idx < 0x800 / 4 := Nat.div_lt_of_lt_mul hlow
    rw [if_pos hlow, rtcDevice_low htakes hlow]
    refine (rtcBank_put_iff s w.idx _ _).trans ?_
    change (asHalf w).into _ (s.regs w.idx) = w.into _ (s.regs w.idx) ↔ _
    cases hwidth : w.width with
    | half => exact iff_of_true (asHalf_into_of_half hwidth _ _) trivial
    | word => exact asHalf_into_of_word hwidth hidx _
    | byte =>
      dsimp only
      by_cases hisr : w.idx = rIsr / 4 ∧ w.lane < 2
      · rw [if_pos hisr]
        exact asHalf_into_of_isr hwidth hisr.1 hisr.2 _
      · rw [if_neg hisr]
        exact asHalf_into_of_plain hwidth hidx hisr _
  have hidx : ¬ w.idx < 0x800 / 4 := by
    unfold idx
    omega
  have hput : ∀ x, rtcBank.put s w.idx x = { s with regs := update s.regs w.idx x } :=
    fun x => if_neg hidx
  have hisr : w.idx ≠ rIsr / 4 := by
    unfold rIsr
    omega
  have h16 : ¬ mcxnRtcIs16bit w.off := by simpa [mcxnRtcIs16bit] using hlow
  have hdevice : rtcDevice s w = rtcBank.put s w.idx
      (if w.off = rWakeTimerCtrl then rtcWriteWakeTimerCtrl (s.regs w.idx) w.value
        else w.value) := by
    have hids := htakes.1
    simp only [rtcBank, List.mem_cons, List.not_mem_nil, or_false, not_or] at hids
    have hcnt : ¬ (w.off = rSubsecondCnt ∨ w.off = rWakeTimerCnt) := by
      rintro (h | h)
      · exact hids.1 (congrArg (· / 4) h)
      · exact hids.2 (congrArg (· / 4) h)
    unfold rtcDevice mcxnRtcWrite
    rw [if_neg h16, if_neg hcnt, hput]
    split <;> rfl
  rw [if_neg hlow, hdevice]
  refine (rtcBank_put_iff s w.idx _ _).trans ?_
  change _ = w.into _ (s.regs w.idx) ↔ _
  by_cases hlane : w.lane = 0
  · rw [and_iff_right (fun h => absurd hlane h)]
    by_cases hwake : w.off = rWakeTimerCtrl
    · have hidxw : w.idx = rWakeTimerCtrl / 4 := congrArg (· / 4) hwake
      have hfields : rtcBank.fields w.idx = ⟨wakeTimerWakeFlag, 0⟩ :=
        (if_neg hisr).trans (if_pos hidxw)
      rw [if_pos hwake, hfields]
      exact rtcWriteWakeTimerCtrl_iff hlane _
    have hidxw : w.idx ≠ rWakeTimerCtrl / 4 := fun h =>
      hwake (RegWrite.off_eq_iff.mpr ⟨h, hlane⟩)
    have hfields : rtcBank.fields w.idx = .plain := (if_neg hisr).trans (if_neg hidxw)
    rw [if_neg hwake, hfields, into_plain]
    exact value_eq_merge_iff hlane _
  have hwake : w.off ≠ rWakeTimerCtrl := by
    intro h
    apply hlane
    rw [lane, h]
    rfl
  have hinto : w.into (rtcBank.fields w.idx) (s.regs w.idx) = w.merge (s.regs w.idx) := by
    by_cases hidxw : w.idx = rWakeTimerCtrl / 4
    · have hfields : rtcBank.fields w.idx = ⟨wakeTimerWakeFlag, 0⟩ :=
        (if_neg hisr).trans (if_pos hidxw)
      rw [hfields]
      refine into_eq_merge ?_ (BitVec.zero_and) _
      rw [and_eq_zero_iff]
      intro i hi hflag
      have hone : ∀ i < 32, wakeTimerWakeFlag.getLsbD i → i = 1 := by decide
      rw [hone i hi hflag, w.getLsbD_lanes (by decide), decide_eq_false_iff_not]
      omega
    · have hfields : rtcBank.fields w.idx = .plain := (if_neg hisr).trans (if_neg hidxw)
      rw [hfields, into_plain]
  rw [if_neg hwake, hinto, imp_iff_right hlane]
  exact value_eq_merge_iff_inside hlane _

/-- For each device, in every state: a write to configuration or flags has the effect of
replacing its bytes and clearing its flags exactly when it is safe, and a word written in
safe pieces leaves the same state as the word. -/
theorem narrow_writes_exact_iff (dac : Dac.DacState) (sinc : Sinc.SincState)
    (pdm : Pdm.PdmState) (rtc : RtcState) :
    dacBank.ExactWhen dacView dacDevice DacSafe dac ∧
      sincBank.ExactWhen sincView sincDevice SincSafe sinc ∧
      pdmBank.ExactWhen pdmView pdmDevice PdmSafe pdm ∧
      rtcBank.ExactWhen id rtcDevice RtcSafe rtc :=
  ⟨dacBank_lawful.exactWhen dacDevice_exact_iff dac,
    sincBank_lawful.exactWhen sincDevice_exact_iff sinc,
    pdmBank_lawful.exactWhen pdmDevice_exact_iff pdm,
    rtcBank_lawful.exactWhen rtcDevice_exact_iff rtc⟩

def byteWrite (off : ℕ) (b : Byte) : RegWrite :=
  ⟨off, .byte, b.setWidth 32, mod_one _, by
    rw [BitVec.toNat_setWidth]
    exact lt_of_le_of_lt (mod_le _ _) b.isLt⟩

def pdmCreated : Pdm.PdmState where
  regs := fun _ => 0
  fifo := fun _ => []
  dmaLvl := false
  warnedNoSource := false
  irq := false
  dmaReq := false

theorem narrow_writes_clobber : ¬ dacBank.Exact dacView dacDevice
        (Dac.mcxnDacWrite (Dac.mcxnDacReset (.created false)) 0x0C 4 0x109) (byteWrite 0x0C 0x09) ∧
      ¬ sincBank.Exact sincView sincDevice
        (Sinc.mcxnSincWrite Sinc.mcxnSincReset 0x0C 4 0x1F1F) (byteWrite 0x0C 0x01) ∧
      ¬ pdmBank.Exact pdmView pdmDevice
        (Pdm.mcxnPdmWrite (Pdm.mcxnPdmReset pdmCreated) 0x00 4 0x22000001) (byteWrite 0x00 0x01) ∧
      ¬ rtcBank.Exact id rtcDevice
        (mcxnRtcWrite (mcxnRtcReset (.realized 0)) 0x0C 0x0C1E) (byteWrite 0x0D 0x05) := by
  refine ⟨fun h => ?_, fun h => ?_, fun h => ?_, fun h => ?_⟩
  · have hreg := congrFun (congrArg DacView.regs h) 3
    revert hreg
    decide +kernel
  · have hreg := congrFun (congrArg SincView.regs h) 3
    revert hreg
    decide +kernel
  · have hreg := congrFun (congrArg PdmView.regs h) Pdm.rCtrl1
    revert hreg
    decide +kernel
  have hreg := congrFun (congrArg regs h) 3
  revert hreg
  decide +kernel

end Mcxn947.NarrowRegisters
