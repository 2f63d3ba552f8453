import Mcxn947.EventRuns
import Mcxn947.PwmModel

/-!
# Dead time

In complementary mode `PWM_A` is on from `VAL2` to `VAL3` and `PWM_B` for the rest of the
cycle, each turned on late by its dead time.
-/

namespace Mcxn947.Pwm

open MachineWords GuestMemory EventRuns Nat

structure Complementary (s : PwmState) : Prop where
  indep : anyBit (pwmLd16 s smCtrl2) ctrl2Indep = false
  pola : anyBit (pwmLd16 s smOctrl) octrlPola = false
  polb : anyBit (pwmLd16 s smOctrl) octrlPolb = false
  ordered : pwmLd16 s smVal2 ≤ pwmLd16 s smVal3

def dead0 (s : PwmState) : ℕ := (pwmLd16 s smDtcnt0).toNat / 2 ^ prsc s

def dead1 (s : PwmState) : ℕ := (pwmLd16 s smDtcnt1).toNat / 2 ^ prsc s

def driven (s : PwmState) (en dis : HalfWord) : Bool :=
  anyBit (pwmLd16 s outen) en &&
    !(anyBit (pwmLd16 s fsts) fstsFflag0 && anyBit (pwmLd16 s smDismap0) dis)

def drivesA (s : PwmState) : Bool := driven s outenPwmaSm0 dismapDis0aF0

def drivesB (s : PwmState) : Bool := driven s outenPwmbSm0 dismapDis0bF0

/-- The two outputs are never high together, and both low through the dead times. -/
def NoShootThrough (s : PwmState) : Prop :=
  ∀ pos : HalfWord, ¬ ((outputsAt s pos).a = true ∧ (outputsAt s pos).b = true) ∧
    ((pwmLd16 s smVal2).toNat ≤ pos.toNat → pos.toNat < (pwmLd16 s smVal2).toNat + dead0 s →
      pos.toNat < (pwmLd16 s smVal3).toNat →
      (outputsAt s pos).a = false ∧ (outputsAt s pos).b = false) ∧
    ((pwmLd16 s smVal3).toNat ≤ pos.toNat → pos.toNat < (pwmLd16 s smVal3).toNat + dead1 s →
      (outputsAt s pos).a = false ∧ (outputsAt s pos).b = false)

variable {s : PwmState}

lemma gate_plain {pol en dis : HalfWord} (hpol : anyBit (pwmLd16 s smOctrl) pol = false)
    (level : Bool) : gate s pol en dis level = (level && driven s en dis) := by
  simp [gate, driven, hpol, Bool.and_assoc]

lemma outputsAt_a (h : Complementary s) (pos : HalfWord) : (outputsAt s pos).a ↔ drivesA s ∧
      ((pwmLd16 s smVal2).toNat + dead0 s) % 2 ^ 16 ≤ pos.toNat ∧
      pos.toNat < (pwmLd16 s smVal3).toNat := by
  have hplain : (outputsAt s pos).a = (rawA s pos && drivesA s) := gate_plain h.pola _
  rw [hplain]
  simp only [rawA, h.indep, Bool.false_eq_true, if_false, Bool.and_eq_true, decide_eq_true_eq,
    BitVec.le_def, BitVec.lt_def, BitVec.toNat_add, BitVec.toNat_ushiftRight,
    shiftRight_eq_div_pow, dead0]
  exact and_comm

lemma outputsAt_b (h : Complementary s) (pos : HalfWord) :
    (outputsAt s pos).b ↔ drivesB s ∧ (pos.toNat < (pwmLd16 s smVal2).toNat ∨
      ((pwmLd16 s smVal3).toNat + dead1 s) % 2 ^ 16 ≤ pos.toNat) := by
  have hplain : (outputsAt s pos).b = (rawB s pos && drivesB s) := gate_plain h.polb _
  rw [hplain]
  simp only [rawB, h.indep, Bool.false_eq_true, if_false, Bool.and_eq_true, Bool.or_eq_true,
    decide_eq_true_eq, BitVec.le_def, BitVec.lt_def, BitVec.toNat_add,
    BitVec.toNat_ushiftRight, shiftRight_eq_div_pow, dead1]
  exact and_comm

lemma dead0_lt (s : PwmState) : dead0 s < 2 ^ 16 :=
  lt_of_le_of_lt (Nat.div_le_self _ _) (pwmLd16 s smDtcnt0).isLt

lemma dead1_lt (s : PwmState) : dead1 s < 2 ^ 16 :=
  lt_of_le_of_lt (Nat.div_le_self _ _) (pwmLd16 s smDtcnt1).isLt

def WrapA (s : PwmState) : Prop :=
  2 ^ 16 ≤ (pwmLd16 s smVal2).toNat + dead0 s ∧ drivesA s = true ∧
    (pwmLd16 s smVal2 < pwmLd16 s smVal3 ∨ drivesB s = true)

def WrapB (s : PwmState) : Prop := 2 ^ 16 ≤ (pwmLd16 s smVal3).toNat + dead1 s ∧ drivesB s = true

lemma shoot_through_of_wrapA (h : Complementary s) (hwrap : WrapA s) : ¬ NoShootThrough s := by
  obtain ⟨hsum, hdrives, hcase⟩ := hwrap
  intro hsafe
  have hlt := dead0_lt s
  have hordered : (pwmLd16 s smVal2).toNat ≤ (pwmLd16 s smVal3).toNat := h.ordered
  by_cases hedge : (pwmLd16 s smVal2).toNat < (pwmLd16 s smVal3).toNat
  · -- on at VAL2 itself, inside the band
    have hon := (outputsAt_a h (pwmLd16 s smVal2)).mpr ⟨hdrives, by omega, hedge⟩
    have hoff := (hsafe (pwmLd16 s smVal2)).2.1 le_rfl (by omega) hedge
    simp [hon] at hoff
  have hdrivesB : drivesB s := hcase.resolve_left hedge
  -- the pulse is empty, but the wrapped edge lies before it, where PWM_B is on
  have hpos : (pwmLd16 s smVal2 + BitVec.ofNat 16 (dead0 s)).toNat =
      ((pwmLd16 s smVal2).toNat + dead0 s) % 2 ^ 16 := by
    simp
  generalize pwmLd16 s smVal2 + BitVec.ofNat 16 (dead0 s) = pos at hpos
  have ha := (outputsAt_a h pos).mpr ⟨hdrives, by omega, by omega⟩
  have hb := (outputsAt_b h pos).mpr ⟨hdrivesB, Or.inl (by omega)⟩
  exact (hsafe pos).1 ⟨ha, hb⟩

lemma shoot_through_of_wrapB (h : Complementary s) (hwrap : WrapB s) : ¬ NoShootThrough s := by
  obtain ⟨hsum, hdrives⟩ := hwrap
  intro hsafe
  have hlt := dead1_lt s
  have hon := (outputsAt_b h (pwmLd16 s smVal3)).mpr ⟨hdrives, Or.inr (by omega)⟩
  have hoff := (hsafe (pwmLd16 s smVal3)).2.2 le_rfl (by omega)
  simp [hon] at hoff

variable {pos : HalfWord}

lemma pulse_of_a (h : Complementary s) (hA : ¬ WrapA s) (hon : (outputsAt s pos).a) :
    pos.toNat < (pwmLd16 s smVal3).toNat ∧ ((pwmLd16 s smVal2).toNat + dead0 s ≤ pos.toNat ∨
      (pwmLd16 s smVal3).toNat ≤ (pwmLd16 s smVal2).toNat ∧ drivesB s = false) := by
  obtain ⟨hdrives, hlate, hend⟩ := (outputsAt_a h pos).mp hon
  refine ⟨hend, ?_⟩
  by_cases hwrap : 2 ^ 16 ≤ (pwmLd16 s smVal2).toNat + dead0 s
  · right
    have hneither : ¬ (pwmLd16 s smVal2 < pwmLd16 s smVal3 ∨ drivesB s) :=
      fun hcase => hA ⟨hwrap, hdrives, hcase⟩
    rw [not_or] at hneither
    exact ⟨Nat.le_of_not_lt hneither.1, by simpa using hneither.2⟩
  · left
    rwa [mod_eq_of_lt (Nat.lt_of_not_le hwrap)] at hlate

lemma pulse_of_b (h : Complementary s) (hB : ¬ WrapB s) (hon : (outputsAt s pos).b) :
    drivesB s = true ∧ (pos.toNat < (pwmLd16 s smVal2).toNat ∨
      (pwmLd16 s smVal3).toNat + dead1 s ≤ pos.toNat) := by
  obtain ⟨hdrives, hside⟩ := (outputsAt_b h pos).mp hon
  have hsum := Nat.lt_of_not_le fun hwrap => hB ⟨hwrap, hdrives⟩
  rw [mod_eq_of_lt hsum] at hside
  exact ⟨hdrives, hside⟩

lemma noShootThrough_of_not_wrap (h : Complementary s) (hA : ¬ WrapA s) (hB : ¬ WrapB s) :
    NoShootThrough s := by
  have hordered : (pwmLd16 s smVal2).toNat ≤ (pwmLd16 s smVal3).toNat := h.ordered
  intro pos
  have ha : (outputsAt s pos).a → _ := pulse_of_a h hA
  have hb : (outputsAt s pos).b → _ := pulse_of_b h hB
  refine ⟨?_, ?_, ?_⟩
  · rintro ⟨hona, honb⟩
    obtain ⟨hend, hlate | ⟨-, hidle⟩⟩ := ha hona
    · have := (hb honb).2
      omega
    · simp [(hb honb).1] at hidle
  · intro hstart hband hend
    refine ⟨Bool.eq_false_iff.mpr fun hona => ?_, Bool.eq_false_iff.mpr fun honb => ?_⟩
    · obtain ⟨-, hlate | ⟨hempty, -⟩⟩ := ha hona <;> omega
    · have := (hb honb).2
      omega
  intro hstart hband
  refine ⟨Bool.eq_false_iff.mpr fun hona => ?_, Bool.eq_false_iff.mpr fun honb => ?_⟩
  · have := (ha hona).1
    omega
  · have := (hb honb).2
    omega

/-- The pair is safe at every counter position exactly if neither late edge that
matters wraps around the 16-bit counter. -/
theorem no_shoot_through_iff (h : Complementary s) : NoShootThrough s ↔ ¬ WrapA s ∧ ¬ WrapB s := by
  constructor
  · intro hsafe
    exact ⟨fun hA => shoot_through_of_wrapA h hA hsafe, fun hB => shoot_through_of_wrapB h hB hsafe⟩
  · rintro ⟨hA, hB⟩
    exact noShootThrough_of_not_wrap h hA hB

def pulseSetup (val2 val3 init : Word) : List Event :=
  [.write smVal2 val2 2 0, .write smVal3 val3 2 0, .write smInit init 2 0, .write outen 0x0110 2 0]

theorem no_shoot_through_mid_range :
    NoShootThrough (run step (powerOn 48000000) (pulseSetup 0x4000 0x8000 0)) := by
  refine (no_shoot_through_iff ⟨by decide, by decide, by decide, by decide⟩).mpr ⟨?_, ?_⟩
  · rintro ⟨hsum, -⟩
    exact absurd hsum (by decide)
  · rintro ⟨hsum, -⟩
    exact absurd hsum (by decide)

theorem shoot_through_near_top :
    Complementary (run step (powerOn 48000000) (pulseSetup 0xF900 0xFA00 0x0100)) ∧
      (mcxnPwmOutputs (run step (powerOn 48000000) (pulseSetup 0xF900 0xFA00 0x0100)) 0).a = true ∧
      (mcxnPwmOutputs (run step (powerOn 48000000) (pulseSetup 0xF900 0xFA00 0x0100)) 0).b =
        true :=
  ⟨⟨by decide, by decide, by decide, by decide⟩, by decide, by decide⟩

end Mcxn947.Pwm
