import Mcxn947.EdmaModel

/-!
# The TCD validation rules

`edma_minor_loop` checks a descriptor in two steps and reports through the flag
word `CH_ES`.
-/

namespace Mcxn947.Edma

open MachineWords

inductive TcdRule where
  | nbytesZero | citerZero
  | saddr | soff | daddr | doff
  | nbytesMultiple | xferSize
deriving DecidableEq

def TcdRule.flag : TcdRule → Word
  | .nbytesZero | .citerZero | .nbytesMultiple | .xferSize => chEsNce
  | .saddr => chEsSae
  | .soff => chEsSoe
  | .daddr => chEsDae
  | .doff => chEsDoe

variable (r : TcdRule) (c : Chan)

def TcdRule.Violated : TcdRule → Prop
  | .nbytesZero => c.nbytes = 0
  | .citerZero => c.citer = 0
  | .saddr => ¬ c.ssize ∣ c.tcdSaddr.toNat
  | .soff => ¬ (c.ssize : ℤ) ∣ c.tcdSoff.toInt
  | .daddr => ¬ c.dsize ∣ c.tcdDaddr.toNat
  | .doff => ¬ (c.dsize : ℤ) ∣ c.tcdDoff.toInt
  | .nbytesMultiple => ¬ (c.ssize ∣ c.nbytes ∧ c.dsize ∣ c.nbytes)
  | .xferSize => maxXfer < c.ssize ∨ maxXfer < c.dsize

instance (c : Chan) : (r : TcdRule) → Decidable (r.Violated c)
  | .nbytesZero | .citerZero => inferInstanceAs (Decidable (_ = _))
  | .saddr | .soff | .daddr | .doff => inferInstanceAs (Decidable (¬ _ ∣ _))
  | .nbytesMultiple => inferInstanceAs (Decidable (¬ (_ ∧ _)))
  | .xferSize => inferInstanceAs (Decidable (_ ∨ _))

def Chan.Accepted : Prop := ∀ r : TcdRule, ¬ r.Violated c

lemma Chan.exists_violated {c : Chan} (h : ¬ c.Accepted) : ∃ r : TcdRule, r.Violated c := by
  unfold Accepted at h
  push Not at h
  exact h

lemma TcdRule.violated_clearDone : r.Violated c.clearDone ↔ r.Violated c := by
  cases r <;> rfl

@[simp] lemma Chan.accepted_clearDone : c.clearDone.Accepted ↔ c.Accepted :=
  forall_congr' fun r => not_congr (r.violated_clearDone c)

lemma anyBit_erq_of_eq_outside_done {csr csr' : Word}
    (h : csr &&& ~~~chCsrDone = csr' &&& ~~~chCsrDone) :
    anyBit csr chCsrErq = anyBit csr' chCsrErq := by
  have hdisj : chCsrDone &&& chCsrErq = 0 := by decide
  rw [← anyBit_clear_of_disjoint hdisj csr, h, anyBit_clear_of_disjoint hdisj]

lemma Chan.ssize_pos : 0 < c.ssize := Nat.two_pow_pos _

lemma Chan.dsize_pos : 0 < c.dsize := Nat.two_pow_pos _

private lemma anyBit_ite {p : Prop} [Decidable p] (flag mask : Word) :
    anyBit (if p then flag else 0) mask = true ↔ p ∧ anyBit flag mask := by
  by_cases hp : p <;> simp [hp]

private lemma tmod_ne_zero_iff (off : ℤ) (size : ℕ) : off.tmod size ≠ 0 ↔ ¬ (size : ℤ) ∣ off :=
  not_congr Int.dvd_iff_tmod_eq_zero.symm

private lemma mod_ne_zero_iff (addr size : ℕ) : addr % size ≠ 0 ↔ ¬ size ∣ addr :=
  not_congr (Nat.dvd_iff_mod_eq_zero).symm

def TcdRule.Collected : Prop := r ≠ .nbytesZero ∧ r ≠ .citerZero

lemma Chan.anyBit_tcdErr (mask : Word) : anyBit c.tcdErr mask ↔
      ∃ r : TcdRule, r.Collected ∧ r.Violated c ∧ anyBit r.flag mask := by
  unfold tcdErr
  simp only [anyBit_or, Bool.or_eq_true, anyBit_ite, tmod_ne_zero_iff, mod_ne_zero_iff]
  constructor
  · rintro (((((h | h) | h) | h) | h) | h)
    · exact ⟨.saddr, by simp [TcdRule.Collected], h⟩
    · exact ⟨.soff, by simp [TcdRule.Collected], h⟩
    · exact ⟨.daddr, by simp [TcdRule.Collected], h⟩
    · exact ⟨.doff, by simp [TcdRule.Collected], h⟩
    · exact ⟨.nbytesMultiple, by simp [TcdRule.Collected], not_and_or.mpr h.1, h.2⟩
    · exact ⟨.xferSize, by simp [TcdRule.Collected], h⟩
  rintro ⟨r, hcoll, hviol, hflag⟩
  cases r with
  | nbytesZero | citerZero => simp [TcdRule.Collected] at hcoll
  | saddr => exact .inl (.inl (.inl (.inl (.inl ⟨hviol, hflag⟩))))
  | soff => exact .inl (.inl (.inl (.inl (.inr ⟨hviol, hflag⟩))))
  | daddr => exact .inl (.inl (.inl (.inr ⟨hviol, hflag⟩)))
  | doff => exact .inl (.inl (.inr ⟨hviol, hflag⟩))
  | nbytesMultiple => exact .inl (.inr ⟨not_and_or.mp hviol, hflag⟩)
  | xferSize => exact .inr ⟨hviol, hflag⟩

lemma TcdRule.anyBit_flag_self : anyBit r.flag r.flag := by
  cases r <;> decide

lemma Chan.tcdErr_eq_zero_iff : c.tcdErr = 0 ↔ ∀ r : TcdRule, r.Collected → ¬ r.Violated c := by
  constructor
  · intro hzero r hcoll hviol
    have hbit := (c.anyBit_tcdErr r.flag).mpr ⟨r, hcoll, hviol, r.anyBit_flag_self⟩
    simp [hzero] at hbit
  intro hnone
  by_contra hne
  have hbit : anyBit c.tcdErr (BitVec.allOnes 32) := by
    simpa only [anyBit, BitVec.and_allOnes, bne_iff_ne] using hne
  obtain ⟨r, hcoll, hviol, _⟩ := (c.anyBit_tcdErr _).mp hbit
  exact hnone r hcoll hviol

lemma Chan.accepted_iff : c.Accepted ↔ ¬ (c.dsize = 0 ∨ c.nbytes = 0 ∨ c.citer = 0) ∧
      c.tcdErr = 0 := by
  rw [c.tcdErr_eq_zero_iff]
  have hdsize : c.dsize ≠ 0 := c.dsize_pos.ne'
  constructor
  · intro h
    have hnbytes : c.nbytes ≠ 0 := h .nbytesZero
    have hciter : c.citer ≠ 0 := h .citerZero
    exact ⟨by tauto, fun r _ => h r⟩
  rintro ⟨hfirst, hcoll⟩ r hviol
  by_cases hnbytes : r = .nbytesZero
  · subst hnbytes
    exact hfirst (.inr (.inl hviol))
  by_cases hciter : r = .citerZero
  · subst hciter
    exact hfirst (.inr (.inr hviol))
  · exact hcoll r ⟨hnbytes, hciter⟩ hviol

end Mcxn947.Edma
