import Mcxn947.UsbfsModel

/-!
# The token handshake

In device mode everything the controller does to its tokens is one of four moves: nothing
that shows, a bank reset, the retirement of the descriptor that is due (only while no token
waits for the guest), and the guest's acknowledgement.
-/

namespace Mcxn947.Usbfs

open MachineWords GuestMemory EventRuns List TokenMark

def TokenMark.writtenBack : TokenMark → Option Bd
  | .writeBack bd => some bd
  | _ => none

def TokenMark.raised : TokenMark → Option Word
  | .tokdne stat => some stat
  | _ => none

variable (a b : List TokenMark) (log : List TokenMark) (bd : Bd)

def writeBacks : List Bd := log.filterMap writtenBack

def tokdnes : List Word := log.filterMap raised

lemma writeBacks_append : writeBacks (a ++ b) = writeBacks a ++ writeBacks b := filterMap_append

lemma tokdnes_append : tokdnes (a ++ b) = tokdnes a ++ tokdnes b := filterMap_append

def Names (stat : Word) (bd : Bd) : Prop :=
  (stat >>> 4).toNat = bd.ep ∧ anyBit stat 0x08 = bd.tx ∧ anyBit stat 0x04 = bd.odd
deriving Decidable

lemma statOf_names : Names (statOf bd) bd := by
  obtain ⟨ep, tx, odd⟩ := bd
  have hall : ∀ (ep : EpIdx) (tx odd : Bool),
      Names (statOf ⟨ep, tx, odd⟩) ⟨ep, tx, odd⟩ := by decide
  exact hall ep tx odd

def retired (ep : EpIdx) (tx : Bool) (log : List TokenMark) : List Bool :=
  ((writeBacks log).filter fun bd => bd.ep = ep ∧ bd.tx = tx).map Bd.odd

def alternating (count : ℕ) : List Bool := (List.range count).map fun k => k % 2 == 1

def sinceReset : List TokenMark := (log.reverse.takeWhile (· ≠ .bankReset)).reverse

def dueBank (ep : EpIdx) (tx : Bool) : Bool := (retired ep tx (sinceReset log)).length % 2 == 1

inductive TokenLog : List TokenMark → Prop where
  | nil : TokenLog []
  | reset {log : List TokenMark} (h : TokenLog log) : TokenLog (log ++ [.bankReset])
  | token {log : List TokenMark} {bd : Bd} (h : TokenLog log)
      (hodd : bd.odd = dueBank log bd.ep bd.tx) :
      TokenLog (log ++ [.writeBack bd, .tokdne (statOf bd)])

@[simp] lemma sinceReset_append_reset : sinceReset (log ++ [.bankReset]) = [] := by
  simp [sinceReset]

lemma sinceReset_append {log marks : List TokenMark} (h : bankReset ∉ marks) :
    sinceReset (log ++ marks) = sinceReset log ++ marks := by
  have hall : ∀ m ∈ marks.reverse, decide (m ≠ .bankReset) = true := by
    intro m hm
    have hne : m ≠ .bankReset := fun heq => h (heq ▸ List.mem_reverse.mp hm)
    simpa using hne
  rw [sinceReset, reverse_append, takeWhile_append_of_pos hall, reverse_append, reverse_reverse]
  rfl

section

variable (ep : EpIdx) (tx : Bool)

lemma retired_append (a b : List TokenMark) :
    retired ep tx (a ++ b) = retired ep tx a ++ retired ep tx b := by
  simp [retired, writeBacks_append]

lemma retired_token (bd : Bd) (stat : Word) : retired ep tx [.writeBack bd, .tokdne stat] =
      if bd.ep = ep ∧ bd.tx = tx then [bd.odd] else [] := by
  simp only [retired, writeBacks, filterMap_cons, writtenBack,
    filterMap_nil, filter_cons, filter_nil]
  split
  next hmatch =>
    simp only [decide_eq_true_eq] at hmatch
    simp [hmatch]
  rename_i hmatch
  simp only [decide_eq_true_eq] at hmatch
  simp [hmatch]

lemma dueBank_reset : dueBank (log ++ [.bankReset]) ep tx = false := by
  rw [dueBank, sinceReset_append_reset]
  rfl

lemma dueBank_token : dueBank (log ++ [.writeBack bd, .tokdne (statOf bd)]) ep tx =
      if bd.ep = ep ∧ bd.tx = tx then !dueBank log ep tx else dueBank log ep tx := by
  rw [dueBank, sinceReset_append (by simp), retired_append, retired_token]
  split
  · rw [dueBank, length_append, length_singleton, Bool.eq_iff_iff]
    simp only [beq_iff_eq, Bool.not_eq_true', beq_eq_false_iff_ne]
    omega
  · rw [append_nil, dueBank]

end

lemma TokenLog.writeBack_inv {log before after : List TokenMark} {bd : Bd} (h : TokenLog log)
    (hlog : log = before ++ .writeBack bd :: after) :
    bd.odd = dueBank before bd.ep bd.tx ∧ ∃ rest, after = .tokdne (statOf bd) :: rest := by
  induction h generalizing before after with
  | nil => simp at hlog
  | reset h ih =>
    rcases List.append_eq_append_iff.mp hlog with
      ⟨extra, _, hextra⟩ | ⟨mid, hmid, hsuffix⟩
    · cases extra with
      | nil | cons m rest => simp at hextra
    cases mid with
    | nil => simp at hsuffix
    | cons m rest =>
      rw [cons_append, List.cons.injEq] at hsuffix
      obtain ⟨hm, hafter⟩ := hsuffix
      obtain ⟨hodd, tail, htail⟩ := ih (hm ▸ hmid)
      exact ⟨hodd, tail ++ [.bankReset], by rw [hafter, htail]; rfl⟩
  | @token log bd' h hodd' ih =>
    rcases List.append_eq_append_iff.mp hlog with
      ⟨extra, hbefore, hextra⟩ | ⟨mid, hmid, hsuffix⟩
    · cases extra with
      | nil =>
        rw [nil_append, List.cons.injEq] at hextra
        obtain ⟨hbd, hafter⟩ := hextra
        cases hbd
        rw [append_nil] at hbefore
        exact ⟨hbefore ▸ hodd', [], hafter.symm⟩
      | cons m rest => cases rest <;> simp at hextra
    cases mid with
    | nil =>
      rw [nil_append, List.cons.injEq] at hsuffix
      obtain ⟨hbd, hafter⟩ := hsuffix
      cases hbd
      rw [append_nil] at hmid
      exact ⟨hmid ▸ hodd', [], hafter⟩
    | cons m rest =>
      rw [cons_append, List.cons.injEq] at hsuffix
      obtain ⟨hm, hafter⟩ := hsuffix
      obtain ⟨hodd, tail, htail⟩ := ih (hm ▸ hmid)
      exact ⟨hodd, tail ++ [.writeBack bd', .tokdne (statOf bd')], by rw [hafter, htail]; rfl⟩

lemma TokenLog.tokdnes_eq {log : List TokenMark} (h : TokenLog log) :
    tokdnes log = (writeBacks log).map statOf := by
  induction h with
  | nil => rfl
  | reset h ih | token h hodd ih =>
    rw [tokdnes_append, writeBacks_append, map_append, ih]
    rfl

lemma TokenLog.alternates {log before seg after : List TokenMark} (h : TokenLog log)
    (hlog : log = before ++ .bankReset :: seg ++ after)
    (hseg : bankReset ∉ seg) (ep : EpIdx) (tx : Bool) :
    retired ep tx seg = alternating (retired ep tx seg).length := by
  induction seg using List.reverseRecOn generalizing after with
  | nil => rfl
  | append_singleton seg m ih =>
    have hrest : bankReset ∉ seg := fun hm =>
      hseg (mem_append_left _ hm)
    have hsplit : log = before ++ .bankReset :: seg ++ m :: after := by
      rw [hlog]
      simp
    have hprefix := ih hsplit hrest
    cases m with
    | bankReset => exact absurd (mem_append_right _ mem_cons_self) hseg
    | tokdne stat =>
      have hnone : retired ep tx [tokdne stat] = [] := rfl
      rw [retired_append, hnone, append_nil]
      exact hprefix
    | writeBack bd =>
      have hsplit : log = (before ++ .bankReset :: seg) ++ .writeBack bd :: after := by
        rw [hlog]
        simp
      have hbank := (h.writeBack_inv hsplit).1
      have hsince : sinceReset (before ++ .bankReset :: seg) = seg := by
        rw [← singleton_append, ← append_assoc, sinceReset_append hrest,
          sinceReset_append_reset, nil_append]
      rw [retired_append]
      by_cases hmatch : bd.ep = ep ∧ bd.tx = tx
      · have hone : retired ep tx [writeBack bd] = [bd.odd] := by
          simp [retired, writeBacks, writtenBack, hmatch]
        have hodd : bd.odd = ((retired ep tx seg).length % 2 == 1) := by
          rw [hbank, dueBank, hsince, hmatch.1, hmatch.2]
        rw [hone, length_append, length_singleton, alternating,
          range_succ, map_append, ← alternating, ← hprefix, hodd]
        rfl
      have hnone : retired ep tx [writeBack bd] = [] := by
        simp [retired, writeBacks, writtenBack, hmatch]
      rw [hnone, append_nil]
      exact hprefix

end Mcxn947.Usbfs
