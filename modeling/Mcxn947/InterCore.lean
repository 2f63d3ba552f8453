import Mcxn947.EventRuns
import Mcxn947.MachineWords

/-!
# Signals and locks between the cores

`hw/misc/mcxn_mailbox.c` and `hw/misc/mcxn_sema42.c`. Every core reaches both devices, so a run
is any interleaving of the accesses of their clients.
-/

namespace Mcxn947

namespace InterCore

open MachineWords

inductive Access (κ : Type*) where
  | read (client : κ) (offset : ℕ)
  | write (client : κ) (offset : ℕ) (value : Word)

end InterCore

namespace Mailbox

open MachineWords EventRuns InterCore Function

def mailboxIrq0 : ℕ := 0x00
def mailboxIrqset0 : ℕ := 0x04
def mailboxIrqclr0 : ℕ := 0x08
def mailboxIrq1 : ℕ := 0x10
def mailboxIrqset1 : ℕ := 0x14
def mailboxIrqclr1 : ℕ := 0x18
def mailboxMutex : ℕ := 0xF8
def mailboxMutexEx : Word := 1

structure MailboxState where
  irq : Fin 2 → Word
  mutex : Word
  out : Fin 2 → Bool

variable (s : MailboxState)

def MailboxState.requests (n : Fin 2) : Bool := s.irq n != 0

def mcxnMailboxUpdateIrq : MailboxState := { s with out := s.requests }

def MailboxState.setIrq (n : Fin 2) (v : Word) : MailboxState :=
  mcxnMailboxUpdateIrq { s with irq := update s.irq n v }

def mcxnMailboxRead (offset : ℕ) : Word × MailboxState :=
  if offset = mailboxIrq0 then (s.irq 0, s)
  else if offset = mailboxIrq1 then (s.irq 1, s)
  else if offset = mailboxMutex then
    (s.mutex &&& mailboxMutexEx, { s with mutex := s.mutex &&& ~~~mailboxMutexEx })
  else (0, s)

def mcxnMailboxWrite (offset : ℕ) (value : Word) : MailboxState :=
  if offset = mailboxIrq0 then s.setIrq 0 value
  else if offset = mailboxIrq1 then s.setIrq 1 value
  else if offset = mailboxIrqset0 then s.setIrq 0 (s.irq 0 ||| value)
  else if offset = mailboxIrqclr0 then s.setIrq 0 (s.irq 0 &&& ~~~value)
  else if offset = mailboxIrqset1 then s.setIrq 1 (s.irq 1 ||| value)
  else if offset = mailboxIrqclr1 then s.setIrq 1 (s.irq 1 &&& ~~~value)
  else if offset = mailboxMutex then { s with mutex := s.mutex ||| mailboxMutexEx }
  else s

def mcxnMailboxReset : MailboxState := { s with irq := fun _ => 0, mutex := mailboxMutexEx }

section Mutex

variable {κ : Type*} [DecidableEq κ]

/-- The device and what its clients have seen: a client holds the mutex from the read that
returns one to its next write. -/
structure Shared (κ : Type*) where
  dev : MailboxState
  holders : Finset κ

def Shared.step (w : Shared κ) : Access κ → Shared κ
  | .read c offset =>
    let (v, dev) := mcxnMailboxRead w.dev offset
    ⟨dev, if offset = mailboxMutex ∧ v ≠ 0 then insert c w.holders else w.holders⟩
  | .write c offset value =>
    ⟨mcxnMailboxWrite w.dev offset value,
      if offset = mailboxMutex then w.holders.erase c else w.holders⟩

/-- The mutex is free just while nobody holds it, and at most one client does. -/
structure Exclusive (w : Shared κ) : Prop where
  free : anyBit w.dev.mutex mailboxMutexEx = true ↔ w.holders = ∅
  one : w.holders.card ≤ 1

/-- The mutex is written only while no other client holds it. -/
def ReleasesOwn (w : Shared κ) : Access κ → Prop
  | .write c offset _ => offset = mailboxMutex → w.holders ⊆ {c}
  | _ => True

lemma anyBit_ex : anyBit mailboxMutexEx mailboxMutexEx = true := by decide

lemma read_mutex (offset : ℕ) : (mcxnMailboxRead s offset).2.mutex =
    if offset = mailboxMutex then s.mutex &&& ~~~mailboxMutexEx else s.mutex := by
  by_cases h : offset = mailboxMutex
  · subst h
    rfl
  rw [if_neg h]
  unfold mcxnMailboxRead
  split_ifs <;> rfl

lemma write_mutex (offset : ℕ) (value : Word) : (mcxnMailboxWrite s offset value).mutex =
    if offset = mailboxMutex then s.mutex ||| mailboxMutexEx else s.mutex := by
  by_cases h : offset = mailboxMutex
  · subst h
    rfl
  rw [if_neg h]
  unfold mcxnMailboxWrite
  split_ifs <;> rfl

variable {w : Shared κ}

lemma exclusive_read (h : Exclusive w) (c : κ) (offset : ℕ) :
    Exclusive (w.step (.read c offset)) := by
  by_cases hoff : offset = mailboxMutex
  · subst hoff
    have hclear : anyBit (w.dev.mutex &&& ~~~mailboxMutexEx) mailboxMutexEx = false :=
      anyBit_clear_of_subset (by decide) _
    by_cases hnone : w.holders = ∅
    · have hread : (mcxnMailboxRead w.dev mailboxMutex).1 ≠ 0 := bne_iff_ne.mp (h.free.mpr hnone)
      have hnext : (w.step (.read c mailboxMutex)).holders = {c} := by
        simpa [Shared.step, hnone] using hread
      exact ⟨iff_of_false (by simp [Shared.step, read_mutex, hclear]) (by simp [hnext]),
        by simp [hnext]⟩
    · have hread : (mcxnMailboxRead w.dev mailboxMutex).1 = 0 :=
        anyBit_eq_false.mp (Bool.eq_false_iff.mpr (mt h.free.mp hnone))
      exact ⟨iff_of_false (by simp [Shared.step, read_mutex, hclear])
        (by simpa [Shared.step, hread] using hnone), by simpa [Shared.step, hread] using h.one⟩
  · exact ⟨by simpa [Shared.step, read_mutex, hoff] using h.free,
      by simpa [Shared.step, hoff] using h.one⟩

lemma exclusive_write (h : Exclusive w) (c : κ) (offset : ℕ) (value : Word) :
    Exclusive (w.step (.write c offset value)) ↔ ReleasesOwn w (.write c offset value) := by
  by_cases hoff : offset = mailboxMutex
  · have hset : anyBit (w.dev.mutex ||| mailboxMutexEx) mailboxMutexEx = true := by
      rw [anyBit_or, anyBit_ex, Bool.or_true]
    have hleft : ReleasesOwn w (.write c offset value) ↔ w.holders.erase c = ∅ := by
      rw [Finset.erase_eq_empty_iff, ← Finset.subset_singleton_iff]
      exact ⟨fun hown => hown hoff, fun hown _ => hown⟩
    rw [hleft]
    constructor
    · intro hnext
      simpa [Shared.step, write_mutex, hoff, hset] using hnext.free
    · intro hnone
      exact ⟨by simp [Shared.step, write_mutex, hoff, hset, hnone],
        by simp [Shared.step, hoff, hnone]⟩
  · refine iff_of_true ⟨?_, ?_⟩ fun hmutex => absurd hmutex hoff
    · simpa [Shared.step, write_mutex, hoff] using h.free
    · simpa [Shared.step, hoff] using h.one

/-- For any clients and any interleaving of their accesses after a reset, the mutex is free just
while nobody holds it and never shared, as long as each write of it comes from a client that
shares it with nobody, and no longer. -/
theorem mutex_exclusive_iff (accesses : List (Access κ)) :
    Always Shared.step Exclusive ⟨mcxnMailboxReset s, ∅⟩ accesses ↔
      Admits Shared.step ReleasesOwn ⟨mcxnMailboxReset s, ∅⟩ accesses := by
  have hfree : Exclusive (κ := κ) ⟨mcxnMailboxReset s, ∅⟩ :=
    ⟨iff_of_true anyBit_ex rfl, Nat.zero_le 1⟩
  refine always_iff_admits (I := fun _ => True) (fun _ _ _ => trivial) ?_ trivial hfree accesses
  rintro w (⟨c, offset⟩ | ⟨c, offset, value⟩) _ h
  · exact iff_of_true (exclusive_read h c offset) trivial
  · exact exclusive_write h c offset value

end Mutex

end Mailbox

namespace Sema42

open MachineWords EventRuns InterCore Function

def sema42GateLast : ℕ := 0x0F
def sema42Rstgt : ℕ := 0x42
def sema42GateGtfsmMask : Byte := 0x0F

structure Sema42State where
  gate : ℕ → Byte
  rstgt : HalfWord

variable (s : Sema42State)

def Sema42State.shown (gate : ℕ) : Byte := s.gate gate &&& sema42GateGtfsmMask

def mcxnSema42Read (offset : ℕ) : Word :=
  if offset ≤ sema42GateLast then (s.shown offset).setWidth 32
  else if offset = sema42Rstgt then s.rstgt.setWidth 32
  else 0

def domain (value : Word) : Byte := value.setWidth 8 &&& sema42GateGtfsmMask

def mcxnSema42Write (offset : ℕ) (value : Word) : Sema42State :=
  if offset ≤ sema42GateLast then
    if domain value = 0 then { s with gate := update s.gate offset 0 }
    else if s.shown offset = 0 ∨ s.shown offset = domain value then
      { s with gate := update s.gate offset (domain value) }
    else s
  else if offset = sema42Rstgt then { s with rstgt := value.setWidth 16 &&& 0xFF }
  else s

def mcxnSema42Reset : Sema42State := ⟨fun _ => 0, 0⟩

/-- The value by which domain `d` locks a gate. -/
def number (d : Fin 15) : Byte := BitVec.ofNat 8 (d + 1)

/-- The device and the domains that found their number in a gate and have not written zero
to it since. -/
structure Shared where
  dev : Sema42State
  owners : ℕ → Finset (Fin 15)

def Shared.step (w : Shared) : Access (Fin 15) → Shared
  | .read d offset =>
    ⟨w.dev, update w.owners offset (if mcxnSema42Read w.dev offset = (number d).setWidth 32
      then insert d (w.owners offset) else (w.owners offset).erase d)⟩
  | .write d offset value =>
    ⟨mcxnSema42Write w.dev offset value, update w.owners offset
      (if domain value = 0 then (w.owners offset).erase d else w.owners offset)⟩

/-- Whoever takes a gate for its own is the one that the gate shows. -/
def Truthful (w : Shared) : Prop :=
  ∀ gate ≤ sema42GateLast, ∀ d ∈ w.owners gate, w.dev.shown gate = number d

/-- Zero is written to a gate only while no other domain owns it. -/
def ReleasesOwn (w : Shared) : Access (Fin 15) → Prop
  | .write d offset value =>
    offset ≤ sema42GateLast → domain value = 0 → w.owners offset ⊆ {d}
  | _ => True

lemma number_ne_zero : ∀ d, number d ≠ 0 := by decide

/-- A gate is a lock of its own: zero frees it, and a number takes it only when it is free. -/
lemma shown_write {gate : ℕ} (hgate : gate ≤ sema42GateLast) (offset : ℕ) (value : Word) :
    (mcxnSema42Write s offset value).shown gate = if offset = gate ∧ domain value = 0 then 0
      else if offset = gate ∧ s.shown gate = 0 then domain value else s.shown gate := by
  have hmask : domain value &&& sema42GateGtfsmMask = domain value := by
    rw [domain, BitVec.and_assoc, BitVec.and_self]
  unfold mcxnSema42Write
  by_cases hoff : offset = gate
  · subst hoff
    simp only [if_pos hgate, true_and]
    split_ifs with hzero hfits hfree hfree
    · simp [Sema42State.shown]
    · simp [Sema42State.shown, hmask]
    · rw [hfits.resolve_left hfree]
      simp [Sema42State.shown, hmask]
    · exact absurd (.inl hfree) hfits
    · rfl
  · simp only [hoff, false_and, if_false]
    split_ifs <;> simp [Sema42State.shown, update_of_ne (Ne.symm hoff)]

variable {w : Shared}

lemma truthful_read (h : Truthful w) (d : Fin 15) (offset : ℕ) :
    Truthful (w.step (.read d offset)) := by
  intro gate hgate e he
  dsimp only [Shared.step] at he
  by_cases hoff : gate = offset
  · rw [← hoff, update_self, mcxnSema42Read, if_pos hgate] at he
    split_ifs at he with hown
    · obtain rfl | he := Finset.mem_insert.mp he
      · change w.dev.shown gate = number e
        simpa using congrArg (BitVec.setWidth 8) hown
      · exact h gate hgate e he
    · exact h gate hgate e (Finset.mem_of_mem_erase he)
  · rw [update_of_ne hoff] at he
    exact h gate hgate e he

lemma truthful_write (h : Truthful w) (d : Fin 15) (offset : ℕ) (value : Word) :
    Truthful (w.step (.write d offset value)) ↔ ReleasesOwn w (.write d offset value) := by
  constructor
  · intro hnext hgate hzero e he
    by_contra hne
    have howns : e ∈ (w.step (.write d offset value)).owners offset := by
      dsimp only [Shared.step]
      rw [update_self, if_pos hzero]
      exact Finset.mem_erase.mpr ⟨fun hd => hne (Finset.mem_singleton.mpr hd), he⟩
    have hshown := hnext offset hgate e howns
    dsimp only [Shared.step] at hshown
    rw [shown_write _ hgate, if_pos ⟨rfl, hzero⟩] at hshown
    exact number_ne_zero e hshown.symm
  · intro hown gate hgate e he
    dsimp only [Shared.step] at he ⊢
    rw [shown_write _ hgate]
    by_cases hoff : offset = gate
    · subst hoff
      rw [update_self] at he
      simp only [true_and]
      split_ifs at he ⊢ with hzero hfree
      · obtain ⟨hne, he⟩ := Finset.mem_erase.mp he
        exact absurd (Finset.mem_singleton.mp (hown hgate hzero he)) hne
      · exact absurd ((h offset hgate e he).symm.trans hfree) (number_ne_zero e)
      · exact h offset hgate e he
    · rw [update_of_ne (Ne.symm hoff)] at he
      simpa [hoff] using h gate hgate e he

/-- Over any interleaving of the accesses of fifteen domains after a reset, a gate that a domain
found its number in shows this number until the domain itself writes zero to it, as long as
nobody writes zero to a gate that another owns, and no longer. -/
theorem gates_truthful_iff (accesses : List (Access (Fin 15))) :
    Always Shared.step Truthful ⟨mcxnSema42Reset, fun _ => ∅⟩ accesses ↔
      Admits Shared.step ReleasesOwn ⟨mcxnSema42Reset, fun _ => ∅⟩ accesses := by
  have hfree : Truthful ⟨mcxnSema42Reset, fun _ => ∅⟩ := fun _ _ d hd => absurd hd (by simp)
  refine always_iff_admits (I := fun _ => True) (fun _ _ _ => trivial) ?_ trivial hfree accesses
  rintro w (⟨d, offset⟩ | ⟨d, offset, value⟩) _ h
  · exact iff_of_true (truthful_read h d offset) trivial
  · exact truthful_write h d offset value

end Sema42

end Mcxn947
