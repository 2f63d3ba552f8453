import Mcxn947.MachineWords

/-!
# Accesses to a register window

A window that takes one, two and four bytes passes naturally aligned accesses to the
device and hands it the written value cut to the width.
-/

namespace BusAccesses

open MachineWords BitVec

inductive Width where
  | byte
  | half
  | word
deriving DecidableEq

def Width.bytes : Width → ℕ
  | .byte => 1
  | .half => 2
  | .word => 4

structure RegWrite where
  off : ℕ
  width : Width
  value : Word
  aligned : off % width.bytes = 0
  fits : value.toNat < 2 ^ (8 * width.bytes)

lemma word_fits (v : Word) : v.toNat < 2 ^ (8 * Width.word.bytes) := v.isLt

def RegWrite.ofWord (idx : ℕ) (v : Word) : RegWrite :=
  ⟨4 * idx, .word, v, Nat.mul_mod_right 4 idx, word_fits v⟩

lemma RegWrite.narrow (w : RegWrite) (h : w.off % 4 ≠ 0) : w.value.toNat < 2 ^ 16 := by
  obtain ⟨off, width, value, halign, hfits⟩ := w
  cases width with
  | byte => exact lt_of_lt_of_le hfits (by decide)
  | half => exact hfits
  | word => exact absurd halign h

def byteMask (lane size : ℕ) : Word :=
  if 4 ≤ size then 0xFFFFFFFF else (((1 : Word) <<< (size * 8)) - 1) <<< (lane * 8)

def writtenBytes (off size : ℕ) (v : Word) : Word :=
  (v <<< ((off % 4) * 8)) &&& byteMask (off % 4) size

def readBytes (reg : Word) (off size : ℕ) : Word := (reg >>> ((off % 4) * 8)) &&& byteMask 0 size

def mergeBytes (old : Word) (off size : ℕ) (v : Word) : Word :=
  (old &&& ~~~byteMask (off % 4) size) ||| ((v <<< ((off % 4) * 8)) &&& byteMask (off % 4) size)

variable {off : ℕ}

lemma readBytes_byte (hlane : off % 4 = 0) (width : Width) (b : Byte) :
    readBytes (b.setWidth 32) off width.bytes = b.setWidth 32 := by
  rw [readBytes, hlane]
  revert b
  cases width <;> decide

lemma readBytes_word (hlane : off % 4 = 0) (v : Word) : readBytes v off 4 = v := by
  rw [readBytes, hlane]
  exact (and_allOnes).trans (ushiftRight_zero v)

def ofBytes (f : ℕ → Byte) : Word := f 3 ++ f 2 ++ f 1 ++ f 0

def cut (size : ℕ) (v : Word) : Word := (v.setWidth (8 * size)).setWidth 32

lemma ofBytes_getLsbD (f : ℕ → Byte) {i : ℕ} (hi : i < 32) :
    (ofBytes f).getLsbD i = (f (i / 8)).getLsbD (i % 8) := by
  have hlane : i / 8 = 0 ∨ i / 8 = 1 ∨ i / 8 = 2 ∨ i / 8 = 3 := by omega
  simp only [ofBytes, getLsbD_append]
  rcases hlane with h | h | h | h
  · rw [if_pos (by omega), h]
    congr 1
    omega
  · rw [if_neg (by omega), if_pos (by omega), h]
    congr 1
    omega
  · rw [if_neg (by omega), if_neg (by omega), if_pos (by omega), h]
    congr 1
    omega
  rw [if_neg (by omega), if_neg (by omega), if_neg (by omega), h]
  congr 1
  omega

lemma ofBytes_inj {f g : ℕ → Byte} : ofBytes f = ofBytes g ↔ ∀ i < 4, f i = g i := by
  constructor
  · intro h i hi
    apply eq_of_getLsbD_eq
    intro j hj
    have hbit := congrArg (fun v : Word => v.getLsbD (8 * i + j)) h
    have hdiv : (8 * i + j) / 8 = i := by omega
    have hmod : (8 * i + j) % 8 = j := by omega
    rwa [ofBytes_getLsbD f (by omega), ofBytes_getLsbD g (by omega), hdiv, hmod] at hbit
  intro h
  apply eq_of_getLsbD_eq
  intro i hi
  rw [ofBytes_getLsbD f hi, ofBytes_getLsbD g hi, h (i / 8) (by omega)]

lemma cut_ofBytes (size : ℕ) (f : ℕ → Byte) :
    cut size (ofBytes f) = ofBytes fun i => if i < size then f i else 0 := by
  apply eq_of_getLsbD_eq
  intro i hi
  rw [ofBytes_getLsbD _ hi, cut, getLsbD_setWidth, getLsbD_setWidth, ofBytes_getLsbD f hi]
  by_cases hsize : i / 8 < size
  · have hlow : i < 8 * size := by omega
    simp [hi, hsize, hlow]
  · have hhigh : ¬ i < 8 * size := by omega
    simp [hsize, hhigh]

def RegFile := ℕ → Word

namespace RegFile

def zero : RegFile := fun _ => 0

variable (r : RegFile)

def get (off : ℕ) : Word := r (off / 4)

def set (off : ℕ) (v : Word) : RegFile := Function.update r (off / 4) v

lemma get_set (off off' : ℕ) (v : Word) :
    (r.set off v).get off' = if off' / 4 = off / 4 then v else r.get off' :=
  Function.update_apply r (off / 4) v (off' / 4)

variable {off off' : ℕ}

lemma get_set_of_ne (h : off' / 4 ≠ off / 4) (r : RegFile) (v : Word) :
    (r.set off v).get off' = r.get off' := by
  rw [get_set, if_neg h]

@[simp] lemma get_set_self (off : ℕ) (v : Word) : (r.set off v).get off = v := by
  rw [get_set, if_pos rfl]

lemma get_congr (h : off / 4 = off' / 4) (r : RegFile) : r.get off = r.get off' := congrArg r h

lemma set_congr (h : off / 4 = off' / 4) (r : RegFile) (v : Word) : r.set off v = r.set off' v := by
  rw [set, set, h]

end RegFile

end BusAccesses
