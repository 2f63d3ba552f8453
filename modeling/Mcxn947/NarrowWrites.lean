import Mcxn947.BusAccesses
import Mcxn947.EventRuns

/-!
# Narrow writes to a bank of registers

A write of one, two or four bytes replaces its bytes of the plain fields of a register word,
clears the flags it writes as one and leaves every other bit.
-/

namespace BusAccesses

open MachineWords EventRuns

def Width.mask : Width → Word
  | .byte => 0xFF
  | .half => 0xFFFF
  | .word => 0xFFFFFFFF

variable {i : ℕ} {ws : List RegWrite}

lemma Width.getLsbD_mask (width : Width) (hi : i < 32) :
    width.mask.getLsbD i = decide (i < 8 * width.bytes) := by
  revert i
  cases width <;> decide

structure Fields where
  (w1c fixed : Word)

def Fields.plain : Fields := ⟨0, 0⟩

def Fields.bit (f : Fields) (i : ℕ) (old new : Bool) : Bool :=
  if f.fixed.getLsbD i then old else if f.w1c.getLsbD i then old && !new else new

namespace RegWrite

open BitVec Fields

variable (w : RegWrite)

def idx : ℕ := w.off / 4

def lane : ℕ := w.off % 4

def lanes : Word := w.width.mask <<< (8 * w.lane)

def placed : Word := w.value <<< (8 * w.lane)

def merge (old : Word) : Word := (old &&& ~~~w.lanes) ||| w.placed

def into (f : Fields) (old : Word) : Word :=
  (w.merge old &&& ~~~(f.w1c ||| f.fixed)) |||
    ((old &&& ~~~w.placed) &&& (f.w1c &&& ~~~f.fixed)) ||| (old &&& f.fixed)

variable {i : ℕ} {old : Word}

lemma getLsbD_lanes (hi : i < 32) :
    w.lanes.getLsbD i = decide (8 * w.lane ≤ i ∧ i < 8 * (w.lane + w.width.bytes)) := by
  rw [lanes, getLsbD_shiftLeft]
  by_cases hlow : i < 8 * w.lane
  · simp [hlow, Nat.not_le.mpr hlow]
  rw [w.width.getLsbD_mask (by omega)]
  have hle : 8 * w.lane ≤ i := by omega
  simp only [hi, hlow, hle, decide_true, decide_false, Bool.not_false, Bool.true_and,
    true_and, decide_eq_decide]
  omega

lemma getLsbD_placed (hi : i < 32) :
    w.placed.getLsbD i = (decide (8 * w.lane ≤ i) && w.value.getLsbD (i - 8 * w.lane)) := by
  rw [placed, getLsbD_shiftLeft]
  simp only [hi, decide_true, Bool.true_and]
  congr 1
  rw [← decide_not]
  simp

lemma getLsbD_value_of_le {j : ℕ} (h : 8 * w.width.bytes ≤ j) : w.value.getLsbD j = false :=
  Nat.testBit_lt_two_pow (lt_of_lt_of_le w.fits (Nat.pow_le_pow_right (by decide) h))

lemma lanes_of_placed (h : w.placed.getLsbD i) : w.lanes.getLsbD i := by
  have hi : i < 32 := lt_of_getLsbD h
  rw [w.getLsbD_placed hi, Bool.and_eq_true, decide_eq_true_eq] at h
  rw [w.getLsbD_lanes hi, decide_eq_true_eq]
  refine ⟨h.1, ?_⟩
  by_contra hhigh
  have hzero : w.value.getLsbD (i - 8 * w.lane) = false := w.getLsbD_value_of_le (by omega)
  exact absurd h.2 (by rw [hzero]; decide)

lemma placed_and_lanes : w.placed &&& w.lanes = w.placed := by
  apply eq_of_getLsbD_eq
  intro i _
  rw [getLsbD_and]
  cases hplaced : w.placed.getLsbD i with
  | false => rfl
  | true => rw [w.lanes_of_placed hplaced]; rfl

lemma placed_of_not_lanes (h : w.lanes.getLsbD i = false) : w.placed.getLsbD i = false := by
  by_contra hplaced
  rw [Bool.not_eq_false] at hplaced
  exact absurd (w.lanes_of_placed hplaced) (by rw [h]; decide)

variable {w}

lemma placed_of_lane (h : w.lane = 0) : w.placed = w.value := by
  rw [placed, h]
  exact shiftLeft_zero _

lemma lane_of_word (h : w.width = .word) : w.lane = 0 := by
  have halign := w.aligned
  rwa [h] at halign

lemma lanes_of_word (h : w.width = .word) : w.lanes = 0xFFFFFFFF := by
  rw [lanes, lane_of_word h, h]
  rfl

lemma getLsbD_merge (old : Word) (hi : i < 32) : (w.merge old).getLsbD i =
      if w.lanes.getLsbD i then w.placed.getLsbD i else old.getLsbD i := by
  simp only [merge, getLsbD_or, getLsbD_and, getLsbD_not, hi, decide_true, Bool.true_and]
  cases hlanes : w.lanes.getLsbD i
  · simp [w.placed_of_not_lanes hlanes]
  · simp

lemma anyBit_merge {mask : Word} (h : w.lanes &&& mask = 0) (old : Word) :
    anyBit (w.merge old) mask = anyBit old mask := by
  have hand : w.merge old &&& mask = old &&& mask := by
    apply eq_of_getLsbD_eq
    intro i hi
    have hbit := congrArg (fun u => BitVec.getLsbD u i) h
    simp only [getLsbD_and, ofNat_eq_ofNat, getLsbD_zero] at hbit
    rw [getLsbD_and, getLsbD_and, getLsbD_merge old hi]
    cases hlanes : w.lanes.getLsbD i
    · rfl
    · rw [hlanes, Bool.true_and] at hbit
      rw [hbit, Bool.and_false, Bool.and_false]
  rw [anyBit, anyBit, hand]

lemma getLsbD_into (f : Fields) (old : Word) (hi : i < 32) : (w.into f old).getLsbD i =
      if w.lanes.getLsbD i then f.bit i (old.getLsbD i) (w.placed.getLsbD i)
      else old.getLsbD i := by
  simp only [into, getLsbD_or, getLsbD_and, getLsbD_not, hi, decide_true,
    Bool.true_and, getLsbD_merge old hi, bit]
  cases hlanes : w.lanes.getLsbD i
  · have hplaced := w.placed_of_not_lanes hlanes
    cases f.fixed.getLsbD i <;> cases f.w1c.getLsbD i <;> simp [hplaced]
  · cases f.fixed.getLsbD i <;> cases f.w1c.getLsbD i <;> simp

lemma into_plain (old : Word) : w.into .plain old = w.merge old := by
  apply eq_of_getLsbD_eq
  intro i hi
  rw [getLsbD_into _ _ hi, getLsbD_merge _ hi]
  simp [bit, plain]

lemma merge_eq_self (hplaced : w.placed = 0) (hold : old &&& w.lanes = 0) : w.merge old = old := by
  apply eq_of_getLsbD_eq
  intro i hi
  rw [getLsbD_merge _ hi, hplaced]
  split
  case isTrue hlanes =>
    have hboth := congrArg (fun v => BitVec.getLsbD v i) hold
    simp only [getLsbD_and, hlanes, Bool.and_true] at hboth
    rw [hboth]
  case isFalse => rfl

lemma into_eq_merge {f : Fields} (hw1c : f.w1c &&& w.lanes = 0)
    (hfixed : f.fixed &&& w.lanes = 0) (old : Word) : w.into f old = w.merge old := by
  apply eq_of_getLsbD_eq
  intro i hi
  rw [getLsbD_into _ _ hi, getLsbD_merge _ hi]
  split
  case isTrue hlanes =>
    have hbit : ∀ m : Word, m &&& w.lanes = 0 → m.getLsbD i = false := by
      intro m hm
      have hboth := congrArg (fun v => BitVec.getLsbD v i) hm
      simpa [hlanes] using hboth
    simp only [bit, hbit _ hw1c, hbit _ hfixed, Bool.false_eq_true, if_false]
  case isFalse => rfl

lemma mergeBytes_eq (old : Word) : mergeBytes old w.off w.width.bytes w.value = w.merge old := by
  have hmask : byteMask (w.off % 4) w.width.bytes = w.lanes := by
    unfold byteMask lanes lane
    rw [Nat.mul_comm (w.off % 4) 8]
    cases hwidth : w.width with
    | byte | half => rfl
    | word =>
      have hlane := lane_of_word hwidth
      rw [lane] at hlane
      rw [hlane]
      rfl
  have hplaced : w.placed &&& w.lanes = w.placed := by
    apply eq_of_getLsbD_eq
    intro i hi
    rw [getLsbD_and]
    cases hbit : w.placed.getLsbD i
    · rfl
    · simp [w.lanes_of_placed hbit]
  unfold mergeBytes
  rw [hmask, Nat.mul_comm]
  exact congrArg ((old &&& ~~~w.lanes) ||| ·) hplaced

lemma off_eq_iff {k : ℕ} : w.off = 4 * k ↔ w.idx = k ∧ w.lane = 0 := by
  unfold idx lane
  omega

lemma off_ne_of_mem {offs : List ℕ} (halign : ∀ off ∈ offs, off % 4 = 0)
    (h : w.lane ≠ 0 ∨ w.idx ∉ offs.map (· / 4)) : ∀ off ∈ offs, w.off ≠ off := by
  rintro off hmem rfl
  exact h.elim (fun hlane => hlane (halign _ hmem)) (fun hidx => hidx (List.mem_map_of_mem hmem))

lemma and_eq_zero_iff {x y : Word} : x &&& y = 0 ↔ ∀ i < 32, x.getLsbD i → y.getLsbD i = false := by
  constructor
  · intro h i _ hx
    have hbit := congrArg (fun v => BitVec.getLsbD v i) h
    simpa [hx] using hbit
  intro h
  apply eq_of_getLsbD_eq
  intro i hi
  cases hx : x.getLsbD i <;> simp_all

lemma value_eq_merge_iff (h : w.lane = 0) (old : Word) :
    w.value = w.merge old ↔ old &&& ~~~w.lanes = 0 := by
  rw [and_eq_zero_iff]
  constructor
  · intro heq i hi hold
    have hbit : w.value.getLsbD i = (w.merge old).getLsbD i := by rw [← heq]
    rw [getLsbD_merge old hi, placed_of_lane h] at hbit
    by_contra hout
    have hlanes : w.lanes.getLsbD i = false := by simpa [hi] using hout
    have hvalue := w.placed_of_not_lanes hlanes
    rw [placed_of_lane h] at hvalue
    simp [hlanes, hvalue, hold] at hbit
  intro hzero
  apply eq_of_getLsbD_eq
  intro i hi
  rw [getLsbD_merge old hi, placed_of_lane h]
  split
  · rfl
  rename_i hlanes
  have hlanes : w.lanes.getLsbD i = false := by simpa using hlanes
  have hvalue := w.placed_of_not_lanes hlanes
  rw [placed_of_lane h] at hvalue
  rw [hvalue]
  by_contra hold
  have hout := hzero i hi (by simpa using Ne.symm hold)
  simp only [getLsbD_not, hi, hlanes, decide_true, Bool.not_false, Bool.and_self,
    Bool.true_eq_false] at hout

lemma value_eq_merge_iff_inside (hlane : w.lane ≠ 0) (old : Word) :
    w.value = w.merge old ↔ w.value = 0 ∧ old &&& ~~~w.lanes = 0 := by
  -- a narrow value does not reach up to the bytes it is written to
  have hbytes : w.width.bytes ≤ w.lane ∧ w.lane + w.width.bytes ≤ 4 := by
    have halign := w.aligned
    unfold lane at *
    cases hwidth : w.width <;> rw [hwidth, Width.bytes] at halign <;>
      simp only [Width.bytes] <;> omega
  have hzero : w.value = w.merge old → w.value = 0 := by
    intro heq
    apply eq_of_getLsbD_eq
    intro j hj
    by_cases hlow : j < 8 * w.width.bytes
    · have hi : 8 * w.lane + j < 32 := by omega
      have hbit : w.value.getLsbD (8 * w.lane + j) = (w.merge old).getLsbD (8 * w.lane + j) := by
        rw [← heq]
      have hcovered : w.lanes.getLsbD (8 * w.lane + j) := by
        rw [w.getLsbD_lanes hi, decide_eq_true_eq]
        omega
      rw [getLsbD_merge _ hi, hcovered, w.getLsbD_placed hi, Nat.add_sub_cancel_left,
        w.getLsbD_value_of_le (by omega)] at hbit
      simpa using hbit.symm
    · rw [w.getLsbD_value_of_le (Nat.not_lt.mp hlow)]
      simp
  have hplaced : w.value = 0 → w.merge old = old &&& ~~~w.lanes := by
    intro h
    rw [merge, placed, h]
    simp
  constructor
  · intro heq
    have hvalue := hzero heq
    refine ⟨hvalue, ?_⟩
    rw [← hplaced hvalue, ← heq, hvalue]
  · rintro ⟨hvalue, hold⟩
    rw [hplaced hvalue, hold, hvalue]

lemma into_and_congr (w : RegWrite) {flags old' : Word} (h : old &&& flags = old' &&& flags) :
    w.into ⟨flags, ~~~flags⟩ old &&& flags = w.into ⟨flags, ~~~flags⟩ old' &&& flags := by
  apply eq_of_getLsbD_eq
  intro i hi
  have hbit := congrArg (fun v => BitVec.getLsbD v i) h
  simp only [getLsbD_and] at hbit ⊢
  rw [getLsbD_into _ _ hi, getLsbD_into _ _ hi]
  cases hflag : flags.getLsbD i
  · simp
  · rw [hflag, Bool.and_true, Bool.and_true] at hbit
    rw [hbit]

lemma clear_eq_into (h : w.lane = 0) (flags old : Word) :
    old &&& ~~~(w.value &&& flags) = w.into ⟨flags, ~~~flags⟩ old := by
  apply eq_of_getLsbD_eq
  intro i hi
  rw [getLsbD_into _ _ hi, ← placed_of_lane h]
  simp only [bit, getLsbD_and, getLsbD_not, hi, decide_true, Bool.true_and]
  cases hlanes : w.lanes.getLsbD i
  · simp [w.placed_of_not_lanes hlanes]
  · cases flags.getLsbD i <;> simp

lemma merge_eq_into_iff (flags old : Word) :
    w.merge old &&& flags = w.into ⟨flags, ~~~flags⟩ old &&& flags ↔
      w.placed &&& flags = 0 ∧ old &&& (w.lanes &&& flags) = 0 := by
  have hbits : w.merge old &&& flags = w.into ⟨flags, ~~~flags⟩ old &&& flags ↔
      ∀ i < 32, w.lanes.getLsbD i → flags.getLsbD i →
        w.placed.getLsbD i = false ∧ old.getLsbD i = false := by
    constructor
    · intro heq i hi hlanes hflag
      have hbit := congrArg (fun v => BitVec.getLsbD v i) heq
      simp only [getLsbD_and, getLsbD_merge old hi, getLsbD_into _ old hi, bit,
        hlanes, hflag, getLsbD_not, hi] at hbit
      revert hbit
      cases w.placed.getLsbD i <;> cases old.getLsbD i <;> simp
    intro h
    apply eq_of_getLsbD_eq
    intro i hi
    simp only [getLsbD_and, getLsbD_merge old hi, getLsbD_into _ old hi]
    cases hlanes : w.lanes.getLsbD i
    · simp
    cases hflag : flags.getLsbD i
    · simp
    · obtain ⟨hplaced, hold⟩ := h i hi hlanes hflag
      simp only [bit, getLsbD_not, hflag, hplaced, hold, Bool.false_and, ite_self]
  rw [hbits, and_eq_zero_iff, and_eq_zero_iff]
  constructor
  · intro h
    constructor
    · intro i hi hplaced
      by_contra hflag
      rw [Bool.not_eq_false] at hflag
      have hno := (h i hi (w.lanes_of_placed hplaced) hflag).1
      simp [hplaced] at hno
    intro i hi hold
    rw [getLsbD_and]
    by_contra hboth
    rw [Bool.not_eq_false, Bool.and_eq_true] at hboth
    have hno := (h i hi hboth.1 hboth.2).2
    simp [hold] at hno
  rintro ⟨hplaced, hold⟩ i hi hlanes hflag
  constructor
  · by_contra hset
    rw [Bool.not_eq_false] at hset
    simp [hplaced i hi hset] at hflag
  by_contra hset
  rw [Bool.not_eq_false] at hset
  have hboth := hold i hi hset
  simp [hlanes, hflag] at hboth

end RegWrite

structure Splits (w : RegWrite) (ws : List RegWrite) : Prop where
  whole : w.width = .word
  idx : ∀ p ∈ ws, p.idx = w.idx
  value : ∀ p ∈ ws, p.placed = w.value &&& p.lanes
  disjoint : ws.Pairwise fun p q => p.lanes &&& q.lanes = 0
  covers : ∀ i < 32, ∃ p ∈ ws, p.lanes.getLsbD i = true

lemma getLsbD_foldl_into_of_uncovered (f : Fields) (hi : i < 32)
    (h : ∀ p ∈ ws, p.lanes.getLsbD i = false) (old : Word) :
    (ws.foldl (fun old p => p.into f old) old).getLsbD i = old.getLsbD i := by
  induction ws generalizing old with
  | nil => rfl
  | cons p ws ih =>
    rw [List.foldl_cons, ih fun q hq => h q (List.mem_cons_of_mem _ hq),
      RegWrite.getLsbD_into _ _ hi, h p List.mem_cons_self]
    simp

lemma uncovered_of_disjoint {p : RegWrite} (hi : i < 32)
    (h : ∀ q ∈ ws, p.lanes &&& q.lanes = 0) (hp : p.lanes.getLsbD i) :
    ∀ q ∈ ws, q.lanes.getLsbD i = false :=
  fun q hq => RegWrite.and_eq_zero_iff.mp (h q hq) i hi hp

lemma getLsbD_foldl_into (f : Fields) {v : Word} (hi : i < 32)
    (hvalue : ∀ p ∈ ws, p.placed = v &&& p.lanes)
    (hdisj : ws.Pairwise fun p q => p.lanes &&& q.lanes = 0)
    (hcovered : ∃ p ∈ ws, p.lanes.getLsbD i) (old : Word) :
    (ws.foldl (fun old p => p.into f old) old).getLsbD i =
      f.bit i (old.getLsbD i) (v.getLsbD i) := by
  induction ws generalizing old with
  | nil =>
    obtain ⟨p, hp, -⟩ := hcovered
    exact absurd hp List.not_mem_nil
  | cons p ws ih =>
    obtain ⟨hhere, hrest⟩ := List.pairwise_cons.mp hdisj
    rw [List.foldl_cons]
    cases hp : p.lanes.getLsbD i with
    | true =>
      rw [getLsbD_foldl_into_of_uncovered f hi (uncovered_of_disjoint hi hhere hp),
        RegWrite.getLsbD_into _ _ hi, hp, hvalue p List.mem_cons_self]
      simp [hp]
    | false =>
      have hcovered' : ∃ q ∈ ws, q.lanes.getLsbD i = true := by
        obtain ⟨q, hq, hlanes⟩ := hcovered
        rcases List.mem_cons.mp hq with rfl | hq
        · exact absurd hlanes (by rw [hp]; decide)
        · exact ⟨q, hq, hlanes⟩
      rw [ih (fun q hq => hvalue q (List.mem_cons_of_mem _ hq)) hrest hcovered',
        RegWrite.getLsbD_into _ _ hi, hp]
      simp

lemma Splits.foldl_into {w : RegWrite} (h : Splits w ws) (f : Fields)
    (old : Word) : ws.foldl (fun old p => p.into f old) old = w.into f old := by
  apply BitVec.eq_of_getLsbD_eq
  intro i hi
  rw [getLsbD_foldl_into f hi h.value h.disjoint (h.covers i hi), RegWrite.getLsbD_into _ _ hi,
    RegWrite.lanes_of_word h.whole, RegWrite.placed_of_lane (RegWrite.lane_of_word h.whole)]
  have hall : (0xFFFFFFFF : Word).getLsbD i := by
    revert i
    decide
  simp only [hall, if_true]

structure Bank (σ : Type*) where
  /-- The words that hold configuration or flags. -/
  holds : ℕ → Prop
  commands : ℕ → Word
  fields : ℕ → Fields
  word : σ → ℕ → Word
  put : σ → ℕ → Word → σ

variable {σ τ : Type*}

namespace Bank

open List RegWrite

variable (b : Bank σ)

def Takes (w : RegWrite) : Prop := b.holds w.idx ∧ w.placed &&& b.commands w.idx = 0

def write (s : σ) (w : RegWrite) : σ := b.put s w.idx (w.into (b.fields w.idx) (b.word s w.idx))

def Between (old x new : Word) : Prop :=
  ∀ i < 32, x.getLsbD i = old.getLsbD i ∨ x.getLsbD i = new.getLsbD i

structure Lawful (view : σ → τ) : Prop where
  congr : ∀ s t w, b.holds w.idx → view s = view t → view (b.write s w) = view (b.write t w)
  word_put : ∀ s i x, b.holds i → b.word (b.put s i x) i = x
  put_put : ∀ s i x y, b.holds i → Between (b.word s i) x y →
    view (b.put (b.put s i x) i y) = view (b.put s i y)

variable {b}
variable {ws : List RegWrite} {s : σ}

lemma Lawful.run_write {view : σ → τ} (hb : b.Lawful view) {i : ℕ} (hi : b.holds i)
    (hne : ws ≠ []) (hidx : ∀ p ∈ ws, p.idx = i)
    (hdisj : ws.Pairwise fun p q => p.lanes &&& q.lanes = 0) (s : σ) : view (run b.write s ws) =
      view (b.put s i (ws.foldl (fun old p => p.into (b.fields i) old) (b.word s i))) := by
  induction ws generalizing s with
  | nil => exact absurd rfl hne
  | cons p ws ih =>
    obtain ⟨hhere, hrest⟩ := List.pairwise_cons.mp hdisj
    have hp := hidx p mem_cons_self
    have hwrite : b.write s p = b.put s i (p.into (b.fields i) (b.word s i)) := by rw [write, hp]
    rw [run_cons, foldl_cons, hwrite]
    by_cases hws : ws = []
    · rw [hws]
      rfl
    rw [ih hws (fun q hq => hidx q (mem_cons_of_mem _ hq)) hrest, hb.word_put _ _ _ hi]
    refine hb.put_put _ _ _ _ hi fun j hj => ?_
    cases hlanes : p.lanes.getLsbD j with
    | true =>
      exact .inr (getLsbD_foldl_into_of_uncovered _ hj
        (uncovered_of_disjoint hj hhere hlanes) _).symm
    | false =>
      left
      rw [getLsbD_into _ _ hj, hlanes]
      simp

lemma Takes.split {w : RegWrite} (h : b.Takes w) (hs : Splits w ws) : ∀ p ∈ ws, b.Takes p := by
  intro p hp
  have hcommands := h.2
  rw [placed_of_lane (lane_of_word hs.whole)] at hcommands
  refine ⟨hs.idx p hp ▸ h.1, ?_⟩
  rw [hs.value p hp, hs.idx p hp, BitVec.and_assoc, BitVec.and_comm p.lanes,
    ← BitVec.and_assoc, hcommands]
  simp

variable (b) (view : σ → τ) (device : σ → RegWrite → σ)

def Exact (s : σ) (w : RegWrite) : Prop := view (device s w) = view (b.write s w)

/-- In the state `s`, `safe` says for every write to configuration or flags whether the
device treats it as the bank does; pieces that are all safe add up to the word. -/
structure ExactWhen (safe : σ → RegWrite → Prop) (s : σ) : Prop where
  write : ∀ w, b.Takes w → (b.Exact view device s w ↔ safe s w)
  split : ∀ w ws, b.Takes w → Splits w ws → safe s w → Admits device safe s ws →
    view (run device s ws) = view (device s w)

variable {b view device} {safe : σ → RegWrite → Prop}

lemma Lawful.run_device (hb : b.Lawful view) {t : σ}
    (hws : ∀ p ∈ ws, b.holds p.idx) (hst : view s = view t)
    (h : Admits device (b.Exact view device) s ws) :
    view (run device s ws) = view (run b.write t ws) := by
  induction ws generalizing s t with
  | nil => exact hst
  | cons p ws ih =>
    refine ih (fun q hq => hws q (mem_cons_of_mem _ hq)) ?_ h.2
    exact h.1.trans (hb.congr s t p (hws p mem_cons_self) hst)

lemma admits_mono {ε : Type*} {step : σ → ε → σ} {guard guard' : σ → ε → Prop}
    {es : List ε} (hmono : ∀ s, ∀ e ∈ es, guard s e → guard' s e)
    (h : Admits step guard s es) : Admits step guard' s es := by
  induction es generalizing s with
  | nil => trivial
  | cons e es ih =>
    exact ⟨hmono s e mem_cons_self h.1, ih (fun s e he => hmono s e (mem_cons_of_mem _ he)) h.2⟩

lemma Lawful.exactWhen (hb : b.Lawful view)
    (hwrite : ∀ s w, b.Takes w → (b.Exact view device s w ↔ safe s w)) (s : σ) :
    b.ExactWhen view device safe s := by
  refine ⟨hwrite s, fun w ws htakes hsplits hsafe hadm => ?_⟩
  have hpieces := htakes.split hsplits
  have hne : ws ≠ [] := by
    rintro rfl
    obtain ⟨p, hp, -⟩ := hsplits.covers 0 (by decide)
    exact not_mem_nil hp
  have hexact := admits_mono (fun s p hp h => (hwrite s p (hpieces p hp)).mpr h) hadm
  calc view (run device s ws)
      = view (run b.write s ws) := hb.run_device (fun p hp => (hpieces p hp).1) rfl hexact
    _ = view (b.put s w.idx (ws.foldl (fun old p => p.into (b.fields w.idx) old)
          (b.word s w.idx))) := hb.run_write htakes.1 hne hsplits.idx hsplits.disjoint s
    _ = view (b.write s w) := by rw [hsplits.foldl_into]; rfl
    _ = view (device s w) := ((hwrite s w htakes).mpr hsafe).symm

end Bank

end BusAccesses
