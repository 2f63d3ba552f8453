import Mcxn947.StoreFootprints

/-!
# The PowerQuad coprocessor

`mcxn_powerquad.c`.
-/

namespace Mcxn947.Powerquad

open MachineWords GuestMemory StoreFootprints

def powerquadSize : ℕ := 0x1000

def rOutbase : ℕ := 0x00
def rOutformat : ℕ := 0x04
def rInabase : ℕ := 0x10
def rInaformat : ℕ := 0x14
def rInbbase : ℕ := 0x18
def rInbformat : ℕ := 0x1C
def rControl : ℕ := 0x100
def rLength : ℕ := 0x104
def rMisc : ℕ := 0x10C
def rErrstat : ℕ := 0x18C
def rIntren : ℕ := 0x190
def rIntrstat : ℕ := 0x198

def controlInstBusy : Word := 0x80000000
def intrstatIntrStat : Word := 1
def intrenIntrEn : Word := 1
def errstatMask : Word := 0x1F
def errstatBuserror : Word := 0x10

def ctrlOpcode (c : Word) : Word := c &&& 0xF
def ctrlMachine (c : Word) : Word := (c >>> 4) &&& 0x7
def cpMtx : Word := 1

def pqMtxScale : Word := 1
def pqMtxMult : Word := 2
def pqMtxAdd : Word := 3
def pqMtxSub : Word := 7
def pqVecDotp : Word := 9
def pqMtxTran : Word := 10

inductive PqType where
  | q15
  | q31
  | float
  deriving DecidableEq, Repr

def pqType (fmt : Word) : PqType :=
  if (fmt >>> 4) &&& 0x3 = 0 then .q15 else if (fmt >>> 4) &&& 0x3 = 1 then .q31 else .float

def PqType.size : PqType → ℕ
  | .q15 => 2
  | .q31 => 4
  | .float => 4

structure PowerquadState where
  regs : ℕ → Word
  irq : Bool

def PowerquadState.reg (s : PowerquadState) (off : ℕ) : Word := s.regs (off / 4)

def PowerquadState.setReg (s : PowerquadState) (off : ℕ) (v : Word) : PowerquadState :=
  { s with regs := Function.update s.regs (off / 4) v }

structure Doubles (D : Type) where
  ofInt : ℤ → D
  (add sub mul div : D → D → D)
  lrint : D → ℤ
  ofFloat : Word → D
  toFloat : D → Word

def lrintFloat (d : Float) : ℤ :=
  let lower := d.floor
  let n := lower.toInt64.toInt
  if d - lower < 0.5 then n else if 0.5 < d - lower then n + 1 else n + n % 2

def hostDoubles : Doubles Float where
  ofInt := Float.ofInt
  add := (· + ·)
  sub := (· - ·)
  mul := (· * ·)
  div := (· / ·)
  lrint := lrintFloat
  ofFloat w := (Float32.ofBits ⟨w⟩).toFloat
  toFloat d := d.toFloat32.toBits.toBitVec

variable {D : Type} (fp : Doubles D)

variable (len : Word) (m : Memory) (base : Word) (i : ℕ) (s : PowerquadState)

def elementAddr (type : PqType) : ℕ := (base + BitVec.ofNat 32 (i * type.size)).toNat

def pqLoad (type : PqType) : D :=
  let addr := elementAddr base i type
  match type with
  -- le16_to_cpu returns an unsigned half word: it is not sign-extended
  | .q15 => fp.div (fp.ofInt (m.bytes (addr + 1) ++ m.bytes addr).toNat) (fp.ofInt 32768)
  | .q31 => fp.div (fp.ofInt (load32 m.bytes addr).toInt) (fp.ofInt 2147483648)
  | .float => fp.ofFloat (load32 m.bytes addr)

def clamp (lo hi s : ℤ) : ℤ := if hi < s then hi else if s < lo then lo else s

def pqBytes (type : PqType) (d : D) : List Byte :=
  match type with
  | .q15 =>
    let s := (BitVec.ofInt 32 (fp.lrint (fp.mul d (fp.ofInt 32768)))).toInt
    (wordBytes (BitVec.ofInt 32 (clamp (-32768) 32767 s))).take 2
  | .q31 =>
    let s := (BitVec.ofInt 64 (fp.lrint (fp.mul d (fp.ofInt 2147483648)))).toInt
    wordBytes (BitVec.ofInt 32 (clamp (-2147483648) 2147483647 s))
  | .float => wordBytes (fp.toFloat d)

def pqStore (type : PqType) (d : D) : Memory :=
  m.storeBytes (elementAddr base i type) (pqBytes fp type d)

def rows : ℕ := (len &&& 0xFF).toNat
def cols : ℕ := ((len >>> 8) &&& 0xFF).toNat
def cols2 : ℕ := ((len >>> 16) &&& 0xFF).toNat

def mcxnPowerquadUpdateIrq : PowerquadState :=
  { s with irq := anyBit (s.reg rIntrstat) intrstatIntrStat && anyBit (s.reg rIntren) intrenIntrEn }

def mcxnPowerquadMatrix (m : Memory) (opcode : Word) : PowerquadState × Memory :=
  let outb := s.reg rOutbase
  let inab := s.reg rInabase
  let inbb := s.reg rInbbase
  let len := s.reg rLength
  let at' := pqType (s.reg rInaformat)
  let bt := pqType (s.reg rInbformat)
  let ot := pqType (s.reg rOutformat)
  let r1 := rows len
  let c1 := cols len
  let c2 := cols2 len
  if opcode = pqMtxMult then
    (s, (List.range r1).foldl (fun m i => (List.range c2).foldl (fun m j =>
      let acc := (List.range c1).foldl (fun acc k =>
        fp.add acc (fp.mul (pqLoad fp m inab (i * c1 + k) at') (pqLoad fp m inbb (k * c2 + j) bt)))
        (fp.ofInt 0)
      pqStore fp m outb (i * c2 + j) ot acc) m) m)
  else if opcode = pqMtxAdd ∨ opcode = pqMtxSub then
    (s, (List.range (r1 * c1)).foldl (fun m i =>
      let a := pqLoad fp m inab i at'
      let b := pqLoad fp m inbb i bt
      pqStore fp m outb i ot (if opcode = pqMtxAdd then fp.add a b else fp.sub a b)) m)
  else if opcode = pqMtxScale then
    let sf := fp.ofFloat (s.reg rMisc)
    (s, (List.range (r1 * c1)).foldl (fun m i =>
      pqStore fp m outb i ot (fp.mul (pqLoad fp m inab i at') sf)) m)
  else if opcode = pqMtxTran then
    (s, (List.range r1).foldl (fun m i => (List.range c1).foldl (fun m j =>
      pqStore fp m outb (j * r1 + i) ot (pqLoad fp m inab (i * c1 + j) at')) m) m)
  else if opcode = pqVecDotp then
    let n := min len.toNat 0x10000
    let acc := (List.range n).foldl (fun acc i =>
      fp.add acc (fp.mul (pqLoad fp m inab i at') (pqLoad fp m inbb i bt))) (fp.ofInt 0)
    (s, pqStore fp m outb 0 ot acc)
  else (s.setReg rErrstat (s.reg rErrstat ||| errstatBuserror), m)

def mcxnPowerquadRead (off : ℕ) : Word :=
  let v := if off < powerquadSize then s.reg off else 0
  if off = rControl then v &&& ~~~controlInstBusy else v

def mcxnPowerquadWrite (s : PowerquadState) (m : Memory) (off : ℕ) (v : Word) :
    PowerquadState × Memory :=
  if powerquadSize ≤ off then (s, m)
  else if off = rControl then
    let s := s.setReg off (v &&& ~~~controlInstBusy)
    let (s, m) := if ctrlMachine v = cpMtx then mcxnPowerquadMatrix fp s m (ctrlOpcode v)
      else (s, m)
    (mcxnPowerquadUpdateIrq (s.setReg rIntrstat (s.reg rIntrstat ||| intrstatIntrStat)), m)
  else if off = rErrstat then (s.setReg off (s.reg off &&& ~~~(v &&& errstatMask)), m)
  else if off = rIntren then (mcxnPowerquadUpdateIrq (s.setReg off v), m)
  else if off = rIntrstat then
    (mcxnPowerquadUpdateIrq (s.setReg off (s.reg off &&& ~~~(v &&& intrstatIntrStat))), m)
  else (s.setReg off v, m)

def mcxnPowerquadReset : PowerquadState := ⟨fun _ => 0, false⟩

def elements (type : PqType) (n : ℕ) : Set ℕ :=
  {a | ∃ i < n, Covers (elementAddr base i type) type.size a}

lemma length_pqBytes (type : PqType) (d : D) : (pqBytes fp type d).length = type.size := by
  cases type <;> rfl

lemma pqStore_stores (type : PqType) (d : D) :
    Stores {a | Covers (elementAddr base i type) type.size a} m (pqStore fp m base i type d) := by
  have h := m.storeBytes_stores (elementAddr base i type) (pqBytes fp type d)
  rwa [length_pqBytes] at h

variable {type : PqType}

lemma stores_vector {f : Memory → ℕ → Memory} {base : Word}
    (hturn : ∀ m i, Stores {a | Covers (elementAddr base i type) type.size a} m (f m i))
    (n : ℕ) (m : Memory) : Stores (elements base type n) m ((List.range n).foldl f m) :=
  (Stores.foldl hturn (List.range n) m).congr fun a => by simp [elements]

lemma stores_matrix {f : ℕ → Memory → ℕ → Memory} {base : Word} {n k : ℕ} (index : ℕ → ℕ → ℕ)
    (hturn : ∀ i m j,
      Stores {a | Covers (elementAddr base (index i j) type) type.size a} m (f i m j))
    (hindex : ∀ l, l < n * k ↔ ∃ i < n, ∃ j < k, index i j = l) (m : Memory) :
    Stores (elements base type (n * k)) m
      ((List.range n).foldl (fun m i => (List.range k).foldl (f i) m) m) := by
  refine (Stores.foldl (fun m i => Stores.foldl (hturn i) (List.range k) m)
    (List.range n) m).congr fun a => ?_
  simp only [elements, List.mem_range, Set.mem_ofPred_eq]
  constructor
  · rintro ⟨i, hi, j, hj, ha⟩
    exact ⟨index i j, (hindex _).mpr ⟨i, hi, j, hj, rfl⟩, ha⟩
  rintro ⟨l, hl, ha⟩
  obtain ⟨i, hi, j, hj, rfl⟩ := (hindex l).mp hl
  exact ⟨i, hi, j, hj, ha⟩

lemma rowMajor_index (n k l : ℕ) : l < n * k ↔ ∃ i < n, ∃ j < k, i * k + j = l := by
  constructor
  · intro hl
    have hk : 0 < k := Nat.pos_of_mul_pos_left (Nat.zero_lt_of_lt hl)
    refine ⟨l / k, Nat.div_lt_of_lt_mul (by rwa [Nat.mul_comm]), l % k, Nat.mod_lt l hk, ?_⟩
    rw [Nat.mul_comm]
    exact Nat.div_add_mod l k
  rintro ⟨i, hi, j, hj, rfl⟩
  calc i * k + j < i * k + k := Nat.add_lt_add_left hj _
    _ = (i + 1) * k := (Nat.succ_mul i k).symm
    _ ≤ n * k := Nat.mul_le_mul_right k hi

lemma columnMajor_index (n k l : ℕ) : l < n * k ↔ ∃ i < n, ∃ j < k, j * n + i = l := by
  rw [Nat.mul_comm, rowMajor_index]
  constructor
  · rintro ⟨j, hj, i, hi, h⟩
    exact ⟨i, hi, j, hj, h⟩
  · rintro ⟨i, hi, j, hj, h⟩
    exact ⟨j, hj, i, hi, h⟩

end Mcxn947.Powerquad
