import Mcxn947.GuestMemory

/-!
# A serial NOR flash

A byte array behind a chip select.
-/

namespace SpiNor

open MachineWords GuestMemory

inductive Kind
  | writeEnable
  | writeDisable
  | read
  | program
  | erase (unit : ℕ)
  | chipErase
  | other
  deriving DecidableEq

def kind (opcode : Byte) : Kind :=
  match opcode with
  | 0x06#8 => .writeEnable
  | 0x04#8 => .writeDisable
  | 0x03#8 => .read
  | 0x02#8 | 0x32#8 => .program
  | 0x20#8 => .erase 0x1000
  | 0x52#8 => .erase 0x8000
  | 0xD8#8 => .erase 0x10000
  | 0xC7#8 | 0x60#8 => .chipErase
  | _ => .other

structure Part where
  size : ℕ
  eraseStart : ℕ → ℕ → ℕ
  pages : 256 ∣ size
  size_pos : 0 < size
  addressable : size ≤ 2 ^ 24

inductive Phase
  | opcode
  | address (k : Kind) (got acc : ℕ)
  | program (addr : ℕ)
  | read (addr : ℕ)
  | rest

structure Nor where
  data : Mem
  (writeEnabled selected : Bool)
  phase : Phase

namespace Nor

def select (n : Nor) (on : Bool) : Nor :=
  if n.selected = on then n else { n with selected := on, phase := .opcode }

def decode (part : Part) (n : Nor) (opcode : Byte) : Nor :=
  match kind opcode with
  | .writeEnable => { n with writeEnabled := true, phase := .rest }
  | .writeDisable => { n with writeEnabled := false, phase := .rest }
  | .chipErase =>
    { n with
      data := if n.writeEnabled then fill n.data 0 part.size 0xFF else n.data, phase := .rest }
  | .other => { n with phase := .rest }
  | k => { n with phase := .address k 0 0 }

def execute (part : Part) (n : Nor) (k : Kind) (addr : ℕ) : Nor :=
  match k with
  | .read => { n with phase := .read addr }
  | .program => { n with phase := .program addr }
  | .erase unit =>
    let start := part.eraseStart (addr % part.size) unit
    { n with
      data := if n.writeEnabled then fill n.data start unit 0xFF else n.data, phase := .rest }
  | _ => { n with phase := .rest }

def transfer (part : Part) (n : Nor) (b : Byte) : Byte × Nor :=
  if n.selected then
    match n.phase with
    | .opcode => (0, n.decode part b)
    | .address k got acc =>
      let acc := acc * 256 + b.toNat
      (0, if got + 1 = 3 then n.execute part k acc
        else { n with phase := .address k (got + 1) acc })
    | .program addr =>
      let a := addr % part.size
      (0, { n with
        data := if n.writeEnabled then Function.update n.data a (n.data a &&& b)
          else n.data, phase := .program (addr + 1) })
    | .read addr => (n.data (addr % part.size), { n with phase := .read (addr + 1) })
    | .rest => (0, n)
  else (0, n)

def send (part : Part) (n : Nor) (bytes : List Byte) : Nor :=
  bytes.foldl (fun n b => (n.transfer part b).2) n

def receive (part : Part) : ℕ → Nor → List Byte × Nor
  | 0, n => ([], n)
  | count + 1, n =>
    let (b, n) := n.transfer part 0
    let (bytes, n) := receive part count n
    (b :: bytes, n)

variable {part : Part} {n : Nor}

lemma select_start (h : n.selected = false) :
    n.select true = { n with selected := true, phase := .opcode } := by
  simp [select, h]

@[simp] lemma select_data (on : Bool) : (n.select on).data = n.data := by
  unfold select
  split <;> rfl

@[simp] lemma select_selected (on : Bool) : (n.select on).selected = on := by
  unfold select
  split
  · assumption
  · rfl

@[simp] lemma send_nil : n.send part [] = n := rfl

@[simp] lemma send_cons (b : Byte) (bytes : List Byte) :
    n.send part (b :: bytes) = (n.transfer part b).2.send part bytes := rfl

lemma send_append (first second : List Byte) :
    n.send part (first ++ second) = (n.send part first).send part second := by
  simp [send]

lemma receive_eq_send (count : ℕ) :
    (receive part count n).2 = n.send part (List.replicate count 0) := by
  induction count generalizing n with
  | zero => rfl
  | succ count ih => exact ih

variable {addr : ℕ}

lemma send_command {op hi mid lo : Byte} (hsel : n.selected) (hphase : n.phase = .opcode)
    (hkind : kind op = .read ∨ kind op = .program ∨ ∃ unit, kind op = .erase unit)
    (haddr : (hi.toNat * 256 + mid.toNat) * 256 + lo.toNat = addr) :
    n.send part [op, hi, mid, lo] = n.execute part (kind op) addr := by
  have hdecode : n.decode part op = { n with phase := .address (kind op) 0 0 } := by
    rcases hkind with h | h | ⟨unit, h⟩ <;> simp [decode, h]
  subst haddr
  simp only [send_cons, send_nil, transfer, hsel, hphase, hdecode, if_true]
  rcases hkind with h | h | ⟨unit, h⟩ <;> simp [execute, h, hsel]

lemma receive_read (count : ℕ) (hsel : n.selected)
    (hphase : n.phase = .read addr) (hend : addr + count ≤ part.size) :
    (receive part count n).1 = load n.data addr count ∧ (receive part count n).2.data = n.data := by
  induction count generalizing n addr with
  | zero => exact ⟨rfl, rfl⟩
  | succ count ih =>
    have hmod : addr % part.size = addr := Nat.mod_eq_of_lt (by omega)
    have hstep : n.transfer part 0 = (n.data addr, { n with phase := .read (addr + 1) }) := by
      simp [transfer, hsel, hphase, hmod]
    obtain ⟨hbytes, hdata⟩ := ih (n := { n with phase := .read (addr + 1) }) hsel rfl (by omega)
    simp only [receive, hstep]
    refine ⟨?_, hdata⟩
    rw [hbytes, load_succ]

def Inert (n : Nor) : Prop :=
  match n.phase with
  | .rest | .read _ | .address .read _ _ => True
  | _ => False

structure Confined (part : Part) (n : Nor) (base : Mem) (lo hi budget : ℕ) : Prop where
  outside : ∀ a, ¬ (lo ≤ a ∧ a < hi) → n.data a = base a
  writes : n.Inert ∨ ∃ addr, n.phase = .program addr ∧ lo ≤ addr ∧
    addr + budget ≤ hi ∧ addr + budget ≤ part.size

variable (part) in
lemma Inert.transfer (h : n.Inert) (b : Byte) :
    (n.transfer part b).2.Inert ∧ (n.transfer part b).2.data = n.data := by
  cases hsel : n.selected with
  | false => simpa [Nor.transfer, hsel] using h
  | true =>
    cases hphase : n.phase with
    | opcode => simp [Inert, hphase] at h
    | program addr => simp [Inert, hphase] at h
    | read addr => simp [Nor.transfer, hsel, hphase, Inert]
    | rest => simp [Nor.transfer, hsel, hphase, Inert]
    | address k got acc =>
      have hk : k = .read := by
        cases k <;> simp_all [Inert]
      subst hk
      simp only [Nor.transfer, hsel, hphase, if_true]
      split <;> simp [execute, Inert]

variable {base : Mem} {lo hi budget : ℕ}

lemma Confined.transfer (h : Confined part n base lo hi (budget + 1)) (b : Byte) :
    Confined part (n.transfer part b).2 base lo hi budget := by
  rcases h.writes with hinert | ⟨addr, hphase, hlo, hhi, hsize⟩
  · obtain ⟨hinert', hdata⟩ := hinert.transfer part b
    exact ⟨fun a ha => by rw [hdata]; exact h.outside a ha, Or.inl hinert'⟩
  cases hsel : n.selected with
  | false =>
    refine ⟨?_, Or.inr ⟨addr, ?_, hlo, by omega, by omega⟩⟩ <;>
      simp only [Nor.transfer, hsel, Bool.false_eq_true, if_false]
    · exact h.outside
    · exact hphase
  | true =>
    have hmod : addr % part.size = addr := Nat.mod_eq_of_lt (by omega)
    refine ⟨?_, Or.inr ⟨addr + 1, ?_, by omega, by omega, by omega⟩⟩ <;>
      simp only [Nor.transfer, hsel, hphase, hmod, if_true]
    intro a ha
    split
    · rw [Function.update_of_ne (by omega)]
      exact h.outside a ha
    · exact h.outside a ha

lemma Confined.send {bytes : List Byte} (h : Confined part n base lo hi (budget + bytes.length)) :
    Confined part (n.send part bytes) base lo hi budget := by
  induction bytes generalizing n with
  | nil => exact h
  | cons b rest ih => exact ih (h.transfer b)

lemma Confined.le {fewer : ℕ} (h : Confined part n base lo hi budget) (hle : fewer ≤ budget) :
    Confined part n base lo hi fewer := by
  refine ⟨h.outside, h.writes.imp id ?_⟩
  rintro ⟨addr, hphase, hlo, hhi, hsize⟩
  exact ⟨addr, hphase, hlo, by omega, by omega⟩

lemma Confined.of_empty {lo' hi' budget' : ℕ} (h : Confined part n base lo lo (budget + 1)) :
    Confined part n base lo' hi' budget' := by
  refine ⟨fun a _ => h.outside a (by omega), Or.inl ?_⟩
  rcases h.writes with hinert | ⟨addr, -, hlo, hhi, -⟩
  · exact hinert
  · omega

lemma Confined.of_inert (h : n.Inert) (hdata : n.data = base) : Confined part n base lo hi budget :=
  ⟨fun _ _ => by rw [hdata], Or.inl h⟩

lemma send_program_same {count : ℕ} (hsel : n.selected)
    (hphase : n.phase = .program addr) (hend : addr + count ≤ part.size) :
    (n.send part (load n.data addr count)).data = n.data := by
  induction count generalizing n addr with
  | zero => rfl
  | succ count ih =>
    have hmod : addr % part.size = addr := Nat.mod_eq_of_lt (by omega)
    have hstep : (n.transfer part (n.data addr)).2 = { n with phase := .program (addr + 1) } := by
      simp [Nor.transfer, hsel, hphase, hmod]
    rw [load_succ, send_cons, hstep]
    exact ih (n := { n with phase := .program (addr + 1) }) hsel rfl (by omega)

end Nor

end SpiNor
