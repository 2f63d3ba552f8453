import Mcxn947.EventRuns
import Mcxn947.MachineWords

/-!
# The clock tree

`hw/misc/mcxn_scg.c` derives five source clocks from its registers, and
`hw/misc/mcxn_syscon.c` derives the clocks of the peripherals from these and its own
registers.
-/

namespace Mcxn947.ClockTree

open MachineWords EventRuns List BitVec Function Nat

abbrev Regs := ℕ → Word

inductive Source
  | fro12m
  | frohf
  | apll
  | spll
  | mainclk
deriving DecidableEq

abbrev SourceRates := Source → Word

def firccsrFircen : Word := 0x00000001
def firccfgRange : Word := 0x00000001
def sosccsrSoscen : Word := 0x00000001
def rosccsrRosccm : Word := 0x00010000
def sirccsrPeriphEn : Word := 0x00000020
def pllPwrClk : Word := 0x00000003
def pllctrlBypasspostdiv2 : Word := 0x00010000
def pllctrlBypassprediv : Word := 0x00080000
def pllctrlBypasspostdiv : Word := 0x00100000

def scgClk48mHz (r : Regs) : Word := if anyBit (r (0x300 / 4)) firccsrFircen then 48000000 else 0

def extClkHz (r : Regs) : Word := if anyBit (r (0x100 / 4)) sosccsrSoscen then 16000000 else 0

def osc32kHz (r : Regs) : Word := if anyBit (r (0x400 / 4)) rosccsrRosccm then 32768 else 0

structure PllRegs where
  (ctrl ndiv mdiv pdiv csr : ℕ)

def apllRegs : PllRegs := ⟨0x504, 0x50C, 0x510, 0x514, 0x500⟩
def spllRegs : PllRegs := ⟨0x604, 0x60C, 0x610, 0x614, 0x600⟩

def pllFin (r : Regs) (p : PllRegs) : Word :=
  match ((r (p.ctrl / 4) &&& 0x6000000) >>> 25).toNat with
  | 0 => extClkHz r
  | 1 => scgClk48mHz r
  | 2 => osc32kHz r
  | _ => 0

def pllN (r : Regs) (p : PllRegs) : Word :=
  let n := if anyBit (r (p.ctrl / 4)) pllctrlBypassprediv then 1 else r (p.ndiv / 4) &&& 0xFF
  if n = 0 then 1 else n

def pllPostdiv (r : Regs) (p : PllRegs) : Word :=
  let c := r (p.ctrl / 4)
  let postdiv :=
    if anyBit c pllctrlBypasspostdiv then 1
    else if anyBit c pllctrlBypasspostdiv2 then r (p.pdiv / 4) &&& 0x1F
    else 2 * (r (p.pdiv / 4) &&& 0x1F)
  if postdiv = 0 then 2 else postdiv

def pllM (r : Regs) (p : PllRegs) : Word := r (p.mdiv / 4) &&& 0xFFFF

def scgPllOut (r : Regs) (p : PllRegs) : Word :=
  if !anyBit (r (p.csr / 4)) pllPwrClk then 0
  else if pllFin r p = 0 then 0
  else
    ((pllFin r p / pllN r p).setWidth 64 * (pllM r p).setWidth 64 /
      (pllPostdiv r p).setWidth 64 : DoubleWord).setWidth 32

structure ScgState where
  regs : Regs
  out : SourceRates

def scgMainClkHz (s : ScgState) : Word :=
  match ((s.regs (0x014 / 4) &&& 0x0F000000) >>> 24).toNat with
  | 1 => extClkHz s.regs
  | 2 => s.out .fro12m
  | 3 => s.out .frohf
  | 4 => osc32kHz s.regs
  | 5 => scgPllOut s.regs apllRegs
  | 6 => scgPllOut s.regs spllRegs
  | _ => 0

def fro12mHz (r : Regs) : Word := if anyBit (r (0x200 / 4)) sirccsrPeriphEn then 12000000 else 0

def frohfHz (r : Regs) : Word :=
  if !anyBit (r (0x300 / 4)) firccsrFircen then 0
  else if anyBit (r (0x308 / 4)) firccfgRange then 144000000
  else 48000000

def clkdivHalt : Word := 0x40000000
def clkdivDivMask : Word := 0x000000FF

structure SysconRates where
  ostimerClk : Word
  ctimerClk : Fin 5 → Word
  sctClk : Word
  saiClk : Fin 2 → Word
  busclk : Word

def mcxnSysconPll1Div (r : Regs) (src : SourceRates) : Word :=
  src .spll / ((r (0x3E4 / 4) &&& clkdivDivMask) + 1)

def mcxnSysconCtimerSrc (r : Regs) (src : SourceRates) (n : Fin 5) : Word :=
  match (r (0x26C / 4 + n) &&& 0xF).toNat with
  | 0 => 1000000
  | 1 => src .apll
  | 2 => mcxnSysconPll1Div r src
  | 3 => src .frohf
  | 4 => src .fro12m
  | _ => 0

def sctSaiSrc (r : Regs) (src : SourceRates) (off : ℕ) : Word :=
  match (r (off / 4) &&& 0x7).toNat with
  | 1 => src .apll
  | 3 => src .frohf
  | 4 => mcxnSysconPll1Div r src
  | _ => 0

def mcxnSysconSctSrc (r : Regs) (src : SourceRates) : Word := sctSaiSrc r src 0x2F0

def mcxnSysconSaiSrc (r : Regs) (src : SourceRates) (n : Fin 2) : Word :=
  sctSaiSrc r src (if n = 0 then 0x880 else 0x884)

def divided (div hz : Word) : Word :=
  if anyBit div clkdivHalt then 0 else hz / ((div &&& clkdivDivMask) + 1)

def ostimerHz (r : Regs) : Word :=
  match (r (0x5E0 / 4) &&& 0x7).toNat with
  | 0 => 16000
  | 1 => 32768
  | 2 => 1000000
  | _ => 0

def sysconRates (r : Regs) (src : SourceRates) : SysconRates where
  ostimerClk := ostimerHz r
  ctimerClk := fun n => divided (r (0x3D0 / 4 + n)) (mcxnSysconCtimerSrc r src n)
  sctClk := divided (r (0x3B4 / 4)) (mcxnSysconSctSrc r src)
  saiClk := fun n =>
    divided (r ((if n = 0 then 0x888 else 0x88C) / 4)) (mcxnSysconSaiSrc r src n)
  busclk := src .mainclk / ((r (0x380 / 4) &&& clkdivDivMask) + 1)

structure SysconState where
  regs : Regs
  out : SysconRates

structure Clocks where
  scg : ScgState
  syscon : SysconState

def mcxnSysconUpdateClocks (x : Clocks) : Clocks :=
  { x with syscon.out := sysconRates x.syscon.regs x.scg.out }

def clockUpdateHz (x : Clocks) (src : Source) (hz : Word) : Clocks :=
  if x.scg.out src = hz then x
  else mcxnSysconUpdateClocks { x with scg.out := Function.update x.scg.out src hz }

def mcxnScgUpdateClocks (x : Clocks) : Clocks :=
  let x := clockUpdateHz x .fro12m (fro12mHz x.scg.regs)
  let x := clockUpdateHz x .frohf (frohfHz x.scg.regs)
  let x := clockUpdateHz x .apll (scgPllOut x.scg.regs apllRegs)
  let x := clockUpdateHz x .spll (scgPllOut x.scg.regs spllRegs)
  clockUpdateHz x .mainclk (scgMainClkHz x.scg)

def scgClockOffsets : List ℕ :=
  [0x200, 0x300, 0x308, 0x100, 0x400, 0x014, 0x500, 0x504, 0x50C, 0x510, 0x514, 0x528,
    0x600, 0x604, 0x60C, 0x610, 0x614, 0x628]

def mcxnScgWrite (x : Clocks) (off : ℕ) (value : Word) : Clocks :=
  if 0x1000 ≤ off then x
  else if off = 0x000 ∨ off = 0x004 ∨ off = 0x010 then x
  else
    let x := { x with scg.regs := Function.update x.scg.regs (off / 4) value }
    if off ∈ scgClockOffsets then mcxnScgUpdateClocks x else x

def regsOf (table : List (ℕ × Word)) : Regs :=
  table.foldl (fun r (off, val) => Function.update r (off / 4) val) fun _ => 0

def scgResetTable : List (ℕ × Word) :=
  [(0x014, 0x03000000), (0x200, 0x01000020), (0x300, 0x01000001), (0x50C, 0x00000001),
    (0x510, 0x00000001), (0x514, 0x00000001), (0x518, 0x00004F4C), (0x528, 0x80000000),
    (0x60C, 0x00000001), (0x610, 0x00000001), (0x614, 0x00000001), (0x618, 0x00004F4C),
    (0x628, 0x80000000), (0x800, 0x00000008)]

def mcxnScgReset (x : Clocks) : Clocks :=
  mcxnScgUpdateClocks { x with scg.regs := regsOf scgResetTable }

def InRange (off base count : ℕ) : Prop := base ≤ off ∧ off < base + 4 * count
deriving Decidable

def SysconClockOffset (off : ℕ) : Prop :=
  off ∈ [0x5E0, 0x2F0, 0x3B4, 0x3E4, 0x880, 0x884, 0x888, 0x88C, 0x380] ∨
    InRange off 0x26C 5 ∨ InRange off 0x3D0 5
deriving Decidable

def aliasWrite (x : Clocks) (base idx : ℕ) (f : Word → Word) : Clocks :=
  { x with syscon.regs :=
      Function.update x.syscon.regs (base / 4 + idx) (f (x.syscon.regs (base / 4 + idx))) }

def mcxnSysconWrite (x : Clocks) (off : ℕ) (v : Word) : Clocks :=
  if InRange off 0x120 4 then aliasWrite x 0x100 ((off - 0x120) / 4) (· ||| v)
  else if InRange off 0x140 4 then aliasWrite x 0x100 ((off - 0x140) / 4) (· &&& ~~~v)
  else if InRange off 0x220 4 then aliasWrite x 0x200 ((off - 0x220) / 4) (· ||| v)
  else if InRange off 0x240 4 then aliasWrite x 0x200 ((off - 0x240) / 4) (· &&& ~~~v)
  else if off = 0x800 ∨ off = 0x804 then x
  else
    let x := { x with syscon.regs := Function.update x.syscon.regs (off / 4) v }
    if SysconClockOffset off then mcxnSysconUpdateClocks x else x

def sysconResetTable : List (ℕ × Word) :=
  [(0x200, 0x00000603), (0x260, 0x00000007), (0x300, 0x40000000), (0x304, 0x40000000),
    (0x308, 0x40000000), (0x37C, 0x40000000), (0x384, 0x40000000), (0x388, 0x40000000),
    (0x398, 0x40000000), (0x3B4, 0x40000000), (0x3C4, 0x40000000), (0x3E4, 0x40000000),
    (0x3E8, 0x40000000), (0x400, 0x00020410), (0x490, 0x00000007), (0x494, 0x40000000),
    (0x498, 0x00000007), (0x49C, 0x40000000), (0x4A0, 0x00000007), (0x4A4, 0x40000000),
    (0x52C, 0x00000007), (0x530, 0x00000007), (0x534, 0x00000007), (0x538, 0x40000000),
    (0x53C, 0x40000000), (0x540, 0x40000000), (0x548, 0x0000000F), (0x54C, 0x40000000),
    (0x560, 0x00000007), (0x564, 0x40000000), (0x5A0, 0x00000007), (0x5A8, 0x00000007),
    (0x5AC, 0x40000000), (0x5B0, 0x00000007), (0x5B4, 0x40000000), (0x5B8, 0x00000007),
    (0x5BC, 0x40000000), (0x5D4, 0x00000001), (0x5D8, 0x00000003), (0x5DC, 0x40000000),
    (0x5E0, 0x00000003), (0x5F0, 0x00000007), (0x5F4, 0x40000000), (0x5F8, 0x00000007),
    (0x5FC, 0x40000000), (0x600, 0x00000007), (0x604, 0x40000000), (0x608, 0x00000007),
    (0x60C, 0x40000000), (0x610, 0x00000007), (0x614, 0x40000000), (0x618, 0x00000007),
    (0x61C, 0x40000000), (0x800, 0x00000028), (0x824, 0x00000031), (0x880, 0x00000007),
    (0x884, 0x00000007), (0x888, 0x40000000), (0x88C, 0x40000000), (0x890, 0x00000007),
    (0x894, 0x00000007), (0x898, 0x40000000), (0x89C, 0x40000000), (0xB30, 0x00000007),
    (0xB34, 0x00000007), (0xB38, 0x40000000), (0xB3C, 0x40000000), (0xB40, 0x40000000),
    (0xE04, 0x0000FFFF), (0xE44, 0x00000003)]

def ctimerResetTable : List (ℕ × Word) :=
  [(0x26C, 7), (0x270, 7), (0x274, 7), (0x278, 7), (0x27C, 7)]

def mcxnSysconReset (x : Clocks) : Clocks :=
  mcxnSysconUpdateClocks { x with syscon.regs := regsOf (sysconResetTable ++ ctimerResetTable) }

def machineReset (x : Clocks) : Clocks := mcxnSysconReset (mcxnScgReset x)

structure Snapshot where
  (scg syscon : Regs)

structure Machine where
  clocks : Clocks
  slot : Option Snapshot

inductive Event
  | scgWrite (off : ℕ) (value : Word)
  | sysconWrite (off : ℕ) (value : Word)
  | scgReset
  | sysconReset
  | save
  | load

/-- `load_snapshot` resets the machine first; the registers are then overwritten and no
clock is updated again. -/
def loadSnapshot (x : Clocks) (snap : Snapshot) : Clocks :=
  { machineReset x with scg.regs := snap.scg, syscon.regs := snap.syscon }

def Accepted (off : ℕ) : Prop := off % 4 = 0 ∧ off < 0x1000
deriving Decidable

def step (m : Machine) : Event → Machine
  | .scgWrite off value =>
    if Accepted off then { m with clocks := mcxnScgWrite m.clocks off value } else m
  | .sysconWrite off value =>
    if Accepted off then { m with clocks := mcxnSysconWrite m.clocks off value } else m
  | .scgReset => { m with clocks := mcxnScgReset m.clocks }
  | .sysconReset => { m with clocks := mcxnSysconReset m.clocks }
  | .save => { m with slot := some ⟨m.clocks.scg.regs, m.clocks.syscon.regs⟩ }
  | .load =>
    match m.slot with
    | none => m
    | some snap => { m with clocks := loadSnapshot m.clocks snap }

def created : Clocks where
  scg := ⟨fun _ => 0, fun _ => 0⟩
  syscon := ⟨fun _ => 0, ⟨0, fun _ => 0, 0, fun _ => 0, 0⟩⟩

def powerOn : Machine := ⟨machineReset created, none⟩

def pllExact (r : Regs) (p : PllRegs) : ℕ :=
  if anyBit (r (p.csr / 4)) pllPwrClk then
    (pllFin r p).toNat / (pllN r p).toNat * (pllM r p).toNat / (pllPostdiv r p).toNat
  else 0

def exactRate (r : Regs) : Source → ℕ
  | .fro12m => (fro12mHz r).toNat
  | .frohf => (frohfHz r).toNat
  | .apll => pllExact r apllRegs
  | .spll => pllExact r spllRegs
  | .mainclk =>
    match ((r (0x014 / 4) &&& 0x0F000000) >>> 24).toNat with
    | 1 => (extClkHz r).toNat
    | 2 => (fro12mHz r).toNat
    | 3 => (frohfHz r).toNat
    | 4 => (osc32kHz r).toNat
    | 5 => pllExact r apllRegs
    | 6 => pllExact r spllRegs
    | _ => 0

/-- The SYSCON outputs are those of its registers and of the SCG outputs. -/
def SysconFollows (x : Clocks) : Prop := x.syscon.out = sysconRates x.syscon.regs x.scg.out

/-- Every clock is its function of the registers, without loss. -/
structure Coherent (x : Clocks) : Prop where
  scg : ∀ src, (x.scg.out src).toNat = exactRate x.scg.regs src
  syscon : SysconFollows x

def PllFits (r : Regs) : Prop := pllExact r apllRegs < 2 ^ 32 ∧ pllExact r spllRegs < 2 ^ 32

/-- The events after which the clocks follow the registers: a write keeps the PLL rates
within 32 bits, and a snapshot to be loaded has the rates of the reset registers. -/
def Tracked (m : Machine) : Event → Prop
  | .scgWrite off value => PllFits (update m.clocks.scg.regs (off / 4) value)
  | .load => ∀ snap ∈ m.slot,
      let x := machineReset m.clocks
      exactRate snap.scg = exactRate x.scg.regs ∧
        sysconRates snap.syscon x.scg.out = sysconRates x.syscon.regs x.scg.out
  | _ => True

lemma toNat_setWidth_64 (v : Word) : (v.setWidth 64).toNat = v.toNat := by
  rw [toNat_setWidth]
  exact mod_eq_of_lt (v.isLt.trans (by decide))

lemma toNat_scgPllOut (r : Regs) (p : PllRegs) : (scgPllOut r p).toNat = pllExact r p % 2 ^ 32 := by
  unfold scgPllOut pllExact
  by_cases hpower : anyBit (r (p.csr / 4)) pllPwrClk = true
  · rw [if_neg (by simp [hpower]), if_pos hpower]
    by_cases hfin : pllFin r p = 0
    · simp [hfin]
    have hprod : (pllFin r p / pllN r p).toNat * (pllM r p).toNat < 2 ^ 64 := by
      calc (pllFin r p / pllN r p).toNat * (pllM r p).toNat
          < 2 ^ 32 * 2 ^ 32 := Nat.mul_lt_mul'' (BitVec.isLt _) (BitVec.isLt _)
        _ = 2 ^ 64 := by norm_num
    rw [if_neg hfin, toNat_setWidth, toNat_udiv, toNat_mul,
      toNat_setWidth_64, toNat_setWidth_64, toNat_setWidth_64, mod_eq_of_lt hprod, toNat_udiv]
  · rw [if_pos (by simpa using hpower), if_neg hpower]
    rfl

section Publish

variable (x : Clocks) (src : Source) (hz : Word)

@[simp] lemma clockUpdateHz_scgRegs : (clockUpdateHz x src hz).scg.regs = x.scg.regs := by
  unfold clockUpdateHz
  split <;> rfl

@[simp] lemma clockUpdateHz_out : (clockUpdateHz x src hz).scg.out = update x.scg.out src hz := by
  unfold clockUpdateHz
  split
  next hsame => rw [← hsame, update_eq_self]
  · rfl

variable {x}

lemma SysconFollows.clockUpdateHz (h : SysconFollows x) :
    SysconFollows (clockUpdateHz x src hz) := by
  unfold ClockTree.clockUpdateHz
  split
  · exact h
  · rfl

end Publish

@[simp] lemma updateClocks_scgRegs (x : Clocks) :
    (mcxnScgUpdateClocks x).scg.regs = x.scg.regs := by
  simp [mcxnScgUpdateClocks]

variable {x : Clocks}

lemma SysconFollows.scgPublished (h : SysconFollows x) : SysconFollows (mcxnScgUpdateClocks x) := by
  exact ((((h.clockUpdateHz _ _).clockUpdateHz _ _).clockUpdateHz _ _).clockUpdateHz _ _)
    |>.clockUpdateHz _ _

lemma toNat_scgPllOut_of_lt {r : Regs} {p : PllRegs} (h : pllExact r p < 2 ^ 32) :
    (scgPllOut r p).toNat = pllExact r p := by
  rw [toNat_scgPllOut, mod_eq_of_lt h]

lemma toNat_scgMainClkHz {s : ScgState} (hfits : PllFits s.regs)
    (hfro12m : s.out .fro12m = fro12mHz s.regs) (hfrohf : s.out .frohf = frohfHz s.regs) :
    (scgMainClkHz s).toNat = exactRate s.regs .mainclk := by
  simp only [scgMainClkHz, exactRate]
  split
  · rfl
  · rw [hfro12m]
  · rw [hfrohf]
  · rfl
  · exact toNat_scgPllOut_of_lt hfits.1
  · exact toNat_scgPllOut_of_lt hfits.2
  · rfl

lemma updateClocks_exact (hfits : PllFits x.scg.regs) (src : Source) :
    ((mcxnScgUpdateClocks x).scg.out src).toNat = exactRate x.scg.regs src := by
  cases src with
  | fro12m | frohf => simp [mcxnScgUpdateClocks, exactRate]
  | apll => simp [mcxnScgUpdateClocks, exactRate, toNat_scgPllOut_of_lt hfits.1]
  | spll => simp [mcxnScgUpdateClocks, exactRate, toNat_scgPllOut_of_lt hfits.2]
  | mainclk =>
    simp only [mcxnScgUpdateClocks, clockUpdateHz_out, update_self]
    rw [toNat_scgMainClkHz (by simpa using hfits) (by simp) (by simp)]
    simp

lemma Coherent.scgPublished (hfits : PllFits x.scg.regs)
    (h : SysconFollows x) : Coherent (mcxnScgUpdateClocks x) := by
  refine ⟨?_, h.scgPublished⟩
  rw [updateClocks_scgRegs]
  exact updateClocks_exact hfits

section Congr

variable {r r' : Regs}

lemma pllExact_congr {p : PllRegs} (hctrl : r (p.ctrl / 4) = r' (p.ctrl / 4))
    (hndiv : r (p.ndiv / 4) = r' (p.ndiv / 4)) (hmdiv : r (p.mdiv / 4) = r' (p.mdiv / 4))
    (hpdiv : r (p.pdiv / 4) = r' (p.pdiv / 4)) (hcsr : r (p.csr / 4) = r' (p.csr / 4))
    (hsosc : r (0x100 / 4) = r' (0x100 / 4)) (hfirc : r (0x300 / 4) = r' (0x300 / 4))
    (hrosc : r (0x400 / 4) = r' (0x400 / 4)) : pllExact r p = pllExact r' p := by
  unfold pllExact pllFin pllN pllM pllPostdiv extClkHz scgClk48mHz osc32kHz
  rw [hctrl, hndiv, hmdiv, hpdiv, hcsr, hsosc, hfirc, hrosc]

lemma exactRate_congr (h : ∀ off ∈ scgClockOffsets, r (off / 4) = r' (off / 4)) :
    exactRate r = exactRate r' := by
  simp only [scgClockOffsets, forall_mem_cons, not_mem_nil, false_implies,
    implies_true, and_true] at h
  obtain ⟨h200, h300, h308, h100, h400, h014, h500, h504, h50C, h510, h514, -,
    h600, h604, h60C, h610, h614, -⟩ := h
  have hfro12m : fro12mHz r = fro12mHz r' := by rw [fro12mHz, fro12mHz, h200]
  have hfrohf : frohfHz r = frohfHz r' := by rw [frohfHz, frohfHz, h300, h308]
  have hext : extClkHz r = extClkHz r' := by rw [extClkHz, extClkHz, h100]
  have hosc : osc32kHz r = osc32kHz r' := by rw [osc32kHz, osc32kHz, h400]
  have hapll : pllExact r apllRegs = pllExact r' apllRegs :=
    pllExact_congr h504 h50C h510 h514 h500 h100 h300 h400
  have hspll : pllExact r spllRegs = pllExact r' spllRegs :=
    pllExact_congr h604 h60C h610 h614 h600 h100 h300 h400
  funext src
  cases src with
  | fro12m => rw [exactRate, exactRate, hfro12m]
  | frohf => rw [exactRate, exactRate, hfrohf]
  | apll => rw [exactRate, exactRate, hapll]
  | spll => rw [exactRate, exactRate, hspll]
  | mainclk => rw [exactRate, exactRate, h014, hext, hfro12m, hfrohf, hosc, hapll, hspll]

lemma rates_congr (src : SourceRates)
    (h : ∀ off, off % 4 = 0 → SysconClockOffset off → r (off / 4) = r' (off / 4)) :
    sysconRates r src = sysconRates r' src := by
  have hsel : ∀ n : Fin 5, r (0x26C / 4 + n) = r' (0x26C / 4 + n) := by
    intro n
    have hn := h (0x26C + 4 * n) (by omega) (Or.inr (Or.inl ⟨by omega, by omega⟩))
    rwa [add_mul_div_left _ _ (by decide)] at hn
  have hdiv : ∀ n : Fin 5, r (0x3D0 / 4 + n) = r' (0x3D0 / 4 + n) := by
    intro n
    have hn := h (0x3D0 + 4 * n) (by omega) (Or.inr (Or.inr ⟨by omega, by omega⟩))
    rwa [add_mul_div_left _ _ (by decide)] at hn
  have hpll1 : mcxnSysconPll1Div r src = mcxnSysconPll1Div r' src := by
    rw [mcxnSysconPll1Div, mcxnSysconPll1Div, h 0x3E4 (by decide) (by decide)]
  have hmux : ∀ off, off % 4 = 0 → SysconClockOffset off →
      sctSaiSrc r src off = sctSaiSrc r' src off := by
    intro off halign hoff
    rw [sctSaiSrc, sctSaiSrc, h off halign hoff, hpll1]
  simp only [sysconRates, SysconRates.mk.injEq]
  refine ⟨?_, ?_, ?_, ?_, ?_⟩
  · rw [ostimerHz, ostimerHz, h 0x5E0 (by decide) (by decide)]
  · funext n
    rw [hdiv n, mcxnSysconCtimerSrc, mcxnSysconCtimerSrc, hsel n, hpll1]
  · rw [h 0x3B4 (by decide) (by decide), mcxnSysconSctSrc, mcxnSysconSctSrc,
      hmux 0x2F0 (by decide) (by decide)]
  · funext n
    rw [mcxnSysconSaiSrc, mcxnSysconSaiSrc]
    split
    · rw [h 0x888 (by decide) (by decide), hmux 0x880 (by decide) (by decide)]
    · rw [h 0x88C (by decide) (by decide), hmux 0x884 (by decide) (by decide)]
  · rw [h 0x380 (by decide) (by decide)]

end Congr

variable {off idx : ℕ} {v : Word}

lemma Coherent.scgWrite {value : Word} (h : Coherent x)
    (haccept : Accepted off) (hfits : PllFits (update x.scg.regs (off / 4) value)) :
    Coherent (mcxnScgWrite x off value) := by
  unfold mcxnScgWrite
  split
  · exact h
  split
  · exact h
  split
  · exact Coherent.scgPublished hfits h.syscon
  rename_i hoff
  refine ⟨?_, h.syscon⟩
  intro src
  rw [h.scg src]
  refine congrFun (exactRate_congr ?_) src
  intro k hk
  have hne : k / 4 ≠ off / 4 := by
    intro heq
    apply hoff
    have halign : ∀ j ∈ scgClockOffsets, j % 4 = 0 := by decide
    have hk4 := halign k hk
    have hoff4 := haccept.1
    have : k = off := by omega
    exact this ▸ hk
  exact (update_of_ne hne _ _).symm

lemma Coherent.sysconRegs (h : Coherent x)
    (hidx : ∀ off, off % 4 = 0 → SysconClockOffset off → off / 4 ≠ idx) :
    Coherent { x with syscon.regs := update x.syscon.regs idx v } := by
  refine ⟨h.scg, ?_⟩
  refine Eq.trans h.syscon (rates_congr _ ?_)
  intro off halign hoff
  exact (update_of_ne (hidx off halign hoff) _ _).symm

lemma Coherent.sysconUpdated (h : ∀ src, (x.scg.out src).toNat = exactRate x.scg.regs src) :
    Coherent (mcxnSysconUpdateClocks x) := ⟨h, rfl⟩

lemma SysconClockOffset.le (h : SysconClockOffset off) : 0x26C ≤ off := by
  obtain hmem | hsel | hdiv := h
  · simp only [mem_cons, not_mem_nil, or_false] at hmem
    omega
  · exact hsel.1
  · exact le_trans (by decide) hdiv.1

lemma Coherent.aliasWrite (h : Coherent x) {base lo : ℕ} (f : Word → Word)
    (hrange : InRange off lo 4) (hbase : base ≤ 0x200) :
    Coherent (aliasWrite x base ((off - lo) / 4) f) := by
  apply h.sysconRegs
  intro k _ hk
  have hle := hk.le
  have hlt := hrange.2
  omega

lemma Coherent.sysconWrite (h : Coherent x)
    (haccept : Accepted off) : Coherent (mcxnSysconWrite x off v) := by
  unfold mcxnSysconWrite
  split
  · exact h.aliasWrite _ ‹_› (by decide)
  split
  · exact h.aliasWrite _ ‹_› (by decide)
  split
  · exact h.aliasWrite _ ‹_› (by decide)
  split
  · exact h.aliasWrite _ ‹_› (by decide)
  split
  · exact h
  split
  · exact Coherent.sysconUpdated h.scg
  rename_i hoff
  apply h.sysconRegs
  intro k hk4 hk heq
  have hoff4 := haccept.1
  have : k = off := by omega
  exact hoff (this ▸ hk)

lemma pllFits_reset : PllFits (regsOf scgResetTable) := by
  constructor <;> decide +kernel

lemma Coherent.scgReset (h : Coherent x) : Coherent (mcxnScgReset x) := by
  refine Coherent.scgPublished ?_ ?_
  · exact pllFits_reset
  · exact h.syscon

lemma Coherent.sysconReset (h : ∀ src, (x.scg.out src).toNat = exactRate x.scg.regs src) :
    Coherent (mcxnSysconReset x) := by
  refine Coherent.sysconUpdated ?_
  exact h

lemma coherent_machineReset (x : Clocks) : Coherent (machineReset x) := by
  apply Coherent.sysconReset
  intro src
  rw [mcxnScgReset, updateClocks_scgRegs]
  exact updateClocks_exact pllFits_reset src

lemma Coherent.load {snap : Snapshot} (h : Coherent x)
    (hscg : exactRate snap.scg = exactRate x.scg.regs)
    (hsyscon : sysconRates snap.syscon x.scg.out = sysconRates x.syscon.regs x.scg.out) :
    Coherent { x with scg.regs := snap.scg, syscon.regs := snap.syscon } := by
  refine ⟨?_, Eq.trans h.syscon hsyscon.symm⟩
  intro src
  exact (h.scg src).trans (congrFun hscg src).symm

lemma Coherent.step {m : Machine} {event : Event} (h : Coherent m.clocks)
    (htracked : Tracked m event) : Coherent (step m event).clocks := by
  cases event with
  | scgWrite off value =>
    rw [ClockTree.step]
    split
    · exact h.scgWrite ‹_› htracked
    · exact h
  | sysconWrite off value =>
    rw [ClockTree.step]
    split
    · exact h.sysconWrite ‹_›
    · exact h
  | scgReset =>
    rw [ClockTree.step]
    dsimp only
    exact h.scgReset
  | sysconReset =>
    rw [ClockTree.step]
    exact Coherent.sysconReset h.scg
  | save => exact h
  | load =>
    rw [ClockTree.step]
    split
    · exact h
    rename_i snap hslot
    obtain ⟨hscg, hsyscon⟩ := htracked snap hslot
    exact (coherent_machineReset m.clocks).load hscg hsyscon

/-- In every run of register writes, device resets and snapshots whose steps are all
tracked, every clock equals its function of the registers. -/
theorem clock_tree_coherent {events : List Event}
    (h : Admits step Tracked powerOn events) : Coherent (run step powerOn events).clocks :=
  run_invariant_of_admits (P := fun m => Coherent m.clocks)
    (fun _ _ htracked hcoherent => hcoherent.step htracked) (coherent_machineReset created) h

theorem clock_tree_coherent_pll0 : Coherent (run step powerOn
      [.scgWrite 0x504 0x02000000, .scgWrite 0x50C 8, .scgWrite 0x510 50, .scgWrite 0x514 1,
        .scgWrite 0x500 3, .scgWrite 0x014 0x05000000, .sysconWrite 0x380 1]).clocks := by
  apply clock_tree_coherent
  refine ⟨?_, ?_, ?_, ?_, ?_, ?_, trivial, trivial⟩
  all_goals constructor <;> decide +kernel

theorem clock_tree_stale :
    ¬ Coherent (run step powerOn [.scgWrite 0x014 0x02000000, .save, .load]).clocks ∧
    ¬ Coherent (run step powerOn
      [.scgWrite 0x504 0x02100000, .scgWrite 0x510 0xFFFF, .scgWrite 0x500 3]).clocks := by
  constructor
  · intro h
    have hmain := h.scg .mainclk
    revert hmain
    decide +kernel
  intro h
  have hapll := h.scg .apll
  revert hapll
  decide +kernel

end Mcxn947.ClockTree
