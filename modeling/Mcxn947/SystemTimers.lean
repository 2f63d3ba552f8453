import Mcxn947.MachineWords

/-!
# The OS event timer, the multi-rate timer and the low-power timer

`hw/timer/mcxn_ostimer.c`, `mcxn_mrt.c` and `mcxn_lptmr.c`.
-/

namespace Mcxn947.Ostimer

open MachineWords

structure OstimerState where
  clkHz : Word
  baseCount : DoubleWord
  baseNs : ℤ
  matchVal : DoubleWord
  (matchGrayL matchGrayH ctrl captureL captureH : Word)
  timer : Option ℤ
  irq : Bool

def ctrlIntrflag : Word := 0x00000001
def ctrlIntena : Word := 0x00000002

def binToGray (n : DoubleWord) : DoubleWord := n ^^^ (n >>> 1)

def grayLoop : ℕ → DoubleWord → DoubleWord → DoubleWord
  | 0, _, b => b
  | fuel + 1, g, b => if g >>> 1 = 0 then b else grayLoop fuel (g >>> 1) (b ^^^ (g >>> 1))

def grayToBin (g : DoubleWord) : DoubleWord := grayLoop 64 g g

variable (s : OstimerState) (now : ℤ)

def ostimerCount : DoubleWord :=
  let elapsed : DoubleWord := if s.baseNs < now then BitVec.ofInt 64 (now - s.baseNs) else 0
  s.baseCount + elapsed * s.clkHz.setWidth 64 / 1000000000

def ostimerUpdateIrq : OstimerState :=
  { s with irq := anyBit s.ctrl ctrlIntrflag && anyBit s.ctrl ctrlIntena }

def ostimerReschedule (s : OstimerState) (now : ℤ) : Option OstimerState :=
  let cur := ostimerCount s now
  if !anyBit s.ctrl ctrlIntena ∨ s.matchVal ≤ cur then some { s with timer := none }
  else do
    let ns ← udiv? ((s.matchVal - cur) * 1000000000) (s.clkHz.setWidth 64)
    some { s with timer := some (now + ns.toInt) }

def ostimerTick : OstimerState :=
  ostimerUpdateIrq { s with timer := none, ctrl := s.ctrl ||| ctrlIntrflag }

def mcxnOstimerRead (off : ℕ) (now : ℤ) : DoubleWord :=
  if off = 0x00 then binToGray (ostimerCount s now) &&& 0xFFFFFFFF
  else if off = 0x04 then (binToGray (ostimerCount s now) >>> 32) &&& 0x3FF
  else if off = 0x08 then s.captureL.setWidth 64
  else if off = 0x0C then s.captureH.setWidth 64
  else if off = 0x10 then binToGray s.matchVal &&& 0xFFFFFFFF
  else if off = 0x14 then (binToGray s.matchVal >>> 32) &&& 0x3FF
  else if off = 0x1C then s.ctrl.setWidth 64
  else 0

def matchOf (grayH grayL : Word) : DoubleWord := grayToBin (grayH ++ grayL)

def writeArming (off : ℕ) (v : Word) : Option OstimerState :=
  if off = 0x10 then some { s with matchGrayL := v, matchVal := matchOf s.matchGrayH v }
  else if off = 0x14 then
    let h := v &&& 0x3FF
    some { s with matchGrayH := h, matchVal := matchOf h s.matchGrayL }
  else if off = 0x1C then
    let ctrl := if anyBit v ctrlIntrflag then s.ctrl &&& ~~~ctrlIntrflag else s.ctrl
    some (ostimerUpdateIrq { s with ctrl := (ctrl &&& ctrlIntrflag) ||| (v &&& ctrlIntena) })
  else none

def mcxnOstimerWrite (off : ℕ) (v : Word) (now : ℤ) : Option OstimerState :=
  match writeArming s off v with
  | some s => ostimerReschedule s now
  | none => some s

def mcxnOstimerReset : OstimerState :=
  { s with
    timer := none, baseCount := 0, baseNs := now, matchGrayL := 0xFFFFFFFF,
    matchGrayH := 0x3FF, matchVal := matchOf 0x3FF 0xFFFFFFFF, ctrl := 0, captureL := 0,
    captureH := 0 }

inductive Event
  | clock (hz : Word)
  | read (off : ℕ) (now : ℤ)
  | write (off : ℕ) (v : Word) (now : ℤ)
  | tick
  | reset (now : ℤ)

def step : Event → Option OstimerState
  | .clock hz => some { s with clkHz := hz }
  | .read _ _ => some s
  | .write off v now => mcxnOstimerWrite s off v now
  | .tick => some (ostimerTick s)
  | .reset now => some (mcxnOstimerReset s now)

end Mcxn947.Ostimer

namespace Mcxn947.Mrt

open MachineWords Function

abbrev Channel := Fin 4

structure MrtState where
  clkHz : Word
  (intval ctrl stat load : Channel → Word)
  baseNs : Channel → ℤ
  timer : Option ℤ
  irq : Bool

def intvalLoad : Word := 0x80000000
def intvalIvalue : Word := 0x7FFFFFFF
def ctrlInten : Word := 0x00000001
def ctrlMode : Word := 0x00000006
def statIntflag : Word := 0x00000001
def statRun : Word := 0x00000002

variable (now : ℤ) (s : MrtState) (n : Channel)

def running : Bool := anyBit (s.stat n) statRun

def mrtPeek (now : ℤ) : Word :=
  if !running s n ∨ now ≤ s.baseNs n then s.load n
  else
    let elapsed : DoubleWord := BitVec.ofInt 64 (now - s.baseNs n)
    let counts := elapsed * s.clkHz.setWidth 64 / 1000000000
    if (s.load n).setWidth 64 ≤ counts then 0 else s.load n - counts.setWidth 32

def mrtUpdateIrq : MrtState :=
  { s with irq := (List.finRange 4).any fun n =>
      anyBit (s.stat n) statIntflag && anyBit (s.ctrl n) ctrlInten }

def nearerChannel (s : MrtState) (now : ℤ) (best : DoubleWord) (n : Channel) :
    Option DoubleWord :=
  if !running s n then some best
  else do
    let ns ← udiv? ((mrtPeek s n now).setWidth 64 * 1000000000) (s.clkHz.setWidth 64)
    some (if ns < best then ns else best)

def mrtReschedule (s : MrtState) (now : ℤ) : Option MrtState := do
  let best ← (List.finRange 4).foldlM (nearerChannel s now) (BitVec.allOnes 64)
  let delay := if best = 0 then 1 else best
  let timer := if best = BitVec.allOnes 64 then none else some (now + delay.toInt)
  some { s with timer := timer }

def expireChannel : MrtState :=
  if !running s n then s
  else if mrtPeek s n now ≠ 0 then s
  else
    let stat := s.stat n ||| statIntflag
    if (s.ctrl n &&& ctrlMode) >>> 1 = 0 ∧ s.intval n ≠ 0 then
      { s with
        stat := update s.stat n stat, load := update s.load n (s.intval n &&& intvalIvalue),
        baseNs := update s.baseNs n now }
    else
      { s with
        stat := update s.stat n (stat &&& ~~~statRun), load := update s.load n 0 }

def mrtTick (s : MrtState) (now : ℤ) : Option MrtState :=
  let s := (List.finRange 4).foldl (expireChannel now) { s with timer := none }
  mrtReschedule (mrtUpdateIrq s) now

def idleChannel : ℕ :=
  match (List.finRange 4).find? fun n => !running s n with
  | some n => n.val
  | none => 0

def irqFlags : Word :=
  (List.finRange 4).foldl (fun f n =>
    if anyBit (s.stat n) statIntflag then f ||| 1 <<< n.val else f) 0

def mrtRead (off : ℕ) (now : ℤ) : Word :=
  if h : off < 0x40 then
    let n : Channel := ⟨off / 0x10, by omega⟩
    match off % 0x10 with
    | 0x0 => s.intval n &&& intvalIvalue
    | 0x4 => mrtPeek s n now
    | 0x8 => s.ctrl n
    | 0xC => s.stat n
    | _ => 0
  else if off = 0xF4 then BitVec.ofNat 32 (idleChannel s * 16)
  else if off = 0xF8 then irqFlags s
  else 0

def loadInterval (s : MrtState) (n : Channel) (v : Word) (now : ℤ) : MrtState :=
  let s := { s with intval := update s.intval n v }
  if anyBit v intvalLoad ∨ running s n = false then
    let load := v &&& intvalIvalue
    let stat := if load ≠ 0 then s.stat n ||| statRun else s.stat n &&& ~~~statRun
    { s with
      load := update s.load n load, baseNs := update s.baseNs n now, stat := update s.stat n stat }
  else s

def mrtWrite (off : ℕ) (v : Word) (now : ℤ) : Option MrtState :=
  if h : off < 0x40 then
    let n : Channel := ⟨off / 0x10, by omega⟩
    match off % 0x10 with
    | 0x0 => mrtReschedule (loadInterval s n v now) now
    | 0x8 => some (mrtUpdateIrq { s with ctrl := update s.ctrl n (v &&& 0x7) })
    | 0xC =>
      let stat := if anyBit v statIntflag then s.stat n &&& ~~~statIntflag else s.stat n
      some (mrtUpdateIrq { s with stat := update s.stat n stat })
    | _ => some s
  else some s

def mcxnMrtReset : MrtState :=
  { s with
    timer := none, intval := fun _ => 0, ctrl := fun _ => 0, stat := fun _ => 0,
    load := fun _ => 0, baseNs := fun _ => 0 }

inductive Event
  | clock (hz : Word)
  | read (off : ℕ) (now : ℤ)
  | write (off : ℕ) (v : Word) (now : ℤ)
  | tick (now : ℤ)
  | reset

def step : Event → Option MrtState
  | .clock hz => some { s with clkHz := hz }
  | .read _ _ => some s
  | .write off v now => mrtWrite s off v now
  | .tick now => mrtTick s now
  | .reset => some (mcxnMrtReset s)

end Mcxn947.Mrt

namespace Mcxn947.Lptmr

open MachineWords

structure LptmrState where
  (clkHz csr psr cmr cnr : Word)
  baseNs : ℤ
  timer : Option ℤ
  irq : Bool
  triggerPulses : ℕ

def csrTen : Word := 0x00000001
def csrTfc : Word := 0x00000004
def csrTie : Word := 0x00000040
def csrTcf : Word := 0x00000080
def psrPbyp : Word := 0x00000004

variable (s : LptmrState)

def lptmrDivider : Word := if anyBit s.psr psrPbyp then 1 else 1 <<< (s.psr.toNat / 8 % 16 + 1)

def lptmrSourceHz : Word :=
  match s.psr.toNat % 4 with
  | 0 => s.clkHz
  | 1 => 16000
  | 2 => 32768
  | _ => 0

def lptmrFreq : Option Word := udiv? (lptmrSourceHz s) (lptmrDivider s)

def lptmrPeek (s : LptmrState) (now : ℤ) : Option Word :=
  if !anyBit s.csr csrTen ∨ now ≤ s.baseNs then some s.cnr
  else do
    let freq ← lptmrFreq s
    let elapsed : DoubleWord := BitVec.ofInt 64 (now - s.baseNs)
    let counts := elapsed * freq.setWidth 64 / 1000000000
    some ((s.cnr.setWidth 64 + counts).setWidth 32 &&& 0xFFFF)

def lptmrUpdateIrq : LptmrState := { s with irq := anyBit s.csr csrTcf && anyBit s.csr csrTie }

def lptmrReschedule (s : LptmrState) (now : ℤ) : Option LptmrState :=
  if !anyBit s.csr csrTen then some { s with timer := none }
  else do
    let freq ← lptmrFreq s
    if freq = 0 then some { s with timer := none }
    else do
      let cur ← lptmrPeek s now
      let remain : Word := if cur ≤ s.cmr then s.cmr - cur + 1 else 1
      let ns ← udiv? (remain.setWidth 64 * 1000000000) (freq.setWidth 64)
      some { s with timer := some (now + ns.toInt) }

def lptmrTick (s : LptmrState) (now : ℤ) : Option LptmrState := do
  let s := { s with timer := none, csr := s.csr ||| csrTcf }
  let cnr ← if anyBit s.csr csrTfc then lptmrPeek s now else some 0
  let s := lptmrUpdateIrq { s with cnr := cnr, baseNs := now }
  lptmrReschedule { s with triggerPulses := s.triggerPulses + 1 } now

def lptmrRead (off : ℕ) (now : ℤ) : Option Word :=
  if off = 0x0 then some s.csr
  else if off = 0x4 then some s.psr
  else if off = 0x8 then some s.cmr
  else if off = 0xC then lptmrPeek s now
  else some 0

def writeCsr (s : LptmrState) (v : Word) (now : ℤ) : LptmrState :=
  let wasEn := anyBit s.csr csrTen
  let csr := if anyBit v csrTcf then s.csr &&& ~~~csrTcf else s.csr
  let s := { s with csr := (csr &&& csrTcf) ||| (v &&& ~~~csrTcf) }
  let s := if anyBit s.csr csrTen ∧ wasEn = false then { s with cnr := 0, baseNs := now } else s
  lptmrUpdateIrq (if anyBit s.csr csrTen then s else { s with cnr := 0 })

def lptmrWrite (off : ℕ) (v : Word) (now : ℤ) : Option LptmrState :=
  if off = 0x0 then lptmrReschedule (writeCsr s v now) now
  else if off = 0x4 then lptmrReschedule { s with psr := v } now
  else if off = 0x8 then lptmrReschedule { s with cmr := v &&& 0xFFFF } now
  else some s

def mcxnLptmrReset : LptmrState :=
  { s with timer := none, csr := 0, psr := 0, cmr := 0, cnr := 0, baseNs := 0 }

inductive Event
  | clock (hz : Word)
  | read (off : ℕ) (now : ℤ)
  | write (off : ℕ) (v : Word) (now : ℤ)
  | tick (now : ℤ)
  | reset

def step : Event → Option LptmrState
  | .clock hz => some { s with clkHz := hz }
  | .read off now => (lptmrRead s off now).map fun _ => s
  | .write off v now => lptmrWrite s off v now
  | .tick now => lptmrTick s now
  | .reset => some (mcxnLptmrReset s)

end Mcxn947.Lptmr
