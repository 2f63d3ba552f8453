import Mcxn947.MachineWords

/-!
# The standard counter/timer

`hw/timer/mcxn_ctimer.c`: a prescaled counter with four match registers and one
capture input.
-/

namespace Mcxn947.Ctimer

open MachineWords Function

abbrev Match := Fin 4

structure CtimerState where
  (clkHz ir tcr pr mcr : Word)
  mr : Match → Word
  (ccr emr ctcr pwmc : Word)
  (cr msr : Match → Word)
  (tc pc : Word)
  baseNs : ℤ
  cap0Level : Bool
  timer : Option ℤ
  irq : Bool
  dmaPulses : Fin 2 → ℕ
  trigPulses : Match → ℕ

def tcrCen : Word := 0x00000001
def tcrCrst : Word := 0x00000002
def ccrCap0re : Word := 0x00000001
def ccrCap0fe : Word := 0x00000002
def ccrCap0i : Word := 0x00000004
def irCr0int : Word := 0x00000010

variable (s : CtimerState) (n : Match)

def mcrInt : Word := 1 <<< (3 * n.val)
def mcrRst : Word := 1 <<< (3 * n.val + 1)
def mcrStop : Word := 1 <<< (3 * n.val + 2)
def mcrAny : Word := mcrInt n ||| mcrRst n ||| mcrStop n

def ctimerRunning : Bool := anyBit s.tcr tcrCen && !anyBit s.tcr tcrCrst

def ctimerPeek (s : CtimerState) (now : ℤ) : Option (Word × Word) :=
  if !ctimerRunning s ∨ now ≤ s.baseNs then some (s.tc, s.pc)
  else do
    let div : DoubleWord := (s.pr + 1).setWidth 64
    let elapsed : DoubleWord := BitVec.ofInt 64 (now - s.baseNs)
    let pclk := elapsed * s.clkHz.setWidth 64 / 1000000000
    let total := s.pc.setWidth 64 + pclk
    let quotient ← udiv? total div
    let remainder ← umod? total div
    some (s.tc + quotient.setWidth 32, remainder.setWidth 32)

def ctimerSync (now : ℤ) : Option CtimerState := do
  let (tc, pc) ← ctimerPeek s now
  some { s with tc := tc, pc := pc, baseNs := now }

def ctimerUpdateIrq : CtimerState := { s with irq := s.ir != 0 }

def matchDistance : DoubleWord :=
  if s.tc ≤ s.mr n then (s.mr n - s.tc).setWidth 64
  else 0x100000000 - s.tc.setWidth 64 + (s.mr n).setWidth 64

def nearerMatch (s : CtimerState) (best : DoubleWord) (n : Match) : Option DoubleWord :=
  if !anyBit s.mcr (mcrAny n) then some best
  else do
    let clocks := matchDistance s n * (s.pr + 1).setWidth 64
    let pc : DoubleWord := s.pc.setWidth 64
    let clocks := if pc < clocks then clocks - pc else 1
    let ns ← udiv? (clocks * 1000000000) (s.clkHz.setWidth 64)
    some (if ns < best then ns else best)

def ctimerReschedule (s : CtimerState) (now : ℤ) : Option CtimerState :=
  if !ctimerRunning s then some { s with timer := none }
  else do
    let best ← (List.finRange 4).foldlM (nearerMatch s) (BitVec.allOnes 64)
    let delay := if best = 0 then 1 else best
    let timer := if best = BitVec.allOnes 64 then none else some (now + delay.toInt)
    some { s with timer := timer }

def nearestMatch : Option Match :=
  ((List.finRange 4).foldl (fun (found : DoubleWord × Option Match) n =>
    if anyBit s.mcr (mcrAny n) ∧ matchDistance s n < found.1 then
      (matchDistance s n, some n)
    else found) (BitVec.allOnes 64, none)).2

def atMatch : Bool := anyBit s.mcr (mcrAny n) && s.mr n == s.tc

def matchAction (x : CtimerState × Bool) (n : Match) : CtimerState × Bool :=
  let (s, doReset) := x
  if !atMatch s n then x
  else
    let ir := if anyBit s.mcr (mcrInt n) then s.ir ||| 1 <<< n.val else s.ir
    let tcr := if anyBit s.mcr (mcrStop n) then s.tcr &&& ~~~tcrCen else s.tcr
    let dma := fun i => if i.val = n.val then s.dmaPulses i + 1 else s.dmaPulses i
    let trig := update s.trigPulses n (s.trigPulses n + 1)
    ({ s with ir := ir, tcr := tcr, dmaPulses := dma, trigPulses := trig },
      doReset || anyBit s.mcr (mcrRst n))

def fireMatch (s : CtimerState) (fire : Match) (now : ℤ) : CtimerState :=
  let (s, doReset) :=
    (List.finRange 4).foldl matchAction ({ s with tc := s.mr fire, pc := 0 }, false)
  let s := if doReset then { s with tc := 0, pc := 0 } else s
  { s with baseNs := now }

def ctimerTick (s : CtimerState) (now : ℤ) : Option CtimerState := do
  let s ← ctimerSync { s with timer := none } now
  let s :=
    match nearestMatch s with
    | some fire => fireMatch s fire now
    | none => s
  ctimerReschedule (ctimerUpdateIrq s) now

def captureEdge (level : Bool) : Bool :=
  (level && !s.cap0Level && anyBit s.ccr ccrCap0re) ||
    (!level && s.cap0Level && anyBit s.ccr ccrCap0fe)

def ctimerCapture0 (s : CtimerState) (level : Bool) (now : ℤ) : Option CtimerState :=
  if captureEdge s level then do
    let (tc, _) ← ctimerPeek s now
    let s := { s with cap0Level := level, cr := update s.cr 0 tc }
    some (if anyBit s.ccr ccrCap0i then ctimerUpdateIrq { s with ir := s.ir ||| irCr0int } else s)
  else some { s with cap0Level := level }

def arrayIdx (base off : ℕ) : Match := ⟨(off - base) / 4 % 4, Nat.mod_lt _ (by decide)⟩

def InArray (base off : ℕ) : Prop := off = base ∨ off = base + 4 ∨ off = base + 8 ∨ off = base + 12
deriving Decidable

def ctimerRead (off : ℕ) (now : ℤ) : Option Word :=
  if off = 0x00 then some s.ir
  else if off = 0x04 then some s.tcr
  else if off = 0x08 then (ctimerPeek s now).map Prod.fst
  else if off = 0x0C then some s.pr
  else if off = 0x10 then (ctimerPeek s now).map Prod.snd
  else if off = 0x14 then some s.mcr
  else if InArray 0x18 off then some (s.mr (arrayIdx 0x18 off))
  else if off = 0x28 then some s.ccr
  else if InArray 0x2C off then some (s.cr (arrayIdx 0x2C off))
  else if off = 0x3C then some s.emr
  else if off = 0x70 then some s.ctcr
  else if off = 0x74 then some s.pwmc
  else if InArray 0x78 off then some (s.msr (arrayIdx 0x78 off))
  else some 0

inductive CountReg
  | tcr
  | tc
  | pr
  | pc
  | mcr
  | mr (n : Match)

def countReg (off : ℕ) : Option CountReg :=
  if off = 0x04 then some .tcr
  else if off = 0x08 then some .tc
  else if off = 0x0C then some .pr
  else if off = 0x10 then some .pc
  else if off = 0x14 then some .mcr
  else if InArray 0x18 off then some (.mr (arrayIdx 0x18 off))
  else none

def setCountReg (s : CtimerState) (r : CountReg) (v : Word) : CtimerState :=
  match r with
  | .tcr =>
    let s := { s with tcr := v &&& 0xFF }
    if anyBit s.tcr tcrCrst then { s with tc := 0, pc := 0 } else s
  | .tc => { s with tc := v }
  | .pr => { s with pr := v }
  | .pc => { s with pc := v }
  | .mcr => { s with mcr := v }
  | .mr n => { s with mr := update s.mr n v }

def writeCount (s : CtimerState) (r : CountReg) (v : Word) (now : ℤ) : Option CtimerState := do
  let s ← ctimerSync s now
  ctimerReschedule (setCountReg s r v) now

def writePlain (off : ℕ) (v : Word) : CtimerState :=
  if off = 0x00 then ctimerUpdateIrq { s with ir := s.ir &&& ~~~v }
  else if off = 0x28 then { s with ccr := v }
  else if off = 0x3C then { s with emr := v }
  else if off = 0x70 then { s with ctcr := v }
  else if off = 0x74 then { s with pwmc := v }
  else if InArray 0x78 off then { s with msr := update s.msr (arrayIdx 0x78 off) v }
  else s

def ctimerWrite (off : ℕ) (v : Word) (now : ℤ) : Option CtimerState :=
  match countReg off with
  | some r => writeCount s r v now
  | none => some (writePlain s off v)

def mcxnCtimerReset : CtimerState :=
  { s with
    timer := none, ir := 0, tcr := 0, pr := 0, mcr := 0, ccr := 0, emr := 0, ctcr := 0,
    pwmc := 0, mr := fun _ => 0, cr := fun _ => 0, msr := fun _ => 0, tc := 0, pc := 0,
    baseNs := 0, cap0Level := false }

def CtimerState.load (s saved : CtimerState) : CtimerState :=
  { saved with
    clkHz := s.clkHz, irq := s.irq, dmaPulses := s.dmaPulses, trigPulses := s.trigPulses }

def mcxnCtimerPostLoad : CtimerState := ctimerUpdateIrq s

inductive Event
  | clock (hz : Word)
  | read (off : ℕ) (now : ℤ)
  | write (off : ℕ) (v : Word) (now : ℤ)
  | tick (now : ℤ)
  | capture (level : Bool) (now : ℤ)
  | reset

def step : Event → Option CtimerState
  | .clock hz => some { s with clkHz := hz }
  | .read off now => (ctimerRead s off now).map fun _ => s
  | .write off v now => ctimerWrite s off v now
  | .tick now => ctimerTick s now
  | .capture level now => ctimerCapture0 s level now
  | .reset => some (mcxnCtimerReset s)

end Mcxn947.Ctimer
