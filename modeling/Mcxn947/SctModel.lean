import Mcxn947.MachineWords

/-!
# The SCTimer

`hw/misc/mcxn_sct.c`: a byte-addressed register window whose match event 0 recurs
with a period derived from the match register, the prescaler and the clock that
SYSCON supplies, and input pins that fire events on their transitions.
-/

namespace Mcxn947.Sct

open MachineWords

def sctCtrl : ℕ := 0x04
def sctCount : ℕ := 0x40
def sctStateReg : ℕ := 0x44
def sctInput : ℕ := 0x48
def sctEven : ℕ := 0xF0
def sctEvflag : ℕ := 0xF4
def sctConflag : ℕ := 0xFC
def sctMatchrel0 : ℕ := 0x180
def sctEvState (n : ℕ) : ℕ := 0x300 + n * 8
def sctEvCtrl (n : ℕ) : ℕ := 0x304 + n * 8

def ctrlClrctrL : Word := 0x00000008
def ctrlClrctrH : Word := 0x00080000
def ctrlStopL : Word := 0x00000002
def ctrlHaltL : Word := 0x00000004
def sctEv0 : Word := 1 <<< 0
def evCtrlOutsel : Word := 1 <<< 5

def sctSize : ℕ := 0x1000

structure SctState where
  regs : ℕ → Byte
  eventTimer : Option ℕ
  nextEventNs : ℕ
  inLevel : Byte
  hz : Word
  irq : Bool

variable (s : SctState)

def SctState.ld32 (off : ℕ) : Word :=
  s.regs (off + 3) ++ s.regs (off + 2) ++ s.regs (off + 1) ++ s.regs off

def SctState.setByte (off : ℕ) (b : Byte) : SctState :=
  { s with regs := Function.update s.regs off b }

def SctState.st32 (off : ℕ) (v : Word) : SctState :=
  (((s.setByte off (v.extractLsb' 0 8)).setByte (off + 1) (v.extractLsb' 8 8)).setByte
    (off + 2) (v.extractLsb' 16 8)).setByte (off + 3) (v.extractLsb' 24 8)

def SctState.interrupts : Bool := anyBit (s.ld32 sctEvflag) (s.ld32 sctEven)

def mcxnSctUpdateIrq : SctState := { s with irq := s.interrupts }

def sctInputFires (oldv newv : Byte) (n : ℕ) : Bool :=
  let ctrl := s.ld32 (sctEvCtrl n)
  let curstate := (s.ld32 sctStateReg &&& 0x1F).toNat
  let iosel := ((ctrl >>> 6) &&& 0xF).toNat
  let ob := oldv.getLsbD iosel
  let nb := newv.getLsbD iosel
  ((ctrl >>> 12) &&& 0x3 == 2) && !anyBit ctrl evCtrlOutsel &&
    (s.ld32 (sctEvState n)).getLsbD curstate &&
    match ((ctrl >>> 10) &&& 0x3).toNat with
    | 0 => !nb
    | 1 => !ob && nb
    | 2 => ob && !nb
    | _ => nb

def mcxnSctEvalInputs (oldv newv : Byte) : SctState :=
  let fired := (List.range 16).filter (sctInputFires s oldv newv)
  if fired = [] then s
  else
    mcxnSctUpdateIrq (s.st32 sctEvflag
      (fired.foldl (fun evflag n => evflag ||| ((1 : Word) <<< n)) (s.ld32 sctEvflag)))

def mcxnSctSetInputs (val : Byte) : SctState :=
  mcxnSctEvalInputs ({ s with inLevel := val }.st32 sctInput (val.setWidth 32)) s.inLevel val

def mcxnSctPeriodNs : ℕ :=
  let limit : ℤ := (s.ld32 sctMatchrel0).toNat + 1
  let pre : ℤ := ((s.ld32 sctCtrl >>> 5) &&& 0xFF).toNat + 1
  if s.hz = 0 then 0
  else
    let ns := (Int.bmod (limit * pre * 1000000000) (2 ^ 64)).tdiv s.hz.toNat
    if ns < 1 then 1 else ns.toNat

def sctRearm (start : ℕ) : SctState :=
  if 0 < mcxnSctPeriodNs s then
    let next := start + mcxnSctPeriodNs s
    { s with nextEventNs := next, eventTimer := some next }
  else { s with eventTimer := none }

def mcxnSctEventTick (s : SctState) : SctState :=
  let s := { s with eventTimer := none }
  let s := mcxnSctUpdateIrq (s.st32 sctEvflag (s.ld32 sctEvflag ||| sctEv0))
  sctRearm s s.nextEventNs

def mcxnSctRead (offset size : ℕ) : Word :=
  (List.range size).foldl
    (fun val i =>
      if offset + i < sctSize then val ||| ((s.regs (offset + i)).setWidth 32 <<< (8 * i))
      else val) 0

def sctWriteCtrl (s : SctState) (now : ℕ) (v : Word) : SctState :=
  let count := s.ld32 sctCount
  let count := if anyBit v ctrlClrctrL then count &&& 0xFFFF0000 else count
  let count := if anyBit v ctrlClrctrH then count &&& 0x0000FFFF else count
  let s := s.st32 sctCount count
  let v := v &&& ~~~(ctrlClrctrL ||| ctrlClrctrH)
  let s := s.st32 sctCtrl v
  if !anyBit v (ctrlHaltL ||| ctrlStopL) then sctRearm s now
  else { s with eventTimer := none }

def sctStoreBytes (s : SctState) (offset size : ℕ) (v : Word) : SctState :=
  (List.range size).foldl
    (fun s i =>
      if offset + i < sctSize then s.setByte (offset + i) (v.extractLsb' (8 * i) 8) else s) s

def mcxnSctWrite (s : SctState) (now offset size : ℕ) (v : Word) : SctState :=
  if size = 4 ∧ offset = sctCtrl then sctWriteCtrl s now v
  else if size = 4 ∧ (offset = sctEvflag ∨ offset = sctConflag) then
    let s := s.st32 offset (s.ld32 offset &&& ~~~v)
    if offset = sctEvflag then mcxnSctUpdateIrq s else s
  else
    let s := sctStoreBytes s offset size v
    if offset < sctEven + 4 ∧ sctEven < offset + size then mcxnSctUpdateIrq s else s

def mcxnSctReset : SctState :=
  { s with regs := fun _ => 0, eventTimer := none, inLevel := 0, irq := false }

def SctState.realized (hz : Word) : SctState where
  regs := fun _ => 0
  eventTimer := none
  nextEventNs := 0
  inLevel := 0
  hz := hz
  irq := false

lemma SctState.ld32_st32 {off off' : ℕ} (h : off' + 4 ≤ off ∨ off + 4 ≤ off')
    (s : SctState) (v : Word) : (s.st32 off v).ld32 off' = s.ld32 off' := by
  simp (disch := omega) only [ld32, st32, setByte, Function.update_of_ne]

lemma periodNs_congr {s t : SctState} (hmatch : t.ld32 sctMatchrel0 = s.ld32 sctMatchrel0)
    (hctrl : t.ld32 sctCtrl = s.ld32 sctCtrl) (hhz : t.hz = s.hz) :
    mcxnSctPeriodNs t = mcxnSctPeriodNs s := by
  unfold mcxnSctPeriodNs
  rw [hmatch, hctrl, hhz]

lemma periodNs_pos {s : SctState} (h : s.hz ≠ 0) : 0 < mcxnSctPeriodNs s := by
  unfold mcxnSctPeriodNs
  dsimp only
  rw [if_neg h]
  split <;> omega

lemma rearm_period (start : ℕ) : mcxnSctPeriodNs (sctRearm s start) = mcxnSctPeriodNs s := by
  unfold sctRearm
  split <;> exact periodNs_congr rfl rfl rfl

def sctLatchEvent : SctState :=
  mcxnSctUpdateIrq ({ s with eventTimer := none }.st32 sctEvflag (s.ld32 sctEvflag ||| sctEv0))

lemma latchEvent_period : mcxnSctPeriodNs (sctLatchEvent s) = mcxnSctPeriodNs s := by
  apply periodNs_congr
  · exact SctState.ld32_st32 (by decide) { s with eventTimer := none } _
  · exact SctState.ld32_st32 (by decide) { s with eventTimer := none } _
  · rfl

lemma eventTick_eq : mcxnSctEventTick s = sctRearm (sctLatchEvent s) s.nextEventNs := rfl

lemma eventTick_armed {s : SctState} (h : s.hz ≠ 0) :
    (mcxnSctEventTick s).eventTimer = some (s.nextEventNs + mcxnSctPeriodNs s) ∧
      (mcxnSctEventTick s).nextEventNs = s.nextEventNs + mcxnSctPeriodNs s ∧
      mcxnSctPeriodNs (mcxnSctEventTick s) = mcxnSctPeriodNs s := by
  have hlatch := latchEvent_period s
  have hpos := periodNs_pos h
  have hperiod : mcxnSctPeriodNs (mcxnSctEventTick s) = mcxnSctPeriodNs s := by
    rw [eventTick_eq, rearm_period, hlatch]
  refine ⟨?_, ?_, hperiod⟩
  · rw [eventTick_eq, sctRearm, hlatch, if_pos hpos]
  · rw [eventTick_eq, sctRearm, hlatch, if_pos hpos]

lemma eventTick_hz : (mcxnSctEventTick s).hz = s.hz := by
  rw [eventTick_eq]
  unfold sctRearm
  split <;> rfl

end Mcxn947.Sct
