import Mcxn947.EventRuns
import Mcxn947.MachineWords

/-!
# Run control of the secondary core

`hw/misc/mcxn_syscon.c`: `CPUCTRL` releases and stops the second Cortex-M33.
-/

namespace Mcxn947.Syscon

open MachineWords EventRuns List

def sysconCpuctrl : ℕ := 0x800
def sysconCpboot : ℕ := 0x804

def cpuctrlCpu1clken : Word := 1 <<< 3
def cpuctrlCpu1rsten : Word := 1 <<< 5
def cpbootAddrMask : Word := 0xFFFFFF80

inductive HaltReason where
  | notHalted | psci
deriving DecidableEq

structure Cpu1 where
  (halted psciOn : Bool)
  haltReason : HaltReason
  initSvtor : Word
deriving DecidableEq

structure SysconState where
  (cpuctrl cpboot : Word)
  cpu1Running : Bool
  cpu1 : Option Cpu1
deriving DecidableEq

def mcxnSysconSetCpu1Run (cpu : Cpu1) (run : Bool) : Cpu1 :=
  { cpu with
    halted := !run, psciOn := run, haltReason := if run then .notHalted else .psci }

def cpuReset (cpu : Cpu1) : Cpu1 :=
  { cpu with halted := true, psciOn := false, haltReason := .psci }

variable (s : SysconState)

def mcxnSysconStartCpu1Bh : SysconState :=
  match s.cpu1 with
  | none => s
  | some cpu =>
    let cpu := { cpu with initSvtor := s.cpboot &&& cpbootAddrMask }
    { s with
      cpu1 := some (mcxnSysconSetCpu1Run (cpuReset cpu) true), cpu1Running := true }

def wantRun (cpuctrl : Word) : Bool :=
  anyBit cpuctrl cpuctrlCpu1clken && !anyBit cpuctrl cpuctrlCpu1rsten

def mcxnSysconUpdateCpu1 : SysconState × ℕ :=
  match s.cpu1 with
  | none => (s, 0)
  | some cpu =>
    if wantRun s.cpuctrl && !s.cpu1Running then (s, 1)
    else if !wantRun s.cpuctrl && s.cpu1Running then
      ({ s with
        cpu1 := some (mcxnSysconSetCpu1Run cpu false), cpu1Running := false }, 0)
    else (s, 0)

def mcxnSysconWrite (offset : ℕ) (value : Word) : SysconState × ℕ :=
  if offset = sysconCpuctrl then mcxnSysconUpdateCpu1 { s with cpuctrl := value }
  else if offset = sysconCpboot then ({ s with cpboot := value }, 0)
  else (s, 0)

def mcxnSysconReset : SysconState := { s with cpuctrl := 0x28, cpboot := 0, cpu1Running := false }

inductive RunMark where
  | rise
  | start (svtor : Word)
deriving DecidableEq

structure RunControl where
  dev : SysconState
  pending : ℕ
  history : List RunMark
deriving DecidableEq

inductive SysconEvent where
  | write (offset : ℕ) (value : Word)
  | startBh
  | machineReset

def sysconStep (x : RunControl) : SysconEvent → RunControl
  | .write offset value =>
    let (dev, scheduled) := mcxnSysconWrite x.dev offset value
    { dev := dev
      pending := x.pending + scheduled
      history := x.history ++
        if !wantRun x.dev.cpuctrl && wantRun dev.cpuctrl then [.rise] else [] }
  | .startBh =>
    if x.pending = 0 then x
    else
      let dev := mcxnSysconStartCpu1Bh x.dev
      { dev := dev
        pending := x.pending - 1
        history := x.history ++ (dev.cpu1.map fun cpu => RunMark.start cpu.initSvtor).toList }
  | .machineReset => { x with dev := mcxnSysconReset x.dev }

def powerOn : RunControl where
  dev := ⟨0x28, 0, false, some ⟨true, false, .psci, 0⟩⟩
  pending := 0
  history := []

def rounds (svtors : List Word) : List RunMark := svtors.flatMap fun svtor => [.rise, .start svtor]

lemma rounds_snoc (svtors : List Word) (svtor : Word) :
    rounds svtors ++ [.rise, .start svtor] = rounds (svtors ++ [svtor]) := by
  simp [rounds]

variable {after mid tail : List RunMark} {svtors : List Word} {x : RunControl}

lemma rise_mem_of_split (htail : tail = [] ∨ tail = [.rise])
    (hsplit : rounds svtors ++ tail = mid ++ .rise :: after) (hmid : mid ≠ []) :
    RunMark.rise ∈ mid := by
  obtain ⟨m, mid', rfl⟩ := exists_cons_of_ne_nil hmid
  cases svtors with
  | nil =>
    obtain rfl | rfl := htail
    · cases hsplit
    · simp [rounds] at hsplit
  | cons svtor rest =>
    have hhead : RunMark.rise = m := (List.cons.inj hsplit).1
    exact hhead ▸ mem_cons_self

lemma between_rises {before : List RunMark} (htail : tail = [] ∨ tail = [.rise])
    (hsplit : rounds svtors ++ tail = before ++ .rise :: (mid ++ .rise :: after))
    (hmid : RunMark.rise ∉ mid) : ∃ svtor, mid = [.start svtor] := by
  induction svtors generalizing before with
  | nil =>
    have hlength := congrArg List.length hsplit
    obtain rfl | rfl := htail
    · simp [rounds] at hlength
    · simp [rounds] at hlength
      omega
  | cons svtor rest ih =>
    change .rise :: .start svtor :: (rounds rest ++ tail) = _ at hsplit
    match before with
    | b :: b' :: before' =>
      rw [List.cons_append, List.cons_append, List.cons.injEq, List.cons.injEq] at hsplit
      exact ih hsplit.2.2
    | [b] =>
      rw [List.cons_append, List.cons.injEq, nil_append, List.cons.injEq] at hsplit
      exact absurd hsplit.2.1 (by simp)
    | [] =>
      rw [nil_append, List.cons.injEq] at hsplit
      cases mid with
      | nil => exact absurd hsplit.2 (by simp)
      | cons m mid' =>
        obtain ⟨hm, hrest⟩ := List.cons.inj hsplit.2
        have hnil : mid' = [] := by
          by_contra hne
          have hrise := rise_mem_of_split htail hrest hne
          exact hmid (mem_cons_of_mem _ hrise)
        exact ⟨svtor, by rw [hnil, hm]⟩

structure InStep (x : RunControl) : Prop where
  core : ∃ cpu, x.dev.cpu1 = some cpu ∧ cpu.halted = !x.dev.cpu1Running
  idle : x.pending = 0 → x.dev.cpu1Running = wantRun x.dev.cpuctrl ∧
    ∃ svtors, x.history = rounds svtors
  busy : x.pending ≠ 0 → x.pending = 1 ∧ x.dev.cpu1Running = false ∧
    wantRun x.dev.cpuctrl = true ∧ ∃ svtors, x.history = rounds svtors ++ [.rise]

def Calm (x : RunControl) : SysconEvent → Prop
  | .write offset _ => offset = sysconCpuctrl → x.pending = 0
  | .startBh => True
  | .machineReset => x.pending = 0 ∧ x.dev.cpu1Running = false

section

variable (h : InStep x)
include h

lemma InStep.writeCpuctrl (hpend : x.pending = 0) (value : Word) :
    InStep (sysconStep x (.write sysconCpuctrl value)) := by
  obtain ⟨cpu, hcpu, hhalted⟩ := h.core
  obtain ⟨hrun, svtors, hhistory⟩ := h.idle hpend
  simp only [sysconStep, mcxnSysconWrite, if_true, mcxnSysconUpdateCpu1, hcpu,
    hrun, hpend, hhistory]
  rw [hrun] at hhalted
  cases hold : wantRun x.dev.cpuctrl with
  | true =>
    rw [hold] at hhalted
    cases hnew : wantRun value with
    | true => exact ⟨⟨cpu, rfl, hhalted⟩, fun _ => ⟨hnew.symm, svtors, by simp⟩, by simp⟩
    | false =>
      -- the stop takes effect at once
      exact ⟨⟨_, rfl, rfl⟩, fun _ => ⟨hnew.symm, svtors, by simp⟩, by simp⟩
  | false =>
    rw [hold] at hhalted
    cases hnew : wantRun value with
    | true =>
      -- a release: the start is now pending
      exact ⟨⟨cpu, rfl, hhalted⟩, by simp, fun _ => ⟨rfl, rfl, hnew, svtors, by simp [hnew]⟩⟩
    | false => exact ⟨⟨cpu, rfl, hhalted⟩, fun _ => ⟨hnew.symm, svtors, by simp [hnew]⟩, by simp⟩

lemma InStep.writeOther {offset : ℕ} (hoffset : offset ≠ sysconCpuctrl) (value : Word) :
    InStep (sysconStep x (.write offset value)) := by
  have hsame : ∀ dev : SysconState, dev.cpuctrl = x.dev.cpuctrl →
      dev.cpu1Running = x.dev.cpu1Running → dev.cpu1 = x.dev.cpu1 →
      InStep ⟨dev, x.pending, x.history ++ []⟩ := by
    intro dev hcpuctrl hrun hcpu1
    rw [append_nil]
    constructor
    · rw [hcpu1, hrun]
      exact h.core
    · rw [hcpuctrl, hrun]
      exact h.idle
    · rw [hcpuctrl, hrun]
      exact h.busy
  simp only [sysconStep, mcxnSysconWrite, if_neg hoffset]
  split
  · simpa using hsame { x.dev with cpboot := value } rfl rfl rfl
  · simpa using hsame x.dev rfl rfl rfl

lemma InStep.startBh : InStep (sysconStep x .startBh) := by
  unfold sysconStep
  dsimp only
  split
  · exact h
  rename_i hpend
  obtain ⟨cpu, hcpu, -⟩ := h.core
  obtain ⟨hone, -, hwant, svtors, hhistory⟩ := h.busy hpend
  simp only [mcxnSysconStartCpu1Bh, hcpu, hone, hhistory]
  refine ⟨⟨_, rfl, rfl⟩, fun _ => ⟨hwant.symm, ?_⟩, by simp⟩
  exact ⟨svtors ++ [x.dev.cpboot &&& cpbootAddrMask], by
    rw [← rounds_snoc, List.append_assoc]
    rfl⟩

lemma InStep.machineReset (hpend : x.pending = 0) (hstopped : x.dev.cpu1Running = false) :
    InStep (sysconStep x .machineReset) := by
  obtain ⟨cpu, hcpu, hhalted⟩ := h.core
  obtain ⟨-, hhistory⟩ := h.idle hpend
  rw [hstopped] at hhalted
  have hheld : wantRun 0x28 = false := by decide
  exact ⟨⟨cpu, hcpu, hhalted⟩, fun _ => ⟨hheld.symm, hhistory⟩, fun hbusy => absurd hpend hbusy⟩

lemma InStep.step (e : SysconEvent) (hcalm : Calm x e) : InStep (sysconStep x e) := by
  cases e with
  | write offset value =>
    by_cases hoffset : offset = sysconCpuctrl
    · subst hoffset
      exact h.writeCpuctrl (hcalm rfl) value
    · exact h.writeOther hoffset value
  | startBh => exact h.startBh
  | machineReset => exact h.machineReset hcalm.1 hcalm.2

end

lemma powerOn_inStep : InStep powerOn := by
  have hheld : wantRun 0x28 = false := by decide
  exact ⟨⟨_, rfl, rfl⟩, fun _ => ⟨hheld.symm, [], rfl⟩, fun h => absurd rfl h⟩

/-- In every calm run: whenever no start is pending, the core runs exactly when
`CPUCTRL` says so, and between two consecutive releases it was reset and started
exactly once. -/
theorem cpu1_follows_cpuctrl (events : List SysconEvent)
    (hcalm : Admits sysconStep Calm powerOn events) :
    ((run sysconStep powerOn events).pending = 0 → (run sysconStep powerOn events).dev.cpu1Running =
          wantRun (run sysconStep powerOn events).dev.cpuctrl ∧
        ∃ cpu, (run sysconStep powerOn events).dev.cpu1 = some cpu ∧
          cpu.halted = !wantRun (run sysconStep powerOn events).dev.cpuctrl) ∧
    (∀ before mid after : List RunMark, (run sysconStep powerOn events).history =
        before ++ .rise :: (mid ++ .rise :: after) →
      .rise ∉ mid → ∃ svtor, mid = [.start svtor]) := by
  have hinv : InStep (run sysconStep powerOn events) :=
    run_invariant_of_admits (P := InStep) (fun x e hguard h => h.step e hguard) powerOn_inStep hcalm
  generalize run sysconStep powerOn events = x at hinv
  constructor
  · intro hpending
    obtain ⟨hrunning, -⟩ := hinv.idle hpending
    obtain ⟨cpu, hcpu, hhalted⟩ := hinv.core
    exact ⟨hrunning, cpu, hcpu, hrunning ▸ hhalted⟩
  intro before mid after hsplit hmid
  by_cases hpending : x.pending = 0
  · obtain ⟨-, svtors, hhistory⟩ := hinv.idle hpending
    have hrounds : rounds svtors ++ [] = before ++ .rise :: (mid ++ .rise :: after) := by
      rw [append_nil, ← hhistory, hsplit]
    exact between_rises (Or.inl rfl) hrounds hmid
  · obtain ⟨-, -, -, svtors, hhistory⟩ := hinv.busy hpending
    exact between_rises (Or.inr rfl) (hhistory.symm.trans hsplit) hmid

theorem late_start_ignores_cpuctrl :
    (run sysconStep powerOn [.write 0x800 0x8, .write 0x800 0x28, .startBh]).pending = 0 ∧
      (run sysconStep powerOn
        [.write 0x800 0x8, .write 0x800 0x28, .startBh]).dev.cpu1Running = true ∧
      wantRun (run sysconStep powerOn
        [.write 0x800 0x8, .write 0x800 0x28, .startBh]).dev.cpuctrl = false := by
  decide

theorem cpu1_follows_cpuctrl_release : (run sysconStep powerOn
      [.write 0x804 0x20000, .write 0x800 0x8, .startBh]).dev.cpu1Running = true :=
  ((cpu1_follows_cpuctrl [.write 0x804 0x20000, .write 0x800 0x8, .startBh]
    ⟨fun h => absurd h (by decide), fun _ => by decide, trivial, trivial⟩).1
      (by decide)).1.trans (by decide)

end Mcxn947.Syscon
