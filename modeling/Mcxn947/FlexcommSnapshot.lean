import Mcxn947.FlexcommLines

/-!
# Snapshots of the FlexComm

A snapshot carries the fields of `vmstate_mcxn_lpuart` and nothing else.
-/

namespace Mcxn947.Flexcomm

open MachineWords EventRuns Device FlexcommState

variable {π : Type}

def restore (p : Peers π) (x : Device π) : Device π :=
  mcxnLpuartPostLoad p
    { st := (mcxnLpuartReset created).load x.st
      lines := ⟨false, false, false, x.lines.spiCs⟩
      peers := x.peers
      shifted := x.shifted }

def Device.view (x : Device π) : FlexcommLines × List Word := (x.lines, x.shifted)

def FlexcommEvent.IsAccess : FlexcommEvent → Prop
  | .read _ | .write _ _ | .rx _ => True
  | .reset | .load _ => False

def Indistinguishable (p : Peers π) (x y : Device π) : Prop :=
  x.view = y.view ∧ ∀ events : List FlexcommEvent,
    (∀ e ∈ events, e.IsAccess) →
      observe (flexcommStep p) view x events = observe (flexcommStep p) view y events

structure NothingUnsaved (x : Device π) : Prop where
  mcr : x.st.mcr = 0
  spiDer : x.st.spiDer = 0
  i2cMder : x.st.i2cMder = 0
  cs : x.st.spiCsAsserted = false
  lines : ∀ l, x.Shows l

def FlexcommState.saved (s : FlexcommState) : FlexcommState :=
  { s with
    mcr := 0, spiDer := 0, i2cMder := 0, spiCsAsserted := false, dmaTxLevel := false
    dmaRxLevel := false }

lemma updateIrq_view {α : Type} {p : Peers π} {f : Device π → α}
    (hirq : ∀ y level, f { y with lines := { y.lines with irq := level } } = f y)
    (htx : ∀ y, f (updateDmaTx p y) = f y) (hrx : ∀ y, f (updateDmaRx p y) = f y)
    (x : Device π) : f (mcxnFlexcommUpdateIrq p x) = f x := by
  unfold mcxnFlexcommUpdateIrq mcxnFlexcommUpdateDma
  rw [hrx, htx, hirq]

lemma updateIrq_watched {ρ : Type} {p : Peers π} {watch : PortWatch ρ} (x : Device (π × ρ)) :
    (mcxnFlexcommUpdateIrq (p.watched watch) x).peers.2 = x.peers.2 := by
  apply updateIrq_view (f := fun y : Device (π × ρ) => y.peers.2) (fun _ _ => rfl)
  · intro y
    unfold updateDmaTx
    split <;> rfl
  intro y
  unfold updateDmaRx
  split <;> rfl

section Alone

variable {d : DataPeers π}

variable (p : Peers π) (x : Device π)

lemma updateIrq_alone_peers : (mcxnFlexcommUpdateIrq d.alone x).peers = x.peers := by
  apply updateIrq_view (f := peers) (fun _ _ => rfl)
  · intro y
    unfold updateDmaTx
    split <;> rfl
  intro y
  unfold updateDmaRx
  split <;> rfl

lemma updateIrq_alone_shifted : (mcxnFlexcommUpdateIrq d.alone x).shifted = x.shifted := by
  apply updateIrq_view (f := shifted) (fun _ _ => rfl)
  · intro y
    unfold updateDmaTx
    split <;> rfl
  intro y
  unfold updateDmaRx
  split <;> rfl

lemma restore_eq : restore d.alone x =
      { st := { x.st.saved with
          dmaTxLevel := x.st.saved.tx, dmaRxLevel := x.st.saved.rx }
        lines :=
          { irq := mcxnFlexcommIstat x.st.saved != 0
            dmaReqTx := x.st.saved.tx
            dmaReqRx := x.st.saved.rx
            spiCs := x.lines.spiCs }
        peers := x.peers
        shifted := x.shifted } := by
  have hload : (mcxnLpuartReset created).load x.st =
      x.st.saved := rfl
  unfold restore mcxnLpuartPostLoad
  set y : Device π :=
    { st := x.st.saved
      lines := ⟨false, false, false, x.lines.spiCs⟩
      peers := x.peers
      shifted := x.shifted }
  have hcs : x.st.saved.spiCsAsserted ≠ true := by simp [saved]
  have hy : y.Cached := ⟨rfl, rfl, fun h => absurd h hcs⟩
  exact Device.ext (updateIrq_st y) (updateIrq_lines hy)
    (updateIrq_alone_peers y) (updateIrq_alone_shifted y)

lemma restore_eq_self {x : Device π} (hcached : x.Cached)
    (h : NothingUnsaved x) : restore d.alone x = x := by
  have hsaved : x.st.saved = { x.st with dmaTxLevel := false, dmaRxLevel := false } := by
    simp only [saved, h.mcr, h.spiDer, h.i2cMder, h.cs]
  have hview : SameView x.st x.st.saved := by
    rw [hsaved]
    exact .of_eq rfl rfl rfl
  have hirq : (mcxnFlexcommIstat x.st.saved != 0) = x.lines.irq :=
    (hview .irq).trans (h.lines .irq).symm
  have htx : x.st.saved.tx = x.st.dmaTxLevel :=
    (hview .tx).trans ((h.lines .tx).symm.trans hcached.tx.symm)
  have hrx : x.st.saved.rx = x.st.dmaRxLevel :=
    (hview .rx).trans ((h.lines .rx).symm.trans hcached.rx.symm)
  rw [restore_eq, htx, hrx, hirq, hsaved]
  apply Device.ext
  · rfl
  · exact congrArg₂ (fun tx rx => FlexcommLines.mk x.lines.irq tx rx x.lines.spiCs)
      hcached.tx hcached.rx
  · rfl
  · rfl

def Device.select (v : Word) : Device π :=
  x.modify fun s => { s with pselid := v &&& (pselidPersel ||| pselidLock) }

lemma select_persel {v : Word} {sel : Persel}
    (h : Persel.ofPselid (v &&& (pselidPersel ||| pselidLock)) = sel) :
    (x.select v).st.persel = sel := h

lemma step_select (v : Word) : (flexcommStep p x (.write 0xFF8 v)).1 = x.select v := rfl

lemma select_read_mcr : (flexcommStep p (x.select 0) (.read 0x40)).2 = some x.st.mcr := by
  have hpersel : (x.select 0).st.persel = .lpuart := select_persel x (by decide)
  simp only [flexcommStep, mcxnLpuartRead, lpflexcommPselid, lpflexcommIstat, hpersel]
  rfl

lemma select_read_spiDer : (flexcommStep p (x.select 2) (.read 0x1C)).2 = some x.st.spiDer := by
  have hpersel : (x.select 2).st.persel = .lpspi := select_persel x (by decide)
  simp only [flexcommStep, mcxnLpuartRead, lpflexcommPselid, lpflexcommIstat, hpersel]
  rfl

lemma select_read_i2cMder : (flexcommStep p (x.select 3) (.read 0x81C)).2 = some x.st.i2cMder := by
  have hpersel : (x.select 3).st.persel = .lpi2c := select_persel x (by decide)
  simp only [flexcommStep, mcxnLpuartRead, lpflexcommPselid, lpflexcommIstat, hpersel]
  rfl

lemma updateIrq_spiCs : (mcxnFlexcommUpdateIrq p x).lines.spiCs = x.lines.spiCs := by
  apply updateIrq_view (f := fun y : Device π => y.lines.spiCs) (fun _ _ => rfl)
  · intro y
    unfold updateDmaTx
    split <;> rfl
  intro y
  unfold updateDmaRx
  split <;> rfl

lemma select_reset_spiCs : (flexcommStep p (x.select 2) (.write 0x10 2)).1.lines.spiCs =
      (x.st.spiCsAsserted || x.lines.spiCs) := by
  have hpersel : (x.select 2).st.persel = .lpspi := select_persel x (by decide)
  have hreset : anyBit (2 : Word) lpspiCrRst := by decide
  simp only [flexcommStep, mcxnLpuartWrite, lpflexcommPselid, lpflexcommIstat, hpersel]
  change (lpspiWriteCr p (x.select 2) 2).lines.spiCs = _
  simp only [lpspiWriteCr, hreset, if_true, updateIrq_spiCs]
  cases hcs : x.st.spiCsAsserted with
  | true => simp [select, Device.modify, hcs, setSpiCs]
  | false => simp [select, Device.modify, hcs]

lemma Indistinguishable.second {p : Peers π} {x y : Device π}
    (h : Indistinguishable p x y) {e f : FlexcommEvent} (he : e.IsAccess) (hf : f.IsAccess) :
    (flexcommStep p (flexcommStep p x e).1 f).2 = (flexcommStep p (flexcommStep p y e).1 f).2 ∧
      (flexcommStep p (flexcommStep p x e).1 f).1.view =
      (flexcommStep p (flexcommStep p y e).1 f).1.view := by
  apply observe_second
  apply h.2
  intro event hmem
  simp only [List.mem_cons, List.not_mem_nil, or_false] at hmem
  rcases hmem with rfl | rfl
  · exact he
  · exact hf

lemma nothingUnsaved_of_indistinguishable {x : Device π} (hcached : x.Cached)
    (h : Indistinguishable d.alone x (restore d.alone x)) : NothingUnsaved x := by
  rw [restore_eq] at h
  have hmcr := (h.second (e := .write 0xFF8 0) (f := .read 0x40) trivial trivial).1
  have hder := (h.second (e := .write 0xFF8 2) (f := .read 0x1C) trivial trivial).1
  have hmder := (h.second (e := .write 0xFF8 3) (f := .read 0x81C) trivial trivial).1
  have hcs := congrArg (fun v => v.1.spiCs) (h.second (e := .write 0xFF8 2) (f := .write 0x10 2)
      trivial trivial).2
  simp only [step_select, select_read_mcr, Option.some.injEq] at hmcr
  simp only [step_select, select_read_spiDer, Option.some.injEq] at hder
  simp only [step_select, select_read_i2cMder, Option.some.injEq] at hmder
  simp only [step_select, view, select_reset_spiCs] at hcs
  have hreleased : x.st.spiCsAsserted = false := by
    cases hassert : x.st.spiCsAsserted with
    | false => rfl
    | true =>
      rw [hassert, hcached.cs hassert] at hcs
      exact absurd hcs (by simp [saved])
  have hsaved : x.st.saved = { x.st with dmaTxLevel := false, dmaRxLevel := false } := by
    simp only [saved] at hmcr hder hmder ⊢
    simp only [hmcr, hder, hmder, hreleased]
  have hlines := congrArg Prod.fst h.1
  simp only [view, hsaved] at hlines
  refine ⟨hmcr, hder, hmder, hreleased, ?_⟩
  intro l
  unfold Device.Shows
  rw [hlines]
  cases l <;> rfl

end Alone

/-- A device reached by any history of accesses, received characters, resets and
snapshot loads cannot be told from its restored copy if and only if nothing
that a snapshot leaves behind is in use. -/
theorem snapshot_transparent_iff (d : DataPeers π) (peers : π) (history : List FlexcommEvent) :
    Indistinguishable d.alone (run (flexcommNext d.alone) (powerOn peers) history) (restore d.alone
          (run (flexcommNext d.alone) (powerOn peers) history)) ↔
      NothingUnsaved (run (flexcommNext d.alone) (powerOn peers) history) := by
  have hcached := run_invariant (P := Device.Cached)
    (fun x e (h : Device.Cached x) => next_cached (p := d.alone) h e)
    (powerOn_cached peers) history
  constructor
  · exact nothingUnsaved_of_indistinguishable hcached
  intro h
  rw [restore_eq_self hcached h]
  exact ⟨rfl, fun _ _ => rfl⟩

theorem snapshot_loses_spiDer : ¬ Indistinguishable idlePeers.alone
      (run (flexcommNext idlePeers.alone) (powerOn ()) [.write 0xFF8 2, .write 0x1C 1])
      (restore idlePeers.alone (run (flexcommNext idlePeers.alone) (powerOn ())
          [.write 0xFF8 2, .write 0x1C 1])) := by
  intro h
  have hview := h.1
  revert hview
  decide

end Mcxn947.Flexcomm
