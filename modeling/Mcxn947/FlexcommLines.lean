import Mcxn947.FlexcommMoves

/-!
# Line coherence of the FlexComm

The NVIC line and the two DMA request lines show what the registers ask for, in
every state of every run that does two things carefully: a function switch by
`PSELID` keeps what the lines show, and a device reset is taken with the lines
low.
-/

namespace Mcxn947.Flexcomm

open MachineWords EventRuns Device FlexcommState

variable {π : Type}

structure Device.Cached (x : Device π) : Prop where
  tx : x.st.dmaTxLevel = x.lines.dmaReqTx
  rx : x.st.dmaRxLevel = x.lines.dmaReqRx
  cs : x.st.spiCsAsserted = true → x.lines.spiCs = false

def FlexcommLines.level (lines : FlexcommLines) : OutLine → Bool
  | .irq => lines.irq
  | .tx => lines.dmaReqTx
  | .rx => lines.dmaReqRx

def Device.Shows (x : Device π) (l : OutLine) : Prop := x.lines.level l = x.st.asks l

variable {p : Peers π} (x : Device π)

lemma updateDmaTx_st : (updateDmaTx p x).st = { x.st with dmaTxLevel := x.st.tx } := by
  unfold updateDmaTx
  split
  · rfl
  next hsame => rw [not_not.mp hsame]

lemma updateDmaRx_st : (updateDmaRx p x).st = { x.st with dmaRxLevel := x.st.rx } := by
  unfold updateDmaRx
  split
  · rfl
  next hsame => rw [not_not.mp hsame]

lemma updateIrq_st : (mcxnFlexcommUpdateIrq p x).st =
      { x.st with dmaTxLevel := x.st.tx, dmaRxLevel := x.st.rx } := by
  unfold mcxnFlexcommUpdateIrq mcxnFlexcommUpdateDma
  rw [updateDmaRx_st, updateDmaTx_st]
  rfl

variable (peers : π) {x : Device π}

lemma updateDmaTx_lines (h : x.st.dmaTxLevel = x.lines.dmaReqTx) :
    (updateDmaTx p x).lines = { x.lines with dmaReqTx := x.st.tx } := by
  unfold updateDmaTx
  split
  · rfl
  next hsame => rw [not_not.mp hsame, h]

lemma updateDmaRx_lines (h : x.st.dmaRxLevel = x.lines.dmaReqRx) :
    (updateDmaRx p x).lines = { x.lines with dmaReqRx := x.st.rx } := by
  unfold updateDmaRx
  split
  · rfl
  next hsame => rw [not_not.mp hsame, h]

lemma Device.Cached.regs {st : FlexcommState} (h : x.Cached)
    (hcaches : SameCaches x.st st) : Device.Cached { x with st := st } :=
  ⟨hcaches.tx.trans h.tx, hcaches.rx.trans h.rx,
    fun hassert => h.cs (hcaches.cs.symm.trans hassert)⟩

lemma Device.Cached.updateDmaTx (h : x.Cached) : (updateDmaTx p x).Cached := by
  constructor
  · rw [updateDmaTx_st, updateDmaTx_lines h.tx]
  · rw [updateDmaTx_st, updateDmaTx_lines h.tx]
    exact h.rx
  · rw [updateDmaTx_st, updateDmaTx_lines h.tx]
    exact h.cs

lemma Device.Cached.updateDmaRx (h : x.Cached) : (updateDmaRx p x).Cached := by
  constructor
  · rw [updateDmaRx_st, updateDmaRx_lines h.rx]
    exact h.tx
  · rw [updateDmaRx_st, updateDmaRx_lines h.rx]
  · rw [updateDmaRx_st, updateDmaRx_lines h.rx]
    exact h.cs

variable {y : Device π} {l : OutLine}

lemma Device.Cached.moves (h : x.Cached) (hmoves : FlexcommMoves p x y) : y.Cached := by
  apply reflTransGen_preserves (P := Device.Cached) _ hmoves h
  intro x y hmove h
  cases hmove with
  | regs st hcaches => exact h.regs hcaches
  | irq level => exact ⟨h.tx, h.rx, h.cs⟩
  | dmaTx => exact h.updateDmaTx
  | dmaRx => exact h.updateDmaRx
  | cs level =>
    refine ⟨h.tx, h.rx, fun hassert => ?_⟩
    simpa [setSpiCs] using hassert
  | peer st q shifted hcaches hcall =>
    obtain ⟨htx, hrx, hcs⟩ := h.regs hcaches
    exact ⟨htx, hrx, hcs⟩

lemma updateIrq_lines (h : x.Cached) : (mcxnFlexcommUpdateIrq p x).lines = { x.lines with
        irq := mcxnFlexcommIstat x.st != 0, dmaReqTx := x.st.tx
        dmaReqRx := x.st.rx } := by
  unfold mcxnFlexcommUpdateIrq mcxnFlexcommUpdateDma
  set y : Device π := { x with lines := { x.lines with irq := mcxnFlexcommIstat x.st != 0 } }
  have hy : y.Cached := ⟨h.tx, h.rx, h.cs⟩
  rw [updateDmaRx_lines hy.updateDmaTx.rx, updateDmaTx_lines hy.tx, updateDmaTx_st]
  rfl

lemma updateIrq_shows (h : x.Cached) (l : OutLine) : (mcxnFlexcommUpdateIrq p x).Shows l := by
  unfold Device.Shows
  rw [updateIrq_lines h, updateIrq_st]
  cases l <;> rfl

lemma chrAcceptInput_shows (hcached : x.Cached) (h : x.Shows l) : (chrAcceptInput p x).Shows l := by
  unfold chrAcceptInput
  dsimp only
  have hcached' : Device.Cached { x with peers := (p.chrAcceptInput x.peers).1 } :=
    ⟨hcached.tx, hcached.rx, hcached.cs⟩
  have h' : Device.Shows { x with peers := (p.chrAcceptInput x.peers).1 } l := h
  generalize ({ x with peers := (p.chrAcceptInput x.peers).1 } : Device π) = y
    at hcached' h' ⊢
  induction (p.chrAcceptInput x.peers).2 generalizing y with
  | nil => exact h'
  | cons buf rest ih =>
    have hrx : (mcxnLpuartRx p y buf).Cached := hcached'.moves (rx_moves y buf)
    apply ih _ hrx
    exact updateIrq_shows (hcached'.regs (rxAll_caches buf y.st)) l

lemma Settled.shows (hsettled : Settled p x y)
    (hcached : x.Cached) (h : x.Shows l) : y.Shows l := by
  induction hsettled with
  | quiet st _ hview => exact h.trans (hview l).symm
  | update y hmoves => exact updateIrq_shows (hcached.moves hmoves) l
  | accept y hy ih => exact chrAcceptInput_shows (hcached.moves hy.moves) ih

variable (s : FlexcommState)

lemma reset_persel : (mcxnLpuartReset s).persel = .lpuart := by
  have hzero : Persel.ofPselid 0 = .lpuart := by decide
  exact hzero

lemma lpuartReset_asks (l : OutLine) : (mcxnLpuartReset s).asks l = false := by
  have htx : anyBit lpuartBaudReset baudTdmae = false := by decide
  have hrx : anyBit lpuartBaudReset baudRdmae = false := by decide
  cases l with
  | irq =>
    simp only [asks, mcxnFlexcommIstat, reset_persel]
    simp [mcxnLpuartReset]
  | tx =>
    simp only [asks, tx, reset_persel]
    exact htx
  | rx =>
    simp only [asks, rx, reset_persel]
    simp [mcxnLpuartReset, hrx]

inductive FlexcommEvent where
  | read (offset : ℕ)
  | write (offset : ℕ) (value : Word)
  | rx (buf : List Byte)
  | reset
  | load (saved : FlexcommState)

def flexcommStep (p : Peers π) (x : Device π) : FlexcommEvent → Device π × Option Word
  | .read offset =>
    let reply := mcxnLpuartRead p x offset
    (reply.1, some reply.2)
  | .write offset value => (mcxnLpuartWrite p x offset value, none)
  | .rx buf => (mcxnLpuartRx p x buf, none)
  | .reset => (x.modify mcxnLpuartReset, none)
  | .load saved => (mcxnLpuartPostLoad p (x.modify fun s => s.load saved), none)

def flexcommNext (p : Peers π) (x : Device π) (e : FlexcommEvent) : Device π :=
  (flexcommStep p x e).1

def Device.powerOn : Device π where
  st := mcxnLpuartReset created
  lines := ⟨false, false, false, true⟩
  peers := peers
  shifted := []

lemma Device.powerOn_cached : (powerOn peers).Cached := ⟨rfl, rfl, fun _ => by contradiction⟩

lemma Device.powerOn_shows (l : OutLine) : (powerOn peers).Shows l := by
  have hasks := lpuartReset_asks created l
  cases l <;> exact hasks.symm

lemma next_cached (h : x.Cached) (e : FlexcommEvent) : (flexcommNext p x e).Cached := by
  cases e with
  | read offset => exact h.moves (lpuartRead_settled x offset).moves
  | write offset value => exact h.moves (write_moves x offset value)
  | rx buf => exact h.moves (rx_moves x buf)
  | reset => exact ⟨h.tx, h.rx, fun hassert => by cases hassert⟩
  | load saved =>
    have hload : (x.modify fun s => s.load saved).Cached := ⟨h.tx, h.rx, h.cs⟩
    exact hload.moves (updateIrq_moves _)

def KeepsLine (x : Device π) (l : OutLine) : FlexcommEvent → Prop
  | .write offset value =>
    offset = lpflexcommPselid →
      asks { x.st with pselid := value &&& (pselidPersel ||| pselidLock) } l = x.st.asks l
  | .reset => x.lines.level l = false
  | .read _ | .rx _ | .load _ => True

lemma next_shows (e : FlexcommEvent)
    (hguard : KeepsLine x l e) (hcached : x.Cached) (h : x.Shows l) :
    (flexcommNext p x e).Shows l := by
  cases e with
  | read offset => exact (lpuartRead_settled x offset).shows hcached h
  | write offset value =>
    by_cases hoffset : offset = lpflexcommPselid
    · have hview := hguard hoffset
      simp only [flexcommNext, flexcommStep, mcxnLpuartWrite, if_pos hoffset]
      exact h.trans hview.symm
    · exact (lpuartWrite_settled x value hoffset).shows hcached h
  | rx buf => exact updateIrq_shows (hcached.regs (rxAll_caches buf x.st)) l
  | reset => exact hguard.trans (lpuartReset_asks x.st l).symm
  | load saved =>
    have hload : (x.modify fun s => s.load saved).Cached := ⟨hcached.tx, hcached.rx, hcached.cs⟩
    exact updateIrq_shows hload l

/-- In every run from power-on whose function switches keep what the lines show
and whose resets are taken with the lines low, the lines show what the
registers ask for. -/
theorem flexcomm_lines_coherent (p : Peers π) (peers : π) (events : List FlexcommEvent)
    (hadmits : Admits (flexcommNext p) (fun x e => ∀ l, KeepsLine x l e) (powerOn peers) events) :
    (run (flexcommNext p) (powerOn peers) events).lines.irq = (mcxnFlexcommIstat
          (run (flexcommNext p) (powerOn peers) events).st != 0) ∧
      (run (flexcommNext p) (powerOn peers) events).lines.dmaReqTx =
        (run (flexcommNext p) (powerOn peers) events).st.tx ∧
      (run (flexcommNext p) (powerOn peers) events).lines.dmaReqRx =
        (run (flexcommNext p) (powerOn peers) events).st.rx := by
  have hinv := run_invariant_of_admits (P := fun x : Device π => x.Cached ∧ ∀ l, x.Shows l)
    (fun x e hguard h => ⟨next_cached (p := p) h.1 e,
      fun l => next_shows e (hguard l) h.1 (h.2 l)⟩)
    ⟨powerOn_cached peers, powerOn_shows peers⟩ hadmits
  exact ⟨hinv.2 .irq, hinv.2 .tx, hinv.2 .rx⟩

def idlePeers : DataPeers Unit where
  spiCs _ _ := ()
  ssiTransfer := none
  i2cStartTransfer _ _ _ := ((), true)
  i2cSend _ _ := ((), true)
  i2cRecv _ := ((), 0xFF)
  i2cEndTransfer _ := ()
  chrWriteAll _ _ := ()
  chrAcceptInput _ := ((), [])

theorem pselid_leaves_irq_up : (run (flexcommNext idlePeers.alone) (powerOn ())
      [.write 0x18 0x00800000, .write 0xFF8 2]).lines.irq = true ∧
    mcxnFlexcommIstat (run (flexcommNext idlePeers.alone) (powerOn ())
      [.write 0x18 0x00800000, .write 0xFF8 2]).st = 0 := by
  decide

theorem flexcomm_lines_coherent_baud : (run (flexcommNext idlePeers.alone) (powerOn ())
      [.write 0xFF8 1, .write 0x10 0x00800000]).lines.dmaReqTx = true :=
  (flexcomm_lines_coherent idlePeers.alone () [.write 0xFF8 1, .write 0x10 0x00800000]
    ⟨fun l _ => by cases l <;> decide, fun _ h => absurd h (by decide),
      trivial⟩).2.1.trans (by decide)

end Mcxn947.Flexcomm
