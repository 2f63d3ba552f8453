import Mcxn947.EnetModel
import Mcxn947.UsdhcTransfer
import Mcxn947.FlexcommLines
import Mcxn947.PdmModel

/-!
# Software reset against device reset

Four blocks let the guest reset them with a register bit.  Each implements that apart from
the device's reset handler.
-/

namespace Mcxn947

open MachineWords

namespace Enet

open EnetState

variable (x : Controller) (v : Word)

def ReadsReset : Prop :=
  ∀ off size, off / 4 ≠ 0x400 → enetRead x.st off size = enetRead (mcxnEnetReset x).st off size

def softReset : Controller := enetWrite x 0x1000 4 v

structure Resets (x : Controller) (v : Word) : Prop where
  reads : ReadsReset (softReset x v)
  irq : (softReset x v).st.irq = false
  deaf : ∀ frame, mcxnEnetDeliver (softReset x v) frame = (softReset x v, false)
  silent : mcxnEnetTxProcess (softReset x v) = softReset x v

lemma softReset_eq :
    softReset x v = { x with st := x.st.setReg rDmaMode (v &&& ~~~dmaModeSwr) } := by
  have hwrite := write_word x rDmaMode v
  exact hwrite

lemma read_word (s : EnetState) (r : RegIdx) : enetRead s (4 * r) 4 = enetRegValue s r := by
  have hlt : 4 * r.val < 0x2000 := by omega
  have hreg : (⟨4 * r.val / 4, by omega⟩ : RegIdx) = r :=
    Fin.ext (Nat.mul_div_cancel_left _ (by decide))
  simp only [enetRead, hlt, dif_pos, hreg, Nat.mul_mod_right, Nat.mul_zero, laneMask, if_true,
    BitVec.ushiftRight_zero]
  exact BitVec.and_allOnes

lemma read_softReset {off : ℕ} (size : ℕ) (hoff : off / 4 ≠ 0x400) :
    enetRead (softReset x v).st off size = enetRead x.st off size := by
  have hother : ∀ r : RegIdx, r ≠ rDmaMode → (softReset x v).st.regs r = x.st.regs r := by
    intro r hr
    simp [softReset_eq, setReg, hr]
  rw [enetRead, enetRead]
  split
  · have hne : (⟨off / 4, by omega⟩ : RegIdx) ≠ rDmaMode := fun h =>
      hoff (congrArg Fin.val h)
    simp only [enetRegValue, hother _ hne, hother rStatus (by decide), hother rIntEn (by decide)]
  · rfl

lemma ReadsReset.off {x : Controller} (h : ReadsReset x) :
    anyBit (x.st.regs rMacConfiguration) macCfgRe = false ∧
      anyBit (x.st.regs rMacConfiguration) macCfgTe = false := by
  have hcfg := h 0 4 (by decide)
  have hvalue : x.st.regs rMacConfiguration = 0x8000 := by
    calc x.st.regs rMacConfiguration = enetRead x.st 0 4 :=
          (read_word x.st rMacConfiguration).symm
      _ = enetRead (mcxnEnetReset x).st 0 4 := hcfg
      _ = (mcxnEnetReset x).st.regs rMacConfiguration :=
          read_word (mcxnEnetReset x).st rMacConfiguration
      _ = 0x8000 := rfl
  rw [hvalue]
  decide

lemma resets_iff : Resets x v ↔ ReadsReset x ∧ x.st.irq = false := by
  have hsame : ReadsReset (softReset x v) ↔ ReadsReset x := by
    refine forall_congr' fun off => forall_congr' fun size => forall_congr' fun hoff => ?_
    rw [read_softReset x v size hoff]
    rfl
  have hirq : (softReset x v).st.irq = x.st.irq := by rw [softReset_eq]; rfl
  constructor
  · intro h
    exact ⟨hsame.mp h.reads, hirq ▸ h.irq⟩
  rintro ⟨hreads, hlow⟩
  have hoff := (hsame.mpr hreads).off
  refine ⟨hsame.mpr hreads, hirq.trans hlow, fun frame => ?_, ?_⟩
  · rw [mcxnEnetDeliver, if_pos (by simp [rxEnabled, hoff.1])]
  · rw [mcxnEnetTxProcess, if_pos (by simp [txEnabled, hoff.2])]

end Enet

namespace Usdhc

variable {κ : Type} (bus : SdBus κ)

variable (u : Controller κ)

def ReadsResetAt (off : ℕ) : Prop :=
  (mcxnUsdhcRead bus u off).1 = (mcxnUsdhcRead bus (mcxnUsdhcReset u) off).1

def softReset (v : Word) : Controller κ := mcxnUsdhcWrite bus u 0x2C v

structure Resets (u : Controller κ) (v : Word) : Prop where
  reads : ∀ off < 0x1000, off / 4 ≠ 0x0B → ReadsResetAt bus (softReset bus u v) off
  irq : (softReset bus u v).st.irq = false
  quiet : ∀ accesses, (portAccesses bus (softReset bus u v) accesses).wire.exchanged =
    (softReset bus u v).wire.exchanged

variable {v : Word}

lemma softReset_eq (hv : anyBit v sysCtrlRsta) : softReset bus u v =
      ⟨mcxnUsdhcUpdateIrq ((u.st.setReg 0x0B (v &&& ~~~sysCtrlSelfClear)).setReg rIntStatus 0),
      u.wire, u.completions⟩ := by
  have hany : anyBit v (sysCtrlRsta ||| sysCtrlRstc ||| sysCtrlRstd) := by
    obtain ⟨i, hi, hmask⟩ := anyBit_iff.mp hv
    exact anyBit_iff.mpr ⟨i, hi, by simp [hmask]⟩
  rw [softReset, mcxnUsdhcWrite, dif_pos (by decide)]
  simp only [if_neg (show ¬ readOnly 0x2C = true by decide), if_true, hany]
  rfl

lemma portAdvance_exchanged (card : κ) :
    (portAdvance u card).wire.exchanged = u.wire.exchanged + 4 := by
  simp only [portAdvance]
  split <;> rfl

lemma quiet_iff : (∀ accesses, (portAccesses bus u accesses).wire.exchanged = u.wire.exchanged) ↔
      u.st.dataLen = 0 := by
  constructor
  · intro h
    by_contra hlen
    obtain ⟨a, card, hstep⟩ := exists_portStep_armed bus hlen
    have hmoved := h [a]
    rw [portAccesses, EventRuns.run_cons, EventRuns.run_nil, hstep, portAdvance_exchanged] at hmoved
    omega
  · intro hlen accesses
    rw [portAccesses_idle bus hlen]

lemma read_congr {u v : Controller κ} {off : ℕ} (hlen : u.st.dataLen = v.st.dataLen)
    (hdir : u.st.dataRead = v.st.dataRead) (hcard : u.wire.card = v.wire.card)
    (hreg : ∀ h : off < 0x1000,
      u.st.regs ⟨off / 4, div_four_lt h⟩ = v.st.regs ⟨off / 4, div_four_lt h⟩) :
    (mcxnUsdhcRead bus u off).1 = (mcxnUsdhcRead bus v off).1 := by
  have hport : (portRead bus u).1 = (portRead bus v).1 := by
    rw [portRead, portRead, hlen, hdir, hcard]
    split <;> rfl
  have hvalue : (if h : off < 0x1000 then u.st.regs ⟨off / 4, div_four_lt h⟩ else (0 : Word)) =
      if h : off < 0x1000 then v.st.regs ⟨off / 4, div_four_lt h⟩ else 0 := by
    split
    next h => exact hreg h
    · rfl
  simp only [mcxnUsdhcRead, hvalue, hcard, apply_ite Prod.fst, hport]

lemma resets_iff (hv : anyBit v sysCtrlRsta) : Resets bus u v ↔ u.st.dataLen = 0 ∧
      ∀ off < 0x1000, off / 4 ≠ 0x0B → off / 4 ≠ 0x0C → ReadsResetAt bus u off := by
  have hstate := softReset_eq bus u hv
  have hlen : (softReset bus u v).st.dataLen = u.st.dataLen := by rw [hstate]; rfl
  -- elsewhere the software reset changes no read, nor what the device reset gives
  have hother : ∀ off < 0x1000, off / 4 ≠ 0x0B → off / 4 ≠ 0x0C →
      (ReadsResetAt bus (softReset bus u v) off ↔ ReadsResetAt bus u off) := by
    intro off hoff hsys hint
    have hread : (mcxnUsdhcRead bus (softReset bus u v) off).1 = (mcxnUsdhcRead bus u off).1 := by
      rw [hstate]
      refine read_congr bus ?_ ?_ ?_ fun _ => ?_
      · rfl
      · rfl
      · rfl
      have hsys' : (⟨off / 4, by omega⟩ : RegIdx) ≠ 0x0B := fun h => hsys (congrArg Fin.val h)
      have hint' : (⟨off / 4, by omega⟩ : RegIdx) ≠ rIntStatus := fun h =>
        hint (congrArg Fin.val h)
      simp [mcxnUsdhcUpdateIrq, UsdhcState.setReg, hsys', hint']
    have hreset : (mcxnUsdhcRead bus (mcxnUsdhcReset (softReset bus u v)) off).1 =
        (mcxnUsdhcRead bus (mcxnUsdhcReset u) off).1 := by
      rw [hstate]
      exact read_congr bus rfl rfl rfl fun _ => rfl
    rw [ReadsResetAt, ReadsResetAt, hread, hreset]
  constructor
  · intro h
    refine ⟨hlen ▸ (quiet_iff bus _).mp h.quiet, fun off hoff hsys hint => ?_⟩
    exact (hother off hoff hsys hint).mp (h.reads off hoff hsys)
  rintro ⟨hidle, hreads⟩
  refine ⟨fun off hoff hsys => ?_, ?_, (quiet_iff bus _).mpr (hlen.trans hidle)⟩
  · by_cases hint : off / 4 = 0x0C
    · -- the interrupt status is cleared by both
      rw [hstate]
      obtain ⟨hlo, hhi⟩ : 0x30 ≤ off ∧ off < 0x34 := by omega
      interval_cases off <;> rfl
    · exact (hother off hoff hsys hint).mpr (hreads off hoff hsys hint)
  · rw [hstate]
    simp [mcxnUsdhcUpdateIrq, UsdhcState.setReg]

end Usdhc

namespace Flexcomm

variable {π : Type}

variable (p : Peers π) (y : Device π)

def softReset (rst clear : Word) : Device π :=
  mcxnLpuartWrite p (mcxnLpuartWrite p y 0x08 rst) 0x08 clear

structure Resets (p : Peers π) (y : Device π) (rst clear : Word) : Prop where
  reads : ∀ r, r ≠ LpuartReg.global →
    (lpuartRead p (softReset p y rst clear) (some r)).2 =
      (lpuartRead p ((softReset p y rst clear).modify mcxnLpuartReset) (some r)).2
  irq : (softReset p y rst clear).lines.irq = false
  dmaTx : (softReset p y rst clear).lines.dmaReqTx = false
  dmaRx : (softReset p y rst clear).lines.dmaReqRx = false

lemma updateIrq_config : (mcxnFlexcommUpdateIrq p y).st.baud = y.st.baud ∧
      (mcxnFlexcommUpdateIrq p y).st.pselid = y.st.pselid := by
  simp only [mcxnFlexcommUpdateIrq, mcxnFlexcommUpdateDma, updateDmaRx, updateDmaTx]
  split_ifs <;> exact ⟨rfl, rfl⟩

lemma write_global {y : Device π} (h : y.st.persel = .lpuart)
    (value : Word) : mcxnLpuartWrite p y 0x08 value = lpuartWriteGlobal p y value := by
  rw [mcxnLpuartWrite, if_neg (by decide), if_neg (by decide), h]
  rfl

variable {clear rst : Word}

lemma softReset_baud {y : Device π} (hpersel : y.st.persel = .lpuart) (hrst : anyBit rst globalRst)
    (hclear : anyBit clear globalRst = false) : (softReset p y rst clear).st.baud = 0 := by
  have hfirst := write_global p hpersel rst
  rw [lpuartWriteGlobal, hrst, if_pos rfl] at hfirst
  obtain ⟨hbaud, hpselid⟩ := updateIrq_config p
    ((y.modify fun s => { s with global := rst }).modify fun s =>
      { s with
        ctrl := 0, baud := 0, fifo := 0, water := 0, rxHead := 0, rxCount := 0, statOr := 0 })
  rw [← hfirst] at hbaud hpselid
  have hpersel' : (mcxnLpuartWrite p y 0x08 rst).st.persel = .lpuart := by
    rw [FlexcommState.persel, hpselid]
    exact hpersel
  rw [softReset, write_global p hpersel', lpuartWriteGlobal, hclear]
  exact hbaud

lemma not_resets (hpersel : y.st.persel = .lpuart) (hrst : anyBit rst globalRst)
    (hclear : anyBit clear globalRst = false) : ¬ Resets p y rst clear := by
  intro h
  have hbaud : (softReset p y rst clear).st.baud = lpuartBaudReset := h.reads .baud (by decide)
  rw [softReset_baud p hpersel hrst hclear] at hbaud
  exact absurd hbaud (by decide)

end Flexcomm

namespace Pdm

def softReset (s : PdmState) (v : Word) : PdmState := mcxnPdmWrite s 0x00 4 v

structure Resets (s : PdmState) (v : Word) : Prop where
  reads : ∀ off < 0x1000, off / 4 ≠ 0 →
    (mcxnPdmRead (softReset s v) off).1 = (mcxnPdmRead (mcxnPdmReset (softReset s v)) off).1
  irq : (softReset s v).irq = false
  dmaReq : (softReset s v).dmaReq = false
  empty : ∀ n, (softReset s v).fifo n = []

lemma not_resets (s : PdmState) {v : Word} (hv : anyBit v ctrl1Sres) : ¬ Resets s v := by
  intro h
  have hzero : (mcxnPdmRead (softReset s v) 0x10).1 = 0 := by
    have hstate : softReset s v =
        pdmUpdateIrq (pdmUpdateDmaReq (pdmFlushFifos { s with regs := fun _ => 0 })) := by
      rw [softReset, mcxnPdmWrite, dif_pos (by decide), if_neg (by decide), if_pos rfl,
        pdmWriteCtrl1, if_pos hv]
    rw [hstate]
    simp only [pdmUpdateDmaReq]
    split <;> rfl
  have hread := h.reads 0x10 (by decide) (by decide)
  rw [hzero] at hread
  exact absurd hread (by decide : (0 : Word) ≠ 0x0F)

end Pdm

/-- A software reset equals the device reset, for ENET exactly where every register
already reads its reset value and the line is low, for the uSDHC exactly where every
register but `SYS_CTRL` and `INT_STATUS` does and no PIO phase is armed, and for the
LPUART and the PDM nowhere. -/
theorem software_reset_iff {κ π : Type} (bus : Usdhc.SdBus κ) (p : Flexcomm.Peers π)
    (x : Enet.Controller) (u : Usdhc.Controller κ) (y : Flexcomm.Device π)
    (s : Pdm.PdmState) (swr rsta rst clear sres : Word)
    (hrsta : anyBit rsta Usdhc.sysCtrlRsta = true)
    (hpersel : y.st.persel = .lpuart) (hrst : anyBit rst Flexcomm.globalRst = true)
    (hclear : anyBit clear Flexcomm.globalRst = false)
    (hsres : anyBit sres Pdm.ctrl1Sres = true) :
    (Enet.Resets x swr ↔ Enet.ReadsReset x ∧ x.st.irq = false) ∧
    (Usdhc.Resets bus u rsta ↔ u.st.dataLen = 0 ∧
      ∀ off < 0x1000, off / 4 ≠ 0x0B → off / 4 ≠ 0x0C → Usdhc.ReadsResetAt bus u off) ∧
    ¬ Flexcomm.Resets p y rst clear ∧
    ¬ Pdm.Resets s sres :=
  ⟨Enet.resets_iff x swr, Usdhc.resets_iff bus u hrsta,
    Flexcomm.not_resets p y hpersel hrst hclear, Pdm.not_resets s hsres⟩

def Usdhc.atReset : Usdhc.Controller Unit :=
  Usdhc.mcxnUsdhcReset ⟨⟨fun _ => 0, 0, 0, false, false⟩, ⟨(), fun _ => 0, fun _ => true, 0⟩, []⟩

def Pdm.atReset : Pdm.PdmState :=
  Pdm.mcxnPdmReset ⟨fun _ => 0, fun _ => [], false, false, false, false⟩

/-- The uSDHC, with an interrupt pending. -/
def Usdhc.statusSet : Usdhc.Controller Unit :=
  { Usdhc.atReset with st := Usdhc.atReset.st.setReg Usdhc.rIntStatus 1 }

theorem software_reset_status_set :
    Enet.Resets (Enet.Controller.powerOn fun _ => 0) Enet.dmaModeSwr ∧
    Usdhc.Resets Usdhc.quietBus Usdhc.statusSet Usdhc.sysCtrlRsta ∧
    ¬ Flexcomm.Resets Flexcomm.idlePeers.alone (Flexcomm.Device.powerOn ()) Flexcomm.globalRst 0 ∧
    ¬ Pdm.Resets Pdm.atReset Pdm.ctrl1Sres := by
  obtain ⟨henet, husdhc, hlpuart, hpdm⟩ := software_reset_iff Usdhc.quietBus
    Flexcomm.idlePeers.alone (Enet.Controller.powerOn fun _ => 0) Usdhc.statusSet
    (Flexcomm.Device.powerOn ()) Pdm.atReset Enet.dmaModeSwr Usdhc.sysCtrlRsta
    Flexcomm.globalRst 0 Pdm.ctrl1Sres (by decide) (by decide) (by decide) (by decide)
    (by decide)
  refine ⟨henet.mpr ⟨fun _ _ _ => rfl, rfl⟩, husdhc.mpr ⟨rfl, fun _ _ _ hint => ?_⟩, hlpuart, hpdm⟩
  refine Usdhc.read_congr _ rfl rfl rfl fun _ => ?_
  exact Function.update_of_ne (fun h => hint (congrArg Fin.val h)) _ _

theorem software_reset_keeps_state :
    ¬ Enet.Resets (Enet.enetWrite (Enet.Controller.powerOn fun _ => 0) 0 4 Enet.macCfgRe)
      Enet.dmaModeSwr ∧
    ¬ Usdhc.Resets Usdhc.quietBus (Usdhc.mcxnUsdhcWrite Usdhc.quietBus Usdhc.atReset 0x04 0x200)
      Usdhc.sysCtrlRsta ∧
    ¬ Flexcomm.Resets Flexcomm.idlePeers.alone (Flexcomm.Device.powerOn ()) Flexcomm.globalRst 0 ∧
    ¬ Pdm.Resets Pdm.atReset Pdm.ctrl1Sres := by
  refine ⟨fun h => ?_, fun h => ?_, ?_, Pdm.not_resets Pdm.atReset (by decide)⟩
  · have hread := h.reads 0 4 (by decide)
    revert hread
    decide
  · have hread := h.reads 0x04 (by decide) (by decide)
    revert hread
    simp only [Usdhc.ReadsResetAt]
    decide
  · exact Flexcomm.not_resets _ _ (by decide) (by decide) (by decide)

end Mcxn947
