import Mcxn947.FlexioModel
import Mcxn947.NarrowWrites

/-!
# Bit order of FlexIO SPI transfers

A shifter has two buffer registers: `SHIFTBUFBIS` shows a byte most significant bit first, as
it is on the wire, and `SHIFTBUF` shows it reversed.
-/

namespace Mcxn947.Flexio

open MachineWords BusAccesses BitVec FlexioState RegFile RegWrite

/-- The buffer register of a shifter under one of its two names. -/
def port (bis : Bool) (i : ℕ) : ℕ := (if bis then rShiftbufbis else rShiftbuf) + i * 4

def received (s : FlexioState) (w : RegWrite) (miso : Byte) : FlexioState :=
  flexioStep s (.write w miso)

/-- What a byte written to a transmit shifter does: one transfer, and both names of the receive
shifter's buffer show the answer `miso` in their own order. -/
structure Exchanged (s : FlexioState) (bis : Bool) (r : ℕ) (w : RegWrite) (miso : Byte) : Prop where
  wire : (received s w miso).mosi =
    s.mosi ++ [if bis then w.value.setWidth 8 else (w.value.setWidth 8).reverse]
  straight : ∀ width : Width,
    (mcxnFlexioRead (received s w miso) (port true r) width.bytes).1 = miso.setWidth 32
  reversed : ∀ width : Width,
    (mcxnFlexioRead (received s w miso) (port false r) width.bytes).1 = miso.reverse.setWidth 32
  full : ((received s w miso).reg rShiftstat).getLsbD r = true
  consumed : ∀ (name : Bool) (width : Width),
    ((mcxnFlexioRead (received s w miso) (port name r) width.bytes).2.reg rShiftstat).getLsbD r =
      false

variable {s : FlexioState} {bis : Bool} {t r : ℕ} {w : RegWrite}

lemma bitrev8_eq (b : Byte) : flexioBitrev8 b = b.reverse := by
  revert b
  decide

lemma write_port (ht : t < nShifter) (size : ℕ) (value : Word) (miso : Byte) :
    mcxnFlexioWrite s (port bis t) size value miso =
      let v := mergeBytes (s.reg (port bis t)) (port bis t) size value
      mcxnFlexioSpiTx (s.setReg (port bis t) v) t v bis miso := by
  unfold nShifter at ht
  interval_cases t <;> cases bis <;> rfl

lemma read_port (hr : r < nShifter) (size : ℕ) : mcxnFlexioRead s (port bis r) size =
      (readBytes (s.reg (port bis r)) (port bis r) size, flexioConsume s r) := by
  unfold nShifter at hr
  interval_cases r <;> cases bis <;> rfl

section

variable (bis : Bool) (i : ℕ)

lemma port_eq : port bis i = 4 * ((if bis then 160 else 128) + i) := by
  cases bis <;> simp [port, rShiftbuf, rShiftbufbis] <;> omega

lemma port_lane : port bis i % 4 = 0 := by
  rw [port_eq]
  omega

lemma le_port : rShiftbuf ≤ port bis i := by
  rw [port_eq, rShiftbuf]
  split <;> omega

end

lemma low_byte (hlane : w.lane = 0) (old : Word) :
    (mergeBytes old w.off w.width.bytes w.value).setWidth 8 = w.value.setWidth 8 := by
  apply eq_of_getLsbD_eq
  intro i hi
  have hcovered : w.lanes.getLsbD i := by
    rw [w.getLsbD_lanes (by omega), hlane, decide_eq_true_eq]
    cases w.width <;> simp only [Width.bytes] <;> omega
  rw [mergeBytes_eq, getLsbD_setWidth, getLsbD_setWidth,
    getLsbD_merge _ (by omega), if_pos hcovered, placed_of_lane hlane]

lemma smod_setReg {off i : ℕ} (hoff : rShiftbuf ≤ off) (hi : i < nShifter) (v : Word) :
    (s.setReg off v).smod i = s.smod i := by
  have hne : (rShiftctl + i * 4) / 4 ≠ off / 4 := by
    simp only [rShiftctl, rShiftbuf, nShifter] at *
    omega
  simp only [FlexioState.smod, reg, setReg, get_set_of_ne hne]

lemma rxShifter_congr {s t : FlexioState} (h : ∀ i < nShifter, t.smod i = s.smod i) :
    flexioRxShifter t = flexioRxShifter s := by
  have hlist : ∀ l : List ℕ, (∀ i ∈ l, i < nShifter) →
      l.find? (fun i => t.smod i = smodRx) = l.find? fun i => s.smod i = smodRx := by
    intro l hl
    induction l with
    | nil => rfl
    | cons i rest ih =>
      rw [List.find?_cons, List.find?_cons, h i (hl i List.mem_cons_self),
        ih fun j hj => hl j (List.mem_cons_of_mem i hj)]
  exact hlist _ fun i => List.mem_range.mp

/-- The two buffers of the receive shifter after a transfer, and its flag. -/
lemma received_spec (hen : anyBit (s.reg rCtrl) ctrlFlexen) (ht : t < nShifter)
    (htx : s.smod t = smodTx) (hrx : flexioRxShifter s = some r) (hoff : w.off = port bis t)
    (miso : Byte) : (received s w miso).mosi =
      s.mosi ++ [if bis then w.value.setWidth 8 else (w.value.setWidth 8).reverse] ∧
      (∀ name, (received s w miso).reg (port name r) =
      (if name = bis then miso else miso.reverse).setWidth 32) ∧
      (received s w miso).smod r = smodRx ∧ ((received s w miso).reg rShiftstat).getLsbD r := by
  have hr : r < nShifter := List.mem_range.mp (List.mem_of_find?_eq_some hrx)
  have hmode : s.smod r = smodRx := by simpa using List.find?_some hrx
  have hbuf := le_port bis t
  have hctrl : ∀ v, (s.setReg (port bis t) v).reg rCtrl = s.reg rCtrl := by
    intro v
    have hne : rCtrl / 4 ≠ port bis t / 4 := by
      simp only [rCtrl, rShiftbuf] at *
      omega
    exact get_set_of_ne hne _ _
  have hsmod : ∀ v, ∀ i < nShifter, (s.setReg (port bis t) v).smod i = s.smod i :=
    fun v i hi => smod_setReg hbuf hi v
  have hlow := low_byte (w := w) (by rw [lane, hoff]; exact port_lane bis t)
    (s.reg (port bis t))
  rw [hoff] at hlow
  have hwrite : received s w miso = mcxnFlexioWrite s (port bis t) w.width.bytes w.value miso := by
    rw [← hoff]
    rfl
  simp only [write_port ht] at hwrite
  generalize mergeBytes (s.reg (port bis t)) (port bis t) w.width.bytes w.value = v at *
  have hdeposit : ∀ rx mosi, flexioDeposit { s.setReg (port bis t) v with mosi := mosi } rx =
      (({ s.setReg (port bis t) v with mosi := mosi }.setReg (port false r)
        ((flexioBitrev8 rx).setWidth 32)).setReg (port true r) (rx.setWidth 32)).flag r := by
    intro rx mosi
    have hfound : flexioRxShifter { s.setReg (port bis t) v with mosi := mosi } = some r :=
      (rxShifter_congr (hsmod v)).trans hrx
    rw [flexioDeposit, hfound]
    rfl
  rw [mcxnFlexioSpiTx, if_neg (by simp [hctrl, hen]),
    if_neg (by simp [hsmod v t ht, htx])] at hwrite
  simp only [hdeposit, hlow] at hwrite
  -- the status register, the two buffers and the mode of the shifter are four registers
  have hstat : ∀ name, port name r / 4 ≠ rShiftstat / 4 := by
    intro name
    have hle := le_port name r
    simp only [rShiftbuf, rShiftstat] at *
    omega
  have hpair : port false r / 4 ≠ port true r / 4 := by simp [port_eq]
  have hctl : (rShiftctl + r * 4) / 4 ≠ rShiftstat / 4 := by
    simp only [rShiftctl, rShiftstat]
    omega
  refine ⟨?_, fun name => ?_, ?_, ?_⟩
  · rw [hwrite, ← bitrev8_eq]
    rfl
  · rw [hwrite]
    cases name <;> cases bis <;> simp [mcxnFlexioUpdateIrq, flag, reg,
      setReg, get_set, hstat, hpair, bitrev8_eq]
  · have hflag : ∀ (u : FlexioState) i, (mcxnFlexioUpdateIrq (u.flag i)).smod r = u.smod r ∧
        (u.flag i).smod r = u.smod r := by
      intro u i
      simp [FlexioState.smod, mcxnFlexioUpdateIrq, flag, reg, setReg, get_set, hctl]
    rw [hwrite, (hflag _ t).1, (hflag _ r).2, smod_setReg (le_port _ r) hr,
      smod_setReg (le_port _ r) hr]
    exact (hsmod v r hr).trans hmode
  have hr32 : r < 32 := hr.trans (by decide)
  rw [hwrite]
  simp [mcxnFlexioUpdateIrq, flag, reg, setReg, hr32]

/-- The names show the answer in their own order exactly if the byte went out through
`SHIFTBUFBIS`, or the answer reads the same both ways. -/
theorem bit_order_iff (hen : anyBit (s.reg rCtrl) ctrlFlexen = true) (ht : t < nShifter)
    (htx : s.smod t = smodTx) (hrx : flexioRxShifter s = some r) (hoff : w.off = port bis t)
    (miso : Byte) : Exchanged s bis r w miso ↔ bis = true ∨ miso.reverse = miso := by
  have hr : r < nShifter := List.mem_range.mp (List.mem_of_find?_eq_some hrx)
  obtain ⟨hwire, hreg, hmode, hfull⟩ := received_spec hen ht htx hrx hoff miso
  have hread : ∀ name (width : Width),
      (mcxnFlexioRead (received s w miso) (port name r) width.bytes).1 =
        (if name = bis then miso else miso.reverse).setWidth 32 := by
    intro name width
    rw [read_port hr, hreg, readBytes_byte (port_lane name r)]
  have hinj : ∀ a b : Byte, a.setWidth 32 = b.setWidth 32 ↔ a = b := by
    intro a b
    simp [toNat_eq]
    omega
  have hconsumed : ∀ (name : Bool) (width : Width),
      ((mcxnFlexioRead (received s w miso) (port name r) width.bytes).2.reg rShiftstat).getLsbD r =
        false := by
    intro name width
    have hr32 : r < 32 := hr.trans (by decide)
    rw [read_port hr, flexioConsume, if_pos hmode]
    simp [mcxnFlexioUpdateIrq, reg, setReg, hr32]
  constructor
  · intro h
    have hstraight := h.straight .byte
    rw [hread, hinj] at hstraight
    cases bis
    · exact .inr hstraight
    · exact .inl rfl
  intro h
  refine ⟨hwire, fun width => ?_, fun width => ?_, hfull, hconsumed⟩
  · rw [hread, hinj]
    split
    · rfl
    · exact h.resolve_left (by simp_all)
  rw [hread, hinj]
  split
  · exact (h.resolve_left (by simp_all)).symm
  · rfl

/-- Shifter 0 transmits and shifter 1 receives. -/
def wired : FlexioState :=
  ((FlexioState.powerOn.setReg rCtrl 1).setReg rShiftctl 2).setReg (rShiftctl + 4) 1

def byteTo (bis : Bool) : RegWrite := ⟨port bis 0, .byte, 0xA5, Nat.mod_one _, by decide⟩

theorem straight_byte_exchanged : Exchanged wired true 1 (byteTo true) 0x80 :=
  (bit_order_iff (by decide) (by decide) (by decide) (by decide) rfl 0x80).mpr (.inl rfl)

/-- After a write to `SHIFTBUF`, `SHIFTBUFBIS` shows the answer `0x80` reversed. -/
theorem plain_write_swaps_names : ¬ Exchanged wired false 1 (byteTo false) 0x80 ∧
    (mcxnFlexioRead (received wired (byteTo false) 0x80) (port true 1) 1).1 = 0x01 :=
  ⟨fun h => absurd (h.straight .byte) (by decide), by decide⟩

end Mcxn947.Flexio
