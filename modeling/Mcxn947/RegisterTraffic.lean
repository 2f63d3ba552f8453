import Mcxn947.CmpModel
import Mcxn947.FlexioModel
import Mcxn947.I3cModel
import Mcxn947.NarrowRtcRegisters

/-!
# Interrupt lines under register traffic

The comparator, the I3C controller, the FlexIO block and the microphone interface drive
their interrupt line when they evaluate its condition.
-/

namespace Mcxn947.RegisterTraffic

open MachineWords LevelLines BusAccesses EventRuns List

section Cmp

open Cmp CmpState RegFile

variable (s : CmpState)

def CmpKeeps : CmpEvent → Prop
  | .write idx v => 4 * idx = cmpCcr1 → anyBit v ccr1DmaEn = s.dmaEn ∨ s.pending = false
  | _ => True

def CmpInStep : CmpState → Prop := InStep irq interrupts

lemma cmp_interrupts_setReg {off : ℕ} (hcsr : cmpCsr / 4 ≠ off / 4) (hier : cmpIer / 4 ≠ off / 4)
    (hccr1 : cmpCcr1 / 4 ≠ off / 4) (s : CmpState) (v : Word) :
    (s.setReg off v).interrupts = s.interrupts := by
  simp only [interrupts, pending, dmaEn, reg, setReg, get_set_of_ne hcsr, get_set_of_ne hier,
    get_set_of_ne hccr1]

lemma cmp_interrupts_setCcr1 (v : Word) :
    (s.setReg cmpCcr1 v).interrupts = (s.pending && !anyBit v ccr1DmaEn) := by
  have hcsr : cmpCsr / 4 ≠ cmpCcr1 / 4 := by decide
  have hier : cmpIer / 4 ≠ cmpCcr1 / 4 := by decide
  simp only [interrupts, pending, dmaEn, reg, setReg, get_set_of_ne hcsr, get_set_of_ne hier,
    get_set_self]

lemma cmpUpdateIrq_tracks (s t : CmpState) {safe : Prop} (hsafe : safe) :
    Tracks irq interrupts s (mcxnCmpUpdateIrq t) safe :=
  .driven rfl hsafe

lemma cmpKeeps_of_ne {idx : ℕ} (h : 4 * idx ≠ cmpCcr1) (s : CmpState) (v : Word) :
    CmpKeeps s (.write idx v) :=
  fun hccr1 => absurd hccr1 h

lemma cmpSetReg_tracks (idx : ℕ) (v : Word) (hcsr : 4 * idx ≠ cmpCsr) (hier : 4 * idx ≠ cmpIer) :
    Tracks irq interrupts s (s.setReg (4 * idx) v) (CmpKeeps s (.write idx v)) := by
  by_cases hccr1 : 4 * idx = cmpCcr1
  · refine .silent rfl ?_
    rw [hccr1, cmp_interrupts_setCcr1]
    simp only [CmpKeeps, hccr1, forall_const, interrupts]
    cases s.pending <;> cases s.dmaEn <;> cases anyBit v ccr1DmaEn <;> decide
  refine .idle rfl ?_ (cmpKeeps_of_ne hccr1 s v)
  simp only [cmpCsr, cmpIer, cmpCcr1] at hcsr hier hccr1
  apply cmp_interrupts_setReg
  · simp only [cmpCsr]
    omega
  · simp only [cmpIer]
    omega
  · simp only [cmpCcr1]
    omega

lemma cmpWrite_tracks (idx : ℕ) (v : Word) : Tracks irq interrupts s (mcxnCmpWrite s (4 * idx) v)
      (CmpKeeps s (.write idx v)) := by
  have hother {off : ℕ} (h : 4 * idx = off) (hoff : off ≠ cmpCcr1) : CmpKeeps s (.write idx v) :=
    cmpKeeps_of_ne (h.trans_ne hoff) s v
  unfold mcxnCmpWrite
  split
  next hro => exact .idle rfl rfl (hro.elim (hother · (by decide)) (hother · (by decide)))
  split
  next hcsr => exact cmpUpdateIrq_tracks s _ (hother hcsr (by decide))
  split
  next hier => exact cmpUpdateIrq_tracks s _ (hother hier (by decide))
  split
  next hrrcr0 =>
    have hkept : (s.setReg cmpRrcr0 v).interrupts = s.interrupts :=
      cmp_interrupts_setReg (by decide) (by decide) (by decide) s v
    have hsafe := hother hrrcr0 (by decide)
    dsimp only
    split <;> exact .idle rfl hkept hsafe
  next hcsr hier _ => exact cmpSetReg_tracks s idx v hcsr hier

lemma cmpHwTrigger_tracks (level : Bool) : Tracks irq interrupts s (cmpHwTrigger s level) True := by
  unfold cmpHwTrigger
  dsimp only
  split
  · exact .idle rfl rfl trivial
  split
  · exact cmpUpdateIrq_tracks s _ trivial
  · refine .idle rfl ?_ trivial
    exact cmp_interrupts_setReg (by decide) (by decide) (by decide) s _

lemma cmpReset_interrupts : (mcxnCmpReset s).interrupts = false := by
  have hcsr : (mcxnCmpReset s).reg cmpCsr = 0 := get_set_of_ne (by decide) _ _
  simp [interrupts, pending, hcsr]

lemma cmpStep_tracks (e : CmpEvent) : Tracks irq interrupts s (cmpStep s e) (CmpKeeps s e) := by
  cases e with
  | read idx =>
    have hread : (mcxnCmpRead s (4 * idx)).2 = s := by
      unfold mcxnCmpRead
      split_ifs <;> rfl
    simp only [cmpStep, hread]
    exact .idle rfl rfl trivial
  | write idx v => exact cmpWrite_tracks s idx v
  | output level => exact cmpUpdateIrq_tracks s _ trivial
  | trigger level => exact cmpHwTrigger_tracks s level
  | reset => exact .driven (cmpReset_interrupts s).symm trivial

end Cmp

section I3c

open I3c I3cState RegFile

variable (s : I3cState)

def I3cKeeps : I3cEvent → Prop
  | .read off _ => off < i3cSize → IsData off → s.rxPos + 1 = s.rxCount →
      anyBit s.pend mstatusRxpend = false
  | _ => True

def i3cLine : Bool × Word := (s.irq, (mcxnI3cRead s rMintmasked 4).1)

def i3cWanted : Bool × Word := (s.pend != 0, s.pend)

def I3cInStep : I3cState → Prop := InStep i3cLine i3cWanted

lemma i3cLine_eq : i3cLine s = (s.irq, s.reg rMintmasked) := by
  have hbytes : ∀ v : Word, readBytes v rMintmasked 4 = v := by
    intro v
    have hmask : byteMask 0 4 = BitVec.allOnes 32 := by decide
    have hshift : rMintmasked % 4 * 8 = 0 := by decide
    rw [readBytes, hmask, hshift, BitVec.and_allOnes]
    exact BitVec.ushiftRight_zero v
  have hread : (mcxnI3cRead s rMintmasked 4).1 = readBytes (s.reg rMintmasked) rMintmasked 4 := rfl
  rw [i3cLine, hread, hbytes]

variable {safe : Prop}

lemma i3cUpdateIrq_tracks (s t : I3cState) (hsafe : safe) :
    Tracks i3cLine i3cWanted s (mcxnI3cUpdateIrq t) safe := by
  have hpend : (mcxnI3cUpdateIrq t).pend = t.pend := by
    have hstatus : rMstatus / 4 ≠ rMintmasked / 4 := by decide
    have hset : rMintset / 4 ≠ rMintmasked / 4 := by decide
    simp only [pend, reg, mcxnI3cUpdateIrq, setReg, get_set_of_ne hstatus, get_set_of_ne hset]
  have hmasked : (mcxnI3cUpdateIrq t).reg rMintmasked = t.pend := get_set_self _ _ _
  refine .driven ?_ hsafe
  rw [i3cLine_eq, hmasked, i3cWanted, hpend]
  rfl

structure I3cQuiet (s t : I3cState) : Prop where
  irq : t.irq = s.irq
  status : t.reg rMstatus = s.reg rMstatus
  set : t.reg rMintset = s.reg rMintset
  masked : t.reg rMintmasked = s.reg rMintmasked

lemma I3cQuiet.tracks {s t : I3cState} (h : I3cQuiet s t) (hsafe : safe) :
    Tracks i3cLine i3cWanted s t safe := by
  refine .idle ?_ ?_ hsafe
  · rw [i3cLine_eq, i3cLine_eq, h.irq, h.masked]
  · rw [i3cWanted, i3cWanted, pend, pend, h.status, h.set]

lemma i3cSetReg_quiet {off : ℕ} (hstatus : rMstatus / 4 ≠ off / 4) (hset : rMintset / 4 ≠ off / 4)
    (hmasked : rMintmasked / 4 ≠ off / 4) (s : I3cState) (v : Word) :
    I3cQuiet s (s.setReg off v) where
  irq := rfl
  status := get_set_of_ne hstatus _ _
  set := get_set_of_ne hset _ _
  masked := get_set_of_ne hmasked _ _

lemma i3c_pend_clear (flags : Word) :
    (s.setReg rMstatus (s.reg rMstatus &&& ~~~flags)).pend = s.pend &&& ~~~flags := by
  have hset : rMintset / 4 ≠ rMstatus / 4 := by decide
  simp only [pend, reg, setReg, get_set_self, RegFile.get_set_of_ne hset]
  rw [BitVec.and_assoc, BitVec.and_comm (~~~flags), BitVec.and_assoc]

lemma i3cPop_tracks : Tracks i3cLine i3cWanted s (i3cPop s).2
      (s.rxPos + 1 = s.rxCount → anyBit s.pend mstatusRxpend = false) := by
  unfold i3cPop
  split
  next hwaits =>
    have hquiet : I3cQuiet s { s with rxPos := s.rxPos + 1 } := ⟨rfl, rfl, rfl, rfl⟩
    dsimp only
    split
    next hlast =>
      have hone : s.rxPos + 1 = s.rxCount := by omega
      refine .silent ?_ ?_
      · rw [i3cLine_eq, i3cLine_eq]
        exact congrArg (Prod.mk s.irq) (get_set_of_ne (by decide) _ _)
      have hpend := i3c_pend_clear { s with rxPos := s.rxPos + 1 } mstatusRxpend
      rw [i3cWanted, hpend, i3cWanted, Prod.mk.injEq, ← and_not_eq_self_iff]
      exact ⟨fun h _ => h.2, fun h => ⟨congrArg (· != 0) (h hone), h hone⟩⟩
    next hmore => exact hquiet.tracks fun h => by omega
  · exact .idle rfl rfl fun h => by omega

lemma i3cRead_tracks (off : ℕ) (width : Width) :
    Tracks i3cLine i3cWanted s (mcxnI3cRead s off width.bytes).2
      (I3cKeeps s (.read off width)) := by
  unfold mcxnI3cRead
  split
  · exact .idle rfl rfl fun h => by omega
  split
  next hin hdata =>
    have h := i3cPop_tracks s
    simpa only [I3cKeeps, Nat.not_le.mp hin, hdata, forall_const] using h
  next hdata => exact .idle rfl rfl fun _ h => absurd h hdata

lemma i3cRequest_tracks (s t : I3cState) (h : I3cQuiet s t) (v : Word) (reply : I2cReply) :
    Tracks i3cLine i3cWanted s (i3cRequest t v reply) True := by
  unfold i3cRequest i3cStart
  dsimp only
  split
  · split <;> exact i3cUpdateIrq_tracks s _ trivial
  split
  · exact i3cUpdateIrq_tracks s _ trivial
  split
  · exact h.tracks trivial
  · exact i3cUpdateIrq_tracks s _ trivial

lemma i3cWrite_tracks (off size : ℕ) (v : Word) (reply : I2cReply) :
    Tracks i3cLine i3cWanted s (mcxnI3cWrite s off size v reply) True := by
  unfold mcxnI3cWrite
  dsimp only
  split
  · exact .idle rfl rfl trivial
  rename_i hplain
  have hmasked : rMintmasked / 4 ≠ off / 4 := by
    intro h
    exact hplain (.inr (by rw [← h]; decide))
  split
  next hflags =>
    refine (i3cSetReg_quiet ?_ ?_ hmasked s _).tracks trivial
    · rcases hflags with h | h | h <;> rw [h] <;> decide
    · rcases hflags with h | h | h <;> rw [h] <;> decide
  split
  · exact i3cUpdateIrq_tracks s _ trivial
  rename_i hstatus
  split
  · exact i3cUpdateIrq_tracks s _ trivial
  rename_i hset
  have hquiet := i3cSetReg_quiet (Ne.symm hstatus) (Ne.symm hset) hmasked s
  split
  · exact i3cUpdateIrq_tracks s _ trivial
  split
  · exact i3cRequest_tracks s _ (i3cSetReg_quiet (by decide) (by decide) (by decide) s _) _ reply
  split
  · exact i3cUpdateIrq_tracks s _ trivial
  split <;> exact (hquiet _).tracks trivial

lemma i3cReset_inStep : I3cInStep (mcxnI3cReset s) := by
  have hset : resetRegs.get rMintset = 0 := by decide
  have hmasked : resetRegs.get rMintmasked = 0 := by decide
  have hpend : (mcxnI3cReset s).pend = 0 := by simp [pend, reg, mcxnI3cReset, hset]
  rw [I3cInStep, InStep, i3cLine_eq, i3cWanted, hpend]
  exact congrArg (Prod.mk false) hmasked

lemma i3cStep_tracks (e : I3cEvent) : Tracks i3cLine i3cWanted s (i3cStep s e) (I3cKeeps s e) := by
  cases e with
  | read off width => exact i3cRead_tracks s off width
  | write w reply => exact i3cWrite_tracks s w.off w.width.bytes w.value reply
  | reset => exact .driven (i3cReset_inStep s) trivial

end I3c

section Flexio

open Flexio FlexioState RegFile

/-- The writes that do not evaluate the line leave its condition as it was. -/
def FlexioKeeps (s : FlexioState) : FlexioEvent → Prop
  | .write w _ =>
    (w.off / 4 = rShiftstat / 4 →
      anyBit (s.reg rShiftstat &&& ~~~writtenBytes w.off w.width.bytes w.value)
        (s.reg rShiftsien) = s.shifts) ∧
    (w.off / 4 = rShiftsien / 4 →
      anyBit (s.reg rShiftstat)
        (mergeBytes (s.reg rShiftsien) w.off w.width.bytes w.value) = s.shifts) ∧
    (w.off / 4 = rCtrl / 4 →
      anyBit (mergeBytes (s.reg rCtrl) w.off w.width.bytes w.value) ctrlSwrst = true →
      s.shifts = false)
  | _ => True

def FlexioInStep : FlexioState → Prop := InStep irq interrupts

def TimersIdle (s : FlexioState) : Prop := s.reg rTimstat = 0

lemma TimersIdle.interrupts {s : FlexioState} (h : TimersIdle s) : s.interrupts = s.shifts := by
  rw [FlexioState.interrupts, h]
  simp

variable {off : ℕ} {safe : Prop} {t : FlexioState}

lemma flexio_reg_setReg_of_ne {off' : ℕ} (h : off' / 4 ≠ off / 4) (s : FlexioState)
    (v : Word) : (s.setReg off v).reg off' = s.reg off' :=
  get_set_of_ne h s.regs v

structure FlexioQuiet (s t : FlexioState) : Prop where
  irq : t.irq = s.irq
  stat : t.reg rShiftstat = s.reg rShiftstat
  sien : t.reg rShiftsien = s.reg rShiftsien
  timers : TimersIdle t

structure FlexioEvaluated (t : FlexioState) : Prop where
  irq : t.irq = t.interrupts
  timers : TimersIdle t

variable {s : FlexioState}

lemma flexioSetReg_quiet (h : TimersIdle s)
    (hstat : rShiftstat / 4 ≠ off / 4) (hsien : rShiftsien / 4 ≠ off / 4)
    (htim : rTimstat / 4 ≠ off / 4) (v : Word) : FlexioQuiet s (s.setReg off v) where
  irq := rfl
  stat := flexio_reg_setReg_of_ne hstat s v
  sien := flexio_reg_setReg_of_ne hsien s v
  timers := (flexio_reg_setReg_of_ne htim s v).trans h

lemma FlexioQuiet.tracks (hs : TimersIdle s) (h : FlexioQuiet s t) (hsafe : safe) :
    Tracks FlexioState.irq FlexioState.interrupts s t safe := by
  refine .idle h.irq ?_ hsafe
  rw [hs.interrupts, h.timers.interrupts, shifts, shifts, h.stat, h.sien]

lemma flexioFlag_timers (h : TimersIdle s) (i : ℕ) : TimersIdle (s.flag i) :=
  (flexio_reg_setReg_of_ne (by decide) s _).trans h

lemma flexioDeposit_timers (h : TimersIdle s) (rx : Byte) : TimersIdle (flexioDeposit s rx) := by
  unfold flexioDeposit
  split
  next i hfound =>
    have hi : i < nShifter := List.mem_range.mp (List.mem_of_find?_eq_some hfound)
    have hbuf : rTimstat / 4 ≠ (rShiftbuf + i * 4) / 4 := by
      simp only [rTimstat, rShiftbuf]
      omega
    have hbis : rTimstat / 4 ≠ (rShiftbufbis + i * 4) / 4 := by
      simp only [rTimstat, rShiftbufbis]
      omega
    refine flexioFlag_timers ?_ i
    exact (flexio_reg_setReg_of_ne hbis _ _).trans ((flexio_reg_setReg_of_ne hbuf s _).trans h)
  · exact h

lemma flexioSpiTx_cases (h : FlexioQuiet s t) (i : ℕ) (v : Word) (bis : Bool) (miso : Byte) :
    FlexioQuiet s (mcxnFlexioSpiTx t i v bis miso) ∨
      FlexioEvaluated (mcxnFlexioSpiTx t i v bis miso) := by
  unfold mcxnFlexioSpiTx
  split
  · exact .inl h
  split
  · exact .inl h
  · refine .inr ⟨rfl, flexioFlag_timers (flexioDeposit_timers ?_ _) i⟩
    exact h.timers

lemma flexioReset_timers (s : FlexioState) : TimersIdle (mcxnFlexioReset s) := rfl

lemma flexioReset_interrupts (s : FlexioState) : (mcxnFlexioReset s).interrupts = false := by
  have hstat : (mcxnFlexioReset s).reg rShiftstat = 0 := rfl
  rw [(flexioReset_timers s).interrupts, shifts, hstat]
  exact anyBit_zero_left _

lemma flexioRead_cases (h : TimersIdle s) (off size : ℕ) :
    FlexioQuiet s (mcxnFlexioRead s off size).2 ∨
      FlexioEvaluated (mcxnFlexioRead s off size).2 := by
  have hself : FlexioQuiet s s := ⟨rfl, rfl, rfl, h⟩
  unfold mcxnFlexioRead
  split
  · exact .inl hself
  dsimp only
  split
  · unfold flexioConsume
    split
    · exact .inr ⟨rfl, (flexio_reg_setReg_of_ne (by decide) s _).trans h⟩
    · exact .inl hself
  · exact .inl hself

inductive FlexioWritten (s : FlexioState) (off size : ℕ) (v : Word) (t : FlexioState) : Prop where
  | ordinary (hstat : off / 4 ≠ rShiftstat / 4) (hsien : off / 4 ≠ rShiftsien / 4)
      (hctrl : off / 4 = rCtrl / 4 → anyBit (mergeBytes (s.reg rCtrl) off size v) ctrlSwrst = false)
      (h : FlexioQuiet s t ∨ FlexioEvaluated t)
  | cleared (hoff : off / 4 = rShiftstat / 4)
      (h : t = s.setReg rShiftstat (s.reg rShiftstat &&& ~~~writtenBytes off size v))
  | enabled (hoff : off / 4 = rShiftsien / 4)
      (h : t = s.setReg rShiftsien (mergeBytes (s.reg rShiftsien) off size v))
  | reset (hoff : off / 4 = rCtrl / 4)
      (hswrst : anyBit (mergeBytes (s.reg rCtrl) off size v) ctrlSwrst = true)
      (h : t = mcxnFlexioReset s)

lemma flexioPins_quiet (hs : TimersIdle s) (v : Word) :
    FlexioQuiet s (mcxnFlexioUpdateCs (s.setReg rPinoutd v)) := by
  have h := (flexioSetReg_quiet hs (by decide) (by decide) (by decide) v :
    FlexioQuiet s (s.setReg rPinoutd v))
  exact ⟨h.irq, h.stat, h.sien, h.timers⟩

lemma shifterAt_none {base : ℕ} (h : off < base) : shifterAt base off = none :=
  if_neg fun hin => by omega

lemma flexioStore_cases (hs : TimersIdle s)
    (hstat : rShiftstat / 4 ≠ off / 4) (hsien : rShiftsien / 4 ≠ off / 4)
    (htim : rTimstat / 4 ≠ off / 4) (v : Word) (miso : Byte) :
    let t :=
      match shifterAt rShiftbuf off, shifterAt rShiftbufbis off with
      | some i, _ => mcxnFlexioSpiTx (s.setReg off v) i v false miso
      | none, some i => mcxnFlexioSpiTx (s.setReg off v) i v true miso
      | none, none => s.setReg off v
    FlexioQuiet s t ∨ FlexioEvaluated t := by
  have hquiet := flexioSetReg_quiet hs hstat hsien htim v
  dsimp only
  split
  · exact flexioSpiTx_cases hquiet _ v false miso
  · exact flexioSpiTx_cases hquiet _ v true miso
  · exact .inl hquiet

lemma flexioW1c_quiet (hs : TimersIdle s)
    (hstat : off / 4 ≠ rShiftstat / 4) (hsien : off / 4 ≠ rShiftsien / 4) (ones : Word) :
    FlexioQuiet s (s.setReg off (s.reg off &&& ~~~ones)) := by
  refine ⟨rfl, flexio_reg_setReg_of_ne (Ne.symm hstat) s _,
    flexio_reg_setReg_of_ne (Ne.symm hsien) s _, ?_⟩
  by_cases htim : rTimstat / 4 = off / 4
  · have hzero : s.reg off = 0 := (get_congr htim.symm s.regs).trans hs
    have hset : (s.setReg off (s.reg off &&& ~~~ones)).reg rTimstat = s.reg off &&& ~~~ones :=
      (get_congr htim _).trans (get_set_self _ _ _)
    rw [TimersIdle, hset, hzero]
    exact BitVec.zero_and
  · exact (flexio_reg_setReg_of_ne htim s _).trans hs

lemma flexioWrite_written (hs : TimersIdle s) (off size : ℕ) (v : Word)
    (miso : Byte) : FlexioWritten s off size v (mcxnFlexioWrite s off size v miso) := by
  have ordinary {t : FlexioState} (hstat : off / 4 ≠ rShiftstat / 4)
      (hsien : off / 4 ≠ rShiftsien / 4) (hctrl : off / 4 ≠ rCtrl / 4)
      (h : FlexioQuiet s t ∨ FlexioEvaluated t) : FlexioWritten s off size v t :=
    .ordinary hstat hsien (fun hoff => absurd hoff hctrl) h
  unfold mcxnFlexioWrite
  dsimp only
  split
  next hro =>
    simp only [readOnly, List.mem_cons, List.not_mem_nil, or_false, flexioSize, rVerid, rParam,
      rPin] at hro
    refine ordinary ?_ ?_ ?_ (.inl ⟨rfl, rfl, rfl, hs⟩)
    · simp only [rShiftstat]
      omega
    · simp only [rShiftsien]
      omega
    · simp only [rCtrl]
      omega
  split
  next hflags =>
    simp only [w1c, List.mem_cons, List.not_mem_nil, or_false, rShiftstat, rShifterr, rTimstat,
      rTrgstat, rPinstat] at hflags
    have hsien : off / 4 ≠ rShiftsien / 4 := by
      simp only [rShiftsien]
      omega
    have hctrl : off / 4 ≠ rCtrl / 4 := by
      simp only [rCtrl]
      omega
    by_cases hstat : off / 4 = rShiftstat / 4
    · refine .cleared hstat ?_
      rw [setReg, setReg, set_congr hstat, reg, reg, get_congr hstat]
    · exact ordinary hstat hsien hctrl (.inl (flexioW1c_quiet hs hstat hsien _))
  rename_i hflags
  have hstat : off / 4 ≠ rShiftstat / 4 := by
    intro h
    exact hflags (by rw [h]; decide)
  have htim : off / 4 ≠ rTimstat / 4 := by
    intro h
    exact hflags (by rw [h]; decide)
  split
  next hctrl =>
    have hcur : s.reg off = s.reg rCtrl := get_congr hctrl s.regs
    have hsien : off / 4 ≠ rShiftsien / 4 := by
      rw [hctrl]
      decide
    rw [hcur]
    split
    next hswrst => exact .reset hctrl hswrst rfl
    rename_i hswrst
    refine .ordinary hstat hsien (fun _ => Bool.not_eq_true _ ▸ hswrst) (.inl ?_)
    exact flexioSetReg_quiet hs (by decide) (by decide) (by decide) _
  rename_i hctrl
  split
  next hpin => exact ordinary hstat (by rw [hpin]; decide) hctrl (.inl (flexioPins_quiet hs _))
  split
  next hpin => exact ordinary hstat (by rw [hpin]; decide) hctrl (.inl (flexioPins_quiet hs _))
  split
  next hpin => exact ordinary hstat (by rw [hpin]; decide) hctrl (.inl (flexioPins_quiet hs _))
  split
  next hpin =>
    have hquiet := flexioPins_quiet hs (mergeBytes (s.reg off) off size v)
    rw [setReg, set_congr hpin]
    exact ordinary hstat (by rw [hpin]; decide) hctrl (.inl hquiet)
  by_cases hsien : off / 4 = rShiftsien / 4
  · have hlow : off < rShiftbuf := by
      simp only [rShiftsien, rShiftbuf] at hsien ⊢
      omega
    refine .enabled hsien ?_
    rw [shifterAt_none hlow, shifterAt_none (hlow.trans (by decide))]
    dsimp only
    rw [setReg, setReg, set_congr hsien, reg, reg, get_congr hsien]
  · exact ordinary hstat hsien hctrl
      (flexioStore_cases hs (Ne.symm hstat) (Ne.symm hsien) (Ne.symm htim) _ miso)

lemma flexio_shifts_setStat (s : FlexioState) (v : Word) :
    (s.setReg rShiftstat v).shifts = anyBit v (s.reg rShiftsien) := by
  have hset : (s.setReg rShiftstat v).reg rShiftstat = v := get_set_self _ _ _
  rw [shifts, hset, flexio_reg_setReg_of_ne (by decide)]

lemma flexio_shifts_setSien (s : FlexioState) (v : Word) :
    (s.setReg rShiftsien v).shifts = anyBit (s.reg rShiftstat) v := by
  have hset : (s.setReg rShiftsien v).reg rShiftsien = v := get_set_self _ _ _
  rw [shifts, hset, flexio_reg_setReg_of_ne (by decide)]

lemma FlexioWritten.timers {size : ℕ} {v : Word} (hs : TimersIdle s)
    (h : FlexioWritten s off size v t) : TimersIdle t := by
  cases h with
  | ordinary _ _ _ h => exact h.elim FlexioQuiet.timers FlexioEvaluated.timers
  | cleared _ h | enabled _ h =>
    rw [h]
    exact (flexio_reg_setReg_of_ne (by decide) s _).trans hs
  | reset _ _ h =>
    rw [h]
    exact flexioReset_timers s

lemma flexioEffect_tracks (hs : TimersIdle s)
    (h : FlexioQuiet s t ∨ FlexioEvaluated t) (hsafe : safe) :
    Tracks FlexioState.irq FlexioState.interrupts s t safe :=
  h.elim (fun hquiet => hquiet.tracks hs hsafe) fun heval => .driven heval.irq hsafe

lemma FlexioWritten.tracks {w : RegWrite} (miso : Byte) (hs : TimersIdle s)
    (h : FlexioWritten s w.off w.width.bytes w.value t) :
    Tracks irq interrupts s t (FlexioKeeps s (.write w miso)) := by
  have ht := h.timers hs
  cases h with
  | ordinary hstat hsien hctrl h =>
    refine flexioEffect_tracks hs h ⟨fun h => absurd h hstat, fun h => absurd h hsien, ?_⟩
    intro hoff hswrst
    rw [hctrl hoff] at hswrst
    cases hswrst
  | cleared hoff h =>
    subst h
    have hsien : w.off / 4 ≠ rShiftsien / 4 := hoff.trans_ne (by decide)
    have hctrl : w.off / 4 ≠ rCtrl / 4 := hoff.trans_ne (by decide)
    refine .silent rfl ?_
    rw [ht.interrupts, hs.interrupts, flexio_shifts_setStat]
    exact ⟨fun h => ⟨fun _ => h, fun h => absurd h hsien, fun h => absurd h hctrl⟩,
      fun h => h.1 hoff⟩
  | enabled hoff h =>
    subst h
    have hstat : w.off / 4 ≠ rShiftstat / 4 := hoff.trans_ne (by decide)
    have hctrl : w.off / 4 ≠ rCtrl / 4 := hoff.trans_ne (by decide)
    refine .silent rfl ?_
    rw [ht.interrupts, hs.interrupts, flexio_shifts_setSien]
    exact ⟨fun h => ⟨fun h => absurd h hstat, fun _ => h, fun h => absurd h hctrl⟩,
      fun h => h.2.1 hoff⟩
  | reset hoff hswrst h =>
    subst h
    have hstat : w.off / 4 ≠ rShiftstat / 4 := hoff.trans_ne (by decide)
    have hsien : w.off / 4 ≠ rShiftsien / 4 := hoff.trans_ne (by decide)
    refine .silent rfl ?_
    rw [flexioReset_interrupts, hs.interrupts, eq_comm]
    exact ⟨fun h => ⟨fun h => absurd h hstat, fun h => absurd h hsien, fun _ _ => h⟩,
      fun h => h.2.2 hoff hswrst⟩

lemma flexioStep_timers (hs : TimersIdle s) (e : FlexioEvent) : TimersIdle (flexioStep s e) := by
  cases e with
  | read off width =>
    exact (flexioRead_cases hs off width.bytes).elim FlexioQuiet.timers FlexioEvaluated.timers
  | write w miso => exact (flexioWrite_written hs w.off w.width.bytes w.value miso).timers hs
  | reset => exact flexioReset_timers s

lemma flexioStep_tracks (hs : TimersIdle s) (e : FlexioEvent) :
    Tracks irq interrupts s (flexioStep s e) (FlexioKeeps s e) := by
  cases e with
  | read off width => exact flexioEffect_tracks hs (flexioRead_cases hs off width.bytes) trivial
  | write w miso => exact (flexioWrite_written hs w.off w.width.bytes w.value miso).tracks miso hs
  | reset => exact .driven (flexioReset_interrupts s).symm trivial

end Flexio

section Pdm

open Pdm NarrowRegisters PdmState

def pdmCondition (ctrl1 stat fifoStat : Word) : Bool :=
  (ctrl1 &&& ctrl1Disel == ctrl1DiselIrq && anyBit stat statChfAll) ||
    (anyBit ctrl1 ctrl1Erren && fifoStat != 0)

variable {w : RegWrite} (s : PdmState)

def pdmWanted : Bool := pdmCondition (s.regs rCtrl1) (s.regs rStat) (s.regs rFifoStat)

inductive PdmEvent where
  | read (off : ℕ) (width : Width)
  | write (w : RegWrite)
  | sample (v : Word)
  | reset

def pdmStep : PdmEvent → PdmState
  | .read off _ => (mcxnPdmRead s off).2
  | .write w => mcxnPdmWrite s w.off w.width.bytes w.value
  | .sample v => pdmPushSample s v
  | .reset => mcxnPdmReset s

def PdmKeeps : PdmEvent → Prop
  | .write w => w.lane ≠ 0 →
      (w.idx = 0x00 / 4 →
        pdmCondition (w.merge (s.regs rCtrl1)) (s.regs rStat) (s.regs rFifoStat) = pdmWanted s) ∧
      (w.idx = 0x14 / 4 →
        pdmCondition (s.regs rCtrl1) (s.regs rStat) (w.merge (s.regs rFifoStat)) = pdmWanted s)
  | _ => True

def PdmInStep : PdmState → Prop := InStep irq pdmWanted

def pdmPowerOn : PdmState := mcxnPdmReset ⟨fun _ => 0, fun _ => [], false, false, false, false⟩

lemma pdmUpdateIrq_tracks (s t : PdmState) {safe : Prop} (hsafe : safe) :
    Tracks irq pdmWanted s (pdmUpdateIrq t) safe :=
  .driven rfl hsafe

lemma pdmKeeps_of_lane (h : w.lane = 0) (s : PdmState) : PdmKeeps s (.write w) :=
  fun hlane => absurd h hlane

lemma pdmKeeps_of_idx (hctrl1 : w.idx ≠ 0x00 / 4) (hfifo : w.idx ≠ 0x14 / 4)
    (s : PdmState) : PdmKeeps s (.write w) :=
  fun _ => ⟨fun h => absurd h hctrl1, fun h => absurd h hfifo⟩

lemma pdmWanted_setReg (r : RegIdx) (x : Word) : pdmWanted (s.setReg r x) =
      pdmCondition (if rCtrl1 = r then x else s.regs rCtrl1) (if rStat = r then x else s.regs rStat)
      (if rFifoStat = r then x else s.regs rFifoStat) := by
  simp only [pdmWanted, setReg, Function.update_apply]

lemma pdmMerge_tracks {s : PdmState} {r : RegIdx} (hr : r.val = w.idx)
    (hstat : w.idx = 0x08 / 4 → w.lane ≠ 0) (hctrl1 : w.idx = 0x00 / 4 → w.lane ≠ 0)
    (hfifo : w.idx = 0x14 / 4 → w.lane ≠ 0) :
    Tracks irq pdmWanted s (s.setReg r (w.merge (s.regs r))) (PdmKeeps s (.write w)) := by
  by_cases h0 : w.idx = 0x00 / 4
  · have hreg : r = rCtrl1 := Fin.ext (hr.trans h0)
    have hfifo : w.idx ≠ 0x14 / 4 := h0.trans_ne (by decide)
    subst hreg
    refine .silent rfl ?_
    simp only [pdmWanted_setReg, if_true]
    exact ⟨fun h _ => ⟨fun _ => h, fun h => absurd h hfifo⟩, fun h => (h (hctrl1 h0)).1 h0⟩
  by_cases h5 : w.idx = 0x14 / 4
  · have hreg : r = rFifoStat := Fin.ext (hr.trans h5)
    subst hreg
    refine .silent rfl ?_
    rw [pdmWanted_setReg]
    exact ⟨fun h _ => ⟨fun h => absurd h h0, fun _ => h⟩, fun h => (h (hfifo h5)).2 h5⟩
  refine .idle rfl ?_ (pdmKeeps_of_idx h0 h5 s)
  have hne0 : rCtrl1 ≠ r := fun h => h0 (hr.symm.trans (congrArg Fin.val h.symm))
  have hne5 : rFifoStat ≠ r := fun h => h5 (hr.symm.trans (congrArg Fin.val h.symm))
  rw [pdmWanted_setReg, if_neg hne0, if_neg hne5]
  by_cases h2 : rStat = r
  · have hlane := hstat (hr.symm.trans (congrArg Fin.val h2.symm))
    rw [if_pos h2, ← h2, pdmCondition, w.anyBit_merge (lanes_and_statChfAll hlane)]
    rfl
  · rw [if_neg h2]
    rfl

lemma pdmWrite_tracks (w : RegWrite) :
    Tracks irq pdmWanted s (mcxnPdmWrite s w.off w.width.bytes w.value)
      (PdmKeeps s (.write w)) := by
  have hsplit : w.off = 4 * w.idx + w.lane := (Nat.div_add_mod w.off 4).symm
  have hlane : w.lane < 4 := Nat.mod_lt _ (by decide)
  unfold mcxnPdmWrite
  split
  next hin =>
    dsimp only
    split
    next hro => exact .idle rfl rfl (pdmKeeps_of_lane (by omega) s)
    split
    next hoff =>
      have hkeeps : PdmKeeps s (.write w) := pdmKeeps_of_lane (by omega) s
      unfold pdmWriteCtrl1
      split <;> exact pdmUpdateIrq_tracks s _ hkeeps
    split
    · exact pdmUpdateIrq_tracks s _ (pdmKeeps_of_lane (by omega) s)
    split
    · exact pdmUpdateIrq_tracks s _ (pdmKeeps_of_lane (by omega) s)
    split
    · exact pdmUpdateIrq_tracks s _ (pdmKeeps_of_lane (by omega) s)
    split
    next hdata =>
      unfold PdmIsDatach at hdata
      exact .idle rfl rfl (pdmKeeps_of_idx (by omega) (by omega) s)
    · rw [pdm_mergeBytes]
      exact pdmMerge_tracks rfl (by omega) (by omega) (by omega)
  · exact .idle rfl rfl (pdmKeeps_of_idx (by omega) (by omega) s)

lemma pdmUpdateDmaReq_wanted :
    (pdmUpdateDmaReq s).irq = s.irq ∧ pdmWanted (pdmUpdateDmaReq s) = pdmWanted s := by
  unfold pdmUpdateDmaReq
  dsimp only
  split <;> exact ⟨rfl, rfl⟩

lemma pdmReadDatach_tracks (n : Channel) : Tracks irq pdmWanted s (pdmReadDatach s n).2 True := by
  have hdma {t : PdmState} (h : Tracks irq pdmWanted s t True) :
      Tracks irq pdmWanted s (if n = 0 then pdmUpdateDmaReq t else t) True := by
    split
    · obtain ⟨hirq, hwanted⟩ := pdmUpdateDmaReq_wanted t
      cases h with
      | driven hline _ => exact .driven (hirq.trans (hline.trans hwanted.symm)) trivial
      | silent hline hw => exact .silent (hirq.trans hline) (by rw [hwanted]; exact hw)
    · exact h
  unfold pdmReadDatach
  split
  · exact pdmUpdateIrq_tracks s _ trivial
  apply hdma
  dsimp only
  split
  · exact pdmUpdateIrq_tracks s _ trivial
  · exact .idle rfl rfl trivial

lemma pdmRead_tracks (off : ℕ) : Tracks irq pdmWanted s (mcxnPdmRead s off).2 True := by
  have hidle : Tracks irq pdmWanted s s True := .idle rfl rfl trivial
  unfold mcxnPdmRead
  dsimp only
  split
  · exact hidle
  split
  · exact hidle
  split
  · exact hidle
  split
  · exact pdmReadDatach_tracks s _
  · exact hidle

lemma pdmSample_tracks (v : Word) : Tracks irq pdmWanted s (pdmPushSample s v) True := by
  unfold pdmPushSample
  split
  · exact .idle rfl rfl trivial
  split <;> exact pdmUpdateIrq_tracks s _ trivial

lemma pdmReset_wanted : pdmWanted (mcxnPdmReset s) = false := by
  have hctrl1 : (mcxnPdmReset s).regs rCtrl1 = 0 := rfl
  have hdisel : ((0 : Word) &&& ctrl1Disel == ctrl1DiselIrq) = false := by decide
  have herren : anyBit (0 : Word) ctrl1Erren = false := by decide
  rw [pdmWanted, hctrl1, pdmCondition, hdisel, herren, Bool.false_and, Bool.false_and,
    Bool.or_false]

lemma pdmStep_tracks (e : PdmEvent) : Tracks irq pdmWanted s (pdmStep s e) (PdmKeeps s e) := by
  cases e with
  | read off width => exact pdmRead_tracks s off
  | write w => exact pdmWrite_tracks s w
  | sample v => exact pdmSample_tracks s v
  | reset => exact .driven (pdmReset_wanted s).symm trivial

end Pdm

/-- In a run from power-on the line of each device shows its condition in every state
exactly if every event meets the condition of its device. -/
theorem lines_in_step_iff (cmp : List Cmp.CmpEvent) (i3c : List I3c.I3cEvent)
    (flexio : List Flexio.FlexioEvent) (pdm : List PdmEvent) :
    (Always Cmp.cmpStep CmpInStep .powerOn cmp ↔ Admits Cmp.cmpStep CmpKeeps .powerOn cmp) ∧
    (Always I3c.i3cStep I3cInStep .powerOn i3c ↔ Admits I3c.i3cStep I3cKeeps .powerOn i3c) ∧
    (Always Flexio.flexioStep FlexioInStep .powerOn flexio ↔
      Admits Flexio.flexioStep FlexioKeeps .powerOn flexio) ∧
    (Always pdmStep PdmInStep pdmPowerOn pdm ↔ Admits pdmStep PdmKeeps pdmPowerOn pdm) := by
  refine ⟨?_, ?_, ?_, ?_⟩
  · refine always_iff_admits (I := fun _ => True) (fun _ _ _ => trivial)
      (fun s e _ hs => (cmpStep_tracks s e).inStep_iff hs) trivial ?_ cmp
    exact (cmpReset_interrupts _).symm
  · refine always_iff_admits (I := fun _ => True) (fun _ _ _ => trivial)
      (fun s e _ hs => (i3cStep_tracks s e).inStep_iff hs) trivial ?_ i3c
    exact i3cReset_inStep _
  · refine always_iff_admits (I := TimersIdle) (fun _ e hs => flexioStep_timers hs e)
      (fun s e hI hs => (flexioStep_tracks hI e).inStep_iff hs) (flexioReset_timers _) ?_ flexio
    exact (flexioReset_interrupts _).symm
  refine always_iff_admits (I := fun _ => True) (fun _ _ _ => trivial)
    (fun s e _ hs => (pdmStep_tracks s e).inStep_iff hs) trivial ?_ pdm
  exact (pdmReset_wanted _).symm

def enableDmaLate : List Cmp.CmpEvent :=
  [.write (0x1C / 4) 0x1, .output true, .write (0x0C / 4) 0x4]

def takeLastByte : List I3c.I3cEvent :=
  [.write (.ofWord (0x90 / 4) 0x800) ⟨false, fun _ => 0⟩,
    .write (.ofWord (0x84 / 4) 0x1A101) ⟨false, fun _ => 0x5A⟩, .read 0xC0 .byte]

def clearShiftFlag : List Flexio.FlexioEvent :=
  [.write (.ofWord (0x08 / 4) 0x1) 0, .write (.ofWord (0x80 / 4) 0x2) 0,
    .write (.ofWord (0x20 / 4) 0x1) 0, .write (.ofWord (0x280 / 4) 0x9F) 0xFF,
    .write (.ofWord (0x10 / 4) 0x1) 0]

def writeInsideFifoStat : List PdmEvent :=
  [.write (.ofWord (0x00 / 4) 0x00800000), .write (NarrowRegisters.byteWrite 0x15 0x01)]

theorem lines_go_stale : ¬ Always Cmp.cmpStep CmpInStep .powerOn enableDmaLate ∧
    ¬ Always I3c.i3cStep I3cInStep .powerOn takeLastByte ∧
    ¬ Always Flexio.flexioStep FlexioInStep .powerOn clearShiftFlag ∧
    ¬ Always pdmStep PdmInStep pdmPowerOn writeInsideFifoStat := by
  refine ⟨fun h => ?_, fun h => ?_, fun h => ?_, fun h => ?_⟩
  · have hlast := h enableDmaLate prefix_rfl
    revert hlast
    unfold CmpInStep InStep
    decide +kernel
  · have hlast := h takeLastByte prefix_rfl
    revert hlast
    unfold I3cInStep InStep
    decide +kernel
  · have hlast := h clearShiftFlag prefix_rfl
    revert hlast
    unfold FlexioInStep InStep
    decide +kernel
  have hlast := h writeInsideFifoStat prefix_rfl
  revert hlast
  unfold PdmInStep InStep
  decide +kernel

end Mcxn947.RegisterTraffic
