import Mcxn947.EventRuns
import Mcxn947.PwmModel

/-!
# The fault interlock

The fault input is latched in `FSTS[FFLAG0]`, shown in `FSTS[FFPIN0]`, raises the fault
interrupt and forces the mapped outputs off.
-/

namespace Mcxn947.Pwm

open MachineWords GuestMemory EventRuns List BitVec

variable {s : PwmState}
variable {off other offset size : ℕ} {s' : PwmState} {value : Word} {now : ℤ}

lemma ld16_congr (h0 : s'.regs off = s.regs off)
    (h1 : s'.regs (off + 1) = s.regs (off + 1)) : pwmLd16 s' off = pwmLd16 s off := by
  rw [pwmLd16, pwmLd16, h0, h1]

lemma ld16_store_of_apart {bytes : List Byte} (h : Apart off bytes.length other 2) :
    pwmLd16 { s with regs := store s.regs off bytes } other = pwmLd16 s other := by
  simp only [Apart] at h
  apply ld16_congr
  · exact store_apply_of_not_covers (by simp only [Covers]; omega)
  · exact store_apply_of_not_covers (by simp only [Covers]; omega)

variable (v : HalfWord)

lemma ld16_st16_of_apart (h : Apart off 2 other 2) :
    pwmLd16 (pwmSt16 s off v) other = pwmLd16 s other :=
  ld16_store_of_apart h

@[simp] lemma ld16_st16_self (off : ℕ) (v : HalfWord) : pwmLd16 (pwmSt16 s off v) off = v := by
  have hlow : (pwmSt16 s off v).regs off = v.extractLsb' 0 8 := by simp [pwmSt16, store]
  have hhigh : (pwmSt16 s off v).regs (off + 1) = v.extractLsb' 8 8 := by simp [pwmSt16, store]
  rw [pwmLd16, hlow, hhigh]
  ext i hi
  simp only [BitVec.getElem_append, getElem_extractLsb']
  split
  · simp [getLsbD_eq_getElem hi]
  · have : 8 + (i - 8) = i := by omega
    simp [this, getLsbD_eq_getElem hi]

lemma ld16_storeBytes_of_apart (h : Apart offset size other 2) :
    pwmLd16 (pwmStoreBytes s offset value size) other = pwmLd16 s other := by
  have hlen : (((wordBytes value).take size).take (pwmSize - offset)).length ≤ size := by
    simp only [length_take]
    omega
  apply ld16_store_of_apart
  simp only [Apart] at h ⊢
  omega

structure SameFault (s s' : PwmState) : Prop where
  fsts : pwmLd16 s' fsts = pwmLd16 s fsts
  fctrl : pwmLd16 s' fctrl = pwmLd16 s fctrl
  level : s'.faultLevel = s.faultLevel
  irq : s'.irqFault = s.irqFault

lemma SameFault.refl (s : PwmState) : SameFault s s := ⟨rfl, rfl, rfl, rfl⟩

lemma SameFault.trans {s'' : PwmState} (h : SameFault s s') (h' : SameFault s' s'') :
    SameFault s s'' :=
  ⟨h'.fsts.trans h.fsts, h'.fctrl.trans h.fctrl, h'.level.trans h.level, h'.irq.trans h.irq⟩

lemma SameFault.ite {a b : PwmState} {c : Prop} [Decidable c] (ha : SameFault s a)
    (hb : SameFault s b) : SameFault s (if c then a else b) := by
  split
  · exact ha
  · exact hb

lemma SameFault.of_eq (hregs : s'.regs = s.regs)
    (hlevel : s'.faultLevel = s.faultLevel) (hirq : s'.irqFault = s.irqFault) : SameFault s s' :=
  ⟨ld16_congr (by rw [hregs]) (by rw [hregs]), ld16_congr (by rw [hregs]) (by rw [hregs]),
    hlevel, hirq⟩

lemma sameFault_st16 (h : Apart off 2 fctrl 4) : SameFault s (pwmSt16 s off v) := by
  simp only [Apart, Pwm.fctrl] at h
  refine ⟨ld16_st16_of_apart v ?_, ld16_st16_of_apart v ?_, rfl, rfl⟩ <;>
    simp only [Apart, Pwm.fsts, Pwm.fctrl] <;> omega

section

variable (s : PwmState)

lemma sameFault_updateIrq : SameFault s (mcxnPwmUpdateIrq s) := SameFault.of_eq rfl rfl rfl

lemma sameFault_setValDma (level : Bool) : SameFault s (mcxnPwmSetValDma s level) :=
  SameFault.ite (SameFault.refl s) (SameFault.of_eq rfl rfl rfl)

lemma sameFault_armTrig (now : ℤ) : SameFault s (mcxnPwmArmTrig s now) :=
  SameFault.ite (SameFault.of_eq rfl rfl rfl) (SameFault.of_eq rfl rfl rfl)

lemma sameFault_pulseCapa : SameFault s (pulseCapa s) :=
  SameFault.ite (SameFault.of_eq rfl rfl rfl) (SameFault.refl s)

lemma sameFault_captureAEdge (level : Bool) (now : ℤ) :
    SameFault s (mcxnPwmCaptureAEdge s level now) := by
  have hlevel : SameFault s { s with capaLevel := level } := SameFault.of_eq rfl rfl rfl
  refine SameFault.ite hlevel (SameFault.ite hlevel ?_)
  refine SameFault.trans ?_ ((sameFault_updateIrq _).trans (sameFault_pulseCapa _))
  refine SameFault.trans ?_ (sameFault_st16 _ (by decide))
  exact hlevel.trans (sameFault_st16 _ (by decide))

lemma sameFault_trigTick (now : ℤ) : SameFault s (mcxnPwmTrigTick s now) := by
  refine SameFault.trans ?_ (sameFault_armTrig _ now)
  exact SameFault.of_eq rfl rfl rfl

lemma sameFault_requestVal : SameFault s (requestVal s) :=
  SameFault.ite (sameFault_setValDma s true) (SameFault.refl s)

lemma sameFault_reloadTick (now : ℤ) : SameFault s (mcxnPwmReloadTick s now) := by
  have hfired : SameFault s { s with reloadTimer := none } := SameFault.of_eq rfl rfl rfl
  have hsts := hfired.trans
    (sameFault_st16 (pwmLd16 s smSts ||| stsRf) (show Apart smSts 2 fctrl 4 by decide))
  have hdma := (hsts.trans (sameFault_updateIrq _)).trans (sameFault_requestVal _)
  refine SameFault.ite hdma (hdma.trans (SameFault.trans ?_ (sameFault_armTrig _ now)))
  exact SameFault.of_eq rfl rfl rfl

lemma sameFault_writeMctrl (value : HalfWord) (now : ℤ) :
    SameFault s (pwmWriteMctrl s value now) := by
  refine SameFault.trans (sameFault_st16 (value &&& mctrlRunMask)
    (show Apart mctrl 2 fctrl 4 by decide)) (SameFault.ite ?_ (SameFault.of_eq rfl rfl rfl))
  refine SameFault.trans ?_ (sameFault_armTrig _ now)
  exact SameFault.of_eq rfl rfl rfl

lemma sameFault_writeSts {sts : ℕ} (value : HalfWord) (h : IsSmSts sts) :
    SameFault s (pwmWriteSts s sts value) := by
  have hapart : Apart sts 2 fctrl 4 := by
    have := h.1
    simp only [pwmSmCount, pwmSmStep, Apart, fctrl] at this ⊢
    omega
  exact (sameFault_st16 _ hapart).trans (SameFault.ite (sameFault_updateIrq _) (SameFault.refl _))

end

def fflag0 (s : PwmState) : Bool := anyBit (pwmLd16 s fsts) fstsFflag0

def ffpin0 (s : PwmState) : Bool := anyBit (pwmLd16 s fsts) fstsFfpin0

structure Interlock (s : PwmState) : Prop where
  pin : ffpin0 s = s.faultLevel
  irq : s.irqFault = anyBit (pwmLd16 s fsts &&& fstsFflagMask) (pwmLd16 s fctrl)

structure Evaluated (s : PwmState) : Prop extends Interlock s where
  latched : faultActive s = true → fflag0 s = true

lemma Interlock.same (h : Interlock s) (hsame : SameFault s s') : Interlock s' := by
  refine ⟨?_, ?_⟩
  · rw [ffpin0, hsame.fsts, hsame.level]
    exact h.pin
  · rw [hsame.irq, hsame.fsts, hsame.fctrl]
    exact h.irq

lemma SameFault.fflag0 (h : SameFault s s') : fflag0 s' = fflag0 s := by
  rw [Pwm.fflag0, Pwm.fflag0, h.fsts]

lemma SameFault.faultActive (h : SameFault s s') : faultActive s' = faultActive s := by
  rw [Pwm.faultActive, Pwm.faultActive, h.level, h.fctrl]

lemma Evaluated.same (h : Evaluated s) (hsame : SameFault s s') : Evaluated s' := by
  refine ⟨h.toInterlock.same hsame, ?_⟩
  rw [hsame.faultActive, hsame.fflag0]
  exact h.latched

lemma interlock_updateFaultIrq (hpin : ffpin0 s = s.faultLevel) :
    Interlock (mcxnPwmUpdateFaultIrq s) :=
  ⟨hpin, rfl⟩

lemma evalFsts_ffpin0 (s : PwmState) : anyBit (evalFsts s) fstsFfpin0 = s.faultLevel := by
  have hpin : ∀ v : HalfWord, anyBit (if s.faultLevel then v ||| fstsFfpin0
      else v &&& ~~~fstsFfpin0) fstsFfpin0 = s.faultLevel := by
    intro v
    cases s.faultLevel with
    | true => simp [show anyBit fstsFfpin0 fstsFfpin0 = true from rfl]
    | false => exact anyBit_clear_of_subset (by decide) v
  -- the latch is another bit
  simp only [evalFsts]
  split
  · rw [anyBit_or, hpin]
    exact Bool.or_false _
  split
  · rw [anyBit_clear_of_disjoint (by decide), hpin]
  · exact hpin _

lemma evalFsts_fflag0 (h : faultActive s) : anyBit (evalFsts s) fstsFflag0 := by
  simp [evalFsts, h, show anyBit fstsFflag0 fstsFflag0 = true from rfl]

lemma faultActive_faultEval (s : PwmState) : faultActive (mcxnPwmFaultEval s) = faultActive s := by
  have hfctrl : pwmLd16 (mcxnPwmFaultEval s) fctrl = pwmLd16 s fctrl :=
    ld16_st16_of_apart _ (by decide)
  rfl

lemma evaluated_faultEval (s : PwmState) : Evaluated (mcxnPwmFaultEval s) := by
  have hfsts : pwmLd16 (mcxnPwmFaultEval s) fsts = evalFsts s := ld16_st16_self _ _
  refine ⟨interlock_updateFaultIrq ?_, ?_⟩
  · rw [ffpin0, ld16_st16_self]
    exact evalFsts_ffpin0 s
  · rw [faultActive_faultEval, fflag0, hfsts]
    exact evalFsts_fflag0

def Orderly : Event → Prop
  | .write offset _ size _ => Touches offset size fsts (fsts + 1) →
      (size = 2 ∧ offset = fsts) ∨ Touches offset size fctrl (fctrl + 1)
  | _ => True

def ChangesFault : Event → Prop
  | .write offset _ size _ => Touches offset size fctrl (fctrl + 1)
  | .setFault _ => True
  | _ => False

section

variable (s : PwmState) (offset size : ℕ)

lemma sameFault_consumeVal : SameFault s (consumeVal s offset size) :=
  SameFault.ite (sameFault_setValDma s false) (SameFault.refl s)

lemma sameFault_reframeTrig (now : ℤ) : SameFault s (reframeTrig s offset size now) :=
  SameFault.ite (sameFault_armTrig s now) (SameFault.refl s)

end

lemma writeGeneric_evaluated (h : Touches offset size fctrl (fctrl + 1)) :
    Evaluated (pwmWriteGeneric s offset value size now) := by
  simp only [pwmWriteGeneric, if_pos h]
  apply Evaluated.same (evaluated_faultEval _)
  exact (sameFault_consumeVal _ offset size).trans (sameFault_reframeTrig _ offset size now)

lemma writeGeneric_same (hfctrl : ¬ Touches offset size fctrl (fctrl + 1))
    (hfsts : ¬ Touches offset size fsts (fsts + 1)) :
    SameFault s (pwmWriteGeneric s offset value size now) := by
  have hbytes : SameFault s (pwmStoreBytes s offset value size) := by
    simp only [Touches, fctrl, fsts] at hfctrl hfsts
    refine ⟨ld16_storeBytes_of_apart ?_, ld16_storeBytes_of_apart ?_, rfl, rfl⟩ <;>
      simp only [Apart, fctrl, fsts] <;> omega
  simp only [pwmWriteGeneric, if_neg hfctrl]
  refine SameFault.trans ?_ ((sameFault_consumeVal _ offset size).trans
    (sameFault_reframeTrig _ offset size now))
  exact SameFault.ite (hbytes.trans (sameFault_updateIrq _)) hbytes

lemma writeFsts_spec (s : PwmState) (value : HalfWord) :
    ffpin0 (pwmWriteFsts s value) = ffpin0 s ∧
      (faultActive s → fflag0 s → fflag0 (pwmWriteFsts s value)) := by
  have hfsts : pwmLd16 (pwmWriteFsts s value) fsts = pwmLd16 s fsts &&&
      ~~~(value &&& fstsFflagMask &&& ~~~(if faultActive s then fstsFflag0 else 0)) :=
    ld16_st16_self _ _
  constructor
  · rw [ffpin0, hfsts, BitVec.and_assoc value, BitVec.and_comm fstsFflagMask, ← BitVec.and_assoc]
    exact anyBit_clear_and_of_disjoint (by decide) _ _
  intro hact hlatch
  rw [fflag0, hfsts, if_pos hact, anyBit_clear_of_disjoint]
  · exact hlatch
  · rw [BitVec.and_assoc, show ~~~fstsFflag0 &&& fstsFflag0 = 0 by decide]
    exact BitVec.and_zero

variable {event : Event}

lemma step_evaluated (h : ChangesFault event) : Evaluated (step s event) := by
  cases event with
  | setFault value => exact evaluated_faultEval _
  | write offset value size now =>
    have hmctrl : ¬ (size = 2 ∧ offset = mctrl) := by
      simp only [ChangesFault, Touches, fctrl, mctrl] at h ⊢
      omega
    have hsts : ¬ (size = 2 ∧ IsSmSts offset) := by
      simp only [ChangesFault, Touches, fctrl, IsSmSts, pwmSmCount, pwmSmStep] at h ⊢
      omega
    have hfsts : ¬ (size = 2 ∧ offset = fsts) := by
      simp only [ChangesFault, Touches, fctrl, fsts] at h ⊢
      omega
    simp only [step, mcxnPwmWrite, if_neg hmctrl, if_neg hsts, if_neg hfsts]
    exact writeGeneric_evaluated h
  | _ => exact h.elim

lemma step_fault (h : Orderly event) (hreset : event ≠ .reset) :
    SameFault s (step s event) ∨ Evaluated (step s event) ∨
      ∃ value, step s event = pwmWriteFsts s value := by
  cases event with
  | setFault value => exact .inr (.inl (evaluated_faultEval _))
  | setCapa value now => exact .inl (sameFault_captureAEdge s value now)
  | reloadTick now => exact .inl (sameFault_reloadTick s now)
  | trigTick now => exact .inl (sameFault_trigTick s now)
  | clock hz => exact .inl (SameFault.of_eq rfl rfl rfl)
  | reset => exact absurd rfl hreset
  | write offset value size now =>
    simp only [step, mcxnPwmWrite]
    split
    · exact .inl (sameFault_writeMctrl s _ now)
    split
    next hsts => exact .inl (sameFault_writeSts s _ hsts.2)
    split
    · exact .inr (.inr ⟨_, rfl⟩)
    rename_i hplain
    by_cases hfctrl : Touches offset size fctrl (fctrl + 1)
    · exact .inr (.inl (writeGeneric_evaluated hfctrl))
    · have hfsts : ¬ Touches offset size fsts (fsts + 1) := fun ht => (h ht).elim hplain hfctrl
      exact .inl (writeGeneric_same hfctrl hfsts)

lemma sameFault_resetSubmodule (s : PwmState) {n : ℕ} (h : n < pwmSmCount) :
    SameFault s (resetSubmodule s n) := by
  simp only [pwmSmCount] at h
  have hapart : ∀ r ≤ smDtcnt1, Apart (n * pwmSmStep + r) 2 fctrl 4 := by
    intro r hr
    simp only [smDtcnt1, pwmSmStep, Apart, fctrl] at hr ⊢
    omega
  exact (sameFault_st16 _ (hapart smCtrl (by decide))).trans <|
    (sameFault_st16 _ (hapart smDtcnt0 (by decide))).trans <|
    (sameFault_st16 _ (hapart smDtcnt1 (by decide))).trans <|
    sameFault_st16 _ (hapart smDismap0 (by decide))

lemma interlock_reset (s : PwmState) : Interlock (mcxnPwmReset s) := by
  have hcleared : SameFault { s with regs := fun _ => 0 }
      ((List.range pwmSmCount).foldl resetSubmodule { s with regs := fun _ => 0 }) :=
    (sameFault_resetSubmodule _ (show 0 < pwmSmCount by decide)).trans <|
    (sameFault_resetSubmodule _ (show 1 < pwmSmCount by decide)).trans <|
    (sameFault_resetSubmodule _ (show 2 < pwmSmCount by decide)).trans <|
    sameFault_resetSubmodule _ (show 3 < pwmSmCount by decide)
  unfold mcxnPwmReset
  generalize (List.range pwmSmCount).foldl resetSubmodule _ = t at hcleared ⊢
  have hfsts : pwmLd16 t fsts = 0#16 :=
    hcleared.fsts.trans (show (0 : Byte) ++ (0 : Byte) = 0#16 by decide)
  refine ⟨?_, ?_⟩
  · show anyBit (pwmLd16 t fsts) fstsFfpin0 = false
    rw [hfsts]
    rfl
  show false = anyBit (pwmLd16 t fsts &&& fstsFflagMask) (pwmLd16 t fctrl)
  rw [hfsts, BitVec.zero_and]
  exact (anyBit_zero_left _).symm

lemma step_interlock (hevent : Orderly event) (h : Interlock s) : Interlock (step s event) := by
  by_cases hreset : event = .reset
  · subst hreset
    exact interlock_reset s
  rcases step_fault hevent hreset with hsame | heval | ⟨value, hwrite⟩
  · exact h.same hsame
  · exact heval.toInterlock
  rw [hwrite]
  refine ⟨?_, rfl⟩
  rw [(writeFsts_spec s value).1]
  exact h.pin

lemma step_keeps_latch (hevent : Orderly event) (hreset : event ≠ .reset)
    (hlatch : fflag0 s) (hact : faultActive (step s event)) : fflag0 (step s event) = true := by
  rcases step_fault hevent hreset with hsame | heval | ⟨value, hwrite⟩
  · rw [hsame.fflag0]
    exact hlatch
  · exact heval.latched hact
  · rw [hwrite] at hact ⊢
    exact (writeFsts_spec s value).2 hact hlatch

lemma gate_forced_off {pol en dis : HalfWord} (hlatch : fflag0 s)
    (hmapped : anyBit (pwmLd16 s smDismap0) dis) (level : Bool) :
    gate s pol en dis level = false := by
  rw [fflag0] at hlatch
  simp [gate, hlatch, hmapped]

def ForcedOff (s : PwmState) : Prop :=
  ∀ pos : HalfWord,
    (anyBit (pwmLd16 s smDismap0) dismapDis0aF0 = true → (outputsAt s pos).a = false) ∧
    (anyBit (pwmLd16 s smDismap0) dismapDis0bF0 = true → (outputsAt s pos).b = false) ∧
    (anyBit (pwmLd16 s smDismap0) dismapDis0xF0 = true → (outputsAt s pos).x = false)

lemma forcedOff_of_latched (hlatch : fflag0 s) : ForcedOff s := fun _ =>
  ⟨fun h => gate_forced_off hlatch h _, fun h => gate_forced_off hlatch h _,
    fun h => gate_forced_off hlatch h _⟩

/-- Along every run of orderly events from power-on and for every orderly event
after it: the latch of a live fault is not cleared except by a reset, a change of
the input or of `FCTRL` latches an active input, `FFPIN0` is the input, the mapped
outputs are off while the latch is set, and the interrupt line is
`FFLAG & FIE ≠ 0`. -/
theorem fault_interlock (hz : ℕ) {events : List Event} (hevents : ∀ e ∈ events, Orderly e)
    {event : Event} (hevent : Orderly event) :
    (event ≠ .reset → fflag0 (run step (powerOn hz) events) = true →
      fflag0 (step (run step (powerOn hz) events) event) = false →
      faultActive (step (run step (powerOn hz) events) event) = false) ∧
    (ChangesFault event → faultActive (step (run step (powerOn hz) events) event) = true →
      fflag0 (step (run step (powerOn hz) events) event) = true) ∧
    ffpin0 (run step (powerOn hz) events) = (run step (powerOn hz) events).faultLevel ∧
    (fflag0 (run step (powerOn hz) events) = true → ForcedOff (run step (powerOn hz) events)) ∧
    (run step (powerOn hz) events).irqFault =
      anyBit (pwmLd16 (run step (powerOn hz) events) fsts &&& fstsFflagMask)
        (pwmLd16 (run step (powerOn hz) events) fctrl) := by
  have hinit : Interlock (powerOn hz) := interlock_reset _
  have hstep : ∀ t e, Orderly e → Interlock t → Interlock (step t e) :=
    fun _ _ he h => step_interlock he h
  have hinterlock := run_invariant_of_events hstep hinit hevents
  refine ⟨?_, ?_, hinterlock.pin, forcedOff_of_latched, hinterlock.irq⟩
  · intro hreset hlatched hcleared
    by_contra hactive
    have hkept := step_keeps_latch hevent hreset hlatched (by simpa using hactive)
    simp [hkept] at hcleared
  · intro hchange
    exact (step_evaluated hchange).latched

theorem fault_interlock_refused_clear :
    fflag0 (run step (powerOn 48000000) [.setFault false, .write fsts 1 2 0]) = true ∧
      ForcedOff (run step (powerOn 48000000) [.setFault false, .write fsts 1 2 0]) := by
  have hlatched : fflag0 (run step (powerOn 48000000) [.setFault false, .write fsts 1 2 0]) =
      true := by
    decide
  have horderly : ∀ e ∈ [Event.setFault false, .write fsts 1 2 0], Orderly e := by
    intro e he
    simp only [mem_cons, not_mem_nil, or_false] at he
    rcases he with rfl | rfl
    · trivial
    · exact fun _ => .inl ⟨rfl, rfl⟩
  have hinterlock := fault_interlock 48000000 horderly (show Orderly (.setFault true) from trivial)
  exact ⟨hlatched, hinterlock.2.2.2.1 hlatched⟩

theorem byte_store_clears_live_fault :
    fflag0 (run step (powerOn 48000000) [.setFault false]) = true ∧
      faultActive (run step (powerOn 48000000) [.setFault false, .write fsts 0 1 0]) = true ∧
      fflag0 (run step (powerOn 48000000) [.setFault false, .write fsts 0 1 0]) = false := by
  decide

end Mcxn947.Pwm
