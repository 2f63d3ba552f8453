import Mcxn947.CtimerModel
import Mcxn947.EdmaVisits
import Mcxn947.FlexcanModel
import Mcxn947.FmuModel
import Mcxn947.LevelLines

/-!
# Interrupt lines across resets

The DMA controller, the standard timer, the FlexCAN and the flash controller drive their
interrupt line wherever they change a register that its condition reads, and once more when
a snapshot has been loaded.  The level of a line is held by its one sink, the NVIC.  A device
is reset only together with the whole machine, its own reset drives no line, and
`armv7m_nvic_reset` zeroes the levels; a snapshot is loaded after such a reset.
-/

namespace Mcxn947.ResetLines

open MachineWords LevelLines EventRuns Function

section Edma

open Edma EdmaInput

variable {μ : Type}

def edmaLines (x : Engine μ) : ChanIdx → Bool := x.st.irq

def edmaWanted (x : Engine μ) : ChanIdx → Bool := fun n => anyBit (x.st.ch n).intr chIntInt

def EdmaInStep : Engine μ → Prop := InStep edmaLines edmaWanted

def edmaLoad (x : Engine μ) (saved : EdmaState) : Engine μ :=
  { x with st := mcxnEdmaPostLoad (x.st.load saved) }

/-- What a reset of the machine leaves of the controller and of the levels of its lines. -/
def edmaMachineReset (x : Engine μ) : Engine μ :=
  { x with st := { mcxnEdmaReset x.st with irq := fun _ => false } }

def edmaNext (f : Fabric μ) (x : Engine μ) : LoadEvent (EdmaEvent μ) EdmaState → Engine μ
  | .event .reset => edmaMachineReset x
  | .event e => edmaStep f x e
  | .load saved => edmaLoad (edmaMachineReset x) saved

variable {bus : Bus μ} {x : Engine μ}

lemma EdmaInStep.of_eq {y : Engine μ} (h : EdmaInStep x) (hirq : y.st.irq = x.st.irq)
    (hintr : ∀ n, (y.st.ch n).intr = (x.st.ch n).intr) : EdmaInStep y := by
  have hwanted : edmaWanted y = edmaWanted x := by
    funext n
    rw [edmaWanted, hintr n]
    rfl
  exact (hirq.trans h).trans hwanted.symm

lemma EdmaInStep.modifyCh (h : EdmaInStep x) (n : ChanIdx) {f : Chan → Chan}
    (hintr : (f (x.st.ch n)).intr = (x.st.ch n).intr) : EdmaInStep (x.modifyCh n f) := by
  refine h.of_eq (y := x.modifyCh n f) rfl fun m => ?_
  by_cases hm : m = n
  · subst hm
    simp [Engine.modifyCh, EdmaState.modifyCh, hintr]
  · simp [Engine.modifyCh, EdmaState.modifyCh, update, hm]

lemma EdmaInStep.update (h : EdmaInStep x) (n : ChanIdx) (f : Chan → Chan) :
    EdmaInStep { x with st := edmaUpdateIrq (x.st.modifyCh n f) n } := by
  funext m
  have hm := congrFun h m
  change x.st.irq m = anyBit (x.st.ch m).intr chIntInt at hm
  by_cases hn : m = n
  · subst hn
    simp [edmaLines, edmaWanted, edmaUpdateIrq]
  · simp [edmaLines, edmaWanted, edmaUpdateIrq, EdmaState.modifyCh, hn, hm]

lemma inStep_rule
    (hread : ∀ (x : Engine μ) addr size, EdmaInStep x → EdmaInStep (bus.read x addr size).1)
    (hwrite : ∀ (x : Engine μ) addr data, EdmaInStep x → EdmaInStep (bus.write x addr data)) :
    EngineRule bus fun x y => EdmaInStep x → EdmaInStep y where
  refl _ h := h
  trans hxy hyz h := hyz (hxy h)
  own _ _ _ hquiet _ h := h.of_eq hquiet.irq hquiet.intr
  raise _ n h := h.update n _
  read := hread
  write := hwrite

lemma drive_inStep (i : EdmaInput) (h : EdmaInStep x) : EdmaInStep (x.drive i) := by
  have hkept : (i.drive x.st).irq = x.st.irq ∧ (i.drive x.st).ch = x.st.ch := by
    cases i with
    | req src level =>
      simp only [drive, mcxnEdmaReq]
      split
      · exact ⟨rfl, rfl⟩
      · split <;> exact ⟨rfl, rfl⟩
    | reqEnable src level =>
      simp only [drive, mcxnEdmaReqEnable]
      split
      · exact ⟨rfl, rfl⟩
      split
      · exact ⟨rfl, rfl⟩
      · split <;> exact ⟨rfl, rfl⟩
    | reqPulse src level =>
      simp only [drive, mcxnEdmaReqPulse]
      split
      · exact ⟨rfl, rfl⟩
      · split <;> exact ⟨rfl, rfl⟩
  exact h.of_eq hkept.1 fun n => congrArg Chan.intr (congrFun hkept.2 n)

variable (f : Fabric μ)

lemma busWith_inStep_rule {serve : Engine μ → BusEffect → Engine μ}
    (hserve : ∀ x e, EdmaInStep x → EdmaInStep (serve x e)) :
    EngineRule (f.busWith serve) fun x y => EdmaInStep x → EdmaInStep y := by
  apply inStep_rule
  · intro x addr size h
    have hmem : EdmaInStep { x with mem := (f.read x.st x.mem addr size).1 } :=
      h.of_eq rfl fun _ => rfl
    exact run_invariant hserve hmem _
  intro x addr data h
  have hmem : EdmaInStep { x with mem := (f.write x.st x.mem addr data).1 } :=
    h.of_eq rfl fun _ => rfl
  exact run_invariant hserve hmem _

lemma engagedBus_inStep_rule : EngineRule f.engagedBus fun x y => EdmaInStep x → EdmaInStep y := by
  apply busWith_inStep_rule
  intro x e h
  cases e with
  | input i => exact drive_inStep i h
  | ownWrite off v => exact h

lemma write_intr (c : Chan) (v : Word) {r : ChanReg} (hr : r ≠ .chInt) :
    (c.write v r).intr = c.intr := by
  cases r <;> first | rfl | exact absurd rfl hr

lemma edmaWrite_inStep (hrule : EngineRule bus fun x y => EdmaInStep x → EdmaInStep y)
    (h : EdmaInStep x) (off : ℕ) (v : Word) : EdmaInStep (edmaWrite bus x off v) := by
  unfold edmaWrite
  split
  · exact h.of_eq rfl fun _ => rfl
  · exact h.of_eq rfl fun _ => rfl
  next n _ =>
    split
    · exact h.update n _
    rename_i hclear
    apply h.modifyCh
    rw [Chan.write, if_neg hclear]
  next n _ =>
    have hstored : EdmaInStep (x.modifyCh n fun c => c.write v .tcdCsr) := h.modifyCh n rfl
    split
    · exact hrule.edmaRun _ n (hstored.modifyCh n rfl)
    · exact hstored
  next n r hint _ _ => exact h.modifyCh n (write_intr _ v hint)
  · exact h
  · exact h
  · exact h

lemma serviceBus_inStep_rule : EngineRule f.serviceBus fun x y => EdmaInStep x → EdmaInStep y := by
  apply busWith_inStep_rule
  intro x e h
  cases e with
  | input i => exact drive_inStep i h
  | ownWrite off v => exact edmaWrite_inStep (engagedBus_inStep_rule f) h off v

lemma serviceChannel_inStep (x : Engine μ) (n : ChanIdx)
    (h : EdmaInStep x) : EdmaInStep (serviceChannel f.serviceBus x n).1 := by
  unfold serviceChannel
  dsimp only
  split
  · have hbegun : EdmaInStep ((x.mark (.request n (muxSrc (x.st.ch n).mux))).modifyCh n
        Chan.clearDone) :=
      EdmaInStep.modifyCh (h.of_eq rfl fun _ => rfl) n rfl
    have hloop := (serviceBus_inStep_rule f).edmaMinorLoop _ n hbegun
    split
    · exact hloop.of_eq rfl fun _ => rfl
    · exact hloop
  · exact h

lemma runBh_inStep (h : EdmaInStep x) : EdmaInStep (runBh f.serviceBus x) := by
  unfold runBh
  split
  · have hidle : EdmaInStep { x with st := { x.st with bhScheduled := false } } :=
      h.of_eq rfl fun _ => rfl
    have hloop : EdmaInStep (serviceLoop f.serviceBus maxLoops
        { x with st := { x.st with bhScheduled := false } }) :=
      (loopVisits_between (R := fun x y => EdmaInStep x → EdmaInStep y) (fun _ h => h)
        (fun _ _ _ hxy hyz h => hyz (hxy h)) (serviceChannel_inStep f) maxLoops _).1 hidle
    exact hloop.of_eq rfl fun _ => rfl
  · exact h

lemma foldl_edmaUpdateIrq (channels : List ChanIdx) (s : EdmaState) :
    (channels.foldl edmaUpdateIrq s).ch = s.ch ∧ ∀ n, n ∈ channels →
      (channels.foldl edmaUpdateIrq s).irq n = anyBit (s.ch n).intr chIntInt := by
  induction channels using List.reverseRecOn with
  | nil => exact ⟨rfl, nofun⟩
  | append_singleton before m ih =>
    rw [List.foldl_append]
    refine ⟨ih.1, fun n hn => ?_⟩
    change update _ m _ n = _
    by_cases hm : n = m
    · rw [hm, update_self, ih.1]
    rw [update_of_ne hm]
    apply ih.2
    simpa [hm] using hn

lemma edmaLoad_inStep (x : Engine μ) (saved : EdmaState) : EdmaInStep (edmaLoad x saved) := by
  obtain ⟨hch, hirq⟩ := foldl_edmaUpdateIrq (List.finRange 16) (x.st.load saved)
  unfold edmaLoad mcxnEdmaPostLoad
  dsimp only
  generalize (List.finRange 16).foldl edmaUpdateIrq (x.st.load saved) = s at hch hirq ⊢
  have hdriven : EdmaInStep { x with st := s } := by
    funext n
    change s.irq n = anyBit (s.ch n).intr chIntInt
    rw [hirq n (List.mem_finRange n), hch]
  split
  · exact hdriven.of_eq rfl fun _ => rfl
  · exact hdriven

lemma edmaNext_inStep (x : Engine μ) (e : LoadEvent (EdmaEvent μ) EdmaState) (h : EdmaInStep x) :
    EdmaInStep (edmaNext f x e) := by
  cases e with
  | load saved => exact edmaLoad_inStep _ saved
  | event e =>
    cases e with
    | mmioWrite off v => exact edmaWrite_inStep (engagedBus_inStep_rule f) h off v
    | input i => exact drive_inStep i h
    | bh => exact runBh_inStep f h
    | world mem => exact h.of_eq rfl fun _ => rfl
    | reset =>
      funext n
      exact (anyBit_zero_left chIntInt).symm

end Edma

section Ctimer

open Ctimer CtimerState Option

def ctimerWanted (s : CtimerState) : Bool := s.ir != 0

def CtimerInStep : CtimerState → Prop := InStep irq ctimerWanted

def ctimerMachineReset (s : CtimerState) : CtimerState := { mcxnCtimerReset s with irq := false }

def ctimerNext (s : CtimerState) : LoadEvent Event CtimerState → Option CtimerState
  | .event .reset => some (ctimerMachineReset s)
  | .event e => step s e
  | .load saved => some (mcxnCtimerPostLoad ((ctimerMachineReset s).load saved))

def ctimerPowerOn (hz : Word) : CtimerState :=
  mcxnCtimerReset
    { clkHz := hz, ir := 0, tcr := 0, pr := 0, mcr := 0, mr := fun _ => 0, ccr := 0, emr := 0
      ctcr := 0, pwmc := 0, cr := fun _ => 0, msr := fun _ => 0, tc := 0, pc := 0, baseNs := 0
      cap0Level := false, timer := none, irq := false, dmaPulses := fun _ => 0
      trigPulses := fun _ => 0 }

structure CtimerQuiet (s t : CtimerState) : Prop where
  ir : t.ir = s.ir
  irq : t.irq = s.irq

variable {s t : CtimerState} {now : ℤ} {e : LoadEvent Event CtimerState}

lemma CtimerQuiet.tracks (h : CtimerQuiet s t) : Tracks CtimerState.irq ctimerWanted s t True :=
  .idle h.irq (by rw [ctimerWanted, h.ir]; rfl) trivial

lemma CtimerQuiet.trans {u : CtimerState} (hst : CtimerQuiet s t)
    (htu : CtimerQuiet t u) : CtimerQuiet s u :=
  ⟨htu.ir.trans hst.ir, htu.irq.trans hst.irq⟩

lemma ctimerSync_quiet (h : ctimerSync s now = some t) : CtimerQuiet s t := by
  obtain ⟨counts, -, hcounts⟩ := Option.bind_eq_some_iff.mp h
  cases hcounts
  exact ⟨rfl, rfl⟩

lemma ctimerReschedule_quiet (h : ctimerReschedule s now = some t) : CtimerQuiet s t := by
  unfold ctimerReschedule at h
  split at h
  · cases h
    exact ⟨rfl, rfl⟩
  obtain ⟨best, -, hbest⟩ := Option.bind_eq_some_iff.mp h
  cases hbest
  exact ⟨rfl, rfl⟩

lemma setCountReg_quiet (s : CtimerState) (r : CountReg) (v : Word) :
    CtimerQuiet s (setCountReg s r v) := by
  cases r with
  | tcr =>
    unfold setCountReg
    dsimp only
    split <;> exact ⟨rfl, rfl⟩
  | tc | pr | pc | mcr | mr => exact ⟨rfl, rfl⟩

lemma ctimerWrite_tracks {off : ℕ} {v : Word} (h : ctimerWrite s off v now = some t) :
    Tracks CtimerState.irq ctimerWanted s t True := by
  unfold ctimerWrite at h
  split at h
  next r _ =>
    obtain ⟨synced, hsync, hwritten⟩ := Option.bind_eq_some_iff.mp h
    exact (((ctimerSync_quiet hsync).trans (setCountReg_quiet synced r v)).trans
      (ctimerReschedule_quiet hwritten)).tracks
  cases h
  unfold writePlain
  split
  · exact .driven rfl trivial
  · repeat' split
    all_goals exact .idle rfl rfl trivial

lemma ctimerTick_tracks (h : ctimerTick s now = some t) : Tracks irq ctimerWanted s t True := by
  obtain ⟨synced, -, hfired⟩ := Option.bind_eq_some_iff.mp h
  have hquiet := ctimerReschedule_quiet hfired
  refine .driven ?_ trivial
  rw [hquiet.irq, ctimerWanted, hquiet.ir]
  rfl

lemma ctimerCapture0_tracks {level : Bool} (h : ctimerCapture0 s level now = some t) :
    Tracks irq ctimerWanted s t True := by
  unfold ctimerCapture0 at h
  split at h
  · obtain ⟨counts, -, hcaptured⟩ := Option.bind_eq_some_iff.mp h
    cases hcaptured
    split
    · exact .driven rfl trivial
    · exact .idle rfl rfl trivial
  · cases h
    exact .idle rfl rfl trivial

lemma ctimerNext_tracks (h : ctimerNext s e = some t) :
    Tracks irq ctimerWanted s t True := by
  cases e with
  | load saved =>
    cases h
    exact .driven rfl trivial
  | event e =>
    cases e with
    | clock hz =>
      cases h
      exact .idle rfl rfl trivial
    | read off now =>
      obtain ⟨value, -, hsame⟩ := Option.map_eq_some_iff.mp h
      subst hsame
      exact .idle rfl rfl trivial
    | write off v now => exact ctimerWrite_tracks h
    | tick now => exact ctimerTick_tracks h
    | capture level now => exact ctimerCapture0_tracks h
    | reset =>
      cases h
      exact .driven rfl trivial

end Ctimer

section Flexcan

open Flexcan FlexcanState

inductive FlexcanEvent where
  | write (off size : ℕ) (value : Word)
  | receive (f : CanFrame)
  | reset

def flexcanStep (s : FlexcanState) : FlexcanEvent → FlexcanState
  | .write off size value => (flexcanWrite s off size value).1
  | .receive f => flexcanBusReceive s f
  | .reset => mcxnFlexcanReset s

def FlexcanInStep : FlexcanState → Prop := InStep irq interrupts

def flexcanMachineReset (s : FlexcanState) : FlexcanState :=
  { mcxnFlexcanReset s with irq := false }

def flexcanNext (s : FlexcanState) : LoadEvent FlexcanEvent (ℕ → Word) → FlexcanState
  | .event .reset => flexcanMachineReset s
  | .event e => flexcanStep s e
  | .load saved => mcxnFlexcanLoad (flexcanMachineReset s) saved

def flexcanPowerOn (canbus : Bool) : FlexcanState := mcxnFlexcanReset (.created canbus)

variable {off : ℕ}

section

variable (hflag : off / 4 ≠ rIflag1 / 4) (hmask : off / 4 ≠ rImask1 / 4) (s : FlexcanState)
  (v : Word)
include hflag hmask

lemma flexcanSetReg_interrupts : (s.setReg off v).interrupts = s.interrupts := by
  simp only [interrupts, reg, setReg,
    setWord, Function.update_of_ne hflag.symm, Function.update_of_ne hmask.symm]

lemma flexcanSetReg_tracks : Tracks irq interrupts s (s.setReg off v) True :=
  .idle rfl (flexcanSetReg_interrupts hflag hmask s v) trivial

end

section

variable (s : FlexcanState)

lemma flexcanWrite_tracks (off size : ℕ) (value : Word) :
    Tracks irq interrupts s (flexcanWrite s off size value).1 True := by
  have hidle : Tracks irq interrupts s s True := .idle rfl rfl trivial
  unfold flexcanWrite
  dsimp only
  split
  · exact hidle
  split
  next hmcr => exact flexcanSetReg_tracks (by rw [hmcr]; decide) (by rw [hmcr]; decide) s _
  split
  next hesr => exact flexcanSetReg_tracks (by rw [hesr]; decide) (by rw [hesr]; decide) s _
  split
  · exact .driven rfl trivial
  rename_i hflag
  split
  · exact .driven rfl trivial
  rename_i hmask
  split
  · exact hidle
  have hstored := fun v => flexcanSetReg_tracks hflag hmask s v
  split
  · -- arming a buffer: a controller that is not enabled sends nothing
    unfold flexcanTransmit
    split
    · exact hstored _
    dsimp only
    split
    · exact .driven rfl trivial
    · split <;> exact .driven rfl trivial
  · exact hstored _

lemma flexcanReset_interrupts : (mcxnFlexcanReset s).interrupts = false := by
  have hzero : anyBit (0 : Word) 0 = false := anyBit_zero_left 0
  exact hzero

lemma flexcanNext_tracks (e : LoadEvent FlexcanEvent (ℕ → Word)) :
    Tracks irq interrupts s (flexcanNext s e) True := by
  cases e with
  | load regs => exact .driven rfl trivial
  | event e =>
    cases e with
    | write off size value => exact flexcanWrite_tracks s off size value
    | receive f =>
      change Tracks _ _ s (flexcanBusReceive s f) True
      unfold flexcanBusReceive
      split
      · exact .idle rfl rfl trivial
      split
      · exact .idle rfl rfl trivial
      split
      · exact .driven rfl trivial
      · exact .idle rfl rfl trivial
    | reset => exact .driven (flexcanReset_interrupts s).symm trivial

end

end Flexcan

section Fmu

open Fmu

def fmuWanted (s : FmuState) : Bool := anyBit s.fstat fstatCcif && anyBit s.fcnfg fcnfgCcie

def FmuInStep : FmuState → Prop := InStep FmuState.irq fmuWanted

def fmuMachineReset (s : FmuState) : FmuState := { mcxnFmuReset s with irq := false }

def fmuLoadNext (s : FmuState) : LoadEvent FmuEvent FmuState → Option FmuState
  | .event .reset => some (fmuMachineReset s)
  | .event e => fmuStep s e
  | .load saved => some (mcxnFmuPostLoad ((fmuMachineReset s).load saved))

variable {s t : FmuState}

structure FmuQuiet (s t : FmuState) : Prop where
  irq : t.irq = s.irq
  ccif : anyBit t.fstat fstatCcif = anyBit s.fstat fstatCcif
  fcnfg : t.fcnfg = s.fcnfg

lemma FmuQuiet.wanted (h : FmuQuiet s t) : fmuWanted t = fmuWanted s := by
  rw [fmuWanted, h.ccif, h.fcnfg]
  rfl

lemma FmuQuiet.tracks (h : FmuQuiet s t) : Tracks FmuState.irq fmuWanted s t True :=
  .idle h.irq h.wanted trivial

lemma FmuQuiet.driven {u : FmuState} (hquiet : FmuQuiet t u) (ht : FmuInStep t) :
    Tracks FmuState.irq fmuWanted s u True :=
  .driven ((hquiet.irq.trans ht).trans hquiet.wanted.symm) trivial

section

variable (s : FmuState)

lemma fmuUpdateIrq_inStep : FmuInStep (fmuUpdateIrq s) := rfl

lemma fmuFail_inStep (flag : Word) : FmuInStep (fmuFail s flag) := rfl

lemma fmuComplete_inStep : FmuInStep (fmuComplete s) := rfl

lemma fmuOpenWriteWindow_quiet (cmd : Byte) (words : ℕ) {pewen : Word}
    (hpewen : anyBit pewen fstatCcif = false) :
    FmuQuiet s (fmuOpenWriteWindow s cmd words pewen) := by
  refine ⟨rfl, ?_, rfl⟩
  simp only [fmuOpenWriteWindow, anyBit_or, hpewen, Bool.or_false]
  rw [anyBit_clear_of_disjoint (by decide), anyBit_clear_of_disjoint (by decide)]

lemma fmuLaunch_inStep : FmuInStep (fmuLaunch s) := by
  have hones : ∀ (t : FmuState) (addr unit : ℕ), FmuInStep (fmuReadOnes t addr unit) := by
    intro t addr unit
    unfold fmuReadOnes
    split <;> rfl
  have hopen : ∀ (t : FmuState) (cmd : Byte) (words : ℕ) {pewen : Word},
      anyBit pewen fstatCcif = false → FmuInStep t →
      FmuInStep (fmuOpenWriteWindow t cmd words pewen) := by
    intro t cmd words pewen hpewen ht
    have hquiet := fmuOpenWriteWindow_quiet t cmd words hpewen
    exact (hquiet.irq.trans ht).trans hquiet.wanted.symm
  unfold fmuLaunch
  dsimp only
  split
  · exact fmuComplete_inStep _
  split
  · exact fmuComplete_inStep _
  split
  · exact fmuComplete_inStep _
  split
  · exact hones _ _ _
  split
  · exact hones _ _ _
  split
  · exact hones _ _ _
  split
  · exact hopen _ _ _ (by decide) rfl
  split
  · exact hopen _ _ _ (by decide) rfl
  · exact fmuFail_inStep _ _

end

lemma fmuCommit_inStep (h : fmuCommit s = some t) : FmuInStep t := by
  unfold fmuCommit at h
  dsimp only at h
  split at h
  · split at h
    · cases h
      exact fmuFail_inStep _ _
    · cases h
      exact fmuComplete_inStep _
  split at h
  · split at h
    · cases h
      exact fmuFail_inStep _ _
    · cases h
      exact fmuComplete_inStep _
  · cases h

lemma fmuFlashWrite_tracks (s : FmuState) (off : ℕ) (v : Word) (size : ℕ) :
    Tracks FmuState.irq fmuWanted s (mcxnFmuFlashWrite s off v size) True := by
  have hstaged : ∀ u, fmuStageAddr s off = some u → FmuQuiet s u := by
    intro u hu
    unfold fmuStageAddr at hu
    split at hu
    · split at hu
      · cases hu
      · cases hu
        exact ⟨rfl, rfl, rfl⟩
    split at hu
    · cases hu
    · cases hu
      exact ⟨rfl, rfl, rfl⟩
  unfold mcxnFmuFlashWrite
  split
  · exact .idle rfl rfl trivial
  split
  · exact .driven (fmuFail_inStep _ _) trivial
  split
  · exact .driven (fmuFail_inStep _ _) trivial
  rename_i u hu
  have hquiet := hstaged u hu
  split
  · exact .driven (fmuFail_inStep _ _) trivial
  dsimp only
  split
  · have hperdy : anyBit ((u.fstat &&& ~~~fstatPewenMask) ||| fstatPerdy) fstatCcif =
        anyBit u.fstat fstatCcif := by
      have hbit : anyBit fstatPerdy fstatCcif = false := by decide
      rw [anyBit_or, hbit, Bool.or_false, anyBit_clear_of_disjoint (by decide)]
    exact FmuQuiet.tracks ⟨hquiet.irq, hperdy.trans hquiet.ccif, hquiet.fcnfg⟩
  · exact FmuQuiet.tracks ⟨hquiet.irq, hquiet.ccif, hquiet.fcnfg⟩

lemma fmuWrite_tracks {off : ℕ} {v : Word} (h : mcxnFmuWrite s off v = some t) :
    Tracks FmuState.irq fmuWanted s t True := by
  have herrors : anyBit (s.fstat &&& ~~~(v &&& fstatErrors)) fstatCcif =
      anyBit s.fstat fstatCcif :=
    anyBit_clear_and_of_disjoint (by decide) _ _
  unfold mcxnFmuWrite at h
  dsimp only at h
  split at h
  · split at h
    · exact .driven (fmuCommit_inStep h) trivial
    split at h
    · cases h
      exact .driven (fmuLaunch_inStep _) trivial
    · cases h
      exact FmuQuiet.tracks ⟨rfl, herrors, rfl⟩
  split at h
  · cases h
    exact .driven (fmuUpdateIrq_inStep _) trivial
  split at h
  · split at h
    · cases h
      split
      · exact FmuQuiet.driven (t := fmuFail { s with fctrl := v } fstatCmdabt)
          ⟨rfl, rfl, rfl⟩ (fmuFail_inStep _ _)
      · exact FmuQuiet.tracks ⟨rfl, rfl, rfl⟩
    · cases h
      exact FmuQuiet.tracks ⟨rfl, rfl, rfl⟩
  split at h
  · split at h
    · cases h
      exact FmuQuiet.tracks ⟨rfl, rfl, rfl⟩
    · cases h
      exact FmuQuiet.tracks ⟨rfl, rfl, rfl⟩
  · cases h
    exact FmuQuiet.tracks ⟨rfl, rfl, rfl⟩

lemma fmuReset_wanted (s : FmuState) : fmuWanted (mcxnFmuReset s) = false := by
  have hccie : anyBit (0 : Word) fcnfgCcie = false := anyBit_zero_left _
  change (anyBit fstatCcif fstatCcif && anyBit (0 : Word) fcnfgCcie) = false
  rw [hccie, Bool.and_false]

variable {e : LoadEvent FmuEvent FmuState}

lemma fmuLoadNext_tracks (h : fmuLoadNext s e = some t) :
    Tracks FmuState.irq fmuWanted s t True := by
  cases e with
  | load saved =>
    cases h
    exact .driven (fmuUpdateIrq_inStep _) trivial
  | event e =>
    cases e with
    | write off v => exact fmuWrite_tracks h
    | flashWrite off v size =>
      cases h
      exact fmuFlashWrite_tracks s off v size
    | reset =>
      cases h
      exact .driven (fmuReset_wanted s).symm trivial

end Fmu

lemma alwaysPartial_inStep {σ ε α : Type} {step : σ → ε → Option σ} {line wanted : σ → α} {s : σ}
    (htracks : ∀ {s t e}, step s e = some t → Tracks line wanted s t True)
    (hs : InStep line wanted s) (events : List ε) :
    AlwaysPartial step (InStep line wanted) s events := fun _ _ _ hreached =>
  runPartial_invariant (fun _ _ _ hs hnext => ((htracks hnext).inStep_iff hs).mpr trivial)
    hs hreached

/-- In every state that a run from power-on reaches, by guest accesses, device events,
resets of the machine and loaded snapshots, the interrupt lines of each device show their
conditions; a reset taken while a line is high thus lowers it. -/
theorem lines_survive_reset {μ : Type} (f : Edma.Fabric μ) (dmaId : Byte) (mem : μ)
    (hz : Word) (canbus : Bool) (flash : GuestMemory.Mem)
    (edma : List (LoadEvent (Edma.EdmaEvent μ) Edma.EdmaState))
    (ctimer : List (LoadEvent Ctimer.Event Ctimer.CtimerState))
    (flexcan : List (LoadEvent FlexcanEvent (ℕ → Word)))
    (fmu : List (LoadEvent Fmu.FmuEvent Fmu.FmuState)) :
    Always (edmaNext f) EdmaInStep (.powerOn dmaId mem) edma ∧
    AlwaysPartial ctimerNext CtimerInStep (ctimerPowerOn hz) ctimer ∧
    Always flexcanNext FlexcanInStep (flexcanPowerOn canbus) flexcan ∧
    AlwaysPartial fmuLoadNext FmuInStep (Fmu.powerOn flash) fmu := by
  refine ⟨?_, ?_, ?_, ?_⟩
  · have hpowerOn : EdmaInStep (.powerOn dmaId mem) := by
      funext n
      exact (anyBit_zero_left _).symm
    exact fun before _ => run_invariant (edmaNext_inStep f) hpowerOn before
  · have hpowerOn : CtimerInStep (ctimerPowerOn hz) := (bne_self_eq_false (0 : Word)).symm
    exact alwaysPartial_inStep ctimerNext_tracks hpowerOn ctimer
  · have hstep := fun s e (hs : FlexcanInStep s) =>
      ((flexcanNext_tracks s e).inStep_iff hs).mpr trivial
    have hpowerOn : FlexcanInStep (flexcanPowerOn canbus) := (flexcanReset_interrupts _).symm
    exact fun before _ => run_invariant hstep hpowerOn before
  · have hpowerOn : FmuInStep (Fmu.powerOn flash) := (fmuReset_wanted _).symm
    exact alwaysPartial_inStep fmuLoadNext_tracks hpowerOn fmu

end Mcxn947.ResetLines
