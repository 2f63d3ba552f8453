import Mcxn947.EdmaFabric
import Mcxn947.DacModel
import Mcxn947.AdcModel
import Mcxn947.SaiModel

/-!
# The FIFO peripherals on the eDMA

`hw/arm/mcxn_soc.c` connects the request lines of the DACs, the ADCs and the SAIs to level
inputs of the first eDMA.
-/

namespace Mcxn947.FifoRequests

open MachineWords EventRuns LevelLines Edma Dac Adc Sai Function

variable {ρ : Type}

inductive FifoLine where
  | dac
  | adc (f : FifoIdx)
  | sai (l : SaiLine)
deriving DecidableEq

structure Sites where
  dac : Fin 3
  (adc sai : Fin 2)

def src (w : Sites) : FifoLine → ReqSrc
  | .dac => ⟨25 + w.dac, by omega⟩
  | .adc f => ⟨21 + 2 * w.adc + f, by omega⟩
  | .sai .tx => ⟨100 + 2 * w.sai, by omega⟩
  | .sai .rx => ⟨99 + 2 * w.sai, by omega⟩

lemma src_injective (w : Sites) : Function.Injective (src w) := by
  intro k l hkl
  have hval := congrArg Fin.val hkl
  rcases k with _ | f | _ | _ <;> rcases l with _ | g | _ | _ <;>
    simp only [src, Fin.ext_iff, FifoLine.adc.injEq, reduceCtorEq] at hval ⊢ <;> omega

structure Fifos where
  dac : DacState
  adc : AdcState
  sai : SaiState
  clocks : SaiClocks

variable (f : Fifos)

def Fifos.lines : Lines FifoLine where
  level
    | .dac => f.dac.dmaReq.level ()
    | .adc i => f.adc.dmaReq.level i
    | .sai l => f.sai.dmaReq.level l
  drives :=
    (f.dac.dmaReq.drives.map fun d => (.dac, d.2)) ++
      (f.adc.dmaReq.drives.map fun d => (.adc d.1, d.2)) ++
      (f.sai.dmaReq.drives.map fun d => (.sai d.1, d.2))

def Fifos.asks (f : Fifos) : FifoLine → Bool
  | .dac => f.dac.asks
  | .adc i => f.adc.asks i
  | .sai l => f.sai.asks l

def Fifos.flush (f : Fifos) : Fifos :=
  { f with
    dac := { f.dac with dmaReq := f.dac.dmaReq.flush }
    adc := { f.adc with dmaReq := f.adc.dmaReq.flush }
    sai := { f.sai with dmaReq := f.sai.dmaReq.flush } }

inductive Port where
  | dac (off : ℕ)
  | adc (off : ℕ)
  | sai (off : ℕ)
deriving DecidableEq

def Port.shift : Port → ℕ → Port
  | .dac off, n => .dac (off + n)
  | .adc off, n => .adc (off + n)
  | .sai off, n => .sai (off + n)

def Fifos.write (size : ℕ) (v : Word) : Port → Fifos
  | .dac off => { f with dac := mcxnDacWrite f.dac off size v }
  | .adc off => { f with adc := mcxnAdcWrite f.adc off v }
  | .sai off => { f with sai := mcxnSaiWrite f.sai f.clocks off v }

def Fifos.read : Port → Fifos × Word
  | .dac off => (f, mcxnDacRead f.dac off)
  | .adc off => ({ f with adc := (mcxnAdcRead f.adc off).2 }, (mcxnAdcRead f.adc off).1)
  | .sai off => ({ f with sai := (mcxnSaiRead f.sai off).2 }, (mcxnSaiRead f.sai off).1)

inductive FifoInput where
  | dacTrigger (level : Bool)
  | adcTrigger (trig : ℤ) (level : Bool)
  | adcChannel (ch : Fin 16) (v : HalfWord)
  | wordTick
  | clocks (c : SaiClocks)

def Fifos.input : FifoInput → Fifos
  | .dacTrigger level => { f with dac := dacHwTrigger f.dac level }
  | .adcTrigger trig level => { f with adc := mcxnAdcHwTrigger f.adc trig level }
  | .adcChannel ch v => { f with adc := { f.adc with adcCh := Function.update f.adc.adcCh ch v } }
  | .wordTick => { f with sai := mcxnSaiWordTick f.sai f.clocks.mclk }
  | .clocks c => { f with clocks := c }

def Keeps (v : Word) : Port → Prop
  | .dac _ => True
  | .adc off => AdcPlain off → (f.adc.setReg off v).asks = f.adc.asks
  | .sai off => SaiPlain off → (f.sai.setReg off v).asks = f.sai.asks

section Bundle

lemma hold_lines (held : FifoLine → Bool) (l : FifoLine) : hold held f.lines.drives l = match l with
      | .dac => hold (fun _ => held .dac) f.dac.dmaReq.drives ()
      | .adc i => hold (held ∘ .adc) f.adc.dmaReq.drives i
      | .sai l => hold (held ∘ .sai) f.sai.dmaReq.drives l := by
  simp only [Fifos.lines, hold_append]
  cases l with
  | dac =>
    rw [hold_map_of_ne (by simp), hold_map_of_ne (by simp)]
    exact hold_map (e := fun _ : Unit => FifoLine.dac) (fun _ _ _ => rfl) held _ ()
  | adc i =>
    rw [hold_map_of_ne (by simp), hold_map fun _ _ h => FifoLine.adc.inj h]
    congr 1
    funext j
    exact hold_map_of_ne (e := fun _ : Unit => FifoLine.dac) (by simp) held _
  | sai l =>
    rw [hold_map fun _ _ h => FifoLine.sai.inj h]
    congr 1
    funext j
    refine (hold_map_of_ne (by simp) _ _).trans ?_
    exact hold_map_of_ne (e := fun _ : Unit => FifoLine.dac) (by simp) held _

lemma heldBy_lines {f : Fifos} {held : FifoLine → Bool} : f.lines.HeldBy held ↔
      f.dac.dmaReq.HeldBy (fun _ => held .dac) ∧ f.adc.dmaReq.HeldBy (held ∘ .adc) ∧
      f.sai.dmaReq.HeldBy (held ∘ .sai) := by
  simp only [Lines.HeldBy, funext_iff, hold_lines]
  constructor
  · intro h
    exact ⟨fun _ => h .dac, fun i => h (.adc i), fun l => h (.sai l)⟩
  rintro ⟨hdac, hadc, hsai⟩ (_ | i | l)
  · exact hdac ()
  · exact hadc i
  · exact hsai l

abbrev Paced : Fifos → Fifos → Prop := Follows Fifos.lines Fifos.asks

lemma shows_iff {f : Fifos} : f.lines.level = f.asks ↔
      (f.dac.dmaReq.level = fun _ => f.dac.asks) ∧ f.adc.dmaReq.level = f.adc.asks ∧
      f.sai.dmaReq.level = f.sai.asks := by
  simp only [funext_iff]
  constructor
  · intro h
    exact ⟨fun _ => h .dac, fun i => h (.adc i), fun l => h (.sai l)⟩
  rintro ⟨hdac, hadc, hsai⟩ (_ | i | l)
  · exact hdac ()
  · exact hadc i
  · exact hsai l

lemma Paced.bundle {f g : Fifos} (hdac : Dac.Paced f.dac g.dac)
    (hadc : Adc.Paced f.adc g.adc) (hsai : Sai.Paced f.sai g.sai) : Paced f g where
  held held h := by
    obtain ⟨h₁, h₂, h₃⟩ := heldBy_lines.mp h
    exact heldBy_lines.mpr ⟨hdac.held _ h₁, hadc.held _ h₂, hsai.held _ h₃⟩
  shows h := by
    obtain ⟨h₁, h₂, h₃⟩ := shows_iff.mp h
    exact shows_iff.mpr ⟨hdac.shows h₁, hadc.shows h₂, hsai.shows h₃⟩

lemma Fifos.write_paced {f : Fifos} (size : ℕ) {v : Word} {p : Port}
    (hkeeps : Keeps f v p) : Paced f (f.write size v p) := by
  cases p with
  | dac off => exact .bundle (dacWrite_paced f.dac off size v) (.refl _) (.refl _)
  | adc off => exact .bundle (.refl _) (adcWrite_paced f.adc off v hkeeps) (.refl _)
  | sai off => exact .bundle (.refl _) (.refl _) (saiWrite_paced f.sai f.clocks off v hkeeps)

lemma Fifos.read_paced (p : Port) : Paced f (f.read p).1 := by
  cases p with
  | dac off => exact .refl f
  | adc off => exact .bundle (.refl _) (adcRead_paced f.adc off) (.refl _)
  | sai off => exact .bundle (.refl _) (.refl _) (saiRead_paced f.sai off)

lemma Fifos.input_paced (i : FifoInput) : Paced f (f.input i) := by
  cases i with
  | dacTrigger level => exact .bundle (hwTrigger_paced f.dac level) (.refl _) (.refl _)
  | adcTrigger trig level =>
    exact .bundle (.refl _) (adcHwTrigger_paced f.adc trig level) (.refl _)
  | adcChannel ch v => exact .bundle (.refl _) (.untouched rfl rfl) (.refl _)
  | wordTick => exact .bundle (.refl _) (.refl _) (wordTick_paced f.sai _)
  | clocks c => exact .bundle (.refl _) (.refl _) (.refl _)

end Bundle

def Spares (w : Sites) (i : EdmaInput) : Prop := ∀ l, i.source? ≠ some (src w l)

def SparesEffect (w : Sites) : BusEffect → Prop
  | .input i => Spares w i
  | .ownWrite _ _ => True

structure Board (ρ : Type) where
  fifos : Fifos
  rest : ρ
  writes : List (Fifos × Word × Port)

structure Machine (ρ : Type) where
  sites : Sites
  (hpdac loopback : Bool)
  window : Word → Option Port
  restRead : EdmaState → ρ → Word → (size : ℕ) →
    ρ × Vector Byte size × Bool × List { e : BusEffect // SparesEffect sites e }
  restWrite : EdmaState → ρ → Word → List Byte → ρ × List { e : BusEffect // SparesEffect sites e }

def Board.start (b : Board ρ) : Board ρ := { b with fifos := b.fifos.flush }

def Board.write (b : Board ρ) (p : Port) (size : ℕ) (v : Word) : Board ρ :=
  { b with fifos := b.fifos.write size v p, writes := b.writes ++ [(b.fifos, v, p)] }

def Board.read (b : Board ρ) (p : Port) : Board ρ × Word :=
  ({ b with fifos := (b.fifos.read p).1 }, (b.fifos.read p).2)

def Board.dmaWrite (b : Board ρ) (p : Port) : List Byte → Board ρ
  | b0 :: b1 :: b2 :: b3 :: rest =>
    Board.dmaWrite (b.write p 4 (b3 ++ b2 ++ b1 ++ b0)) (p.shift 4) rest
  | [b0, b1, b2] => (b.write p 2 ((b1 ++ b0).setWidth 32)).write (p.shift 2) 1 (b2.setWidth 32)
  | [b0, b1] => b.write p 2 ((b1 ++ b0).setWidth 32)
  | [b0] => b.write p 1 (b0.setWidth 32)
  | [] => b

def loadBytes (v : Word) (count : ℕ) : List Byte :=
  (List.range count).map fun i => v.extractLsb' (8 * i) 8

def Board.dmaRead (b : Board ρ) (p : Port) : ℕ → Board ρ × List Byte
  | 0 => (b, [])
  | 1 => ((b.read p).1, loadBytes (b.read p).2 1)
  | 2 => ((b.read p).1, loadBytes (b.read p).2 2)
  | 3 =>
    let low := b.read p
    let high := low.1.read (p.shift 2)
    (high.1, loadBytes low.2 2 ++ loadBytes high.2 1)
  | size + 4 =>
    let more := Board.dmaRead (b.read p).1 (p.shift 4) size
    (more.1, loadBytes (b.read p).2 4 ++ more.2)

variable (m : Machine ρ)

def Machine.inputs (b : Board ρ) : List EdmaInput :=
  b.fifos.lines.drives.map fun d => .req (src m.sites d.1).val d.2

def Machine.fabric : Fabric (Board ρ) where
  read s b addr size :=
    match m.window addr with
    | some p =>
      let reply := b.start.dmaRead p size
      (reply.1, .ofFn fun i => reply.2.getD i 0, true, (m.inputs reply.1).map .input)
    | none =>
      let (rest, data, ok, effects) := m.restRead s b.rest addr size
      ({ b with rest := rest }, data, ok, effects.map (·.val))
  write s b addr data :=
    match m.window addr with
    | some p =>
      let b := b.start.dmaWrite p data
      (b, (m.inputs b).map .input)
    | none =>
      let (rest, effects) := m.restWrite s b.rest addr data
      ({ b with rest := rest }, effects.map (·.val))

abbrev OtherInput (w : Sites) := { i : EdmaInput // Spares w i }

inductive ResetDevice where
  | dac | adc | sai | edma
deriving DecidableEq

inductive ResetPart (w : Sites) where
  | handler (d : ResetDevice)
  | other (i : OtherInput w)

def ResetPart.device? {w : Sites} : ResetPart w → Option ResetDevice
  | .handler d => some d
  | .other _ => none

structure ResetPlan (w : Sites) where
  parts : List (ResetPart w)
  once : ∀ d, (parts.filterMap ResetPart.device?).count d = 1

inductive MachineEvent (w : Sites) (ρ : Type) where
  | read (p : Port)
  | write (p : Port) (size : ℕ) (v : Word)
  | input (i : FifoInput)
  | edmaWrite (off : ℕ) (v : Word)
  | bh
  | other (i : OtherInput w)
  | rest (r : ρ)
  | machineReset (plan : ResetPlan w)

def access (x : Engine (Board ρ)) (f : Board ρ → Board ρ) : Engine (Board ρ) :=
  { x with
    st := (m.inputs (f x.mem.start)).foldl EdmaInput.drive x.st, mem := f x.mem.start }

def Fifos.resetDevice (f : Fifos) : ResetDevice → Fifos
  | .dac => { f with dac := mcxnDacReset f.dac }
  | .adc => { f with adc := mcxnAdcReset f.adc }
  | .sai => { f with sai := mcxnSaiReset f.sai }
  | .edma => f

def resetPart {w : Sites} (x : Engine (Board ρ)) : ResetPart w → Engine (Board ρ)
  | .handler .edma => { x with st := mcxnEdmaReset x.st }
  | .handler d => { x with mem := { x.mem with fifos := x.mem.fifos.resetDevice d } }
  | .other i => x.drive i.val

def machineStep (x : Engine (Board ρ)) : MachineEvent m.sites ρ → Engine (Board ρ)
  | .read p => access m x fun b => (b.read p).1
  | .write p size v => access m x fun b => b.write p size v
  | .input i => access m x fun b => { b with fifos := b.fifos.input i }
  | .edmaWrite off v => edmaWrite m.fabric.engagedBus x off v
  | .bh => runBh m.fabric.serviceBus x
  | .other i => x.drive i.val
  | .rest r => { x with mem := { x.mem with rest := r } }
  | .machineReset plan => run resetPart x plan.parts

def machinePowerOn (clocks : SaiClocks) (r : ρ) : Engine (Board ρ) :=
  Engine.powerOn 0
    { fifos :=
        { dac := mcxnDacReset (.created m.hpdac)
          adc := mcxnAdcReset .created
          sai := mcxnSaiReset (.created m.loopback)
          clocks := clocks }
      rest := r
      writes := [] }

def Careful (writes : List (Fifos × Word × Port)) : Prop := ∀ e ∈ writes, Keeps e.1 e.2.1 e.2.2

def Levels (w : Sites) (s : EdmaState) : Prop := ∀ l, s.reqEdge (src w l) = false

def Pending (w : Sites) (s : EdmaState) (b : Board ρ) : Prop :=
  Careful b.writes →
    b.fifos.lines.HeldBy (fun l => s.reqLevel (src w l)) ∧ b.fifos.lines.level = b.fifos.asks

section Pending

variable {w : Sites} {s : EdmaState} {b : Board ρ}

section

variable (h : Pending w s b)
include h

lemma Pending.paced {f : Fifos} (hpaced : Paced b.fifos f) :
    Pending w s { b with fifos := f } := fun hcare =>
  ⟨hpaced.held _ (h hcare).1, hpaced.shows (h hcare).2⟩

variable (p : Port)

lemma Pending.read : Pending w s (b.read p).1 := h.paced (b.fifos.read_paced p)

lemma Pending.write (size : ℕ) (v : Word) : Pending w s (b.write p size v) := by
  intro hcare
  have hbefore : Careful b.writes := fun e he => hcare e (List.mem_append_left _ he)
  have hkeeps : Keeps b.fifos v p := hcare (b.fifos, v, p) (List.mem_append_right _ (by simp))
  have hpaced := Fifos.write_paced size hkeeps
  exact ⟨hpaced.held _ (h hbefore).1, hpaced.shows (h hbefore).2⟩

lemma Pending.dmaWrite (data : List Byte) : Pending w s (b.dmaWrite p data) := by
  induction b, p, data using Board.dmaWrite.induct with
  | case1 b p b0 b1 b2 b3 rest ih => exact ih (h.write p 4 _)
  | case2 b p b0 b1 b2 => exact (h.write p 2 _).write (p.shift 2) 1 _
  | case3 b p b0 b1 => exact h.write p 2 _
  | case4 b p b0 => exact h.write p 1 _
  | case5 b p => exact h

lemma Pending.dmaRead (size : ℕ) : Pending w s (b.dmaRead p size).1 := by
  induction b, p, size using Board.dmaRead.induct with
  | case1 b p => exact h
  | case2 b p | case3 b p => exact h.read p
  | case4 b p => exact (h.read p).read (p.shift 2)
  | case5 b p size ih => exact ih (h.read p)

end

end Pending

section

variable (w : Sites) (s : EdmaState) (drives : List (FifoLine × Bool))

lemma drives_reqLevel : (fun l => ((drives.map fun d => EdmaInput.req (src w d.1).val d.2).foldl
      EdmaInput.drive s).reqLevel (src w l)) = hold (fun l => s.reqLevel (src w l)) drives := by
  induction drives generalizing s with
  | nil => rfl
  | cons d rest ih =>
    simp only [List.map_cons, List.foldl_cons]
    rw [ih, drive_req_reqLevel, hold_cons]
    congr 1
    funext l
    by_cases hl : l = d.1
    · simp [hl]
    · have hne : src w l ≠ src w d.1 := fun h => hl (src_injective w h)
      simp [update_of_ne hne, update_of_ne hl]

lemma drives_reqEdge : ((drives.map fun d => EdmaInput.req (src w d.1).val d.2).foldl
      EdmaInput.drive s).reqEdge = s.reqEdge := by
  induction drives generalizing s with
  | nil => rfl
  | cons d rest ih => rw [List.map_cons, List.foldl_cons, ih, drive_req_reqEdge]

end

structure Coherent (x : Engine (Board ρ)) : Prop where
  levels : Levels m.sites x.st
  pending : Pending m.sites x.st x.mem.start

variable {m}

variable {x : Engine (Board ρ)}

lemma Coherent.held (h : Coherent m x) (hcare : Careful x.mem.writes) (l : FifoLine) :
    x.st.reqLevel (src m.sites l) = x.mem.fifos.lines.level l :=
  congrFun (h.pending hcare).1 l

lemma Coherent.shows (h : Coherent m x)
    (hcare : Careful x.mem.writes) : x.mem.fifos.lines.level = x.mem.fifos.asks :=
  (h.pending hcare).2

lemma Coherent.intro (hlevels : Levels m.sites x.st) (hheld : Careful x.mem.writes → ∀ l,
      x.st.reqLevel (src m.sites l) = x.mem.fifos.lines.level l)
    (hshows : Careful x.mem.writes → x.mem.fifos.lines.level = x.mem.fifos.asks) : Coherent m x :=
  ⟨hlevels, fun hcare => ⟨funext (hheld hcare), hshows hcare⟩⟩

lemma Coherent.keep {y : Engine (Board ρ)} (h : Coherent m x) (hmem : y.mem = x.mem)
    (hlevel : ∀ l, y.st.reqLevel (src m.sites l) = x.st.reqLevel (src m.sites l))
    (hedge : ∀ l, y.st.reqEdge (src m.sites l) = x.st.reqEdge (src m.sites l)) : Coherent m y := by
  apply Coherent.intro
  · exact fun l => (hedge l).trans (h.levels l)
  · intro hcare l
    rw [hmem] at hcare ⊢
    exact (hlevel l).trans (h.held hcare l)
  intro hcare
  rw [hmem] at hcare ⊢
  exact h.shows hcare

lemma Coherent.withRest (h : Coherent m x) (r : ρ) :
    Coherent m { x with mem := { x.mem with rest := r } } :=
  ⟨h.levels, h.pending⟩

lemma Coherent.deliver (h : Coherent m x) {b : Board ρ} (hb : Pending m.sites x.st b) :
    Coherent m { x with st := (m.inputs b).foldl EdmaInput.drive x.st, mem := b } := by
  apply Coherent.intro
  · intro l
    rw [Machine.inputs, drives_reqEdge]
    exact h.levels l
  · intro hcare l
    have hheld := congrFun (hb hcare).1 l
    rwa [← drives_reqLevel] at hheld
  · exact fun hcare => (hb hcare).2

lemma Coherent.drive (h : Coherent m x) {i : EdmaInput}
    (hspares : Spares m.sites i) : Coherent m (x.drive i) :=
  h.keep rfl (fun l => (EdmaInput.drive_of_ne (hspares l) x.st).1)
    (fun l => (EdmaInput.drive_of_ne (hspares l) x.st).2)

section Bus

variable {serve : Engine (Board ρ) → BusEffect → Engine (Board ρ)}
  (hinput : ∀ x i, serve x (.input i) = x.drive i)
  (hown : ∀ x off v, Coherent m x → Coherent m (serve x (.ownWrite off v)))

include hinput hown

lemma Coherent.effects (h : Coherent m x)
    (effects : List { e : BusEffect // SparesEffect m.sites e }) :
    Coherent m ((effects.map (·.val)).foldl serve x) := by
  rw [List.foldl_map]
  refine run_invariant (P := Coherent m) ?_ h effects
  rintro x ⟨i | ⟨off, v⟩, hspares⟩ hx
  · dsimp only
    rw [hinput]
    exact hx.drive hspares
  · exact hown x off v hx

lemma coherent_busWith : ServiceInvariant (m.fabric.busWith serve) (Coherent m) where
  own x st log hsame _ h :=
    h.keep rfl (fun _ => congrFun hsame.reqLevel _) (fun _ => congrFun hsame.reqEdge _)
  read x addr size h := by
    simp only [Fabric.busWith, Machine.fabric]
    cases m.window addr with
    | some p =>
      rw [foldl_inputs hinput]
      exact h.deliver (h.pending.dmaRead p size)
    | none => exact Coherent.effects hinput hown (h.withRest _) _
  write x addr data h := by
    simp only [Fabric.busWith, Machine.fabric]
    cases m.window addr with
    | some p =>
      rw [foldl_inputs hinput]
      exact h.deliver (h.pending.dmaWrite p data)
    | none => exact Coherent.effects hinput hown (h.withRest _) _
  take x _ _ h := h.keep rfl (fun _ => rfl) (fun _ => rfl)
  ack x k hedge h := by
    refine h.keep rfl (fun l => ?_) (fun _ => rfl)
    -- an edge source is none of the three's
    have hne : src m.sites l ≠ k := by
      rintro rfl
      exact absurd hedge (by simp [h.levels l])
    exact update_of_ne hne _ _
  drop x h := by
    refine h.keep rfl (fun l => ?_) (fun _ => rfl)
    simp [EdmaState.dropEdges, h.levels l]

end Bus

lemma coherent_engaged : ServiceInvariant m.fabric.engagedBus (Coherent m) :=
  coherent_busWith (fun _ _ => rfl) (fun _ _ _ h => h)

lemma coherent_service : ServiceInvariant m.fabric.serviceBus (Coherent m) :=
  coherent_busWith (fun _ _ => rfl) (fun _ off v h => coherent_engaged.edmaWrite h off v)

def RequestsLow (x : Engine (Board ρ)) : Prop := ∀ l, x.mem.fifos.lines.level l = false

lemma Fifos.resetDevice_level (d : ResetDevice) :
    (f.resetDevice d).lines.level = f.lines.level := by
  cases d <;> rfl

lemma Fifos.resetDevice_asks {f : Fifos} (hlow : ∀ l, f.asks l = false)
    (d : ResetDevice) (l : FifoLine) : (f.resetDevice d).asks l = false := by
  cases d with
  | dac =>
    cases l with
    | dac => exact dacReset_asks f.dac
    | adc i => exact hlow (.adc i)
    | sai l => exact hlow (.sai l)
  | adc =>
    cases l with
    | dac => exact hlow .dac
    | adc i => exact congrFun (reset_asks f.adc) i
    | sai l => exact hlow (.sai l)
  | sai =>
    cases l with
    | dac => exact hlow .dac
    | adc i => exact hlow (.adc i)
    | sai l => exact congrFun (saiReset_asks f.sai) l
  | edma => exact hlow l

lemma Coherent.resetDevice (h : Coherent m x) (hlow : RequestsLow x) (d : ResetDevice) :
    Coherent m { x with mem := { x.mem with fifos := x.mem.fifos.resetDevice d } } := by
  apply Coherent.intro
  · exact h.levels
  · intro hcare l
    rw [Fifos.resetDevice_level]
    exact h.held hcare l
  intro hcare
  have hasks : ∀ l, x.mem.fifos.asks l = false := fun l => by
    rw [← h.shows hcare]
    exact hlow l
  funext l
  rw [Fifos.resetDevice_level, hlow l]
  exact (Fifos.resetDevice_asks hasks d l).symm

variable {x : Engine (Board ρ)}

lemma Coherent.resetEdma (h : Coherent m x)
    (hlow : RequestsLow x) : Coherent m { x with st := mcxnEdmaReset x.st } := by
  apply Coherent.intro (fun _ => rfl)
  · intro _ l
    exact (hlow l).symm
  · exact h.shows

lemma resetPart_coherent (part : ResetPart m.sites) (h : Coherent m x ∧ RequestsLow x) :
    Coherent m (resetPart x part) ∧ RequestsLow (resetPart x part) := by
  obtain ⟨h, hlow⟩ := h
  cases part with
  | handler d =>
    cases d with
    | edma => exact ⟨h.resetEdma hlow, hlow⟩
    | _ => exact ⟨h.resetDevice hlow _, hlow⟩
  | other i => exact ⟨h.drive i.property, hlow⟩

def ResetsLow {w : Sites} (x : Engine (Board ρ)) : MachineEvent w ρ → Prop
  | .machineReset _ => RequestsLow x
  | _ => True

lemma machineStep_coherent (e : MachineEvent m.sites ρ)
    (hguard : ResetsLow x e) (h : Coherent m x) : Coherent m (machineStep m x e) := by
  cases e with
  | read p => exact h.deliver (h.pending.read p)
  | write p size v => exact h.deliver (h.pending.write p size v)
  | input i => exact h.deliver (h.pending.paced (x.mem.start.fifos.input_paced i))
  | edmaWrite off v => exact coherent_engaged.edmaWrite h off v
  | bh => exact coherent_service.runBh h
  | other i => exact h.drive i.property
  | rest r => exact h.withRest r
  | machineReset plan =>
    exact (run_invariant (P := fun y => Coherent m y ∧ RequestsLow y)
      (fun _ part hy => resetPart_coherent part hy) ⟨h, hguard⟩ plan.parts).1

lemma machinePowerOn_coherent (clocks : SaiClocks) (r : ρ) :
    Coherent m (machinePowerOn m clocks r) := by
  apply Coherent.intro (fun _ => rfl)
  · intro _ l
    rcases l with _ | _ | _ <;> rfl
  intro _
  rw [shows_iff]
  refine ⟨?_, ?_, ?_⟩
  · funext _
    exact (dacReset_asks _).symm
  · exact (reset_asks _).symm
  · exact (saiReset_asks _).symm

/-- In every run whose machine resets find the request lines low and whose plain
stores move no request condition, the eDMA holds exactly what the FIFOs ask for. -/
theorem edma_holds_fifo_requests
    (m : Machine ρ) (clocks : SaiClocks) (r : ρ) (events : List (MachineEvent m.sites ρ))
    (hadmits : Admits (machineStep m) ResetsLow (machinePowerOn m clocks r) events)
    (hcareful : Careful (run (machineStep m) (machinePowerOn m clocks r) events).mem.writes)
    (l : FifoLine) :
    (run (machineStep m) (machinePowerOn m clocks r) events).st.reqLevel (src m.sites l) =
      (run (machineStep m) (machinePowerOn m clocks r) events).mem.fifos.asks l := by
  have hinv : Coherent m (run (machineStep m) (machinePowerOn m clocks r) events) :=
    run_invariant_of_admits (P := Coherent m) (fun x e hguard h => machineStep_coherent e hguard h)
      (machinePowerOn_coherent clocks r) hadmits
  rw [hinv.held hcareful l, hinv.shows hcareful]

def Port.isDac : Port → Bool
  | .dac _ => true
  | _ => false

lemma careful_of_dac {writes : List (Fifos × Word × Port)}
    (h : (writes.all fun e => e.2.2.isDac) = true) : Careful writes := by
  rintro ⟨f, v, p⟩ he
  have hdac := List.all_eq_true.mp h _ he
  cases p with
  | dac off => trivial
  | adc off | sai off => cases hdac

def bareMachine : Machine Unit where
  sites := ⟨0, 0, 0⟩
  hpdac := false
  loopback := false
  window _ := none
  restRead _ _ _ _ := ((), .replicate _ 0, true, [])
  restWrite _ _ _ _ := ((), [])

def stillClocks : SaiClocks := ⟨0, 0⟩

def plainReset : ResetPlan bareMachine.sites where
  parts := [.handler .adc, .handler .sai, .handler .dac, .handler .edma]
  once d := by cases d <;> rfl

theorem fifo_requests_lost_and_stale :
    (run (machineStep bareMachine) (machinePowerOn bareMachine stillClocks ())
        [.write (.dac 0x20) 4 4, .machineReset plainReset,
          .write (.dac 0x20) 4 4]).mem.fifos.asks .dac = true ∧
      (run (machineStep bareMachine) (machinePowerOn bareMachine stillClocks ())
        [.write (.dac 0x20) 4 4, .machineReset plainReset,
          .write (.dac 0x20) 4 4]).st.reqLevel (src bareMachine.sites .dac) = false ∧
      (run (machineStep bareMachine) (machinePowerOn bareMachine stillClocks ())
        [.write (.sai 0x0C) 4 1, .write (.sai 0x20) 4 7, .write (.sai 0x08) 4 1,
          .write (.sai 0x0C) 4 0]).mem.fifos.asks (.sai .tx) = false ∧
      (run (machineStep bareMachine) (machinePowerOn bareMachine stillClocks ())
        [.write (.sai 0x0C) 4 1, .write (.sai 0x20) 4 7, .write (.sai 0x08) 4 1,
          .write (.sai 0x0C) 4 0]).st.reqLevel (src bareMachine.sites (.sai .tx)) =
        true := by
  decide +kernel

theorem edma_holds_fifo_requests_rearmed :
    (run (machineStep bareMachine) (machinePowerOn bareMachine stillClocks ())
      [.write (.dac 0x20) 4 4, .write (.dac 0x20) 4 0, .machineReset plainReset,
        .write (.dac 0x20) 4 4]).st.reqLevel (src bareMachine.sites .dac) = true :=
  (edma_holds_fifo_requests bareMachine stillClocks ()
    [.write (.dac 0x20) 4 4, .write (.dac 0x20) 4 0, .machineReset plainReset,
      .write (.dac 0x20) 4 4]
    ⟨trivial, trivial, by rintro (_ | i | _ | _) <;> rfl, trivial, trivial⟩
    (careful_of_dac (by decide +kernel))
    .dac).trans (by decide +kernel)

end Mcxn947.FifoRequests
