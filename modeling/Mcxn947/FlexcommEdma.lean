import Mcxn947.EdmaFabric
import Mcxn947.FlexcommLines

/-!
# A FlexComm wired to the eDMA

`hw/arm/mcxn_soc.c` connects the two request lines of `LP_FLEXCOMMn` to the request inputs
`70 + 2n` and `69 + 2n` of the first eDMA.
-/

namespace Mcxn947.FlexcommEdma

open MachineWords EventRuns Edma Flexcomm Function Device EdmaInput FlexcommState

variable {π ρ : Type}

def txSrc (n : Fin 10) : ReqSrc := ⟨70 + 2 * n, by omega⟩

def rxSrc (n : Fin 10) : ReqSrc := ⟨69 + 2 * n, by omega⟩

structure Wire (π : Type) where
  data : π
  drives : List EdmaInput

def Wire.onData (w : Wire π) (q : π) : Wire π := { w with data := q }

def wired (d : DataPeers π) (n : Fin 10) : Peers (Wire π) where
  spiCs w level := w.onData (d.spiCs w.data level)
  ssiTransfer := d.ssiTransfer.map fun transfer w v =>
    (w.onData (transfer w.data v).1, (transfer w.data v).2)
  i2cStartTransfer w addr recv :=
    (w.onData (d.i2cStartTransfer w.data addr recv).1, (d.i2cStartTransfer w.data addr recv).2)
  i2cSend w data := (w.onData (d.i2cSend w.data data).1, (d.i2cSend w.data data).2)
  i2cRecv w := (w.onData (d.i2cRecv w.data).1, (d.i2cRecv w.data).2)
  i2cEndTransfer w := w.onData (d.i2cEndTransfer w.data)
  chrWriteAll w ch := w.onData (d.chrWriteAll w.data ch)
  chrAcceptInput w := (w.onData (d.chrAcceptInput w.data).1, (d.chrAcceptInput w.data).2)
  dmaReqTx w level := { w with drives := w.drives ++ [.req (txSrc n).val level] }
  dmaReqRx w level := { w with drives := w.drives ++ [.req (rxSrc n).val level] }

def Spares (n : Fin 10) : EdmaInput → Prop
  | .req src _ | .reqPulse src _ => reqSrc? src ≠ some (txSrc n) ∧ reqSrc? src ≠ some (rxSrc n)
  | .reqEnable _ _ => True

def SparesEffect (n : Fin 10) : BusEffect → Prop
  | .input i => Spares n i
  | .ownWrite _ _ => True

/-- What an eDMA access can reach: the FlexComm and the rest of the board.
`switches` records each `PSELID` write with the registers it met; the source has
no such variable. -/
structure Board (π ρ : Type) where
  fc : Device (Wire π)
  rest : ρ
  switches : List (FlexcommState × Word)

structure Machine (π ρ : Type) where
  n : Fin 10
  peers : DataPeers π
  window : Word → Option ℕ
  restRead : EdmaState → ρ → Word → (size : ℕ) →
    ρ × Vector Byte size × Bool × List { e : BusEffect // SparesEffect n e }
  restWrite : EdmaState → ρ → Word → List Byte → ρ × List { e : BusEffect // SparesEffect n e }

variable (m : Machine π ρ)

def Board.start (b : Board π ρ) : Board π ρ :=
  { b with fc := { b.fc with peers := { b.fc.peers with drives := [] } } }

def Board.fcWrite (b : Board π ρ) (off : ℕ) (v : Word) : Board π ρ :=
  { b with
    fc := mcxnLpuartWrite (wired m.peers m.n) b.fc off v
    switches := if off = lpflexcommPselid then b.switches ++ [(b.fc.st, v)]
      else b.switches }

def Board.fcRead (b : Board π ρ) (off : ℕ) : Board π ρ × Word :=
  let reply := mcxnLpuartRead (wired m.peers m.n) b.fc off
  ({ b with fc := reply.1 }, reply.2)

def Board.fcRx (b : Board π ρ) (buf : List Byte) : Board π ρ :=
  { b with fc := mcxnLpuartRx (wired m.peers m.n) b.fc buf }

def Board.dmaWrite (b : Board π ρ) (off : ℕ) : List Byte → Board π ρ
  | b0 :: b1 :: b2 :: b3 :: rest =>
    Board.dmaWrite (b.fcWrite m off (b3 ++ b2 ++ b1 ++ b0)) (off + 4) rest
  | [b0, b1, b2] =>
    (b.fcWrite m off ((b1 ++ b0).setWidth 32)).fcWrite m (off + 2) (b2.setWidth 32)
  | [b0, b1] => b.fcWrite m off ((b1 ++ b0).setWidth 32)
  | [b0] => b.fcWrite m off (b0.setWidth 32)
  | [] => b

def loadBytes (v : Word) (count : ℕ) : List Byte :=
  (List.range count).map fun i => v.extractLsb' (8 * i) 8

def Board.dmaRead (b : Board π ρ) (off : ℕ) : ℕ → Board π ρ × List Byte
  | 0 => (b, [])
  | 1 =>
    let reply := b.fcRead m off
    (reply.1, loadBytes reply.2 1)
  | 2 =>
    let reply := b.fcRead m off
    (reply.1, loadBytes reply.2 2)
  | 3 =>
    let low := b.fcRead m off
    let high := low.1.fcRead m (off + 2)
    (high.1, loadBytes low.2 2 ++ loadBytes high.2 1)
  | size + 4 =>
    let reply := b.fcRead m off
    let more := Board.dmaRead reply.1 (off + 4) size
    (more.1, loadBytes reply.2 4 ++ more.2)

def Machine.fabric : Fabric (Board π ρ) where
  read s b addr size :=
    match m.window addr with
    | some off =>
      let reply := b.start.dmaRead m off size
      (reply.1, .ofFn fun i => reply.2.getD i 0, true, reply.1.fc.peers.drives.map .input)
    | none =>
      let (rest, data, ok, effects) := m.restRead s b.rest addr size
      ({ b with rest := rest }, data, ok, effects.map (·.val))
  write s b addr data :=
    match m.window addr with
    | some off =>
      let b := b.start.dmaWrite m off data
      (b, b.fc.peers.drives.map .input)
    | none =>
      let (rest, effects) := m.restWrite s b.rest addr data
      ({ b with rest := rest }, effects.map (·.val))

abbrev OtherInput (n : Fin 10) := { i : EdmaInput // Spares n i }

inductive MachineEvent (n : Fin 10) (ρ : Type) where
  | fcRead (off : ℕ)
  | fcWrite (off : ℕ) (v : Word)
  | fcRx (buf : List Byte)
  | edmaWrite (off : ℕ) (v : Word)
  | bh
  | other (i : OtherInput n)
  | rest (r : ρ)
  | machineReset (edmaFirst : Bool) (before between after : List (OtherInput n))

variable (x : Engine (Board π ρ))

def access (f : Board π ρ → Board π ρ) : Engine (Board π ρ) :=
  { x with
    st := (f x.mem.start).fc.peers.drives.foldl EdmaInput.drive x.st, mem := f x.mem.start }

def resetFc : Engine (Board π ρ) :=
  { x with mem := { x.mem with fc := x.mem.fc.modify mcxnLpuartReset } }

def resetEdma : Engine (Board π ρ) := { x with st := mcxnEdmaReset x.st }

def driveOthers {n : Fin 10} (x : Engine (Board π ρ))
    (inputs : List (OtherInput n)) : Engine (Board π ρ) :=
  inputs.foldl (fun x i => x.drive i.val) x

def machineStep (x : Engine (Board π ρ)) : MachineEvent m.n ρ → Engine (Board π ρ)
  | .fcRead off => access x fun b => (b.fcRead m off).1
  | .fcWrite off v => access x fun b => b.fcWrite m off v
  | .fcRx buf => access x fun b => b.fcRx m buf
  | .edmaWrite off v => edmaWrite m.fabric.engagedBus x off v
  | .bh => runBh m.fabric.serviceBus x
  | .other i => x.drive i.val
  | .rest r => { x with mem := { x.mem with rest := r } }
  | .machineReset edmaFirst before between after =>
    let x := driveOthers x before
    let x := if edmaFirst then resetEdma x else resetFc x
    let x := driveOthers x between
    let x := if edmaFirst then resetFc x else resetEdma x
    driveOthers x after

def machinePowerOn (q : π) (r : ρ) : Engine (Board π ρ) :=
  Engine.powerOn 0 ⟨Device.powerOn ⟨q, []⟩, r, []⟩

structure Linked (n : Fin 10) (s : EdmaState) (lines : FlexcommLines) : Prop where
  tx : s.reqLevel (txSrc n) = lines.dmaReqTx
  rx : s.reqLevel (rxSrc n) = lines.dmaReqRx
  txEdge : s.reqEdge (txSrc n) = false
  rxEdge : s.reqEdge (rxSrc n) = false

lemma txSrc_ne_rxSrc (n : Fin 10) : txSrc n ≠ rxSrc n := by simp [txSrc, rxSrc]

section Linked

open EdmaInput

variable {n : Fin 10} {s : EdmaState} {lines : FlexcommLines}

section

variable (h : Linked n s lines)
include h

variable (level : Bool)

lemma Linked.driveTx :
    Linked n (drive s (.req (txSrc n).val level)) { lines with dmaReqTx := level } := by
  have hne := (txSrc_ne_rxSrc n).symm
  constructor
  · rw [drive_req_reqLevel, update_self]
  · rw [drive_req_reqLevel, update_of_ne hne]
    exact h.rx
  · rw [drive_req_reqEdge]
    exact h.txEdge
  · rw [drive_req_reqEdge]
    exact h.rxEdge

lemma Linked.driveRx :
    Linked n (drive s (.req (rxSrc n).val level)) { lines with dmaReqRx := level } := by
  have hne := txSrc_ne_rxSrc n
  constructor
  · rw [drive_req_reqLevel, update_of_ne hne]
    exact h.tx
  · rw [drive_req_reqLevel, update_self]
  · rw [drive_req_reqEdge]
    exact h.txEdge
  · rw [drive_req_reqEdge]
    exact h.rxEdge

lemma Linked.sameInputs {s' : EdmaState} (hsame : s.SameInputs s') : Linked n s' lines := by
  constructor
  · rw [hsame.reqLevel, h.tx]
  · rw [hsame.reqLevel, h.rx]
  · rw [hsame.reqEdge, h.txEdge]
  · rw [hsame.reqEdge, h.rxEdge]

lemma Linked.setLevel {src : ReqSrc} (htx : src ≠ txSrc n) (hrx : src ≠ rxSrc n) :
    Linked n (s.setLevel src level) lines := by
  refine ⟨?_, ?_, h.txEdge, h.rxEdge⟩
  · exact (update_of_ne htx.symm _ _).trans h.tx
  · exact (update_of_ne hrx.symm _ _).trans h.rx

end

variable {i : EdmaInput}

lemma Spares.source (h : Spares n i) : i.source? ≠ some (txSrc n) ∧ i.source? ≠ some (rxSrc n) := by
  cases i with
  | req src level => exact h
  | reqEnable src level => exact ⟨by simp [source?], by simp [source?]⟩
  | reqPulse src level => exact h

lemma Linked.spares (h : Linked n s lines) (hspares : Spares n i) : Linked n (i.drive s) lines := by
  have htx := drive_of_ne hspares.source.1 s
  have hrx := drive_of_ne hspares.source.2 s
  exact ⟨htx.1.trans h.tx, hrx.1.trans h.rx, htx.2.trans h.txEdge, hrx.2.trans h.rxEdge⟩

end Linked

variable {d : DataPeers π} {n : Fin 10}

lemma peerCall_drives {w w' : Wire π} (h : PeerCall (wired d n) w w') : w'.drives = w.drives := by
  cases h with
  | ssi transfer _ v htransfer =>
    obtain ⟨inner, -, rfl⟩ := Option.map_eq_some_iff.mp htransfer
    rfl
  | _ => rfl

variable {s : EdmaState}

lemma Linked.moves {x y : Device (Wire π)} (hmoves : FlexcommMoves (wired d n) x y)
    (h : Linked n (x.peers.drives.foldl EdmaInput.drive s) x.lines) :
    Linked n (y.peers.drives.foldl EdmaInput.drive s) y.lines := by
  apply reflTransGen_preserves (P := fun x : Device (Wire π) =>
    Linked n (x.peers.drives.foldl EdmaInput.drive s) x.lines) _ hmoves h
  intro x y hmove h
  cases hmove with
  | regs st hcaches => exact h
  | irq level => exact ⟨h.tx, h.rx, h.txEdge, h.rxEdge⟩
  | dmaTx =>
    unfold updateDmaTx
    split
    · simp only [wired, List.foldl_append, List.foldl_cons, List.foldl_nil]
      exact h.driveTx _
    · exact h
  | dmaRx =>
    unfold updateDmaRx
    split
    · simp only [wired, List.foldl_append, List.foldl_cons, List.foldl_nil]
      exact h.driveRx _
    · exact h
  | cs level => exact ⟨h.tx, h.rx, h.txEdge, h.rxEdge⟩
  | peer st q shifted hcaches hcall =>
    simp only [peerCall_drives hcall]
    exact h

def Careful (switches : List (FlexcommState × Word)) : Prop :=
  ∀ e ∈ switches,
    tx { e.1 with pselid := e.2 &&& (pselidPersel ||| pselidLock) } = e.1.tx ∧
      rx { e.1 with pselid := e.2 &&& (pselidPersel ||| pselidLock) } = e.1.rx

structure Follows (n : Fin 10) (s : EdmaState) (b : Board π ρ) : Prop where
  linked : Linked n (b.fc.peers.drives.foldl drive s) b.fc.lines
  cached : b.fc.Cached
  shows : Careful b.switches → b.fc.Shows .tx ∧ b.fc.Shows .rx

section Follows

variable {m} {s : EdmaState} {b : Board π ρ}

section

variable (h : Follows m.n s b)
include h

lemma Follows.settled {fc : Device (Wire π)} (hsettled : Settled (wired m.peers m.n) b.fc fc) :
    Follows m.n s { b with fc := fc } where
  linked := Linked.moves hsettled.moves h.linked
  cached := h.cached.moves hsettled.moves
  shows hcare := ⟨hsettled.shows h.cached (h.shows hcare).1,
      hsettled.shows h.cached (h.shows hcare).2⟩

variable (off : ℕ)

lemma Follows.fcRead : Follows m.n s (b.fcRead m off).1 :=
  h.settled (lpuartRead_settled b.fc off)

lemma Follows.fcRx (buf : List Byte) : Follows m.n s (b.fcRx m buf) :=
  h.settled (.update _ (rx_regs b.fc buf))

lemma Follows.fcWrite (v : Word) : Follows m.n s (b.fcWrite m off v) := by
  by_cases hoff : off = lpflexcommPselid
  · have hmoves := write_moves (p := wired m.peers m.n) b.fc off v
    refine ⟨Linked.moves hmoves h.linked, h.cached.moves hmoves, ?_⟩
    intro hcare
    simp only [Board.fcWrite, if_pos hoff] at hcare ⊢
    have hbefore : Careful b.switches := fun e he =>
      hcare e (List.mem_append_left _ he)
    have hkept := hcare (b.fc.st, v) (List.mem_append_right _ (by simp))
    have hshows := h.shows hbefore
    simp only [mcxnLpuartWrite, if_pos hoff]
    exact ⟨hshows.1.trans hkept.1.symm, hshows.2.trans hkept.2.symm⟩
  unfold Board.fcWrite
  rw [if_neg hoff]
  exact h.settled (lpuartWrite_settled b.fc v hoff)

lemma Follows.dmaWrite (data : List Byte) : Follows m.n s (b.dmaWrite m off data) := by
  induction b, off, data using Board.dmaWrite.induct m with
  | case1 b off b0 b1 b2 b3 rest ih => exact ih (h.fcWrite off _)
  | case2 b off b0 b1 b2 => exact (h.fcWrite off _).fcWrite (off + 2) _
  | case3 b off b0 b1 | case4 b off b0 => exact h.fcWrite off _
  | case5 b off => exact h

lemma Follows.dmaRead (off size : ℕ) : Follows m.n s (b.dmaRead m off size).1 := by
  induction b, off, size using Board.dmaRead.induct m with
  | case1 b off => exact h
  | case2 b off | case3 b off => exact h.fcRead off
  | case4 b off => exact (h.fcRead off).fcRead (off + 2)
  | case5 b off size reply ih => exact ih (h.fcRead off)

end

end Follows

def Coherent (x : Engine (Board π ρ)) : Prop := Follows m.n x.st x.mem.start

variable {m} {x}

lemma Follows.deliver {b : Board π ρ} (h : Follows m.n s b) (trace : List BusMark) :
    Coherent m ⟨b.fc.peers.drives.foldl drive s, b, trace⟩ :=
  ⟨h.linked, ⟨h.cached.tx, h.cached.rx, h.cached.cs⟩, h.shows⟩

lemma Coherent.linked (h : Coherent m x) :
    Linked m.n x.st x.mem.fc.lines :=
  Follows.linked h

lemma Coherent.relink (h : Coherent m x)
    {st : EdmaState} (trace : List BusMark) (hlinked : Linked m.n st x.mem.fc.lines) :
    Coherent m ⟨st, x.mem, trace⟩ :=
  ⟨hlinked, h.cached, h.shows⟩

lemma Coherent.withRest (h : Coherent m x) (r : ρ) :
    Coherent m { x with mem := { x.mem with rest := r } } :=
  ⟨h.linked, h.cached, h.shows⟩

lemma Coherent.drive (h : Coherent m x)
    {i : EdmaInput} (hspares : Spares m.n i) : Coherent m (x.drive i) :=
  h.relink x.trace (h.linked.spares hspares)

section Bus

variable {serve : Engine (Board π ρ) → BusEffect → Engine (Board π ρ)}
  (hinput : ∀ x i, serve x (.input i) = x.drive i)
  (hown : ∀ x off v, Coherent m x → Coherent m (serve x (.ownWrite off v)))

include hinput hown

lemma Coherent.effects (h : Coherent m x)
    (effects : List { e : BusEffect // SparesEffect m.n e }) :
    Coherent m ((effects.map (·.val)).foldl serve x) := by
  rw [List.foldl_map]
  refine run_invariant (P := Coherent m) ?_ h effects
  rintro x ⟨i | ⟨off, v⟩, hspares⟩ hx
  · dsimp only
    rw [hinput]
    exact hx.drive hspares
  · exact hown x off v hx

lemma coherent_busWith : ServiceInvariant (m.fabric.busWith serve) (Coherent m) where
  own x st log hsame _ h := h.relink _ (h.linked.sameInputs hsame)
  read x addr size h := by
    simp only [Fabric.busWith, Machine.fabric]
    cases m.window addr with
    | some off =>
      rw [foldl_inputs hinput]
      exact (Follows.dmaRead h off size).deliver x.trace
    | none => exact Coherent.effects hinput hown (h.withRest _) _
  write x addr data h := by
    simp only [Fabric.busWith, Machine.fabric]
    cases m.window addr with
    | some off =>
      rw [foldl_inputs hinput]
      exact (Follows.dmaWrite h off data).deliver x.trace
    | none => exact Coherent.effects hinput hown (h.withRest _) _
  take x _ _ h := h.relink _ h.linked
  ack x src hedge h := by
    apply h.relink x.trace
    apply h.linked.setLevel
    · rintro rfl
      exact absurd hedge (by simp [h.linked.txEdge])
    · rintro rfl
      exact absurd hedge (by simp [h.linked.rxEdge])
  drop x h := by
    apply h.relink x.trace
    refine ⟨?_, ?_, h.linked.txEdge, h.linked.rxEdge⟩
    · simp [EdmaState.dropEdges, h.linked.txEdge, h.linked.tx]
    · simp [EdmaState.dropEdges, h.linked.rxEdge, h.linked.rx]

end Bus

lemma coherent_engaged : ServiceInvariant m.fabric.engagedBus (Coherent m) :=
  coherent_busWith (fun _ _ => rfl) (fun _ _ _ h => h)

lemma coherent_service : ServiceInvariant m.fabric.serviceBus (Coherent m) :=
  coherent_busWith (fun _ _ => rfl) (fun _ off v h => coherent_engaged.edmaWrite h off v)

lemma Coherent.access (h : Coherent m x) {f : Board π ρ → Board π ρ}
    (hf : ∀ {s b}, Follows m.n s b → Follows m.n s (f b)) : Coherent m (access x f) :=
  (hf h).deliver x.trace

lemma Coherent.driveOthers (h : Coherent m x)
    (inputs : List (OtherInput m.n)) : Coherent m (driveOthers x inputs) :=
  run_invariant (P := Coherent m) (fun _ i h => h.drive i.property) h inputs

lemma driveOthers_mem (inputs : List (OtherInput n)) : (driveOthers x inputs).mem = x.mem := by
  apply run_invariant (P := fun y : Engine (Board π ρ) => y.mem = x.mem) _ rfl inputs
  exact fun y i h => h

def RequestsLow (x : Engine (Board π ρ)) : Prop :=
  x.mem.fc.lines.dmaReqTx = false ∧ x.mem.fc.lines.dmaReqRx = false

lemma RequestsLow.driveOthers
    (h : RequestsLow x) (inputs : List (OtherInput n)) : RequestsLow (driveOthers x inputs) := by
  unfold RequestsLow
  rw [driveOthers_mem]
  exact h

lemma Coherent.resetEdma (h : Coherent m x)
    (hlow : RequestsLow x) : Coherent m (resetEdma x) :=
  h.relink x.trace ⟨hlow.1.symm, hlow.2.symm, rfl, rfl⟩

lemma Coherent.resetFc (h : Coherent m x)
    (hlow : RequestsLow x) : Coherent m (resetFc x) where
  linked := h.linked
  cached := ⟨h.cached.tx, h.cached.rx, fun hassert => by cases hassert⟩
  shows _ := ⟨hlow.1.trans (lpuartReset_asks x.mem.fc.st .tx).symm,
      hlow.2.trans (lpuartReset_asks x.mem.fc.st .rx).symm⟩

def ResetsLow {n : Fin 10} (x : Engine (Board π ρ)) : MachineEvent n ρ → Prop
  | .machineReset _ _ _ _ => RequestsLow x
  | _ => True

lemma machineStep_coherent (e : MachineEvent m.n ρ)
    (hguard : ResetsLow x e) (h : Coherent m x) : Coherent m (machineStep m x e) := by
  cases e with
  | fcRead off => exact h.access fun hb => hb.fcRead off
  | fcWrite off v => exact h.access fun hb => hb.fcWrite off v
  | fcRx buf => exact h.access fun hb => hb.fcRx buf
  | edmaWrite off v => exact coherent_engaged.edmaWrite h off v
  | bh => exact coherent_service.runBh h
  | other i => exact h.drive i.property
  | rest r => exact h.withRest r
  | machineReset edmaFirst before between after =>
    have hlow : RequestsLow (driveOthers x before) := hguard.driveOthers before
    have hbefore := h.driveOthers before
    apply Coherent.driveOthers
    cases edmaFirst with
    | true =>
      apply Coherent.resetFc
      · exact (hbefore.resetEdma hlow).driveOthers between
      · exact RequestsLow.driveOthers (x := resetEdma _) hlow between
    | false =>
      apply Coherent.resetEdma
      · exact (hbefore.resetFc hlow).driveOthers between
      · exact RequestsLow.driveOthers (x := resetFc _) hlow between

lemma machinePowerOn_coherent (q : π) (r : ρ) : Coherent m (machinePowerOn q r) where
  linked := ⟨rfl, rfl, rfl, rfl⟩
  cached := powerOn_cached _
  shows _ := ⟨powerOn_shows _ .tx, powerOn_shows _ .rx⟩

/-- In every run whose machine resets find the FlexComm's request lines low and
whose function switches keep what the lines show, the eDMA holds exactly the
requests the FlexComm's registers ask for. -/
theorem edma_holds_flexcomm_requests
    (m : Machine π ρ) (q : π) (r : ρ) (events : List (MachineEvent m.n ρ))
    (hadmits : Admits (machineStep m) ResetsLow (machinePowerOn q r) events)
    (hcareful : Careful (run (machineStep m) (machinePowerOn q r) events).mem.switches) :
    (run (machineStep m) (machinePowerOn q r) events).st.reqLevel (txSrc m.n) =
        (run (machineStep m) (machinePowerOn q r) events).mem.fc.st.tx ∧
      (run (machineStep m) (machinePowerOn q r) events).st.reqLevel (rxSrc m.n) =
        (run (machineStep m) (machinePowerOn q r) events).mem.fc.st.rx := by
  have hinv : Coherent m (run (machineStep m) (machinePowerOn q r) events) :=
    run_invariant_of_admits (P := Coherent m) (fun x e hguard h => machineStep_coherent e hguard h)
      (machinePowerOn_coherent q r) hadmits
  have hshows := hinv.shows hcareful
  exact ⟨hinv.linked.tx.trans hshows.1, hinv.linked.rx.trans hshows.2⟩

def bareMachine : Machine Unit Unit where
  n := 4
  peers := idlePeers
  window _ := none
  restRead _ _ _ _ := ((), .replicate _ 0, true, [])
  restWrite _ _ _ _ := ((), [])

theorem reset_swallows_request : (run (machineStep bareMachine) (machinePowerOn () ())
      [.fcWrite 0x10 0x00800000, .machineReset true [] [] [],
        .fcWrite 0x10 0x00800000]).mem.fc.st.tx = true ∧
    (run (machineStep bareMachine) (machinePowerOn () ())
      [.fcWrite 0x10 0x00800000, .machineReset true [] [] [],
        .fcWrite 0x10 0x00800000]).st.reqLevel (txSrc 4) = false := by
  decide

theorem edma_holds_flexcomm_requests_reenabled :
    (run (machineStep bareMachine) (machinePowerOn () ())
      [.fcWrite 0xFF8 1, .machineReset false [] [] [],
        .fcWrite 0x10 0x00800000]).st.reqLevel (txSrc 4) = true :=
  (edma_holds_flexcomm_requests bareMachine () ()
    [.fcWrite 0xFF8 1, .machineReset false [] [] [], .fcWrite 0x10 0x00800000]
    ⟨trivial, ⟨by decide, by decide⟩, trivial, trivial⟩
    (fun e h => by
      obtain rfl := List.mem_singleton.mp h
      decide)).1.trans (by decide)

end Mcxn947.FlexcommEdma
