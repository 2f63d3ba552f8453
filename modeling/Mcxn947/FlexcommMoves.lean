import Mcxn947.FlexcommRegisters
import Mcxn947.EventRuns

/-!
# What a FlexComm access is made of

Every access is a sequence of moves: a change of plain registers, a call to a peer, or a
drive of one of the lines, which always goes together with the register that remembers its
level.
-/

namespace Mcxn947.Flexcomm

open MachineWords EventRuns

variable {π : Type}

structure SameCaches (s s' : FlexcommState) : Prop where
  tx : s'.dmaTxLevel = s.dmaTxLevel
  rx : s'.dmaRxLevel = s.dmaRxLevel
  cs : s'.spiCsAsserted = s.spiCsAsserted

inductive PeerCall (p : Peers π) : π → π → Prop where
  | ssi (transfer : π → Word → π × Word) (q : π) (v : Word) :
      p.ssiTransfer = some transfer → PeerCall p q (transfer q v).1
  | i2cStart (q : π) (addr : Byte) (recv : Bool) : PeerCall p q (p.i2cStartTransfer q addr recv).1
  | i2cSend (q : π) (data : Byte) : PeerCall p q (p.i2cSend q data).1
  | i2cRecv (q : π) : PeerCall p q (p.i2cRecv q).1
  | i2cEnd (q : π) : PeerCall p q (p.i2cEndTransfer q)
  | chrWrite (q : π) (ch : Byte) : PeerCall p q (p.chrWriteAll q ch)
  | chrAccept (q : π) : PeerCall p q (p.chrAcceptInput q).1

inductive FlexcommMove (p : Peers π) : Device π → Device π → Prop where
  | regs (x : Device π) (st : FlexcommState) :
      SameCaches x.st st → FlexcommMove p x { x with st := st }
  | irq (x : Device π) (level : Bool) :
      FlexcommMove p x { x with lines := { x.lines with irq := level } }
  | dmaTx (x : Device π) : FlexcommMove p x (updateDmaTx p x)
  | dmaRx (x : Device π) : FlexcommMove p x (updateDmaRx p x)
  | cs (x : Device π) (level : Bool) : FlexcommMove p x (setSpiCs p level x)
  | peer (x : Device π) (st : FlexcommState) (q : π) (shifted : List Word) :
      SameCaches x.st st → PeerCall p x.peers q →
      FlexcommMove p x { x with st := st, peers := q, shifted := shifted }

abbrev FlexcommMoves (p : Peers π) : Device π → Device π → Prop :=
  Relation.ReflTransGen (FlexcommMove p)

variable {p : Peers π}
variable {st : FlexcommState} {f : FlexcommState → FlexcommState} {c : Prop} {y z : Device π}

lemma moves_regs {x : Device π} (h : SameCaches x.st st) : FlexcommMoves p x { x with st := st } :=
  .single (.regs x st h)

variable (s : FlexcommState) (x : Device π) (buf : List Byte)

lemma moves_modify (h : SameCaches x.st (f x.st)) : FlexcommMoves p x (x.modify f) := moves_regs h

lemma moves_peer {x : Device π} {q : π}
    (hcaches : SameCaches x.st st) (hcall : PeerCall p x.peers q) :
    FlexcommMoves p x { x with st := st, peers := q } :=
  .single (.peer x st q x.shifted hcaches hcall)

lemma moves_ite {x : Device π} [Decidable c] (hy : FlexcommMoves p x y) (hz : FlexcommMoves p x z) :
    FlexcommMoves p x (if c then y else z) := by
  split
  · exact hy
  · exact hz

lemma updateIrq_moves : FlexcommMoves p x (mcxnFlexcommUpdateIrq p x) := by
  apply Relation.ReflTransGen.trans (.single (.irq x (mcxnFlexcommIstat x.st != 0)))
  exact .tail (.single (.dmaTx _)) (.dmaRx _)

lemma rxPush_caches (ch : Byte) : SameCaches s (lpuartRxPush s ch).1 := by
  unfold lpuartRxPush
  split <;> exact ⟨rfl, rfl, rfl⟩

lemma rxPop_caches : SameCaches s (lpuartRxPop s).1 := by
  unfold lpuartRxPop
  split <;> exact ⟨rfl, rfl, rfl⟩

lemma SameCaches.trans {s t u : FlexcommState}
    (hst : SameCaches s t) (htu : SameCaches t u) : SameCaches s u :=
  ⟨htu.tx.trans hst.tx, htu.rx.trans hst.rx, htu.cs.trans hst.cs⟩

lemma rxAll_caches (s : FlexcommState) : SameCaches s (lpuartRxAll buf s) := by
  induction buf generalizing s with
  | nil => exact ⟨rfl, rfl, rfl⟩
  | cons ch rest ih =>
    unfold lpuartRxAll
    apply SameCaches.trans _ (ih _)
    dsimp only
    split
    · exact rxPush_caches s ch
    · exact (rxPush_caches s ch).trans ⟨rfl, rfl, rfl⟩

lemma rx_regs : FlexcommMoves p x (x.modify (lpuartRxAll buf)) :=
  moves_modify x (rxAll_caches buf x.st)

lemma rx_moves : FlexcommMoves p x (mcxnLpuartRx p x buf) :=
  (rx_regs x buf).trans (updateIrq_moves _)

lemma chrAcceptInput_moves : FlexcommMoves p x (chrAcceptInput p x) := by
  unfold chrAcceptInput
  dsimp only
  refine Relation.ReflTransGen.trans (moves_peer ⟨rfl, rfl, rfl⟩ (.chrAccept x.peers)) ?_
  generalize ({ x with peers := (p.chrAcceptInput x.peers).1 } : Device π) = y
  induction (p.chrAcceptInput x.peers).2 generalizing y with
  | nil => exact .refl
  | cons buf rest ih => exact (rx_moves y buf).trans (ih _)

inductive OutLine where
  | irq | tx | rx
deriving DecidableEq

def FlexcommState.asks : OutLine → Bool
  | .irq => mcxnFlexcommIstat s != 0
  | .tx => s.tx
  | .rx => s.rx

def SameView (s s' : FlexcommState) : Prop := ∀ l, s'.asks l = s.asks l

lemma SameView.of_eq {s s' : FlexcommState} (hirq : mcxnFlexcommIstat s' = mcxnFlexcommIstat s)
    (htx : s'.tx = s.tx) (hrx : s'.rx = s.rx) : SameView s s' := by
  intro l
  cases l with
  | irq => exact congrArg (fun v => v != 0) hirq
  | tx => exact htx
  | rx => exact hrx

inductive Settled (p : Peers π) (x : Device π) : Device π → Prop where
  | quiet (st : FlexcommState) :
      SameCaches x.st st → SameView x.st st → Settled p x { x with st := st }
  | update (y : Device π) : FlexcommMoves p x y → Settled p x (mcxnFlexcommUpdateIrq p y)
  | accept (y : Device π) : Settled p x y → Settled p x (chrAcceptInput p y)

lemma Settled.refl : Settled p x x := .quiet x.st ⟨rfl, rfl, rfl⟩ (.of_eq rfl rfl rfl)

lemma Settled.moves {x : Device π} (h : Settled p x y) : FlexcommMoves p x y := by
  induction h with
  | quiet st hcaches _ => exact moves_regs hcaches
  | update y hmoves => exact hmoves.trans (updateIrq_moves y)
  | accept y _ ih => exact ih.trans (chrAcceptInput_moves y)

lemma settled_ite {x : Device π} [Decidable c] (hy : Settled p x y) (hz : Settled p x z) :
    Settled p x (if c then y else z) := by
  split
  · exact hy
  · exact hz

lemma settled_update (h : SameCaches x.st (f x.st)) :
    Settled p x (mcxnFlexcommUpdateIrq p (x.modify f)) :=
  .update _ (moves_modify x h)

lemma lpspiRead_settled (r : Option LpspiReg) : Settled p x (mcxnLpspiRead p x r).1 := by
  rcases r with _ | r
  · exact .refl x
  cases r with
  | rdr =>
    apply settled_ite
    · exact settled_update x (by exact ⟨rfl, rfl, rfl⟩)
    · exact .refl x
  | _ => exact .refl x

section

variable (value : Word)

lemma shiftFrame_moves : FlexcommMoves p x (shiftFrame p x value) := by
  unfold shiftFrame
  cases hssi : p.ssiTransfer with
  | none => exact moves_regs ⟨rfl, rfl, rfl⟩
  | some transfer =>
    have hselect : FlexcommMoves p x (if x.st.spiCsAsserted then x else setSpiCs p false x) :=
      moves_ite .refl (.single (.cs x false))
    apply hselect.trans
    generalize (if x.st.spiCsAsserted then x else setSpiCs p false x) = y
    have hshift : FlexcommMoves p y { y with
        st := { y.st with
          spiRdr := (transfer y.peers (value &&& frameMask x.st.spiTcr)).2 &&&
            frameMask x.st.spiTcr }
        peers := (transfer y.peers (value &&& frameMask x.st.spiTcr)).1
        shifted := y.shifted ++ [value &&& frameMask x.st.spiTcr] } :=
      .single (.peer y _ _ _ ⟨rfl, rfl, rfl⟩ (.ssi transfer _ _ hssi))
    exact hshift.trans (moves_ite .refl (.single (.cs _ true)))

lemma transmit_settled : Settled p x (lpspiTransmit p x value) := by
  unfold lpspiTransmit
  extract_lets y
  have hframe : FlexcommMoves p x y := by
    apply moves_ite
    · exact .refl
    · exact (shiftFrame_moves x value).trans (moves_modify _ (by exact ⟨rfl, rfl, rfl⟩))
  exact .update _ (hframe.trans (moves_modify y (by exact ⟨rfl, rfl, rfl⟩)))

lemma writeCr_settled : Settled p x (lpspiWriteCr p x value) := by
  apply settled_ite
  · extract_lets y
    have hreset : FlexcommMoves p x y := moves_regs ⟨rfl, rfl, rfl⟩
    have hrelease : FlexcommMoves p y (if y.st.spiCsAsserted then setSpiCs p true y else y) :=
      moves_ite (.single (.cs y true)) .refl
    exact .update _ (hreset.trans hrelease)
  · exact settled_update x (by exact ⟨rfl, rfl, rfl⟩)

lemma lpspiWrite_settled (r : Option LpspiReg) : Settled p x (mcxnLpspiWrite p x value r) := by
  rcases r with _ | r
  · exact .refl x
  cases r with
  | cr => exact writeCr_settled x value
  | sr | ier | der => exact settled_update x (by exact ⟨rfl, rfl, rfl⟩)
  | cfgr0 | cfgr1 | ccr | fcr | tcr => exact .quiet _ ⟨rfl, rfl, rfl⟩ (.of_eq rfl rfl rfl)
  | tdr => exact settled_ite (transmit_settled x value) (.refl x)
  | _ => exact .refl x

end

lemma readMrdr_settled : Settled p x (lpi2cReadMrdr p x).1 := by
  unfold lpi2cReadMrdr
  split
  · apply Settled.update
    apply moves_ite
    · exact moves_peer ⟨rfl, rfl, rfl⟩ (.i2cRecv x.peers)
    · exact moves_regs ⟨rfl, rfl, rfl⟩
  · exact .refl x

lemma lpi2cRead_settled (r : Option Lpi2cReg) : Settled p x (mcxnLpi2cRead p x r).1 := by
  rcases r with _ | r
  · exact .refl x
  cases r with
  | mrdr => exact readMrdr_settled x
  | _ => exact .refl x

lemma command_moves (value : Word) : FlexcommMoves p x (lpi2cCommand p x value) := by
  unfold lpi2cCommand
  split
  · apply moves_peer _ (.i2cStart x.peers _ _)
    split <;> exact ⟨rfl, rfl, rfl⟩
  · apply moves_peer _ (.i2cSend x.peers _)
    split <;> exact ⟨rfl, rfl, rfl⟩
  · refine Relation.ReflTransGen.trans (moves_regs (by exact ⟨rfl, rfl, rfl⟩)) (moves_ite ?_ .refl)
    exact moves_peer ⟨rfl, rfl, rfl⟩ (.i2cRecv x.peers)
  · exact moves_peer ⟨rfl, rfl, rfl⟩ (.i2cEnd x.peers)
  · exact .refl

lemma writeMcr_caches (value : Word) : SameCaches s (lpi2cWriteMcr s value) := by
  unfold lpi2cWriteMcr
  split <;> exact ⟨rfl, rfl, rfl⟩

lemma lpi2cWrite_settled (value : Word) (r : Option Lpi2cReg) :
    Settled p x (mcxnLpi2cWrite p x value r) := by
  rcases r with _ | r
  · exact .refl x
  cases r with
  | mcr => exact settled_update x (writeMcr_caches x.st value)
  | msr | mier | mder => exact settled_update x (by exact ⟨rfl, rfl, rfl⟩)
  | mcfgr1 => exact .quiet _ ⟨rfl, rfl, rfl⟩ (.of_eq rfl rfl rfl)
  | mtdr =>
    apply settled_ite
    · exact .update _ (command_moves x value)
    · exact .refl x
  | _ => exact .refl x

lemma read_settled (r : Option LpuartReg) : Settled p x (lpuartRead p x r).1 := by
  rcases r with _ | r
  · exact .refl x
  cases r with
  | data =>
    apply settled_ite
    · exact .refl x
    · exact .accept _ (settled_update x (rxPop_caches x.st))
  | _ => exact .refl x

section

variable (value : Word)

lemma writeGlobal_settled : Settled p x (lpuartWriteGlobal p x value) := by
  unfold lpuartWriteGlobal
  extract_lets y
  have hstore : FlexcommMoves p x y := moves_regs ⟨rfl, rfl, rfl⟩
  apply settled_ite
  · exact .update _ (hstore.trans (moves_modify y (by exact ⟨rfl, rfl, rfl⟩)))
  · exact .quiet _ ⟨rfl, rfl, rfl⟩ (.of_eq rfl rfl rfl)

lemma writeFifo_settled : Settled p x (lpuartWriteFifo p x value) := by
  unfold lpuartWriteFifo
  extract_lets y z
  have hstore : FlexcommMoves p x y := moves_regs ⟨rfl, rfl, rfl⟩
  have hflush : FlexcommMoves p y z := by
    apply moves_ite
    · refine Relation.ReflTransGen.trans ?_ (chrAcceptInput_moves _)
      exact moves_regs ⟨rfl, rfl, rfl⟩
    · exact .refl
  exact .update _ ((hstore.trans hflush).trans (moves_modify z (by exact ⟨rfl, rfl, rfl⟩)))

lemma writeData_settled : Settled p x (lpuartWriteData p x value) := by
  apply Settled.update
  apply moves_ite
  · exact moves_peer ⟨rfl, rfl, rfl⟩ (.chrWrite x.peers _)
  · exact .refl

lemma write_settled (r : Option LpuartReg) : Settled p x (lpuartWrite p x value r) := by
  rcases r with _ | r
  · exact .refl x
  cases r with
  | global => exact writeGlobal_settled x value
  | data => exact writeData_settled x value
  | fifo => exact writeFifo_settled x value
  | baud | ctrl | water => exact settled_update x (by exact ⟨rfl, rfl, rfl⟩)
  | pincfg | mcr | matchReg | modir | reir | teir | hdcr | tocr | tosr
  | timeout i => exact .quiet _ ⟨rfl, rfl, rfl⟩ (.of_eq rfl rfl rfl)
  | _ => exact .refl x

end

lemma lpuartRead_settled (offset : ℕ) : Settled p x (mcxnLpuartRead p x offset).1 := by
  unfold mcxnLpuartRead
  split
  · exact .refl x
  split
  · exact .refl x
  split
  · exact lpspiRead_settled x _
  · split
    · exact .refl x
    · exact lpi2cRead_settled x _
  · exact read_settled x _

lemma lpuartWrite_settled {offset : ℕ} (value : Word) (hoffset : offset ≠ lpflexcommPselid) :
    Settled p x (mcxnLpuartWrite p x offset value) := by
  unfold mcxnLpuartWrite
  rw [if_neg hoffset]
  split
  · exact .refl x
  split
  · exact lpspiWrite_settled x value _
  · split
    · exact .refl x
    · exact lpi2cWrite_settled x value _
  · exact write_settled x value _

lemma write_moves (offset : ℕ) (value : Word) :
    FlexcommMoves p x (mcxnLpuartWrite p x offset value) := by
  by_cases hoffset : offset = lpflexcommPselid
  · unfold mcxnLpuartWrite
    rw [if_pos hoffset]
    exact moves_regs ⟨rfl, rfl, rfl⟩
  · exact (lpuartWrite_settled x value hoffset).moves

end Mcxn947.Flexcomm
