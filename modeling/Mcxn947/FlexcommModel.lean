import Mcxn947.MachineWords

/-!
# LP_FLEXCOMM: LPUART, LPSPI and LPI2C behind one window

`hw/char/mcxn_lpuart.c`.
-/

namespace Mcxn947.Flexcomm

open MachineWords BitVec

def lpuartBaudReset : Word := 0x0F000004
def lpuartTosrReset : Word := 0x0000000F
def lpspiTcrReset : Word := 0x0000001F

def lpuartFifoSizes : Word := 0x00000022
def lpuartFifoSizesMask : Word := 0x00000077
def lpuartDataRxempt : Word := 0x00001000

def statOr : Word := 0x00080000
def statRdrf : Word := 0x00200000
def statTc : Word := 0x00400000
def statTdre : Word := 0x00800000

def ctrlTe : Word := 0x00080000
def ctrlRie : Word := 0x00200000
def ctrlTcie : Word := 0x00400000
def ctrlTie : Word := 0x00800000

def fifoRxfe : Word := 0x00000008
def fifoRxflush : Word := 0x00004000
def fifoTxflush : Word := 0x00008000
def fifoRxempt : Word := 0x00400000
def fifoTxempt : Word := 0x00800000

def globalRst : Word := 0x00000002

def pselidPersel : Word := 0x7
def pselidLock : Word := 0x8
def perselLpspi : Word := 2
def perselLpi2c : Word := 3
def pselidPresentBits : Word := 0x10 ||| 0x20 ||| 0x40
def pselidIdValue : Word := 0x00103000

def lpuartVeridValue : Word := 0x04010003
def lpuartParamValue : Word := (3 <<< 8) ||| 3

def istatUarttx : Word := 0x1
def istatUartrx : Word := 0x2
def istatSpi : Word := 0x4
def istatI2cm : Word := 0x10

def lpspiCrMen : Word := 0x1
def lpspiCrRst : Word := 0x2
def lpspiCrRtf : Word := 0x100
def lpspiCrRrf : Word := 0x200
def lpspiSrTdf : Word := 0x1
def lpspiSrRdf : Word := 0x2
def lpspiSrWcf : Word := 0x100
def lpspiSrFcf : Word := 0x200
def lpspiSrTcf : Word := 0x400
def lpspiSrW1c : Word := lpspiSrWcf ||| lpspiSrFcf ||| lpspiSrTcf
def lpspiTcrFramesz : Word := 0xFFF
def lpspiTcrRxmsk : Word := 0x80000
def lpspiTcrCont : Word := 0x200000
def lpspiRsrRxempty : Word := 0x2
def lpspiVeridValue : Word := 0x01010004
def lpspiParamValue : Word := 0x00040000

def lpi2cMcrMen : Word := 0x1
def lpi2cMcrRst : Word := 0x2
def lpi2cMcrRtf : Word := 0x100
def lpi2cMcrRrf : Word := 0x200
def lpi2cMsrTdf : Word := 0x1
def lpi2cMsrRdf : Word := 0x2
def lpi2cMsrEpf : Word := 0x100
def lpi2cMsrSdf : Word := 0x200
def lpi2cMsrNdf : Word := 0x400
def lpi2cMsrMbf : Word := 0x1000000
def lpi2cMsrBbf : Word := 0x2000000
def lpi2cMsrW1c : Word := lpi2cMsrEpf ||| lpi2cMsrSdf ||| lpi2cMsrNdf
def lpi2cMrdrRxempty : Word := 0x4000
def lpi2cMtdrCmdMask : Word := 0x700
def lpi2cMtdrDataMask : Word := 0xFF
def lpi2cVeridValue : Word := 0x01000003
def lpi2cParamValue : Word := 0x00000000

def baudRdmae : Word := 0x00200000
def baudTdmae : Word := 0x00800000
def derTdde : Word := 0x1
def derRdde : Word := 0x2

lemma anyBit_dataByte (b : Byte) {k : ℕ} (hk : 8 ≤ k) :
    anyBit (b.setWidth 32 : Word) (BitVec.twoPow 32 k) = false := by
  rw [anyBit_twoPow, getLsbD_setWidth, getLsbD_of_ge b k hk]
  exact Bool.and_false _

def lpuartFifoDepth : ℕ := 8

structure FlexcommState where
  (dmaTxLevel dmaRxLevel : Bool)
  (global pincfg baud ctrl matchReg modir fifo water pselid mcr reir teir hdcr tocr tosr : Word)
  timeout : Fin 4 → Word
  rxFifo : Fin 8 → Byte
  rxHead : Fin 8
  rxCount : ℕ
  (statOr spiCr spiSr spiIer spiCfgr0 spiCfgr1 spiCcr spiFcr spiTcr spiDer spiRdr : Word)
  (spiRxFull spiCsAsserted : Bool)
  (i2cMcr i2cMsr i2cMier i2cMcfgr1 i2cMder i2cMrdr : Word)
  (i2cRxFull i2cBusy : Bool)
  i2cRxPending : Word
deriving DecidableEq

structure FlexcommLines where
  (irq dmaReqTx dmaReqRx spiCs : Bool)
deriving DecidableEq

structure DataPeers (π : Type) where
  spiCs : π → Bool → π
  ssiTransfer : Option (π → Word → π × Word)
  i2cStartTransfer : π → Byte → Bool → π × Bool
  i2cSend : π → Byte → π × Bool
  i2cRecv : π → π × Byte
  i2cEndTransfer : π → π
  chrWriteAll : π → Byte → π
  chrAcceptInput : π → π × List (List Byte)

structure Peers (π : Type) extends DataPeers π where
  (dmaReqTx dmaReqRx : π → Bool → π)

def DataPeers.alone {π : Type} (d : DataPeers π) : Peers π :=
  { d with dmaReqTx := fun q _ => q, dmaReqRx := fun q _ => q }

structure PortWatch (ρ : Type) where
  cs : ρ → Bool → ρ := fun r _ => r
  shift : ρ → Word → Word → ρ := fun r _ _ => r
  recv : ρ → Byte → ρ := fun r _ => r

def Peers.watched {π ρ : Type} (p : Peers π) (watch : PortWatch ρ) : Peers (π × ρ) where
  spiCs q level := (p.spiCs q.1 level, watch.cs q.2 level)
  ssiTransfer := p.ssiTransfer.map fun transfer q v =>
    (((transfer q.1 v).1, watch.shift q.2 v (transfer q.1 v).2), (transfer q.1 v).2)
  i2cStartTransfer q addr recv :=
    (((p.i2cStartTransfer q.1 addr recv).1, q.2), (p.i2cStartTransfer q.1 addr recv).2)
  i2cSend q data := (((p.i2cSend q.1 data).1, q.2), (p.i2cSend q.1 data).2)
  i2cRecv q := (((p.i2cRecv q.1).1, watch.recv q.2 (p.i2cRecv q.1).2), (p.i2cRecv q.1).2)
  i2cEndTransfer q := (p.i2cEndTransfer q.1, q.2)
  chrWriteAll q ch := (p.chrWriteAll q.1 ch, q.2)
  chrAcceptInput q := (((p.chrAcceptInput q.1).1, q.2), (p.chrAcceptInput q.1).2)
  dmaReqTx q level := (p.dmaReqTx q.1 level, q.2)
  dmaReqRx q level := (p.dmaReqRx q.1 level, q.2)

@[ext] structure Device (π : Type) where
  st : FlexcommState
  lines : FlexcommLines
  peers : π
  shifted : List Word

variable {π : Type}

def Device.modify (x : Device π) (f : FlexcommState → FlexcommState) :
    Device π :=
  { x with st := f x.st }

variable (s : FlexcommState)

def lpuartRxDepth : ℕ := if anyBit s.fifo fifoRxfe then lpuartFifoDepth else 1

def lpuartRxwater : ℕ := ((s.water >>> 16) &&& 0x7).toNat

def lpuartRdrf : Bool := lpuartRxwater s < s.rxCount

def lpuartRxPush (ch : Byte) : FlexcommState × Bool :=
  if lpuartRxDepth s ≤ s.rxCount then (s, false)
  else
    let i : Fin 8 := ⟨(s.rxHead.val + s.rxCount) % 8, by omega⟩
    ({ s with
      rxFifo := Function.update s.rxFifo i ch, rxCount := s.rxCount + 1 }, true)

def lpuartRxPop : FlexcommState × Byte :=
  if s.rxCount = 0 then (s, 0)
  else
    ({ s with
      rxHead := ⟨(s.rxHead.val + 1) % 8, by omega⟩
      rxCount := s.rxCount - 1 }, s.rxFifo s.rxHead)

def lpuartRxAll (buf : List Byte) (s : FlexcommState) : FlexcommState :=
  buf.foldl
    (fun s ch =>
      let pushed := lpuartRxPush s ch
      if pushed.2 then pushed.1
      else { pushed.1 with statOr := pushed.1.statOr ||| statOr }) s

def mcxnLpspiStatus : Word :=
  s.spiSr ||| (if anyBit s.spiCr lpspiCrMen then lpspiSrTdf else 0) |||
    (if s.spiRxFull then lpspiSrRdf else 0)

def mcxnLpi2cStatus : Word :=
  s.i2cMsr ||| lpi2cMsrTdf ||| (if s.i2cRxFull then lpi2cMsrRdf else 0) |||
    (if s.i2cBusy then lpi2cMsrMbf ||| lpi2cMsrBbf else 0)

inductive Persel where
  | lpuart | lpspi | lpi2c
deriving DecidableEq

def Persel.ofPselid (pselid : Word) : Persel :=
  if pselid &&& pselidPersel = perselLpspi then .lpspi
  else if pselid &&& pselidPersel = perselLpi2c then .lpi2c
  else .lpuart

def FlexcommState.persel : Persel := Persel.ofPselid s.pselid

def mcxnFlexcommIstat : Word :=
  match s.persel with
  | .lpspi => if anyBit s.spiIer (mcxnLpspiStatus s) then istatSpi else 0
  | .lpi2c => if anyBit s.i2cMier (mcxnLpi2cStatus s) then istatI2cm else 0
  | .lpuart =>
    (if anyBit s.ctrl (ctrlTie ||| ctrlTcie) then istatUarttx else 0) |||
      (if anyBit s.ctrl ctrlRie && lpuartRdrf s then istatUartrx else 0)

def FlexcommState.tx : Bool :=
  match s.persel with
  | .lpspi => anyBit s.spiDer derTdde
  | .lpi2c => anyBit s.i2cMder derTdde
  | .lpuart => anyBit s.baud baudTdmae

def FlexcommState.rx : Bool :=
  match s.persel with
  | .lpspi => anyBit s.spiDer derRdde && s.spiRxFull
  | .lpi2c => anyBit s.i2cMder derRdde && s.i2cRxFull
  | .lpuart => anyBit s.baud baudRdmae && lpuartRdrf s

section Ports

variable (p : Peers π)

variable (x : Device π)

def updateDmaTx : Device π :=
  if x.st.tx ≠ x.st.dmaTxLevel then
    { x with
      st := { x.st with dmaTxLevel := x.st.tx }, lines := { x.lines with dmaReqTx := x.st.tx }
      peers := p.dmaReqTx x.peers x.st.tx }
  else x

def updateDmaRx : Device π :=
  if x.st.rx ≠ x.st.dmaRxLevel then
    { x with
      st := { x.st with dmaRxLevel := x.st.rx }, lines := { x.lines with dmaReqRx := x.st.rx }
      peers := p.dmaReqRx x.peers x.st.rx }
  else x

def mcxnFlexcommUpdateDma : Device π := updateDmaRx p (updateDmaTx p x)

def mcxnFlexcommUpdateIrq : Device π :=
  mcxnFlexcommUpdateDma p { x with lines := { x.lines with irq := mcxnFlexcommIstat x.st != 0 } }

def setSpiCs (level : Bool) (x : Device π) : Device π :=
  { x with
    st := { x.st with spiCsAsserted := !level }, lines := { x.lines with spiCs := level }
    peers := p.spiCs x.peers level }

def mcxnLpuartRx (buf : List Byte) : Device π :=
  mcxnFlexcommUpdateIrq p (x.modify (lpuartRxAll buf))

def chrAcceptInput (x : Device π) : Device π :=
  let reply := p.chrAcceptInput x.peers
  reply.2.foldl (mcxnLpuartRx p) { x with peers := reply.1 }

end Ports

end Mcxn947.Flexcomm
