import Mcxn947.FlexcommModel

/-!
# The FlexComm register window

The three register maps and the two wrapper registers above them, as
`mcxn_lpuart_read` and `mcxn_lpuart_write` decode them, then reset, and the
snapshot fields with `mcxn_lpuart_post_load`.
-/

namespace Mcxn947.Flexcomm

open MachineWords

variable {π : Type}

inductive LpspiReg where
  | verid | param | cr | sr | ier | der | cfgr0 | cfgr1 | ccr | ccr1
  | fcr | fsr | tcr | tdr | rsr | rdr | rdror
deriving DecidableEq

def LpspiReg.ofOffset : ℕ → Option LpspiReg
  | 0x00 => some .verid
  | 0x04 => some .param
  | 0x10 => some .cr
  | 0x14 => some .sr
  | 0x18 => some .ier
  | 0x1C => some .der
  | 0x20 => some .cfgr0
  | 0x24 => some .cfgr1
  | 0x40 => some .ccr
  | 0x44 => some .ccr1
  | 0x58 => some .fcr
  | 0x5C => some .fsr
  | 0x60 => some .tcr
  | 0x64 => some .tdr
  | 0x70 => some .rsr
  | 0x74 => some .rdr
  | 0x78 => some .rdror
  | _ => none

variable (s : FlexcommState) (p : Peers π) (x : Device π)

def mcxnLpspiRead : Option LpspiReg → Device π × Word
  | some .verid => (x, lpspiVeridValue)
  | some .param => (x, lpspiParamValue)
  | some .cr => (x, x.st.spiCr)
  | some .sr => (x, mcxnLpspiStatus x.st)
  | some .ier => (x, x.st.spiIer)
  | some .der => (x, x.st.spiDer)
  | some .cfgr0 => (x, x.st.spiCfgr0)
  | some .cfgr1 => (x, x.st.spiCfgr1)
  | some .ccr => (x, x.st.spiCcr)
  | some .fcr => (x, x.st.spiFcr)
  | some .tcr => (x, x.st.spiTcr)
  | some .fsr => (x, if x.st.spiRxFull then 1 <<< 16 else 0)
  | some .rsr => (x, if x.st.spiRxFull then 0 else lpspiRsrRxempty)
  | some .rdror => (x, x.st.spiRdr)
  | some .rdr =>
    (if x.st.spiRxFull then
      mcxnFlexcommUpdateIrq p (x.modify fun s => { s with spiRxFull := false })
    else x, x.st.spiRdr)
  | some .ccr1 | some .tdr | none => (x, 0)

def frameMask (tcr : Word) : Word :=
  let framesz := (tcr &&& lpspiTcrFramesz).toNat + 1
  if 32 ≤ framesz then 0xFFFFFFFF else (1 <<< framesz) - 1

def shiftFrame (x : Device π) (value : Word) : Device π :=
  let mask := frameMask x.st.spiTcr
  match p.ssiTransfer with
  | some transfer =>
    let x := if x.st.spiCsAsserted then x else setSpiCs p false x
    let reply := transfer x.peers (value &&& mask)
    let x := { x with
      st := { x.st with spiRdr := reply.2 &&& mask }, peers := reply.1
      shifted := x.shifted ++ [value &&& mask] }
    if anyBit x.st.spiTcr lpspiTcrCont then x else setSpiCs p true x
  | none => x.modify fun s => { s with spiRdr := value &&& mask }

def lpspiTransmit (x : Device π) (value : Word) : Device π :=
  let x :=
    if anyBit x.st.spiTcr lpspiTcrRxmsk then x
    else (shiftFrame p x value).modify fun s => { s with spiRxFull := true }
  mcxnFlexcommUpdateIrq p (x.modify fun s =>
    { s with spiSr := s.spiSr ||| (lpspiSrWcf ||| lpspiSrFcf ||| lpspiSrTcf) })

def lpspiWriteCr (x : Device π) (value : Word) : Device π :=
  if anyBit value lpspiCrRst then
    let x := x.modify fun s =>
      { s with spiCr := 0, spiSr := 0, spiIer := 0, spiRxFull := false }
    -- a reset releases the chip select
    mcxnFlexcommUpdateIrq p (if x.st.spiCsAsserted then setSpiCs p true x else x)
  else
    mcxnFlexcommUpdateIrq p (x.modify fun s =>
      { s with
        spiCr := value &&& ~~~(lpspiCrRtf ||| lpspiCrRrf)
        spiRxFull := !anyBit value lpspiCrRrf && s.spiRxFull })

def mcxnLpspiWrite (value : Word) : Option LpspiReg → Device π
  | some .cr => lpspiWriteCr p x value
  | some .sr => mcxnFlexcommUpdateIrq p (x.modify fun s =>
    { s with spiSr := s.spiSr &&& ~~~(value &&& lpspiSrW1c) })
  | some .ier => mcxnFlexcommUpdateIrq p (x.modify fun s =>
    { s with spiIer := value })
  | some .cfgr0 => x.modify fun s => { s with spiCfgr0 := value }
  | some .cfgr1 => x.modify fun s => { s with spiCfgr1 := value }
  | some .ccr => x.modify fun s => { s with spiCcr := value }
  | some .fcr => x.modify fun s => { s with spiFcr := value }
  | some .tcr => x.modify fun s => { s with spiTcr := value }
  | some .der => mcxnFlexcommUpdateIrq p (x.modify fun s =>
    { s with spiDer := value })
  | some .tdr => if anyBit x.st.spiCr lpspiCrMen then lpspiTransmit p x value else x
  | some .verid | some .param | some .ccr1 | some .fsr | some .rsr
  | some .rdr | some .rdror | none => x

inductive Lpi2cReg where
  | verid | param | mcr | msr | mier | mder | mcfgr0 | mcfgr1 | mcfgr2 | mcfgr3
  | mccr0 | mccr1 | mfcr | mfsr | mtdr | mrdr | mrdror | sasr | srdr | srdror
deriving DecidableEq

def Lpi2cReg.ofOffset : ℕ → Option Lpi2cReg
  | 0x00 => some .verid
  | 0x04 => some .param
  | 0x10 => some .mcr
  | 0x14 => some .msr
  | 0x18 => some .mier
  | 0x1C => some .mder
  | 0x20 => some .mcfgr0
  | 0x24 => some .mcfgr1
  | 0x28 => some .mcfgr2
  | 0x2C => some .mcfgr3
  | 0x48 => some .mccr0
  | 0x50 => some .mccr1
  | 0x58 => some .mfcr
  | 0x5C => some .mfsr
  | 0x60 => some .mtdr
  | 0x70 => some .mrdr
  | 0x78 => some .mrdror
  | 0x150 => some .sasr
  | 0x170 => some .srdr
  | 0x178 => some .srdror
  | _ => none

def lpi2cReadMrdr : Device π × Word :=
  if x.st.i2cRxFull then
    -- refill the one-byte lookahead while bytes are still owed
    let y :=
      if x.st.i2cRxPending ≠ 0 then
        let reply := p.i2cRecv x.peers
        { x with
          st := { x.st with
            i2cMrdr := reply.2.setWidth 32, i2cRxPending := x.st.i2cRxPending - 1 }
          peers := reply.1 }
      else x.modify fun s => { s with i2cRxFull := false }
    (mcxnFlexcommUpdateIrq p y, x.st.i2cMrdr)
  else (x, lpi2cMrdrRxempty)

def mcxnLpi2cRead : Option Lpi2cReg → Device π × Word
  | some .verid => (x, lpi2cVeridValue)
  | some .param => (x, lpi2cParamValue)
  | some .mcr => (x, x.st.i2cMcr)
  | some .msr => (x, mcxnLpi2cStatus x.st)
  | some .mier => (x, x.st.i2cMier)
  | some .mcfgr1 => (x, x.st.i2cMcfgr1)
  | some .mfsr => (x, if x.st.i2cRxFull then 1 <<< 16 else 0)
  | some .mrdror => (x, if x.st.i2cRxFull then x.st.i2cMrdr else lpi2cMrdrRxempty)
  | some .sasr | some .srdr | some .srdror => (x, lpi2cMrdrRxempty)
  | some .mrdr => lpi2cReadMrdr p x
  | some .mder => (x, x.st.i2cMder)
  | some .mcfgr0 | some .mcfgr2 | some .mcfgr3 | some .mccr0 | some .mccr1
  | some .mfcr | some .mtdr | none => (x, 0)

inductive Lpi2cCmd where
  | txdata | rxdata | stop | start | other
deriving DecidableEq

def Lpi2cCmd.ofValue (value : Word) : Lpi2cCmd :=
  match ((value &&& lpi2cMtdrCmdMask) >>> 8).toNat with
  | 0 => .txdata
  | 1 => .rxdata
  | 2 => .stop
  | 3 => .other
  | _ => .start

def lpi2cCommand (x : Device π) (value : Word) : Device π :=
  let data : Byte := (value &&& lpi2cMtdrDataMask).setWidth 8
  match Lpi2cCmd.ofValue value with
  | .start =>
    let reply := p.i2cStartTransfer x.peers (data >>> 1) (anyBit data 1)
    { x with
      st :=
        if reply.2 then
          { x.st with
            i2cMsr := x.st.i2cMsr ||| lpi2cMsrNdf, i2cBusy := false }
        else { x.st with i2cBusy := true }
      peers := reply.1 }
  | .txdata =>
    let reply := p.i2cSend x.peers data
    { x with
      st :=
        if reply.2 then
          { x.st with i2cMsr := x.st.i2cMsr ||| lpi2cMsrNdf }
        else x.st
      peers := reply.1 }
  | .rxdata =>
    let x := x.modify fun s =>
      { s with i2cRxPending := s.i2cRxPending + (data.setWidth 32 + 1) }
    if !x.st.i2cRxFull && x.st.i2cRxPending != 0 then
      let reply := p.i2cRecv x.peers
      { x with
        st := { x.st with
          i2cMrdr := reply.2.setWidth 32, i2cRxFull := true, i2cRxPending := x.st.i2cRxPending - 1 }
        peers := reply.1 }
    else x
  | .stop =>
    { x with
      st := { x.st with
        i2cBusy := false, i2cRxPending := 0
        i2cMsr := x.st.i2cMsr ||| (lpi2cMsrSdf ||| lpi2cMsrEpf) }
      peers := p.i2cEndTransfer x.peers }
  | .other => x

def lpi2cWriteMcr (value : Word) : FlexcommState :=
  if anyBit value lpi2cMcrRst then
    { s with
      i2cMcr := 0, i2cMsr := 0, i2cMier := 0, i2cRxFull := false, i2cBusy := false
      i2cRxPending := 0 }
  else
    { s with
      i2cMcr := value &&& ~~~(lpi2cMcrRtf ||| lpi2cMcrRrf)
      i2cRxFull := !anyBit value lpi2cMcrRrf && s.i2cRxFull }

def mcxnLpi2cWrite (value : Word) : Option Lpi2cReg → Device π
  | some .mcr => mcxnFlexcommUpdateIrq p (x.modify fun s =>
    lpi2cWriteMcr s value)
  | some .msr => mcxnFlexcommUpdateIrq p (x.modify fun s =>
    { s with i2cMsr := s.i2cMsr &&& ~~~(value &&& lpi2cMsrW1c) })
  | some .mier => mcxnFlexcommUpdateIrq p (x.modify fun s =>
    { s with i2cMier := value })
  | some .mcfgr1 => x.modify fun s => { s with i2cMcfgr1 := value }
  | some .mder => mcxnFlexcommUpdateIrq p (x.modify fun s =>
    { s with i2cMder := value })
  | some .mtdr =>
    if anyBit x.st.i2cMcr lpi2cMcrMen then
      mcxnFlexcommUpdateIrq p (lpi2cCommand p x value)
    else x
  | some .verid | some .param | some .mcfgr0 | some .mcfgr2 | some .mcfgr3
  | some .mccr0 | some .mccr1 | some .mfcr | some .mfsr | some .mrdr
  | some .mrdror | some .sasr | some .srdr | some .srdror | none => x

inductive LpuartReg where
  | verid | param | global | pincfg | baud | stat | ctrl | data | matchReg
  | modir | fifo | water | dataro | mcr | msr | reir | teir | hdcr | tocr | tosr
  | timeout (i : Fin 4)
deriving DecidableEq

def LpuartReg.ofOffset (offset : ℕ) : Option LpuartReg :=
  match offset with
  | 0x00 => some .verid
  | 0x04 => some .param
  | 0x08 => some .global
  | 0x0C => some .pincfg
  | 0x10 => some .baud
  | 0x14 => some .stat
  | 0x18 => some .ctrl
  | 0x1C => some .data
  | 0x20 => some .matchReg
  | 0x24 => some .modir
  | 0x28 => some .fifo
  | 0x2C => some .water
  | 0x30 => some .dataro
  | 0x40 => some .mcr
  | 0x44 => some .msr
  | 0x48 => some .reir
  | 0x4C => some .teir
  | 0x50 => some .hdcr
  | 0x58 => some .tocr
  | 0x5C => some .tosr
  | _ =>
    if h : 0x60 ≤ offset ∧ offset ≤ 0x6C then
      some (.timeout ⟨(offset - 0x60) / 4, by omega⟩)
    else none

def lpuartData : Word := if s.rxCount = 0 then lpuartDataRxempt else (s.rxFifo s.rxHead).setWidth 32

def lpuartRead : Option LpuartReg → Device π × Word
  | some .verid => (x, lpuartVeridValue)
  | some .param => (x, lpuartParamValue)
  | some .global => (x, x.st.global)
  | some .pincfg => (x, x.st.pincfg)
  | some .baud => (x, x.st.baud)
  | some .mcr => (x, x.st.mcr)
  | some .msr => (x, 0)
  | some .stat => (x, (statTdre ||| statTc) |||
      (if lpuartRdrf x.st then statRdrf else 0) ||| x.st.statOr)
  | some .ctrl => (x, x.st.ctrl)
  | some .data =>
    (if x.st.rxCount = 0 then x
    else chrAcceptInput p (mcxnFlexcommUpdateIrq p
      (x.modify fun s => (lpuartRxPop s).1)), lpuartData x.st)
  | some .dataro => (x, lpuartData x.st)
  | some .matchReg => (x, x.st.matchReg)
  | some .modir => (x, x.st.modir)
  | some .fifo => (x, ((x.st.fifo &&& ~~~lpuartFifoSizesMask) |||
      lpuartFifoSizes) ||| (if x.st.rxCount = 0 then fifoRxempt else 0) |||
      fifoTxempt)
  | some .water => (x, (x.st.water &&& 0x00070007) |||
      ((BitVec.ofNat 32 x.st.rxCount &&& 0xF) <<< 24))
  | some .reir => (x, x.st.reir)
  | some .teir => (x, x.st.teir)
  | some .hdcr => (x, x.st.hdcr)
  | some .tocr => (x, x.st.tocr)
  | some .tosr => (x, x.st.tosr)
  | some (.timeout i) => (x, x.st.timeout i)
  | none => (x, 0)

def lpuartWriteGlobal (x : Device π) (value : Word) : Device π :=
  let x := x.modify fun s => { s with global := value }
  if anyBit value globalRst then
    mcxnFlexcommUpdateIrq p (x.modify fun s =>
      { s with
        ctrl := 0, baud := 0, fifo := 0, water := 0, rxHead := 0, rxCount := 0, statOr := 0 })
  else x

def lpuartWriteFifo (x : Device π) (value : Word) : Device π :=
  let x := x.modify fun s => { s with fifo := value &&& ~~~lpuartFifoSizesMask }
  let x :=
    if anyBit value fifoRxflush then
      chrAcceptInput p (x.modify fun s =>
        { s with
          rxCount := 0, rxHead := 0, fifo := s.fifo &&& ~~~fifoRxflush })
    else x
  mcxnFlexcommUpdateIrq p (x.modify fun s =>
    { s with fifo := s.fifo &&& ~~~fifoTxflush })

def lpuartWriteData (value : Word) : Device π :=
  mcxnFlexcommUpdateIrq p
    (if anyBit x.st.ctrl ctrlTe then
      { x with peers := p.chrWriteAll x.peers ((value &&& 0xFF).setWidth 8) }
    else x)

def lpuartWrite (value : Word) : Option LpuartReg → Device π
  | some .global => lpuartWriteGlobal p x value
  | some .pincfg => x.modify fun s => { s with pincfg := value }
  | some .mcr => x.modify fun s => { s with mcr := value }
  | some .baud => mcxnFlexcommUpdateIrq p (x.modify fun s =>
    { s with baud := value })
  | some .ctrl => mcxnFlexcommUpdateIrq p (x.modify fun s =>
    { s with ctrl := value })
  | some .data => lpuartWriteData p x value
  | some .matchReg => x.modify fun s => { s with matchReg := value }
  | some .modir => x.modify fun s => { s with modir := value }
  | some .fifo => lpuartWriteFifo p x value
  | some .water => mcxnFlexcommUpdateIrq p (x.modify fun s =>
    { s with water := value &&& 0x00070007 })
  | some .reir => x.modify fun s => { s with reir := value }
  | some .teir => x.modify fun s => { s with teir := value }
  | some .hdcr => x.modify fun s => { s with hdcr := value }
  | some .tocr => x.modify fun s => { s with tocr := value }
  | some .tosr => x.modify fun s => { s with tosr := value }
  | some (.timeout i) => x.modify fun s => { s with timeout := Function.update s.timeout i value }
  | some .msr | some .stat | some .verid | some .param | some .dataro
  | none => x

def lpi2cWindow : ℕ := 0x800
def lpflexcommIstat : ℕ := 0xFF4
def lpflexcommPselid : ℕ := 0xFF8

def mcxnLpuartRead (offset : ℕ) : Device π × Word :=
  if offset = lpflexcommPselid then
    (x, x.st.pselid ||| pselidPresentBits ||| pselidIdValue)
  else if offset = lpflexcommIstat then (x, mcxnFlexcommIstat x.st)
  else
    match x.st.persel with
    | .lpspi => mcxnLpspiRead p x (LpspiReg.ofOffset offset)
    | .lpi2c =>
      if offset < lpi2cWindow then (x, 0)
      else mcxnLpi2cRead p x (Lpi2cReg.ofOffset (offset - lpi2cWindow))
    | .lpuart => lpuartRead p x (LpuartReg.ofOffset offset)

def mcxnLpuartWrite (offset : ℕ) (value : Word) :
    Device π :=
  if offset = lpflexcommPselid then
    x.modify fun s =>
      { s with pselid := value &&& (pselidPersel ||| pselidLock) }
  else if offset = lpflexcommIstat then x
  else
    match x.st.persel with
    | .lpspi => mcxnLpspiWrite p x value (LpspiReg.ofOffset offset)
    | .lpi2c =>
      if offset < lpi2cWindow then x
      else mcxnLpi2cWrite p x value (Lpi2cReg.ofOffset (offset - lpi2cWindow))
    | .lpuart => lpuartWrite p x value (LpuartReg.ofOffset offset)

def mcxnLpuartReset : FlexcommState :=
  { s with
    global := 0, pincfg := 0, ctrl := 0, matchReg := 0, modir := 0, fifo := 0, water := 0
    pselid := 0, reir := 0, teir := 0, hdcr := 0, tocr := 0, baud := lpuartBaudReset
    tosr := lpuartTosrReset, timeout := fun _ => 0, rxFifo := fun _ => 0
    rxHead := 0, rxCount := 0, statOr := 0, spiCr := 0, spiSr := 0, spiIer := 0
    spiCfgr0 := 0, spiCfgr1 := 0, spiCcr := 0, spiFcr := 0, spiTcr := lpspiTcrReset
    spiRdr := 0, spiRxFull := false, spiCsAsserted := false
    i2cMcr := 0, i2cMsr := 0, i2cMier := 0, i2cMcfgr1 := 0, i2cMrdr := 0
    i2cRxFull := false, i2cBusy := false, i2cRxPending := 0 }

def FlexcommState.created : FlexcommState where
  dmaTxLevel := false
  dmaRxLevel := false
  global := 0
  pincfg := 0
  baud := 0
  ctrl := 0
  matchReg := 0
  modir := 0
  fifo := 0
  water := 0
  pselid := 0
  mcr := 0
  reir := 0
  teir := 0
  hdcr := 0
  tocr := 0
  tosr := 0
  timeout := fun _ => 0
  rxFifo := fun _ => 0
  rxHead := 0
  rxCount := 0
  statOr := 0
  spiCr := 0
  spiSr := 0
  spiIer := 0
  spiCfgr0 := 0
  spiCfgr1 := 0
  spiCcr := 0
  spiFcr := 0
  spiTcr := 0
  spiDer := 0
  spiRdr := 0
  spiRxFull := false
  spiCsAsserted := false
  i2cMcr := 0
  i2cMsr := 0
  i2cMier := 0
  i2cMcfgr1 := 0
  i2cMder := 0
  i2cMrdr := 0
  i2cRxFull := false
  i2cBusy := false
  i2cRxPending := 0

def FlexcommState.load (s saved : FlexcommState) : FlexcommState :=
  { s with
    global := saved.global, pincfg := saved.pincfg, baud := saved.baud, ctrl := saved.ctrl
    matchReg := saved.matchReg, modir := saved.modir, fifo := saved.fifo, water := saved.water
    rxFifo := saved.rxFifo, rxHead := saved.rxHead, rxCount := saved.rxCount, statOr := saved.statOr
    pselid := saved.pselid, reir := saved.reir, teir := saved.teir, hdcr := saved.hdcr
    tocr := saved.tocr, tosr := saved.tosr, timeout := saved.timeout, spiCr := saved.spiCr
    spiSr := saved.spiSr, spiIer := saved.spiIer, spiCfgr0 := saved.spiCfgr0
    spiCfgr1 := saved.spiCfgr1, spiCcr := saved.spiCcr, spiFcr := saved.spiFcr
    spiTcr := saved.spiTcr, spiRdr := saved.spiRdr, spiRxFull := saved.spiRxFull
    i2cMcr := saved.i2cMcr, i2cMsr := saved.i2cMsr, i2cMier := saved.i2cMier
    i2cMcfgr1 := saved.i2cMcfgr1, i2cMrdr := saved.i2cMrdr, i2cRxFull := saved.i2cRxFull
    i2cBusy := saved.i2cBusy, i2cRxPending := saved.i2cRxPending }

def mcxnLpuartPostLoad : Device π := mcxnFlexcommUpdateIrq p x

end Mcxn947.Flexcomm
