import Mcxn947.BusAccesses
import Mcxn947.EventRuns
import Mcxn947.LevelLines

/-!
# The I3C controller

`hw/misc/mcxn_i3c.c`: MCTRL requests drive an I2C bus, bytes from the target wait in a
receive FIFO, and MSTATUS flags enabled by MINTSET raise the interrupt.
-/

namespace Mcxn947.I3c

open MachineWords LevelLines BusAccesses

def rSconfig : ℕ := 0x004
def rSstatus : ℕ := 0x008
def rSintmasked : ℕ := 0x018
def rSerrwarn : ℕ := 0x01C
def rSdmactrl : ℕ := 0x020
def rSdatactrl : ℕ := 0x02C
def rSrdatab : ℕ := 0x040
def rSrdatah : ℕ := 0x048
def rScapabilities2 : ℕ := 0x05C
def rScapabilities : ℕ := 0x060
def rSidpartno : ℕ := 0x06C
def rSidext : ℕ := 0x070
def rSvendorid : ℕ := 0x074
def rStcclock : ℕ := 0x078
def rSmsgmapaddr : ℕ := 0x07C
def rMctrl : ℕ := 0x084
def rMstatus : ℕ := 0x088
def rMintset : ℕ := 0x090
def rMintclr : ℕ := 0x094
def rMintmasked : ℕ := 0x098
def rMerrwarn : ℕ := 0x09C
def rMdmactrl : ℕ := 0x0A0
def rMdatactrl : ℕ := 0x0AC
def rMwdatab : ℕ := 0x0B0
def rMwdatabe : ℕ := 0x0B4
def rMrdatab : ℕ := 0x0C0
def rMrdatah : ℕ := 0x0C8
def rMwdatab1 : ℕ := 0x0CC
def rMrmsgSdr : ℕ := 0x0D4
def rMrmsgDdr : ℕ := 0x0DC
def rSmapctrl0 : ℕ := 0x11C
def rIbiext1 : ℕ := 0x140
def rSid : ℕ := 0xFFC

def i3cSize : ℕ := 0x1000

def rxFifoSize : ℕ := 32

def datactrlRxempty : Word := 0x80000000
def datactrlTxfull : Word := 0x40000000
def datactrlFifoMask : Word := datactrlRxempty ||| datactrlTxfull
def datactrlRxcount : Word := 0x1F000000
def datactrlTxcount : Word := 0x001F0000

def mctrlRequest : Word := 0x7
def mctrlDir (v : Word) : Bool := anyBit v 0x100
def mctrlAddr (v : Word) : Byte := ((v >>> 9) &&& 0x7F).setWidth 8
def mctrlRdterm (v : Word) : ℕ := ((v >>> 16) &&& 0xFF).toNat

def reqNone : Word := 0
def reqEmitstartaddr : Word := 1
def reqEmitstop : Word := 2

def mstatusMctrldone : Word := 0x200
def mstatusComplete : Word := 0x400
def mstatusRxpend : Word := 0x800
def merrwarnNack : Word := 0x4

inductive I2cOp where
  | start (addr : Byte) (isRead : Bool)
  | send (byte : Byte)
  | recv
  | stop

structure I2cReply where
  nack : Bool
  data : ℕ → Byte

structure I3cState where
  regs : RegFile
  xferActive : Bool
  rxFifo : ℕ → Byte
  (rxCount rxPos : ℕ)
  irq : Bool
  bus : List I2cOp

variable (reply : I2cReply) (s : I3cState)

def I3cState.reg (off : ℕ) : Word := s.regs.get off

def I3cState.setReg (off : ℕ) (v : Word) : I3cState := { s with regs := s.regs.set off v }

def resetTable : List (ℕ × Word) :=
  [(rSconfig, 0x00010000), (rSstatus, 0x00001400), (rSdmactrl, 0x00000010),
    (rSdatactrl, 0x80000030), (rScapabilities2, 0x00000300), (rScapabilities, 0xE83FFE78),
    (rSidpartno, 0x30000000), (rSidext, 0x0000EF00), (rSvendorid, 0x0000011B),
    (rStcclock, 0x00000214), (rMstatus, 0x00001000), (rMdmactrl, 0x00000010),
    (rMdatactrl, 0x80000030), (rIbiext1, 0x00000070), (rSid, 0xEDCB0100)]

def resetRegs : RegFile := resetTable.foldl (fun r e => r.set e.1 e.2) .zero

def mcxnI3cReset : I3cState :=
  { s with regs := resetRegs, xferActive := false, rxCount := 0, rxPos := 0, irq := false }

def I3cState.pend : Word := s.reg rMstatus &&& s.reg rMintset

def mcxnI3cUpdateIrq : I3cState := { s.setReg rMintmasked s.pend with irq := s.pend != 0 }

def I3cState.flag (flags : Word) : I3cState := s.setReg rMstatus (s.reg rMstatus ||| flags)

def mdatactrlValue (reg : Word) : Word :=
  let avail := s.rxCount - s.rxPos
  let reg := reg &&& ~~~(datactrlFifoMask ||| datactrlRxcount ||| datactrlTxcount)
  let reg := reg ||| ((BitVec.ofNat 32 avail &&& 0x1F) <<< 24)
  if avail = 0 then reg ||| datactrlRxempty else reg

def i3cPop (s : I3cState) : Word × I3cState :=
  if s.rxPos < s.rxCount then
    let byte := s.rxFifo s.rxPos
    let s := { s with rxPos := s.rxPos + 1 }
    (byte.setWidth 32,
      if s.rxCount ≤ s.rxPos then s.setReg rMstatus (s.reg rMstatus &&& ~~~mstatusRxpend) else s)
  else (0, s)

def IsData (off : ℕ) : Prop := off / 4 = rMrdatab / 4 ∨ off / 4 = rMrdatah / 4
deriving Decidable

def mcxnI3cRead (off size : ℕ) : Word × I3cState :=
  if i3cSize ≤ off then (0, s)
  else if IsData off then
    let popped := i3cPop s
    (readBytes popped.1 off size, popped.2)
  else
    let reg :=
      if off / 4 = rSdatactrl / 4 then
        (s.reg off &&& ~~~datactrlFifoMask) ||| datactrlRxempty
      else if off / 4 = rMdatactrl / 4 then mdatactrlValue s (s.reg off)
      else s.reg off
    (readBytes reg off size, s)

def readOnly : List ℕ :=
  [rSintmasked, rSrdatab, rSrdatah, rScapabilities2, rScapabilities, rSmsgmapaddr, rMintmasked,
    rMrdatab, rMrdatah, rMrmsgSdr, rMrmsgDdr, rSmapctrl0, rSid]

def i3cRecv (i : ℕ) : I3cState :=
  { s with
    rxFifo := Function.update s.rxFifo s.rxCount (reply.data i), rxCount := s.rxCount + 1
    bus := s.bus ++ [.recv] }

def i3cReceive (s : I3cState) (n : ℕ) (reply : I2cReply) : I3cState :=
  let s := (List.range (min n rxFifoSize)).foldl (i3cRecv reply) s
  if s.rxCount ≠ 0 then s.flag mstatusRxpend else s

def i3cStart (s : I3cState) (v : Word) (reply : I2cReply) : I3cState :=
  let s :=
    { s with rxCount := 0, rxPos := 0, bus := s.bus ++ [I2cOp.start (mctrlAddr v) (mctrlDir v)] }
  if reply.nack then
    let s := s.setReg rMerrwarn (s.reg rMerrwarn ||| merrwarnNack)
    mcxnI3cUpdateIrq ({ s with xferActive := false }.flag mstatusMctrldone)
  else
    let s := { s with xferActive := true }
    let s := if mctrlDir v then i3cReceive s (mctrlRdterm v) reply else s
    mcxnI3cUpdateIrq (s.flag (mstatusMctrldone ||| mstatusComplete))

def i3cEnd : I3cState := { s with xferActive := false, bus := s.bus ++ [.stop] }

def i3cRequest (v : Word) (reply : I2cReply) : I3cState :=
  let req := v &&& mctrlRequest
  if req = reqEmitstartaddr then i3cStart s v reply
  else if req = reqEmitstop then
    mcxnI3cUpdateIrq
      ((if s.xferActive then i3cEnd s else s).flag (mstatusMctrldone ||| mstatusComplete))
  else if req = reqNone then s
  else mcxnI3cUpdateIrq (s.flag mstatusMctrldone)

def IsSend (off : ℕ) : Prop :=
  off / 4 = rMwdatab / 4 ∨ off / 4 = rMwdatabe / 4 ∨ off / 4 = rMwdatab1 / 4
deriving Decidable

def i3cSend (s : I3cState) (off : ℕ) (byte : Byte) : I3cState :=
  let s :=
    if s.xferActive then
      let s := { s with bus := s.bus ++ [.send byte] }
      if off / 4 = rMwdatabe / 4 then i3cEnd s else s
    else s
  mcxnI3cUpdateIrq (s.flag mstatusComplete)

def mcxnI3cWrite (off size : ℕ) (value : Word) (reply : I2cReply) : I3cState :=
  let cur := s.reg off
  let written := writtenBytes off size value
  let v := mergeBytes cur off size value
  if i3cSize ≤ off ∨ off / 4 * 4 ∈ readOnly then s
  else if off / 4 = rSerrwarn / 4 ∨ off / 4 = rMerrwarn / 4 ∨ off / 4 = rSstatus / 4 then
    s.setReg off (cur &&& ~~~written)
  else if off / 4 = rMstatus / 4 then mcxnI3cUpdateIrq (s.setReg rMstatus (cur &&& ~~~written))
  else if off / 4 = rMintset / 4 then mcxnI3cUpdateIrq (s.setReg rMintset (cur ||| written))
  else if off / 4 = rMintclr / 4 then
    mcxnI3cUpdateIrq ((s.setReg rMintset (s.reg rMintset &&& ~~~written)).setReg rMintclr v)
  else if off / 4 = rMctrl / 4 then i3cRequest (s.setReg rMctrl v) v reply
  else if IsSend off then i3cSend s off ((value >>> ((off % 4) * 8)).setWidth 8)
  else if off / 4 = rSdatactrl / 4 ∨ off / 4 = rMdatactrl / 4 then
    s.setReg off ((v &&& ~~~datactrlFifoMask) ||| datactrlRxempty)
  else s.setReg off v

def I3cState.powerOn : I3cState := mcxnI3cReset ⟨.zero, false, fun _ => 0, 0, 0, false, []⟩

inductive I3cEvent where
  | read (off : ℕ) (width : Width)
  | write (w : RegWrite) (reply : I2cReply)
  | reset

def i3cStep : I3cEvent → I3cState
  | .read off width => (mcxnI3cRead s off width.bytes).2
  | .write w reply => mcxnI3cWrite s w.off w.width.bytes w.value reply
  | .reset => mcxnI3cReset s

end Mcxn947.I3c
