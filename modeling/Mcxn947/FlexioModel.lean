import Mcxn947.BusAccesses
import Mcxn947.EventRuns
import Mcxn947.LevelLines

/-!
# The FlexIO block

`hw/misc/mcxn_flexio.c`: a byte written to the buffer of a transmit shifter goes out on
an SPI bus, and the byte shifted in lands in the buffer of the first receive shifter.
-/

namespace Mcxn947.Flexio

open MachineWords LevelLines BusAccesses

def rVerid : ℕ := 0x000
def rParam : ℕ := 0x004
def rCtrl : ℕ := 0x008
def rPin : ℕ := 0x00C
def rShiftstat : ℕ := 0x010
def rShifterr : ℕ := 0x014
def rTimstat : ℕ := 0x018
def rShiftsien : ℕ := 0x020
def rTimien : ℕ := 0x028
def rTrgstat : ℕ := 0x048
def rPinstat : ℕ := 0x050
def rPinoutd : ℕ := 0x060
def rPinoutclr : ℕ := 0x06C
def rPinoutset : ℕ := 0x070
def rPinouttog : ℕ := 0x074
def rShiftctl : ℕ := 0x080
def rShiftbuf : ℕ := 0x200
def rShiftbufbis : ℕ := 0x280

def flexioSize : ℕ := 0x1000

def flexioVeridRst : Word := 0x02010003
def flexioParamRst : Word := 0x08200808

def ctrlFlexen : Word := 0x1
def ctrlSwrst : Word := 0x2

def nShifter : ℕ := 8
def smodMask : Word := 0x7
def smodRx : Word := 1
def smodTx : Word := 2

def spiCsPin : Word := 0x10

structure FlexioState where
  regs : RegFile
  (irq spiCs : Bool)
  mosi : List Byte

variable (s : FlexioState) (i : ℕ)

def FlexioState.reg (off : ℕ) : Word := s.regs.get off

def FlexioState.setReg (off : ℕ) (v : Word) : FlexioState := { s with regs := s.regs.set off v }

def flexioBitrev8 (b : Byte) : Byte :=
  let b := ((b &&& 0xF0) >>> 4) ||| ((b &&& 0x0F) <<< 4)
  let b := ((b &&& 0xCC) >>> 2) ||| ((b &&& 0x33) <<< 2)
  ((b &&& 0xAA) >>> 1) ||| ((b &&& 0x55) <<< 1)

def FlexioState.shifts : Bool := anyBit (s.reg rShiftstat) (s.reg rShiftsien)

def FlexioState.interrupts : Bool := s.shifts || anyBit (s.reg rTimstat) (s.reg rTimien)

def mcxnFlexioUpdateIrq : FlexioState := { s with irq := s.interrupts }

def mcxnFlexioUpdateCs : FlexioState := { s with spiCs := anyBit (s.reg rPinoutd) spiCsPin }

def FlexioState.smod : Word := s.reg (rShiftctl + i * 4) &&& smodMask

def flexioRxShifter : Option ℕ := (List.range nShifter).find? fun i => s.smod i = smodRx

def FlexioState.flag : FlexioState := s.setReg rShiftstat (s.reg rShiftstat ||| ((1 : Word) <<< i))

def flexioDeposit (rx : Byte) : FlexioState :=
  match flexioRxShifter s with
  | some i =>
    ((s.setReg (rShiftbuf + i * 4) ((flexioBitrev8 rx).setWidth 32)).setReg
      (rShiftbufbis + i * 4) (rx.setWidth 32)).flag i
  | none => s

def mcxnFlexioSpiTx (s : FlexioState) (txI : ℕ) (value : Word) (bis : Bool) (miso : Byte) :
    FlexioState :=
  if !anyBit (s.reg rCtrl) ctrlFlexen then s
  else if s.smod txI ≠ smodTx then s
  else
    let tx := value.setWidth 8
    let s := { s with mosi := s.mosi ++ [if bis then tx else flexioBitrev8 tx] }
    let s := flexioDeposit s (if bis then miso else flexioBitrev8 miso)
    mcxnFlexioUpdateIrq (s.flag txI)

def shifterAt (base off : ℕ) : Option ℕ :=
  if base ≤ off ∧ off < base + nShifter * 4 then some ((off - base) / 4) else none

def mcxnFlexioReset : FlexioState :=
  { s with regs := (RegFile.zero.set rVerid flexioVeridRst).set rParam flexioParamRst }

def shiftstatValue : Word :=
  (List.range nShifter).foldl
    (fun reg i => if s.smod i = smodTx then reg ||| ((1 : Word) <<< i) else reg)
    (s.reg rShiftstat)

def flexioConsume : FlexioState :=
  if s.smod i = smodRx then
    mcxnFlexioUpdateIrq (s.setReg rShiftstat (s.reg rShiftstat &&& ~~~((1 : Word) <<< i)))
  else s

def mcxnFlexioRead (s : FlexioState) (off size : ℕ) : Word × FlexioState :=
  if flexioSize ≤ off then (0, s)
  else
    let reg := if off / 4 = rShiftstat / 4 then shiftstatValue s else s.reg off
    let s :=
      match (shifterAt rShiftbuf off).or (shifterAt rShiftbufbis off) with
      | some i => flexioConsume s i
      | none => s
    (readBytes reg off size, s)

def readOnly : List ℕ := [rVerid, rParam, rPin]

def w1c : List ℕ := [rShiftstat, rShifterr, rTimstat, rTrgstat, rPinstat]

def mcxnFlexioWrite (s : FlexioState) (off size : ℕ) (value : Word) (miso : Byte) :
    FlexioState :=
  let cur := s.reg off
  let written := writtenBytes off size value
  let v := mergeBytes cur off size value
  if flexioSize ≤ off ∨ off / 4 * 4 ∈ readOnly then s
  else if off / 4 * 4 ∈ w1c then s.setReg off (cur &&& ~~~written)
  else if off / 4 = rCtrl / 4 then
    if anyBit v ctrlSwrst then mcxnFlexioReset s else s.setReg rCtrl v
  else if off / 4 = rPinoutset / 4 then
    mcxnFlexioUpdateCs (s.setReg rPinoutd (s.reg rPinoutd ||| written))
  else if off / 4 = rPinoutclr / 4 then
    mcxnFlexioUpdateCs (s.setReg rPinoutd (s.reg rPinoutd &&& ~~~written))
  else if off / 4 = rPinouttog / 4 then
    mcxnFlexioUpdateCs (s.setReg rPinoutd (s.reg rPinoutd ^^^ written))
  else
    let s := s.setReg off v
    if off / 4 = rPinoutd / 4 then mcxnFlexioUpdateCs s
    else
      match shifterAt rShiftbuf off, shifterAt rShiftbufbis off with
      | some i, _ => mcxnFlexioSpiTx s i v false miso
      | none, some i => mcxnFlexioSpiTx s i v true miso
      | none, none => s

def FlexioState.powerOn : FlexioState := mcxnFlexioReset ⟨.zero, false, false, []⟩

-- the machine's reset also clears the level the interrupt controller holds
def flexioMachineReset : FlexioState := { mcxnFlexioReset s with irq := false }

inductive FlexioEvent where
  | read (off : ℕ) (width : Width)
  | write (w : RegWrite) (miso : Byte)
  | reset

def flexioStep : FlexioEvent → FlexioState
  | .read off width => (mcxnFlexioRead s off width.bytes).2
  | .write w miso => mcxnFlexioWrite s w.off w.width.bytes w.value miso
  | .reset => flexioMachineReset s

end Mcxn947.Flexio
