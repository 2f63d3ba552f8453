import Mcxn947.SpiNor

/-!
# The FlexSPI controller

`hw/misc/mcxn_flexspi.c`: IP commands run a LUT sequence against a serial NOR,
and a window for execution in place shows a mirror of the NOR that the controller
re-reads after each command that can have changed it.
-/

namespace Mcxn947.Flexspi

open MachineWords GuestMemory SpiNor

abbrev RegIdx := Fin 0x400

structure FlexspiState where
  regs : RegIdx → Word
  loaderFlushed : Bool
  rxBuf : Mem
  (rxLen rxPos : Word)
  txLen : ℕ
  pgmPending : Bool
  pgmAddr : Word
  pgmLen : ℕ
  (rxDmaLvl txDmaLvl irq dmaReqRx dmaReqTx : Bool)

structure Board where
  st : FlexspiState
  mirror : Mem
  nor : Nor

def w25q64 : Part where
  size := 0x800000
  eraseStart addr _ := addr
  pages := by decide
  size_pos := by decide
  addressable := by decide

def rMcr0 : RegIdx := 0x000
def rInten : RegIdx := 0x004
def rIntr : RegIdx := 0x005
def rIpcr0 : RegIdx := 0x028
def rIpcr1 : RegIdx := 0x029
def rIprxfcr : RegIdx := 0x02E
def rIptxfcr : RegIdx := 0x02F
def rSts2 : RegIdx := 0x03A

def mcr0Swreset : Word := 0x00000001
def mcr0Mdis : Word := 0x00000002
def intrIpcmddone : Word := 0x00000001
def intrIpcmderr : Word := 0x00000008
def intrIprxwa : Word := 0x00000020
def intrIptxwe : Word := 0x00000040
def ipcmdTrg : Word := 0x00000001
def sts0Arbidle : Word := 0x00000002
def sts0Seqidle : Word := 0x00000001
def fcrClrf : Word := 0x00000001
def fcrDmaen : Word := 0x00000002

def norWren : Byte := 0x06
def norRead03 : Byte := 0x03
def norPp : Byte := 0x02

def mcxnNorPage : ℕ := 256
def mcxnFlexspiXferMax : ℕ := 4096

variable (v : Word) (part : Part) (addr : Word) (x : Board) (s : FlexspiState)

def fcrWmrk : Word := (v >>> 2) &&& 0x7F

def ipcr1Idatsz : ℕ := (v &&& 0xFFFF).toNat

def ipcr1Iseqid : Fin 16 := ⟨v.toNat / 2 ^ 16 % 16, Nat.mod_lt _ (by decide)⟩

def FlexspiState.setReg (r : RegIdx) (v : Word) : FlexspiState :=
  { s with regs := Function.update s.regs r v }

def norOff : Word := addr &&& BitVec.ofNat 32 (part.size - 1)

def mcxnFlexspiUpdateIrq : FlexspiState := { s with irq := anyBit (s.regs rIntr) (s.regs rInten) }

def flexspiDone : FlexspiState :=
  mcxnFlexspiUpdateIrq (s.setReg rIntr (s.regs rIntr ||| intrIpcmddone))

def flexspiError : FlexspiState :=
  mcxnFlexspiUpdateIrq (s.setReg rIntr (s.regs rIntr ||| (intrIpcmderr ||| intrIpcmddone)))

def flexspiUpdateDmaReq (s : FlexspiState) : FlexspiState :=
  let rx := decide (s.rxPos < s.rxLen) && anyBit (s.regs rIprxfcr) fcrDmaen
  let tx := anyBit (s.regs rIntr) intrIptxwe && anyBit (s.regs rIptxfcr) fcrDmaen
  let s := if rx ≠ s.rxDmaLvl then { s with rxDmaLvl := rx, dmaReqRx := rx } else s
  if tx ≠ s.txDmaLvl then { s with txDmaLvl := tx, dmaReqTx := tx } else s

def spiSendAddr (bits : ℕ) : List Byte :=
  (List.range (bits / 8)).reverse.map fun i => (addr >>> (i * 8)).setWidth 8

def norRead (nor : Nor) (off : Word) (len : ℕ) : List Byte × Nor :=
  let nor := (nor.select true).send part (norRead03 :: spiSendAddr off 24)
  let (bytes, nor) := Nor.receive part len nor
  (bytes, nor.select false)

def mirrorResync (off : Word) (len : ℕ) : Board :=
  if part.size ≤ off.toNat then x
  else
    let (bytes, nor) := norRead part x.nor off (min len (part.size - off.toNat))
    { x with mirror := store x.mirror off.toNat bytes, nor := nor }

def norProgramPage (nor : Nor) (off : Word) (data : List Byte) : Nor :=
  let nor := ((nor.select true).send part [norWren]).select false
  let nor := (nor.select true).send part (norPp :: spiSendAddr off 24)
  (nor.send part data).select false

def flushPage (mirror : Mem) (nor : Nor) (page : ℕ) : Nor :=
  let data := load mirror (page * mcxnNorPage) mcxnNorPage
  if data.all (· == 0xFF) then nor
  else norProgramPage part nor (BitVec.ofNat 32 (page * mcxnNorPage)) data

def flexspiFlushLoaderImage : Board :=
  { x with
    st := { x.st with loaderFlushed := true },
    nor := (List.range (part.size / mcxnNorPage)).foldl (flushPage part x.mirror) x.nor }

structure FlexSPISeq where
  valid : Bool := false
  cmd : Byte := 0
  addrBits : ℕ := 0
  dummyCycles : ℕ := 0
  hasRead : Bool := false
  hasWrite : Bool := false

structure LutInstr where
  op : BitVec 6
  operand : Byte

def lutInstr0 (lut : Word) : LutInstr := ⟨lut.extractLsb' 10 6 &&& ~~~0x20, lut.extractLsb' 0 8⟩

def lutInstr1 (lut : Word) : LutInstr := ⟨lut.extractLsb' 26 6 &&& ~~~0x20, lut.extractLsb' 16 8⟩

def seqAdd (q : FlexSPISeq) (i : LutInstr) : FlexSPISeq :=
  match i.op with
  | 0x01#6 => { q with cmd := i.operand, valid := true }
  | 0x02#6 => { q with addrBits := i.operand.toNat }
  | 0x0C#6 => { q with dummyCycles := i.operand.toNat }
  | 0x09#6 => { q with hasRead := true }
  | 0x08#6 => { q with hasWrite := true }
  | _ => q

def decodeInstrs (q : FlexSPISeq) : List LutInstr → FlexSPISeq
  | [] => q
  | i :: rest => if i.op = 0 then q else decodeInstrs (seqAdd q i) rest

def lutReg (seq : Fin 16) (i : Fin 4) : RegIdx := ⟨0x80 + seq.val * 4 + i.val, by omega⟩

def flexspiDecodeLut (seq : Fin 16) : FlexSPISeq :=
  decodeInstrs {} ((List.finRange 4).flatMap fun i =>
    [lutInstr0 (s.regs (lutReg seq i)), lutInstr1 (s.regs (lutReg seq i))])

def flexspiDirtyRange (cmd : Byte) (addr : Word) (size : ℕ) : Option (Word × ℕ) :=
  match cmd with
  | 0x02#8 | 0x32#8 => some (addr &&& ~~~0xFF, 256)
  | 0x20#8 => some (addr &&& ~~~0xFFF, 0x1000)
  | 0x52#8 => some (addr &&& ~~~0x7FFF, 0x8000)
  | 0xD8#8 => some (addr &&& ~~~0xFFFF, 0x10000)
  | 0xC7#8 | 0x60#8 => some (0, size)
  | _ => none

def flexspiFinish (x : Board) (cmd : Byte) (addr : Word) : Board :=
  let x := { x with nor := x.nor.select false }
  let x :=
    match flexspiDirtyRange cmd addr part.size with
    | some (off, len) => mirrorResync part x off len
    | none => x
  let st := { x.st with pgmPending := false }
  { x with st := flexspiDone (st.setReg rIntr (st.regs rIntr &&& ~~~intrIptxwe)) }

def commandBytes (q : FlexSPISeq) (addr : Word) : List Byte :=
  (q.cmd :: spiSendAddr addr q.addrBits) ++ List.replicate (q.dummyCycles / 8) 0

def runSequence (x : Board) (q : FlexSPISeq) (addr : Word) (datsz : ℕ) : Board :=
  let x := if x.st.loaderFlushed then x else flexspiFlushLoaderImage part x
  let nor := (x.nor.select true).send part (commandBytes q addr)
  if q.hasRead then
    let (bytes, nor) := Nor.receive part datsz nor
    let st := { x.st with rxBuf := store x.st.rxBuf 0 bytes, rxLen := BitVec.ofNat 32 datsz }
    let st := if datsz ≠ 0 then st.setReg rIntr (st.regs rIntr ||| intrIprxwa) else st
    let x := flexspiFinish part { x with st := st, nor := nor } q.cmd addr
    { x with st := flexspiUpdateDmaReq x.st }
  else if q.hasWrite ∧ datsz ≠ 0 then
    let st := { x.st with pgmPending := true, pgmAddr := addr, pgmLen := datsz }
    let st := mcxnFlexspiUpdateIrq (st.setReg rIntr (st.regs rIntr ||| intrIptxwe))
    { x with st := flexspiUpdateDmaReq st, nor := nor }
  else flexspiFinish part { x with nor := nor } q.cmd addr

def flexspiIpCommand : Board :=
  let ipcr1 := x.st.regs rIpcr1
  let datsz := ipcr1Idatsz ipcr1
  let addr := norOff part (x.st.regs rIpcr0)
  let q := flexspiDecodeLut x.st (ipcr1Iseqid ipcr1)
  let st := { x.st with rxLen := 0, rxPos := 0, txLen := 0 }
  let st := st.setReg rIntr (st.regs rIntr &&& ~~~(intrIprxwa ||| intrIptxwe))
  if !q.valid then { x with st := flexspiError st }
  else if mcxnFlexspiXferMax < datsz then { x with st := flexspiError st }
  else runSequence part { x with st := st } q addr datsz

def feedProgram (x : Board) (val : Word) : Board :=
  let bytes := (wordBytes val).take (x.st.pgmLen - x.st.txLen)
  let st := { x.st with txLen := x.st.txLen + bytes.length }
  let x : Board := { x with st := st, nor := x.nor.send part bytes }
  let x : Board :=
    if x.st.pgmLen ≤ x.st.txLen then
      let x := flexspiFinish part x norPp x.st.pgmAddr
      { x with st :=
          mcxnFlexspiUpdateIrq (x.st.setReg rIntr (x.st.regs rIntr &&& ~~~intrIptxwe)) }
    else x
  { x with st := flexspiUpdateDmaReq x.st }

def rfdrWord (i : ℕ) : Word :=
  let byte := s.rxPos + BitVec.ofNat 32 (i * 4)
  let cell (k : ℕ) : Byte :=
    if byte.toNat + k < s.rxLen.toNat then s.rxBuf (byte.toNat + k) else 0xFF
  cell 3 ++ cell 2 ++ cell 1 ++ cell 0

def rfdrPop (s : FlexspiState) : FlexspiState :=
  let s := { s with rxPos := s.rxPos + 4 }
  let s :=
    if s.rxLen ≤ s.rxPos then
      mcxnFlexspiUpdateIrq (s.setReg rIntr (s.regs rIntr &&& ~~~intrIprxwa))
    else s
  flexspiUpdateDmaReq s

def mcxnFlexspiRead (off : ℕ) : Word × FlexspiState :=
  let v : Word := if h : off < 0x1000 then s.regs ⟨off / 4, div_four_lt h⟩ else 0
  if off = 0x00 then (v &&& ~~~mcr0Swreset, s)
  else if off = 0xE0 then
    (sts0Arbidle ||| (if anyBit (s.regs rMcr0) mcr0Mdis then 0 else sts0Seqidle), s)
  else if off = 0xE8 then (s.regs rSts2, s)
  else if off = 0xE4 ∨ off = 0xEC ∨ off = 0xF4 then (0, s)
  else if off = 0xF0 then (((s.rxLen - s.rxPos + 7) / 8) &&& 0xFF, s)
  else if 0x100 ≤ off ∧ off < 0x180 then
    let i := (off - 0x100) / 4
    (rfdrWord s i,
      if i = 0 ∧ anyBit (s.regs rIprxfcr) fcrDmaen ∧ s.rxPos < s.rxLen then rfdrPop s else s)
  else (v, s)

def popWatermark (val : Word) : FlexspiState :=
  let pop := (fcrWmrk (s.regs rIprxfcr) + 1) * 8
  let pos := if s.rxPos + pop < s.rxLen then s.rxPos + pop else s.rxLen
  if anyBit val intrIprxwa then { s with rxPos := pos } else s

def writeIntr (s : FlexspiState) (val : Word) : FlexspiState :=
  let s := popWatermark s val
  let s := s.setReg rIntr (s.regs rIntr &&& ~~~val)
  let s := if s.rxPos < s.rxLen then s.setReg rIntr (s.regs rIntr ||| intrIprxwa) else s
  let s :=
    if s.pgmPending ∧ s.txLen < s.pgmLen then s.setReg rIntr (s.regs rIntr ||| intrIptxwe)
    else s
  flexspiUpdateDmaReq (mcxnFlexspiUpdateIrq s)

def writeIprxfcr (s : FlexspiState) (val : Word) : FlexspiState :=
  let s := s.setReg rIprxfcr (val &&& ~~~fcrClrf)
  flexspiUpdateDmaReq
    (if anyBit val fcrClrf then
      { s with rxLen := 0, rxPos := 0 }.setReg rIntr (s.regs rIntr &&& ~~~intrIprxwa)
    else s)

def writeIptxfcr (s : FlexspiState) (val : Word) : FlexspiState :=
  let s := s.setReg rIptxfcr (val &&& ~~~fcrClrf)
  flexspiUpdateDmaReq
    (if anyBit val fcrClrf ∧ s.pgmPending = false then { s with txLen := 0 } else s)

def writeQuiet (off : Fin 0x1000) (val : Word) : FlexspiState :=
  if off = 0xE0 ∨ off = 0xE4 ∨ off = 0xE8 ∨ off = 0xEC ∨ off = 0xF0 ∨ off = 0xF4 then s
  else if off = 0x00 then s.setReg rMcr0 (val &&& ~~~mcr0Swreset)
  else if off = 0x14 then writeIntr s val
  else if off = 0x10 then mcxnFlexspiUpdateIrq (s.setReg rInten val)
  else if off = 0xB8 then writeIprxfcr s val
  else if off = 0xBC then writeIptxfcr s val
  else if 0x100 ≤ off.val ∧ off.val < 0x180 then s
  else s.setReg ⟨off.val / 4, by omega⟩ val

def mcxnFlexspiWrite (off : ℕ) (val : Word) : Board :=
  if h : off < 0x1000 then
    if off = 0xB0 then if anyBit val ipcmdTrg then flexspiIpCommand part x else x
    else if 0x180 ≤ off ∧ off < 0x200 then
      if x.st.pgmPending then feedProgram part x val else x
    else { x with st := writeQuiet x.st ⟨off, h⟩ val }
  else x

def mcxnFlexspiNorWrite (_off : ℕ) (_val : Word) : Board := x

inductive Event
  | read (off : ℕ)
  | write (off : ℕ) (val : Word)
  | windowStore (off : ℕ) (val : Word)

def step : Event → Board
  | .read off => { x with st := (mcxnFlexspiRead x.st off).2 }
  | .write off val => mcxnFlexspiWrite part x off val
  | .windowStore off val => mcxnFlexspiNorWrite x off val

end Mcxn947.Flexspi
