import Mcxn947.BusAccesses
import Mcxn947.LevelLines

/-!
# The SINC filter

`hw/misc/mcxn_sinc.c`: five sigma-delta channels.
-/

namespace Mcxn947.Sinc

open MachineWords LevelLines BusAccesses Function

def sincVerid : ℕ := 0x00
def sincParameter : ℕ := 0x04
def sincMcr : ℕ := 0x08
def sincNie : ℕ := 0x0C
def sincEie : ℕ := 0x10
def sincFifoie : ℕ := 0x14
def sincNis : ℕ := 0x18
def sincEis : ℕ := 0x1C
def sincFifois : ℕ := 0x20
def sincSr : ℕ := 0x24

def numCh : ℕ := 5

def fifoDepth : ℕ := 8

def chBase : ℕ := 0x38
def chStep : ℕ := 0x30
def chLast : ℕ := chBase + numCh * chStep

def chCcr : ℕ := 0x00
def chCdr : ℕ := 0x04
def chCcfr : ℕ := 0x08
def chCbias : ℕ := 0x10
def chCrdata : ℕ := 0x1C
def chCmpdata : ℕ := 0x20
def chCsr : ℕ := 0x28
def chCdbgr : ℕ := 0x2C

def mcrStrig (n : ℕ) : Word := BitVec.twoPow 32 n
def mcrStrigAll : Word := 0x1F
def mcrRst : Word := BitVec.twoPow 32 13
def mcrMen : Word := BitVec.twoPow 32 15

def nisCoc (n : ℕ) : Word := BitVec.twoPow 32 n
def nisChf (n : ℕ) : Word := BitVec.twoPow 32 (8 + n)

def ccrChen : Word := BitVec.twoPow 32 0
def ccrPfen : Word := BitVec.twoPow 32 1
def ccrDmaen : Word := BitVec.twoPow 32 3
def ccrFifoen : Word := BitVec.twoPow 32 14

def cdrPfosr (v : Word) : ℕ := (v &&& 0x7FF).toNat
def cdrPford (v : Word) : ℕ := ((v >>> 11) &&& 0x3).toNat
def cdrPfcm (v : Word) : Word := (v >>> 14) &&& 0x3
def pfcmSingle : Word := 0
def pfcmAlways : Word := 2
def pfcmFixednum : Word := 3

def ccfrPfsft (v : Word) : ℕ := (v &&& 0x1F).toNat
def ccfrRdfmt : Word := BitVec.twoPow 32 6
def ccfrFifowmk (v : Word) : ℕ := ((v >>> 10) &&& 0x7).toNat
def ccfrIbfmt (v : Word) : Word := (v >>> 16) &&& 0x3
def ibfmtPm : Word := 2
def ibfmtSm : Word := 3

def fifoOverflow (n : ℕ) : Word := BitVec.twoPow 32 (8 + n)

def csrPfsat : Word := BitVec.twoPow 32 8

structure SincChannel where
  (integ comb : ℕ → DoubleWord)
  (fsDelay0 fsDelay1 : DoubleWord)
  phase : ℕ
  running : Bool
  fifo : List Word
  last : Word
  haveLast : Bool

structure SincState where
  regs : ℕ → Word
  ch : ℕ → SincChannel
  irq : Bool
  dmaReq : Lines ℕ

variable (s : SincState) (n : ℕ)

def SincState.reg (off : ℕ) : Word := s.regs (off / 4)

def SincState.setReg (off : ℕ) (v : Word) : SincState :=
  { s with regs := update s.regs (off / 4) v }

def SincState.setCh (c : SincChannel) : SincState := { s with ch := update s.ch n c }

def chOff (n rel : ℕ) : ℕ := chBase + n * chStep + rel

def sincChReg (n rel : ℕ) : Word := s.reg (chOff n rel)

def sincSetChReg (n rel : ℕ) (v : Word) : SincState := s.setReg (chOff n rel) v

def SincState.interrupts : Bool :=
  anyBit (s.reg sincNis) (s.reg sincNie) || anyBit (s.reg sincEis) (s.reg sincEie) ||
    anyBit (s.reg sincFifois) (s.reg sincFifoie)

def sincUpdateIrq : SincState := { s with irq := s.interrupts }

def SincState.asks : Bool :=
  anyBit (sincChReg s n chCcr) ccrFifoen && anyBit (sincChReg s n chCcr) ccrDmaen &&
    decide (ccfrFifowmk (sincChReg s n chCcfr) < (s.ch n).fifo.length)

def sincUpdateDmaReq : SincState := { s with dmaReq := s.dmaReq.publish n (s.asks n) }

def sincResetChannelFilter (c : SincChannel) : SincChannel :=
  { c with
    integ := fun _ => 0, comb := fun _ => 0, fsDelay0 := 0, fsDelay1 := 0, phase := 0, fifo := []
    last := 0, haveLast := false }

def sincSaturate (isUnsigned : Bool) (v : ℤ) : ℤ × Bool :=
  let lo : ℤ := if isUnsigned then 0 else -0x800000
  let hi : ℤ := if isUnsigned then 0xFFFFFF else 0x7FFFFF
  if v < lo then (lo, true) else if hi < v then (hi, true) else (v, false)

def sincStoreResult (res : Word) : SincState :=
  let c := s.ch n
  if anyBit (sincChReg s n chCcr) ccrFifoen then
    if c.fifo.length < fifoDepth then s.setCh n { c with fifo := c.fifo ++ [res] }
    else s.setReg sincFifois (s.reg sincFifois ||| fifoOverflow n)
  else s.setCh n { c with last := res, haveLast := true }

def sincPushResult (s : SincState) (n : ℕ) (v : DoubleWord) : SincState :=
  let ccr := sincChReg s n chCcr
  let ccfr := sincChReg s n chCcfr
  let csr := sincChReg s n chCsr
  let pfcm := cdrPfcm (sincChReg s n chCdr)
  let (v, saturated) := sincSaturate (anyBit ccfr ccfrRdfmt) v.toInt
  let s := sincStoreResult s n (BitVec.ofInt 32 v)
  let s := sincSetChReg s n chCsr (if saturated then csr ||| csrPfsat else csr)
  let s := s.setReg sincNis (s.reg sincNis ||| nisCoc n)
  let full := anyBit ccr ccrFifoen && decide (ccfrFifowmk ccfr < (s.ch n).fifo.length)
  let s := if full then s.setReg sincNis (s.reg sincNis ||| nisChf n) else s
  let s :=
    if (full ∧ pfcm = pfcmFixednum) ∨ pfcm = pfcmSingle then
      s.setCh n { s.ch n with running := false }
    else s
  sincUpdateDmaReq (sincUpdateIrq s) n

def sincIntegrate (integ : ℕ → DoubleWord) (ord : ℕ) (x : DoubleWord) : ℕ → DoubleWord :=
  ((List.range ord).foldl
    (fun (acc : (ℕ → DoubleWord) × DoubleWord) k =>
      let y := acc.1 k + acc.2
      (update acc.1 k y, y)) (integ, x)).1

def sincDifferentiate (comb : ℕ → DoubleWord) (ord : ℕ) (x : DoubleWord) :
    (ℕ → DoubleWord) × DoubleWord :=
  (List.range ord).foldl
    (fun (acc : (ℕ → DoubleWord) × DoubleWord) k =>
      (update acc.1 k acc.2, acc.2 - acc.1 k)) (comb, x)

def sincFeedBit (bit : Bool) : SincState :=
  let c := s.ch n
  let cdr := sincChReg s n chCdr
  let ccfr := sincChReg s n chCcfr
  let osr := cdrPfosr cdr + 1
  let pford := cdrPford cdr
  let fastsinc := pford = 0
  let ord := if fastsinc then 2 else pford
  let x : DoubleWord := if bit then 1 else if anyBit ccfr ccfrRdfmt then 0 else -1
  let integ := sincIntegrate c.integ ord x
  if c.phase + 1 < osr then s.setCh n { c with integ := integ, phase := c.phase + 1 }
  else
    let (comb, v) := sincDifferentiate c.comb ord (integ (ord - 1))
    let c := { c with integ := integ, comb := comb, phase := 0 }
    let (c, v) :=
      if fastsinc then ({ c with fsDelay1 := c.fsDelay0, fsDelay0 := v }, v + c.fsDelay1)
      else (c, v)
    let v := v.sshiftRight (ccfrPfsft ccfr) + (sincChReg s n chCbias).signExtend 64
    sincPushResult (s.setCh n c) n v

def sincFeedMpdata (s : SincState) (n : ℕ) (value : Word) : SincState :=
  let ccr := sincChReg s n chCcr
  let ibfmt := ccfrIbfmt (sincChReg s n chCcfr)
  if !anyBit (s.reg sincMcr) mcrMen || !anyBit ccr ccrChen || !anyBit ccr ccrPfen then s
  else if !(s.ch n).running then s
  else
    let nbits := if ibfmt = ibfmtPm then 16 else if ibfmt = ibfmtSm then 32 else 0
    (List.range nbits).reverse.foldl (fun s i => sincFeedBit s n (value.getLsbD i)) s

def chOf (offset : ℕ) : ℕ := (offset - chBase) / chStep
def relOf (offset : ℕ) : ℕ := (offset - chBase) % chStep

def sincTrigger : SincState :=
  let c := s.ch n
  if cdrPfcm (sincChReg s n chCdr) = pfcmAlways ∧ c.running then s
  else s.setCh n { sincResetChannelFilter c with running := true }

def sincResetChannels (s : SincState) : SincState :=
  (List.range numCh).foldl
    (fun s n => s.setCh n { sincResetChannelFilter (s.ch n) with running := false }) s

def sincWriteMcr (s : SincState) (v : Word) : SincState :=
  let s := if anyBit v mcrRst then sincResetChannels s else s
  let v := if anyBit v mcrRst then v &&& ~~~mcrRst else v
  let s := (List.range numCh).foldl
    (fun s n => if anyBit v (mcrStrig n) then sincTrigger s n else s) s
  s.setReg sincMcr (v &&& ~~~mcrStrigAll)

def sincWriteCcr (s : SincState) (offset : ℕ) (v : Word) : SincState :=
  let n := chOf offset
  let old := sincChReg s n chCcr
  let s := s.setReg offset v
  let s :=
    if anyBit old ccrChen && !anyBit v ccrChen then
      s.setCh n { sincResetChannelFilter (s.ch n) with running := false }
    else s
  sincUpdateDmaReq s n

def sincMerge (offset size : ℕ) (v : Word) : SincState :=
  s.setReg offset (mergeBytes (s.reg offset) offset size v)

def sincWriteChannel (offset size : ℕ) (v : Word) : SincState :=
  if relOf offset = chCrdata ∨ relOf offset = chCdbgr then s
  else if relOf offset = chCmpdata then sincFeedMpdata (s.setReg offset v) (chOf offset) v
  else if relOf offset = chCcr then sincWriteCcr s offset v
  else if relOf offset = chCcfr then sincUpdateDmaReq (s.setReg offset v) (chOf offset)
  else sincMerge s offset size v

def mcxnSincWrite (offset size : ℕ) (v : Word) : SincState :=
  if offset = sincVerid ∨ offset = sincParameter ∨ offset = sincSr then s
  else if offset = sincMcr then sincWriteMcr s v
  else if offset = sincNie ∨ offset = sincEie ∨ offset = sincFifoie then
    sincUpdateIrq (s.setReg offset v)
  else if offset = sincNis ∨ offset = sincEis ∨ offset = sincFifois then
    sincUpdateIrq (s.setReg offset (s.reg offset &&& ~~~v))
  else if chBase ≤ offset ∧ offset < chLast then sincWriteChannel s offset size v
  else sincMerge s offset size v

def SincChannel.idle : SincChannel where
  integ := fun _ => 0
  comb := fun _ => 0
  fsDelay0 := 0
  fsDelay1 := 0
  phase := 0
  running := false
  fifo := []
  last := 0
  haveLast := false

def mcxnSincReset : SincState where
  regs := fun _ => 0
  ch := fun _ => .idle
  irq := false
  dmaReq := .low

end Mcxn947.Sinc
