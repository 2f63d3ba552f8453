import Mcxn947.MachineWords
import Mcxn947.CountedLoops

/-!
# The eDMA engine

`hw/dma/mcxn_edma.c`: sixteen channels with a transfer control descriptor
(TCD) each, serviced by a software `START`, by a hardware request or by a
link from another channel.
-/

namespace Mcxn947.Edma

open MachineWords CountedLoops

abbrev ChanIdx := Fin 16

abbrev ReqSrc := Fin 128

def maxXfer : ℕ := 64

def maxLoops : ℕ := 0x100000

def chSbrMidMask : Word := 0x1F
def edmaMidDma0 : Word := 6
def edmaMidDma1 : Word := 7

def chEsSge : Word := 1 <<< 2
def chEsNce : Word := 1 <<< 3
def chEsDoe : Word := 1 <<< 4
def chEsDae : Word := 1 <<< 5
def chEsSoe : Word := 1 <<< 6
def chEsSae : Word := 1 <<< 7
def chEsErr : Word := 1 <<< 31

def chCsrErq : Word := 1 <<< 0
def chCsrEei : Word := 1 <<< 2
def chCsrDone : Word := 1 <<< 30
def chIntInt : Word := 1 <<< 0
def chMuxSrcMask : Word := 0x7F

def tcdCsrStart : HalfWord := 1 <<< 0
def tcdCsrIntmajor : HalfWord := 1 <<< 1
def tcdCsrDreq : HalfWord := 1 <<< 3
def tcdCsrEsg : HalfWord := 1 <<< 4
def tcdCsrMajorelink : HalfWord := 1 <<< 5
def tcdCsrMajorlinkch (v : HalfWord) : ℕ := ((v >>> 8) &&& 0xF).toNat

variable (a : HalfWord)

def attrSmod : ℕ := ((a >>> 11) &&& 0x1F).toNat
def attrDmod : ℕ := ((a >>> 3) &&& 0x1F).toNat
def attrSsize : ℕ := ((a >>> 8) &&& 0x7).toNat
def attrDsize : ℕ := (a &&& 0x7).toNat

def citerElink : HalfWord := 1 <<< 15
def citerElinkMask : HalfWord := 0x1FF
def citerLinkch (v : HalfWord) : ℕ := ((v >>> 9) &&& 0xF).toNat
def nbytesMask : Word := 0x3FFFFFFF
def citerMask : HalfWord := 0x7FFF

structure Chan where
  (csr es intr sbr pri mux tcdSaddr tcdSlast tcdDaddr tcdDlast tcdNbytes : Word)
  (tcdSoff tcdAttr tcdDoff tcdCiter tcdCsr tcdBiter : HalfWord)
deriving DecidableEq

structure EdmaState where
  (mpCsr mpEs : Word)
  chGrpri : ChanIdx → Word
  ch : ChanIdx → Chan
  (reqLevel reqEdge reqEnabled : ReqSrc → Bool)
  dmaId : Byte
  irq : ChanIdx → Bool
  (bhScheduled inLink : Bool)
deriving DecidableEq

inductive BusMark where
  | read (addr : Word) (data : List Byte)
  | write (addr : Word) (data : List Byte)
  | minor (n : ChanIdx)
  | request (n : ChanIdx) (src : ReqSrc)
deriving DecidableEq

structure Engine (μ : Type) where
  st : EdmaState
  mem : μ
  trace : List BusMark

/-- The system address space as the engine uses it: a read returns the bytes
and whether the transaction succeeded; either access may change the engine,
because the device it hits may drive the engine's inputs. -/
structure Bus (μ : Type) where
  read : Engine μ → Word → (size : ℕ) → Engine μ × Vector Byte size × Bool
  write : Engine μ → Word → List Byte → Engine μ

def EdmaState.modifyCh (s : EdmaState) (n : ChanIdx) (f : Chan → Chan) : EdmaState :=
  { s with ch := Function.update s.ch n (f (s.ch n)) }

variable {μ : Type}

def Engine.modifyCh (x : Engine μ) (n : ChanIdx) (f : Chan → Chan) : Engine μ :=
  { x with st := x.st.modifyCh n f }

variable (s : EdmaState) (link : Engine μ → ℕ → Engine μ) (bus : Bus μ) (c : Chan) (k : ℕ)
  (tcd : Vector Byte 32) (x : Engine μ) (addr : Word) (n : ChanIdx)

def Engine.setInLink (on : Bool) : Engine μ := { x with st := { x.st with inLink := on } }

def Engine.mark (m : BusMark) : Engine μ := { x with trace := x.trace ++ [m] }

def addressSpaceRead (size : ℕ) : Engine μ × Vector Byte size × Bool :=
  let reply := bus.read x addr size
  (reply.1.mark (.read addr reply.2.1.toList), reply.2)

def addressSpaceWrite (data : List Byte) : Engine μ :=
  bus.write (x.mark (.write addr data)) addr data

def edmaAdvance (off : HalfWord) (mod : ℕ) : Word :=
  if mod = 0 then addr + off.signExtend 32
  else
    let mask : Word := (1 <<< mod) - 1
    (addr &&& ~~~mask) ||| ((addr + off.signExtend 32) &&& mask)

def ldlLeP (i : ℕ) : Word :=
  tcd.getD (i + 3) 0 ++ tcd.getD (i + 2) 0 ++ tcd.getD (i + 1) 0 ++ tcd.getD i 0

def lduwLeP (i : ℕ) : HalfWord := tcd.getD (i + 1) 0 ++ tcd.getD i 0

def Chan.withTcd : Chan :=
  { c with
    tcdSaddr := ldlLeP tcd 0x00, tcdSoff := lduwLeP tcd 0x04, tcdAttr := lduwLeP tcd 0x06
    tcdNbytes := ldlLeP tcd 0x08, tcdSlast := ldlLeP tcd 0x0C, tcdDaddr := ldlLeP tcd 0x10
    tcdDoff := lduwLeP tcd 0x14, tcdCiter := lduwLeP tcd 0x16, tcdDlast := ldlLeP tcd 0x18
    tcdCsr := lduwLeP tcd 0x1C, tcdBiter := lduwLeP tcd 0x1E }

def edmaLoadNextTcd : Engine μ × Bool :=
  let sga := (x.st.ch n).tcdDlast
  if sga = 0 ∨ anyBit sga 0x1F then
    (x.modifyCh n fun c => { c with es := c.es ||| (chEsSge ||| chEsErr) }, false)
  else
    let reply := addressSpaceRead bus x sga 32
    if reply.2.2 then
      (reply.1.modifyCh n fun c => c.withTcd reply.2.1, true)
    else
      (reply.1.modifyCh n fun c =>
        { c with es := c.es ||| (chEsSge ||| chEsErr) }, false)

def edmaUpdateIrq : EdmaState :=
  { s with irq := Function.update s.irq n (anyBit (s.ch n).intr chIntInt) }

def Chan.ssize : ℕ := 2 ^ attrSsize c.tcdAttr
def Chan.dsize : ℕ := 2 ^ attrDsize c.tcdAttr
def Chan.nbytes : ℕ := (c.tcdNbytes &&& nbytesMask).toNat
def Chan.elink : Bool := anyBit c.tcdCiter citerElink

def Chan.cmask : HalfWord := if c.elink then citerElinkMask else citerMask

def Chan.citer : HalfWord := c.tcdCiter &&& c.cmask

def Chan.tcdErr : Word :=
  (if c.tcdSaddr.toNat % c.ssize ≠ 0 then chEsSae else 0) |||
  (if c.tcdSoff.toInt.tmod c.ssize ≠ 0 then chEsSoe else 0) |||
  (if c.tcdDaddr.toNat % c.dsize ≠ 0 then chEsDae else 0) |||
  (if c.tcdDoff.toInt.tmod c.dsize ≠ 0 then chEsDoe else 0) |||
  (if c.nbytes % c.ssize ≠ 0 ∨ c.nbytes % c.dsize ≠ 0
    then chEsNce else 0) |||
  (if maxXfer < c.ssize ∨ maxXfer < c.dsize then chEsNce else 0)

def Chan.clearDone : Chan := { c with csr := c.csr &&& ~~~chCsrDone }

def Chan.clearStart : Chan := { c with tcdCsr := c.tcdCsr &&& ~~~tcdCsrStart }

def edmaRefuse (s : EdmaState) (n : ChanIdx) (err : Word) : EdmaState :=
  let s := s.modifyCh n fun c => { c with es := c.es ||| (err ||| chEsErr) }
  if anyBit (s.ch n).csr chCsrEei then
    edmaUpdateIrq (s.modifyCh n fun c => { c with intr := c.intr ||| chIntInt }) n
  else s

structure Xfer (μ : Type) where
  x : Engine μ
  (saddr daddr : Word)
  buf : ℕ → Byte

def fillBuf (buf : ℕ → Byte) (k : ℕ) (data : List Byte) : ℕ → Byte :=
  fun i => if k ≤ i ∧ i < k + data.length then data.getD (i - k) 0 else buf i

def sliceBuf (buf : ℕ → Byte) (k size : ℕ) : List Byte := (List.range size).map fun i => buf (k + i)

def readChunk (t : Xfer μ) : Xfer μ :=
  let reply := addressSpaceRead bus t.x t.saddr c.ssize
  { t with
    x := reply.1, buf := fillBuf t.buf k reply.2.1.toList
    saddr := edmaAdvance t.saddr c.tcdSoff (attrSmod c.tcdAttr) }

def writeChunk (t : Xfer μ) : Xfer μ :=
  { t with
    x := addressSpaceWrite bus t.x t.daddr (sliceBuf t.buf k c.dsize)
    daddr := edmaAdvance t.daddr c.tcdDoff (attrDmod c.tcdAttr) }

def Chan.chunk : ℕ := if c.dsize < c.ssize then c.ssize else c.dsize

def edmaMove : Xfer μ :=
  forLoop c.chunk c.nbytes
    (fun _ t =>
      forLoop c.dsize c.chunk (writeChunk bus c) (forLoop c.ssize c.chunk (readChunk bus c) t))
    { x := x, saddr := c.tcdSaddr, daddr := c.tcdDaddr, buf := fun _ => 0 }

def edmaWriteBack (t : Xfer μ) (n : ChanIdx) : Engine μ :=
  t.x.modifyCh n fun c' =>
    { c' with
      tcdSaddr := t.saddr, tcdDaddr := t.daddr
      tcdCiter := (c'.tcdCiter &&& ~~~c.cmask) ||| (c.citer - 1) }

def edmaMajorDone (t : Xfer μ) (x : Engine μ) (n : ChanIdx) : Engine μ :=
  let x := x.modifyCh n fun c =>
    { c with
      tcdSaddr := t.saddr + c.tcdSlast
      tcdDaddr := if anyBit c.tcdCsr tcdCsrEsg then t.daddr else t.daddr + c.tcdDlast
      tcdCiter := c.tcdBiter }
  let x :=
    if anyBit (x.st.ch n).tcdCsr tcdCsrMajorelink then
      link x (tcdCsrMajorlinkch (x.st.ch n).tcdCsr)
    else x
  let x :=
    if anyBit (x.st.ch n).tcdCsr tcdCsrEsg then (edmaLoadNextTcd bus x n).1
    else x
  let x := x.modifyCh n fun c => { c with csr := c.csr ||| chCsrDone }
  let x :=
    if anyBit (x.st.ch n).tcdCsr tcdCsrDreq then
      x.modifyCh n fun c => { c with csr := c.csr &&& ~~~chCsrErq }
    else x
  if anyBit (x.st.ch n).tcdCsr tcdCsrIntmajor then
    let x := x.modifyCh n fun c => { c with intr := c.intr ||| chIntInt }
    { x with st := edmaUpdateIrq x.st n }
  else x

def edmaMinorLoopWith (x : Engine μ) (n : ChanIdx) : Engine μ × Bool :=
  let c := x.st.ch n
  if c.dsize = 0 ∨ c.nbytes = 0 ∨ c.citer = 0 then
    ({ x with st := edmaRefuse x.st n chEsNce }, true)
  else if c.tcdErr ≠ 0 then
    ({ x with st := edmaRefuse x.st n c.tcdErr }, true)
  else
    let t := edmaMove bus c (x.mark (.minor n))
    let x := edmaWriteBack c t n
    if c.citer - 1 ≠ 0 then
      (if c.elink then link x (citerLinkch (x.st.ch n).tcdCiter) else x, false)
    else (edmaMajorDone link bus t x n, true)

def edmaRunWith : Engine μ := (edmaMinorLoopWith link bus x n).1.modifyCh n Chan.clearStart

/-- `edma_link_channel`.  The source bounds the chain with `in_link`: inside
a linked run the call returns at once, so one level of recursion is all
there is. -/
def edmaLinkChannel (bus : Bus μ) : ℕ → Engine μ → ℕ → Engine μ
  | 0, x, _ => x
  | depth + 1, x, link =>
    if h : link < 16 then
      if x.st.inLink then x
      else
        let x := (x.setInLink true).modifyCh ⟨link, h⟩ Chan.clearDone
        (edmaRunWith (edmaLinkChannel bus depth) bus x ⟨link, h⟩).setInLink false
    else x

def edmaMinorLoop : Engine μ × Bool := edmaMinorLoopWith (edmaLinkChannel bus 1) bus x n

def edmaRun : Engine μ := edmaRunWith (edmaLinkChannel bus 1) bus x n

inductive ChanReg where
  | chCsr | chEs | chInt | chSbr | chPri | chMux
  | tcdSaddr | tcdSoff | tcdAttr | tcdNbytes | tcdSlast
  | tcdDaddr | tcdDoff | tcdCiter | tcdDlast | tcdCsr | tcdBiter
deriving DecidableEq

def ChanReg.ofOffset : ℕ → Option ChanReg
  | 0x00 => some .chCsr
  | 0x04 => some .chEs
  | 0x08 => some .chInt
  | 0x0C => some .chSbr
  | 0x10 => some .chPri
  | 0x14 => some .chMux
  | 0x20 => some .tcdSaddr
  | 0x24 => some .tcdSoff
  | 0x26 => some .tcdAttr
  | 0x28 => some .tcdNbytes
  | 0x2C => some .tcdSlast
  | 0x30 => some .tcdDaddr
  | 0x34 => some .tcdDoff
  | 0x36 => some .tcdCiter
  | 0x38 => some .tcdDlast
  | 0x3C => some .tcdCsr
  | 0x3E => some .tcdBiter
  | _ => none

inductive EdmaReg where
  | mpCsr | mpEs | mpInt
  | chGrpri (i : ChanIdx)
  | chan (n : ChanIdx) (r : ChanReg)
deriving DecidableEq

def EdmaReg.ofOffset (off : ℕ) : Option EdmaReg :=
  if off < 0x1000 then
    if off = 0x00 then some .mpCsr
    else if off = 0x04 then some .mpEs
    else if off = 0x08 then some .mpInt
    else if h : 0x100 ≤ off ∧ off < 0x100 + 4 * 16 then
      some (.chGrpri ⟨(off - 0x100) / 4, by omega⟩)
    else none
  else if h : off / 0x1000 - 1 < 16 then
    (ChanReg.ofOffset (off % 0x1000)).map (.chan ⟨off / 0x1000 - 1, h⟩)
  else none

def Chan.read : ChanReg → Word
  | .chCsr => c.csr
  | .chEs => c.es
  | .chInt => c.intr
  | .chSbr => c.sbr
  | .chPri => c.pri
  | .chMux => c.mux
  | .tcdSaddr => c.tcdSaddr
  | .tcdSoff => c.tcdSoff.setWidth 32
  | .tcdAttr => c.tcdAttr.setWidth 32
  | .tcdNbytes => c.tcdNbytes
  | .tcdSlast => c.tcdSlast
  | .tcdDaddr => c.tcdDaddr
  | .tcdDoff => c.tcdDoff.setWidth 32
  | .tcdCiter => c.tcdCiter.setWidth 32
  | .tcdDlast => c.tcdDlast
  | .tcdCsr => c.tcdCsr.setWidth 32
  | .tcdBiter => c.tcdBiter.setWidth 32

def edmaRead (off : ℕ) : Word :=
  match EdmaReg.ofOffset off with
  | some .mpCsr => s.mpCsr
  | some .mpEs => s.mpEs
  | some .mpInt =>
    (List.finRange 16).foldl
      (fun r n =>
        if anyBit (s.ch n).intr chIntInt then r ||| (1 <<< n.val) else r) 0
  | some (.chGrpri i) => s.chGrpri i
  | some (.chan n r) => (s.ch n).read r
  | none => 0

def Chan.write (v : Word) : ChanReg → Chan
  | .chCsr =>
    -- DONE is write-1-to-clear; the rest is stored
    let csr := if anyBit v chCsrDone then c.csr &&& ~~~chCsrDone else c.csr
    { c with csr := (csr &&& chCsrDone) ||| (v &&& ~~~chCsrDone) }
  | .chEs => { c with es := c.es &&& ~~~v }
  | .chInt =>
    if anyBit v chIntInt then { c with intr := c.intr &&& ~~~chIntInt }
    else c
  | .chSbr => { c with sbr := v }
  | .chPri => { c with pri := v }
  | .chMux => { c with mux := v }
  | .tcdSaddr => { c with tcdSaddr := v }
  | .tcdSoff => { c with tcdSoff := v.setWidth 16 }
  | .tcdAttr => { c with tcdAttr := v.setWidth 16 }
  | .tcdNbytes => { c with tcdNbytes := v }
  | .tcdSlast => { c with tcdSlast := v }
  | .tcdDaddr => { c with tcdDaddr := v }
  | .tcdDoff => { c with tcdDoff := v.setWidth 16 }
  | .tcdCiter => { c with tcdCiter := v.setWidth 16 }
  | .tcdDlast => { c with tcdDlast := v }
  | .tcdCsr => { c with tcdCsr := v.setWidth 16 }
  | .tcdBiter => { c with tcdBiter := v.setWidth 16 }

def edmaWrite (x : Engine μ) (off : ℕ) (v : Word) : Engine μ :=
  match EdmaReg.ofOffset off with
  | some .mpCsr => { x with st := { x.st with mpCsr := v } }
  | some (.chGrpri i) =>
    { x with st :=
      { x.st with chGrpri := Function.update x.st.chGrpri i v } }
  | some (.chan n .chInt) =>
    let x' := x.modifyCh n fun c => c.write v .chInt
    if anyBit v chIntInt then { x' with st := edmaUpdateIrq x'.st n }
    else x'
  | some (.chan n .tcdCsr) =>
    let x := x.modifyCh n fun c => c.write v .tcdCsr
    if anyBit v (tcdCsrStart.setWidth 32) then
      edmaRun bus (x.modifyCh n Chan.clearDone) n
    else x
  | some (.chan n r) => x.modifyCh n fun c => c.write v r
  | some .mpEs | some .mpInt | none => x

def muxSrc (mux : Word) : ReqSrc :=
  ⟨(mux &&& chMuxSrcMask).toNat, by
    have hle : (mux &&& chMuxSrcMask).toNat ≤ chMuxSrcMask.toNat := by
      rw [BitVec.toNat_and]
      exact Nat.and_le_right
    have hmask : chMuxSrcMask.toNat = 127 := by decide
    omega⟩

def EdmaState.eligible : Bool :=
  let c := s.ch n
  anyBit c.csr chCsrErq && muxSrc c.mux != 0 &&
    s.reqLevel (muxSrc c.mux) && s.reqEnabled (muxSrc c.mux)

def EdmaState.setLevel (src : ReqSrc) (level : Bool) :
    EdmaState :=
  { s with reqLevel := Function.update s.reqLevel src level }

def serviceChannel (x : Engine μ) (n : ChanIdx) : Engine μ × Bool :=
  let src := muxSrc (x.st.ch n).mux
  if x.st.eligible n then
    let x := (x.mark (.request n src)).modifyCh n Chan.clearDone
    let x := (edmaMinorLoop bus x n).1
    -- an edge source is acknowledged after its single minor loop
    (if x.st.reqEdge src then { x with st := x.st.setLevel src false } else x, true)
  else (x, false)

def serviceNext (acc : Engine μ × Bool) (n : ChanIdx) : Engine μ × Bool :=
  let served := serviceChannel bus acc.1 n
  (served.1, acc.2 || served.2)

def servicePass : Engine μ × Bool := (List.finRange 16).foldl (serviceNext bus) (x, false)

def serviceLoop (bus : Bus μ) : ℕ → Engine μ → Engine μ
  | 0, x => x
  | passes + 1, x =>
    let pass := servicePass bus x
    if pass.2 then serviceLoop bus passes pass.1 else pass.1

def EdmaState.dropEdges : EdmaState :=
  { s with reqLevel := fun src => !s.reqEdge src && s.reqLevel src }

def mcxnEdmaServiceBh (x : Engine μ) : Engine μ :=
  let x := serviceLoop bus maxLoops x
  { x with st := x.st.dropEdges }

def runBh : Engine μ :=
  if x.st.bhScheduled then
    mcxnEdmaServiceBh bus { x with st := { x.st with bhScheduled := false } }
  else x

def EdmaState.scheduleBh : EdmaState := { s with bhScheduled := true }

def reqSrc? (src : ℤ) : Option ReqSrc :=
  if h : 0 ≤ src ∧ src < 128 then some ⟨src.toNat, by omega⟩ else none

def mcxnEdmaReqEnable (s : EdmaState) (src : ℤ) (level : Bool) : EdmaState :=
  match reqSrc? src with
  | none => s
  | some i =>
    if s.reqEnabled i = level then s
    else
      let s := { s with reqEnabled := Function.update s.reqEnabled i level }
      if level && s.reqLevel i then s.scheduleBh else s

def mcxnEdmaReq (s : EdmaState) (src : ℤ) (level : Bool) : EdmaState :=
  match reqSrc? src with
  | none => s
  | some i =>
    let s := s.setLevel i level
    if level then s.scheduleBh else s

def mcxnEdmaReqPulse (s : EdmaState) (src : ℤ) (level : Bool) : EdmaState :=
  match reqSrc? src with
  | none => s
  | some i =>
    if level then
      let s := { s with reqEdge := Function.update s.reqEdge i true }
      (s.setLevel i true).scheduleBh
    else s

def Chan.zero : Chan := ⟨0, 0, 0, 0, 0, 0, 0, 0, 0, 0, 0, 0, 0, 0, 0, 0, 0⟩

def mcxnEdmaReset : EdmaState :=
  let mid := (if s.dmaId ≠ 0 then edmaMidDma1 else edmaMidDma0) &&&
    chSbrMidMask
  { s with
    mpCsr := 0x00310000, mpEs := 0, chGrpri := fun _ => 0
    ch := fun _ => { Chan.zero with sbr := mid }, reqLevel := fun _ => false
    reqEdge := fun _ => false, reqEnabled := fun _ => true }

def EdmaState.load (s saved : EdmaState) : EdmaState :=
  { s with
    mpCsr := saved.mpCsr, mpEs := saved.mpEs, chGrpri := saved.chGrpri, ch := saved.ch
    reqLevel := saved.reqLevel, reqEnabled := saved.reqEnabled, reqEdge := saved.reqEdge }

lemma move_preserves {bus : Bus μ} {P : Engine μ → Prop}
    (hread : ∀ x addr size, P x → P (addressSpaceRead bus x addr size).1)
    (hwrite : ∀ x addr data, P x → P (addressSpaceWrite bus x addr data)) (c : Chan)
    {x : Engine μ} (hx : P x) : P (edmaMove bus c x).x := by
  -- the loops only ever touch the engine through the two chunk bodies
  refine forLoop_preserves (P := fun t : Xfer μ => P t.x) ?_ hx
  intro _ t ht
  refine forLoop_preserves (P := fun t : Xfer μ => P t.x) (fun _ t => hwrite t.x _ _) ?_
  exact forLoop_preserves (P := fun t : Xfer μ => P t.x) (fun _ t => hread t.x _ _) ht

def mcxnEdmaPostLoad (s : EdmaState) : EdmaState :=
  let s := (List.finRange 16).foldl edmaUpdateIrq s
  if (List.finRange 128).any fun n => s.reqLevel n && s.reqEnabled n then s.scheduleBh
  else s

def EdmaState.created (dmaId : Byte) : EdmaState where
  mpCsr := 0
  mpEs := 0
  chGrpri := fun _ => 0
  ch := fun _ => Chan.zero
  reqLevel := fun _ => false
  reqEdge := fun _ => false
  reqEnabled := fun _ => false
  dmaId := dmaId
  irq := fun _ => false
  bhScheduled := false
  inLink := false

end Mcxn947.Edma
