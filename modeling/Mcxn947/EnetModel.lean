import Mcxn947.EventRuns
import Mcxn947.GuestMemory

/-!
# The Ethernet controller

`hw/misc/mcxn_enet.c`: a register file, a PHY behind MDIO, and a DMA channel
that walks rings of 16-byte descriptors in guest memory.
-/

namespace Mcxn947.Enet

open MachineWords GuestMemory BitVec Nat

abbrev RegIdx := Fin 0x800

structure EnetState where
  regs : RegIdx → Word
  phy : Fin 32 → HalfWord
  (curTx curRx : Word)
  irq : Bool

structure Controller where
  st : EnetState
  mem : Mem
  (queued sent : List (List Byte))
  released : List Word

def rMacConfiguration : RegIdx := 0x000
def rMacInterruptStatus : RegIdx := 0x02C
def rMacInterruptEnable : RegIdx := 0x02D
def rMacRxTxStatus : RegIdx := 0x02E
def rMacVersion : RegIdx := 0x044
def rMacDebug : RegIdx := 0x045
def rMacHwFeat0 : RegIdx := 0x047
def rMacMdioAddress : RegIdx := 0x080
def rMacMdioData : RegIdx := 0x081
def rMtlInterruptStatus : RegIdx := 0x308
def rMtlTxq0OpMode : RegIdx := 0x340
def rDmaMode : RegIdx := 0x400
def rDmaInterruptStatus : RegIdx := 0x402
def rDmaDebugStatus0 : RegIdx := 0x403
def rTxCtrl : RegIdx := 0x441
def rRxCtrl : RegIdx := 0x442
def rTxdescList : RegIdx := 0x445
def rRxdescList : RegIdx := 0x447
def rTxdescTail : RegIdx := 0x448
def rRxdescTail : RegIdx := 0x44A
def rTxringLen : RegIdx := 0x44B
def rRxringLen : RegIdx := 0x44C
def rIntEn : RegIdx := 0x44D
def rStatus : RegIdx := 0x458

def macIsPhyis : Word := 0x00000008
def dmaModeSwr : Word := 0x00000001
def macCfgRe : Word := 0x00000001
def macCfgTe : Word := 0x00000002
def macCfgLm : Word := 0x00001000
def mtlTxqFtq : Word := 0x00000001
def dmaTxSt : Word := 0x00000001
def dmaRxSr : Word := 0x00000001
def dmaStatTi : Word := 0x00000001
def dmaStatRi : Word := 0x00000040
def dmaStatRbu : Word := 0x00000080
def dmaStatNis : Word := 0x00008000

def tdes2Ioc : Word := 0x80000000
def desOwn : Word := 0x80000000
def desFd : Word := 0x20000000
def desLd : Word := 0x10000000
def rdes3PlMask : Word := 0x00007FFF

def enetFrameMax : ℕ := 2048
def enetRingGuard : ℕ := 256

variable (m : Mem) (x : Controller) (s : EnetState) (r : RegIdx)

def EnetState.setReg (v : Word) : EnetState := { s with regs := Function.update s.regs r v }

def EnetState.orReg (v : Word) : EnetState := s.setReg r (s.regs r ||| v)

def mcxnEnetUpdateIrq : EnetState :=
  { s with irq :=
      anyBit (s.regs rMacInterruptStatus &&& s.regs rMacInterruptEnable) macIsPhyis ||
      anyBit (s.regs rStatus &&& s.regs rIntEn) (dmaStatTi ||| dmaStatRi) }

def enetDescRead (addr : Word) (i : ℕ) : Word := load32 m (addr.toNat + 4 * i)

def enetDescWriteWord3 (addr w3 : Word) : Mem := store32 m (addr + 12).toNat w3

def nextDesc (base ringlen cur : Word) : Word :=
  if base + ringlen * 16 ≤ cur + 16 then base else cur + 16

def ringSlot (n i t : ℕ) : ℕ := (i + t) % n

variable {n i t : ℕ}

lemma ringSlot_lt (h : 0 < n) (i t : ℕ) : ringSlot n i t < n := mod_lt _ h

lemma ringSlot_zero (h : i < n) : ringSlot n i 0 = i := mod_eq_of_lt h

lemma ringSlot_full (n i : ℕ) : ringSlot n i n = ringSlot n i 0 := by simp [ringSlot]

lemma ringSlot_ne {u : ℕ} (htu : t < u) (hu : u < n) : ringSlot n i t ≠ ringSlot n i u := by
  intro h
  have hmod : t % n = u % n := Nat.ModEq.add_left_cancel' i h
  rw [mod_eq_of_lt (htu.trans hu), mod_eq_of_lt hu] at hmod
  omega

lemma ringlen_toNat (reg : Word) : ((reg &&& 0x3FF) + 1).toNat = reg.toNat % 1024 + 1 := by
  have hmask : (reg &&& 0x3FF).toNat = reg.toNat % 1024 := by exact and_two_pow_sub_one_eq_mod _ 10
  rw [toNat_add, hmask, show (1 : Word).toNat = 1 from rfl]
  omega

lemma nextDesc_toNat {base ringlen cur : Word} (hpos : 0 < ringlen.toNat)
    (hcur : cur.toNat = base.toNat + 16 * ringSlot ringlen.toNat i t)
    (hfits : base.toNat + 16 * ringlen.toNat < 2 ^ 32) :
    (nextDesc base ringlen cur).toNat = base.toNat + 16 * ringSlot ringlen.toNat i (t + 1) := by
  have hslot := ringSlot_lt hpos i t
  have hsucc : ringSlot ringlen.toNat i (t + 1) =
      (ringSlot ringlen.toNat i t + 1) % ringlen.toNat := by
    simp [ringSlot, Nat.add_assoc]
  rw [hsucc]
  generalize ringSlot ringlen.toNat i t = j at hslot hcur
  have hnext : (cur + 16).toNat = base.toNat + 16 * (j + 1) := by
    rw [toNat_add, hcur, show (16 : Word).toNat = 16 from rfl]
    omega
  have hend : (base + ringlen * 16).toNat = base.toNat + 16 * ringlen.toNat := by
    rw [toNat_add, toNat_mul, show (16 : Word).toNat = 16 from rfl]
    omega
  rw [nextDesc]
  by_cases hlast : j + 1 = ringlen.toNat
  · rw [if_pos (by rw [le_def, hnext, hend]; omega), hlast, mod_self]
    rfl
  · rw [if_neg (by rw [le_def, hnext, hend]; omega), hnext, mod_eq_of_lt (by omega)]

lemma add_twelve_toNat {addr : Word} (h : addr.toNat + 16 ≤ 2 ^ 32) :
    (addr + 12).toNat = addr.toNat + 12 := by
  rw [toNat_add, show (12 : Word).toNat = 12 from rfl]
  omega

def EnetState.rxBase : Word := s.regs rRxdescList &&& ~~~3

def EnetState.rxRinglen : Word := (s.regs rRxringLen &&& 0x3FF) + 1

def EnetState.rbsz (s : EnetState) : ℕ :=
  let rbsz := ((s.regs rRxCtrl >>> 1) &&& 0x3FFF).toNat
  if rbsz = 0 ∨ enetFrameMax < rbsz then enetFrameMax else rbsz

def deliverChunk (frame : List Byte) (x : Controller) (off : ℕ) (first : Bool) : Controller × ℕ :=
  let s := x.st
  let chunk := min s.rbsz (frame.length - off)
  let mem := store x.mem (enetDescRead x.mem s.curRx 0).toNat
    ((frame.drop off).take chunk)
  let off := off + chunk
  let last := frame.length ≤ off
  let w3 := (if first then desFd else 0) ||| (if last then desLd else 0) |||
    (BitVec.ofNat 32 off &&& rdes3PlMask)
  ({ x with
      st := { s with curRx := nextDesc s.rxBase s.rxRinglen s.curRx }
      mem := enetDescWriteWord3 mem s.curRx w3 }, off)

def deliverLoop (frame : List Byte) : ℕ → Controller → ℕ → Bool → Controller × Bool
  | 0, x, _, _ => (x, false)
  | fuel + 1, x, off, first =>
    if !anyBit (enetDescRead x.mem x.st.curRx 3) desOwn then
      ({ x with st :=
          mcxnEnetUpdateIrq (x.st.orReg rStatus (dmaStatRbu ||| dmaStatNis)) }, false)
    else
      let (x, off) := deliverChunk frame x off first
      if off < frame.length then deliverLoop frame fuel x off false
      else
        ({ x with st :=
            mcxnEnetUpdateIrq (x.st.orReg rStatus (dmaStatRi ||| dmaStatNis)) }, true)

def EnetState.rxEnabled : Bool :=
  anyBit (s.regs rMacConfiguration) macCfgRe && anyBit (s.regs rRxCtrl) dmaRxSr && s.rxBase != 0

def mcxnEnetDeliver (frame : List Byte) : Controller × Bool :=
  if !x.st.rxEnabled then (x, false)
  else
    let frame := frame.take enetFrameMax
    deliverLoop frame (frame.length + 1) x 0 true

def mcxnEnetCanReceive : Bool :=
  anyBit (s.regs rMacConfiguration) macCfgRe && anyBit (s.regs rRxCtrl) dmaRxSr

def mcxnEnetReceive (frame : List Byte) : Controller := (mcxnEnetDeliver x frame).1

def flushQueued : Controller := x.queued.foldl mcxnEnetReceive { x with queued := [] }

def EnetState.txBase : Word := s.regs rTxdescList &&& ~~~3

def EnetState.txRinglen : Word := (s.regs rTxringLen &&& 0x3FF) + 1

def EnetState.txTail : Word := s.regs rTxdescTail &&& ~~~3

structure TxLocals where
  frame : List Byte
  ioc : Bool

def addBuffer (frame : List Byte) (addr : Word) (len : ℕ) : List Byte :=
  if len ≠ 0 ∧ frame.length + len ≤ enetFrameMax then frame ++ load m addr.toNat len
  else frame

def EnetState.loopback : Bool := anyBit (s.regs rMacConfiguration) macCfgLm

def sendFrame (x : Controller) (frame : List Byte) : Controller :=
  let x := { x with sent := x.sent ++ [frame] }
  if x.st.loopback then (mcxnEnetDeliver x frame).1 else x

def txGather (d : ℕ → Word) (t : TxLocals) : TxLocals :=
  let t := if anyBit (d 3) desFd then ⟨[], false⟩ else t
  let frame := addBuffer m t.frame (d 0) (d 2 &&& 0x3FFF).toNat
  let frame := addBuffer m frame (d 1) ((d 2 >>> 16) &&& 0x3FFF).toNat
  ⟨frame, t.ioc || anyBit (d 2) tdes2Ioc⟩

def txComplete (x : Controller) (t : TxLocals) : Controller :=
  let x := sendFrame x t.frame
  if t.ioc then { x with st := x.st.orReg rStatus (dmaStatTi ||| dmaStatNis) } else x

def txRelease : Controller :=
  { x with
    mem := enetDescWriteWord3 x.mem x.st.curTx (enetDescRead x.mem x.st.curTx 3 &&& ~~~desOwn)
    released := x.released ++ [x.st.curTx] }

def txAdvance : Controller :=
  { x with st :=
      { x.st with curTx := nextDesc x.st.txBase x.st.txRinglen x.st.curTx } }

def txDescriptor (x : Controller) (t : TxLocals) : Controller × TxLocals :=
  let d := enetDescRead x.mem x.st.curTx
  let t := txGather x.mem d t
  let x := txRelease x
  if anyBit (d 3) desLd then (txAdvance (txComplete x t), { t with frame := [] })
  else (txAdvance x, t)

def txLoop : ℕ → Controller → TxLocals → Controller
  | 0, x, _ => x
  | guard + 1, x, t =>
    if x.st.curTx = x.st.txTail then x
    else if !anyBit (enetDescRead x.mem x.st.curTx 3) desOwn then x
    else
      let (x, t) := txDescriptor x t
      txLoop guard x t

def EnetState.txEnabled : Bool :=
  anyBit (s.regs rMacConfiguration) macCfgTe && anyBit (s.regs rTxCtrl) dmaTxSt && s.txBase != 0

def mcxnEnetTxProcess (x : Controller) : Controller :=
  if !x.st.txEnabled then x
  else
    let x := txLoop enetRingGuard x ⟨[], false⟩
    { x with st := mcxnEnetUpdateIrq x.st }

def enetPhyAddr : Word := 2
def phyBmcr : Fin 32 := 0
def phyBmsr : Fin 32 := 1
def phyId1 : Fin 32 := 2
def phyId2 : Fin 32 := 3
def phyBmsrValue : HalfWord := 0x782D

def mcxnEnetPhyRead (reg : Fin 32) : HalfWord := if reg = phyBmsr then phyBmsrValue else s.phy reg

def mdioOperation (s : EnetState) (val : Word) : EnetState :=
  let pa := (val >>> 21) &&& 0x1F
  let rda : Fin 32 := ⟨(val >>> 16).toNat % 32, mod_lt _ (by decide)⟩
  let goc := (val >>> 2) &&& 0x3
  let data := s.regs rMacMdioData
  let s :=
    if pa = enetPhyAddr then
      if goc = 1 then { s with phy := Function.update s.phy rda (data.setWidth 16) }
      else s.setReg rMacMdioData ((data &&& 0xFFFF0000) ||| (mcxnEnetPhyRead s rda).setWidth 32)
    else s.setReg rMacMdioData ((data &&& 0xFFFF0000) ||| 0xFFFF)
  mcxnEnetUpdateIrq (s.orReg rMacInterruptStatus macIsPhyis)

def enetRegRo : Bool :=
  r ∈ [rMacRxTxStatus, rMacVersion, rMacDebug, rMacHwFeat0, rMacHwFeat0 + 1,
    rMacHwFeat0 + 2, rMacHwFeat0 + 3, rMtlInterruptStatus, rDmaInterruptStatus, rDmaDebugStatus0]

def macVersionValue : Word := 0x00001052

def enetRegValue : Word :=
  if r = rMacVersion then macVersionValue
  else if r = rDmaInterruptStatus then
    if anyBit (s.regs rStatus &&& s.regs rIntEn) (dmaStatTi ||| dmaStatRi ||| dmaStatRbu)
    then 1 else 0
  else s.regs r

def laneMask (lane size : ℕ) : Word :=
  if size = 4 then 0xFFFFFFFF else BitVec.ofNat 32 (2 ^ (8 * size) - 1) <<< (8 * lane)

def enetRead (off size : ℕ) : Word :=
  if h : off < 0x2000 then
    (enetRegValue s ⟨off / 4, by omega⟩ >>> (8 * (off % 4))) &&& laneMask 0 size
  else 0

def enetWriteReg (x : Controller) (r : RegIdx) (val ones : Word) : Controller :=
  let s := x.st
  if r = rDmaMode then { x with st := s.setReg r (val &&& ~~~dmaModeSwr) }
  else if r = rMtlTxq0OpMode then { x with st := s.setReg r (val &&& ~~~mtlTxqFtq) }
  else if r = rMacMdioAddress then
    if anyBit val 1 then
      { x with st := (mdioOperation s (val &&& ~~~1)).setReg r (val &&& ~~~1) }
    else { x with st := s.setReg r val }
  else if r = rMacInterruptStatus then
    { x with st := mcxnEnetUpdateIrq (s.setReg r (s.regs r &&& ~~~ones)) }
  else if r = rMacInterruptEnable ∨ r = rIntEn then
    { x with st := mcxnEnetUpdateIrq (s.setReg r val) }
  else if r = rTxdescList then
    { x with st := { s.setReg r val with curTx := val &&& ~~~3 } }
  else if r = rRxdescList then
    { x with st := { s.setReg r val with curRx := val &&& ~~~3 } }
  else if r = rRxdescTail then flushQueued { x with st := s.setReg r val }
  else if r = rTxdescTail then mcxnEnetTxProcess { x with st := s.setReg r val }
  else if r = rStatus then
    { x with st := mcxnEnetUpdateIrq (s.setReg r (s.regs r &&& ~~~val)) }
  else if r = rMacConfiguration ∨ r = rRxCtrl then
    let x := { x with st := s.setReg r val }
    if mcxnEnetCanReceive x.st then flushQueued x else x
  else { x with st := s.setReg r val }

def enetWrite (off size : ℕ) (value : Word) : Controller :=
  if h : off < 0x2000 then
    let r : RegIdx := ⟨off / 4, by omega⟩
    let mask := laneMask (off % 4) size
    let ones := (value <<< (8 * (off % 4))) &&& mask
    if enetRegRo r then x
    else enetWriteReg x r ((x.st.regs r &&& ~~~mask) ||| ones) ones
  else x

lemma write_word (value : Word) : enetWrite x (4 * r) 4 value =
      if enetRegRo r then x else enetWriteReg x r value value := by
  have hlt : 4 * r.val < 0x2000 := by omega
  have hreg : (⟨4 * r.val / 4, by omega⟩ : RegIdx) = r :=
    Fin.ext (Nat.mul_div_cancel_left _ (by decide))
  have hones : value &&& (0xFFFFFFFF : Word) = value := and_allOnes
  have hnone : x.st.regs r &&& ~~~(0xFFFFFFFF : Word) = 0 := BitVec.and_zero
  simp only [enetWrite, hlt, dif_pos, hreg, mul_mod_right, laneMask, if_true,
    Nat.mul_zero, BitVec.shiftLeft_zero, hones, hnone]
  rw [show (0 : Word) ||| value = value from BitVec.zero_or]

def enetReset : List (RegIdx × Word) :=
  [(0x000, 0x00008000), (0x035, 0x03E80000), (0x037, 0x00000063),
   (0x0C0, 0x8000FFFF), (0x0C1, 0xFFFFFFFF), (0x2C0, 0x00002000)]

def resetRegs : RegIdx → Word := fun r => (enetReset.lookup r).getD 0

def resetPhy : Fin 32 → HalfWord := fun reg =>
  if reg = phyBmcr then 0x1140
  else if reg = phyBmsr then phyBmsrValue
  else if reg = phyId1 then 0x0007
  else if reg = phyId2 then 0xC120
  else 0

def mcxnEnetReset : Controller :=
  { x with st :=
      { regs := resetRegs, phy := resetPhy, curTx := 0, curRx := 0, irq := false } }

def Controller.powerOn (mem : Mem) : Controller :=
  mcxnEnetReset ⟨⟨fun _ => 0, fun _ => 0, 0, 0, false⟩, mem, [], [], []⟩

end Mcxn947.Enet
