import Mcxn947.MachineWords

/-!
# INPUTMUX

`hw/misc/mcxn_inputmux.c`: a page of plain registers, two groups of which do
something.
-/

namespace Mcxn947.Inputmux

open MachineWords

abbrev MuxOffset := Fin 0x1000

structure InputMuxState where
  regs : Fin 0x400 → Word

def regIdx (offset : MuxOffset) : Fin 0x400 := ⟨offset / 4, by omega⟩

variable (s : InputMuxState)

def mcxnInputmuxRead (offset : MuxOffset) : Word := s.regs (regIdx offset)

def imDma0ReqEnable0 : ℕ := 0x700
def imDma1ReqEnable0 : ℕ := 0x780

def nreq : ℕ := 128

def bankAlias (base offset : ℕ) : Option (Fin 4 × Fin 4) :=
  if h : base ≤ offset ∧ offset < base + 4 * 0x10 then
    some (⟨(offset - base) / 0x10, by omega⟩, ⟨(offset - base) % 0x10 / 4, by omega⟩)
  else none

def imDecodeReqEnable (offset : MuxOffset) : Option (Fin 2 × Fin 4 × Fin 4) :=
  match bankAlias imDma0ReqEnable0 offset with
  | some (bank, aliasIdx) => some (0, bank, aliasIdx)
  | none =>
    match bankAlias imDma1ReqEnable0 offset with
    | some (bank, aliasIdx) => some (1, bank, aliasIdx)
    | none => none

def reqEnable (dma : Fin 2) (bank : Fin 4) : MuxOffset :=
  ⟨(if dma = 0 then 0x700 else 0x780) + bank * 0x10, by split <;> omega⟩

structure GateDrive where
  dma : Fin 2
  src : ℕ
  level : Bool

def imPushReqEnable (dma : Fin 2) (bank : Fin 4) :
    List GateDrive :=
  let v := mcxnInputmuxRead s (reqEnable dma bank)
  (List.range 32).filterMap fun i =>
    if bank * 32 + i < nreq then some ⟨dma, bank * 32 + i, v.getLsbD i⟩ else none

def aliasWrite (aliasIdx : Fin 4) (old value : Word) : Word :=
  match aliasIdx with
  | 0 => value
  | 1 => old ||| value
  | 2 => old &&& ~~~value
  | 3 => old ^^^ value

def InputMuxState.set (offset : MuxOffset) (v : Word) :
    InputMuxState :=
  ⟨Function.update s.regs (regIdx offset) v⟩

def mcxnInputmuxWrite (s : InputMuxState) (offset : MuxOffset) (value : Word) :
    InputMuxState × List GateDrive :=
  match imDecodeReqEnable offset with
  | some (dma, bank, aliasIdx) =>
    let reg := reqEnable dma bank
    let s := s.set reg (aliasWrite aliasIdx (mcxnInputmuxRead s reg) value)
    (s, imPushReqEnable s dma bank)
  | none => (s.set offset value, [])

def srcLptmr0 : Word := 50
def srcLptmr1 : Word := 51
def srcCtimer3M2 : Word := 96
def srcCtimer4M1 : Word := 97

def ntrigSrc : ℤ := 128

def imTrigSelMask : Word := 0x7F
def imTrigNone : Word := 0x7F
def imTrig6Mask : Word := 0x3F
def imTrig6None : Word := 0x3F
def imTrig2Mask : Word := 0x3
def imTrig2None : Word := 0x3

def adcTrig (adc : Fin 2) (t : Fin 4) : MuxOffset :=
  ⟨(if adc = 0 then 0x280 else 0x2C0) + t * 4, by split <;> omega⟩

def dacTrig (t : Fin 3) : MuxOffset := ⟨0x300 + t * 0x20, by omega⟩

def imCmpTrigOff : Fin 3 → MuxOffset := ![0x260, 0x4E0, 0x500]

def qdcTrig (t : Fin 2) : MuxOffset := ⟨0x360 + t * 0x20, by omega⟩

def imTsiTrig : MuxOffset := 0x4A0

inductive TrigDest where
  | adc (adc : Fin 2) (t : Fin 4)
  | dac (t : Fin 3)
  | cmp (t : Fin 3)
  | qdc (t : Fin 2)
  | tsi
deriving DecidableEq

def imAdcSelToSrc (adc : Fin 2) (sel : Word) : Word :=
  if adc = 1 then
    if sel = 8 then srcCtimer3M2
    else if sel = 9 then srcCtimer4M1
    else sel
  else sel

def trig6Match (offset : MuxOffset) (src : Word) : Bool :=
  let sel := mcxnInputmuxRead s offset &&& imTrig6Mask
  sel != imTrig6None && sel == src

def mcxnInputmuxTrigger (src : ℤ) (level : Bool) :
    List TrigDest :=
  if !level || src < 0 || ntrigSrc ≤ src then []
  else
    let id := BitVec.ofInt 32 src
    let adcs := (List.finRange 2).flatMap fun adc =>
      (List.finRange 4).filterMap fun t =>
        let sel := mcxnInputmuxRead s (adcTrig adc t) &&& imTrigSelMask
        if sel != imTrigNone && imAdcSelToSrc adc sel == id then some (.adc adc t)
        else none
    let dacs := (List.finRange 3).filterMap fun t =>
      if trig6Match s (dacTrig t) id then some (.dac t) else none
    let cmps := (List.finRange 3).filterMap fun t =>
      if trig6Match s (imCmpTrigOff t) id then some (.cmp t) else none
    let qdcs := (List.finRange 2).filterMap fun t =>
      if trig6Match s (qdcTrig t) id then some (.qdc t) else none
    let sel := mcxnInputmuxRead s imTsiTrig &&& imTrig2Mask
    let phys := if sel = 0 then srcLptmr0
      else if sel = 1 then srcLptmr1 else imTrig2None
    let tsi := if sel != imTrig2None && phys == id then [.tsi] else []
    adcs ++ dacs ++ cmps ++ qdcs ++ tsi

def imReset : List (MuxOffset × Word) :=
  [(0x000, 0x7F), (0x004, 0x7F), (0x008, 0x7F), (0x00C, 0x7F), (0x010, 0x7F),
   (0x014, 0x7F), (0x018, 0x7F), (0x01C, 0x7F), (0x020, 0x7F), (0x024, 0x7F),
   (0x028, 0x7F), (0x02C, 0x7F), (0x030, 0x7F), (0x040, 0x7F), (0x044, 0x7F),
   (0x048, 0x7F), (0x04C, 0x7F), (0x050, 0x7F), (0x060, 0x7F), (0x064, 0x7F),
   (0x068, 0x7F), (0x06C, 0x7F), (0x070, 0x7F), (0x0C0, 0x7F), (0x0C4, 0x7F),
   (0x0C8, 0x7F), (0x0CC, 0x7F), (0x0D0, 0x7F), (0x0D4, 0x7F), (0x0D8, 0x7F),
   (0x0DC, 0x7F), (0x1A0, 0x7F), (0x1A4, 0x7F), (0x1A8, 0x7F), (0x1AC, 0x7F),
   (0x1B0, 0x7F), (0x1C0, 0x7F), (0x1C4, 0x7F), (0x1C8, 0x7F), (0x1CC, 0x7F),
   (0x1D0, 0x7F), (0x260, 0x3F), (0x2C0, 0x7F), (0x2C4, 0x7F), (0x2C8, 0x7F),
   (0x2CC, 0x7F), (0x300, 0x3F), (0x320, 0x3F), (0x340, 0x3F), (0x360, 0x3F),
   (0x364, 0x3F), (0x368, 0x3F), (0x36C, 0x3F), (0x370, 0x3F), (0x380, 0x3F),
   (0x384, 0x3F), (0x388, 0x3F), (0x38C, 0x3F), (0x390, 0x3F), (0x420, 0x7),
   (0x424, 0x7), (0x480, 0xF), (0x4A0, 0x3), (0x4E0, 0x3F), (0x500, 0x3F),
   (0x5A0, 0x3F), (0x5C0, 0x3F), (0x5E0, 0x3F), (0x600, 0x3F), (0x620, 0x3F),
   (0x640, 0x3F), (0x660, 0x3F), (0x680, 0x3F), (0x6A0, 0x3F), (0x6C0, 0x3F),
   (0x6E0, 0x7F), (0x6E4, 0x7F), (0x6E8, 0x7F), (0x6EC, 0x7F), (0x6F0, 0x7F),
   (0x6F4, 0x7F), (0x6F8, 0x7F), (0x6FC, 0x7F), (0x700, 0xFFFFFFFF),
   (0x710, 0xFFFFFFFF), (0x720, 0xFFFFFFFF), (0x730, 0x3FFFFFF), (0x780, 0xFFFFFFFF),
   (0x790, 0xFFFFFFFF), (0x7A0, 0xFFFFFFFF), (0x7B0, 0x3FFFFFF)]

def mcxnInputmuxReset : InputMuxState := imReset.foldl (fun s e => s.set e.1 e.2) ⟨fun _ => 0⟩

end Mcxn947.Inputmux
