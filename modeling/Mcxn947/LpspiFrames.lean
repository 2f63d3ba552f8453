import Mcxn947.FlexcommSnapshot

/-!
# The words the LPSPI shifts

A write of `TDR` shifts one word over the SSI bus under the chip select.
-/

namespace Mcxn947.Flexcomm

open MachineWords EventRuns

variable {π : Type}

structure SpiFrame where
  word : Word
  (level rose : Bool)
deriving DecidableEq

structure SpiWire where
  (level rose : Bool)
  frames : List SpiFrame
  reply : Word

def SpiWire.select (w : SpiWire) (level : Bool) : SpiWire :=
  { w with level := level, rose := w.rose || level }

def SpiWire.shift (w : SpiWire) (word reply : Word) : SpiWire where
  level := w.level
  rose := w.level
  frames := w.frames ++ [⟨word, w.level, w.rose⟩]
  reply := reply

def Peers.wired (p : Peers π) : Peers (π × SpiWire) :=
  p.watched { cs := SpiWire.select, shift := SpiWire.shift }

def Device.wired (x : Device π) : Device (π × SpiWire) where
  st := x.st
  lines := x.lines
  peers := (x.peers, ⟨x.lines.spiCs, x.lines.spiCs, [], 0⟩)
  shifted := x.shifted

inductive SpiWrite where
  | tcr (value : Word)
  | tdr (value : Word)
deriving DecidableEq

def spiStep (p : Peers π) (x : Device π) : SpiWrite → Device π
  | .tcr value => mcxnLpuartWrite p x 0x60 value
  | .tdr value => mcxnLpuartWrite p x 0x64 value

structure SpiWord where
  (tcr value : Word)

def lowBits (tcr value : Word) : Word :=
  BitVec.ofNat 32 (value.toNat % 2 ^ ((tcr &&& lpspiTcrFramesz).toNat + 1))

namespace SpiWord

def frame (w : SpiWord) : Word := lowBits w.tcr w.value
def rxmsk (w : SpiWord) : Bool := anyBit w.tcr lpspiTcrRxmsk
def cont (w : SpiWord) : Bool := anyBit w.tcr lpspiTcrCont

end SpiWord

def written : Word → List SpiWrite → List SpiWord
  | _, [] => []
  | _, .tcr value :: rest => written value rest
  | tcr, .tdr value :: rest => ⟨tcr, value⟩ :: written tcr rest

lemma and_frameMask (tcr value : Word) : value &&& frameMask tcr = lowBits tcr value := by
  unfold frameMask lowBits
  generalize (tcr &&& lpspiTcrFramesz).toNat + 1 = size
  apply BitVec.eq_of_toNat_eq
  have hvalue := value.isLt
  rw [BitVec.toNat_ofNat]
  by_cases hwide : 32 ≤ size
  · have hpow : 2 ^ 32 ≤ 2 ^ size := Nat.pow_le_pow_right (by omega) hwide
    have hall : (0xFFFFFFFF : Word) = BitVec.allOnes 32 := by decide
    rw [if_pos hwide, hall, BitVec.and_allOnes,
      Nat.mod_eq_of_lt (lt_of_lt_of_le hvalue hpow), Nat.mod_eq_of_lt hvalue]
  have hpow : 2 ^ size < 2 ^ 32 := Nat.pow_lt_pow_right (by omega) (by omega)
  have hpos : 0 < 2 ^ size := Nat.two_pow_pos size
  have hmask : (((1 <<< size : ℕ) : Word) - 1).toNat = 2 ^ size - 1 := by
    rw [BitVec.toNat_sub, BitVec.natCast_eq_ofNat, BitVec.toNat_ofNat, Nat.shiftLeft_eq,
      one_mul, Nat.mod_eq_of_lt hpow]
    change (2 ^ 32 - 1 + 2 ^ size) % 2 ^ 32 = _
    omega
  have hless : value.toNat % 2 ^ size < 2 ^ 32 := lt_trans (Nat.mod_lt _ hpos) hpow
  rw [if_neg hwide, BitVec.toNat_and, hmask, Nat.and_two_pow_sub_one_eq_mod, Nat.mod_eq_of_lt hless]

def shifts : Bool → List SpiWord → List SpiFrame
  | _, [] => []
  | rose, w :: rest => ⟨w.frame, false, rose⟩ :: shifts (!w.cont) rest

variable (rose : Bool) (sent : List SpiWord)

lemma shifts_words : (shifts rose sent).map SpiFrame.word = sent.map SpiWord.frame := by
  induction sent generalizing rose with
  | nil => rfl
  | cons w rest ih => simp [shifts, ih]

lemma shifts_level : ∀ f ∈ shifts rose sent, f.level = false := by
  induction sent generalizing rose with
  | nil => nofun
  | cons w rest ih =>
    intro f hf
    rcases List.mem_cons.mp hf with rfl | hrest
    · rfl
    · exact ih _ f hrest

lemma shifts_rose :
    (shifts rose sent).tail.map SpiFrame.rose = sent.dropLast.map (fun w => !w.cont) := by
  induction sent generalizing rose with
  | nil => rfl
  | cons w rest ih =>
    cases rest with
    | nil => rfl
    | cons v rest =>
      rw [List.dropLast_cons_cons, List.map_cons, ← ih (!w.cont)]
      rfl

structure Wired (x : Device (π × SpiWire)) : Prop where
  mode : x.st.persel = .lpspi
  enabled : anyBit x.st.spiCr lpspiCrMen = true
  cs : x.st.spiCsAsserted = true → x.lines.spiCs = false
  level : x.peers.2.level = x.lines.spiCs

variable {p : Peers π} {x : Device (π × SpiWire)}

lemma spiStep_tcr (p : Peers π) {x : Device π} (hmode : x.st.persel = .lpspi) (value : Word) :
    spiStep p x (.tcr value) = x.modify fun s => { s with spiTcr := value } := by
  simp only [spiStep, mcxnLpuartWrite, lpflexcommPselid, lpflexcommIstat, hmode]
  rfl

lemma spiStep_tdr (p : Peers π) {x : Device π} (hmode : x.st.persel = .lpspi)
    (hen : anyBit x.st.spiCr lpspiCrMen) (value : Word) :
    spiStep p x (.tdr value) = lpspiTransmit p x value := by
  simp only [spiStep, mcxnLpuartWrite, lpflexcommPselid, lpflexcommIstat, hmode]
  change (if anyBit x.st.spiCr lpspiCrMen then lpspiTransmit p x value else x) = _
  rw [hen, if_pos rfl]

structure Shifts (x y : Device (π × SpiWire)) (w : SpiWord) : Prop where
  wired : Wired y
  frames : y.peers.2.frames = x.peers.2.frames ++ [⟨w.frame, false, x.peers.2.rose⟩]
  rose : y.peers.2.rose = !w.cont
  line : y.lines.spiCs = !w.cont
  tcr : y.st.spiTcr = x.st.spiTcr
  rdr : y.st.spiRdr = lowBits w.tcr y.peers.2.reply
  full : y.st.spiRxFull = true

structure Suppresses (x y : Device (π × SpiWire)) : Prop where
  wired : Wired y
  record : y.peers.2 = x.peers.2
  line : y.lines.spiCs = x.lines.spiCs
  tcr : y.st.spiTcr = x.st.spiTcr
  rdr : y.st.spiRdr = x.st.spiRdr
  full : y.st.spiRxFull = x.st.spiRxFull

lemma asserted_wired (h : Wired x) :
    (if x.st.spiCsAsserted then x else setSpiCs p.wired false x).st =
        { x.st with spiCsAsserted := true } ∧
      (if x.st.spiCsAsserted then x else setSpiCs p.wired false x).lines.spiCs = false ∧
      (if x.st.spiCsAsserted then x else setSpiCs p.wired false x).peers.2 =
        { x.peers.2 with level := false } := by
  cases hassert : x.st.spiCsAsserted with
  | true =>
    have hline := h.cs hassert
    have hlevel := h.level.trans hline
    refine ⟨?_, hline, ?_⟩
    · rw [if_pos rfl, ← hassert]
    · rw [if_pos rfl, ← hlevel]
  | false =>
    refine ⟨rfl, rfl, ?_⟩
    change { x.peers.2 with level := false, rose := x.peers.2.rose || false } = _
    rw [Bool.or_false]

variable {transfer : π → Word → π × Word}

lemma shiftFrame_wired (h : Wired x) (hbus : p.ssiTransfer = some transfer) (value : Word) :
    ∃ reply, (shiftFrame p.wired x value).st = { x.st with
          spiRdr := lowBits x.st.spiTcr reply, spiCsAsserted := anyBit x.st.spiTcr lpspiTcrCont } ∧
      (shiftFrame p.wired x value).lines.spiCs = !anyBit x.st.spiTcr lpspiTcrCont ∧
      (shiftFrame p.wired x value).peers.2 =
        { level := !anyBit x.st.spiTcr lpspiTcrCont
          rose := !anyBit x.st.spiTcr lpspiTcrCont
          frames := x.peers.2.frames ++ [⟨lowBits x.st.spiTcr value, false, x.peers.2.rose⟩]
          reply := reply } := by
  obtain ⟨hst, hline, hrecord⟩ := asserted_wired (p := p) h
  have hwired : p.wired.ssiTransfer = some fun q v =>
      (((transfer q.1 v).1, q.2.shift v (transfer q.1 v).2), (transfer q.1 v).2) := by
    simp only [Peers.wired, Peers.watched, hbus, Option.map_some]
  unfold shiftFrame
  rw [hwired]
  dsimp only
  generalize (if x.st.spiCsAsserted then x else setSpiCs p.wired false x) = y
    at hst hline hrecord ⊢
  rw [hst]
  simp only [and_frameMask]
  refine ⟨(transfer y.peers.1 (lowBits x.st.spiTcr value)).2, ?_⟩
  cases anyBit x.st.spiTcr lpspiTcrCont with
  | true =>
    refine ⟨rfl, hline, ?_⟩
    rw [hrecord]
    rfl
  | false =>
    refine ⟨rfl, rfl, ?_⟩
    rw [hrecord]
    rfl

lemma transmit_shifts (h : Wired x) (hbus : p.ssiTransfer = some transfer)
    (hsent : anyBit x.st.spiTcr lpspiTcrRxmsk = false) (value : Word) :
    Shifts x (lpspiTransmit p.wired x value) ⟨x.st.spiTcr, value⟩ := by
  obtain ⟨reply, hst, hline, hrecord⟩ := shiftFrame_wired h hbus value
  unfold lpspiTransmit
  rw [hsent, if_neg Bool.false_ne_true]
  set y : Device (π × SpiWire) :=
    ((shiftFrame p.wired x value).modify fun s => { s with spiRxFull := true }).modify fun s =>
        { s with spiSr := s.spiSr ||| (lpspiSrWcf ||| lpspiSrFcf ||| lpspiSrTcf) } with hy
  have hyst : y.st = { x.st with
        spiRdr := lowBits x.st.spiTcr reply, spiCsAsserted := anyBit x.st.spiTcr lpspiTcrCont
        spiRxFull := true
        spiSr := x.st.spiSr ||| (lpspiSrWcf ||| lpspiSrFcf ||| lpspiSrTcf) } := by
    rw [hy]
    simp only [Device.modify]
    rw [hst]
  have hyrecord : (mcxnFlexcommUpdateIrq p.wired y).peers.2 = _ :=
    (updateIrq_watched y).trans hrecord
  have hyline : (mcxnFlexcommUpdateIrq p.wired y).lines.spiCs = _ :=
    (updateIrq_spiCs p.wired y).trans hline
  have hnext := updateIrq_st (p := p.wired) y
  rw [hyst] at hnext
  constructor
  case wired =>
    constructor
    · rw [hnext]; exact h.mode
    · rw [hnext]; exact h.enabled
    · rw [hnext, hyline]
      intro hcont
      exact congrArg not hcont
    · rw [hyrecord, hyline]
  case frames => rw [hyrecord]; rfl
  case rose => rw [hyrecord]; rfl
  case line => exact hyline
  case tcr => rw [hnext]
  case rdr => rw [hnext, hyrecord]
  case full => rw [hnext]

lemma transmit_suppresses (h : Wired x)
    (hmasked : anyBit x.st.spiTcr lpspiTcrRxmsk) (value : Word) :
    Suppresses x (lpspiTransmit p.wired x value) := by
  unfold lpspiTransmit
  rw [hmasked, if_pos rfl]
  set y : Device (π × SpiWire) := x.modify fun s =>
    { s with spiSr := s.spiSr ||| (lpspiSrWcf ||| lpspiSrFcf ||| lpspiSrTcf) }
  have hst := updateIrq_st (p := p.wired) y
  have hrecord : (mcxnFlexcommUpdateIrq p.wired y).peers.2 = x.peers.2 := updateIrq_watched y
  have hline := updateIrq_spiCs p.wired y
  constructor
  case wired =>
    constructor
    · rw [hst]; exact h.mode
    · rw [hst]; exact h.enabled
    · rw [hst, hline]; exact h.cs
    · rw [hrecord, hline]; exact h.level
  case record => exact hrecord
  case line => exact hline
  case tcr => rw [hst]; rfl
  case rdr => rw [hst]; rfl
  case full => rw [hst]; rfl

def sentWords (tcr : Word) (writes : List SpiWrite) : List SpiWord :=
  (written tcr writes).filter fun w => !w.rxmsk

def selectAfter (level : Bool) (sent : List SpiWord) : Bool := sent.foldl (fun _ w => !w.cont) level

lemma run_wired (hbus : p.ssiTransfer = some transfer) (writes : List SpiWrite) (h : Wired x) :
    Wired (run (spiStep p.wired) x writes) ∧ (run (spiStep p.wired) x writes).peers.2.frames =
      x.peers.2.frames ++ shifts x.peers.2.rose (sentWords x.st.spiTcr writes) ∧
      (run (spiStep p.wired) x writes).lines.spiCs =
      selectAfter x.lines.spiCs (sentWords x.st.spiTcr writes) := by
  -- on the writes; the record and the command move with the first of them
  induction writes generalizing x with
  | nil => exact ⟨h, (List.append_nil _).symm, rfl⟩
  | cons e rest ih =>
    cases e with
    | tcr value =>
      have hstep := spiStep_tcr p.wired h.mode value
      have hnext : Wired (spiStep p.wired x (.tcr value)) := by
        rw [hstep]
        exact ⟨h.mode, h.enabled, h.cs, h.level⟩
      have hrest := ih hnext
      rw [hstep] at hrest
      rw [run_cons, hstep]
      exact hrest
    | tdr value =>
      have hstep := spiStep_tdr p.wired h.mode h.enabled value
      rw [run_cons, hstep]
      cases hmask : anyBit x.st.spiTcr lpspiTcrRxmsk with
      | true =>
        have hdone := transmit_suppresses (p := p) h hmask value
        have hsent : sentWords x.st.spiTcr (.tdr value :: rest) =
            sentWords x.st.spiTcr rest := by
          rw [sentWords, written, List.filter_cons_of_neg (by simp [SpiWord.rxmsk, hmask])]
          rfl
        obtain ⟨hwired, hframes, hline⟩ := ih hdone.wired
        rw [hdone.tcr, hdone.record] at hframes
        rw [hdone.tcr, hdone.line] at hline
        rw [hsent]
        exact ⟨hwired, hframes, hline⟩
      | false =>
        have hdone := transmit_shifts h hbus hmask value
        have hsent : sentWords x.st.spiTcr (.tdr value :: rest) =
            ⟨x.st.spiTcr, value⟩ :: sentWords x.st.spiTcr rest := by
          rw [sentWords, written, List.filter_cons_of_pos (by simp [SpiWord.rxmsk, hmask])]
          rfl
        obtain ⟨hwired, hframes, hline⟩ := ih hdone.wired
        rw [hdone.tcr, hdone.frames, hdone.rose, List.append_assoc] at hframes
        rw [hdone.tcr, hdone.line] at hline
        rw [hsent]
        exact ⟨hwired, hframes, hline⟩

/-- What the guest may expect of the writes: one transfer for each word, as written; the
chip select low during the words, high between two of them exactly if the earlier one was
written without `CONT`, and high after a last word without `CONT`; and after them, of one
more word, that the reply is delivered unless `RXMSK` is set. -/
structure ShiftsEveryWord (p : Peers π) (x : Device π) (writes : List SpiWrite) : Prop where
  words : (run (spiStep p.wired) x.wired writes).peers.2.frames.map SpiFrame.word =
    (written x.st.spiTcr writes).map SpiWord.frame
  selected : ∀ f ∈ (run (spiStep p.wired) x.wired writes).peers.2.frames, f.level = false
  held : (run (spiStep p.wired) x.wired writes).peers.2.frames.tail.map SpiFrame.rose =
    (written x.st.spiTcr writes).dropLast.map fun w => !w.cont
  released : ∀ w ∈ (written x.st.spiTcr writes).getLast?, w.cont = false →
    (run (spiStep p.wired) x.wired writes).lines.spiCs = true
  delivered : ∀ value,
    anyBit (run (spiStep p.wired) x.wired writes).st.spiTcr lpspiTcrRxmsk = false →
    (run (spiStep p.wired) x.wired (writes ++ [.tdr value])).st.spiRdr =
        lowBits (run (spiStep p.wired) x.wired writes).st.spiTcr
          (run (spiStep p.wired) x.wired (writes ++ [.tdr value])).peers.2.reply ∧
      (run (spiStep p.wired) x.wired (writes ++ [.tdr value])).st.spiRxFull = true
  masked : ∀ value, anyBit (run (spiStep p.wired) x.wired writes).st.spiTcr lpspiTcrRxmsk = true →
    (run (spiStep p.wired) x.wired (writes ++ [.tdr value])).st.spiRdr =
        (run (spiStep p.wired) x.wired writes).st.spiRdr ∧
      (run (spiStep p.wired) x.wired (writes ++ [.tdr value])).st.spiRxFull =
        (run (spiStep p.wired) x.wired writes).st.spiRxFull

lemma selectAfter_of_getLast? {level : Bool} {sent : List SpiWord} {w : SpiWord}
    (hlast : w ∈ sent.getLast?) : selectAfter level sent = !w.cont := by
  obtain ⟨before, rfl⟩ := List.getLast?_eq_some_iff.mp hlast
  rw [selectAfter, List.foldl_append]
  rfl

lemma sentWords_eq_written {tcr : Word} {writes : List SpiWrite}
    (hall : ∀ w ∈ written tcr writes, w.rxmsk = false) :
    sentWords tcr writes = written tcr writes := by
  apply List.filter_eq_self.mpr
  intro w hw
  simp [hall w hw]

lemma words_iff (rose : Bool) (tcr : Word) (writes : List SpiWrite) :
    (shifts rose (sentWords tcr writes)).map SpiFrame.word =
      (written tcr writes).map SpiWord.frame ↔ ∀ w ∈ written tcr writes, w.rxmsk = false := by
  rw [shifts_words]
  constructor
  · intro hwords w hw
    have hlength := congrArg List.length hwords
    rw [List.length_map, List.length_map] at hlength
    have hall := List.length_filter_eq_length_iff.mp hlength w hw
    simpa using hall
  · intro hall
    rw [sentWords_eq_written hall]

section Reached

variable {x : Device π} {transfer : π → Word → π × Word}

lemma Device.Cached.wired (hcached : x.Cached) (hmode : x.st.persel = .lpspi)
    (hen : anyBit x.st.spiCr lpspiCrMen) : Wired x.wired :=
  ⟨hmode, hen, hcached.cs, rfl⟩

/-- In LPSPI mode with an SSI bus and the module enabled, the guest's expectation is met
by a sequence of `TCR` and `TDR` writes if and only if no word is written with `RXMSK`
set. -/
theorem lpspi_shifts_every_word_iff (hcached : x.Cached) (hmode : x.st.persel = .lpspi)
    (henabled : anyBit x.st.spiCr lpspiCrMen = true) (hbus : p.ssiTransfer = some transfer)
    (writes : List SpiWrite) :
    ShiftsEveryWord p x writes ↔ ∀ w ∈ written x.st.spiTcr writes, w.rxmsk = false := by
  obtain ⟨hwired, hframes, hline⟩ := run_wired hbus writes (hcached.wired hmode henabled)
  change _ = [] ++ shifts x.lines.spiCs (sentWords x.st.spiTcr writes) at hframes
  change _ = selectAfter x.lines.spiCs (sentWords x.st.spiTcr writes) at hline
  constructor
  · intro h
    have hwords := h.words
    rw [hframes] at hwords
    exact (words_iff _ _ _).mp hwords
  intro hall
  have hself := sentWords_eq_written hall
  have hnext : ∀ value, run (spiStep p.wired) x.wired (writes ++ [.tdr value]) =
      lpspiTransmit p.wired (run (spiStep p.wired) x.wired writes) value := by
    intro value
    rw [run_append]
    exact spiStep_tdr p.wired hwired.mode hwired.enabled value
  constructor
  case words => rw [hframes]; exact (words_iff _ _ _).mpr hall
  case selected => rw [hframes]; exact shifts_level _ _
  case held => rw [hframes, hself]; exact shifts_rose _ _
  case released =>
    intro w hlast hcont
    rw [hline, hself, selectAfter_of_getLast? hlast, hcont]
    rfl
  case delivered =>
    intro value hsent
    have hdone := transmit_shifts hwired hbus hsent value
    rw [hnext]
    exact ⟨hdone.rdr, hdone.full⟩
  case masked =>
    intro value hmasked
    have hdone := transmit_suppresses (p := p) hwired hmasked value
    rw [hnext]
    exact ⟨hdone.rdr, hdone.full⟩

end Reached

def invertingFlash : DataPeers Unit where
  spiCs q _ := q
  ssiTransfer := some fun q word => (q, ~~~word)
  i2cStartTransfer q _ _ := (q, true)
  i2cSend q _ := (q, true)
  i2cRecv q := (q, 0xFF)
  i2cEndTransfer q := q
  chrWriteAll q _ := q
  chrAcceptInput q := (q, [])

def spiEnabled : Device Unit :=
  run (flexcommNext invertingFlash.alone) (Device.powerOn ())
    [.write lpflexcommPselid perselLpspi, .write 0x10 lpspiCrMen]

lemma spiEnabled_cached : spiEnabled.Cached := run_invariant (P := Device.Cached)
    (fun _ e h => next_cached (p := invertingFlash.alone) h e)
    (Device.powerOn_cached ()) _

theorem lpspi_shifts_every_word_readStatus : ShiftsEveryWord invertingFlash.alone spiEnabled
      [.tcr 0x200007, .tdr 0x05, .tcr 0x7, .tdr 0x1FF] :=
  (lpspi_shifts_every_word_iff spiEnabled_cached (by decide +kernel) (by decide +kernel)
    rfl _).mpr (by decide +kernel)

theorem lpspi_rxmsk_word_lost :
    written spiEnabled.st.spiTcr [.tcr 0x80007, .tdr 0x06] = [⟨0x80007, 0x06⟩] ∧
      (run (spiStep invertingFlash.alone.wired) spiEnabled.wired
        [.tcr 0x80007, .tdr 0x06]).peers.2.frames = [] ∧
      ¬ ShiftsEveryWord invertingFlash.alone spiEnabled [.tcr 0x80007, .tdr 0x06] := by
  refine ⟨rfl, by decide +kernel, ?_⟩
  intro h
  have hwords := h.words
  revert hwords
  decide +kernel

end Mcxn947.Flexcomm
