import Mcxn947.FlexcommSnapshot

/-!
# The receive stream of the LPI2C controller

`RXDATA` asks for a number of bytes; the model fetches one of them from the bus as a
lookahead and the others when `MRDR` is read.
-/

namespace Mcxn947.Flexcomm

open MachineWords EventRuns List BitVec Lpi2cCmd

variable {π : Type}

def Peers.recording (p : Peers π) : Peers (π × List Byte) :=
  p.watched { recv := fun bytes b => bytes ++ [b] }

inductive I2cEvent where
  | command (value : Word)
  | flush (value : Word)
  | read
  | peek
deriving DecidableEq

def I2cEvent.Enabled : I2cEvent → Prop
  | .flush value => anyBit value lpi2cMcrMen = true ∧ anyBit value lpi2cMcrRst = false
  | .command _ | .read | .peek => True

def i2cAccess (p : Peers π) (x : Device π) : I2cEvent → Device π × Word
  | .command value => (mcxnLpuartWrite p x 0x860 value, 0)
  | .flush value => (mcxnLpuartWrite p x 0x810 value, 0)
  | .read => mcxnLpuartRead p x 0x870
  | .peek => mcxnLpuartRead p x 0x878

variable (p : Peers π)

lemma i2cAccess_eq {x : Device π} (hmode : x.st.persel = .lpi2c) (e : I2cEvent) :
    i2cAccess p x e = match e with
      | .command value => (mcxnLpi2cWrite p x value (some .mtdr), 0)
      | .flush value => (mcxnLpi2cWrite p x value (some .mcr), 0)
      | .read => lpi2cReadMrdr p x
      | .peek => (x, if x.st.i2cRxFull then x.st.i2cMrdr else lpi2cMrdrRxempty) := by
  cases e with
  | command value | flush value =>
    simp [i2cAccess, mcxnLpuartWrite, lpflexcommPselid, lpflexcommIstat, hmode,
      lpi2cWindow, Lpi2cReg.ofOffset]
  | read | peek =>
    simp [i2cAccess, mcxnLpuartRead, lpflexcommPselid, lpflexcommIstat, hmode,
      lpi2cWindow, Lpi2cReg.ofOffset, mcxnLpi2cRead]

def i2cFetch (p : Peers π) (x : Device π) : Device π :=
  { x with
    st := { x.st with
      i2cMrdr := (p.i2cRecv x.peers).2.setWidth 32, i2cRxFull := true
      i2cRxPending := x.st.i2cRxPending - 1 }
    peers := (p.i2cRecv x.peers).1 }

def countField (value : Word) : ℕ := (value &&& lpi2cMtdrDataMask).toNat

def Device.owing (x : Device π) (value : Word) : Device π :=
  x.modify fun s => { s with
    i2cRxPending := s.i2cRxPending +
      (((value &&& lpi2cMtdrDataMask).setWidth 8 : Byte).setWidth 32 + 1) }

def Device.emptied (x : Device π) : Device π := x.modify fun s => { s with i2cRxFull := false }

variable {value : Word} {e : I2cEvent} {y : Device (π × List Byte)}

lemma command_rxdata (x : Device π) (hcmd : ofValue value = .rxdata) :
    lpi2cCommand p x value = if !x.st.i2cRxFull && (x.owing value).st.i2cRxPending != 0 then
      i2cFetch p (x.owing value) else x.owing value := by
  unfold lpi2cCommand
  simp only [hcmd]
  rfl

lemma readMrdr_full {x : Device π} (hfull : x.st.i2cRxFull) :
    lpi2cReadMrdr p x = (mcxnFlexcommUpdateIrq p
      (if x.st.i2cRxPending = 0 then x.emptied else i2cFetch p x.emptied), x.st.i2cMrdr) := by
  unfold lpi2cReadMrdr
  rw [if_pos hfull]
  by_cases hpend : x.st.i2cRxPending = 0
  · simp only [hpend, ne_eq, not_true, if_false, if_true]
    rfl
  simp only [hpend, ne_eq, not_false_eq_true, if_true, if_false]
  unfold i2cFetch Device.emptied Device.modify
  rw [← hfull]

/-- `asked` bytes of all `RXDATA` commands; `kept` are the bytes `i2c_recv` produced
for them without the `dropped` ones that `MCR[RRF]` discarded, `seen` those that `MRDR`
returned.
`position` counts the commands that move the bus on, and `owed` has for each byte still
to be fetched the position it was asked at.  `strayed`: some byte was fetched at another
position; `overtaken`: some command moved the bus on over bytes still owed. -/
structure I2cLog where
  asked : ℕ
  kept : List Byte
  dropped : ℕ
  seen : List Byte
  position : ℕ
  owed : List ℕ
  (overtaken strayed : Bool)

def I2cLog.empty : I2cLog := ⟨0, [], 0, [], 0, [], false, false⟩

def I2cLog.note (w : I2cLog) (value : Word) : I2cEvent → I2cLog
  | .command cmd =>
    match ofValue cmd with
    | .rxdata =>
      { w with
        asked := w.asked + (countField cmd + 1)
        owed := w.owed ++ List.replicate (countField cmd + 1) w.position }
    | .start | .txdata | .stop =>
      { w with
        position := w.position + 1, overtaken := w.overtaken || !w.owed.isEmpty }
    | .other => w
  | .flush mcr =>
    if anyBit mcr lpi2cMcrRrf then
      { w with
        kept := w.kept.take w.seen.length, dropped := w.dropped + (w.kept.length - w.seen.length) }
    else w
  | .read =>
    if anyBit value lpi2cMrdrRxempty then w
    else { w with seen := w.seen ++ [value.setWidth 8] }
  | .peek => w

def I2cLog.fetch (w : I2cLog) (b : Byte) : I2cLog :=
  { w with
    kept := w.kept ++ [b], owed := w.owed.tail
    strayed := w.strayed || w.owed.head? != some w.position }

def streamStep (p : Peers π) (u : Device (π × List Byte) × I2cLog) (e : I2cEvent) :
    Device (π × List Byte) × I2cLog :=
  let next := i2cAccess p.recording u.1 e
  (next.1, (next.1.peers.2.drop u.1.peers.2.length).foldl I2cLog.fetch (u.2.note next.2 e))

def lookahead (s : FlexcommState) : List Byte := if s.i2cRxFull then [s.i2cMrdr.setWidth 8] else []

def KeepsCount (s : FlexcommState) : I2cEvent → Prop
  | .command value =>
    (ofValue value = .stop → s.i2cRxPending = 0) ∧
      (ofValue value = .rxdata → s.i2cRxPending.toNat + (countField value + 1) < 2 ^ 32)
  | .flush value => anyBit value lpi2cMcrRrf = true → s.i2cRxPending = 0
  | .read | .peek => True

structure Balanced (x : Device (π × List Byte)) (w : I2cLog) : Prop where
  mode : x.st.persel = .lpi2c
  enabled : anyBit x.st.i2cMcr lpi2cMcrMen = true
  byte : x.st.i2cMrdr = (x.st.i2cMrdr.setWidth 8).setWidth 32
  order : w.seen ++ lookahead x.st = w.kept
  count : w.asked = x.peers.2.length + x.st.i2cRxPending.toNat
  owed : w.owed.length = x.st.i2cRxPending.toNat
  place : w.overtaken = false → w.strayed = false ∧ ∀ t ∈ w.owed, t = w.position
  kept_sublist : w.kept.Sublist x.peers.2
  kept_length : w.kept.length + w.dropped = x.peers.2.length

structure Streams (x : Device (π × List Byte)) (w : I2cLog) : Prop extends Balanced x w where
  filled : x.st.i2cRxFull = false → x.st.i2cRxPending = 0

variable {p : Peers π} {x : Device (π × List Byte)} {w : I2cLog}

lemma Balanced.update (h : Balanced x w) : Balanced (mcxnFlexcommUpdateIrq p.recording x) w := by
  have hst := updateIrq_st (p := p.recording) x
  have hpeers : (mcxnFlexcommUpdateIrq p.recording x).peers.2 = x.peers.2 := updateIrq_watched x
  constructor
  · rw [hst]; exact h.mode
  · rw [hst]; exact h.enabled
  · rw [hst]; exact h.byte
  · rw [hst]; exact h.order
  · rw [hst, hpeers]; exact h.count
  · rw [hst]; exact h.owed
  · exact h.place
  · rw [hpeers]; exact h.kept_sublist
  · rw [hpeers]; exact h.kept_length

lemma Streams.update (h : Streams x w) : Streams (mcxnFlexcommUpdateIrq p.recording x) w := by
  refine ⟨h.toBalanced.update, ?_⟩
  rw [updateIrq_st]
  exact h.filled

lemma Balanced.fetch (h : Balanced x w) (hempty : x.st.i2cRxFull = false)
    (hpend : x.st.i2cRxPending ≠ 0) :
    Streams (i2cFetch p.recording x) (w.fetch (p.i2cRecv x.peers.1).2) := by
  have hpos : 0 < x.st.i2cRxPending.toNat := by
    by_contra hzero
    apply hpend
    apply eq_of_toNat_eq
    change x.st.i2cRxPending.toNat = 0
    omega
  have hless : (x.st.i2cRxPending - 1).toNat = x.st.i2cRxPending.toNat - 1 := by
    have hlt := x.st.i2cRxPending.isLt
    rw [toNat_sub]
    change (2 ^ 32 - 1 + x.st.i2cRxPending.toNat) % 2 ^ 32 = _
    omega
  have horder := h.order
  have hcount := h.count
  have howed := h.owed
  rw [lookahead, hempty, if_neg (by simp), append_nil] at horder
  have hround : ∀ b : Byte, ((b.setWidth 32).setWidth 8 : Byte) = b := by
    intro b
    apply eq_of_toNat_eq
    simp
  refine ⟨⟨h.mode, h.enabled, ?_, ?_, ?_, ?_, ?_, ?_, ?_⟩, nofun⟩
  · change ((p.i2cRecv x.peers.1).2.setWidth 32 : Word) = _
    rw [← hround (p.i2cRecv x.peers.1).2]
    rfl
  · change w.seen ++ [((p.i2cRecv x.peers.1).2.setWidth 32).setWidth 8] = w.kept ++ [_]
    rw [hround, horder]
  · change w.asked = (x.peers.2 ++ [_]).length + (x.st.i2cRxPending - 1).toNat
    rw [length_append, hless, length_singleton]
    omega
  · change w.owed.tail.length = (x.st.i2cRxPending - 1).toNat
    rw [length_tail, hless, howed]
  · intro hnot
    obtain ⟨hstrayed, hplace⟩ := h.place hnot
    have hhead : w.owed.head? = some w.position := by
      cases hlist : w.owed with
      | nil =>
        rw [hlist, length_nil] at howed
        omega
      | cons t rest => rw [List.head?_cons, hplace t (by simp [hlist])]
    refine ⟨?_, fun t ht => hplace t (mem_of_mem_tail ht)⟩
    change (w.strayed || w.owed.head? != some w.position) = false
    rw [hstrayed, hhead]
    simp
  · exact h.kept_sublist.append (.refl _)
  have hlength := h.kept_length
  change (w.kept ++ [_]).length + w.dropped = (x.peers.2 ++ [_]).length
  rw [length_append, length_append, length_singleton]
  omega

variable {u : Device (π × List Byte) × I2cLog}

lemma streamStep_eq (bytes : List Byte) (haccess : i2cAccess p.recording u.1 e = (y, value))
    (hpeers : y.peers.2 = u.1.peers.2 ++ bytes) :
    streamStep p u e = (y, bytes.foldl I2cLog.fetch (u.2.note value e)) := by
  unfold streamStep
  rw [haccess]
  dsimp only
  rw [hpeers, drop_left]

lemma Balanced.asked (h : Balanced x w)
    (hfits : x.st.i2cRxPending.toNat + (countField value + 1) < 2 ^ 32) :
    Balanced (x.owing value) { w with
        asked := w.asked + (countField value + 1)
        owed := w.owed ++ List.replicate (countField value + 1) w.position } ∧
    (x.owing value).st.i2cRxPending ≠ 0 := by
  have hbyte : countField value < 256 := by
    have hle : countField value ≤ lpi2cMtdrDataMask.toNat := by
      rw [countField, toNat_and]
      exact Nat.and_le_right
    have hmask : lpi2cMtdrDataMask.toNat = 255 := by decide
    omega
  have hsum : (x.owing value).st.i2cRxPending.toNat =
      x.st.i2cRxPending.toNat + (countField value + 1) := by
    have hdata : (((value &&& lpi2cMtdrDataMask).setWidth 8 : Byte).setWidth 32 :
        Word).toNat = countField value := by
      rw [toNat_setWidth, toNat_setWidth]
      change countField value % 2 ^ 8 % 2 ^ 32 = _
      omega
    change (x.st.i2cRxPending + (_ + 1)).toNat = _
    rw [toNat_add, toNat_add, hdata]
    change (_ + (countField value + 1) % 2 ^ 32) % 2 ^ 32 = _
    omega
  constructor
  · refine ⟨h.mode, h.enabled, h.byte, h.order, ?_, ?_, ?_, h.kept_sublist, h.kept_length⟩
    · have hcount := h.count
      change w.asked + _ = x.peers.2.length + (x.owing value).st.i2cRxPending.toNat
      rw [hsum]
      omega
    · rw [hsum, length_append, length_replicate, h.owed]
    intro hnot
    obtain ⟨hstrayed, hplace⟩ := h.place hnot
    refine ⟨hstrayed, fun t ht => ?_⟩
    rcases List.mem_append.mp ht with hold | hnew
    · exact hplace t hold
    · exact eq_of_mem_replicate hnew
  intro hzero
  rw [hzero] at hsum
  change 0 = _ at hsum
  omega

lemma streamStep_rxdata (hcmd : ofValue value = .rxdata)
    (hfits : u.1.st.i2cRxPending.toNat + (countField value + 1) < 2 ^ 32) (h : Streams u.1 u.2) :
    Streams (streamStep p u (.command value)).1 (streamStep p u (.command value)).2 := by
  obtain ⟨hasked, hsome⟩ := h.toBalanced.asked hfits
  have haccess := i2cAccess_eq p.recording h.mode (.command value)
  dsimp only at haccess
  rw [mcxnLpi2cWrite, if_pos h.enabled, command_rxdata _ _ hcmd] at haccess
  have hnote : ∀ v, u.2.note v (.command value) = { u.2 with
        asked := u.2.asked + (countField value + 1)
        owed := u.2.owed ++ List.replicate (countField value + 1) u.2.position } := by
    intro v
    simp only [I2cLog.note, hcmd]
  cases hfull : u.1.st.i2cRxFull with
  | true =>
    -- the lookahead is taken: the new bytes are only counted
    rw [hfull, if_neg (by simp)] at haccess
    rw [streamStep_eq [] haccess ((updateIrq_watched _).trans (append_nil _).symm), hnote]
    refine Streams.update ⟨hasked, fun hempty => ?_⟩
    exact absurd (hfull.symm.trans hempty) (by decide)
  | false =>
    rw [hfull, if_pos (by simpa using hsome)] at haccess
    rw [streamStep_eq [(p.i2cRecv u.1.peers.1).2] haccess (updateIrq_watched _), hnote]
    exact (hasked.fetch hfull hsome).update

lemma streamStep_read (h : Streams u.1 u.2) :
    Streams (streamStep p u .read).1 (streamStep p u .read).2 := by
  have haccess := i2cAccess_eq p.recording h.mode .read
  dsimp only at haccess
  cases hfull : u.1.st.i2cRxFull with
  | false =>
    rw [lpi2cReadMrdr, hfull, if_neg (by simp)] at haccess
    rw [streamStep_eq [] haccess (append_nil _).symm]
    have hempty : anyBit lpi2cMrdrRxempty lpi2cMrdrRxempty := by decide
    simp only [I2cLog.note, hempty, if_true]
    exact h
  | true =>
    rw [readMrdr_full _ hfull] at haccess
    have hdata : anyBit u.1.st.i2cMrdr lpi2cMrdrRxempty = false := by
      have hbit : lpi2cMrdrRxempty = BitVec.twoPow 32 14 := by decide
      rw [h.byte, hbit]
      exact anyBit_dataByte _ (by omega)
    have hnote : u.2.note u.1.st.i2cMrdr .read =
        { u.2 with seen := u.2.seen ++ [u.1.st.i2cMrdr.setWidth 8] } := by
      simp only [I2cLog.note, hdata, Bool.false_eq_true, if_false]
    -- the byte has gone out and the lookahead is free
    have hout : Balanced u.1.emptied
        { u.2 with seen := u.2.seen ++ [u.1.st.i2cMrdr.setWidth 8] } := by
      refine ⟨h.mode, h.enabled, h.byte, ?_, h.count, h.owed, h.place, h.kept_sublist,
        h.kept_length⟩
      have horder := h.order
      rw [lookahead, hfull, if_pos rfl] at horder
      change u.2.seen ++ [_] ++ [] = u.2.kept
      rw [append_nil, horder]
    by_cases hpend : u.1.st.i2cRxPending = 0
    · rw [if_pos hpend] at haccess
      rw [streamStep_eq [] haccess ((updateIrq_watched _).trans (append_nil _).symm), hnote]
      exact Streams.update ⟨hout, fun _ => hpend⟩
    rw [if_neg hpend] at haccess
    rw [streamStep_eq [(p.i2cRecv u.1.peers.1).2] haccess (updateIrq_watched _), hnote]
    exact (hout.fetch rfl hpend).update

structure StreamKept (value : Word) (x y : Device (π × List Byte)) : Prop where
  mode : y.st.persel = x.st.persel
  mcr : y.st.i2cMcr = x.st.i2cMcr
  mrdr : y.st.i2cMrdr = x.st.i2cMrdr
  full : y.st.i2cRxFull = x.st.i2cRxFull
  pending : y.st.i2cRxPending = if ofValue value = .stop then 0 else x.st.i2cRxPending
  recorded : y.peers.2 = x.peers.2
  notRxdata : ofValue value ≠ .rxdata

lemma command_stream (x : Device (π × List Byte)) (hcmd : ofValue value ≠ .rxdata) :
    StreamKept value x (lpi2cCommand p.recording x value) := by
  unfold lpi2cCommand
  cases hvalue : ofValue value with
  | rxdata => exact absurd hvalue hcmd
  | stop | other => exact ⟨rfl, rfl, rfl, rfl, by rw [hvalue]; rfl, rfl, hcmd⟩
  | start | txdata =>
    dsimp only
    split
    · exact ⟨rfl, rfl, rfl, rfl, by rw [hvalue]; rfl, rfl, hcmd⟩
    · exact ⟨rfl, rfl, rfl, rfl, by rw [hvalue]; rfl, rfl, hcmd⟩

lemma StreamKept.streams (hkept : StreamKept value x y) (hcount : KeepsCount x.st (.command value))
    (h : Streams x w) : Streams y (w.note 0 (.command value)) := by
  have hpend : y.st.i2cRxPending = x.st.i2cRxPending := by
    rw [hkept.pending]
    split
    next hstop => exact (hcount.1 hstop).symm
    · rfl
  have hsame : Balanced y w := by
    constructor
    · rw [hkept.mode]; exact h.mode
    · rw [hkept.mcr]; exact h.enabled
    · rw [hkept.mrdr]; exact h.byte
    · rw [lookahead, hkept.full, hkept.mrdr]; exact h.order
    · rw [hkept.recorded, hpend]; exact h.count
    · rw [hpend]; exact h.owed
    · exact h.place
    · rw [hkept.recorded]; exact h.kept_sublist
    · rw [hkept.recorded]; exact h.kept_length
  have hfilled : y.st.i2cRxFull = false → y.st.i2cRxPending = 0 := by
    rw [hkept.full, hpend]
    exact h.filled
  have hmoved : Streams y { w with
      position := w.position + 1
      overtaken := w.overtaken || !w.owed.isEmpty } := by
    refine ⟨⟨hsame.mode, hsame.enabled, hsame.byte, hsame.order, hsame.count, hsame.owed,
      fun hnot => ?_, hsame.kept_sublist, hsame.kept_length⟩, hfilled⟩
    obtain ⟨hbefore, hnone⟩ := Bool.or_eq_false_iff.mp hnot
    have hnil : w.owed = [] := by simpa using hnone
    refine ⟨(h.place hbefore).1, fun t ht => ?_⟩
    change t ∈ w.owed at ht
    rw [hnil] at ht
    cases ht
  cases hvalue : ofValue value with
  | rxdata => exact absurd hvalue hkept.notRxdata
  | other => simpa only [I2cLog.note, hvalue] using ⟨hsame, hfilled⟩
  | _ => simpa only [I2cLog.note, hvalue] using hmoved

lemma Streams.flushed (h : Streams x w)
    (he : (I2cEvent.flush value).Enabled) (hkeeps : KeepsCount x.st (.flush value)) :
    Streams (x.modify fun s => lpi2cWriteMcr s value) (w.note 0 (.flush value)) := by
  obtain ⟨hmen, hrst⟩ := he
  have hwrite : lpi2cWriteMcr x.st value = { x.st with
        i2cMcr := value &&& ~~~(lpi2cMcrRtf ||| lpi2cMcrRrf)
        i2cRxFull := !anyBit value lpi2cMcrRrf && x.st.i2cRxFull } := by
    rw [lpi2cWriteMcr, hrst, if_neg (by simp)]
  have hen : anyBit (value &&& ~~~(lpi2cMcrRtf ||| lpi2cMcrRrf)) lpi2cMcrMen =
      true :=
    (anyBit_clear_of_disjoint (by decide) value).trans hmen
  unfold Device.modify
  dsimp only
  rw [hwrite, I2cLog.note]
  cases hrrf : anyBit value lpi2cMcrRrf with
  | false =>
    rw [if_neg (by simp), Bool.not_false, Bool.true_and]
    exact ⟨⟨h.mode, hen, h.byte, h.order, h.count, h.owed, h.place,
      h.kept_sublist, h.kept_length⟩, h.filled⟩
  | true =>
    have hnone : x.st.i2cRxPending = 0 := hkeeps hrrf
    have hread : w.kept.take w.seen.length = w.seen := by
      rw [← h.order]
      exact take_left
    rw [if_pos rfl, Bool.not_true, Bool.false_and]
    have hlength := h.kept_length
    have hle : w.seen.length ≤ w.kept.length := by
      rw [← h.order, length_append]
      omega
    refine ⟨⟨h.mode, hen, h.byte, ?_, h.count, h.owed, h.place,
      (take_sublist _ _).trans h.kept_sublist, ?_⟩, fun _ => hnone⟩
    · change w.seen ++ [] = w.kept.take w.seen.length
      rw [append_nil, hread]
    change (w.kept.take w.seen.length).length +
      (w.dropped + (w.kept.length - w.seen.length)) = x.peers.2.length
    rw [hread]
    omega

lemma streamStep_streams (he : e.Enabled) (hkeeps : KeepsCount u.1.st e) (h : Streams u.1 u.2) :
    Streams (streamStep p u e).1 (streamStep p u e).2 := by
  have haccess := i2cAccess_eq p.recording h.mode e
  cases e with
  | read => exact streamStep_read h
  | peek =>
    rw [streamStep_eq [] haccess (append_nil _).symm]
    exact h
  | flush value =>
    dsimp only at haccess
    rw [mcxnLpi2cWrite] at haccess
    rw [streamStep_eq [] haccess ((updateIrq_watched _).trans (append_nil _).symm)]
    exact (h.flushed he hkeeps).update
  | command value =>
    by_cases hcmd : ofValue value = .rxdata
    · exact streamStep_rxdata hcmd (hkeeps.2 hcmd) h
    have hstream := command_stream (p := p) u.1 hcmd
    dsimp only at haccess
    rw [mcxnLpi2cWrite, if_pos h.enabled] at haccess
    rw [streamStep_eq [] haccess (((updateIrq_watched _).trans hstream.recorded).trans
      (append_nil _).symm)]
    exact (hstream.streams hkeeps h).update

structure StreamExact (p : Peers π) (x : Device (π × List Byte)) (w : I2cLog) : Prop where
  order : w.seen ++ lookahead x.st = w.kept
  kept_sublist : w.kept.Sublist x.peers.2
  kept_length : w.kept.length + w.dropped = x.peers.2.length
  count : w.asked = x.peers.2.length + x.st.i2cRxPending.toNat
  settled : (mcxnLpuartRead p.recording x 0x870).2 = lpi2cMrdrRxempty → w.asked = x.peers.2.length
  peek : mcxnLpuartRead p.recording x 0x878 = (x, (mcxnLpuartRead p.recording x 0x870).2)
  place : w.overtaken = false → w.strayed = false
  flush : ∀ value, (I2cEvent.flush value).Enabled → KeepsCount x.st (.flush value) →
    anyBit value lpi2cMcrRrf = true →
    lookahead (i2cAccess p.recording x (.flush value)).1.st = [] ∧
      (i2cAccess p.recording x (.flush value)).1.st.i2cRxPending = 0

lemma Streams.exact (h : Streams x w) : StreamExact p x w := by
  have hread : mcxnLpuartRead p.recording x 0x870 = lpi2cReadMrdr p.recording x :=
    i2cAccess_eq p.recording h.mode .read
  have hpeek : mcxnLpuartRead p.recording x 0x878 =
      (x, if x.st.i2cRxFull then x.st.i2cMrdr else lpi2cMrdrRxempty) :=
    i2cAccess_eq p.recording h.mode .peek
  have hvalue : (lpi2cReadMrdr p.recording x).2 =
      if x.st.i2cRxFull then x.st.i2cMrdr else lpi2cMrdrRxempty := by
    unfold lpi2cReadMrdr
    split <;> rfl
  constructor
  case order => exact h.order
  case kept_sublist => exact h.kept_sublist
  case kept_length => exact h.kept_length
  case count => exact h.count
  case settled =>
    intro hempty
    have hcount := h.count
    rw [hread, hvalue] at hempty
    cases hfull : x.st.i2cRxFull with
    | false => rwa [h.filled hfull] at hcount
    | true =>
      rw [hfull, if_pos rfl, h.byte] at hempty
      have hbit : lpi2cMrdrRxempty = BitVec.twoPow 32 14 := by decide
      have hclear := anyBit_dataByte (x.st.i2cMrdr.setWidth 8) (k := 14) (by omega)
      rw [hempty, hbit] at hclear
      exact absurd hclear (by decide)
  case peek => rw [hpeek, hread, hvalue]
  case place => exact fun hnot => (h.place hnot).1
  case flush =>
    intro value he hkeeps hrrf
    have hnone : x.st.i2cRxPending = 0 := hkeeps hrrf
    have hwrite := i2cAccess_eq p.recording h.mode (.flush value)
    dsimp only at hwrite
    rw [mcxnLpi2cWrite] at hwrite
    rw [hwrite]
    dsimp only
    rw [updateIrq_st]
    have hmcr : lpi2cWriteMcr x.st value = { x.st with
          i2cMcr := value &&& ~~~(lpi2cMcrRtf ||| lpi2cMcrRrf)
          i2cRxFull := false } := by
      rw [lpi2cWriteMcr, he.2, if_neg (by simp), hrrf]
      rfl
    unfold Device.modify
    dsimp only
    rw [hmcr]
    exact ⟨rfl, hnone⟩

structure FreshI2c (x : Device (π × List Byte)) : Prop where
  mode : x.st.persel = .lpi2c
  enabled : anyBit x.st.i2cMcr lpi2cMcrMen = true
  byte : x.st.i2cMrdr = (x.st.i2cMrdr.setWidth 8).setWidth 32
  full : x.st.i2cRxFull = false
  pending : x.st.i2cRxPending = 0
  recorded : x.peers.2 = []

lemma FreshI2c.streams (h : FreshI2c x) : Streams x .empty where
  mode := h.mode
  enabled := h.enabled
  byte := h.byte
  order := by rw [lookahead, h.full]; rfl
  count := by rw [h.recorded, h.pending]; rfl
  owed := by rw [h.pending]; rfl
  place _ := ⟨rfl, nofun⟩
  kept_sublist := nil_sublist _
  kept_length := by rw [h.recorded]; rfl
  filled _ := h.pending

/-- The receive stream is exact in every run in which neither `STOP` nor `RRF` comes
while bytes are still to be fetched and the count does not wrap. -/
theorem lpi2c_stream_exact (hfresh : FreshI2c x) {events : List I2cEvent}
    (hadmits : Admits (streamStep p) (fun u e => e.Enabled ∧ KeepsCount u.1.st e)
      (x, .empty) events) :
    StreamExact p (run (streamStep p) (x, .empty) events).1
      (run (streamStep p) (x, .empty) events).2 := by
  have hend := run_invariant_of_admits
    (P := fun u : Device (π × List Byte) × I2cLog => Streams u.1 u.2)
    (fun _ _ hguard h => streamStep_streams hguard.1 hguard.2 h) hfresh.streams hadmits
  exact hend.exact

def countingTarget : DataPeers ℕ where
  spiCs q _ := q
  ssiTransfer := none
  i2cStartTransfer q _ _ := (q, false)
  i2cSend q _ := (q, false)
  i2cRecv q := (q + 1, BitVec.ofNat 8 q)
  i2cEndTransfer q := q
  chrWriteAll q _ := q
  chrAcceptInput q := (q, [])

def i2cEnabled : Device (ℕ × List Byte) :=
  mcxnLpuartWrite countingTarget.alone.recording
    (mcxnLpuartWrite countingTarget.alone.recording (Device.powerOn (0x40, []))
      lpflexcommPselid perselLpi2c) 0x810 lpi2cMcrMen

lemma i2cEnabled_fresh : FreshI2c i2cEnabled := by
  constructor <;> decide +kernel

def readTwo : List I2cEvent := [.command 0x4A1, .command 0x101, .read, .read, .command 0x200]

theorem lpi2c_stream_exact_readTwo : StreamExact countingTarget.alone
      (run (streamStep countingTarget.alone) (i2cEnabled, .empty) readTwo).1
      (run (streamStep countingTarget.alone) (i2cEnabled, .empty) readTwo).2 := by
  have hadmits : Admits (streamStep countingTarget.alone)
      (fun u e => e.Enabled ∧ KeepsCount u.1.st e) (i2cEnabled, .empty) readTwo :=
    ⟨⟨trivial, by decide +kernel, by decide +kernel⟩,
      ⟨trivial, by decide +kernel, by decide +kernel⟩, ⟨trivial, trivial⟩,
      ⟨trivial, trivial⟩, ⟨trivial, by decide +kernel, by decide +kernel⟩, trivial⟩
  exact lpi2c_stream_exact i2cEnabled_fresh hadmits

theorem lpi2c_stop_and_rrf_break_stream :
    ((run (streamStep countingTarget.alone) (i2cEnabled, .empty)
        [.command 0x4A1, .command 0x101, .command 0x200, .read, .read]).2.asked = 2 ∧
      (run (streamStep countingTarget.alone) (i2cEnabled, .empty)
        [.command 0x4A1, .command 0x101, .command 0x200, .read, .read]).2.seen = [0x40] ∧
      (mcxnLpuartRead countingTarget.alone.recording
        (run (streamStep countingTarget.alone) (i2cEnabled, .empty)
          [.command 0x4A1, .command 0x101, .command 0x200, .read, .read]).1 0x870).2 =
        lpi2cMrdrRxempty) ∧
    (run (streamStep countingTarget.alone) (i2cEnabled, .empty)
      [.command 0x4A1, .command 0x101, .flush 0x201, .command 0x100, .read,
        .read]).2.seen.length = 2 := by
  refine ⟨⟨?_, ?_, ?_⟩, ?_⟩ <;> decide +kernel

end Mcxn947.Flexcomm
