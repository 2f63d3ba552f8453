import Mcxn947.AlignedBlocks
import Mcxn947.ScatterLists
import Mcxn947.UsdhcTransfer

/-!
# ADMA2 moves what simple DMA moves

Both kinds of DMA exchange bytes with the card in order; they differ in the address of each
byte.
-/

namespace Mcxn947.Usdhc

open MachineWords GuestMemory List Function

variable {κ : Type} (bus : SdBus κ)

def cardBytes (card : κ) (n : ℕ) : List Byte := (List.range n).map (bus.readData card n).1

@[simp] lemma length_cardBytes (card : κ) (n : ℕ) : (cardBytes bus card n).length = n := by
  simp [cardBytes]

/-- The card moves bytes one after the other: two transfers do what one of their sum does. -/
structure ByteStream : Prop where
  readCard : ∀ card n k, (bus.readData card (n + k)).2 = (bus.readData (bus.readData card n).2 k).2
  readBytes : ∀ card n k, cardBytes bus card (n + k) =
    cardBytes bus card n ++ cardBytes bus (bus.readData card n).2 k
  readNone : ∀ card, (bus.readData card 0).2 = card
  writeNone : ∀ card, bus.writeData card [] = card
  writeMore : ∀ card first second, bus.writeData card (first ++ second) =
    bus.writeData (bus.writeData card first) second

def transferAlong (read : Bool) (w : Wire κ) (addrs : List ℕ) : Wire κ :=
  if read then
    { w with
      card := (bus.readData w.card addrs.length).2
      mem := scatter w.mapped w.mem (addrs.zip (cardBytes bus w.card addrs.length))
      exchanged := w.exchanged + addrs.length }
  else
    { w with
      card := bus.writeData w.card (addrs.map w.mem), exchanged := w.exchanged + addrs.length }

/-- The card moves all the bytes of a transfer along `addrs` and the emulator runs on. -/
def CardMoves (read : Bool) (w : Wire κ) (addrs : List ℕ) : Prop :=
  bus.running (if read then (bus.readData w.card addrs.length).2
    else bus.writeData w.card (addrs.map w.mem)) = true

variable (read : Bool)

@[simp] lemma transferAlong_mapped (w : Wire κ) (addrs : List ℕ) :
    (transferAlong bus read w addrs).mapped = w.mapped := by
  cases read <;> rfl

variable {addrs : List ℕ}

lemma transferAlong_mem_of_notMem (w : Wire κ) {a : ℕ}
    (h : a ∉ addrs) : (transferAlong bus read w addrs).mem a = w.mem a := by
  cases read with
  | false => rfl
  | true =>
    apply scatter_apply_of_notMem
    rwa [map_fst_zip (by simp)]

section Stream

variable {bus} (hbus : ByteStream bus)
include hbus

variable (read : Bool)

lemma transferAlong_nil (w : Wire κ) : transferAlong bus read w [] = w := by
  cases read with
  | false => simp [transferAlong, hbus.writeNone]
  | true => simp [transferAlong, hbus.readNone, scatter]

lemma transferAlong_append (w : Wire κ) (first second : List ℕ) :
    transferAlong bus read w (first ++ second) =
      transferAlong bus read (transferAlong bus read w first) second := by
  cases read with
  | false => simp [transferAlong, hbus.writeMore, Nat.add_assoc]
  | true =>
    simp only [transferAlong, if_true, length_append, hbus.readCard, hbus.readBytes, Nat.add_assoc]
    rw [zip_append (by simp), scatter_append]

omit hbus in
lemma movePiece_along (w : Wire κ) (addr n : ℕ) :
    movePiece bus read w addr n = transferAlong bus read w (List.range' addr n) := by
  cases read with
  | false =>
    have hbytes : load w.mem addr n = (List.range' addr n).map w.mem := by
      rw [range'_eq_map_range, List.map_map]
      rfl
    simp [movePiece, transferAlong, hbytes]
  | true =>
    have hmem : scatter w.mapped w.mem
        ((List.range' addr (cardBytes bus w.card n).length).zip (cardBytes bus w.card n)) = _ :=
      scatter_range' w.mem addr (cardBytes bus w.card n)
    rw [length_cardBytes] at hmem
    simp only [movePiece, transferAlong, if_true, length_range', hmem]
    rfl

lemma moveLoop_along : ∀ fuel (w : Wire κ) addr len, len ≤ fuel →
      moveLoop bus read fuel w addr len = transferAlong bus read w (List.range' addr len) := by
  intro fuel
  induction fuel with
  | zero =>
    intro w addr len hlen
    rw [Nat.le_zero.mp hlen, range'_zero, transferAlong_nil hbus]
    rfl
  | succ fuel ih =>
    intro w addr len hlen
    rw [moveLoop]
    by_cases hzero : len = 0
    · rw [if_pos hzero, hzero, range'_zero, transferAlong_nil hbus]
    rw [if_neg hzero, ih _ _ _ (by omega), movePiece_along,
      ← transferAlong_append hbus, range'_append_1, Nat.add_sub_cancel' (Nat.min_le_right 512 len)]

lemma moveBytes_along (w : Wire κ) (addr len : ℕ) :
    moveBytes bus read w addr len = transferAlong bus read w (List.range' addr len) :=
  moveLoop_along hbus read len w addr len le_rfl

end Stream

inductive Entry
  | tran (target len : ℕ)
  | link (target : ℕ)
  | nop

@[simp] def Entry.segment : Entry → List ℕ
  | .tran target len => List.range' target len
  | .link _ => []
  | .nop => []

def Entry.next (desc : ℕ) : Entry → ℕ
  | .link target => target
  | .tran _ _ => desc + 8
  | .nop => desc + 8

def Entry.CanEnd : Entry → Prop
  | .link _ => False
  | .tran _ _ => True
  | .nop => True

def Entry.IsAt (w : Wire κ) (desc : ℕ) : Entry → Prop
  | .tran target len =>
    descAct w desc = admaActTran ∧ descLen w desc = len ∧
      (load32 w.mem (desc + 4)).toNat = target ∧ target % 4 = 0
  | .link target => descAct w desc = admaActLink ∧ descAddr w desc = target
  | .nop => descAct w desc ≠ admaActTran ∧ descAct w desc ≠ admaActLink

inductive Table (w : Wire κ) : ℕ → List (ℕ × Entry) → Prop
  | nil {desc : ℕ} : Table w desc []
  | cons {desc : ℕ} {e : Entry} {rest : List (ℕ × Entry)} : Usable w desc → e.IsAt w desc →
      (anyBit (descAttr w desc) admaEnd = true → e.CanEnd → rest = []) →
      Table w (e.next desc) rest → Table w desc ((desc, e) :: rest)

def segments (table : List (ℕ × Entry)) : List ℕ := table.flatMap fun d => d.2.segment

@[simp] lemma segments_nil : segments [] = [] := rfl

@[simp] lemma segments_cons (d : ℕ × Entry) (rest : List (ℕ × Entry)) :
    segments (d :: rest) = d.2.segment ++ segments rest := rfl

def ClearOfTable (table : List (ℕ × Entry)) : Prop :=
  ∀ d ∈ table, ∀ a ∈ segments table, ¬ Covers d.1 8 a

section Unchanged

variable {w w' : Wire κ} {desc : ℕ}

lemma descReadable_congr (hmapped : w'.mapped = w.mapped) :
    descReadable w' desc = descReadable w desc := by
  rw [descReadable, descReadable, hmapped]

section

variable (hmem : ∀ a, Covers desc 8 a → w'.mem a = w.mem a)
include hmem

lemma descWords_congr : load32 w'.mem desc = load32 w.mem desc ∧
      load32 w'.mem (desc + 4) = load32 w.mem (desc + 4) := by
  constructor
  · exact load32_congr fun a ha => hmem a ⟨ha.1, by have := ha.2; omega⟩
  · exact load32_congr fun a ha => hmem a ⟨by have := ha.1; omega, by have := ha.2; omega⟩

lemma Entry.IsAt.congr {e : Entry} (h : e.IsAt w desc) : e.IsAt w' desc := by
  obtain ⟨hlow, hhigh⟩ := descWords_congr hmem
  cases e with
  | tran target len => simpa only [IsAt, descAct, descAttr, descLen, hlow, hhigh] using h
  | link target => simpa only [IsAt, descAct, descAttr, descAddr, hlow, hhigh] using h
  | nop => simpa only [IsAt, descAct, descAttr, hlow] using h

end

lemma Table.congr {table : List (ℕ × Entry)} (hmapped : w'.mapped = w.mapped)
    (hmem : ∀ d ∈ table, ∀ a, Covers d.1 8 a → w'.mem a = w.mem a) (h : Table w desc table) :
    Table w' desc table := by
  induction h with
  | nil => exact .nil
  | @cons desc e rest husable hat hend _ ih =>
    have hhere := hmem (desc, e) mem_cons_self
    have hattr : descAttr w' desc = descAttr w desc := by
      rw [descAttr, descAttr, (descWords_congr hhere).1]
    refine .cons ⟨?_, ?_⟩ (hat.congr hhere) ?_ (ih fun d hd => hmem d (mem_cons_of_mem _ hd))
    · rw [descReadable_congr hmapped]
      exact husable.1
    · rw [hattr]
      exact husable.2
    · rw [hattr]
      exact hend

end Unchanged

lemma descAddr_of_aligned {w : Wire κ} {desc : ℕ} (h : (load32 w.mem (desc + 4)).toNat % 4 = 0) :
    descAddr w desc = (load32 w.mem (desc + 4)).toNat := by
  have hblock := AlignedBlocks.and_not_lowMask_toNat 2 (load32 w.mem (desc + 4))
  rw [AlignedBlocks.block] at hblock
  exact hblock.trans (by omega)

lemma Table.after_transfer {w : Wire κ} {desc next : ℕ} {e : Entry}
    {rest : List (ℕ × Entry)} (hrest : Table w next rest)
    (haddrs : ∀ a ∈ addrs, a ∈ e.segment) (hclear : ClearOfTable ((desc, e) :: rest)) :
    Table (transferAlong bus read w addrs) next rest := by
  apply hrest.congr (transferAlong_mapped bus read w addrs)
  intro d hd a ha
  apply transferAlong_mem_of_notMem
  intro hmem
  have hseg : a ∈ segments ((desc, e) :: rest) := by exact mem_append_left _ (haddrs a hmem)
  exact hclear d (mem_cons_of_mem _ hd) a hseg ha

lemma admaLoop_along (hbus : ByteStream bus) (read : Bool) :
    ∀ (table : List (ℕ × Entry)) guard (w : Wire κ) desc left, Table w desc table →
      table.length ≤ guard → left ≤ (segments table).length → ClearOfTable table →
      ∃ last, admaLoop bus read guard w desc left =
      (transferAlong bus read w ((segments table).take left), some last) := by
  intro table guard
  induction guard generalizing table with
  | zero =>
    intro w desc left _ hguard hleft _
    obtain rfl := List.length_eq_zero_iff.mp (Nat.le_zero.mp hguard)
    obtain rfl := Nat.le_zero.mp hleft
    exact ⟨desc, by rw [take_zero, transferAlong_nil hbus]; rfl⟩
  | succ guard ih =>
    intro w desc left htable hguard hleft hclear
    rw [admaLoop]
    by_cases hzero : left = 0
    · subst hzero
      exact ⟨desc, by rw [take_zero, transferAlong_nil hbus]; rfl⟩
    rw [if_neg hzero]
    cases htable with
    | nil => exact absurd (Nat.le_zero.mp hleft) hzero
    | @cons _ e rest husable hat hend hrest =>
    obtain ⟨hread, hvalid⟩ := husable
    have hguard' : rest.length ≤ guard := Nat.le_of_succ_le_succ hguard
    have hclear' : ClearOfTable rest := fun d hd a ha =>
      hclear d (mem_cons_of_mem _ hd) a (mem_append_right _ ha)
    simp only [hread, hvalid, Bool.not_true, Bool.false_eq_true, if_false]
    cases e with
    | tran target len =>
      obtain ⟨hact, hlen, htarget, halign⟩ := hat
      rw [← htarget] at halign
      rw [if_pos hact, hlen, descAddr_of_aligned halign, htarget, moveBytes_along hbus]
      have htake : (segments ((desc, .tran target len) :: rest)).take left =
          List.range' target (min len left) ++ (segments rest).take (left - min len left) := by
        have hfirst : (List.range' target len).take left = List.range' target (min len left) := by
          rw [range'_eq_map_range, range'_eq_map_range, ← map_take, take_range, Nat.min_comm]
        rw [segments_cons, take_append, Entry.segment, hfirst, length_range',
          show left - len = left - min len left by omega]
      rw [htake, transferAlong_append hbus]
      rw [segments_cons, length_append, Entry.segment, length_range'] at hleft
      cases hlast : anyBit (descAttr w desc) admaEnd with
      | true =>
        obtain rfl := hend hlast trivial
        exact ⟨desc, by rw [if_pos rfl, segments_nil, take_nil, transferAlong_nil hbus]⟩
      | false =>
        apply ih rest _ _ _ ?_ hguard' (by omega) hclear'
        refine Table.after_transfer bus read hrest ?_ hclear
        intro a ha
        rw [mem_range'_1] at ha
        rw [Entry.segment, mem_range'_1]
        omega
    | link target =>
      obtain ⟨hact, htarget⟩ := hat
      have hne : admaActLink ≠ admaActTran := by decide
      rw [hact, if_neg hne, if_pos rfl, htarget]
      exact ih rest w target left hrest hguard' hleft hclear'
    | nop =>
      obtain ⟨htran, hlink⟩ := hat
      rw [if_neg htran, if_neg hlink]
      cases hlast : anyBit (descAttr w desc) admaEnd with
      | true =>
        obtain rfl := hend hlast trivial
        exact absurd (Nat.le_zero.mp hleft) hzero
      | false => exact ih rest w (desc + 8) left hrest hguard' hleft hclear'

inductive AdmaWalk (κ : Type)
  | running (w : Wire κ) (desc moved guard fetched : ℕ)
  | ended (w : Wire κ) (desc : Option ℕ) (fetched : ℕ)

def admaIterate (read : Bool) (total : ℕ) : AdmaWalk κ → AdmaWalk κ
  | .ended w desc fetched => .ended w desc fetched
  | .running w desc moved guard fetched =>
    if total ≤ moved then .ended w (some desc) fetched
    else if 4096 < guard + 1 then .ended w none fetched
    else if !descReadable w desc then .ended w none (fetched + 1)
    else if !anyBit (descAttr w desc) admaValid then .ended w none (fetched + 1)
    else if descAct w desc = admaActTran then
      let n := min (descLen w desc) (total - moved)
      let w' := moveBytes bus read w (descAddr w desc) n
      if anyBit (descAttr w desc) admaEnd then .ended w' (some desc) (fetched + 1)
      else .running w' (desc + 8) (moved + n) (guard + 1) (fetched + 1)
    else if descAct w desc = admaActLink then
      .running w (descAddr w desc) moved (guard + 1) (fetched + 1)
    else if anyBit (descAttr w desc) admaEnd then .ended w (some desc) (fetched + 1)
    else .running w (desc + 8) moved (guard + 1) (fetched + 1)

lemma admaIterate_ended (total : ℕ) (w : Wire κ) (desc : Option ℕ) (fetched n : ℕ) :
    (admaIterate bus read total)^[n] (.ended w desc fetched) = .ended w desc fetched :=
  iterate_fixed rfl n

lemma admaIterate_ends (total : ℕ) : ∀ left guard (w : Wire κ) desc moved, guard + left = 4096 →
      ∃ fetched ≤ 4096, (admaIterate bus read total)^[left + 1]
      (.running w desc moved guard guard) = .ended (admaLoop bus read left w desc (total - moved)).1
      (admaLoop bus read left w desc (total - moved)).2 fetched := by
  intro left
  induction left with
  | zero =>
    intro guard w desc moved hguard
    refine ⟨guard, by omega, ?_⟩
    by_cases hdone : total ≤ moved
    · simp [admaIterate, admaLoop, hdone, Nat.sub_eq_zero_of_le hdone]
    · have hleft : total - moved ≠ 0 := by omega
      simp [admaIterate, admaLoop, hdone, hleft, show 4096 < guard + 1 by omega]
  | succ left ih =>
    intro guard w desc moved hguard
    rw [iterate_succ_apply, admaIterate, admaLoop]
    by_cases hdone : total ≤ moved
    · rw [if_pos hdone, admaIterate_ended, if_pos (Nat.sub_eq_zero_of_le hdone)]
      exact ⟨guard, by omega, rfl⟩
    rw [if_neg hdone, if_neg (by omega : ¬ 4096 < guard + 1),
      if_neg (by omega : ¬ total - moved = 0)]
    -- either the turn ends the loop, or one more descriptor has been fetched
    have hstop : ∀ (w' : Wire κ) (d : Option ℕ), ∃ fetched ≤ 4096,
        (admaIterate bus read total)^[left + 1] (.ended w' d (guard + 1)) =
          .ended w' d fetched := fun w' d =>
      ⟨guard + 1, by omega, admaIterate_ended bus read total w' d (guard + 1) (left + 1)⟩
    have hgo : ∀ (w' : Wire κ) d moved', ∃ fetched ≤ 4096,
        (admaIterate bus read total)^[left + 1] (.running w' d moved' (guard + 1) (guard + 1)) =
          .ended (admaLoop bus read left w' d (total - moved')).1
            (admaLoop bus read left w' d (total - moved')).2 fetched := fun w' d moved' =>
      ih (guard + 1) w' d moved' (by omega)
    dsimp only
    split_ifs
    · exact hstop w none
    · exact hstop w none
    · exact hstop _ (some desc)
    · rw [Nat.sub_sub]
      exact hgo _ _ _
    · exact hgo _ _ _
    · exact hstop w (some desc)
    · exact hgo _ _ _

/-- A table that serves a walk of `total` bytes: reached within 4096 steps, with enough bytes,
its segments apart from each other and from the table. -/
structure Serves (w : Wire κ) (desc total : ℕ) (table : List (ℕ × Entry)) : Prop where
  entries : Table w desc table
  reached : table.length ≤ 4096
  enough : total ≤ (segments table).length
  clear : ClearOfTable table
  apart : (segments table).Nodup

/-- From `w` to `w'` the card and the memory exchange byte `i` at the `i`-th of `addrs`, and
nothing else changes. -/
structure MovedAlong (read : Bool) (w w' : Wire κ) (addrs : List ℕ) : Prop where
  running : bus.running w'.card = true
  exchanged : w'.exchanged = w.exchanged + addrs.length
  fromCard : read = true → w'.card = (bus.readData w.card addrs.length).2 ∧
    ∀ i (hi : i < addrs.length), w.mapped addrs[i] = true →
      w'.mem addrs[i] = (bus.readData w.card addrs.length).1 i
  toCard : read = false → w'.card = bus.writeData w.card (addrs.map w.mem)
  others : ∀ a, read = false ∨ a ∉ addrs → w'.mem a = w.mem a

lemma transferAlong_moved_iff (w : Wire κ) (hnodup : addrs.Nodup) :
    MovedAlong bus read w (transferAlong bus read w addrs) addrs ↔ CardMoves bus read w addrs := by
  have hruns : bus.running (transferAlong bus read w addrs).card = true ↔
      CardMoves bus read w addrs := by
    cases read <;> exact Iff.rfl
  refine ⟨fun h => hruns.mp h.running, fun h => ⟨hruns.mpr h, ?_, ?_, ?_, ?_⟩⟩
  · cases read <;> rfl
  · rintro rfl
    refine ⟨rfl, fun i hi hmapped => ?_⟩
    have hfst : (addrs.zip (cardBytes bus w.card addrs.length)).map Prod.fst = addrs :=
      map_fst_zip (by simp)
    apply scatter_apply_of_mem (by rwa [hfst]) _ hmapped
    rw [mem_iff_getElem]
    exact ⟨i, by simpa using hi, by simp [cardBytes]⟩
  · rintro rfl
    rfl
  intro a ha
  rcases ha with rfl | hnot
  · rfl
  · exact transferAlong_mem_of_notMem bus read w hnot

/-- The walk over `table` moves `total` bytes along its segments without an error, and simple
DMA of as many bytes, with the same card and data, leaves the card in the same state. -/
structure EqualsSdma (u : Controller κ) (total : ℕ) (table : List (ℕ × Entry)) : Prop where
  status : (mcxnUsdhcDoAdma2 bus read u total).st.regs rIntStatus = u.st.regs rIntStatus
  moved : MovedAlong bus read u.wire (mcxnUsdhcDoAdma2 bus read u total).wire
    ((segments table).take total)
  sdma : ∀ v : Controller κ, v.wire.card = u.wire.card →
    (read = false → load v.wire.mem (v.st.regs rDsAddr).toNat total =
      ((segments table).take total).map u.wire.mem) →
    MovedAlong bus read v.wire (sdmaTransfer bus read v total).wire
        (List.range' (v.st.regs rDsAddr).toNat total) ∧
      (sdmaTransfer bus read v total).wire.card = (mcxnUsdhcDoAdma2 bus read u total).wire.card

/-- An ADMA2 walk exchanges with the card what simple DMA exchanges, byte `i` at the `i`-th
address of its segments, just when the card moves all the bytes; and whatever the memory
holds, the loop ends after 4096 descriptors at most. -/
theorem adma2_equals_sdma_iff (hbus : ByteStream bus) (read : Bool) (u : Controller κ) (total : ℕ) :
    (∀ table, Serves u.wire (u.st.regs rAdmaSysAddr).toNat total table →
      (EqualsSdma bus read u total table ↔
        CardMoves bus read u.wire ((segments table).take total))) ∧
    ∀ desc, ∃ fetched ≤ 4096, (admaIterate bus read total)^[4097] (.running u.wire desc 0 0 0) =
      .ended (admaLoop bus read 4096 u.wire desc total).1
        (admaLoop bus read 4096 u.wire desc total).2 fetched := by
  constructor
  · intro table h
    obtain ⟨last, hwalk⟩ := admaLoop_along bus hbus read table 4096 u.wire _ total h.entries
      h.reached h.enough h.clear
    have hlength : ((segments table).take total).length = total := by
      rw [length_take, Nat.min_eq_left h.enough]
    have hwire : (mcxnUsdhcDoAdma2 bus read u total).wire =
        transferAlong bus read u.wire ((segments table).take total) := by
      rw [(doAdma2_spec bus read u total).1, hwalk]
    have hmoved := transferAlong_moved_iff bus read u.wire (h.apart.sublist (take_sublist total _))
    refine ⟨fun hequals => hmoved.mp (hwire ▸ hequals.moved), fun hcard => ⟨?_, ?_, ?_⟩⟩
    · rw [mcxnUsdhcDoAdma2, hwalk]
      simp [UsdhcState.setReg, show rIntStatus ≠ rAdmaSysAddr by decide]
    · rw [hwire]
      exact hmoved.mpr hcard
    intro v hsame hbuffer
    have hsdma : (sdmaTransfer bus read v total).wire =
        transferAlong bus read v.wire (List.range' (v.st.regs rDsAddr).toNat total) :=
      moveBytes_along hbus read v.wire _ total
    have hload : read = false → (List.range' (v.st.regs rDsAddr).toNat total).map v.wire.mem =
        ((segments table).take total).map u.wire.mem := by
      intro hout
      rw [← hbuffer hout, range'_eq_map_range, List.map_map]
      rfl
    rw [hsdma, hwire, transferAlong_moved_iff bus read v.wire nodup_range']
    cases read with
    | true =>
      simp only [CardMoves, transferAlong, if_true, length_range', hlength, hsame] at hcard ⊢
      exact ⟨hcard, trivial⟩
    | false =>
      simp only [CardMoves, transferAlong, Bool.false_eq_true, if_false, hsame,
        hload rfl] at hcard ⊢
      exact ⟨hcard, trivial⟩
  · intro desc
    exact admaIterate_ends bus read total 4096 0 u.wire desc 0 rfl

def countingBus : SdBus ℕ where
  doCommand := fun card _ _ => ([0, 0, 0, 0], card)
  readData := fun card n => (fun i => BitVec.ofNat 8 (card + i), card + n)
  writeData := fun card bytes => card + bytes.length
  inserted := fun _ => true
  running := fun _ => true

lemma countingBus_stream : ByteStream countingBus where
  readCard card n k := by simp [countingBus, Nat.add_assoc]
  readBytes card n k := by simp [cardBytes, countingBus, range_add, comp_def, Nat.add_assoc]
  readNone _ := rfl
  writeNone _ := rfl
  writeMore card first second := by simp [countingBus, Nat.add_assoc]

def linkedTable : List (ℕ × Entry) :=
  [(0x100, .tran 0x200 8), (0x108, .link 0x300), (0x300, .nop), (0x308, .tran 0x400 8)]

def linkedMem : Mem := fun a =>
  (([(0x100, 0x00080021), (0x104, 0x200), (0x108, 0x31), (0x10C, 0x300), (0x300, 0x01),
     (0x308, 0x00080023), (0x30C, 0x400)] : List (ℕ × Word)).lookup (a / 4 * 4)).elim 0
    fun word => (wordBytes word).getD (a % 4) 0

def linkedSetup : Controller ℕ :=
  ⟨(mcxnUsdhcReset ⟨⟨fun _ => 0, 0, 0, false, false⟩, ⟨0, linkedMem, fun _ => true, 0⟩, []⟩).st
    |>.setReg rAdmaSysAddr 0x100, ⟨0, linkedMem, fun _ => true, 0⟩, []⟩

theorem adma2_equals_sdma_linked :
    Serves linkedSetup.wire (linkedSetup.st.regs rAdmaSysAddr).toNat 12 linkedTable ∧
      EqualsSdma countingBus true linkedSetup 12 linkedTable := by
  have hserves :
      Serves linkedSetup.wire (linkedSetup.st.regs rAdmaSysAddr).toNat 12 linkedTable := by
    refine ⟨?_, by decide, by decide, ?_, by decide⟩
    · refine .cons ⟨by decide, by decide⟩ ⟨by decide, by decide, by decide, by decide⟩ ?_ ?_
      · exact fun h => absurd h (by decide)
      refine .cons ⟨by decide, by decide⟩ ⟨by decide, by decide⟩ (fun _ h => h.elim) ?_
      refine .cons ⟨by decide, by decide⟩ ⟨by decide, by decide⟩ ?_ ?_
      · exact fun h => absurd h (by decide)
      exact .cons ⟨by decide, by decide⟩ ⟨by decide, by decide, by decide, by decide⟩
        (fun _ _ => rfl) .nil
    intro d hd a ha
    simp only [linkedTable, segments, flatMap_cons, flatMap_nil, Entry.segment,
      append_nil, nil_append, mem_append, mem_range'_1] at ha
    simp only [linkedTable, mem_cons, not_mem_nil, or_false] at hd
    rcases hd with rfl | rfl | rfl | rfl <;> simp only [Covers] <;> omega
  exact ⟨hserves,
    ((adma2_equals_sdma_iff countingBus countingBus_stream true linkedSetup 12).1 _
      hserves).mpr rfl⟩

/-- A card that has `card` bytes left to its end under `READ_MULTIPLE_BLOCK`: asked for more,
it moves no byte and the emulator ends. -/
def lastBlocksBus : SdBus (Option ℕ) where
  doCommand := fun card _ _ => ([0, 0, 0, 0], card)
  readData := fun card n =>
    (fun i => card.elim 0 fun left => BitVec.ofNat 8 (left - i),
      card.bind fun left => if n ≤ left then some (left - n) else none)
  writeData := fun card _ => card
  inserted := fun _ => true
  running := fun card => card.isSome

lemma lastBlocksBus_stream : ByteStream lastBlocksBus where
  readCard card n k := by
    rcases card with _ | left
    · rfl
    by_cases hn : n ≤ left
    · simp [lastBlocksBus, hn, Nat.le_sub_iff_add_le hn, Nat.add_comm k, Nat.sub_sub]
    · simp [lastBlocksBus, hn, show ¬ n + k ≤ left by omega]
  readBytes card n k := by
    rcases card with _ | left
    · simp [cardBytes, lastBlocksBus, range_add, comp_def]
    by_cases hn : n ≤ left
    · simp [cardBytes, lastBlocksBus, range_add, comp_def, hn, Nat.sub_sub]
    · have hzero : ∀ j, left - (n + j) = 0 := by omega
      simp [cardBytes, lastBlocksBus, range_add, comp_def, hn, hzero]
  readNone card := by cases card <;> simp [lastBlocksBus]
  writeNone _ := rfl
  writeMore _ _ _ := rfl

def lastBlockSetup : Controller (Option ℕ) :=
  let mem := store32 (store32 (fun _ => 0) 0x100 0x04000023) 0x104 0x1000
  ⟨linkedSetup.st, ⟨some 512, mem, fun _ => true, 0⟩, []⟩

theorem read_past_last_block_aborts : ByteStream lastBlocksBus ∧
    Serves lastBlockSetup.wire (lastBlockSetup.st.regs rAdmaSysAddr).toNat 1024
        [(0x100, .tran 0x1000 1024)] ∧
      ¬ EqualsSdma lastBlocksBus true lastBlockSetup 1024 [(0x100, .tran 0x1000 1024)] := by
  refine ⟨lastBlocksBus_stream, ⟨?_, by decide, by simp, ?_, by simp [nodup_range']⟩, fun h => ?_⟩
  · exact .cons ⟨by decide, by decide⟩ ⟨by decide, by decide, by decide, by decide⟩
      (fun _ _ => rfl) .nil
  · intro d hd a ha
    obtain rfl := mem_singleton.mp hd
    simp only [segments_cons, segments_nil, Entry.segment, append_nil, mem_range'_1] at ha
    simp only [Covers]
    omega
  · have hrunning := h.moved.running
    revert hrunning
    decide +kernel

end Mcxn947.Usdhc
