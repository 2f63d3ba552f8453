import Mcxn947.InputmuxModel

/-!
# Trigger routing

A rising source should pulse the outputs whose selectors designate it, once each, and no
other output; and after reset no output at all until a selector is written.
-/

namespace Mcxn947.Inputmux

open MachineWords List BitVec Function Nat

def selector : TrigDest → MuxOffset
  | .adc adc t => adcTrig adc t
  | .dac t => dacTrig t
  | .cmp t => imCmpTrigOff t
  | .qdc t => qdcTrig t
  | .tsi => imTsiTrig

variable (s : InputMuxState) (d : TrigDest)

def field (width : ℕ) : ℕ := (mcxnInputmuxRead s (selector d)).toNat % 2 ^ width

def Designates6 (src : Fin 128) (d : TrigDest) : Prop := field s d 6 ≠ 0x3F ∧ field s d 6 = src

def Designates (src : Fin 128) : TrigDest → Prop
  | .adc adc t =>
    field s (.adc adc t) 7 ≠ 0x7F ∧ (if adc = 1 ∧ field s (.adc adc t) 7 = 8 then src = 96
      else if adc = 1 ∧ field s (.adc adc t) 7 = 9 then src = 97
      else field s (.adc adc t) 7 = src)
  | .tsi => field s .tsi 2 = 0 ∧ src = 50 ∨ field s .tsi 2 = 1 ∧ src = 51
  | d => Designates6 s src d

def allDests : List TrigDest :=
  ((List.finRange 2).flatMap fun adc => (List.finRange 4).map (.adc adc)) ++
    (List.finRange 3).map .dac ++ (List.finRange 3).map .cmp ++
    (List.finRange 2).map .qdc ++ [.tsi]

lemma mem_allDests : d ∈ allDests := by
  cases d <;> simp [allDests]

def routes (id : Word) : TrigDest → Bool
  | .adc adc t =>
    let sel := mcxnInputmuxRead s (adcTrig adc t) &&& imTrigSelMask
    sel != imTrigNone && imAdcSelToSrc adc sel == id
  | .tsi =>
    let sel := mcxnInputmuxRead s imTsiTrig &&& imTrig2Mask
    let phys := if sel = 0 then srcLptmr0
      else if sel = 1 then srcLptmr1 else imTrig2None
    sel != imTrig2None && phys == id
  | d => trig6Match s (selector d) id

lemma filterMap_ite {α β : Type} (l : List α) (f : α → β) (p : β → Bool) :
    (l.filterMap fun t => if p (f t) then some (f t) else none) = (l.map f).filter p := by
  induction l with
  | nil => rfl
  | cons t rest ih =>
    rw [filterMap_cons, map_cons, filter_cons]
    cases p (f t) with
    | true | false => simp [ih]

variable (src : Fin 128)

lemma trigger_eq_filter : mcxnInputmuxTrigger s src.val true =
      allDests.filter (routes s (BitVec.ofInt 32 src.val)) := by
  have hrange : (!true || decide ((src.val : ℤ) < 0) ||
      decide (ntrigSrc ≤ (src.val : ℤ))) = false := by
    simp [ntrigSrc]
  unfold mcxnInputmuxTrigger allDests
  rw [hrange]
  simp only [filter_append, filter_flatMap, ← filterMap_ite]
  simp only [routes, selector, filter_cons, filter_nil, Bool.false_eq_true, if_false]
  rfl

lemma allDests_nodup : allDests.Nodup := by decide

lemma toNat_and_mask (v : Word) {mask : Word} (width : ℕ) (hmask : mask.toNat = 2 ^ width - 1) :
    (v &&& mask).toNat = v.toNat % 2 ^ width := by
  rw [toNat_and, hmask, and_two_pow_sub_one_eq_mod]

lemma toNat_srcId : (BitVec.ofInt 32 (src.val : ℤ)).toNat = src.val := by
  rw [ofInt_natCast, toNat_ofNat]
  omega

lemma trig6Match_iff (d : TrigDest) : trig6Match s (selector d) (BitVec.ofInt 32 src.val) ↔
      Designates6 s src d := by
  have hsel := toNat_and_mask (mcxnInputmuxRead s (selector d)) 6
    (show imTrig6Mask.toNat = 2 ^ 6 - 1 from rfl)
  have hnone : imTrig6None.toNat = 0x3F := rfl
  simp only [trig6Match, Bool.and_eq_true, bne_iff_ne, ne_eq, beq_iff_eq,
    ← toNat_inj, hsel, hnone, toNat_srcId]
  rfl

variable {k : ℕ}

lemma word_eq_iff {w : Word} {value : ℕ} (hw : w.toNat = value)
    (hk : k < 2 ^ 32) : w = BitVec.ofNat 32 k ↔ value = k := by
  rw [← toNat_inj, toNat_ofNat, mod_eq_of_lt hk, hw]

lemma srcId_eq_iff {src : Fin 128} (hk : k < 128) :
    BitVec.ofNat 32 k = BitVec.ofInt 32 (src.val : ℤ) ↔ src = ⟨k, hk⟩ := by
  rw [eq_comm, word_eq_iff (toNat_srcId src) (by omega), Fin.ext_iff]

section

variable (src : Fin 128)

lemma routes_adc_iff (adc : Fin 2) (t : Fin 4) :
    routes s (BitVec.ofInt 32 src.val) (.adc adc t) ↔ Designates s src (.adc adc t) := by
  have hfield : (mcxnInputmuxRead s (adcTrig adc t) &&& imTrigSelMask).toNat =
      field s (.adc adc t) 7 :=
    toNat_and_mask _ 7 rfl
  have hid := toNat_srcId src
  simp only [routes, imAdcSelToSrc, Designates, Bool.and_eq_true, bne_iff_ne, ne_eq, beq_iff_eq]
  generalize mcxnInputmuxRead s (adcTrig adc t) &&& imTrigSelMask = sel at hfield ⊢
  generalize field s (.adc adc t) 7 = value at hfield ⊢
  have hnone : sel = imTrigNone ↔ value = 0x7F := word_eq_iff hfield (by decide)
  have height : sel = 8 ↔ value = 8 := word_eq_iff hfield (by decide)
  have hnine : sel = 9 ↔ value = 9 := word_eq_iff hfield (by decide)
  have hsame : sel = BitVec.ofInt 32 (src.val : ℤ) ↔ value = src.val := by
    rw [← toNat_inj, hfield, hid]
  have hctimer3 : srcCtimer3M2 = BitVec.ofInt 32 (src.val : ℤ) ↔ src = 96 :=
    srcId_eq_iff (by decide)
  have hctimer4 : srcCtimer4M1 = BitVec.ofInt 32 (src.val : ℤ) ↔ src = 97 :=
    srcId_eq_iff (by decide)
  rw [hnone]
  apply and_congr_right
  intro _
  simp only [height, hnine]
  by_cases hadc : adc = 1
  · simp only [hadc, true_and, if_true]
    split
    · exact hctimer3
    split
    · exact hctimer4
    · exact hsame
  · simp only [hadc, false_and, if_false]
    exact hsame

lemma routes_tsi_iff : routes s (BitVec.ofInt 32 src.val) .tsi ↔
      Designates s src .tsi ∨ field s .tsi 2 = 2 ∧ src = 3 := by
  have hfield : (mcxnInputmuxRead s imTsiTrig &&& imTrig2Mask).toNat =
      field s .tsi 2 :=
    toNat_and_mask _ 2 rfl
  have hlt : field s .tsi 2 < 4 := mod_lt _ (by decide)
  simp only [routes, Designates, Bool.and_eq_true, bne_iff_ne, ne_eq, beq_iff_eq]
  generalize mcxnInputmuxRead s imTsiTrig &&& imTrig2Mask = sel at hfield ⊢
  generalize field s .tsi 2 = value at hfield hlt ⊢
  have hnone : sel = imTrig2None ↔ value = 3 := word_eq_iff hfield (by decide)
  have hzero : sel = 0 ↔ value = 0 := word_eq_iff hfield (by decide)
  have hone : sel = 1 ↔ value = 1 := word_eq_iff hfield (by decide)
  have hlptmr0 : srcLptmr0 = BitVec.ofInt 32 (src.val : ℤ) ↔ src = 50 := srcId_eq_iff (by decide)
  have hlptmr1 : srcLptmr1 = BitVec.ofInt 32 (src.val : ℤ) ↔ src = 51 := srcId_eq_iff (by decide)
  have hcollide : imTrig2None = BitVec.ofInt 32 (src.val : ℤ) ↔ src = 3 := srcId_eq_iff (by decide)
  rw [hnone]
  simp only [hzero, hone]
  split
  · rw [hlptmr0]
    omega
  split
  · rw [hlptmr1]
    omega
  · rw [hcollide]
    omega

lemma mem_trigger_iff : d ∈ mcxnInputmuxTrigger s src.val true ↔
      routes s (BitVec.ofInt 32 src.val) d := by
  rw [trigger_eq_filter, mem_filter]
  exact and_iff_right (mem_allDests d)

lemma trigger_nodup : (mcxnInputmuxTrigger s src.val true).Nodup := by
  rw [trigger_eq_filter]
  exact allDests_nodup.filter _

end

lemma routes_iff {d : TrigDest} (hd : d ≠ .tsi) (s : InputMuxState) (src : Fin 128) :
    routes s (BitVec.ofInt 32 src.val) d ↔ Designates s src d := by
  cases d with
  | adc adc t => exact routes_adc_iff s src adc t
  | dac t => exact trig6Match_iff s src (.dac t)
  | cmp t => exact trig6Match_iff s src (.cmp t)
  | qdc t => exact trig6Match_iff s src (.qdc t)
  | tsi => exact absurd rfl hd

lemma trigger_exact_iff : (∀ d, d ∈ mcxnInputmuxTrigger s src.val true ↔ Designates s src d) ↔
      ¬ (field s .tsi 2 = 2 ∧ src = 3) := by
  constructor
  · rintro hexact ⟨hfield, hsrc⟩
    have htsi := hexact .tsi
    rw [mem_trigger_iff, routes_tsi_iff] at htsi
    have hdesignates := htsi.mp (Or.inr ⟨hfield, hsrc⟩)
    simp [Designates, hfield] at hdesignates
  intro hgood d
  rw [mem_trigger_iff]
  by_cases hd : d = .tsi
  · rw [hd, routes_tsi_iff]
    exact or_iff_left hgood
  · exact routes_iff hd s src

def IsSelector (offset : MuxOffset) : Prop := ∃ d, regIdx (selector d) = regIdx offset

def writeAll (s : InputMuxState) (writes : List (MuxOffset × Word)) :
    InputMuxState :=
  writes.foldl (fun s w => (mcxnInputmuxWrite s w.1 w.2).1) s

lemma selector_lt : (selector d).val < 0x700 := by
  cases d with
  | adc adc t =>
    simp only [selector, adcTrig]
    split <;> omega
  | dac t => simp only [selector, dacTrig]; omega
  | cmp t => revert t; decide
  | qdc t => simp only [selector, qdcTrig]; omega
  | tsi => decide

lemma read_write_selector {s : InputMuxState} {offset : MuxOffset} (v : Word)
    (hoffset : ¬ IsSelector offset) (d : TrigDest) :
    mcxnInputmuxRead (mcxnInputmuxWrite s offset v).1 (selector d) =
      mcxnInputmuxRead s (selector d) := by
  unfold mcxnInputmuxWrite
  split
  · apply update_of_ne
    have hlt := selector_lt d
    simp only [regIdx, reqEnable, ne_eq, Fin.mk.injEq]
    split <;> omega
  apply update_of_ne
  intro hsame
  exact hoffset ⟨d, hsame⟩

lemma read_writeAll_selector {writes : List (MuxOffset × Word)}
    (hwrites : ∀ w ∈ writes, ¬ IsSelector w.1) (s : InputMuxState) (d : TrigDest) :
    mcxnInputmuxRead (writeAll s writes) (selector d) = mcxnInputmuxRead s (selector d) := by
  induction writes generalizing s with
  | nil => rfl
  | cons w rest ih =>
    have hhere := hwrites w mem_cons_self
    have hrest : ∀ w ∈ rest, ¬ IsSelector w.1 := fun w hw =>
      hwrites w (mem_cons_of_mem _ hw)
    exact (ih hrest _).trans (read_write_selector w.2 hhere d)

def resetSelector : TrigDest → Word
  | .adc 0 _ => 0
  | .adc 1 _ => imTrigNone
  | .tsi => imTrig2None
  | _ => imTrig6None

lemma read_reset_selector : mcxnInputmuxRead mcxnInputmuxReset (selector d) = resetSelector d := by
  have hall : ∀ d ∈ allDests,
      mcxnInputmuxRead mcxnInputmuxReset (selector d) = resetSelector d := by
    decide
  exact hall d (mem_allDests d)

lemma routes_resetSelector {s : InputMuxState}
    (hs : ∀ d, mcxnInputmuxRead s (selector d) = resetSelector d) (src : Fin 128) (d : TrigDest) :
    routes s (BitVec.ofInt 32 src.val) d ↔ src = 0 ∧ ∃ t, d = .adc 0 t := by
  have hfield : ∀ d width, field s d width = (resetSelector d).toNat % 2 ^ width := by
    intro d width
    rw [field, hs]
  cases d with
  | adc adc t =>
    rw [routes_adc_iff]
    fin_cases adc
    · simp [Designates, hfield, resetSelector]
      omega
    · simp [Designates, hfield, resetSelector, imTrigNone]
  | dac t | cmp t | qdc t =>
    rw [routes_iff (by simp)]
    simp [Designates, Designates6, hfield, resetSelector, imTrig6None]
  | tsi =>
    rw [routes_tsi_iff]
    simp [Designates, hfield, resetSelector, imTrig2None]

lemma trigger_quiet_iff {s : InputMuxState}
    (hs : ∀ d, mcxnInputmuxRead s (selector d) = resetSelector d) (src : Fin 128) :
    mcxnInputmuxTrigger s src.val true = [] ↔ src ≠ 0 := by
  rw [eq_nil_iff_forall_not_mem]
  simp only [mem_trigger_iff, routes_resetSelector hs]
  constructor
  · intro hquiet hsrc
    exact hquiet (.adc 0 0) ⟨hsrc, 0, rfl⟩
  · intro hsrc d hroutes
    exact hsrc hroutes.1

/-- The router is exact but for the unused TSI selector, and the state after
reset is quiet but for source 0. -/
theorem trigger_routing_iff {writes : List (MuxOffset × Word)}
    (hwrites : ∀ w ∈ writes, ¬ IsSelector w.1) (src : Fin 128) :
    (((mcxnInputmuxTrigger s src.val true).Nodup ∧
        ∀ d, d ∈ mcxnInputmuxTrigger s src.val true ↔ Designates s src d) ↔
      ¬ (field s .tsi 2 = 2 ∧ src = 3)) ∧
    (mcxnInputmuxTrigger (writeAll mcxnInputmuxReset writes) src.val true = [] ↔ src ≠ 0) := by
  constructor
  · rw [and_iff_right (trigger_nodup s src)]
    exact trigger_exact_iff s src
  apply trigger_quiet_iff
  intro d
  exact (read_writeAll_selector hwrites _ d).trans (read_reset_selector d)

theorem trigger_routing_lptmr0 :
    TrigDest.tsi ∈ mcxnInputmuxTrigger (mcxnInputmuxReset.set imTsiTrig 0) 50 true ∧
    mcxnInputmuxTrigger (writeAll mcxnInputmuxReset []) 50 true = [] := by
  have h := trigger_routing_iff (mcxnInputmuxReset.set imTsiTrig 0) (forall_mem_nil _) 50
  have hexact := (h.1.mpr (by decide)).2
  exact ⟨(hexact .tsi).mpr (Or.inl (by decide)), h.2.mpr (by decide)⟩

theorem reset_routes_source_zero : mcxnInputmuxTrigger mcxnInputmuxReset 0 true =
      [.adc 0 0, .adc 0 1, .adc 0 2, .adc 0 3] ∧
    TrigDest.tsi ∈ mcxnInputmuxTrigger (mcxnInputmuxReset.set imTsiTrig 2) 3 true := by
  decide

end Mcxn947.Inputmux
