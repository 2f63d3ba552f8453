import Mcxn947.CtimerTimeBase

/-!
# Matches of the counter/timer

The host timer is armed for the soonest match that has an action, and its callback sets the
counter to the value of the match it takes for the one that is due.
-/

namespace Mcxn947.Ctimer

open MachineWords EventRuns RatedCounters List Option Nat CtimerState

def enabled (s : CtimerState) (n : Match) : Prop := anyBit s.mcr (mcrAny n) = true
deriving Decidable

lemma toNat_matchDistance (s : CtimerState) (n : Match) :
    (matchDistance s n).toNat = (s.mr n - s.tc).toNat := by
  have htc := s.tc.isLt
  have hwide : ∀ v : Word, (v.setWidth 64 : DoubleWord).toNat = v.toNat := by
    intro v
    rw [BitVec.toNat_setWidth]
    exact mod_eq_of_lt (v.isLt.trans (by decide))
  unfold matchDistance
  split
  · exact hwide _
  rename_i hlt
  rw [BitVec.le_def, Nat.not_le] at hlt
  have hle : (s.tc.setWidth 64 : DoubleWord) ≤ 0x100000000 := by exact htc.le
  rw [BitVec.toNat_add, BitVec.toNat_sub_of_le hle, hwide, hwide, BitVec.toNat_sub]
  show (2 ^ 32 - s.tc.toNat + (s.mr n).toNat) % 2 ^ 64 = _
  omega

def clocksTo (s : CtimerState) (n : Match) : ℕ := (s.mr n - s.tc).toNat * s.div - s.pc.toNat

structure OnTime (s : CtimerState) : Prop where
  ahead : ∀ n, enabled s n → s.pc.toNat < (s.mr n - s.tc).toNat * s.div
  fits : ∀ n, enabled s n → DelayFits s.clkHz.toNat (clocksTo s n)
  whole : ∀ n, enabled s n → (∀ m, enabled s m → clocksTo s n ≤ clocksTo s m) →
    WholeDelay s.clkHz.toNat (clocksTo s n)

variable {n : Match} {now : ℤ} {s' start : CtimerState} {e : Event} {s : CtimerState}

lemma OnTime.clocksTo_pos (h : OnTime s) (hn : enabled s n) : 0 < clocksTo s n :=
  Nat.sub_pos_of_lt (h.ahead n hn)

def Armed (s : CtimerState) : Prop := ctimerReschedule s s.baseNs = some s

section Deadline

open BitVec

variable {s : CtimerState}

lemma toNat_div (hpr : s.pr ≠ 0xFFFFFFFF) : ((s.pr + 1).setWidth 64).toNat = s.div := by
  have hlt := div_lt hpr
  rw [div] at hlt ⊢
  rw [toNat_setWidth, toNat_add]
  simp only [ofNat_eq_ofNat, toNat_ofNat]
  omega

variable {n : Match} {now : ℤ}

lemma nearerMatch_enabled (hclk : s.clkHz ≠ 0) (hpr : s.pr ≠ 0xFFFFFFFF) (h : OnTime s)
    (best : DoubleWord) (hn : enabled s n) :
    ∃ ns : DoubleWord, ns.toNat = delay s.clkHz.toNat (clocksTo s n) ∧
      nearerMatch s best n = some (if ns < best then ns else best) := by
  have hahead := h.ahead n hn
  have hprod : (matchDistance s n * (s.pr + 1).setWidth 64).toNat =
      (s.mr n - s.tc).toNat * s.div := by
    rw [toNat_mul, toNat_matchDistance, toNat_div hpr]
    apply mod_eq_of_lt
    calc (s.mr n - s.tc).toNat * s.div < 2 ^ 32 * 2 ^ 32 :=
          Nat.mul_lt_mul_of_lt_of_lt (s.mr n - s.tc).isLt (div_lt hpr)
      _ = 2 ^ 64 := by norm_num
  have hpc : (s.pc.setWidth 64 : DoubleWord).toNat = s.pc.toNat := by
    rw [toNat_setWidth]
    exact mod_eq_of_lt (s.pc.isLt.trans (by decide))
  have hless : (s.pc.setWidth 64 : DoubleWord) < matchDistance s n * (s.pr + 1).setWidth 64 := by
    rw [lt_def, hpc, hprod]
    exact hahead
  have hclocks : (matchDistance s n * (s.pr + 1).setWidth 64 - s.pc.setWidth 64).toNat =
      clocksTo s n := by
    rw [toNat_sub_of_le (BitVec.le_of_lt hless), hprod, hpc, clocksTo]
  obtain ⟨ns, hdiv, hns, -⟩ := udiv?_delay hclk (show DelayFits s.clkHz.toNat
      (matchDistance s n * (s.pr + 1).setWidth 64 - s.pc.setWidth 64).toNat by
        rw [hclocks]; exact h.fits n hn)
  rw [hclocks] at hns
  refine ⟨ns, hns, ?_⟩
  have hon : ¬ (!anyBit s.mcr (mcrAny n)) := by
    rw [show anyBit s.mcr (mcrAny n) = true from hn]
    decide
  rw [nearerMatch, if_neg hon]
  simp only [if_pos hless, hdiv]
  rfl

lemma armed_soonest (hclk : s.clkHz ≠ 0) (hpr : s.pr ≠ 0xFFFFFFFF) (harmed : Armed s)
    (h : OnTime s) (hrun : ctimerRunning s) :
    ∃ last : DoubleWord, (∀ n, enabled s n → last.toNat ≤ delay s.clkHz.toNat (clocksTo s n)) ∧
      (last = BitVec.allOnes 64 ∨
      ∃ n, enabled s n ∧ last.toNat = delay s.clkHz.toNat (clocksTo s n)) ∧
      s.timer = if last = BitVec.allOnes 64 then none
      else some (s.baseNs + (if last = 0 then 1 else last).toInt) := by
  obtain ⟨last, hfold, -, hall, hsome⟩ := foldlM_soonest
    (g := nearerMatch s) (W := enabled s) (d := fun n => delay s.clkHz.toNat (clocksTo s n))
    (fun best n hn => if_pos (by simpa [enabled] using hn))
    (fun best n hn => nearerMatch_enabled hclk hpr h best hn)
    (BitVec.allOnes 64) (List.finRange 4)
  rw [Armed, ctimerReschedule, if_neg (by rw [hrun]; decide)] at harmed
  simp only [hfold, bind_eq_bind, bind_some] at harmed
  refine ⟨last, fun n hn => hall n (mem_finRange n) hn, ?_, (congrArg timer (some.inj harmed)).symm⟩
  exact hsome.imp_right fun ⟨n, _, hn⟩ => ⟨n, hn⟩

lemma Armed.stopped (harmed : Armed s) (hstopped : ctimerRunning s = false) : s.timer = none := by
  have hnone : ctimerReschedule s s.baseNs = some { s with timer := none } :=
    if_pos (by rw [hstopped]; rfl)
  rw [Armed, hnone] at harmed
  exact (congrArg timer (some.inj harmed)).symm

section

variable (hclk : s.clkHz ≠ 0) (hpr : s.pr ≠ 0xFFFFFFFF) (harmed : Armed s) (h : OnTime s)
include hclk hpr harmed h

lemma deadline_eq (htimer : s.timer = some now) :
    ctimerRunning s = true ∧ ∃ n, enabled s n ∧ (∀ m, enabled s m → clocksTo s n ≤ clocksTo s m) ∧
      now = s.baseNs + delay s.clkHz.toNat (clocksTo s n) := by
  have hrun : ctimerRunning s := by
    by_contra hstopped
    rw [harmed.stopped (Bool.eq_false_iff.mpr hstopped)] at htimer
    exact absurd htimer (some_ne_none _).symm
  obtain ⟨last, hall, hsome, hdue⟩ := armed_soonest hclk hpr harmed h hrun
  rw [htimer] at hdue
  have hreal : last ≠ BitVec.allOnes 64 := by
    intro hlast
    rw [if_pos hlast] at hdue
    exact absurd hdue (some_ne_none _)
  obtain ⟨a, ha, hwait⟩ := hsome.resolve_left hreal
  -- of the matches that are due then, the one with the fewest clocks to go
  obtain ⟨n, hn, hleast⟩ := Finset.exists_min_image
    (Finset.univ.filter fun m => enabled s m) (clocksTo s) ⟨a, by simpa using ha⟩
  rw [Finset.mem_filter] at hn
  have hmin : ∀ m, enabled s m → clocksTo s n ≤ clocksTo s m := fun m hm =>
    hleast m (by simpa using hm)
  have hlast := le_antisymm (hall n hn.2) (by rw [hwait]; exact delay_mono (hmin a ha))
  refine ⟨hrun, n, hn.2, hmin, ?_⟩
  have hpos : last ≠ 0 := by
    intro hzero
    have hmul := (h.whole n hn.2 hmin).mul_delay
    rw [← hlast, hzero] at hmul
    exact absurd hmul (Nat.mul_pos (h.clocksTo_pos hn.2) second_pos).ne
  have hint := toInt_eq_toNat_of_lt (by rw [hlast]; have := (h.fits n hn.2).signed; omega)
  rw [if_neg hreal, if_neg hpos, hint, hlast] at hdue
  exact some.inj hdue

end

lemma advanced_clocksTo (h : s.pc.toNat < (s.mr n - s.tc).toNat * s.div) :
    advanced s.div s.tc s.pc (clocksTo s n) = (s.mr n, 0) := by
  have hsum : s.pc.toNat + clocksTo s n = (s.mr n - s.tc).toNat * s.div := by
    rw [clocksTo]
    omega
  rw [advanced, hsum, Nat.mul_div_cancel _ (div_pos s), mul_mod_left, BitVec.ofNat_toNat,
    BitVec.setWidth_eq]
  refine Prod.ext ?_ rfl
  rw [BitVec.add_comm, BitVec.sub_add_cancel]

section

variable (hclk : s.clkHz ≠ 0) (hpr : s.pr ≠ 0xFFFFFFFF) (harmed : Armed s) (h : OnTime s)
include hclk hpr harmed h

lemma arrives_at_deadline (htimer : s.timer = some now) :
    s.baseNs < now ∧ second ∣ s.clkHz.toNat * (now - s.baseNs).toNat ∧
      ProductFits s.clkHz.toNat (now - s.baseNs) ∧
      ∃ n, enabled s n ∧ ctimerPeek s now = some (s.mr n, 0) := by
  obtain ⟨hrun, n, hn, hmin, hnow⟩ := deadline_eq hclk hpr harmed h htimer
  have hwhole := h.whole n hn hmin
  have hmul := hwhole.mul_delay
  have hclocks := Nat.mul_pos (h.clocksTo_pos hn) second_pos
  have hlater : s.baseNs < now := by
    have : delay s.clkHz.toNat (clocksTo s n) ≠ 0 := by
      intro hzero
      rw [hzero, Nat.mul_zero] at hmul
      omega
    omega
  have helapsed : (now - s.baseNs).toNat = delay s.clkHz.toNat (clocksTo s n) := by omega
  have hfits : ProductFits s.clkHz.toNat (now - s.baseNs) := by
    rw [ProductFits, helapsed, hmul]
    exact (h.fits n hn).product
  refine ⟨hlater, ?_, hfits, n, hn, ?_⟩
  · rw [helapsed, hmul]
    exact Nat.dvd_mul_left _ _
  · rw [peek_advanced hrun hlater hpr hfits, helapsed, hwhole.ticks_delay,
      advanced_clocksTo (h.ahead n hn)]

end

end Deadline

def requestMatch (i : Fin 2) : Match := Fin.ofNat 4 i.val

structure Acted (hit : Match → Prop) [DecidablePred hit] (s s' : CtimerState) (ns : List Match) :
    Prop where
  others : s' = { s with
    ir := s'.ir, tcr := s'.tcr, dmaPulses := s'.dmaPulses, trigPulses := s'.trigPulses }
  flags : ∀ k, s'.ir.getLsbD k = (s.ir.getLsbD k ||
    decide (∃ n ∈ ns, n.val = k ∧ hit n ∧ anyBit s.mcr (mcrInt n) = true))
  triggers : ∀ n, s'.trigPulses n = s.trigPulses n + if n ∈ ns ∧ hit n then 1 else 0
  requests : ∀ i, s'.dmaPulses i =
    s.dmaPulses i + if requestMatch i ∈ ns ∧ hit (requestMatch i) then 1 else 0
  stays : (∀ n ∈ ns, hit n → anyBit s.mcr (mcrStop n) = false) → s'.tcr = s.tcr

lemma getLsbD_one_shiftLeft (n : Match) (k : ℕ) :
    (((1 <<< n.val : ℕ) : Word)).getLsbD k = decide (n.val = k) := by
  rw [BitVec.natCast_eq_ofNat, BitVec.getLsbD_ofNat, one_shiftLeft, testBit_two_pow]
  by_cases hk : n.val = k
  · have hlt : k < 32 := by omega
    simp [hk, hlt]
  · simp [hk]

lemma requestMatch_eq_iff (i : Fin 2) (n : Match) : requestMatch i = n ↔ i.val = n.val := by
  revert i n
  decide

lemma matchAction_idle (flag : Bool) (h : atMatch s n = false) :
    matchAction (s, flag) n = (s, flag) := by
  simp [matchAction, h]

def actedOn (s : CtimerState) (n : Match) : CtimerState :=
  { s with
    ir := if anyBit s.mcr (mcrInt n) then s.ir ||| 1 <<< n.val else s.ir
    tcr := if anyBit s.mcr (mcrStop n) then s.tcr &&& ~~~tcrCen else s.tcr
    dmaPulses := fun i => if i.val = n.val then s.dmaPulses i + 1 else s.dmaPulses i
    trigPulses := Function.update s.trigPulses n (s.trigPulses n + 1) }

lemma matchAction_hit (flag : Bool) (h : atMatch s n) :
    matchAction (s, flag) n = (actedOn s n, flag || anyBit s.mcr (mcrRst n)) := by
  simp [matchAction, h, actedOn]

lemma matchActions_acted (ns : List Match) (hnodup : ns.Nodup) (s : CtimerState) (flag : Bool) :
    Acted (fun n => atMatch s n = true) s (ns.foldl matchAction (s, flag)).1 ns ∧
      ((∀ n ∈ ns, atMatch s n → anyBit s.mcr (mcrRst n) = false) →
      (ns.foldl matchAction (s, flag)).2 = flag) := by
  induction ns generalizing s flag with
  | nil => exact ⟨⟨rfl, by simp, by simp, by simp, fun _ => rfl⟩, fun _ => rfl⟩
  | cons n rest ih =>
    obtain ⟨hfresh, hrest⟩ := List.nodup_cons.mp hnodup
    rw [foldl_cons]
    cases hn : atMatch s n with
    | false =>
      rw [matchAction_idle flag hn]
      obtain ⟨hacted, hreset⟩ := ih hrest s flag
      refine ⟨⟨hacted.others, ?_, ?_, ?_, ?_⟩, ?_⟩
      · intro k
        rw [hacted.flags k]
        simp [hn]
      · intro m
        rw [hacted.triggers m]
        by_cases hm : m = n <;> simp [hm, hn]
      · intro i
        rw [hacted.requests i]
        by_cases hi : requestMatch i = n <;> simp [hi, hn]
      · exact fun h => hacted.stays fun m hm => h m (mem_cons_of_mem _ hm)
      · exact fun h => hreset fun m hm => h m (mem_cons_of_mem _ hm)
    | true =>
      rw [matchAction_hit flag hn]
      obtain ⟨hacted, hreset⟩ := ih hrest (actedOn s n) (flag || anyBit s.mcr (mcrRst n))
      refine ⟨⟨?_, ?_, ?_, ?_, ?_⟩, ?_⟩
      · rw [hacted.others]
        rfl
      · intro k
        rw [hacted.flags k]
        have hhere : (actedOn s n).ir.getLsbD k = (s.ir.getLsbD k ||
            decide (n.val = k ∧ anyBit s.mcr (mcrInt n))) := by
          cases hint : anyBit s.mcr (mcrInt n) with
          | true =>
            have hir : (actedOn s n).ir = s.ir ||| 1 <<< n.val := if_pos hint
            rw [hir, BitVec.getLsbD_or, getLsbD_one_shiftLeft]
            simp
          | false => simp [actedOn, hint]
        rw [hhere, Bool.or_assoc, ← Bool.decide_or]
        congr 2
        simp only [exists_mem_cons_iff, hn, true_and, eq_iff_iff]
        rfl
      · intro m
        rw [hacted.triggers m]
        by_cases hm : m = n
        · subst hm
          simp [actedOn, hn, hfresh]
        · simp only [actedOn, Function.update_of_ne hm, mem_cons, hm, false_or]
          rfl
      · intro i
        rw [hacted.requests i]
        by_cases hi : requestMatch i = n
        · have hval := (requestMatch_eq_iff i n).mp hi
          simp [actedOn, hi, hval, hn, hfresh]
        have hval := mt (requestMatch_eq_iff i n).mpr hi
        simp only [actedOn, hval, if_false, mem_cons, hi, false_or]
        rfl
      · intro h
        have htcr : (actedOn s n).tcr = s.tcr := if_neg (by rw [h n mem_cons_self hn]; decide)
        rw [hacted.stays fun m hm => h m (mem_cons_of_mem _ hm), htcr]
      intro h
      rw [hreset fun m hm => h m (mem_cons_of_mem _ hm), h n mem_cons_self hn, Bool.or_false]

lemma nearestMatch_at (hn : enabled s n) (hat : s.mr n = s.tc) :
    ∃ fire, nearestMatch s = some fire ∧ s.mr fire = s.tc := by
  -- the fold keeps the least distance so far and a match that has it
  have hfold : ∀ (ns : List Match) (found : DoubleWord × Option Match),
      (found = (BitVec.allOnes 64, none) ∨ ∃ m, found = (matchDistance s m, some m)) →
      let last := ns.foldl (fun (found : DoubleWord × Option Match) n =>
        if anyBit s.mcr (mcrAny n) ∧ matchDistance s n < found.1 then
          (matchDistance s n, some n)
        else found) found
      (last = (BitVec.allOnes 64, none) ∨ ∃ m, last = (matchDistance s m, some m)) ∧
        last.1 ≤ found.1 ∧ ∀ m ∈ ns, enabled s m → last.1 ≤ matchDistance s m := by
    intro ns
    induction ns with
    | nil => exact fun found hfound => ⟨hfound, BitVec.le_refl _, by simp⟩
    | cons m rest ih =>
      intro found hfound
      rw [foldl_cons]
      by_cases htake : anyBit s.mcr (mcrAny m) ∧ matchDistance s m < found.1
      · obtain ⟨hlast, hle, hall⟩ := ih (matchDistance s m, some m) (.inr ⟨m, rfl⟩)
        rw [if_pos htake]
        refine ⟨hlast, BitVec.le_trans hle (BitVec.le_of_lt htake.2), ?_⟩
        rw [forall_mem_cons]
        exact ⟨fun _ => hle, hall⟩
      obtain ⟨hlast, hle, hall⟩ := ih found hfound
      rw [if_neg htake]
      refine ⟨hlast, hle, ?_⟩
      rw [forall_mem_cons]
      refine ⟨fun hm => BitVec.le_trans hle ?_, hall⟩
      rw [not_and] at htake
      exact BitVec.not_lt.mp (htake hm)
  obtain ⟨hlast, -, hall⟩ := hfold (List.finRange 4) (BitVec.allOnes 64, none) (.inl rfl)
  have hzero : (matchDistance s n).toNat = 0 := by
    rw [toNat_matchDistance, hat, BitVec.sub_self]
    rfl
  have hleast := hall n (mem_finRange n) hn
  rw [BitVec.le_def, hzero, le_zero] at hleast
  rcases hlast with hnone | ⟨m, hm⟩
  · rw [hnone] at hleast
    exact absurd hleast (by decide)
  refine ⟨m, congrArg Prod.snd hm, ?_⟩
  rw [hm, toNat_matchDistance, BitVec.toNat_sub] at hleast
  apply BitVec.eq_of_toNat_eq
  omega

def Reached (s : CtimerState) (now : ℤ) (n : Match) : Prop :=
  enabled s n ∧ ctimerPeek s now = some (s.mr n, 0)

instance (s : CtimerState) (now : ℤ) : DecidablePred (Reached s now) := fun _ =>
  inferInstanceAs (Decidable (_ ∧ _))

/-- The callback at `now`, which leads from `s` to `s'`, is for an arrival: the counter
comes to a match at `now`, and each match it comes to has its flag set, if it asks for an
interrupt, and its outputs pulsed once, and no other. -/
structure Arrives (s : CtimerState) (now : ℤ) (s' : CtimerState) : Prop where
  arrival : ∃ n, Reached s now n
  flags : ∀ k, s'.ir.getLsbD k = (s.ir.getLsbD k ||
    decide (∃ n : Match, n.val = k ∧ Reached s now n ∧ anyBit s.mcr (mcrInt n) = true))
  triggers : ∀ n, s'.trigPulses n = s.trigPulses n + if Reached s now n then 1 else 0
  requests : ∀ i, s'.dmaPulses i = s.dmaPulses i + if Reached s now (requestMatch i) then 1 else 0

structure SameSetup (s s' : CtimerState) : Prop where
  clkHz : s'.clkHz = s.clkHz
  pr : s'.pr = s.pr
  mcr : s'.mcr = s.mcr
  mr : s'.mr = s.mr

def FreeRunning (s : CtimerState) : Prop :=
  ∀ n, enabled s n → anyBit s.mcr (mcrRst n) = false ∧ anyBit s.mcr (mcrStop n) = false
deriving Decidable

lemma armed_of_reschedule (hbase : s.baseNs = now)
    (h : ctimerReschedule s now = some s') : Armed s' := by
  obtain ⟨hs', -⟩ := reschedule_eq h
  have hbase' : s'.baseNs = now := by rw [hs']; exact hbase
  rw [Armed, hbase']
  conv_lhs => rw [hs']
  exact h

lemma fireMatch_acted {fire : Match} (hat : s.mr fire = s.tc) (hpc : s.pc = 0) (now : ℤ) :
    ∃ acted tc pc, Acted (fun n => atMatch s n = true) s acted (List.finRange 4) ∧
      fireMatch s fire now = { acted with tc := tc, pc := pc, baseNs := now } ∧
      ((∀ n, atMatch s n → anyBit s.mcr (mcrRst n) = false) → tc = s.tc ∧ pc = s.pc) := by
  have hsnap : { s with tc := s.mr fire, pc := 0 } = s := by rw [hat, ← hpc]
  obtain ⟨hacted, hreset⟩ := matchActions_acted (List.finRange 4) (nodup_finRange 4) s false
  rw [fireMatch, hsnap]
  generalize (List.finRange 4).foldl matchAction (s, false) = last at hacted hreset
  obtain ⟨acted, doReset⟩ := last
  cases doReset with
  | true =>
    refine ⟨acted, 0, 0, hacted, rfl, fun hnone => ?_⟩
    exact absurd (hreset fun n _ => hnone n) Bool.false_ne_true.symm
  | false =>
    have hothers : acted = _ := hacted.others
    refine ⟨acted, acted.tc, acted.pc, hacted, rfl, fun _ => ?_⟩
    rw [hothers]
    exact ⟨rfl, rfl⟩

lemma tick_on_time (hclk : s.clkHz ≠ 0)
    (hpr : s.pr ≠ 0xFFFFFFFF) (harmed : Armed s) (h : OnTime s) (htimer : s.timer = some now)
    (htick : ctimerTick s now = some s') :
    Arrives s now s' ∧ s'.baseNs = now ∧ Armed s' ∧ SameSetup s s' ∧
      (FreeRunning s → ∀ start, ReadsAs start s → ReadsAs start s') := by
  obtain ⟨hlater, hwhole, -, n, hn, hpeek⟩ := arrives_at_deadline hclk hpr harmed h htimer
  obtain ⟨synced, hsync, htick⟩ := Option.bind_eq_some_iff.mp htick
  obtain ⟨hpeek', hsynced⟩ := sync_some hsync
  have hcount : ctimerPeek s now = some (synced.tc, synced.pc) := hpeek'
  obtain ⟨htc, hpc⟩ := Prod.mk.inj (some.inj (hpeek.symm.trans hcount))
  have hmr : synced.mr = s.mr := by rw [hsynced]
  have hmcr : synced.mcr = s.mcr := by rw [hsynced]
  have hhit : ∀ m, atMatch synced m ↔ Reached s now m := by
    intro m
    rw [atMatch, Bool.and_eq_true, beq_iff_eq, hmr, hmcr, ← htc, Reached, hpeek,
      Option.some.injEq, Prod.mk.injEq]
    exact and_congr_right fun _ => ⟨fun hm => ⟨hm.symm, rfl⟩, fun hm => hm.1.symm⟩
  obtain ⟨fire, hfire, hat⟩ := nearestMatch_at (s := synced) (n := n)
    (by rw [enabled, hmcr]; exact hn) (by rw [hmr]; exact htc)
  obtain ⟨acted, tc, pc, hacted, hfired, hkeeps⟩ := fireMatch_acted hat hpc.symm now
  simp only [hfire, hfired] at htick
  obtain ⟨hs', -⟩ := reschedule_eq htick
  have hothers := hacted.others
  have hbase' : s'.baseNs = now := by rw [hs']; rfl
  refine ⟨⟨⟨n, hn, hpeek⟩, ?_, ?_, ?_⟩, hbase', armed_of_reschedule rfl htick, ?_, ?_⟩
  · intro k
    have hir : s'.ir = acted.ir := by rw [hs']; rfl
    rw [hir, hacted.flags k, hmcr, show synced.ir = s.ir by rw [hsynced]]
    simp only [mem_finRange, true_and, hhit]
  · intro m
    have htrig : s'.trigPulses = acted.trigPulses := by rw [hs']; rfl
    rw [htrig, hacted.triggers m, show synced.trigPulses = s.trigPulses by rw [hsynced]]
    simp only [mem_finRange, true_and, hhit]
  · intro i
    have hdma : s'.dmaPulses = acted.dmaPulses := by rw [hs']; rfl
    rw [hdma, hacted.requests i, show synced.dmaPulses = s.dmaPulses by rw [hsynced]]
    simp only [mem_finRange, true_and, hhit]
  · refine ⟨?_, ?_, ?_, ?_⟩ <;> rw [hs', ctimerUpdateIrq, hothers, hsynced]
  intro hfree start hreads
  have hquiet : ∀ m, atMatch synced m →
      anyBit synced.mcr (mcrRst m) = false ∧ anyBit synced.mcr (mcrStop m) = false := by
    intro m hm
    rw [hmcr]
    exact hfree m ((hhit m).mp hm).1
  obtain ⟨rfl, rfl⟩ := hkeeps fun m hm => (hquiet m hm).1
  have htcr := hacted.stays fun m _ hm => (hquiet m hm).2
  have hidle : ReadsAs start { s with timer := none } := hreads.same ⟨rfl, rfl, rfl, rfl, rfl, rfl⟩
  apply (hidle.sync hlater.le hwhole hsync).same
  have hbase : synced.baseNs = now := sync_base hsync
  refine ⟨?_, ?_, ?_, ?_, ?_, ?_⟩
  · rw [hs']
    exact htcr
  · rw [hs', ctimerUpdateIrq, hothers]
  · rw [hs', ctimerUpdateIrq, hothers]
  · rw [hs']
    rfl
  · rw [hs']
    rfl
  · rw [hbase', hbase]

def Punctual (s : CtimerState) : Event → Prop
  | .tick now => s.timer = some now ∧ OnTime s
  | .read _ _ => True
  | .capture _ _ => True
  | _ => False

structure Idle (s s' : CtimerState) : Prop where
  flags : ∀ n : Match, s'.ir.getLsbD n = s.ir.getLsbD n
  triggers : s'.trigPulses = s.trigPulses
  requests : s'.dmaPulses = s.dmaPulses

lemma capture0_idle {level : Bool} (h : ctimerCapture0 s level now = some s') :
    s' = { s with cap0Level := level, cr := s'.cr, ir := s'.ir, irq := s'.irq } ∧ Idle s s' := by
  unfold ctimerCapture0 at h
  split at h
  · obtain ⟨⟨tc, pc⟩, -, h⟩ := Option.bind_eq_some_iff.mp h
    cases h
    split
    · refine ⟨rfl, fun n => ?_, rfl, rfl⟩
      have hbit : irCr0int.getLsbD n = false := by
        revert n
        decide
      rw [ctimerUpdateIrq, BitVec.getLsbD_or, hbit, Bool.or_false]
    · exact ⟨rfl, fun _ => rfl, rfl, rfl⟩
  · cases h
    exact ⟨rfl, fun _ => rfl, rfl, rfl⟩

lemma Armed.capture (h : Armed s) (level : Bool) (cr : Match → Word) (ir : Word) (irq : Bool) :
    Armed { s with cap0Level := level, cr := cr, ir := ir, irq := irq } := by
  let captured (timer : Option ℤ) : CtimerState :=
    { s with cap0Level := level, cr := cr, ir := ir, irq := irq, timer := timer }
  rw [Armed, ctimerReschedule] at h ⊢
  split at h
  next hstopped =>
    have htimer := congrArg timer (some.inj h)
    refine (if_pos hstopped).trans ?_
    exact congrArg (fun timer => some (captured timer)) htimer
  rename_i hrun
  obtain ⟨best, hbest, h⟩ := Option.bind_eq_some_iff.mp h
  have htimer := congrArg timer (some.inj h)
  refine (if_neg hrun).trans (Option.bind_eq_some_iff.mpr ⟨best, hbest, ?_⟩)
  exact congrArg (fun timer => some (captured timer)) htimer

structure Kept (start s : CtimerState) : Prop where
  armed : Armed s
  setup : SameSetup start s
  reads : FreeRunning start → ctimerRunning start = true → ReadsAs start s

section

variable (hclk : start.clkHz ≠ 0) (hpr : start.pr ≠ 0xFFFFFFFF)
include hclk hpr
variable {s : CtimerState}

lemma Kept.step (hguard : Punctual s e) (h : Kept start s)
    (hstep : step s e = some s') : Kept start s' := by
  cases e with
  | tick now =>
    obtain ⟨-, -, harmed, hsetup, hreads⟩ := tick_on_time (by rw [h.setup.clkHz]; exact hclk)
      (by rw [h.setup.pr]; exact hpr) h.armed hguard.2 hguard.1 hstep
    refine ⟨harmed, ?_, fun hfree hrun => hreads ?_ start (h.reads hfree hrun)⟩
    · exact ⟨hsetup.clkHz.trans h.setup.clkHz, hsetup.pr.trans h.setup.pr,
        hsetup.mcr.trans h.setup.mcr, hsetup.mr.trans h.setup.mr⟩
    intro n hn
    rw [enabled, h.setup.mcr] at hn
    rw [h.setup.mcr]
    exact hfree n hn
  | read off now =>
    obtain ⟨-, -, rfl⟩ := Option.map_eq_some_iff.mp hstep
    exact h
  | capture level now =>
    obtain ⟨hs', -⟩ := capture0_idle hstep
    rw [hs']
    refine ⟨h.armed.capture _ _ _ _, ⟨h.setup.clkHz, h.setup.pr, h.setup.mcr, h.setup.mr⟩, ?_⟩
    exact fun hfree hrun => (h.reads hfree hrun).same ⟨rfl, rfl, rfl, rfl, rfl, rfl⟩
  | _ => exact hguard.elim

end

end Mcxn947.Ctimer
