import Mcxn947.RoundedDeadlines
import Mcxn947.TimerCounts

/-!
# The time base of the counter/timer

A write to a register of a running counter/timer first brings the counter up to date and
moves its time base to the time of the write.
-/

namespace Mcxn947.Ctimer

open MachineWords EventRuns RatedCounters BitVec Nat Option

variable {div : ℕ} {now : ℤ} {r : CountReg} {v : Word} {start : CtimerState} {e : Event}

section

variable (hpos : 0 < div) (hlt : div < 2 ^ 32) (tc pc : Word)
include hpos hlt

lemma advanced_advanced (j k : ℕ) :
    advanced div (advanced div tc pc j).1 (advanced div tc pc j).2 k =
      advanced div tc pc (j + k) := by
  have hpc := toNat_advanced_snd hpos hlt tc pc j
  have hsplit : pc.toNat + (j + k) = div * ((pc.toNat + j) / div) + ((pc.toNat + j) % div + k) := by
    have := div_add_mod (pc.toNat + j) div
    omega
  have hquot : (pc.toNat + (j + k)) / div =
      (pc.toNat + j) / div + ((pc.toNat + j) % div + k) / div := by
    rw [hsplit, mul_add_div hpos]
  have hrem : (pc.toNat + (j + k)) % div = ((pc.toNat + j) % div + k) % div := by
    rw [hsplit, mul_add_mod]
  rw [advanced, hpc, advanced, advanced, hquot, hrem, ofNat_add, BitVec.add_assoc]

lemma advanced_succ_ne (k : ℕ) : advanced div tc pc (k + 1) ≠ advanced div tc pc k := by
  rw [← advanced_advanced hpos hlt tc pc k 1]
  generalize hx : advanced div tc pc k = x
  intro hsame
  have hpc : x.2.toNat < div := by
    rw [← hx, toNat_advanced_snd hpos hlt]
    exact mod_lt _ hpos
  have htc := congrArg Prod.fst hsame
  have hsnd := congrArg (fun y => y.2.toNat) hsame
  rw [toNat_advanced_snd hpos hlt] at hsnd
  by_cases hlast : x.2.toNat + 1 = div
  · -- the prescaler wraps, and with it the counter moves on
    rw [advanced, hlast, Nat.div_self hpos] at htc
    have hnext := congrArg BitVec.toNat htc
    simp only [toNat_add, toNat_ofNat] at hnext
    omega
  · rw [mod_eq_of_lt (by omega)] at hsnd
    omega

end

lemma peek_base (s : CtimerState) (h : now ≤ s.baseNs) :
    ctimerPeek s now = some (s.tc, s.pc) := by
  rw [ctimerPeek, if_pos (.inr h)]

variable {s : CtimerState}

lemma peek_none (hrun : ctimerRunning s)
    (hpr : s.pr = 0xFFFFFFFF) (h : s.baseNs < now) : ctimerPeek s now = none := by
  have hlive : ¬ (!ctimerRunning s ∨ now ≤ s.baseNs) := by
    rw [hrun]
    simpa using h
  rw [ctimerPeek, if_neg hlive, hpr]
  rfl

variable {s' : CtimerState}

lemma sync_some (h : ctimerSync s now = some s') : ctimerPeek s now = some (s'.tc, s'.pc) ∧
      s' = { s with tc := s'.tc, pc := s'.pc, baseNs := now } := by
  obtain ⟨⟨tc, pc⟩, hpeek, h⟩ := Option.bind_eq_some_iff.mp h
  cases h
  exact ⟨hpeek, rfl⟩

section Sync

variable {s s' : CtimerState} {t₁ t₂ : ℤ}

lemma peek_sync_iff (hrun : ctimerRunning s) (hpr : s.pr ≠ 0xFFFFFFFF)
    (hbase : s.baseNs ≤ t₁) (hle : t₁ ≤ t₂)
    (hfits : ProductFits s.clkHz.toNat (t₂ - s.baseNs)) (hsync : ctimerSync s t₁ = some s') :
    ctimerPeek s' t₂ = ctimerPeek s t₂ ↔
      NoCarry s.clkHz.toNat (t₁ - s.baseNs).toNat (t₂ - t₁).toNat := by
  obtain ⟨hpeek, hs'⟩ := sync_some hsync
  rcases hbase.eq_or_lt with hnow | hnow
  · -- nothing has passed
    have hzero : (t₁ - s.baseNs).toNat = 0 := by omega
    rw [peek_base s hnow.ge] at hpeek
    obtain ⟨htc, hpc⟩ := Prod.mk.inj (some.inj hpeek)
    have hsame : s' = s := by rw [hs', ← htc, ← hpc, ← hnow]
    rw [hsame, hzero]
    exact iff_of_true rfl (noCarry_of_whole _ (by simp))
  rcases hle.eq_or_lt with hlast | hlast
  · -- the same instant
    have hbase' : s'.baseNs = t₁ := sync_base hsync
    rw [peek_base s' (by omega), ← hpeek, ← hlast]
    refine iff_of_true rfl ?_
    rw [NoCarry, show (t₁ - t₁).toNat = 0 by omega, Nat.mul_zero, zero_mod]
    exact mod_lt _ second_pos
  have hsplit : (t₂ - s.baseNs).toNat = (t₁ - s.baseNs).toNat + (t₂ - t₁).toNat := by omega
  set a := (t₁ - s.baseNs).toNat
  set b := (t₂ - t₁).toNat
  have hfirst := peek_advanced hrun hnow hpr (hfits.mono (by omega))
  rw [hfirst] at hpeek
  have htc := congrArg Prod.fst (some.inj hpeek)
  have hpc := congrArg Prod.snd (some.inj hpeek)
  have hsecond : ctimerPeek s' t₂ = some (advanced s.div s'.tc s'.pc (ticks s.clkHz.toNat b)) := by
    have hrun' : ctimerRunning s' = true := by rw [hs']; exact hrun
    have hbase' : s'.baseNs = t₁ := sync_base hsync
    have hclk' : s'.clkHz = s.clkHz := by rw [hs']
    have hpr' : s'.pr = s.pr := by rw [hs']
    have h := peek_advanced hrun' (hbase'.trans_lt hlast) (by rw [hpr']; exact hpr)
      (by rw [hclk', hbase']; exact hfits.mono (by omega))
    rw [h, CtimerState.div, hpr', hclk', hbase']
    rfl
  rw [hsecond, peek_advanced hrun (hnow.trans hlast) hpr hfits, hsplit, Option.some.injEq,
    show s'.tc = _ from htc.symm, show s'.pc = _ from hpc.symm,
    advanced_advanced (div_pos s) (div_lt hpr), ← ticks_add_eq_iff]
  constructor
  · intro hsame
    rw [ticks_add] at hsame ⊢
    split
    next hcarry =>
      rw [if_pos hcarry] at hsame
      exact absurd hsame.symm (advanced_succ_ne (div_pos s) (div_lt hpr) _ _ _)
    · rfl
  · intro hticks
    rw [hticks]

lemma peek_sync_of_whole (hrun : ctimerRunning s) (hbase : s.baseNs ≤ t₁)
    (hle : t₁ ≤ t₂) (hfits : ProductFits s.clkHz.toNat (t₂ - s.baseNs))
    (hwhole : second ∣ s.clkHz.toNat * (t₁ - s.baseNs).toNat)
    (hsync : ctimerSync s t₁ = some s') : ctimerPeek s' t₂ = ctimerPeek s t₂ := by
  obtain ⟨hpeek, hs'⟩ := sync_some hsync
  by_cases hpr : s.pr = 0xFFFFFFFF
  · rcases hbase.eq_or_lt with hnow | hnow
    · rw [peek_base s hnow.ge] at hpeek
      obtain ⟨htc, hpc⟩ := Prod.mk.inj (some.inj hpeek)
      rw [hs', ← htc, ← hpc, ← hnow]
    · rw [peek_none hrun hpr hnow] at hpeek
      exact absurd hpeek (some_ne_none _).symm
  · exact (peek_sync_iff hrun hpr hbase hle hfits hsync).mpr (noCarry_of_whole _ hwhole)

end Sync

def Rewrites (s : CtimerState) (r : CountReg) (v : Word) : Prop :=
  match r with
  | .tcr => v &&& 0xFF = s.tcr
  | .pr => v = s.pr
  | .mcr => v = s.mcr
  | .mr n => v = s.mr n
  | .tc => False
  | .pc => False

lemma setCountReg_rewrites
    (hrun : ctimerRunning s) (h : Rewrites s r v) : setCountReg s r v = s := by
  cases r with
  | tcr =>
    have hcrst : anyBit s.tcr tcrCrst = false := by
      rw [ctimerRunning, Bool.and_eq_true, Bool.not_eq_true'] at hrun
      exact hrun.2
    have htcr : v &&& 0xFF = s.tcr := h
    simp only [setCountReg]
    rw [htcr, hcrst]
    rfl
  | tc => exact h.elim
  | pr =>
    obtain rfl : v = s.pr := h
    rfl
  | pc => exact h.elim
  | mcr =>
    obtain rfl : v = s.mcr := h
    rfl
  | mr n =>
    obtain rfl : v = s.mr n := h
    rw [setCountReg, Function.update_eq_self]

def TouchesOnEdge (s : CtimerState) : Event → Prop
  | .write off v now =>
    (∃ r, countReg off = some r ∧ Rewrites s r v) ∧ s.baseNs ≤ now ∧
      second ∣ s.clkHz.toNat * (now - s.baseNs).toNat
  | _ => False

structure ReadsAs (start s : CtimerState) : Prop where
  running : ctimerRunning s = true
  clkHz : s.clkHz = start.clkHz
  pr : s.pr = start.pr
  base : start.baseNs ≤ s.baseNs
  reads : ∀ t, s.baseNs ≤ t → ProductFits start.clkHz.toNat (t - start.baseNs) →
    ctimerPeek s t = ctimerPeek start t

structure SameCounter (s s' : CtimerState) : Prop where
  tcr : s'.tcr = s.tcr
  clkHz : s'.clkHz = s.clkHz
  pr : s'.pr = s.pr
  tc : s'.tc = s.tc
  pc : s'.pc = s.pc
  base : s'.baseNs = s.baseNs

lemma SameCounter.running (h : SameCounter s s') : ctimerRunning s' = ctimerRunning s := by
  rw [ctimerRunning, ctimerRunning, h.tcr]

lemma SameCounter.peek (h : SameCounter s s') (now : ℤ) : ctimerPeek s' now = ctimerPeek s now := by
  rw [ctimerPeek, ctimerPeek, h.running, h.clkHz, h.pr, h.tc, h.pc, h.base]

lemma ReadsAs.same (h : ReadsAs start s) (hsame : SameCounter s s') : ReadsAs start s' where
  running := hsame.running.trans h.running
  clkHz := hsame.clkHz.trans h.clkHz
  pr := hsame.pr.trans h.pr
  base := h.base.trans hsame.base.ge
  reads t ht hfits := by
    rw [hsame.peek]
    exact h.reads t (hsame.base.ge.trans ht) hfits

lemma ReadsAs.sync {synced : CtimerState} (h : ReadsAs start s)
    (hbase : s.baseNs ≤ now) (hwhole : second ∣ s.clkHz.toNat * (now - s.baseNs).toNat)
    (hsync : ctimerSync s now = some synced) : ReadsAs start synced := by
  obtain ⟨-, hs⟩ := sync_some hsync
  have hsynced : synced.baseNs = now := sync_base hsync
  refine ⟨?_, ?_, ?_, ?_, ?_⟩
  · rw [hs]
    exact h.running
  · rw [hs]
    exact h.clkHz
  · rw [hs]
    exact h.pr
  · rw [hsynced]
    exact h.base.trans hbase
  intro t ht hfits
  rw [hsynced] at ht
  have hless : ProductFits s.clkHz.toNat (t - s.baseNs) := by
    rw [h.clkHz]
    exact hfits.mono (by have := h.base; omega)
  rw [peek_sync_of_whole h.running hbase ht hless hwhole hsync]
  exact h.reads t (hbase.trans ht) hfits

lemma writeCount_rewrites (hrun : ctimerRunning s) (h : Rewrites s r v)
    (hwrite : writeCount s r v now = some s') :
    ∃ synced, ctimerSync s now = some synced ∧ s' = { synced with timer := s'.timer } := by
  obtain ⟨synced, hsync, hwrite⟩ := Option.bind_eq_some_iff.mp hwrite
  obtain ⟨-, hs⟩ := sync_some hsync
  have hrun' : ctimerRunning synced = true := by rw [hs]; exact hrun
  have hkeep : Rewrites synced r v := by
    rw [hs]
    cases r <;> exact h
  rw [setCountReg_rewrites hrun' hkeep] at hwrite
  exact ⟨synced, hsync, (reschedule_eq hwrite).1⟩

lemma ReadsAs.touch (hguard : TouchesOnEdge s e)
    (h : ReadsAs start s) (hstep : step s e = some s') : ReadsAs start s' := by
  cases e with
  | write off v now =>
    obtain ⟨⟨r, hreg, hsame⟩, hbase, hwhole⟩ := hguard
    simp only [step, ctimerWrite, hreg] at hstep
    obtain ⟨synced, hsync, hs'⟩ := writeCount_rewrites h.running hsame hstep
    apply (h.sync hbase hwhole hsync).same
    rw [hs']
    exact ⟨rfl, rfl, rfl, rfl, rfl, rfl⟩
  | _ => exact hguard.elim

lemma touch_isSome (hclk : start.clkHz ≠ 0)
    (hpr : start.pr ≠ 0xFFFFFFFF) (hguard : TouchesOnEdge s e)
    (h : ReadsAs start s) : (step s e).isSome := by
  apply step_isSome
  cases e with
  | write off v now =>
    intro r hreg
    obtain ⟨⟨r', hreg', hsame⟩, -⟩ := hguard
    obtain rfl : r' = r := some.inj (hreg'.symm.trans hreg)
    rw [setCountReg_rewrites h.running hsame]
    exact ⟨fun _ _ => by rw [h.pr]; exact hpr, fun _ _ => by rw [h.clkHz]; exact hclk⟩
  | _ => exact hguard.elim

/-- With the clocks counted in 64 bits, bringing the counter up to date leaves a later
reading as it was just when no clock is lost; and writes of what the registers have leave
every later reading as it was, if each of them comes on an edge of the clock. -/
theorem rewrites_keep_time_base (s : CtimerState) (hrun : ctimerRunning s = true)
    (hclk : s.clkHz ≠ 0) :
    (∀ t₁ t₂ s₁, s.pr ≠ 0xFFFFFFFF → s.baseNs ≤ t₁ → t₁ ≤ t₂ →
      ProductFits s.clkHz.toNat (t₂ - s.baseNs) → ctimerSync s t₁ = some s₁ →
      (ctimerPeek s₁ t₂ = ctimerPeek s t₂ ↔
        NoCarry s.clkHz.toNat (t₁ - s.baseNs).toNat (t₂ - t₁).toNat)) ∧
    ∀ touches, AdmitsPartial step TouchesOnEdge s touches →
      (s.pr ≠ 0xFFFFFFFF → (runPartial step s touches).isSome) ∧
      ∀ s' ∈ runPartial step s touches, ∀ t, s'.baseNs ≤ t →
        ProductFits s.clkHz.toNat (t - s.baseNs) → ctimerRead s' 0x08 t = ctimerRead s 0x08 t ∧
          ctimerRead s' 0x10 t = ctimerRead s 0x10 t := by
  have hstart : ReadsAs s s := ⟨hrun, rfl, rfl, le_rfl, fun _ _ _ => rfl⟩
  have hinv : ∀ x e y, TouchesOnEdge x e → ReadsAs s x → step x e = some y → ReadsAs s y :=
    fun _ _ _ hguard h hstep => h.touch hguard hstep
  refine ⟨?_, fun touches hadmits => ⟨?_, ?_⟩⟩
  · intro t₁ t₂ s₁ hpr hbase hle hfits hsync
    exact peek_sync_iff hrun hpr hbase hle hfits hsync
  · intro hpr
    have hstep : ∀ x e, TouchesOnEdge x e → ReadsAs s x → (step x e).isSome :=
      fun _ _ hguard h => touch_isSome hclk hpr hguard h
    exact runPartial_isSome_of_admits hstep hinv hstart hadmits
  intro s' hs' t ht hfits
  have hreads := runPartial_invariant_of_admits hinv hstart hadmits hs'
  have hpeek := hreads.reads t ht hfits
  exact ⟨congrArg (Option.map Prod.fst) hpeek, congrArg (Option.map Prod.snd) hpeek⟩

def started : CtimerState := runFrom 150000000 [.write 0x04 1 0]

def touchedAt (now : ℤ) : CtimerState := runFrom 150000000 [.write 0x04 1 0, .write 0x14 0 now]

theorem touch_on_edge_keeps_reading : step started (.write 0x14 0 20) = some (touchedAt 20) ∧
      ctimerRead (touchedAt 20) 0x08 30 = ctimerRead started 0x08 30 := by
  have hadmits : AdmitsPartial step TouchesOnEdge started [.write 0x14 0 20] :=
    ⟨⟨⟨.mcr, rfl, show (0 : Word) = started.mcr by decide +kernel⟩, by decide +kernel,
      by decide +kernel⟩, fun _ _ => trivial⟩
  have hstep : step started (.write 0x14 0 20) = some (touchedAt 20) := rfl
  have hrun : touchedAt 20 ∈ runPartial step started [.write 0x14 0 20] := by
    rfl
  exact ⟨hstep, (((rewrites_keep_time_base started (by decide +kernel) (by decide +kernel)).2 _
    hadmits).2 _ hrun 30 (by decide +kernel) (by unfold ProductFits; decide +kernel)).1⟩

theorem touch_loses_clock :
    ctimerRunning started = true ∧ ¬ MatchActive started ∧ Rewrites started .mcr 0 ∧
      step started (.write 0x14 0 5) = some (touchedAt 5) ∧
      ctimerRead started 0x08 10 = some 1 ∧ ctimerRead (touchedAt 5) 0x08 10 = some 0 := by
  refine ⟨by decide +kernel, ?_, show (0 : Word) = _ by decide +kernel, rfl,
    by decide +kernel, by decide +kernel⟩
  rintro ⟨n, hn⟩
  revert n
  decide +kernel

end Mcxn947.Ctimer
