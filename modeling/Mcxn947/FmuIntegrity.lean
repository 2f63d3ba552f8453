import Mcxn947.FmuModel

/-!
# Flash integrity

The handshake bits of `FSTAT` always say where the controller stands: `CCIF` that nothing is
in progress, `PEWEN` that words are still wanted, `PERDY` that all of them are staged.
-/

namespace Mcxn947.Fmu

open MachineWords GuestMemory EventRuns List Function

def WantsWords (cmd : Byte) (words : ℕ) : Prop :=
  cmd = fcmdPgmpg ∧ words = 32 ∨ (cmd = fcmdPgmphr ∨ cmd = fcmdErsscr) ∧ words = 4

structure Handshake (s : FmuState) : Prop where
  ccif : anyBit s.fstat fstatCcif = !s.peActive
  pewen : anyBit s.fstat fstatPewenMask = true → s.peActive = true ∧ s.peWords < s.peExpect
  perdy : anyBit s.fstat fstatPerdy = true ↔ s.peActive = true ∧ s.peWords = s.peExpect
  idle : s.peActive = false → s.peWords = 0
  window : s.peActive = true → WantsWords s.peCmd s.peExpect ∧ s.peWords ≤ s.peExpect
  addr : s.peActive = true → 0 < s.peWords → s.peAddr % (s.peExpect * 4) = 0 ∧ s.peAddr < flashSize

lemma handshake_idle {s : FmuState} (hact : s.peActive = false) (hwords : s.peWords = 0)
    (hccif : anyBit s.fstat fstatCcif) (hpewen : anyBit s.fstat fstatPewenMask = false)
    (hperdy : anyBit s.fstat fstatPerdy = false) : Handshake s where
  ccif := by rw [hccif, hact]; rfl
  pewen := by simp [hpewen]
  perdy := by simp [hperdy, hact]
  idle := fun _ => hwords
  window := by simp [hact]
  addr := by simp [hact]

variable (s : FmuState) (flash : Mem)

lemma handshake_complete : Handshake (fmuComplete s) := by
  have hsubset : ∀ mask : Word, mask &&& ~~~(fstatPewenMask ||| fstatPerdy) = 0 →
      anyBit fstatCcif mask = false →
      anyBit (fmuComplete s).fstat mask = false := by
    intro mask hsub hccif
    simp only [fmuComplete, fmuUpdateIrq, anyBit_or, hccif, Bool.or_false]
    exact anyBit_clear_of_subset hsub _
  apply handshake_idle rfl rfl
  · have hccif : anyBit fstatCcif fstatCcif = true := by decide
    simp [fmuComplete, fmuUpdateIrq, hccif]
  · exact hsubset _ (by decide) (by decide)
  · exact hsubset _ (by decide) (by decide)

lemma handshake_fail (flag : Word) : Handshake (fmuFail s flag) := handshake_complete _

lemma handshake_reset : Handshake (mcxnFmuReset s) :=
  handshake_idle rfl rfl (show anyBit fstatCcif _ = true by decide)
    (show anyBit fstatCcif _ = false by decide) (show anyBit fstatCcif _ = false by decide)

variable {t : FmuState} {cmd : Byte} {words off : ℕ}

lemma Handshake.congr {s : FmuState} (h : Handshake s)
    (hbits : ∀ mask, mask = fstatCcif ∨ mask = fstatPewenMask ∨ mask = fstatPerdy →
      anyBit t.fstat mask = anyBit s.fstat mask)
    (hact : t.peActive = s.peActive) (hwords : t.peWords = s.peWords)
    (hexpect : t.peExpect = s.peExpect) (hcmd : t.peCmd = s.peCmd)
    (haddr : t.peAddr = s.peAddr) : Handshake t where
  ccif := by rw [hbits _ (by simp), hact, h.ccif]
  pewen := by rw [hbits _ (by simp), hact, hwords, hexpect]; exact h.pewen
  perdy := by rw [hbits _ (by simp), hact, hwords, hexpect]; exact h.perdy
  idle := by rw [hact, hwords]; exact h.idle
  window := by rw [hact, hcmd, hexpect, hwords]; exact h.window
  addr := by rw [hact, hwords, haddr, hexpect]; exact h.addr

lemma handshake_open {s : FmuState} {pewen : Word}
    (hccif : anyBit s.fstat fstatCcif = false) (hwants : WantsWords cmd words)
    (hpewen : anyBit pewen fstatCcif = false ∧ anyBit pewen fstatPerdy = false) :
    Handshake (fmuOpenWriteWindow s cmd words pewen) := by
  have hpos : 0 < words := by
    rcases hwants with ⟨_, rfl⟩ | ⟨_, rfl⟩ <;> decide
  have hperdy : anyBit (fmuOpenWriteWindow s cmd words pewen).fstat fstatPerdy =
      false := by
    simp only [fmuOpenWriteWindow, anyBit_or, hpewen.2, Bool.or_false]
    rw [anyBit_clear_of_disjoint (by decide)]
    exact anyBit_clear_of_subset (by decide) _
  constructor
  · simp only [fmuOpenWriteWindow, anyBit_or, hpewen.1, Bool.or_false]
    rw [anyBit_clear_of_disjoint (by decide), anyBit_clear_of_disjoint (by decide), hccif]
    rfl
  · exact fun _ => ⟨rfl, hpos⟩
  · rw [hperdy]
    simp only [fmuOpenWriteWindow, Bool.false_eq_true, true_and, false_iff]
    omega
  · intro hact
    cases hact
  · exact fun _ => ⟨hwants, Nat.zero_le _⟩
  · intro _ hwords
    exact absurd hwords (Nat.lt_irrefl 0)

lemma handshake_launch : Handshake (fmuLaunch s) := by
  have hccif : anyBit (s.fstat &&& ~~~fstatCcif) fstatCcif = false :=
    anyBit_clear_of_subset (by decide) _
  have hones : ∀ (t : FmuState) (addr unit : ℕ), Handshake (fmuReadOnes t addr unit) := by
    intro t addr unit
    unfold fmuReadOnes
    split
    · exact handshake_fail _ _
    · exact handshake_complete _
  unfold fmuLaunch
  simp only
  split
  · exact handshake_complete _
  split
  · exact handshake_complete _
  split
  · exact handshake_complete _
  split
  · exact hones _ _ _
  split
  · exact hones _ _ _
  split
  · exact hones _ _ _
  split
  next hcmd => exact handshake_open hccif (Or.inl ⟨hcmd, rfl⟩) (by decide)
  split
  next hcmd => exact handshake_open hccif (Or.inr ⟨hcmd, rfl⟩) (by decide)
  · exact handshake_fail _ _

lemma WantsWords.unit (h : WantsWords cmd words) (off : ℕ) :
    off &&& (words * 4 - 1) = off % (words * 4) := by
  rcases h with ⟨_, rfl⟩ | ⟨_, rfl⟩
  · exact Nat.and_two_pow_sub_one_eq_mod off 7
  · exact Nat.and_two_pow_sub_one_eq_mod off 4

lemma stageAddr_spec {s : FmuState} (h : Handshake s) (hact : s.peActive)
    (hoff : off < flashSize) (hstage : fmuStageAddr s off = some t) :
    t = { s with peAddr := t.peAddr } ∧ t.peAddr % (s.peExpect * 4) = 0 ∧ t.peAddr < flashSize := by
  unfold fmuStageAddr at hstage
  split at hstage
  · split at hstage
    · cases hstage
    rename_i halign
    cases hstage
    rw [(h.window hact).1.unit, not_not] at halign
    exact ⟨rfl, halign, hoff⟩
  rename_i hwords
  split at hstage
  · cases hstage
  · cases hstage
    exact ⟨rfl, h.addr hact (Nat.pos_of_ne_zero hwords)⟩

lemma handshake_flashWrite {s : FmuState} (h : Handshake s) (hoff : off < flashSize) (v : Word)
    (size : ℕ) : Handshake (mcxnFmuFlashWrite s off v size) := by
  unfold mcxnFmuFlashWrite
  split
  · exact h
  rename_i hopen
  simp only [Bool.or_eq_true, Bool.not_eq_true', not_or, Bool.not_eq_false] at hopen
  obtain ⟨hact, hpewen⟩ := hopen
  split
  · exact handshake_fail _ _
  split
  · exact handshake_fail _ _
  rename_i t hstage
  obtain ⟨ht, halign, hinside⟩ := stageAddr_spec h hact hoff hstage
  rw [ht]
  have hmore : s.peWords < s.peExpect := (h.pewen hpewen).2
  have hwindow := (h.window hact).1
  split
  · exact handshake_fail _ _
  simp only
  split
  · -- the last word: the window closes and the controller stalls
    rename_i hlast
    have hperdy : anyBit fstatPerdy fstatPerdy := by decide
    have hccif : anyBit fstatPerdy fstatCcif = false := by decide
    have hclosed : anyBit fstatPerdy fstatPewenMask = false := by decide
    constructor
    · simp only [anyBit_or, hccif, Bool.or_false]
      rw [anyBit_clear_of_disjoint (by decide), h.ccif]
    · simp only [anyBit_or, hclosed, Bool.or_false]
      rw [anyBit_clear_of_subset (by decide)]
      simp
    · simp [hperdy, hact, hlast]
    · simp [hact]
    · exact fun _ => ⟨hwindow, hlast.le⟩
    · exact fun _ _ => ⟨halign, hinside⟩
  rename_i hnotlast
  have hperdy : anyBit s.fstat fstatPerdy = false := by
    rw [← Bool.not_eq_true, h.perdy]
    omega
  constructor
  · exact h.ccif
  · intro _
    exact ⟨hact, by simp only; omega⟩
  · simp only [hperdy, hact, Bool.false_eq_true, true_and, false_iff]
    exact hnotlast
  · simp [hact]
  · exact fun _ => ⟨hwindow, hmore⟩
  · exact fun _ _ => ⟨halign, hinside⟩

def Programmed : Prop :=
  ∀ a, flash a =
    if s.peAddr ≤ a ∧ a < s.peAddr + s.peExpect * 4 then s.flash a &&& s.peBuf (a - s.peAddr)
    else s.flash a

def SectorErased : Prop :=
  ∀ a, flash a = if a / flashSector = s.peAddr / flashSector then 0xFF else s.flash a

lemma foldl_programByte (off : ℕ) (buf flash : Mem) (len a : ℕ) :
    ((List.range len).foldl (programByte off buf) (flash, false)).1 a =
      if off ≤ a ∧ a < off + len then flash a &&& buf (a - off) else flash a := by
  induction len with
  | zero => rw [range_zero, foldl_nil, if_neg (by omega)]
  | succ len ih =>
    rw [range_succ, foldl_append, foldl_cons, foldl_nil]
    by_cases hlast : a = off + len
    · subst hlast
      have hold : ((List.range len).foldl (programByte off buf) (flash, false)).1
          (off + len) = flash (off + len) := by
        rw [ih, if_neg (by omega)]
      simp only [programByte, update_self, hold]
      rw [if_pos (by omega), Nat.add_sub_cancel_left]
    simp only [programByte, update_of_ne hlast, ih]
    congr 1
    rw [eq_iff_iff]
    omega

lemma complete_flash : (fmuComplete s).flash = s.flash ∧ (fmuComplete s).launched = s.launched :=
  ⟨rfl, rfl⟩

lemma verifyErased_flash (off len : ℕ) : (fmuVerifyErased s off len).flash = s.flash ∧
      (fmuVerifyErased s off len).launched = s.launched := by
  unfold fmuVerifyErased
  split <;> exact ⟨rfl, rfl⟩

lemma commit_spec {s : FmuState} (hwants : WantsWords s.peCmd s.peExpect)
    (halign : s.peAddr % (s.peExpect * 4) = 0) (hinside : s.peAddr < flashSize) :
    ∃ t, fmuCommit s = some t ∧ Handshake t ∧ t.launched = s.launched ∧
      ((s.peCmd = fcmdPgmpg ∨ s.peCmd = fcmdPgmphr) ∧ Programmed s t.flash ∨
      s.peCmd = fcmdErsscr ∧ SectorErased s t.flash) := by
  have hsize : flashSize = 0x200000 := rfl
  have hsector : flashSector = 0x2000 := rfl
  by_cases hprogram : s.peCmd = fcmdPgmpg ∨ s.peCmd = fcmdPgmphr
  · have hfits : ¬ s.peAddr + s.peExpect * 4 > flashSize := by
      rcases hwants with ⟨_, hwords⟩ | ⟨_, hwords⟩
      · rw [hwords] at halign ⊢
        omega
      · rw [hwords] at halign ⊢
        omega
    simp only [fmuCommit, hprogram, hfits, if_true, if_false, Option.some.injEq,
      exists_eq_left', true_and]
    refine ⟨handshake_complete _, ?_, Or.inl ?_⟩
    · split <;> rfl
    intro a
    rw [← foldl_programByte]
    split <;> rfl
  have herase : s.peCmd = fcmdErsscr := by
    rcases hwants with ⟨hcmd, _⟩ | ⟨hcmd | hcmd, _⟩
    · exact absurd (Or.inl hcmd) hprogram
    · exact absurd (Or.inr hcmd) hprogram
    · exact hcmd
  have hfits : ¬ s.peAddr / flashSector * flashSector + flashSector > flashSize := by
    rw [hsector]
    omega
  have hnot : ¬ (fcmdErsscr = fcmdPgmpg ∨ fcmdErsscr = fcmdPgmphr) := by decide
  simp only [fmuCommit, herase, hnot, hfits, if_true, if_false, Option.some.injEq,
    exists_eq_left', false_and, false_or, true_and]
  refine ⟨handshake_complete _, ?_, ?_⟩
  · rw [(complete_flash _).2, (verifyErased_flash _ _ _).2]
  intro a
  rw [(complete_flash _).1, (verifyErased_flash _ _ _).1]
  simp only [fill]
  congr 1
  rw [eq_iff_iff, hsector]
  omega

lemma launch_flash : (fmuLaunch s).launched = s.launched ++ [(s.fccob 0).setWidth 8] ∧
      (fmuLaunch s).flash =
      if (s.fccob 0).setWidth 8 = fcmdErsall then fill s.flash 0 flashSize 0xFF else s.flash := by
  have hverified : ∀ (t : FmuState) (off len : ℕ),
      (fmuComplete (fmuVerifyErased t off len)).launched = t.launched ∧
        (fmuComplete (fmuVerifyErased t off len)).flash = t.flash := by
    intro t off len
    exact ⟨(verifyErased_flash t off len).2, (verifyErased_flash t off len).1⟩
  have hones : ∀ (t : FmuState) (addr unit : ℕ), (fmuReadOnes t addr unit).launched = t.launched ∧
        (fmuReadOnes t addr unit).flash = t.flash := by
    intro t addr unit
    unfold fmuReadOnes
    split
    · exact ⟨rfl, rfl⟩
    · exact hverified _ _ _
  unfold fmuLaunch
  simp only
  split
  · exact ⟨rfl, rfl⟩
  split
  · exact hverified _ _ _
  split
  · exact hverified _ _ _
  split
  · exact hones _ _ _
  split
  · exact hones _ _ _
  split
  · exact hones _ _ _
  split
  · exact ⟨rfl, rfl⟩
  split <;> exact ⟨rfl, rfl⟩

lemma flashWrite_flash (off : ℕ) (v : Word) (size : ℕ) :
    (mcxnFmuFlashWrite s off v size).launched = s.launched ∧
      (mcxnFmuFlashWrite s off v size).flash = s.flash := by
  unfold mcxnFmuFlashWrite
  split
  · exact ⟨rfl, rfl⟩
  split
  · exact ⟨rfl, rfl⟩
  split
  · exact ⟨rfl, rfl⟩
  rename_i t hstage
  have ht : t.launched = s.launched ∧ t.flash = s.flash := by
    unfold fmuStageAddr at hstage
    split at hstage
    · split at hstage
      · cases hstage
      · cases hstage
        exact ⟨rfl, rfl⟩
    split at hstage
    · cases hstage
    · cases hstage
      exact ⟨rfl, rfl⟩
  split
  · exact ht
  simp only
  split <;> exact ht

def Commits : FmuEvent → Prop
  | .write off v => off = 0 ∧ anyBit v fstatPerdy = true ∧ anyBit s.fstat fstatPerdy = true
  | _ => False

structure StepEffect (s : FmuState) (e : FmuEvent) (t : FmuState) : Prop where
  commits : Commits s e →
    (s.peCmd = fcmdPgmpg ∨ s.peCmd = fcmdPgmphr) ∧ Programmed s t.flash ∨
      s.peCmd = fcmdErsscr ∧ SectorErased s t.flash
  ersall : t.launched = s.launched ++ [fcmdErsall] → ∀ a < flashSize, t.flash a = 0xFF
  kept : ¬ Commits s e → t.launched ≠ s.launched ++ [fcmdErsall] → t.flash = s.flash
  blocked : anyBit s.fstat fstatErrors = true → t.launched = s.launched

lemma StepEffect.ofKept {s : FmuState} {e : FmuEvent} (hcommits : ¬ Commits s e)
    (h : t.launched = s.launched ∧ t.flash = s.flash) : StepEffect s e t where
  commits := fun hc => absurd hc hcommits
  ersall := by simp [h.1]
  kept := fun _ _ => h.2
  blocked := fun _ => h.1

lemma fstat_write_spec {s : FmuState} (h : Handshake s) (v : Word) :
    ∃ t, mcxnFmuWrite s 0 v = some t ∧ Handshake t ∧ StepEffect s (.write 0 v) t := by
  have hbits : ∀ mask, mask = fstatCcif ∨ mask = fstatPewenMask ∨ mask = fstatPerdy →
      anyBit (s.fstat &&& ~~~(v &&& fstatErrors)) mask = anyBit s.fstat mask := by
    rintro mask (rfl | rfl | rfl)
    · exact anyBit_clear_and_of_disjoint (by decide) _ _
    · exact anyBit_clear_and_of_disjoint (by decide) _ _
    · exact anyBit_clear_and_of_disjoint (by decide) _ _
  simp only [mcxnFmuWrite, if_true, hbits fstatPerdy (by simp), hbits fstatCcif (by simp)]
  split
  · -- the guest clears `PERDY`: the staged operation is committed
    rename_i hperdy
    rw [Bool.and_eq_true] at hperdy
    obtain ⟨hact, hwords⟩ := h.perdy.mp hperdy.2
    have hwindow := (h.window hact).1
    have hpos : 0 < s.peWords := by
      rcases hwindow with ⟨_, hexpect⟩ | ⟨_, hexpect⟩ <;> omega
    obtain ⟨halign, hinside⟩ := h.addr hact hpos
    obtain ⟨t, ht, hhandshake, hlaunched, heffect⟩ := commit_spec (s := { s with
        fstat := s.fstat &&& ~~~(v &&& fstatErrors) &&& ~~~fstatPerdy })
      hwindow halign hinside
    refine ⟨t, ht, hhandshake, fun _ => heffect, ?_, ?_, fun _ => hlaunched⟩
    · intro hersall
      rw [hlaunched] at hersall
      simp at hersall
    · exact fun hcommits => absurd ⟨rfl, hperdy⟩ hcommits
  rename_i hnotperdy
  have hcommits : ¬ Commits s (.write 0 v) := by
    rintro ⟨_, hv, hs⟩
    simp [hv, hs] at hnotperdy
  split
  next hlaunch =>
    simp only [Bool.and_eq_true, Bool.not_eq_true'] at hlaunch
    obtain ⟨hlaunched, hflash⟩ := launch_flash
      { s with fstat := s.fstat &&& ~~~(v &&& fstatErrors) }
    refine ⟨_, rfl, handshake_launch _, fun hc => absurd hc hcommits, ?_, ?_, ?_⟩
    · intro hersall a ha
      rw [hlaunched, append_cancel_left_eq, List.cons.injEq] at hersall
      rw [hflash, if_pos hersall.1, fill, if_pos (by omega)]
    · intro _ hother
      rw [hlaunched, Ne, append_cancel_left_eq, List.cons.injEq] at hother
      rw [hflash, if_neg (fun hcmd => hother ⟨hcmd, rfl⟩)]
    intro herror
    rw [hlaunch.2] at herror
    cases herror
  · exact ⟨_, rfl, h.congr hbits rfl rfl rfl rfl rfl, .ofKept hcommits ⟨rfl, rfl⟩⟩

lemma step_spec {s : FmuState} (h : Handshake s) (e : FmuEvent) :
    ∃ t, fmuStep s e = some t ∧ Handshake t ∧ StepEffect s e t := by
  cases e with
  | write off v =>
    by_cases hoff : off = 0
    · subst hoff
      exact fstat_write_spec h v
    have hcommits : ¬ Commits s (.write off v) := fun hc => hoff hc.1
    simp only [fmuStep, mcxnFmuWrite, hoff, if_false]
    split
    · exact ⟨_, rfl, h.congr (fun _ _ => rfl) rfl rfl rfl rfl rfl, .ofKept hcommits ⟨rfl, rfl⟩⟩
    split
    · split
      · split
        · refine ⟨_, rfl, ?_, .ofKept hcommits ⟨rfl, rfl⟩⟩
          exact (handshake_fail { s with fctrl := v } fstatCmdabt).congr
            (fun _ _ => rfl) rfl rfl rfl rfl rfl
        · exact ⟨_, rfl, h.congr (fun _ _ => rfl) rfl rfl rfl rfl rfl, .ofKept hcommits ⟨rfl, rfl⟩⟩
      · exact ⟨_, rfl, h.congr (fun _ _ => rfl) rfl rfl rfl rfl rfl, .ofKept hcommits ⟨rfl, rfl⟩⟩
    split
    · split
      · exact ⟨_, rfl, h.congr (fun _ _ => rfl) rfl rfl rfl rfl rfl, .ofKept hcommits ⟨rfl, rfl⟩⟩
      · exact ⟨_, rfl, h, .ofKept hcommits ⟨rfl, rfl⟩⟩
    · exact ⟨_, rfl, h, .ofKept hcommits ⟨rfl, rfl⟩⟩
  | flashWrite off v size =>
    exact ⟨_, rfl, handshake_flashWrite h off.isLt v size,
      .ofKept id (flashWrite_flash s off v size)⟩
  | reset => exact ⟨_, rfl, handshake_reset s, .ofKept id ⟨rfl, rfl⟩⟩

lemma next_handshake (events : List FmuEvent) :
    ∃ s, run fmuNext (some (powerOn flash)) events = some s ∧ Handshake s := by
  apply run_invariant (P := fun o => ∃ s, o = some s ∧ Handshake s)
  · rintro _ e ⟨s, rfl, h⟩
    obtain ⟨t, ht, hhandshake, _⟩ := step_spec h e
    exact ⟨t, ht, hhandshake⟩
  · exact ⟨_, rfl, handshake_reset _⟩

/-- Flash integrity: along every run the handshake bits tell where the controller
stands and no step reaches the assertion; the array changes only when `ERSALL` is
launched or a staged operation is committed, and then exactly as that operation
says; and a write that finds an error flag launches nothing. -/
theorem flash_integrity (events : List FmuEvent) :
    ∃ s, run fmuNext (some (powerOn flash)) events = some s ∧
      (anyBit s.fstat fstatCcif = true ↔ s.peActive = false) ∧
      (anyBit s.fstat fstatPewenMask = true → s.peActive = true ∧ s.peWords < s.peExpect) ∧
      (anyBit s.fstat fstatPerdy = true ↔ s.peActive = true ∧ s.peWords = s.peExpect) ∧
      s.peWords * 4 ≤ flashPage ∧
      ∀ e, ∃ t, fmuStep s e = some t ∧ StepEffect s e t := by
  obtain ⟨s, hs, h⟩ := next_handshake flash events
  refine ⟨s, hs, ?_, h.pewen, h.perdy, ?_, ?_⟩
  · rw [h.ccif]
    simp
  · have hpage : flashPage = 128 := rfl
    cases hactive : s.peActive with
    | false => rw [h.idle hactive]; omega
    | true =>
      obtain ⟨hwants, hwords⟩ := h.window hactive
      rcases hwants with ⟨_, hexpect⟩ | ⟨_, hexpect⟩ <;> omega
  intro e
  obtain ⟨t, ht, _, heffect⟩ := step_spec h e
  exact ⟨t, ht, heffect⟩

end Mcxn947.Fmu
