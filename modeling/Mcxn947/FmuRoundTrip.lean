import Mcxn947.FmuIntegrity

/-!
# Erase, program and verify

The three command sequences of the guest, composed from their steps: the command in
`FCCOB0`, the launch, the words of the unit stored one after the other, and `PERDY` cleared.
-/

namespace Mcxn947.Fmu

open MachineWords GuestMemory EventRuns List Nat

lemma flashSize_pos : 0 < flashSize := by decide

def flashStore (off : ℕ) (v : Word) : FmuEvent :=
  .flashWrite ⟨off % flashSize, mod_lt _ flashSize_pos⟩ v 4

def storeWords (off : ℕ) (data : Mem) (words : ℕ) : List FmuEvent :=
  (range words).map fun i => flashStore (off + 4 * i) (load32 data (4 * i))

def writeSequence (fccob0 : Word) (off : ℕ) (data : Mem) (words : ℕ) : List FmuEvent :=
  [.write 0x10 fccob0, .write 0x0 fstatCcif] ++ storeWords off data words ++ [.write 0x0 fstatPerdy]

def verifySequence (fccob0 fccob2 : Word) : List FmuEvent :=
  [.write 0x10 fccob0, .write 0x18 fccob2, .write 0x0 fstatCcif]

structure Idle (s : FmuState) : Prop where
  active : s.peActive = false
  ccif : anyBit s.fstat fstatCcif = true
  pewen : anyBit s.fstat fstatPewenMask = false
  perdy : anyBit s.fstat fstatPerdy = false

def NoErrors (s : FmuState) : Prop := anyBit s.fstat fstatErrors = false

lemma idle_complete (s : FmuState) : Idle (fmuComplete s) := by
  have h := handshake_complete s
  have hact : (fmuComplete s).peActive = false := rfl
  refine ⟨hact, ?_, ?_, ?_⟩
  · rw [h.ccif, hact]
    rfl
  · rw [← Bool.not_eq_true]
    intro hpewen
    exact absurd (h.pewen hpewen).1 (by rw [hact]; decide)
  · rw [← Bool.not_eq_true, h.perdy, hact]
    simp

lemma anyBit_complete (s : FmuState) {mask : Word}
    (hmask : (fstatPewenMask ||| fstatPerdy) &&& mask = 0) (hccif : anyBit fstatCcif mask = false) :
    anyBit (fmuComplete s).fstat mask = anyBit s.fstat mask := by
  simp only [fmuComplete, fmuUpdateIrq, anyBit_or, hccif, Bool.or_false]
  exact anyBit_clear_of_disjoint hmask _

def FmuState.withFccob (s : FmuState) (i : Fin 8) (v : Word) : FmuState :=
  { s with fccob := Function.update s.fccob i v }

variable {s : FmuState}

lemma Idle.withFccob (h : Idle s) (i : Fin 8) (v : Word) : Idle (s.withFccob i v) :=
  ⟨h.active, h.ccif, h.pewen, h.perdy⟩

lemma write_fccob (h : Idle s) (i : Fin 8) (v : Word) :
    mcxnFmuWrite s (0x10 + 4 * i) v = some (s.withFccob i v) := by
  have hrange : 0x10 ≤ 0x10 + 4 * i.val ∧ 0x10 + 4 * i.val < 0x30 := by omega
  have hidx : (⟨(0x10 + 4 * i.val - 0x10) / 4, by omega⟩ : Fin 8) = i := by
    apply Fin.ext
    show (0x10 + 4 * i.val - 0x10) / 4 = i.val
    omega
  rw [mcxnFmuWrite, if_neg (by omega), if_neg (by omega), if_neg (by omega), dif_pos hrange,
    h.ccif, if_pos rfl, hidx]
  rfl

lemma write_ccif (h : Idle s) (herrors : NoErrors s) :
    mcxnFmuWrite s 0x0 fstatCcif = some (fmuLaunch s) := by
  have hkeep : s.fstat &&& ~~~(fstatCcif &&& fstatErrors) = s.fstat := by exact BitVec.and_allOnes
  have hperdy : anyBit fstatCcif fstatPerdy = false := by decide
  have hccif : anyBit fstatCcif fstatCcif = true := by decide
  rw [NoErrors] at herrors
  simp [mcxnFmuWrite, hkeep, hperdy, hccif, h.ccif, herrors]

structure Staged (cmd : Byte) (n off : ℕ) (data flash : Mem) (k : ℕ) (s : FmuState) : Prop where
  active : s.peActive = true
  cmd : s.peCmd = cmd
  expect : s.peExpect = n
  words : s.peWords = k
  addr : 0 < k → s.peAddr = off
  buf : ∀ i < 4 * k, s.peBuf i = data i
  flash : s.flash = flash
  errors : NoErrors s
  pewen : k < n → anyBit s.fstat fstatPewenMask = true
  perdy : k = n → anyBit s.fstat fstatPerdy = true

variable {n : ℕ}

lemma staged_open (herrors : NoErrors s) {cmd : Byte} (hn : 0 < n)
    {pewen : Word} (hpewen : anyBit pewen fstatPewenMask)
    (hclean : anyBit pewen fstatErrors = false) (off : ℕ) (data : Mem) :
    Staged cmd n off data s.flash 0 (fmuOpenWriteWindow s cmd n pewen) where
  active := rfl
  cmd := rfl
  expect := rfl
  words := rfl
  addr := fun h => absurd h (lt_irrefl 0)
  buf := fun i hi => absurd hi (by omega)
  flash := rfl
  errors := by
    simp only [NoErrors, fmuOpenWriteWindow, anyBit_or, hclean, Bool.or_false]
    rw [anyBit_clear_of_disjoint (by decide), anyBit_clear_of_disjoint (by decide)]
    exact herrors
  pewen := fun _ => by simp [fmuOpenWriteWindow, hpewen]
  perdy := fun h => absurd h (by omega)

lemma store32_load32 (buf data : Mem) (addr i : ℕ) : store32 buf addr (load32 data addr) i =
      if addr ≤ i ∧ i < addr + 4 then data i else buf i := by
  rw [store32, wordBytes_load32]
  split
  next hin =>
    rw [store_apply_of_covers (by rw [length_load]; exact hin), getD_load _ _ (by omega),
      Nat.add_sub_cancel' hin.1]
  next hout => exact store_apply_of_not_covers (by rw [length_load]; exact hout)

variable {k : ℕ} {fccob0 : Word} {off : ℕ} {data flash : Mem}

lemma staged_store {cmd : Byte}
    (hwants : WantsWords cmd n) (halign : off % (n * 4) = 0) (hk : k < n)
    (h : Staged cmd n off data flash k s) : Staged cmd n off data flash (k + 1)
      (mcxnFmuFlashWrite s (off + 4 * k) (load32 data (4 * k)) 4) := by
  have hopen : (!s.peActive || !anyBit s.fstat fstatPewenMask) = false := by
    rw [h.active, h.pewen hk]
    rfl
  have hstage : fmuStageAddr s (off + 4 * k) = some { s with peAddr := off } := by
    by_cases hzero : k = 0
    · subst hzero
      rw [fmuStageAddr, if_pos h.words, h.expect, hwants.unit, mul_zero, add_zero,
        halign, if_neg (by simp)]
    have haddr := h.addr (pos_of_ne_zero hzero)
    rw [fmuStageAddr, if_neg (by rw [h.words]; exact hzero),
      if_neg (by rw [haddr, h.words]; omega), ← haddr]
  have hbuf : ∀ i < 4 * (k + 1), store32 s.peBuf (4 * k) (load32 data (4 * k)) i = data i := by
    intro i hi
    rw [store32_load32]
    split
    · rfl
    · exact h.buf i (by omega)
  rw [mcxnFmuFlashWrite, hopen, hstage]
  simp only [Bool.false_eq_true, if_false, ne_eq, not_true, ge_iff_le, h.words, h.expect,
    not_le.mpr hk, mul_comm k 4]
  split
  · -- the last word closes the window and raises `PERDY`
    rename_i hlast
    have hperdy : anyBit fstatPerdy fstatPerdy := by decide
    have hclean : anyBit fstatPerdy fstatErrors = false := by decide
    refine ⟨h.active, h.cmd, rfl, rfl, fun _ => rfl, hbuf, h.flash, ?_, ?_, ?_⟩
    · simp only [NoErrors, anyBit_or, hclean, Bool.or_false]
      rw [anyBit_clear_of_disjoint (by decide)]
      exact h.errors
    · exact fun hmore => absurd hlast (Nat.ne_of_lt hmore)
    · exact fun _ => by simp [hperdy]
  rename_i hmore
  exact ⟨h.active, h.cmd, rfl, rfl, fun _ => rfl, hbuf, h.flash, h.errors,
    fun _ => h.pewen hk, fun hlast => absurd hlast hmore⟩

lemma next_flashStore (s : FmuState) (hoff : off < flashSize) (v : Word) :
    fmuNext (some s) (flashStore off v) = some (mcxnFmuFlashWrite s off v 4) := by
  show some (mcxnFmuFlashWrite s (off % flashSize) v 4) = _
  rw [mod_eq_of_lt hoff]

lemma WantsWords.fits {cmd : Byte} (hwants : WantsWords cmd n)
    (halign : off % (n * 4) = 0) (hoff : off < flashSize) : off + 4 * n ≤ flashSize := by
  have hsize : flashSize = 0x200000 := rfl
  rcases hwants with ⟨_, rfl⟩ | ⟨_, rfl⟩ <;> omega

lemma WantsWords.pos {cmd : Byte} (hwants : WantsWords cmd n) : 0 < n := by
  rcases hwants with ⟨_, rfl⟩ | ⟨_, rfl⟩ <;> decide

lemma staged_words {cmd : Byte}
    (hwants : WantsWords cmd n) (halign : off % (n * 4) = 0) (hoff : off < flashSize)
    (h : Staged cmd n off data flash 0 s) (hk : k ≤ n) :
    ∃ t, run fmuNext (some s) (storeWords off data k) = some t ∧
      Staged cmd n off data flash k t := by
  induction k with
  | zero => exact ⟨s, rfl, h⟩
  | succ k ih =>
    obtain ⟨t, ht, hstaged⟩ := ih (le_of_succ_le hk)
    have hfits := hwants.fits halign hoff
    have hrun : run fmuNext (some s) (storeWords off data (k + 1)) =
        fmuNext (some t) (flashStore (off + 4 * k) (load32 data (4 * k))) := by
      rw [storeWords, range_succ, map_append, run_append, ← storeWords, ht]
      rfl
    rw [hrun, next_flashStore t (by omega)]
    exact ⟨_, rfl, staged_store hwants halign hk hstaged⟩

/-- The command is over, left `flash`, and set its one error flag just if `fails`. -/
structure Outcome (t : FmuState) (flash : Mem) (fails : Prop) : Prop where
  idle : Idle t
  flash : t.flash = flash
  fail : anyBit t.fstat fstatFail = true ↔ fails
  others : anyBit t.fstat (fstatCmdabt ||| fstatPviol ||| fstatAccerr) = false

lemma Outcome.noErrors {t : FmuState} {fails : Prop}
    (h : Outcome t flash fails) (hpass : ¬ fails) : NoErrors t := by
  have hfail : anyBit t.fstat fstatFail = false := by
    rw [← Bool.not_eq_true, h.fail]
    exact hpass
  have hsplit : fstatErrors = fstatFail ||| (fstatCmdabt ||| fstatPviol ||| fstatAccerr) := by
    decide
  rw [NoErrors, anyBit_comm, hsplit, anyBit_or, anyBit_comm fstatFail, hfail, anyBit_comm, h.others]
  rfl

lemma outcome_complete (herrors : NoErrors s) (fail : Bool) : Outcome
      (fmuComplete (if fail then { s with fstat := s.fstat ||| fstatFail } else s))
      s.flash (fail = true) := by
  have hsubset : ∀ {mask : Word}, fstatErrors &&& mask = mask → anyBit s.fstat mask = false := by
    intro mask hmask
    have hzero := anyBit_eq_false.mp herrors
    rw [anyBit_eq_false, ← hmask, ← BitVec.and_assoc, hzero]
    exact BitVec.zero_and
  have hclear : anyBit s.fstat fstatFail = false := hsubset (by decide)
  have hothers : anyBit s.fstat (fstatCmdabt ||| fstatPviol ||| fstatAccerr) = false :=
    hsubset (by decide)
  refine ⟨idle_complete _, ?_, ?_, ?_⟩
  · cases fail <;> rfl
  · rw [anyBit_complete _ (by decide) (by decide)]
    cases fail with
    | false => simp [hclear]
    | true =>
      have hset : anyBit fstatFail fstatFail := by decide
      simp [hset]
  rw [anyBit_complete _ (by decide) (by decide)]
  cases fail with
  | false => exact hothers
  | true =>
    have hapart : anyBit fstatFail (fstatCmdabt ||| fstatPviol ||| fstatAccerr) = false := by decide
    simp [hothers, hapart]

lemma outcome_verified (herrors : NoErrors s) (off len : ℕ) :
    Outcome (fmuComplete (fmuVerifyErased s off len)) s.flash (notErased s.flash off len) :=
  outcome_complete herrors (notErased s.flash off len)

lemma notErased_iff (flash : Mem) (off len : ℕ) : notErased flash off len ↔
      ∃ a, off ≤ a ∧ a < off + len ∧ a < flashSize ∧ flash a ≠ 0xFF := by
  simp only [notErased, List.any_eq_true, mem_range, Bool.and_eq_true, decide_eq_true_eq,
    bne_iff_ne]
  constructor
  · rintro ⟨i, hi, hin, hbyte⟩
    exact ⟨off + i, by omega, by omega, hin, hbyte⟩
  rintro ⟨a, hlow, hhigh, hin, hbyte⟩
  refine ⟨a - off, by omega, ?_⟩
  rw [Nat.add_sub_cancel' hlow]
  exact ⟨hin, hbyte⟩

lemma write_perdy (hperdy : anyBit s.fstat fstatPerdy) :
    mcxnFmuWrite s 0x0 fstatPerdy = fmuCommit { s with fstat := s.fstat &&& ~~~fstatPerdy } := by
  have hkeep : s.fstat &&& ~~~(fstatPerdy &&& fstatErrors) = s.fstat := by exact BitVec.and_allOnes
  have hset : anyBit fstatPerdy fstatPerdy := by decide
  simp [mcxnFmuWrite, hkeep, hset, hperdy]

def programmed (flash : Mem) (off : ℕ) (data : Mem) (len : ℕ) : Mem := fun a =>
  if off ≤ a ∧ a < off + len then flash a &&& data (a - off) else flash a

lemma foldl_programByte_fails (off : ℕ) (buf flash : Mem) (len : ℕ) :
    ((range len).foldl (programByte off buf) (flash, false)).2 ↔
      ∃ i < len, flash (off + i) &&& buf i ≠ buf i := by
  induction len with
  | zero => simp
  | succ len ih =>
    have hold : ((range len).foldl (programByte off buf) (flash, false)).1 (off + len) =
        flash (off + len) := by
      rw [foldl_programByte, if_neg (by omega)]
    rw [range_succ, foldl_append, foldl_cons, foldl_nil]
    simp only [programByte, hold, Bool.or_eq_true, ih, bne_iff_ne]
    constructor
    · rintro (⟨i, hi, hbyte⟩ | hbyte)
      · exact ⟨i, by omega, hbyte⟩
      · exact ⟨len, by omega, hbyte⟩
    rintro ⟨i, hi, hbyte⟩
    by_cases hlast : i = len
    · exact .inr (hlast ▸ hbyte)
    · exact .inl ⟨i, by omega, hbyte⟩

lemma and_ne_right_iff (f d : Byte) : f &&& d ≠ d ↔ ∃ b, d.getLsbD b ∧ f.getLsbD b = false := by
  constructor
  · intro hne
    by_contra hnone
    push Not at hnone
    apply hne
    apply BitVec.eq_of_getLsbD_eq
    intro b _
    have hb := hnone b
    cases hd : d.getLsbD b <;> simp_all
  rintro ⟨b, hd, hf⟩ heq
  have hbit := congrArg (fun v => BitVec.getLsbD v b) heq
  simp [hd, hf] at hbit

section Commit

variable {cmd : Byte} {n off : ℕ} {data flash : Mem} {s : FmuState}

lemma Staged.noErrors_perdy (h : Staged cmd n off data flash n s) :
    NoErrors { s with fstat := s.fstat &&& ~~~fstatPerdy } := by
  rw [NoErrors, anyBit_clear_of_disjoint (by decide)]
  exact h.errors

lemma Staged.commit_program (h : Staged cmd n off data flash n s)
    (hwants : WantsWords cmd n) (hcmd : cmd = fcmdPgmpg ∨ cmd = fcmdPgmphr)
    (halign : off % (n * 4) = 0) (hoff : off < flashSize) :
    ∃ t, mcxnFmuWrite s 0x0 fstatPerdy = some t ∧ Outcome t (programmed flash off data (4 * n))
      (∃ i < 4 * n, ∃ b, (data i).getLsbD b ∧ (flash (off + i)).getLsbD b = false) := by
  have hfits := hwants.fits halign hoff
  have haddr := h.addr hwants.pos
  rw [write_perdy (h.perdy rfl)]
  set result := (range (4 * n)).foldl (programByte off s.peBuf) (flash, false) with hresult
  have hcommit : fmuCommit { s with fstat := s.fstat &&& ~~~fstatPerdy } =
      some (fmuComplete (if result.2 then
        { s with fstat := s.fstat &&& ~~~fstatPerdy ||| fstatFail, flash := result.1 }
        else { s with fstat := s.fstat &&& ~~~fstatPerdy, flash := result.1 })) := by
    rw [fmuCommit]
    simp only [h.cmd, hcmd, if_true, h.expect, haddr, h.flash, mul_comm n 4, gt_iff_lt,
      not_lt.mpr hfits, if_false, ← hresult]
  have hdone := outcome_complete
    (s := { s with fstat := s.fstat &&& ~~~fstatPerdy, flash := result.1 })
    h.noErrors_perdy result.2
  have hflash : result.1 = programmed flash off data (4 * n) := by
    funext a
    rw [hresult, foldl_programByte, programmed]
    by_cases hin : off ≤ a ∧ a < off + 4 * n
    · rw [if_pos hin, if_pos hin, h.buf _ (by omega)]
    · rw [if_neg hin, if_neg hin]
  have hfails : result.2 ↔
      ∃ i < 4 * n, ∃ b, (data i).getLsbD b ∧ (flash (off + i)).getLsbD b = false := by
    rw [hresult, foldl_programByte_fails]
    apply exists_congr
    intro i
    apply and_congr_right
    intro hi
    rw [h.buf i hi, and_ne_right_iff]
  rw [hcommit]
  exact ⟨_, rfl, hdone.idle, hdone.flash.trans hflash, hdone.fail.trans hfails, hdone.others⟩

lemma Staged.commit_erase (h : Staged fcmdErsscr n off data flash n s)
    (hwants : WantsWords fcmdErsscr n) (hoff : off < flashSize) :
    ∃ t, mcxnFmuWrite s 0x0 fstatPerdy = some t ∧
      Outcome t (fill flash (off / flashSector * flashSector) flashSector 0xFF) False := by
  have haddr := h.addr hwants.pos
  have hnot : ¬ (fcmdErsscr = fcmdPgmpg ∨ fcmdErsscr = fcmdPgmphr) := by decide
  have hfits : ¬ off / flashSector * flashSector + flashSector > flashSize := by
    have hsize : flashSize = 0x200000 := rfl
    have hsector : flashSector = 0x2000 := rfl
    rw [hsector]
    omega
  set sec := off / flashSector * flashSector with hsec
  have hcommit : fmuCommit { s with fstat := s.fstat &&& ~~~fstatPerdy } =
      some (fmuComplete (fmuVerifyErased { s with
          fstat := s.fstat &&& ~~~fstatPerdy
          flash := fill flash sec flashSector 0xFF } sec flashSector)) := by
    rw [fmuCommit]
    simp only [h.cmd, hnot, if_false, if_true, haddr, ← hsec, hfits, h.flash]
  have hdone := outcome_verified (s := { s with
      fstat := s.fstat &&& ~~~fstatPerdy
      flash := fill flash sec flashSector 0xFF }) h.noErrors_perdy sec flashSector
  have hpass : ¬ notErased (fill flash sec flashSector 0xFF) sec flashSector := by
    rw [notErased_iff]
    rintro ⟨a, hlow, hhigh, -, hbyte⟩
    exact hbyte (if_pos ⟨hlow, hhigh⟩)
  rw [write_perdy (h.perdy rfl), hcommit]
  exact ⟨_, rfl, hdone.idle, hdone.flash, hdone.fail.trans (iff_of_false hpass id), hdone.others⟩

end Commit

def launching (s : FmuState) : FmuState :=
  { fmuUpdateIrq { s with fstat := s.fstat &&& ~~~fstatCcif } with
    launched := s.launched ++ [(s.fccob 0).setWidth 8] }

lemma noErrors_launching (h : NoErrors s) : NoErrors (launching s) := by
  show anyBit (s.fstat &&& ~~~fstatCcif) fstatErrors = false
  rw [anyBit_clear_of_disjoint (by decide)]
  exact h

lemma launch_opens {cmd : Byte} (hwants : WantsWords cmd n)
    (hcmd : (s.fccob 0).setWidth 8 = cmd) (herrors : NoErrors s) (off : ℕ) (data : Mem) :
    Staged cmd n off data s.flash 0 (fmuLaunch s) := by
  have hopen : ∃ pewen, anyBit pewen fstatPewenMask ∧ anyBit pewen fstatErrors = false ∧
      fmuLaunch s = fmuOpenWriteWindow (launching s) cmd n pewen := by
    rcases hwants with ⟨rfl, rfl⟩ | ⟨rfl | rfl, rfl⟩
    · refine ⟨pewenPage, by decide, by decide, ?_⟩
      rw [fmuLaunch, launching]
      simp only [hcmd]
      rfl
    · refine ⟨pewenPhrase, by decide, by decide, ?_⟩
      rw [fmuLaunch, launching]
      simp only [hcmd]
      rfl
    refine ⟨pewenPhrase, by decide, by decide, ?_⟩
    rw [fmuLaunch, launching]
    simp only [hcmd]
    rfl
  obtain ⟨pewen, hset, hclean, heq⟩ := hopen
  rw [heq]
  exact staged_open (noErrors_launching herrors) hwants.pos hset hclean off data

lemma writeSequence_staged (hidle : Idle s) (herrors : NoErrors s)
    {cmd : Byte} (hwants : WantsWords cmd n)
    (hcmd : fccob0.setWidth 8 = cmd) (halign : off % (n * 4) = 0)
    (hoff : off < flashSize) (data : Mem) :
    ∃ t, run fmuNext (some s) (writeSequence fccob0 off data n) = mcxnFmuWrite t 0x0 fstatPerdy ∧
      Staged cmd n off data s.flash n t := by
  have hidle' := hidle.withFccob 0 fccob0
  have hfccob : fmuNext (some s) (.write 0x10 fccob0) = some (s.withFccob 0 fccob0) :=
    write_fccob hidle 0 fccob0
  have hlaunch : fmuNext (some (s.withFccob 0 fccob0)) (.write 0x0 fstatCcif) =
      some (fmuLaunch (s.withFccob 0 fccob0)) :=
    write_ccif hidle' herrors
  have hopen := launch_opens (s := s.withFccob 0 fccob0) hwants hcmd herrors off data
  obtain ⟨t, ht, hstaged⟩ := staged_words hwants halign hoff hopen (le_refl n)
  refine ⟨t, ?_, hstaged⟩
  simp only [writeSequence, run_append, run_cons, run_nil, hfccob, hlaunch, ht]
  rfl

inductive ProgramUnit where
  | phrase | page

def ProgramUnit.cmd : ProgramUnit → Byte
  | .phrase => fcmdPgmphr
  | .page => fcmdPgmpg

def ProgramUnit.words : ProgramUnit → ℕ
  | .phrase => 4
  | .page => 32

lemma ProgramUnit.wants (u : ProgramUnit) : WantsWords u.cmd u.words := by
  cases u with
  | phrase => exact .inr ⟨.inl rfl, rfl⟩
  | page => exact .inl ⟨rfl, rfl⟩

lemma program_sequence (hidle : Idle s) (herrors : NoErrors s)
    (u : ProgramUnit) (hcmd : fccob0.setWidth 8 = u.cmd)
    (halign : off % (4 * u.words) = 0) (hoff : off < flashSize) (data : Mem) :
    ∃ t, run fmuNext (some s) (writeSequence fccob0 off data u.words) = some t ∧
      Outcome t (programmed s.flash off data (4 * u.words)) (∃ i < 4 * u.words, ∃ b,
      (data i).getLsbD b ∧ (s.flash (off + i)).getLsbD b = false) := by
  rw [mul_comm] at halign
  obtain ⟨t, hrun, hstaged⟩ := writeSequence_staged hidle herrors u.wants hcmd halign hoff data
  rw [hrun]
  refine hstaged.commit_program u.wants ?_ halign hoff
  cases u with
  | phrase => exact .inr rfl
  | page => exact .inl rfl

lemma erase_sequence (hidle : Idle s) (herrors : NoErrors s) (hcmd : fccob0.setWidth 8 = fcmdErsscr)
    (halign : off % 16 = 0) (hoff : off < flashSize) (data : Mem) :
    ∃ t, run fmuNext (some s) (writeSequence fccob0 off data 4) = some t ∧
      Outcome t (fill s.flash (off / flashSector * flashSector) flashSector 0xFF) False := by
  have hwants : WantsWords fcmdErsscr 4 := .inr ⟨.inr rfl, rfl⟩
  obtain ⟨t, hrun, hstaged⟩ := writeSequence_staged hidle herrors hwants hcmd halign hoff data
  rw [hrun]
  exact hstaged.commit_erase hwants hoff

inductive Rd1 where
  | all | blk | scr | pg | phr

def Rd1.cmd : Rd1 → Byte
  | .all => fcmdRd1all
  | .blk => fcmdRd1blk
  | .scr => fcmdRd1scr
  | .pg => fcmdRd1pg
  | .phr => fcmdRd1phr

def Rd1.unit : Rd1 → ℕ
  | .all => flashSize
  | .blk => flashSize / 2
  | .scr => flashSector
  | .pg => flashPage
  | .phr => flashPhrase

def Rd1.Accepts (c : Rd1) (addr : Word) : Prop :=
  match c with
  | .all | .blk => True
  | .scr | .pg | .phr => addr.toNat % c.unit = 0

def Rd1.Names (c : Rd1) (addr : Word) (a : ℕ) : Prop :=
  a < flashSize ∧ a / c.unit = addr.toNat % flashSize / c.unit

lemma flashOff_eq (addr : ℕ) : fmuFlashOff addr = addr % flashSize :=
  and_two_pow_sub_one_eq_mod addr 21

lemma block_iff {unit : ℕ} (hunit : 0 < unit) (addr a : ℕ) :
    addr / unit * unit ≤ a ∧ a < addr / unit * unit + unit ↔ a / unit = addr / unit := by
  rw [Nat.div_eq_iff hunit]
  omega

lemma readOnes_aligned (s : FmuState) {addr : ℕ} (hk : k ≤ 21) (h : addr % 2 ^ k = 0) :
    fmuReadOnes s (fmuFlashOff addr) (2 ^ k) =
      fmuComplete (fmuVerifyErased s (addr % flashSize / 2 ^ k * 2 ^ k) (2 ^ k)) := by
  have hdvd : 2 ^ k ∣ flashSize := pow_dvd_pow 2 hk
  have halign : addr % flashSize % 2 ^ k = 0 := by rw [mod_mod_of_dvd _ hdvd, h]
  rw [fmuReadOnes, flashOff_eq, and_two_pow_sub_one_eq_mod, halign, if_neg (by simp),
    Nat.div_mul_cancel (dvd_of_mod_eq_zero halign)]

lemma launch_verifies {c : Rd1} (hcmd : (s.fccob 0).setWidth 8 = c.cmd)
    (haccepts : c.Accepts (s.fccob 2)) : fmuLaunch s = fmuComplete (fmuVerifyErased (launching s)
      ((s.fccob 2).toNat % flashSize / c.unit * c.unit) c.unit) := by
  cases c with
  | all =>
    have hblock : (s.fccob 2).toNat % flashSize / flashSize = 0 :=
      div_eq_of_lt (mod_lt _ flashSize_pos)
    rw [Rd1.unit, hblock, zero_mul, fmuLaunch, launching]
    simp only [hcmd]
    rfl
  | blk =>
    rw [Rd1.unit, ← flashOff_eq, fmuLaunch, launching]
    simp only [hcmd]
    rfl
  | scr =>
    refine Eq.trans ?_ (readOnes_aligned (k := 13) (launching s) (by decide) haccepts)
    rw [fmuLaunch, launching]
    simp only [hcmd]
    rfl
  | pg =>
    refine Eq.trans ?_ (readOnes_aligned (k := 7) (launching s) (by decide) haccepts)
    rw [fmuLaunch, launching]
    simp only [hcmd]
    rfl
  | phr =>
    refine Eq.trans ?_ (readOnes_aligned (k := 4) (launching s) (by decide) haccepts)
    rw [fmuLaunch, launching]
    simp only [hcmd]
    rfl

lemma Rd1.unit_pos (c : Rd1) : 0 < c.unit := by
  cases c <;> decide

lemma verify_sequence (hidle : Idle s) (herrors : NoErrors s) (c : Rd1)
    (hcmd : fccob0.setWidth 8 = c.cmd) {fccob2 : Word} (haccepts : c.Accepts fccob2) :
    ∃ t, run fmuNext (some s) (verifySequence fccob0 fccob2) = some t ∧
      Outcome t s.flash (∃ a, c.Names fccob2 a ∧ s.flash a ≠ 0xFF) := by
  set s' := (s.withFccob 0 fccob0).withFccob 2 fccob2
  have hidle' : Idle (s.withFccob 0 fccob0) := hidle.withFccob 0 fccob0
  have hfirst : fmuNext (some s) (.write 0x10 fccob0) = some (s.withFccob 0 fccob0) :=
    write_fccob hidle 0 fccob0
  have hsecond : fmuNext (some (s.withFccob 0 fccob0)) (.write 0x18 fccob2) = some s' :=
    write_fccob hidle' 2 fccob2
  have hthird : fmuNext (some s') (.write 0x0 fstatCcif) = some (fmuLaunch s') :=
    write_ccif (hidle'.withFccob 2 fccob2) herrors
  have hdone := outcome_verified (s := launching s') (noErrors_launching herrors)
    (fccob2.toNat % flashSize / c.unit * c.unit) c.unit
  have hnames : notErased s.flash (fccob2.toNat % flashSize / c.unit * c.unit) c.unit ↔
      ∃ a, c.Names fccob2 a ∧ s.flash a ≠ 0xFF := by
    rw [notErased_iff]
    apply exists_congr
    intro a
    rw [Rd1.Names, ← block_iff c.unit_pos]
    tauto
  refine ⟨fmuLaunch s', ?_, ?_⟩
  · rw [verifySequence, run_cons, hfirst, run_cons, hsecond, run_cons, hthird, run_nil]
  · rw [launch_verifies (s := s') hcmd haccepts]
    exact ⟨hdone.idle, hdone.flash, hdone.fail.trans hnames, hdone.others⟩

lemma ProgramUnit.same_sector (u : ProgramUnit) {i : ℕ}
    (halign : off % (4 * u.words) = 0) (hi : i < 4 * u.words) :
    (off + i) / flashSector = off / flashSector := by
  have hsector : flashSector = 0x2000 := rfl
  rw [hsector]
  cases u with
  | phrase | page =>
    simp only [ProgramUnit.words] at halign hi
    omega

lemma erase_program_sequence (hidle : Idle s) (herrors : NoErrors s)
    (u : ProgramUnit) (hcmd : fccob0.setWidth 8 = u.cmd)
    (halign : off % (4 * u.words) = 0) (hoff : off < flashSize) (data : Mem)
    {ersscr : Word} (hersscr : ersscr.setWidth 8 = fcmdErsscr) {erased : ℕ}
    (herased : erased % 16 = 0) (hsector : erased / flashSector = off / flashSector) (any : Mem) :
    ∃ t, run fmuNext (some s) (writeSequence ersscr erased any 4 ++
      writeSequence fccob0 off data u.words) = some t ∧ Outcome t (fun a =>
      if off ≤ a ∧ a < off + 4 * u.words then data (a - off)
      else if a / flashSector = off / flashSector then 0xFF else s.flash a) False := by
  have hinside : erased < flashSize := by
    have hsize : flashSize = 0x200000 := rfl
    have hbytes : flashSector = 0x2000 := rfl
    rw [hbytes] at hsector
    omega
  obtain ⟨t₁, hrun₁, hdone₁⟩ := erase_sequence hidle herrors hersscr herased hinside any
  obtain ⟨t₂, hrun₂, hdone₂⟩ := program_sequence hdone₁.idle (hdone₁.noErrors id) u hcmd
    halign hoff data
  -- the array after the erase, by sectors
  have hflash : ∀ a, t₁.flash a =
      if a / flashSector = off / flashSector then 0xFF else s.flash a := by
    intro a
    rw [hdone₁.flash, hsector, fill]
    have hpos : 0 < flashSector := by decide
    have hblock := block_iff hpos off a
    simp only [hblock]
  have hones : ∀ i < 4 * u.words, t₁.flash (off + i) = 0xFF := by
    intro i hi
    rw [hflash, if_pos (u.same_sector halign hi)]
  refine ⟨t₂, by rw [run_append, hrun₁, hrun₂], hdone₂.idle, ?_, ?_, hdone₂.others⟩
  · rw [hdone₂.flash]
    funext a
    rw [programmed]
    by_cases hin : off ≤ a ∧ a < off + 4 * u.words
    · have hone := hones (a - off) (by omega)
      rw [Nat.add_sub_cancel' hin.1] at hone
      rw [if_pos hin, if_pos hin, hone]
      exact BitVec.allOnes_and
    · rw [if_neg hin, if_neg hin, hflash]
  rw [hdone₂.fail]
  refine iff_of_false ?_ id
  rintro ⟨i, hi, b, hdata, hbit⟩
  have hb : b < 8 := BitVec.lt_of_getLsbD hdata
  rw [hones i hi] at hbit
  have hset : ∀ j < 8, (0xFF : Byte).getLsbD j := by decide
  exact absurd (hset b hb) (by rw [hbit]; decide)

/-- The round trip: from an idle controller without error flags, programming a unit
leaves the old bytes and the data there and nothing else, and fails just where a bit
would have to become one; after an erase of the sector exactly the data is found, in a
sector of ones; and a verify command fails just when its range is not erased, and
changes nothing. -/
theorem flash_round_trip {s : FmuState} (hidle : Idle s) (herrors : NoErrors s) :
    (∀ (u : ProgramUnit) (fccob0 : Word), fccob0.setWidth 8 = u.cmd →
      ∀ off : ℕ, off % (4 * u.words) = 0 → off < flashSize → ∀ data : Mem,
      (∃ t, run fmuNext (some s) (writeSequence fccob0 off data u.words) = some t ∧
        Outcome t (programmed s.flash off data (4 * u.words)) (∃ i < 4 * u.words, ∃ b,
            (data i).getLsbD b = true ∧ (s.flash (off + i)).getLsbD b = false)) ∧
      ∀ (ersscr : Word) (erased : ℕ) (any : Mem), ersscr.setWidth 8 = fcmdErsscr →
        erased % 16 = 0 → erased / flashSector = off / flashSector →
        ∃ t, run fmuNext (some s) (writeSequence ersscr erased any 4 ++
            writeSequence fccob0 off data u.words) = some t ∧
          Outcome t (fun a =>
              if off ≤ a ∧ a < off + 4 * u.words then data (a - off)
              else if a / flashSector = off / flashSector then 0xFF
              else s.flash a)
            False) ∧
    (∀ (c : Rd1) (fccob0 fccob2 : Word), fccob0.setWidth 8 = c.cmd → c.Accepts fccob2 →
      ∃ t, run fmuNext (some s) (verifySequence fccob0 fccob2) = some t ∧
        Outcome t s.flash (∃ a, c.Names fccob2 a ∧ s.flash a ≠ 0xFF)) := by
  refine ⟨?_, fun c _ _ hcmd haccepts => verify_sequence hidle herrors c hcmd haccepts⟩
  intro u fccob0 hcmd off haligned hoff data
  refine ⟨program_sequence hidle herrors u hcmd haligned hoff data, ?_⟩
  intro ersscr erased any hersscr herased hsector
  exact erase_program_sequence hidle herrors u hcmd haligned hoff data hersscr herased hsector any

theorem flash_round_trip_phrase : Idle (powerOn fun _ => 0) ∧
      ∃ t, run fmuNext (some (powerOn fun _ => 0)) (writeSequence 0x42 0x2000 (fun _ => 0) 4 ++
          writeSequence 0x24 0x2010 (fun _ => 0x5A) 4) = some t ∧
        t.flash 0x2010 = 0x5A ∧ t.flash 0x2020 = 0xFF ∧ anyBit t.fstat fstatFail = false := by
  have hidle : Idle (powerOn fun _ => 0) := ⟨rfl, by decide, by decide, by decide⟩
  have hround := flash_round_trip hidle (show anyBit _ _ = false by decide)
  obtain ⟨t, hrun, hdone⟩ := (hround.1 .phrase 0x24 rfl 0x2010 (by decide) (by decide)
    (fun _ => 0x5A)).2 0x42 0x2000 (fun _ => 0) rfl (by decide) (by decide)
  refine ⟨hidle, t, hrun, ?_, ?_, ?_⟩
  · rw [hdone.flash]
    rfl
  · rw [hdone.flash]
    rfl
  · rw [← Bool.not_eq_true, hdone.fail, not_false_eq_true]
    trivial

end Mcxn947.Fmu
