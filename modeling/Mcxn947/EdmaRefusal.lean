import Mcxn947.EdmaMinorLoop

/-!
# Refused and performed services

A channel is serviced by a software `START`, by a hardware request or by a
link.
-/

namespace Mcxn947.Edma

open MachineWords EventRuns List Function Chan EdmaState

def Chan.refusal (c : Chan) : Word :=
  if c.dsize = 0 ∨ c.nbytes = 0 ∨ c.citer = 0 then chEsNce else c.tcdErr

lemma Chan.anyBit_refusal {c : Chan} {mask : Word} (h : anyBit c.refusal mask) :
    ∃ r : TcdRule, r.Violated c ∧ anyBit r.flag mask := by
  unfold refusal at h
  split at h
  next hzero =>
    rcases hzero with hdsize | hnbytes | hciter
    · exact absurd hdsize c.dsize_pos.ne'
    · exact ⟨.nbytesZero, hnbytes, h⟩
    · exact ⟨.citerZero, hciter, h⟩
  · obtain ⟨r, _, hviol, hflag⟩ := (c.anyBit_tcdErr mask).mp h
    exact ⟨r, hviol, hflag⟩

lemma Chan.refusal_names_violated {c : Chan} (hbroken : ∃ r : TcdRule, r.Violated c) :
    ∃ r : TcdRule, r.Violated c ∧ anyBit c.refusal r.flag := by
  unfold refusal
  split
  next hzero =>
    rcases hzero with hdsize | hnbytes | hciter
    · exact absurd hdsize c.dsize_pos.ne'
    · exact ⟨.nbytesZero, hnbytes, TcdRule.anyBit_flag_self .nbytesZero⟩
    · exact ⟨.citerZero, hciter, TcdRule.anyBit_flag_self .citerZero⟩
  rename_i hpositive
  obtain ⟨r, hviol⟩ := hbroken
  have hcoll : r.Collected := by
    constructor
    · rintro rfl
      exact hpositive (.inr (.inl hviol))
    · rintro rfl
      exact hpositive (.inr (.inr hviol))
  exact ⟨r, hviol, (c.anyBit_tcdErr _).mpr ⟨r, hcoll, hviol, r.anyBit_flag_self⟩⟩

structure ChanRefused (c c' : Chan) : Prop where
  kept : c' = { c with
    csr := c'.csr, es := c'.es, intr := c'.intr, tcdCsr := c'.tcdCsr }
  tcdCsr : c'.tcdCsr &&& ~~~tcdCsrStart = c.tcdCsr &&& ~~~tcdCsrStart
  done : c'.csr = c.csr &&& ~~~chCsrDone
  err : anyBit c'.es chEsErr = true
  named : ∃ r : TcdRule, r.Violated c ∧ anyBit c'.es r.flag = true
  sound : ∀ mask, anyBit c'.es mask = true →
    anyBit c.es mask = true ∨ anyBit chEsErr mask = true ∨
      ∃ r : TcdRule, r.Violated c ∧ anyBit r.flag mask = true
  intr : c'.intr = if anyBit c.csr chCsrEei then c.intr ||| chIntInt else c.intr

lemma refuse_ch (s : EdmaState) (n : ChanIdx) (err : Word) :
    (edmaRefuse s n err).ch = Function.update s.ch n { s.ch n with
        es := (s.ch n).es ||| (err ||| chEsErr)
        intr := if anyBit (s.ch n).csr chCsrEei
          then (s.ch n).intr ||| chIntInt else (s.ch n).intr } := by
  cases heei : anyBit (s.ch n).csr chCsrEei with
  | true => simp [edmaRefuse, modifyCh, edmaUpdateIrq, heei]
  | false => simp [edmaRefuse, modifyCh, heei]

section Services

variable {μ : Type} {bus : Bus μ}

lemma minorLoopWith_refused
    (bus : Bus μ) (link : Engine μ → ℕ → Engine μ) {x : Engine μ} {n : ChanIdx}
    (hbroken : ∃ r : TcdRule, r.Violated (x.st.ch n)) :
    edmaMinorLoopWith link bus x n =
      ({ x with st := edmaRefuse x.st n (x.st.ch n).refusal }, true) := by
  unfold edmaMinorLoopWith refusal
  dsimp only
  split
  · rfl
  rename_i hpositive
  have herr : (x.st.ch n).tcdErr ≠ 0 := by
    intro hzero
    obtain ⟨r, hviol⟩ := hbroken
    exact (x.st.ch n).accepted_iff.mpr ⟨hpositive, hzero⟩ r hviol
  rw [if_pos herr]

inductive Service (bus : Bus μ) (x : Engine μ) (n : ChanIdx) :
    Chan → List BusMark → Engine μ → Prop where
  | start (off : ℕ) (v : Word) : EdmaReg.ofOffset off = some (.chan n .tcdCsr) →
      anyBit v (tcdCsrStart.setWidth 32) = true →
      Service bus x n ((x.st.ch n).write v .tcdCsr) [] (edmaWrite bus x off v)
  | request : x.st.eligible n = true →
      Service bus x n (x.st.ch n) [.request n (muxSrc (x.st.ch n).mux)] (serviceChannel bus x n).1
  | link : x.st.inLink = false → Service bus x n (x.st.ch n) [] (edmaLinkChannel bus 1 x n)

structure Refused (x : Engine μ) (n : ChanIdx) (c : Chan)
    (log : List BusMark) (z : Engine μ) : Prop where
  mem : z.mem = x.mem
  trace : z.trace = x.trace ++ log
  others : ∀ m, m ≠ n → z.st.ch m = x.st.ch m
  chan : ChanRefused c (z.st.ch n)

def Performed (x : Engine μ) (n : ChanIdx) (c : Chan) (log : List BusMark) (z : Engine μ) : Prop :=
  ∃ (x' y : Engine μ) (ops : List BusMark), x'.trace = x.trace ++ log ∧ x'.st.ch n = c.clearDone ∧
    MinorLoopDone x' n y ops ∧ y.trace <+: z.trace

structure ServicePrepared (bus : Bus μ) (x : Engine μ) (n : ChanIdx)
    (c : Chan) (log : List BusMark) (z x' : Engine μ)
    (link : Engine μ → ℕ → Engine μ) : Prop where
  mem : x'.mem = x.mem
  trace : x'.trace = x.trace ++ log
  chan : x'.st.ch n = c.clearDone
  others : ∀ m, m ≠ n → x'.st.ch m = x.st.ch m
  link_moves : ∀ y l, EngineMoves bus y (link y l)
  after_mem : z.mem = (edmaMinorLoopWith link bus x' n).1.mem
  after_trace : z.trace = (edmaMinorLoopWith link bus x' n).1.trace
  after_others : ∀ m, m ≠ n → z.st.ch m = (edmaMinorLoopWith link bus x' n).1.st.ch m
  after_chan : z.st.ch n = (edmaMinorLoopWith link bus x' n).1.st.ch n ∨
    z.st.ch n = ((edmaMinorLoopWith link bus x' n).1.st.ch n).clearStart

lemma write_start (bus : Bus μ) (x : Engine μ) {n : ChanIdx} {off : ℕ}
    {v : Word} (hoff : EdmaReg.ofOffset off = some (.chan n .tcdCsr))
    (hstart : anyBit v (tcdCsrStart.setWidth 32)) :
    edmaWrite bus x off v = edmaRun bus ((x.modifyCh n fun c => c.write v .tcdCsr).modifyCh n
      clearDone) n := by
  simp [edmaWrite, hoff, hstart]

variable {x : Engine μ} {n : ChanIdx} {c : Chan} {log : List BusMark}
variable {z x' : Engine μ} {link : Engine μ → ℕ → Engine μ}

lemma Service.prepared (h : Service bus x n c log z) :
    ∃ x' link, ServicePrepared bus x n c log z x' link := by
  cases h with
  | start off v hoff hstart =>
    refine ⟨(x.modifyCh n fun c => c.write v .tcdCsr).modifyCh n
      clearDone, edmaLinkChannel bus 1, ?_⟩
    rw [write_start bus x hoff hstart]
    exact {
      mem := rfl
      trace := (append_nil _).symm
      chan := by simp [Engine.modifyCh, modifyCh]
      others := fun m hm => by
        simp [Engine.modifyCh, modifyCh, hm]
      link_moves := linkChannel_moves 1
      after_mem := rfl
      after_trace := rfl
      after_others := modifyCh_othersKept _ _
      after_chan := .inr (update_self _ _ _) }
  | request helig =>
    refine ⟨(x.mark (.request n (muxSrc (x.st.ch n).mux))).modifyCh n
      clearDone, edmaLinkChannel bus 1, ?_⟩
    unfold serviceChannel
    dsimp only
    rw [if_pos helig]
    -- acknowledging an edge source changes no channel
    constructor
    case mem => rfl
    case trace => rfl
    case chan => exact update_self _ _ _
    case others => exact modifyCh_othersKept _ _
    case link_moves => exact linkChannel_moves 1
    case after_mem => split <;> rfl
    case after_trace => split <;> rfl
    case after_others => intro m _; split <;> rfl
    case after_chan => left; split <;> rfl
  | link hfree =>
    refine ⟨(x.setInLink true).modifyCh n clearDone, edmaLinkChannel bus 0, ?_⟩
    rw [linkChannel_taken hfree]
    exact {
      mem := rfl
      trace := (append_nil _).symm
      chan := update_self _ _ _
      others := modifyCh_othersKept (x.setInLink true) _
      link_moves := linkChannel_moves 0
      after_mem := rfl
      after_trace := rfl
      after_others := modifyCh_othersKept _ _
      after_chan := .inr (update_self _ _ _) }

lemma Chan.refusal_clearDone (c : Chan) : c.clearDone.refusal = c.refusal := rfl

lemma chanRefused_of_latched {c' : Chan} (hbroken : ∃ r : TcdRule, r.Violated c)
    (hlatch : c' = { c.clearDone with
      es := c.es ||| (c.refusal ||| chEsErr)
      intr := if anyBit c.csr chCsrEei then c.intr ||| chIntInt
        else c.intr }) :
    ChanRefused c c' ∧ ChanRefused c c'.clearStart := by
  have herr : anyBit chEsErr chEsErr := by decide
  obtain ⟨r, hviol, hflag⟩ := refusal_names_violated hbroken
  have hsound : ∀ mask, anyBit (c.es ||| (c.refusal ||| chEsErr)) mask →
      anyBit c.es mask ∨ anyBit chEsErr mask ∨
        ∃ r : TcdRule, r.Violated c ∧ anyBit r.flag mask := by
    intro mask hmask
    rw [anyBit_or, anyBit_or, Bool.or_eq_true, Bool.or_eq_true] at hmask
    rcases hmask with hold | hrefusal | herrbit
    · exact .inl hold
    · exact .inr (.inr (anyBit_refusal hrefusal))
    · exact .inr (.inl herrbit)
  subst hlatch
  constructor
  · exact ⟨rfl, rfl, rfl, by simp [herr], ⟨r, hviol, by simp [hflag]⟩, hsound, rfl⟩
  refine ⟨rfl, ?_, rfl, by simp [clearStart, herr],
    ⟨r, hviol, by simp [clearStart, hflag]⟩, hsound, rfl⟩
  simp [clearStart, clearDone, BitVec.and_assoc]

lemma ServicePrepared.refused (h : ServicePrepared bus x n c log z x' link)
    (hbroken : ∃ r : TcdRule, r.Violated c) : Refused x n c log z := by
  have hbroken' : ∃ r : TcdRule, r.Violated (x'.st.ch n) := by
    obtain ⟨r, hviol⟩ := hbroken
    exact ⟨r, by rw [h.chan]; exact (r.violated_clearDone c).mpr hviol⟩
  have hloop := minorLoopWith_refused bus link hbroken'
  have hmem := h.after_mem
  have htrace := h.after_trace
  have hothers := h.after_others
  have hchan := h.after_chan
  rw [hloop] at hmem htrace hothers hchan
  simp only [refuse_ch] at hothers hchan
  have hlatch := chanRefused_of_latched hbroken rfl
  have heei : anyBit c.clearDone.csr chCsrEei = anyBit c.csr chCsrEei :=
    anyBit_clear_of_disjoint (by decide) c.csr
  refine ⟨hmem.trans h.mem, htrace.trans h.trace, ?_, ?_⟩
  · intro m hm
    rw [hothers m hm, update_of_ne hm, h.others m hm]
  rw [update_self, h.chan, refusal_clearDone, heei] at hchan
  rcases hchan with hchan | hchan
  · rw [hchan]
    exact hlatch.1
  · rw [hchan]
    exact hlatch.2

lemma moves_trace_isPrefix (hplain : bus.Plain) {y : Engine μ} (hmoves : EngineMoves bus x y) :
    x.trace <+: y.trace := by
  refine reflTransGen_relates (R := fun x y => x.trace <+: y.trace)
    (fun _ => prefix_rfl) (fun _ _ _ => List.IsPrefix.trans) ?_ hmoves
  rintro x y (⟨st, log, _, _⟩ | ⟨addr, size⟩ | ⟨addr, data⟩)
  · exact prefix_append _ _
  · rw [hplain.read_trace]
  · rw [hplain.write_trace]

lemma ServicePrepared.performed (hplain : bus.Plain) (h : ServicePrepared bus x n c log z x' link)
    (haccepted : c.Accepted) : Performed x n c log z := by
  have haccepted' : (x'.st.ch n).Accepted := by
    rw [h.chan]
    exact c.accepted_clearDone.mpr haccepted
  obtain ⟨ops, hdone⟩ := minorBody_done hplain haccepted'.chunk_dvd (haccepted' .nbytesZero)
  refine ⟨x', edmaMinorBody bus x' n, ops, h.trace, h.chan, hdone, ?_⟩
  rw [h.after_trace, minorLoopWith_accepted bus link haccepted']
  split
  · split
    · exact moves_trace_isPrefix hplain (h.link_moves _ _)
    · exact prefix_rfl
  · exact moves_trace_isPrefix hplain (majorDone_moves h.link_moves _ _ n)

/-- However a channel comes to be serviced, a descriptor that breaks a rule is
refused and nothing moves; on a bus of plain memory and peripherals any other
descriptor has its minor loop performed. -/
theorem service_refuses_or_performs {z : Engine μ} (hservice : Service bus x n c log z) :
    ((∃ r : TcdRule, r.Violated c) → Refused x n c log z) ∧
      (bus.Plain → (∀ r : TcdRule, ¬ r.Violated c) → Performed x n c log z) := by
  obtain ⟨x', link, hprepared⟩ := hservice.prepared
  exact ⟨hprepared.refused, fun hplain => hprepared.performed hplain⟩

theorem service_refuses_misaligned : Refused (⟨{ created 0 with ch := fun _ =>
          { byteToWordChan with tcdSaddr := 1, tcdAttr := 0x0202, csr := 4 } },
        fun _ => 0, []⟩ : Engine (Word → Byte)) 3
      { byteToWordChan with
        tcdSaddr := 1, tcdAttr := 0x0202, csr := 4, tcdCsr := 1 } []
      (edmaWrite memoryBus ⟨{ created 0 with ch := fun _ =>
          { byteToWordChan with tcdSaddr := 1, tcdAttr := 0x0202, csr := 4 } },
        fun _ => 0, []⟩ 0x403C 1) :=
  (service_refuses_or_performs
    (Service.start 0x403C 1 (by decide) (by decide))).1 ⟨.saddr, by decide⟩

end Services

end Mcxn947.Edma
