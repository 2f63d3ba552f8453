import Mcxn947.EdmaFabric
import Mcxn947.EdmaRefusal

/-!
# Wake-ups of the service bottom half

A channel is eligible when the four conditions of the service loop hold.
-/

namespace Mcxn947.Edma

open MachineWords EventRuns List Function EdmaState Engine

def EdmaState.Woken (s : EdmaState) : Prop := ∀ n, s.eligible n = true → s.bhScheduled = true

lemma EdmaState.eligible_iff (s : EdmaState) (n : ChanIdx) : s.eligible n ↔
      anyBit (s.ch n).csr chCsrErq ∧ muxSrc (s.ch n).mux ≠ 0 ∧
      s.reqLevel (muxSrc (s.ch n).mux) ∧ s.reqEnabled (muxSrc (s.ch n).mux) := by
  simp [eligible, and_assoc]

variable {s s' : EdmaState} {n : ChanIdx} {r : ChanReg} {off : ℕ} {v : Word}

lemma EdmaState.Woken.frame (hframe : s.Frame s') (h : s.Woken) : s'.Woken := by
  intro n helig
  rw [hframe.bhScheduled]
  obtain ⟨herq, hsrc, hlevel, hen⟩ := (s'.eligible_iff n).mp helig
  rw [hframe.mux] at hsrc hlevel hen
  rw [hframe.reqLevel] at hlevel
  rw [hframe.reqEnabled] at hen
  exact h n ((s.eligible_iff n).mpr ⟨hframe.erq n herq, hsrc, hlevel, hen⟩)

lemma EdmaState.eligible_mono (h : s'.eligible n) (hch : s'.ch = s.ch)
    (hlines : ∀ src, s'.reqLevel src → s'.reqEnabled src →
      s.reqLevel src ∧ s.reqEnabled src) : s.eligible n := by
  obtain ⟨herq, hsrc, hlevel, hen⟩ := (s'.eligible_iff n).mp h
  rw [hch] at herq hsrc hlevel hen
  exact (s.eligible_iff n).mpr ⟨herq, hsrc, hlines _ hlevel hen⟩

lemma EdmaState.Woken.drive (h : s.Woken) (i : EdmaInput) : (i.drive s).Woken := by
  have hsched : ∀ t : EdmaState, t.scheduleBh.Woken := fun _ _ _ => rfl
  cases i with
  | req src level =>
    simp only [EdmaInput.drive, mcxnEdmaReq]
    split
    · exact h
    rename_i i _
    cases level with
    | true => exact hsched _
    | false =>
      have hlines : ∀ src, (s.setLevel i false).reqLevel src → s.reqEnabled src →
          s.reqLevel src ∧ s.reqEnabled src := by
        intro src hlevel hen
        by_cases hsame : src = i
        · simp [setLevel, hsame] at hlevel
        · simpa [setLevel, hsame, hen] using hlevel
      exact fun n helig => h n (eligible_mono helig rfl hlines)
  | reqEnable src level =>
    simp only [EdmaInput.drive, mcxnEdmaReqEnable]
    split
    · exact h
    rename_i i _
    split
    · exact h
    split
    · exact hsched _
    rename_i hquiet
    -- the gate of source i opens while its line is low, or closes
    have hlines : ∀ src, s.reqLevel src → Function.update s.reqEnabled i level src →
        s.reqLevel src ∧ s.reqEnabled src := by
      intro src hlevel hen
      by_cases hsame : src = i
      · subst hsame
        rw [update_self] at hen
        simp [hen, hlevel] at hquiet
      · rw [update_of_ne hsame] at hen
        exact ⟨hlevel, hen⟩
    exact fun n helig => h n (eligible_mono helig rfl hlines)
  | reqPulse src level =>
    simp only [EdmaInput.drive, mcxnEdmaReqPulse]
    split
    · exact h
    cases level with
    | true => exact hsched _
    | false => exact h

section BottomHalf

variable {μ : Type} {bus : Bus μ}
variable {n : ChanIdx} {x : Engine μ}

lemma serviceChannel_idle (h : (serviceChannel bus x n).2 = false) :
    x.st.eligible n = false ∧ (serviceChannel bus x n).1 = x := by
  unfold serviceChannel at h ⊢
  cases helig : x.st.eligible n with
  | true => simp [helig] at h
  | false => simp

lemma servicePassFrom_idle (l : List ChanIdx) (acc : Engine μ × Bool)
    (h : (l.foldl (serviceNext bus) acc).2 = false) :
    l.foldl (serviceNext bus) acc = acc ∧ ∀ n ∈ l, acc.1.st.eligible n = false := by
  induction l generalizing acc with
  | nil => exact ⟨rfl, by simp⟩
  | cons n rest ih =>
    rw [foldl_cons] at h ⊢
    obtain ⟨hsame, hrest⟩ := ih _ h
    rw [hsame] at h
    obtain ⟨hbefore, hserv⟩ := Bool.or_eq_false_iff.mp h
    obtain ⟨hidle, hkept⟩ := serviceChannel_idle hserv
    have hnext : serviceNext bus acc n = acc :=
      Prod.ext hkept (by simp [serviceNext, hbefore, hserv])
    rw [hnext] at hsame hrest ⊢
    refine ⟨hsame, fun m hm => ?_⟩
    rcases List.mem_cons.mp hm with rfl | hm
    · exact hidle
    · exact hrest m hm

lemma servicePass_idle (h : (servicePass bus x).2 = false) :
    (servicePass bus x).1 = x ∧ ∀ n, x.st.eligible n = false := by
  obtain ⟨hsame, hidle⟩ := servicePassFrom_idle _ _ h
  exact ⟨congrArg Prod.fst hsame, fun n => hidle n (mem_finRange n)⟩

def serviceDrains (bus : Bus μ) : ℕ → Engine μ → Bool
  | 0, _ => false
  | passes + 1, x =>
    let pass := servicePass bus x
    if pass.2 then serviceDrains bus passes pass.1 else true

lemma serviceLoop_drained {passes : ℕ} (h : serviceDrains bus passes x) :
    ∀ n, (serviceLoop bus passes x).st.eligible n = false := by
  induction passes generalizing x with
  | zero => simp [serviceDrains] at h
  | succ passes ih =>
    rw [serviceLoop]
    rw [serviceDrains] at h
    cases hpass : (servicePass bus x).2 with
    | true =>
      rw [hpass, if_pos rfl] at h
      simpa only [hpass, if_true] using ih h
    | false =>
      obtain ⟨hsame, hidle⟩ := servicePass_idle hpass
      simpa only [hpass, hsame, Bool.false_eq_true, if_false] using hidle

lemma EdmaState.dropEdges_eligible (h : s.dropEdges.eligible n) : s.eligible n := by
  refine eligible_mono h rfl (fun src hlevel hen => ⟨?_, hen⟩)
  exact (Bool.and_eq_true_iff.mp hlevel).2

end BottomHalf

def EdmaState.Arms (s : EdmaState) (off : ℕ) (v : Word) : Prop :=
  ∃ n r, EdmaReg.ofOffset off = some (.chan n r) ∧
    (r = .chCsr ∨ r = .chMux) ∧ s.bhScheduled = false ∧
    s.eligible n = false ∧
    (s.modifyCh n fun c => c.write v r).eligible n = true

lemma Chan.write_csr (c : Chan) (v : Word) (h : r ≠ .chCsr) : (c.write v r).csr = c.csr := by
  cases r with
  | chCsr => exact absurd rfl h
  | chInt =>
    simp only [write]
    split <;> rfl
  | _ => rfl

lemma Chan.write_mux (c : Chan) (v : Word) (h : r ≠ .chMux) : (c.write v r).mux = c.mux := by
  cases r with
  | chMux => exact absurd rfl h
  | chInt =>
    simp only [write]
    split <;> rfl
  | _ => rfl

lemma EdmaState.write_frame (s : EdmaState) (n : ChanIdx) (v : Word)
    (hcsr : r ≠ .chCsr) (hmux : r ≠ .chMux) : s.Frame (s.modifyCh n fun c => c.write v r) :=
  s.modifyCh_frame n (fun c => c.write_mux v hmux) (fun c h => by rwa [c.write_csr v hcsr] at h)

lemma EdmaState.Woken.arming_write (h : s.Woken) (hoff : EdmaReg.ofOffset off = some (.chan n r))
    (hreg : r = .chCsr ∨ r = .chMux) (hguard : ¬ s.Arms off v) :
    (s.modifyCh n fun c => c.write v r).Woken := by
  intro m helig
  by_cases hm : m = n
  · subst hm
    by_contra hsleep
    have hunscheduled : s.bhScheduled = false := Bool.eq_false_iff.mpr hsleep
    have hbefore : s.eligible m = false := by
      by_contra hwas
      exact hsleep (h m (by simpa using hwas))
    exact hguard ⟨m, r, hoff, hreg, hunscheduled, hbefore, helig⟩
  · refine h m ?_
    simpa [eligible, modifyCh, hm] using helig

variable {μ : Type} {x : Engine μ}

lemma write_woken (f : Fabric μ) (h : x.st.Woken) (hguard : ¬ x.st.Arms off v) :
    (edmaWrite f.engagedBus x off v).st.Woken := by
  unfold edmaWrite
  split
  · exact h
  · exact h
  next n hoff =>
    have hkept : (x.st.modifyCh n fun c => c.write v .chInt).Woken :=
      h.frame (x.st.write_frame n v (by decide) (by decide))
    split
    · exact hkept.frame (updateIrq_frame _ n)
    · exact hkept
  next n hoff =>
    have hkept : (x.st.modifyCh n fun c => c.write v .tcdCsr).Woken :=
      h.frame (x.st.write_frame n v (by decide) (by decide))
    split
    · -- a software start: only own writes and engaged accesses follow
      refine engagedMoves_preserve (f := f) (P := EdmaState.Woken)
        (fun _ _ hframe h => h.frame hframe) (fun _ i h => h.drive i)
        (run_moves _ n) ?_
      exact hkept.frame (modifyCh_frame _ n (fun _ => rfl) (fun _ h => anyBit_of_anyBit_and h))
    · exact hkept
  next n r _ _ hoff =>
    by_cases hreg : r = .chCsr ∨ r = .chMux
    · exact h.arming_write hoff hreg hguard
    · obtain ⟨hcsr, hmux⟩ := not_or.mp hreg
      exact h.frame (x.st.write_frame n v hcsr hmux)
  · exact h
  · exact h
  · exact h

def KeepsWakeups {μ : Type} (f : Fabric μ) (x : Engine μ) : EdmaEvent μ → Prop
  | .mmioWrite off v => ¬ x.st.Arms off v
  | .bh => x.st.bhScheduled = true → serviceDrains f.serviceBus maxLoops
      { x with st := { x.st with bhScheduled := false } } = true
  | .input _ | .world _ | .reset => True

lemma runBh_woken {bus : Bus μ} (h : x.st.Woken)
    (hdrains : x.st.bhScheduled → serviceDrains bus maxLoops
      { x with st := { x.st with bhScheduled := false } }) : (runBh bus x).st.Woken := by
  unfold runBh
  split
  next hsched =>
    intro n helig
    have hidle := serviceLoop_drained (hdrains hsched) n
    rw [dropEdges_eligible helig] at hidle
    exact absurd hidle (by simp)
  · exact h

lemma step_woken (f : Fabric μ) (x : Engine μ) (e : EdmaEvent μ)
    (hguard : KeepsWakeups f x e) (h : x.st.Woken) : (edmaStep f x e).st.Woken := by
  cases e with
  | mmioWrite off v => exact write_woken f h hguard
  | input i => exact h.drive i
  | bh => exact runBh_woken h hguard
  | world mem => exact h
  | reset =>
    intro n helig
    have hlevel := ((eligible_iff _ n).mp helig).2.2.1
    simp [edmaStep, mcxnEdmaReset] at hlevel

/-- No lost wake-up: in every run from power-on whose bottom halves drain and
whose stores to `CH_CSR` and `CH_MUX` arm no channel behind an unscheduled
bottom half, every state has a bottom half scheduled for an eligible channel. -/
theorem no_lost_wakeup {μ : Type} (f : Fabric μ) (dmaId : Byte) (mem : μ)
    (events : List (EdmaEvent μ))
    (hadmits : Admits (edmaStep f) (KeepsWakeups f) (powerOn dmaId mem) events) (n : ChanIdx)
    (heligible : (run (edmaStep f) (powerOn dmaId mem) events).st.eligible n = true) :
    (run (edmaStep f) (powerOn dmaId mem) events).st.bhScheduled = true := by
  refine run_invariant_of_admits (P := fun x : Engine μ => x.st.Woken)
    (step_woken f) ?_ hadmits n heligible
  intro m hpowerOn
  have hlevel := ((eligible_iff _ m).mp hpowerOn).2.2.1
  simp [powerOn, mcxnEdmaReset] at hlevel

section PassLimit

variable {μ : Type} {bus : Bus μ}

structure Stranding (n : ChanIdx) (s : EdmaState) : Prop where
  asks : s.eligible n = true
  level : s.reqEdge (muxSrc (s.ch n).mux) = false
  broken : ∃ r : TcdRule, r.Violated (s.ch n)
  alone : ∀ m, m ≠ n → s.eligible m = false
  asleep : s.bhScheduled = false

def EdmaState.afterRefusal (s : EdmaState) (n : ChanIdx) : EdmaState :=
  edmaRefuse (s.modifyCh n Chan.clearDone) n (s.ch n).refusal

lemma EdmaState.afterRefusal_frame (s : EdmaState) (n : ChanIdx) : s.Frame (s.afterRefusal n) := by
  have hclear : s.Frame (s.modifyCh n Chan.clearDone) :=
    s.modifyCh_frame n (fun _ => rfl) (fun _ h => anyBit_of_anyBit_and h)
  exact hclear.trans (refuse_frame _ n _)

variable {n : ChanIdx} {x : Engine μ}

lemma Stranding.serviceChannel (h : Stranding n x.st) :
    serviceChannel bus x n = ({ x.mark (.request n (muxSrc (x.st.ch n).mux)) with
        st := x.st.afterRefusal n }, true) := by
  have hbroken : ∃ r : TcdRule, r.Violated
      (((x.mark (.request n (muxSrc (x.st.ch n).mux))).modifyCh n Chan.clearDone).st.ch n) := by
    obtain ⟨r, hviol⟩ := h.broken
    refine ⟨r, ?_⟩
    simp only [Engine.modifyCh, EdmaState.modifyCh, update_self]
    exact (r.violated_clearDone _).mpr hviol
  have hloop := minorLoopWith_refused bus (edmaLinkChannel bus 1) hbroken
  have hrefusal : (((x.mark (.request n (muxSrc (x.st.ch n).mux))).modifyCh n
      Chan.clearDone).st.ch n).refusal = (x.st.ch n).refusal := by
    simp only [Engine.modifyCh, EdmaState.modifyCh, update_self]
    rfl
  have hlevel := (x.st.afterRefusal_frame n).reqEdge
  have hedge : (x.st.afterRefusal n).reqEdge (muxSrc (x.st.ch n).mux) =
      false := by rw [hlevel]; exact h.level
  unfold Edma.serviceChannel edmaMinorLoop
  dsimp only
  rw [if_pos h.asks, hloop, hrefusal]
  change (if (x.st.afterRefusal n).reqEdge _ = true then _ else _, true) = _
  rw [hedge]
  rfl

lemma Stranding.afterRefusal (h : Stranding n s) : Stranding n (s.afterRefusal n) := by
  have hframe := s.afterRefusal_frame n
  have hch : ∀ m, (s.afterRefusal n).ch m = if m = n then
        { (s.ch n).clearDone with
          es := (s.ch n).es ||| ((s.ch n).refusal ||| chEsErr)
          intr := if anyBit (s.ch n).clearDone.csr chCsrEei
            then (s.ch n).intr ||| chIntInt else (s.ch n).intr }
      else s.ch m := by
    intro m
    unfold EdmaState.afterRefusal
    rw [refuse_ch]
    by_cases hm : m = n
    · subst hm
      simp only [EdmaState.modifyCh, update_self, if_true]
      rfl
    · simp [EdmaState.modifyCh, hm]
  have herq : anyBit ((s.afterRefusal n).ch n).csr chCsrErq = anyBit (s.ch n).csr chCsrErq := by
    rw [hch, if_pos rfl]
    exact anyBit_clear_of_disjoint (by decide) _
  have helig : (s.afterRefusal n).eligible n = s.eligible n := by
    simp only [EdmaState.eligible, herq, hframe.mux, hframe.reqLevel, hframe.reqEnabled]
  constructor
  · rw [helig]
    exact h.asks
  · rw [hframe.mux, hframe.reqEdge]
    exact h.level
  · obtain ⟨r, hviol⟩ := h.broken
    refine ⟨r, ?_⟩
    rw [hch, if_pos rfl]
    cases r <;> exact hviol
  · intro m hm
    rw [← h.alone m hm]
    simp only [EdmaState.eligible, hch, if_neg hm, hframe.reqLevel, hframe.reqEnabled]
  · rw [hframe.bhScheduled]
    exact h.asleep

lemma Stranding.servicePassFrom (bus : Bus μ) (l : List ChanIdx) (acc : Engine μ × Bool)
    (h : Stranding n acc.1.st) : Stranding n (l.foldl (serviceNext bus) acc).1.st ∧
      (n ∈ l ∨ acc.2 → (l.foldl (serviceNext bus) acc).2) := by
  induction l generalizing acc with
  | nil => exact ⟨h, fun hany => hany.resolve_left (by simp)⟩
  | cons m rest ih =>
    rw [foldl_cons]
    by_cases hm : m = n
    · subst hm
      have hnext : serviceNext bus acc m =
          ({ acc.1.mark (.request m (muxSrc (acc.1.st.ch m).mux)) with
            st := acc.1.st.afterRefusal m }, true) := by
        simp [serviceNext, h.serviceChannel]
      have hstranding : Stranding m (serviceNext bus acc m).1.st := by
        rw [hnext]
        exact h.afterRefusal
      obtain ⟨hafter, hprogress⟩ := ih _ hstranding
      exact ⟨hafter, fun _ => hprogress (.inr (by rw [hnext]))⟩
    have hidle : serviceNext bus acc m = acc := by
      simp [serviceNext, Edma.serviceChannel, h.alone m hm]
    rw [hidle]
    obtain ⟨hafter, hprogress⟩ := ih acc h
    refine ⟨hafter, fun hany => hprogress ?_⟩
    simpa [Ne.symm hm] using hany

lemma Stranding.serviceLoop (bus : Bus μ) (passes : ℕ) (h : Stranding n x.st) :
    Stranding n (serviceLoop bus passes x).st ∧ serviceDrains bus passes x = false := by
  induction passes generalizing x with
  | zero => exact ⟨h, rfl⟩
  | succ passes ih =>
    obtain ⟨hafter, hprogress⟩ := Stranding.servicePassFrom bus (List.finRange 16) (x, false) h
    have hbusy : (servicePass bus x).2 := hprogress (.inl (mem_finRange n))
    rw [Edma.serviceLoop, serviceDrains]
    simp only [hbusy, if_true]
    exact ih hafter

lemma Stranding.mcxnEdmaServiceBh (bus : Bus μ) (h : Stranding n x.st) :
    (mcxnEdmaServiceBh bus x).st.eligible n ∧ (mcxnEdmaServiceBh bus x).st.bhScheduled = false := by
  obtain ⟨hend, _⟩ := h.serviceLoop bus maxLoops
  obtain ⟨herq, hsrc, hlevel, hen⟩ := (eligible_iff _ n).mp hend.asks
  refine ⟨(eligible_iff _ n).mpr
    ⟨herq, hsrc, Bool.and_eq_true_iff.mpr ⟨?_, hlevel⟩, hen⟩, hend.asleep⟩
  exact (congrArg not hend.level).trans rfl

end PassLimit

def idleFabric : Fabric Unit where
  read _ _ _ size := ((), Vector.replicate size 0, true, [])
  write _ _ _ _ := ((), [])

def armEmptyChannel : List (EdmaEvent Unit) :=
  [.mmioWrite 0x1014 1, .mmioWrite 0x1000 1, .input (.req 1 true)]

lemma stranding_armEmptyChannel : Stranding 0
      { (run (edmaStep idleFabric) (powerOn 0 ()) armEmptyChannel).st
        with bhScheduled := false } where
  asks := by decide
  level := by decide
  broken := ⟨.nbytesZero, by decide⟩
  alone := by decide
  asleep := rfl

theorem passLimit_strands_request : (run (edmaStep idleFabric) (powerOn 0 ())
      (armEmptyChannel ++ [.bh])).st.eligible 0 = true ∧
    (run (edmaStep idleFabric) (powerOn 0 ())
      (armEmptyChannel ++ [.bh])).st.bhScheduled = false := by
  have hscheduled : (run (edmaStep idleFabric) (powerOn 0 ())
      armEmptyChannel).st.bhScheduled = true := by decide
  have hstranded := Stranding.mcxnEdmaServiceBh idleFabric.serviceBus
    (x := { run (edmaStep idleFabric) (powerOn 0 ()) armEmptyChannel
      with st := _ }) stranding_armEmptyChannel
  rw [run_append, run_cons, run_nil]
  simp only [edmaStep, runBh]
  exact hstranded

lemma EdmaState.not_arms_of_low (hlow : ∀ src, s.reqLevel src = false)
    (off : ℕ) (v : Word) : ¬ s.Arms off v := by
  rintro ⟨n, r, _, _, _, _, helig⟩
  have hlevel := ((eligible_iff _ n).mp helig).2.2.1
  exact absurd ((hlow _).symm.trans hlevel) (by simp)

theorem no_lost_wakeup_armed : (run (edmaStep idleFabric) (powerOn 0 ())
      armEmptyChannel).st.bhScheduled = true :=
  no_lost_wakeup idleFabric 0 () armEmptyChannel ⟨not_arms_of_low (by decide) _ _,
      not_arms_of_low (by decide) _ _, trivial, trivial⟩ 0
    stranding_armEmptyChannel.asks

end Mcxn947.Edma
