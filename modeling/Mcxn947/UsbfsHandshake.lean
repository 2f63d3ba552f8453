import Mcxn947.UsbfsTokens

/-!
# The token handshake over whole runs

In device mode everything that the controller does to its tokens is one of three moves:
nothing that shows, a bank reset, and the retirement of the descriptor that is due, the last
only while no token waits for the guest.
-/

namespace Mcxn947.Usbfs

open MachineWords GuestMemory EventRuns List Function Option UsbfsState

variable (s : UsbfsState) {x : Controller} {v : Word}

def UsbfsState.tokdne : Bool := anyBit (s.regs rIstat) istatTokdne

structure SameFlags (s t : UsbfsState) : Prop where
  tokdne : t.tokdne = s.tokdne
  stat : t.regs rStat = s.regs rStat
  busy : t.tokdneBusy = s.tokdneBusy
  hostMode : t.hostMode = s.hostMode
  hostPend : t.hostPend = s.hostPend

def SameBanks (s t : UsbfsState) : Prop := ∀ ep tx, t.bank ep tx = s.bank ep tx

structure Retired (x y : Controller) (bd : Bd) : Prop where
  due : bd.odd = x.st.bank bd.ep bd.tx
  log : y.log = x.log ++ [.writeBack bd, .tokdne (statOf bd)]
  tokdne : y.st.tokdne = true
  busy : y.st.tokdneBusy = true
  hostMode : y.st.hostMode = x.st.hostMode
  hostPend : y.st.hostPend = x.st.hostPend
  banks : ∀ ep tx, y.st.bank ep tx =
    if bd.ep = ep ∧ bd.tx = tx then !x.st.bank ep tx else x.st.bank ep tx

inductive TokenMove (x y : Controller) : Prop where
  | quiet (hflags : SameFlags x.st y.st) (hbanks : SameBanks x.st y.st)
      (hmem : y.mem = x.mem) (hlog : y.log = x.log)
  | banks (hflags : SameFlags x.st y.st) (hbanks : ∀ ep tx, y.st.bank ep tx = false)
      (hmem : y.mem = x.mem) (hlog : y.log = x.log ++ [.bankReset])
  | retire {bd : Bd} (hidle : x.st.tokdneBusy = false) (h : Retired x y bd)

abbrev TokenMoves := Relation.ReflTransGen TokenMove

lemma SameFlags.refl : SameFlags s s := ⟨rfl, rfl, rfl, rfl, rfl⟩

variable {t : UsbfsState} {bd : Bd} {y : Controller} {ep : EpIdx}

lemma SameFlags.trans {s u : UsbfsState} (h : SameFlags s t) (h' : SameFlags t u) :
    SameFlags s u where
  tokdne := h'.tokdne.trans h.tokdne
  stat := h'.stat.trans h.stat
  busy := h'.busy.trans h.busy
  hostMode := h'.hostMode.trans h.hostMode
  hostPend := h'.hostPend.trans h.hostPend

lemma TokenMove.ofState (calls : List UsbdevCall)
    (hflags : SameFlags x.st t) (hbanks : SameBanks x.st t) :
    TokenMove x { x with st := t, calls := calls } :=
  .quiet hflags hbanks rfl rfl

lemma sameFlags_updateIrq : SameFlags s (usbfsUpdateIrq s) := ⟨rfl, rfl, rfl, rfl, rfl⟩

lemma sameFlags_setReg {r : RegIdx} (v : Word) (hstat : r ≠ rStat) (histat : r ≠ rIstat) :
    SameFlags s (s.setReg r v) where
  tokdne := by simp [tokdne, setReg, update_of_ne histat.symm]
  stat := update_of_ne hstat.symm _ _
  busy := rfl
  hostMode := rfl
  hostPend := rfl

lemma sameFlags_setIstat (hv : anyBit v istatTokdne = anyBit (s.regs rIstat) istatTokdne) :
    SameFlags s (s.setReg rIstat v) where
  tokdne := by simpa [tokdne, setReg] using hv
  stat := update_of_ne (show rStat ≠ rIstat by decide) v s.regs
  busy := rfl
  hostMode := rfl
  hostPend := rfl

lemma sameFlags_raise (flag : Word) (hflag : anyBit flag istatTokdne = false) :
    SameFlags s (s.setReg rIstat (s.regs rIstat ||| flag)) := by
  apply sameFlags_setIstat
  rw [anyBit_or, hflag, Bool.or_false]

lemma bank_flipBank (ep ep' : EpIdx) (tx tx' : Bool) : (s.flipBank ep tx).bank ep' tx' =
      if ep = ep' ∧ tx = tx' then !s.bank ep' tx' else s.bank ep' tx' := by
  by_cases hep : ep' = ep
  · subst hep
    cases tx <;> cases tx' <;> simp [flipBank, bank]
  have hep' : ep ≠ ep' := fun h => hep h.symm
  cases tx <;> cases tx' <;>
    simp [flipBank, bank, update_of_ne hep, hep']

lemma sameFlags_flipBank (ep : EpIdx) (tx : Bool) : SameFlags s (s.flipBank ep tx) := by
  cases tx <;> exact ⟨rfl, rfl, rfl, rfl, rfl⟩

lemma retired_tokdne (hdue : bd.odd = x.st.bank bd.ep bd.tx) (hflags : SameFlags x.st y.st)
    (hbanks : ∀ ep tx, y.st.bank ep tx =
      if bd.ep = ep ∧ bd.tx = tx then !x.st.bank ep tx else x.st.bank ep tx)
    (hlog : y.log = x.log ++ [.writeBack bd]) : Retired x (usbfsTokdne y bd) bd where
  due := hdue
  log := by simp [usbfsTokdne, hlog]
  tokdne := by
    have hflag : anyBit istatTokdne istatTokdne := by decide
    simp [usbfsTokdne, usbfsUpdateIrq, tokdne, setReg, hflag]
  busy := rfl
  hostMode := hflags.hostMode
  hostPend := hflags.hostPend
  banks := hbanks

lemma Retired.quiet {z : Controller} (h : Retired x y bd) (hflags : SameFlags y.st z.st)
    (hbanks : SameBanks y.st z.st) (hlog : z.log = y.log) : Retired x z bd where
  due := h.due
  log := hlog.trans h.log
  tokdne := hflags.tokdne.trans h.tokdne
  busy := hflags.busy.trans h.busy
  hostMode := hflags.hostMode.trans h.hostMode
  hostPend := hflags.hostPend.trans h.hostPend
  banks := fun ep tx => (hbanks ep tx).trans (h.banks ep tx)

lemma consumeStatusIn_retired
    (h : usbfsConsumeStatusIn x = some y) : Retired x y (x.st.due 0 true) := by
  simp only [usbfsConsumeStatusIn] at h
  split at h
  · cases h
  cases h
  refine Retired.quiet (retired_tokdne rfl ?_ ?_ ?_) (SameFlags.refl _) (fun _ _ => rfl) rfl
  · exact (sameFlags_flipBank x.st 0 true).trans ⟨rfl, rfl, rfl, rfl, rfl⟩
  · intro ep tx
    exact bank_flipBank x.st 0 ep true tx
  · rfl

lemma deliverSetup_retired
    (h : usbfsDeliverSetup x = some y) : Retired x y (x.st.due 0 false) := by
  simp only [usbfsDeliverSetup] at h
  split at h
  · cases h
  cases h
  refine retired_tokdne rfl ?_ ?_ ?_
  · exact (sameFlags_flipBank x.st 0 false).trans ⟨rfl, rfl, rfl, rfl, rfl⟩
  · intro ep tx
    exact bank_flipBank x.st 0 ep false tx
  · rfl

lemma retired_data
    (x : Controller) (ep : EpIdx) (tx : Bool) (m : Mem) (t : UsbfsXfer) (ba w : Word) :
    Retired x (usbfsTokdne
        { bdSt { x with st := x.st.setXfer ep t, mem := m } ba w (x.st.due ep tx) with
          st := (x.st.setXfer ep t).flipBank ep tx } (x.st.due ep tx)) (x.st.due ep tx) := by
  have hxfer : SameFlags x.st (x.st.setXfer ep t) := ⟨rfl, rfl, rfl, rfl, rfl⟩
  apply retired_tokdne rfl
  · exact hxfer.trans (sameFlags_flipBank (x.st.setXfer ep t) ep tx)
  · intro ep' tx'
    exact bank_flipBank (x.st.setXfer ep t) ep ep' tx tx'
  · rfl

lemma serviceIn_retired
    (h : usbfsServiceIn x ep = some y) : Retired x y (x.st.due ep true) := by
  unfold usbfsServiceIn at h
  extract_lets _ bd _ _ _ _ _ t x' w z at h
  split at h
  · cases h
  have hz : Retired x z bd := retired_data x ep true x.mem t _ _
  split at h
  · cases h
    exact hz.quiet ⟨rfl, rfl, rfl, rfl, rfl⟩ (fun _ _ => rfl) rfl
  · obtain rfl := some.inj h
    exact hz

lemma serviceOut_retired
    (h : usbfsServiceOut x ep = some y) : Retired x y (x.st.due ep false) := by
  unfold usbfsServiceOut at h
  extract_lets _ bd _ _ _ x' t x'' w z at h
  split at h
  · cases h
  have hz : Retired x z bd := retired_data x ep false x'.mem t _ _
  split at h
  · cases h
    exact hz.quiet ⟨rfl, rfl, rfl, rfl, rfl⟩ (fun _ _ => rfl) rfl
  · obtain rfl := some.inj h
    exact hz

lemma serviceEndpoints_cases (x : Controller) (eps : List EpIdx) :
    usbfsServiceEndpoints x eps = x ∨ ∃ bd, Retired x (usbfsServiceEndpoints x eps) bd := by
  induction eps with
  | nil => exact .inl rfl
  | cons ep rest ih =>
    unfold usbfsServiceEndpoints
    split
    next y hin =>
      split at hin
      · exact .inr ⟨_, serviceIn_retired hin⟩
      · cases hin
    split
    next y hout =>
      split at hout
      · exact .inr ⟨_, serviceOut_retired hout⟩
      · cases hout
    · exact ih

lemma service_cases (x : Controller) : usbfsService x = x ∨
      x.st.tokdneBusy = false ∧ ∃ bd, Retired x (usbfsService x) bd := by
  unfold usbfsService
  split
  · exact .inl rfl
  rename_i hgate
  simp only [Bool.or_eq_true, Bool.not_eq_true', not_or, Bool.not_eq_true] at hgate
  obtain ⟨_, hidle⟩ := hgate
  split
  next y hstatus =>
    split at hstatus
    · exact .inr ⟨hidle, _, consumeStatusIn_retired hstatus⟩
    · cases hstatus
  split
  next y hsetup =>
    split at hsetup
    · exact .inr ⟨hidle, _, deliverSetup_retired hsetup⟩
    · cases hsetup
  · exact (serviceEndpoints_cases x _).imp id (fun h => ⟨hidle, h⟩)

lemma service_moves (x : Controller) : TokenMoves x (usbfsService x) := by
  rcases service_cases x with hsame | ⟨hidle, bd, hret⟩
  · rw [hsame]
  · exact Relation.ReflTransGen.single (.retire hidle hret)

def DeviceMode (x : Controller) : Prop := x.st.hostMode = false ∧ x.st.hostPend = none

def UsbfsEvent.InDeviceMode : UsbfsEvent → Prop
  | .write off v _ => off % 4 = 0 ∧ (off = 0x94 → anyBit v ctlHostmodeen = false)
  | _ => True

def UsbfsEvent.Acks : UsbfsEvent → Prop
  | .write off v _ => off = 0x80 ∧ anyBit v istatTokdne = true
  | _ => False

def acknowledged (x : Controller) (v : Word) : Controller :=
  let s := x.st.setReg rIstat (x.st.regs rIstat &&& ~~~(v &&& 0xFF))
  { x with st := usbfsUpdateIrq { s with tokdneBusy := false } }

section

variable (hmode : DeviceMode x) (hv : anyBit v ctlHostmodeen = false)
include hmode hv

/-- In device mode a write of `CTL` stores the register, may reset the banks and announces what
becomes of the enable bit. -/
lemma writeCtl_device :
    ∃ y enabled new, (y = if anyBit v ctlOddrst then { x with st := x.st.setReg rCtl v }.resetBanks
        else { x with st := x.st.setReg rCtl v }) ∧ (∀ c ∈ new, c = .attach ∨ c = .detach) ∧
      writeCtl x v =
        { y with st := { y.st with enabled := enabled }, calls := y.calls ++ new } := by
  generalize hy : (if anyBit v ctlOddrst then { x with st := x.st.setReg rCtl v }.resetBanks
    else { x with st := x.st.setReg rCtl v }) = y
  have hhost : y.st.hostMode = false := by
    rw [← hy]
    split <;> exact hmode.1
  refine ⟨y, ?_⟩
  simp only [writeCtl, hy, hv, ← hhost]
  split
  · exact ⟨true, [.attach], trivial, by simp, by simp [hhost]⟩
  split
  · exact ⟨false, [.detach], trivial, by simp, by simp [hhost]⟩
  · exact ⟨y.st.enabled, [], trivial, by simp, by simp [hhost]⟩

lemma writeCtl_moves : TokenMoves x (writeCtl x v) := by
  obtain ⟨y, enabled, new, hy, -, heq⟩ := writeCtl_device hmode hv
  have hreg : TokenMove x { x with st := x.st.setReg rCtl v } :=
    .ofState _ (sameFlags_setReg _ _ (by decide) (by decide)) (fun _ _ => rfl)
  have hbanks : TokenMoves { x with st := x.st.setReg rCtl v } y := by
    rw [hy]
    split
    · exact .single (.banks ⟨rfl, rfl, rfl, rfl, rfl⟩ (fun _ tx => by cases tx <;> rfl)
        rfl rfl)
    · exact .refl
  rw [heq]
  -- the enable bit does not show
  exact (Relation.ReflTransGen.head hreg hbanks).tail
    (.ofState _ ⟨rfl, rfl, rfl, rfl, rfl⟩ (fun _ _ => rfl))

end

lemma writeIstat_moves (hv : anyBit v istatTokdne = false) : TokenMoves x (writeIstat x v) := by
  have hdisj : (v &&& 0xFF) &&& istatTokdne = 0 := by
    have hbyte : (0xFF : Word) &&& istatTokdne = istatTokdne := by decide
    rw [BitVec.and_assoc, hbyte]
    exact anyBit_eq_false.mp hv
  unfold writeIstat
  simp only [hv, Bool.false_eq_true, if_false]
  apply Relation.ReflTransGen.single
  refine .ofState _ (SameFlags.trans ?_ (sameFlags_updateIrq _)) (fun _ _ => rfl)
  exact sameFlags_setIstat _ (anyBit_clear_of_disjoint hdisj _)

lemma writeIstat_ack (hv : anyBit v istatTokdne) :
    writeIstat x v = usbfsService (acknowledged x v) := by
  simp only [writeIstat, hv, if_true]
  rfl

lemma usbfsWrite_moves {off : ℕ} (answer : HostAnswer) (hmode : DeviceMode x)
    (hdevice : (UsbfsEvent.write off v answer).InDeviceMode)
    (hack : ¬ (UsbfsEvent.write off v answer).Acks) :
    TokenMoves x (mcxnUsbfsWrite answer x off v) := by
  obtain ⟨halign, hhost⟩ := hdevice
  unfold mcxnUsbfsWrite
  by_cases hoff : off < 0x1000
  · rw [dif_pos hoff]
    extract_lets r
    have hregs : ∀ {q : RegIdx}, r = q → off = 4 * q.val := by
      rintro q rfl
      show off = 4 * (off / 4)
      omega
    clear_value r
    rw [if_neg (not_not_intro halign)]
    -- a plain store, and one that drives the interrupt line again
    have hplain : ∀ w : Word, r ≠ rStat → r ≠ rIstat →
        TokenMove x { x with st := x.st.setReg r w } := fun w hs hi =>
      .ofState _ (sameFlags_setReg _ w hs hi) (fun _ _ => rfl)
    have hdriven : ∀ w : Word, r ≠ rStat → r ≠ rIstat →
        TokenMove x { x with st := usbfsUpdateIrq (x.st.setReg r w) } := fun w hs hi =>
      .ofState _ ((sameFlags_setReg _ w hs hi).trans (sameFlags_updateIrq _)) (fun _ _ => rfl)
    split
    · exact .refl
    rename_i hro
    have hstat : r ≠ rStat := by
      rintro rfl
      exact hro (by decide)
    split
    next hr =>
      refine .single (hdriven _ hstat ?_)
      rcases hr with h | h <;> rw [h] <;> decide
    split
    next hr =>
      apply writeIstat_moves
      rw [← Bool.not_eq_true]
      exact fun hv => hack ⟨hregs hr, hv⟩
    rename_i histat
    split
    next hr => exact writeCtl_moves hmode (hhost (hregs hr))
    split
    · have hidle : ((x.st.setReg r v).hostMode && (x.st.setReg r v).enabled) = false :=
        Bool.and_eq_false_imp.mpr fun hon => absurd (hmode.1.symm.trans hon) (by decide)
      rw [if_neg (Bool.eq_false_iff.mp hidle)]
      exact .single (hplain v hstat histat)
    split
    · exact .single (hplain _ hstat histat)
    split
    · exact .single (hdriven _ hstat histat)
    · exact .single (hplain _ hstat histat)
  · rw [dif_neg hoff]

lemma quiet_service (hflags : SameFlags x.st t) (hbanks : SameBanks x.st t) :
    TokenMoves x (usbfsService { x with st := t }) :=
  .head (.ofState x.calls hflags hbanks) (service_moves _)

lemma step_moves {e : UsbfsEvent} (hmode : DeviceMode x) (hdevice : e.InDeviceMode)
    (hack : ¬ e.Acks) (hreset : e ≠ .reset) (hstore : ∀ addr bytes, e ≠ .store addr bytes) :
    TokenMoves x (usbfsStep x e) := by
  cases e with
  | write off v answer => exact usbfsWrite_moves answer hmode hdevice hack
  | sof =>
    simp only [usbfsStep, usbfsSof]
    split
    · exact .refl
    apply quiet_service
    · refine SameFlags.trans ?_ (sameFlags_updateIrq _)
      exact (sameFlags_setReg _ _ (by decide) (by decide)).trans
        (sameFlags_raise _ istatSoftok (by decide))
    · exact fun _ _ => rfl
  | setup pkt =>
    simp only [usbfsStep, usbfsBeSetup]
    split <;> exact quiet_service ⟨rfl, rfl, rfl, rfl, rfl⟩ (fun _ _ => rfl)
  | epIn ep len =>
    simp only [usbfsStep, usbfsBeEpIn]
    split
    · exact .refl
    · exact quiet_service ⟨rfl, rfl, rfl, rfl, rfl⟩ (fun _ _ => rfl)
  | epOut ep data =>
    simp only [usbfsStep, usbfsBeEpOut]
    split
    · exact .refl
    · exact quiet_service ⟨rfl, rfl, rfl, rfl, rfl⟩ (fun _ _ => rfl)
  | busReset =>
    apply Relation.ReflTransGen.single
    have hraise := sameFlags_raise x.st istatUsbrst (by decide)
    exact .banks ⟨hraise.tokdne, hraise.stat, rfl, rfl, rfl⟩
      (fun _ tx => by cases tx <;> rfl) rfl rfl
  | reset => exact absurd rfl hreset
  | hostComplete answer =>
    simp only [usbfsStep, mcxnUsbfsHostComplete, hmode.2]
    exact .refl
  | hostPort dev =>
    simp only [usbfsStep, mcxnUsbfsHostPort, hmode.1, Bool.false_eq_true, if_false]
    exact .single (.quiet ⟨rfl, rfl, rfl, hmode.1.symm, rfl⟩ (fun _ _ => rfl) rfl rfl)
  | store addr bytes => exact absurd rfl (hstore addr bytes)

structure Orderly (x : Controller) : Prop where
  mode : DeviceMode x
  busy : x.st.tokdneBusy = x.st.tokdne
  log : TokenLog x.log
  banks : ∀ ep tx, x.st.bank ep tx = dueBank x.log ep tx

lemma Orderly.move (hmove : TokenMove x y) (h : Orderly x) : Orderly y := by
  cases hmove with
  | quiet hflags hbanks hmem hlog =>
    refine ⟨⟨hflags.hostMode.trans h.mode.1, hflags.hostPend.trans h.mode.2⟩, ?_, ?_, ?_⟩
    · rw [hflags.busy, hflags.tokdne, h.busy]
    · rw [hlog]
      exact h.log
    · intro ep tx
      rw [hlog, hbanks, h.banks]
  | banks hflags hbanks hmem hlog =>
    refine ⟨⟨hflags.hostMode.trans h.mode.1, hflags.hostPend.trans h.mode.2⟩, ?_, ?_, ?_⟩
    · rw [hflags.busy, hflags.tokdne, h.busy]
    · rw [hlog]
      exact h.log.reset
    · intro ep tx
      rw [hlog, hbanks, dueBank_reset]
  | @retire bd hidle hret =>
    refine ⟨⟨hret.hostMode.trans h.mode.1, hret.hostPend.trans h.mode.2⟩, ?_, ?_, ?_⟩
    · rw [hret.busy, hret.tokdne]
    · rw [hret.log]
      exact h.log.token (hret.due.trans (h.banks _ _))
    · intro ep tx
      rw [hret.log, hret.banks, dueBank_token, h.banks]

lemma Orderly.moves (hmoves : TokenMoves x y) (h : Orderly x) : Orderly y :=
  reflTransGen_preserves (P := Orderly) (fun _ _ => Orderly.move) hmoves h

lemma Orderly.acknowledge (h : Orderly x)
    (hv : anyBit v istatTokdne) : Orderly (acknowledged x v) where
  mode := h.mode
  busy := by
    have hbit : istatTokdne = BitVec.twoPow 32 3 := by decide
    have hone : v.getLsbD 3 := by rwa [hbit, anyBit_twoPow] at hv
    have hclear : (acknowledged x v).st.tokdne = false := by
      rw [tokdne, hbit, anyBit_twoPow]
      simp [acknowledged, usbfsUpdateIrq, setReg, hone]
    rw [hclear]
    rfl
  log := h.log
  banks := h.banks

lemma Orderly.reset (h : Orderly x) : Orderly (mcxnUsbfsReset x) where
  mode := h.mode
  busy := by
    show false = anyBit (resetRegs rIstat) istatTokdne
    decide
  log := h.log.reset
  banks := by
    intro ep tx
    rw [mcxnUsbfsReset, dueBank_reset]
    cases tx <;> rfl

lemma step_orderly (x : Controller) (e : UsbfsEvent) (hdevice : e.InDeviceMode)
    (h : Orderly x) : Orderly (usbfsStep x e) := by
  by_cases hack : e.Acks
  · cases e with
    | write off v answer =>
      obtain ⟨hoff, hv⟩ := hack
      subst hoff
      have hstep : usbfsStep x (.write 0x80 v answer) = usbfsService (acknowledged x v) :=
        writeIstat_ack hv
      rw [hstep]
      exact (h.acknowledge hv).moves (service_moves _)
    | _ => exact hack.elim
  cases e with
  | reset => exact h.reset
  | store addr bytes => exact ⟨h.mode, h.busy, h.log, h.banks⟩
  | _ => exact h.moves (step_moves h.mode hdevice hack (by simp) (by simp))

def guestStores (m : Mem) (events : List UsbfsEvent) : Mem :=
  events.foldl (fun m e => match e with
    | .store addr bytes => GuestMemory.store m addr bytes
    | _ => m) m

structure Held (x y : Controller) : Prop where
  busy : y.st.tokdneBusy = true
  stat : y.st.regs rStat = x.st.regs rStat
  writeBacks : writeBacks y.log = writeBacks x.log
  mem : y.mem = x.mem

lemma held_of_moves (hbusy : x.st.tokdneBusy) (hmoves : TokenMoves x y) : Held x y := by
  induction hmoves with
  | refl => exact ⟨hbusy, rfl, rfl, rfl⟩
  | tail _ hmove ih =>
    cases hmove with
    | quiet hflags hbanks hmem hlog =>
      exact ⟨hflags.busy.trans ih.busy, hflags.stat.trans ih.stat,
        by rw [hlog, ih.writeBacks], hmem.trans ih.mem⟩
    | banks hflags hbanks hmem hlog =>
      refine ⟨hflags.busy.trans ih.busy, hflags.stat.trans ih.stat, ?_, hmem.trans ih.mem⟩
      rw [hlog, writeBacks_append, ih.writeBacks]
      exact append_nil _
    | retire hidle _ => exact absurd (ih.busy.symm.trans hidle) (by simp)

lemma held_run (h : Orderly x) (hbusy : x.st.tokdneBusy) {events : List UsbfsEvent}
    (hevents : ∀ e ∈ events, e.InDeviceMode ∧ ¬ e.Acks ∧ e ≠ .reset) :
    (run usbfsStep x events).st.tokdneBusy = true ∧
    (run usbfsStep x events).st.regs rStat = x.st.regs rStat ∧
    writeBacks (run usbfsStep x events).log = writeBacks x.log ∧
    (run usbfsStep x events).mem = guestStores x.mem events := by
  induction events generalizing x with
  | nil => exact ⟨hbusy, rfl, rfl, rfl⟩
  | cons e rest ih =>
    obtain ⟨hdevice, hack, hreset⟩ := hevents e mem_cons_self
    have horderly := step_orderly x e hdevice h
    have hrest := fun f hf => hevents f (mem_cons_of_mem _ hf)
    by_cases hstore : ∃ addr bytes, e = .store addr bytes
    · obtain ⟨addr, bytes, rfl⟩ := hstore
      exact ih horderly hbusy hrest
    have hheld := held_of_moves hbusy (step_moves h.mode hdevice hack hreset
      (fun addr bytes heq => hstore ⟨addr, bytes, heq⟩))
    obtain ⟨hbusy', hstat, hlog, hmem⟩ := ih horderly hheld.busy hrest
    refine ⟨hbusy', hstat.trans hheld.stat, hlog.trans hheld.writeBacks, ?_⟩
    rw [run_cons, hmem, hheld.mem]
    cases e with
    | store addr bytes => exact absurd ⟨addr, bytes, rfl⟩ hstore
    | _ => rfl

lemma orderly_powerOn (mem : Mem) : Orderly (.powerOn mem) :=
  Orderly.reset ⟨⟨rfl, rfl⟩, show false = anyBit 0 istatTokdne by decide, .nil,
    fun _ tx => by cases tx <;> rfl⟩

/-- The token handshake in device mode: the gate is the flag; a raised token is
held until the guest acknowledges it or the device is reset; each write-back is
followed by its one token; and the banks alternate from the even one between two
bank resets. -/
theorem token_handshake
    (mem : Mem) {events : List UsbfsEvent} (hdevice : ∀ e ∈ events, e.InDeviceMode)
    {x : Controller} (hx : x = run usbfsStep (.powerOn mem) events) :
    (x.st.tokdneBusy = true ↔ anyBit (x.st.regs rIstat) istatTokdne = true) ∧
    (anyBit (x.st.regs rIstat) istatTokdne = true → ∀ later : List UsbfsEvent,
        (∀ e ∈ later, e.InDeviceMode ∧ ¬ e.Acks ∧ e ≠ .reset) →
        (run usbfsStep x later).st.regs rStat = x.st.regs rStat ∧
        writeBacks (run usbfsStep x later).log = writeBacks x.log ∧
        (run usbfsStep x later).mem = guestStores x.mem later) ∧
    (∀ before bd after, x.log = before ++ .writeBack bd :: after →
      ∃ stat rest, after = .tokdne stat :: rest ∧ Names stat bd) ∧
    (tokdnes x.log).length = (writeBacks x.log).length ∧
    (∀ before seg after, x.log = before ++ .bankReset :: seg ++ after → TokenMark.bankReset ∉ seg →
      ∀ ep tx, retired ep tx seg = alternating (retired ep tx seg).length) := by
  have h : Orderly x := by
    rw [hx]
    exact run_invariant_of_events step_orderly (orderly_powerOn mem) hdevice
  refine ⟨?_, ?_, ?_, ?_, ?_⟩
  · rw [h.busy, tokdne]
  · intro hflag later hlater
    have hbusy : x.st.tokdneBusy = true := h.busy.trans hflag
    exact (held_run h hbusy hlater).2
  · intro before bd after hlog
    obtain ⟨_, rest, hrest⟩ := h.log.writeBack_inv hlog
    exact ⟨statOf bd, rest, hrest, statOf_names bd⟩
  · rw [h.log.tokdnes_eq, length_map]
  · intro before seg after hlog hseg ep tx
    exact h.log.alternates hlog hseg ep tx

def armedMem : Mem := store32 (fun _ => 0) 0x1010 0x80

def inToken : List UsbfsEvent := [.write 0x9C 0x10 .nak, .write 0x94 0x01 .nak, .epIn 0 8]

lemma inToken_inDeviceMode : ∀ e ∈ inToken, e.InDeviceMode := by
  simp [inToken, UsbfsEvent.InDeviceMode]
  decide

theorem token_handshake_in :
    anyBit ((run usbfsStep (.powerOn armedMem) inToken).st.regs rIstat) istatTokdne = true ∧
    (run usbfsStep (run usbfsStep (.powerOn armedMem) inToken) [.sof]).st.regs rStat =
      0x08 := by
  have hflag : anyBit ((run usbfsStep (.powerOn armedMem) inToken).st.regs rIstat)
      istatTokdne = true := by decide
  have hstat : (run usbfsStep (.powerOn armedMem) inToken).st.regs rStat = 0x08 := by
    decide
  have hheld := (token_handshake armedMem inToken_inDeviceMode rfl).2.1 hflag [.sof]
    (by simp [UsbfsEvent.InDeviceMode, UsbfsEvent.Acks])
  exact ⟨hflag, hheld.1.trans hstat⟩

theorem reset_changes_stat : (∀ e ∈ inToken, e.InDeviceMode) ∧
    anyBit ((run usbfsStep (.powerOn armedMem) inToken).st.regs rIstat) istatTokdne = true ∧
    UsbfsEvent.reset.InDeviceMode ∧ ¬ UsbfsEvent.reset.Acks ∧
    (run usbfsStep (run usbfsStep (.powerOn armedMem) inToken) [.reset]).st.regs rStat ≠
      (run usbfsStep (.powerOn armedMem) inToken).st.regs rStat :=
  ⟨inToken_inDeviceMode, by decide, trivial, id, by decide⟩

end Mcxn947.Usbfs
