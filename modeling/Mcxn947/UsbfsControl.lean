import Mcxn947.UsbfsReceive

/-!
# Host-to-device control requests

The remote host sends a control request as one message and waits for one answer, while the
firmware sees a `SETUP`, perhaps data, and a status stage for which it arms a transmit
descriptor of endpoint 0.
-/

namespace Mcxn947.Usbfs

open MachineWords GuestMemory EventRuns List UsbfsState

structure Outstanding where
  pkt : List Byte
  delivery : Option (Controller × Controller)

structure ControlRun where
  x : Controller
  outstanding : Option Outstanding

def UsbfsEvent.request (o : Option Outstanding) : UsbfsEvent → Option Outstanding
  | .setup pkt => some ⟨pkt, none⟩
  | _ => o

def deliversSetup (x y : Controller) : Bool := x.st.setupFirst 0 && (received x y).any (·.ep = 0)

def Outstanding.served (d x y : Controller) (o : Option Outstanding) : Option Outstanding :=
  if outAnswers 0 x y ≠ [] then none
  else if deliversSetup x y then o.map fun q => { q with delivery := some (d, y) }
  else o

def controlStep (r : ControlRun) (e : UsbfsEvent) : ControlRun :=
  let y := usbfsStep r.x e
  ⟨y, Outstanding.served r.x (latched r.x e) y (e.request r.outstanding)⟩

def ControlRun.start (mem : Mem) : ControlRun := ⟨.powerOn mem, none⟩

structure Delivered (pkt : List Byte) (d y : Controller) (addr : Word) : Prop where
  bd : d.st.due 0 false ∈ received d y
  stored : ∀ a, ¬ Covers (bdAddr d.st (d.st.due 0 false)).toNat 4 a →
    y.mem a = store d.mem (bdBuf d (d.st.due 0 false)) pkt a
  unarmed : anyBit (bdLd d.mem addr) bdOwn = false

def OwnStatusStage (o : Option Outstanding) (x y : Controller) : Prop :=
  ∃ pkt d y', o = some ⟨pkt, some (d, y')⟩ ∧ Delivered pkt d y' (bdAddr x.st (x.st.due 0 true)) ∧
    armed x (x.st.due 0 true) = true ∧ x.st.due 0 true ∈ retirements x y

def UsbfsEvent.MovesTable : UsbfsEvent → Prop
  | .write off v _ =>
    off / 4 ∈ [rBdtpage1.val, rBdtpage2.val, rBdtpage3.val] ∨ off = 0x94 ∧ anyBit v ctlOddrst = true
  | _ => False

def SameStatusBd (x y : Controller) : Prop :=
  bdAddr y.st (y.st.due 0 true) = bdAddr x.st (x.st.due 0 true)

variable {x y : Controller}

lemma sameStatusBd (hbase : bdtBase y.st = bdtBase x.st)
    (hbank : y.st.bank 0 true = x.st.bank 0 true) : SameStatusBd x y := by
  rw [SameStatusBd, bdAddr, bdAddr, due, due, hbase, hbank]

variable {v : Word} {off : ℕ} {r : ControlRun}

lemma writeCtl_sameStatusBd
    (hv : anyBit v ctlHostmodeen = false) (hodd : anyBit v ctlOddrst = false) :
    SameStatusBd x (writeCtl x v) := by
  have hbase : bdtBase (x.st.setReg rCtl v) = bdtBase x.st :=
    bdtBase_setReg x.st v (by decide) (by decide) (by decide)
  apply sameStatusBd
  · rw [← hbase]
    simp only [writeCtl, hv, hodd, Bool.false_eq_true, if_false]
    split
    · rfl
    split <;> rfl
  simp only [writeCtl, hv, hodd, Bool.false_eq_true, if_false]
  split
  · rfl
  split <;> rfl

lemma write_sameStatusBd {answer : HostAnswer} (hmode : DeviceMode x)
    (hkeeps : (UsbfsEvent.write off v answer).KeepsDeviceMode)
    (hserves : serves x (.write off v answer) = false)
    (hstill : ¬ (UsbfsEvent.write off v answer).MovesTable) :
    SameStatusBd x (mcxnUsbfsWrite answer x off v) := by
  simp only [UsbfsEvent.MovesTable, not_or, not_and, Bool.not_eq_true] at hstill
  obtain ⟨hpages, hodd⟩ := hstill
  rcases usbfsWrite_cases hmode hserves rfl with hsame | ⟨r, w, irq, hr, hreg⟩ | ⟨hoff, hctl⟩
  · rw [hsame]
    rfl
  · have hpage : ∀ q : RegIdx, q ∈ [rBdtpage1, rBdtpage2, rBdtpage3] → r ≠ q := by
      rintro q hq rfl
      apply hpages
      rw [← hr]
      exact List.mem_map_of_mem (f := Fin.val) hq
    rw [hreg]
    refine sameStatusBd ?_ rfl
    exact bdtBase_setReg x.st w (hpage _ (by simp)) (hpage _ (by simp)) (hpage _ (by simp))
  · rw [hctl]
    exact writeCtl_sameStatusBd (hkeeps hoff) (hodd hoff)

variable {e : UsbfsEvent}

lemma step_sameStatusBd (hmode : DeviceMode x)
    (hkeeps : e.KeepsDeviceMode) (hserves : serves x e = false) (hstill : ¬ e.MovesTable)
    (he : e.Ordinary) : SameStatusBd x (usbfsStep x e) := by
  cases e with
  | write off v answer => exact write_sameStatusBd hmode hkeeps hserves hstill
  | sof =>
    simp only [serves] at hserves
    simp only [usbfsStep, usbfsSof, hserves]
    rfl
  | setup pkt => cases hserves
  | epIn ep len =>
    simp only [serves, stalled, Bool.not_eq_false'] at hserves
    simp only [usbfsStep, usbfsBeEpIn, hserves]
    rfl
  | epOut ep data =>
    simp only [serves, stalled, Bool.not_eq_false'] at hserves
    simp only [usbfsStep, usbfsBeEpOut, hserves]
    rfl
  | busReset => exact absurd (he [] true true).2.2 (by decide)
  | reset => exact absurd (he [] true true).2.1 (by decide)
  | hostComplete answer =>
    simp only [usbfsStep, mcxnUsbfsHostComplete, hmode.2]
    rfl
  | hostPort dev =>
    simp only [usbfsStep, mcxnUsbfsHostPort, hmode.1, Bool.false_eq_true, if_false]
    rfl
  | store addr bytes => rfl

lemma Served.sameStatusBd {bd : Bd} {m : Mem} {w : Word}
    {xfers : EpIdx → UsbfsXfer} {setupPending ep0StatusIn : Bool} {calls : List UsbdevCall}
    (h : Served x y bd m w xfers setupPending ep0StatusIn calls)
    (hbd : ¬ (bd.ep = 0 ∧ bd.tx)) : SameStatusBd x y := by
  apply Usbfs.sameStatusBd h.base
  rw [h.retired.banks, if_neg hbd]

/-- A status stage is owed to the outstanding request alone, whose `SETUP` still waits or has
been delivered while the transmit descriptor that is due was not armed. -/
structure Tracked (x : Controller) (o : Option Outstanding) : Prop where
  mode : DeviceMode x
  noData : (x.st.ep 0).outPending = false
  owed : x.st.ep0StatusIn = true → o = some ⟨x.st.setupPkt, none⟩ ∧ x.st.setupPending = true ∨
    ∃ pkt d y, o = some ⟨pkt, some (d, y)⟩ ∧ x.st.setupPending = false ∧
      Delivered pkt d y (bdAddr x.st (x.st.due 0 true))

structure ControlGuard (r : ControlRun) (e : UsbfsEvent) : Prop where
  keeps : e.KeepsDeviceMode
  running : e ≠ .reset
  noData : ¬ e.RequestsOut 0
  unarmed : (latched r.x e).st.setupPending = true → armed r.x (r.x.st.due 0 true) = false
  still : r.x.st.ep0StatusIn = true → ¬ e.MovesTable

lemma Tracked.congr {o : Option Outstanding} (h : Tracked x o)
    (hmode : DeviceMode y) (hdata : (y.st.ep 0).outPending = false)
    (howed : y.st.ep0StatusIn = x.st.ep0StatusIn) (hpend : y.st.setupPending = x.st.setupPending)
    (hpkt : y.st.setupPkt = x.st.setupPkt)
    (hbd : x.st.ep0StatusIn → SameStatusBd x y) : Tracked y o where
  mode := hmode
  noData := hdata
  owed := by
    intro h'
    have hx := howed ▸ h'
    rw [hpend, hpkt, hbd hx]
    exact h.owed hx

lemma Ordinary.request (he : e.Ordinary) (o : Option Outstanding) : e.request o = o := by
  cases e with
  | setup pkt => exact absurd (he [] false true).2.1 (by simp [UsbfsEvent.setupWaits])
  | _ => rfl

lemma kinds (e : UsbfsEvent) :
    (∃ pkt, e = .setup pkt) ∨ e = .busReset ∨ e = .reset ∨ e.Ordinary := by
  cases e with
  | setup pkt => exact .inl ⟨pkt, rfl⟩
  | busReset => exact .inr (.inl rfl)
  | reset => exact .inr (.inr (.inl rfl))
  | _ => exact .inr (.inr (.inr fun _ _ _ => ⟨rfl, rfl, rfl⟩))

section Steps

open Outstanding UsbfsState

variable {x y z : Controller} {e : UsbfsEvent} {o : Option Outstanding}

lemma Tracked.prepare (h : Tracked x o) (hz : Prepares x e z) (hrun : e ≠ .reset)
    (hdata : ¬ e.RequestsOut 0) (hbd : e.Ordinary → x.st.ep0StatusIn → SameStatusBd x z) :
    Tracked z (e.request o) := by
  have hdata' : (z.st.ep 0).outPending = false := by
    rcases hz.outs 0 hdata with hsame | hdropped
    · rw [hsame.pending, h.noData]
    · exact hdropped
  rcases kinds e with ⟨pkt, rfl⟩ | rfl | rfl | he
  · refine ⟨hz.mode, hdata', fun _ => .inl ⟨?_, hz.setupPending⟩⟩
    rw [hz.setupPkt]
    rfl
  · refine ⟨hz.mode, hdata', fun howed => ?_⟩
    rw [hz.ep0StatusIn] at howed
    cases howed
  · exact absurd rfl hrun
  obtain ⟨hpkt, hwaits, howed⟩ := he x.st.setupPkt x.st.setupPending x.st.ep0StatusIn
  rw [Ordinary.request he]
  exact h.congr hz.mode hdata' (hz.ep0StatusIn.trans howed) (hz.setupPending.trans hwaits)
    (hz.setupPkt.trans hpkt) (hbd he)

lemma served_quiet {d : Controller} (hans : outAnswers 0 x y = [])
    (hdelivers : deliversSetup x y = false) : served d x y o = o := by
  rw [served, if_neg (not_not_intro hans), hdelivers]
  rfl

lemma deliversSetup_eq_false (h : ∀ bd ∈ retirements x y, bd.tx ∨ bd.ep ≠ 0) :
    deliversSetup x y = false := by
  rw [deliversSetup, Bool.and_eq_false_iff]
  right
  rw [List.any_eq_false]
  intro bd hbd
  rw [received, mem_filter] at hbd
  rcases h bd hbd.1 with htx | hep
  · rw [htx] at hbd
    exact absurd hbd.2 (by decide)
  · simpa using hep

lemma Tracked.serve (h : Tracked (latched x e) o) (hunarmed : (latched x e).st.setupPending →
      armed (latched x e) ((latched x e).st.due 0 true) = false) (hy : Serves (latched x e) y) :
    Tracked y (served x (latched x e) y o) ∧
      (outAnswers 0 (latched x e) y ≠ [] → OwnStatusStage o (latched x e) y) := by
  have htable := latched_sameTable x e
  have hsame := retirements_latched x y e
  generalize hz : latched x e = z at *
  have hquiet : outAnswers 0 z y = [] → deliversSetup z y = false → Tracked y o →
      Tracked y (served x z y o) ∧ (outAnswers 0 z y ≠ [] → OwnStatusStage o z y) := by
    intro hans hdelivers htracked
    rw [served_quiet hans hdelivers]
    exact ⟨htracked, fun hne => absurd hans hne⟩
  cases hy with
  | idle heq =>
    subst heq
    have hsilent : Silent y y := .ofEq rfl rfl
    exact hquiet hsilent.outAnswers (deliversSetup_eq_false (by simp [hsilent.retirements])) h
  | status howed hserv =>
    have hwaits : z.st.setupPending = false := by
      rw [← Bool.not_eq_true]
      intro hwaits
      exact absurd hserv.armed (Bool.eq_false_iff.mp (hunarmed hwaits))
    have hans : outAnswers 0 z y = [0] := by
      rw [outAnswers, hserv.newCalls]
      rfl
    have hne : outAnswers 0 z y ≠ [] := by
      rw [hans]
      exact cons_ne_nil _ _
    rcases h.owed howed with ⟨-, hpend⟩ | ⟨pkt, d, y', ho, -, hdelivered⟩
    · rw [hwaits] at hpend
      cases hpend
    refine ⟨⟨hserv.mode h.mode, ?_, ?_⟩, fun _ => ?_⟩
    · rw [hserv.xfers]
      exact h.noData
    · rw [hserv.ep0StatusIn]
      intro hfalse
      cases hfalse
    refine ⟨pkt, d, y', ho, hdelivered, hserv.armed, ?_⟩
    rw [hserv.retirements]
    exact mem_singleton_self _
  | setup hwaits hstatus hserv =>
    have hans : outAnswers 0 z y = [] := by
      rw [outAnswers, hserv.newCalls]
      rfl
    have hreceived : received z y = [z.st.due 0 false] := by
      rw [received, hserv.retirements]
      rfl
    have hdelivers : deliversSetup z y := by
      rw [deliversSetup, hreceived]
      simp [setupFirst, hwaits, due]
    have hbd : SameStatusBd z y :=
      hserv.sameStatusBd fun hmatch => absurd hmatch.2 Bool.false_ne_true
    refine ⟨?_, fun hne => absurd hans hne⟩
    rw [served, if_neg (not_not_intro hans), if_pos hdelivers]
    refine ⟨hserv.mode h.mode, ?_, ?_⟩
    · rw [hserv.xfers]
      exact h.noData
    rw [hserv.ep0StatusIn, hserv.setupPending]
    intro howed
    right
    rcases h.owed howed with ⟨ho, -⟩ | ⟨pkt, d, y', -, hgone, -⟩
    · refine ⟨z.st.setupPkt, x, y, by rw [ho]; rfl, rfl, ?_, ?_, ?_⟩
      · have hmem : z.st.due 0 false ∈ received z y := by
          rw [hreceived]
          exact mem_singleton_self _
        rw [received, ← hsame, ← htable.due]
        exact hmem
      · intro a ha
        rw [← htable.due, ← htable.bdAddr] at ha
        rw [hserv.mem, store32, store_apply_of_not_covers ha, htable.mem, ← htable.due,
          ← htable.bdBuf]
      · rw [hbd, ← htable.mem]
        exact hstatus howed
    · rw [hwaits] at hgone
      cases hgone
  | dataIn ep hpend hstatus hserv =>
    apply hquiet
    · rw [outAnswers, hserv.newCalls]
      split <;> rfl
    · exact deliversSetup_eq_false (by simp [hserv.retirements, due])
    apply h.congr (hserv.mode h.mode) _ hserv.ep0StatusIn hserv.setupPending hserv.setupPkt
    · intro howed
      apply hserv.sameStatusBd
      rintro ⟨hep, -⟩
      obtain rfl : ep = 0 := hep
      exact absurd hserv.armed (Bool.eq_false_iff.mp (hstatus howed))
    · rw [(hserv.sameOut 0).pending, h.noData]
  | dataOut ep hpend _ hserv =>
    have hep : ep ≠ 0 := by
      rintro rfl
      rw [h.noData] at hpend
      cases hpend
    apply hquiet
    · rw [outAnswers, hserv.newCalls]
      split
      · simp [UsbdevCall.answersOut, hep]
      · rfl
    · exact deliversSetup_eq_false (by simp [hserv.retirements, due, hep])
    apply h.congr (hserv.mode h.mode) _ hserv.ep0StatusIn hserv.setupPending hserv.setupPkt
    · intro _
      exact hserv.sameStatusBd fun hmatch => hep hmatch.1
    · rw [hserv.xfers, Function.update_of_ne (Ne.symm hep), h.noData]

lemma OwnStatusStage.unlatch (h : OwnStatusStage (e.request o) (latched x e) y) :
    OwnStatusStage o x y := by
  obtain ⟨pkt, d, y', ho, hdelivered, harmed, hret⟩ := h
  have htable := latched_sameTable x e
  rw [htable.due, htable.bdAddr] at hdelivered
  rw [htable.due, htable.armed] at harmed
  rw [htable.due, retirements_latched] at hret
  refine ⟨pkt, d, y', ?_, hdelivered, harmed, hret⟩
  cases e with
  | setup pkt' => cases ho
  | _ => exact ho

end Steps

lemma Tracked.step (h : Tracked r.x r.outstanding) (hguard : ControlGuard r e) :
    Tracked (controlStep r e).x (controlStep r e).outstanding ∧
      (outAnswers 0 r.x (usbfsStep r.x e) ≠ [] →
      OwnStatusStage r.outstanding r.x (usbfsStep r.x e)) := by
  rcases step_cases h.mode hguard.keeps with ⟨hserves, hprep⟩ | ⟨hserves, hy⟩
  · have htracked : Tracked (usbfsStep r.x e) (e.request r.outstanding) :=
      h.prepare hprep hguard.running hguard.noData fun he howed =>
        step_sameStatusBd h.mode hguard.keeps hserves (hguard.still howed) he
    have hans : outAnswers 0 r.x (usbfsStep r.x e) = [] := hprep.silent.outAnswers
    refine ⟨?_, fun hne => absurd hans hne⟩
    have hanswers' : outAnswers 0 (latched r.x e) (usbfsStep r.x e) = [] := by
      rw [← hans, outAnswers, outAnswers, newCalls_latched]
    have hdelivers : deliversSetup (latched r.x e) (usbfsStep r.x e) = false :=
      deliversSetup_eq_false (by simp [retirements_latched, hprep.silent.retirements])
    simp only [controlStep, served_quiet hanswers' hdelivers]
    exact htracked
  have htable := latched_sameTable r.x e
  have hlatch : Tracked (latched r.x e) (e.request r.outstanding) :=
    h.prepare (latched_prepares h.mode hserves) hguard.running hguard.noData fun _ _ =>
      sameStatusBd htable.base (htable.banks 0 true)
  obtain ⟨htracked, hown⟩ := hlatch.serve
    (by rw [htable.due, htable.armed]; exact hguard.unarmed) hy
  refine ⟨htracked, fun hne => (hown ?_).unlatch⟩
  rwa [outAnswers, newCalls_latched]

lemma tracked_start (mem : Mem) :
    Tracked (ControlRun.start mem).x (ControlRun.start mem).outstanding where
  mode := (orderly_powerOn mem).mode
  noData := rfl
  owed := fun howed => absurd howed Bool.false_ne_true

/-- Every answer to a host-to-device control request follows the delivery of its `SETUP` and
the status stage that the firmware armed after it. -/
theorem control_answer_after_status (mem : Mem) {events : List UsbfsEvent}
    (hadmits : Admits controlStep ControlGuard (.start mem) events)
    {before : List UsbfsEvent} {e : UsbfsEvent} (hbefore : before ++ [e] <+: events)
    {r : ControlRun} (hr : r = run controlStep (.start mem) before)
    (hanswer : outAnswers 0 r.x (usbfsStep r.x e) ≠ []) :
    OwnStatusStage r.outstanding r.x (usbfsStep r.x e) := by
  have hstep : ∀ (r : ControlRun) (e : UsbfsEvent), ControlGuard r e → Tracked r.x r.outstanding →
      Tracked (controlStep r e).x (controlStep r e).outstanding ∧
        (outAnswers 0 r.x (usbfsStep r.x e) ≠ [] →
          OwnStatusStage r.outstanding r.x (usbfsStep r.x e)) :=
    fun r e hguard htracked => htracked.step hguard
  have hown := every_step_of_admits hstep (tracked_start mem) hadmits hbefore
  rw [← hr] at hown
  exact hown hanswer

def setAddress : List Byte := [0x00, 0x05, 0x07, 0x00, 0x00, 0x00, 0x00, 0x00]

def addressRequest : List UsbfsEvent :=
  enabling ++ [.setup setAddress, .store 0x1010 (wordBytes 0x80)]

def acknowledge : UsbfsEvent := .write 0x80 0x08 .nak

lemma controlGuard_write (hkeeps : off = 0x94 → anyBit v ctlHostmodeen = false)
    (hidle : (latched r.x (.write off v .nak)).st.setupPending = false)
    (hstill : r.x.st.ep0StatusIn → ¬ (UsbfsEvent.write off v .nak).MovesTable) :
    ControlGuard r (.write off v .nak) where
  keeps := hkeeps
  running := by simp
  noData := id
  unarmed := fun hwaits => absurd hwaits (Bool.eq_false_iff.mp hidle)
  still := hstill

lemma addressRequest_admitted :
    Admits controlStep ControlGuard (.start (receiveMem 8)) (addressRequest ++ [acknowledge]) := by
  refine ⟨?_, ?_, ?_, ?_, ?_, trivial⟩
  · exact controlGuard_write (by decide) (by decide) fun howed => absurd howed (by decide)
  · exact controlGuard_write (by decide) (by decide) fun howed => absurd howed (by decide)
  · exact ⟨trivial, by simp, id, fun _ => by decide +kernel, fun _ => id⟩
  · exact ⟨trivial, by simp, id, fun _ => by decide +kernel, fun _ => id⟩
  refine controlGuard_write (by decide) (by decide +kernel) fun _ => ?_
  simp only [UsbfsEvent.MovesTable]
  decide

theorem control_answer_after_status_setAddress :
    outAnswers 0 (run controlStep (.start (receiveMem 8)) addressRequest).x
      (usbfsStep (run controlStep (.start (receiveMem 8)) addressRequest).x acknowledge) ≠ [] ∧
    OwnStatusStage (run controlStep (.start (receiveMem 8)) addressRequest).outstanding
      (run controlStep (.start (receiveMem 8)) addressRequest).x
      (usbfsStep (run controlStep (.start (receiveMem 8)) addressRequest).x acknowledge) := by
  have hanswer : outAnswers 0 (run controlStep (.start (receiveMem 8)) addressRequest).x
      (usbfsStep (run controlStep (.start (receiveMem 8)) addressRequest).x acknowledge) ≠ [] := by
    decide +kernel
  exact ⟨hanswer, control_answer_after_status (receiveMem 8) addressRequest_admitted
    (prefix_refl _) rfl hanswer⟩

def twoReceives : Mem := store32 (store32 (receiveMem 64) 0x1008 0x400080) 0x100C 0x2040

def setLineState : List Byte := [0x21, 0x20, 0x00, 0x00, 0x00, 0x00, 0x02, 0x00]

def dataRequest : List UsbfsEvent := enabling ++ [.setup setLineState, .epOut 0 [0x01, 0x02]]

theorem data_request_answered_early :
    outAnswers 0 (run controlStep (.start twoReceives) dataRequest).x
      (usbfsStep (run controlStep (.start twoReceives) dataRequest).x acknowledge) = [2] ∧
    ¬ OwnStatusStage (run controlStep (.start twoReceives) dataRequest).outstanding
      (run controlStep (.start twoReceives) dataRequest).x
      (usbfsStep (run controlStep (.start twoReceives) dataRequest).x acknowledge) := by
  refine ⟨by decide +kernel, ?_⟩
  rintro ⟨pkt, d, y, -, -, harmed, -⟩
  revert harmed
  decide +kernel

end Mcxn947.Usbfs
