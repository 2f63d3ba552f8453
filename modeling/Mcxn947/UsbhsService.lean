import Mcxn947.UsbhsModel

/-!
# The engine, poll by poll

A service asks the queue heads in a fixed order, and only for requests that wait.
-/

namespace Mcxn947.Usbhs

open MachineWords GuestMemory EventRuns Usbdev List Function UsbhsState

inductive Poll where
  | status
  | dataOut (ep : EpIdx)
  | dataIn (ep : EpIdx)

def Poll.ep : Poll → EpIdx
  | .status => 0
  | .dataOut ep => ep
  | .dataIn ep => ep

def Poll.isIn : Poll → Bool
  | .status => true
  | .dataOut _ => false
  | .dataIn _ => true

variable (s : UsbhsState) (x : Core) (v : Word) (p : Poll) (e : UsbhsEvent)

def asks : Poll → Bool
  | .status => s.ep0StatusIn
  | .dataOut ep => (s.ep ep).outPending
  | .dataIn ep => (s.ep ep).inPending && !(ep = 0 && s.ep0StatusIn)

def usbhsPoll : Core :=
  if asks x.st p then
    match p with
    | .status => usbhsConsumeStatusIn x
    | .dataOut ep => usbhsServiceOut x ep
    | .dataIn ep => usbhsServiceIn x ep
  else x

def epPolls (ep : EpIdx) : List Poll := [.dataOut ep, .dataIn ep]

def schedule : List Poll := .status :: (List.finRange 8).flatMap epPolls

lemma serviceEp_polls (ep : EpIdx) : usbhsServiceEp x ep = run usbhsPoll x (epPolls ep) := rfl

lemma foldl_serviceEp (eps : List EpIdx) :
    eps.foldl usbhsServiceEp x = run usbhsPoll x (eps.flatMap epPolls) := by
  induction eps generalizing x with
  | nil => rfl
  | cons ep eps ih => rw [foldl_cons, flatMap_cons, run_append, ih, serviceEp_polls]

lemma service_polls :
    usbhsService x = if x.st.enabled then run usbhsPoll x schedule else x := by
  have hpolls : (List.finRange 8).foldl usbhsServiceEp (usbhsPoll x .status) =
      run usbhsPoll x schedule := foldl_serviceEp _ _
  rw [usbhsService]
  cases x.st.enabled with
  | false => rfl
  | true => exact hpolls

def fetches : Bool := asks x.st p && !anyBit (nextDtd x p.ep p.isIn) dtdTerminate

def headDtd : Word := nextDtd x p.ep p.isIn &&& ~~~0x1F

def finds : Bool :=
  fetches x p && anyBit (hsLd x.mem (headDtd x p + 4)) dtdActive && headDtd x p != 0

def headTotal : ℕ := totbytes (hsLd x.mem (headDtd x p + 4))

def headBuffer : ℕ := (hsLd x.mem (headDtd x p + 8)).toNat

def pollTransfer : Transfer :=
  let dtd := headDtd x p
  match p with
  | .status => ⟨0, true, dtd, 0, x.mem, x.mem, []⟩
  | .dataIn ep =>
    let n := min (min (headTotal x p) (x.st.ep ep).inLen) usbhsXfermax
    ⟨ep, true, dtd, headTotal x p - n, x.mem, x.mem, load x.mem (headBuffer x p) n⟩
  | .dataOut ep =>
    let data := (x.st.ep ep).outData.take (headTotal x p)
    ⟨ep, false, dtd, headTotal x p - data.length, x.mem,
      GuestMemory.store x.mem (headBuffer x p) data, data⟩

lemma pollTransfer_ep : (pollTransfer x p).ep = p.ep := by
  cases p <;> rfl

lemma pollTransfer_isIn : (pollTransfer x p).isIn = p.isIn := by
  cases p <;> rfl

def pollAnswer (moved : List Byte) : BackendCall :=
  match p with
  | .status => .completeOut 0 .success 0
  | .dataIn ep => .completeIn (devEp ep) moved
  | .dataOut ep => .completeOut (devEp ep) .success moved.length

def pollMarks : List EngineMark :=
  if finds x p then [.read p.ep p.isIn, .retire (pollTransfer x p)]
  else if fetches x p then [.read p.ep p.isIn]
  else []

def pollCalls : List BackendCall :=
  if finds x p then [pollAnswer p (pollTransfer x p).moved] else []

structure KeepsRequests (s t : UsbhsState) : Prop where
  outData : ∀ ep, (t.ep ep).outData = (s.ep ep).outData
  outPending : ∀ ep, (t.ep ep).outPending = true → (s.ep ep).outPending = true

variable {t u : UsbhsState} {r : RegIdx} {ep : EpIdx} {off : ℕ}

lemma KeepsRequests.of_ep_eq {s : UsbhsState} (h : t.ep = s.ep) : KeepsRequests s t := by
  constructor
  · intro ep
    rw [h]
  · intro ep hpend
    rwa [h] at hpend

lemma KeepsRequests.refl : KeepsRequests s s := .of_ep_eq rfl

structure SameMode (s t : UsbhsState) : Prop where
  enabled : t.enabled = s.enabled
  usbcmd : t.regs rUsbcmd = s.regs rUsbcmd
  usbmode : t.regs rUsbmode = s.regs rUsbmode

lemma SameMode.refl : SameMode s s := ⟨rfl, rfl, rfl⟩

lemma SameMode.trans {s : UsbhsState} (h : SameMode s t) (h' : SameMode t u) : SameMode s u :=
  ⟨h'.enabled.trans h.enabled, h'.usbcmd.trans h.usbcmd, h'.usbmode.trans h.usbmode⟩

lemma SameMode.ofRegs {s : UsbhsState} (h : SameMode s t)
    (hen : u.enabled = t.enabled) (hregs : u.regs = t.regs) : SameMode s u :=
  ⟨hen.trans h.enabled, hregs ▸ h.usbcmd, hregs ▸ h.usbmode⟩

lemma setReg_sameMode (v : Word) (hcmd : r ≠ rUsbcmd)
    (hmode : r ≠ rUsbmode) : SameMode s (s.setReg r v) :=
  ⟨rfl, update_of_ne hcmd.symm .., update_of_ne hmode.symm ..⟩

lemma ui_sameMode : SameMode s (usbhsUi s) := by
  have hset := setReg_sameMode s (r := rUsbsts) (s.regs rUsbsts ||| usbstsUi) (by decide)
    (by decide)
  exact hset.ofRegs rfl rfl

lemma endptcomplete_sameMode (bit : ℕ) : SameMode s (endptcomplete s bit) := by
  have hset := setReg_sameMode s (r := rEndptcomplete)
    (s.regs rEndptcomplete ||| BitVec.twoPow 32 bit) (by decide) (by decide)
  exact hset.trans (ui_sameMode _)

structure Polled (x : Core) (p : Poll) (y : Core) : Prop where
  log : y.log = x.log ++ pollMarks x p
  calls : y.calls = x.calls ++ pollCalls x p
  requests : KeepsRequests x.st y.st
  mode : SameMode x.st y.st

def fetched : Core := { x with log := x.log ++ [.read p.ep p.isIn] }

lemma fetched_calls : (fetched x p).calls = x.calls := rfl

lemma hsRetireDtd_calls (t : Transfer) : (hsRetireDtd x t).calls = x.calls := rfl

variable {x} {p}

lemma finds_fetches (h : finds x p) : fetches x p := by
  simp only [finds, Bool.and_eq_true] at h
  exact h.1.1

lemma finds_head_ne (h : finds x p) : headDtd x p ≠ 0 := by
  simp only [finds, Bool.and_eq_true, bne_iff_ne] at h
  exact h.2

lemma hsActiveDtd_of_not_fetches (hask : asks x.st p)
    (h : fetches x p = false) : hsActiveDtd x p.ep p.isIn = (x, 0) := by
  have hterm : anyBit (nextDtd x p.ep p.isIn) dtdTerminate := by simpa [fetches, hask] using h
  rw [hsActiveDtd, if_pos hterm]

lemma hsActiveDtd_of_fetches (h : fetches x p) :
    hsActiveDtd x p.ep p.isIn = (fetched x p, if finds x p then headDtd x p else 0) := by
  have hterm : ¬ anyBit (nextDtd x p.ep p.isIn) dtdTerminate := by
    have := h
    simp only [fetches, Bool.and_eq_true, Bool.not_eq_true'] at this
    simp [this.2]
  rw [hsActiveDtd, if_neg hterm]
  refine Prod.ext rfl ?_
  change (if anyBit (hsLd x.mem (headDtd x p + 4)) dtdActive then headDtd x p else 0) = _
  by_cases hzero : headDtd x p = 0
  · simp [finds, hzero]
  · have hne := bne_iff_ne.mpr hzero
    rw [finds, h, hne, Bool.true_and, Bool.and_true]

lemma Polled.of_not_fetches (h : fetches x p = false) : Polled x p x := by
  have hfinds : finds x p = false := by simp [finds, h]
  constructor
  · simp [pollMarks, hfinds, h]
  · simp [pollCalls, hfinds]
  · exact .refl _
  · exact .refl _

lemma Polled.of_not_finds (h : fetches x p)
    (hfinds : finds x p = false) : Polled x p (fetched x p) := by
  constructor
  · simp [pollMarks, hfinds, h, fetched]
  · simp [pollCalls, hfinds, fetched]
  · exact .refl _
  · exact .refl _

inductive Head (x : Core) (p : Poll) : Core × Word → Prop where
  | terminated (h : fetches x p = false) : Head x p (x, 0)
  | inactive (h : fetches x p = true) (hfinds : finds x p = false) : Head x p (fetched x p, 0)
  | active (hfinds : finds x p = true) : Head x p (fetched x p, headDtd x p)

lemma hsActiveDtd_head (hask : asks x.st p) :
    Head x p (hsActiveDtd x p.ep p.isIn) := by
  cases hfetch : fetches x p with
  | false =>
    rw [hsActiveDtd_of_not_fetches hask hfetch]
    exact .terminated hfetch
  | true =>
    rw [hsActiveDtd_of_fetches hfetch]
    cases hfinds : finds x p with
    | false => exact .inactive hfetch hfinds
    | true => exact .active hfinds

lemma Polled.of_retire {y : Core} (hfinds : finds x p)
    (hlog : y.log = x.log ++ [.read p.ep p.isIn] ++ [.retire (pollTransfer x p)])
    (hcalls : y.calls = x.calls ++ [pollAnswer p (pollTransfer x p).moved])
    (hrequests : KeepsRequests x.st y.st) (hmode : SameMode x.st y.st) : Polled x p y := by
  constructor
  · rw [hlog, pollMarks, if_pos hfinds, List.append_assoc]
    rfl
  · rw [hcalls, pollCalls, if_pos hfinds]
  · exact hrequests
  · exact hmode

lemma setXfer_keepsRequests {s : UsbhsState} {q : UsbhsXfer}
    (hep : t.ep = s.ep) (hdata : q.outData = (s.ep ep).outData)
    (hpend : q.outPending → (s.ep ep).outPending) : KeepsRequests s (t.setXfer ep q) := by
  constructor
  all_goals
    intro e
    simp only [setXfer, update_apply, hep]
    split
  · next h => rw [h, hdata]
  · rfl
  · next h => rw [h]; exact hpend
  · exact id

lemma serviceIn_polled (hask : asks x.st (.dataIn ep)) :
    Polled x (.dataIn ep) (usbhsServiceIn x ep) := by
  have hhead : Head x (.dataIn ep) (hsActiveDtd x ep true) := hsActiveDtd_head hask
  unfold usbhsServiceIn
  generalize hsActiveDtd x ep true = r at hhead ⊢
  cases hhead with
  | terminated h => exact .of_not_fetches h
  | inactive h hfinds => exact .of_not_finds h hfinds
  | active hfinds =>
    simp only [if_neg (finds_head_ne hfinds)]
    refine .of_retire hfinds rfl rfl ?_ ?_
    · exact setXfer_keepsRequests rfl rfl id
    · exact (endptcomplete_sameMode x.st (16 + ep.val)).ofRegs rfl rfl

lemma serviceOut_polled (hask : asks x.st (.dataOut ep)) :
    Polled x (.dataOut ep) (usbhsServiceOut x ep) := by
  have hhead : Head x (.dataOut ep) (hsActiveDtd x ep false) := hsActiveDtd_head hask
  unfold usbhsServiceOut
  generalize hsActiveDtd x ep false = r at hhead ⊢
  cases hhead with
  | terminated h => exact .of_not_fetches h
  | inactive h hfinds => exact .of_not_finds h hfinds
  | active hfinds =>
    simp only [if_neg (finds_head_ne hfinds)]
    refine .of_retire hfinds rfl rfl ?_ ?_
    · refine setXfer_keepsRequests rfl rfl fun h => ?_
      exact absurd h (by simp)
    · exact (endptcomplete_sameMode x.st ep.val).ofRegs rfl rfl

lemma consumeStatusIn_polled (hask : asks x.st .status) :
    Polled x .status (usbhsConsumeStatusIn x) := by
  have hhead : Head x .status (hsActiveDtd x 0 true) := hsActiveDtd_head hask
  unfold usbhsConsumeStatusIn
  generalize hsActiveDtd x 0 true = r at hhead ⊢
  cases hhead with
  | terminated h => exact .of_not_fetches h
  | inactive h hfinds => exact .of_not_finds h hfinds
  | active hfinds =>
    simp only [if_neg (finds_head_ne hfinds)]
    refine .of_retire hfinds rfl ?_ (.of_ep_eq rfl) ?_
    · rw [pollAnswer, hsRetireDtd_calls, fetched_calls]
    · exact (endptcomplete_sameMode x.st 16).ofRegs rfl rfl

variable (x) (p)

lemma poll_polled : Polled x p (usbhsPoll x p) := by
  unfold usbhsPoll
  split
  · next hask =>
      cases p with
      | status => exact consumeStatusIn_polled hask
      | dataOut ep => exact serviceOut_polled hask
      | dataIn ep => exact serviceIn_polled hask
  next hask =>
    have hfetch : fetches x p = false := by simp [fetches, hask]
    exact .of_not_fetches hfetch

def serves : UsbhsEvent → Bool
  | .write off _ => off = 0x1B0
  | .sof => true
  | .epIn _ _ => true
  | .epOut _ _ => true
  | _ => false

def latched : UsbhsEvent → Core
  | .write off v =>
    if off = 0x1B0 then
      { x with st := x.st.setReg rEndptstat (x.st.regs rEndptstat ||| v) }
    else usbhsCoreWrite x off v
  | .epIn ep len =>
    let t := { x.st.ep (hsEp ep) with inPending := true, inLen := len }
    { x with st := x.st.setXfer (hsEp ep) t }
  | .epOut ep data =>
    let t := { x.st.ep (hsEp ep) with outData := data.take usbhsXfermax, outPending := true }
    { x with st := x.st.setXfer (hsEp ep) t }
  | .sof => x
  | e => usbhsStep x e

def polls : List Poll := if serves e && (latched x e).st.enabled then schedule else []

lemma run_polls (h : serves e) :
    run usbhsPoll (latched x e) (polls x e) = usbhsService (latched x e) := by
  rw [service_polls, polls, h, Bool.true_and]
  split <;> rfl

lemma step_polls : usbhsStep x e = run usbhsPoll (latched x e) (polls x e) := by
  cases e with
  | write off v =>
    by_cases hprime : off = 0x1B0
    · rw [run_polls x _ (by simp [serves, hprime]), hprime]
      rfl
    have hserves : serves (.write off v) = false := by simp [serves, hprime]
    rw [polls, hserves, latched, if_neg hprime]
    rfl
  | sof =>
    rw [run_polls x _ rfl, usbhsStep, usbhsSof, latched]
    cases hen : x.st.enabled with
    | false => simp [usbhsService, hen]
    | true => rfl
  | epIn ep len => exact (run_polls x (.epIn ep len) rfl).symm
  | epOut ep data => exact (run_polls x (.epOut ep data) rfl).symm
  | setup pkt | busReset | reset | store addr bytes => rfl

structure RegistersWritten (s : UsbhsState) (off : ℕ) (v : Word) (t : UsbhsState) : Prop where
  enabled : t.enabled = s.enabled
  ep : t.ep = s.ep
  usbcmd : t.regs rUsbcmd = if off / 4 = 0x50 then v else s.regs rUsbcmd
  usbmode : t.regs rUsbmode = if off / 4 = 0x6A then v else s.regs rUsbmode

lemma setReg_written {s : UsbhsState} (h : off < 0x200) (v : Word) :
    RegistersWritten s off v (s.setReg ⟨off / 4, core_div_four_lt h⟩ v) := by
  have hat (q : RegIdx) : (s.setReg ⟨off / 4, core_div_four_lt h⟩ v).regs q =
      if off / 4 = q.val then v else s.regs q := by
    simp only [setReg, update_apply, Fin.ext_iff, eq_comm]
  exact ⟨rfl, rfl, hat rUsbcmd, hat rUsbmode⟩

lemma setReg_other {s : UsbhsState} {v : Word} {w : Word}
    (hcmd : off / 4 ≠ 0x50) (hmode : off / 4 ≠ 0x6A)
    (hr : r ≠ rUsbcmd ∧ r ≠ rUsbmode) (hen : t.enabled = s.enabled) (hep : t.ep = s.ep)
    (hregs : t.regs = Function.update s.regs r w) : RegistersWritten s off v t where
  enabled := hen
  ep := hep
  usbcmd := by rw [if_neg hcmd, hregs, update_of_ne hr.1.symm]
  usbmode := by rw [if_neg hmode, hregs, update_of_ne hr.2.symm]

inductive CoreWritten (x : Core) (off : ℕ) (v : Word) (y : Core) : Prop where
  | usbcmd (hoff : off = 0x140) (hy : y = writeUsbcmd x v)
  | registers {s : UsbhsState} (hoff : off ≠ 0x140) (h : RegistersWritten x.st off v s)
      (hy : y = { x with st := s })

lemma coreWrite_written (v : Word) (hprime : off ≠ 0x1B0) :
    CoreWritten x off v (usbhsCoreWrite x off v) := by
  have hkeep (hcmd : off / 4 ≠ 0x50) (hmode : off / 4 ≠ 0x6A) :
      RegistersWritten x.st off v x.st :=
    ⟨rfl, rfl, (if_neg hcmd).symm, (if_neg hmode).symm⟩
  unfold usbhsCoreWrite
  split
  case isFalse h => exact .registers (by omega) (hkeep (by omega) (by omega)) rfl
  case isTrue h =>
    have hreg (q : RegIdx) : (⟨off / 4, core_div_four_lt h⟩ : RegIdx) = q ↔ off / 4 = q.val :=
      Fin.ext_iff
    simp only [hreg, readOnly, mem_cons, not_mem_nil, or_false]
    split
    · next halign => exact .registers (by omega) (setReg_written h v) rfl
    next halign =>
    split
    · next hro =>
        simp only [rEndptstat] at hro
        exact .registers (by omega) (hkeep (by omega) (by omega)) rfl
    split
    · next hcmd =>
        simp only [rUsbcmd] at hcmd
        exact .usbcmd (by omega) rfl
    next hcmd =>
    have hother (hmode : off / 4 ≠ 0x6A) {w : Word} {t : UsbhsState}
        (hen : t.enabled = x.st.enabled) (hep : t.ep = x.st.ep)
        (hregs : t.regs = Function.update x.st.regs ⟨off / 4, core_div_four_lt h⟩ w) :
        CoreWritten x off v { x with st := t } := by
      have hoff : off ≠ 0x140 := fun hoff => hcmd (by rw [hoff]; rfl)
      exact .registers hoff (setReg_other hcmd hmode
        ⟨mt (hreg rUsbcmd).mp hcmd, mt (hreg rUsbmode).mp hmode⟩ hen hep hregs) rfl
    split
    · next hsts => exact hother (by simp only [rUsbsts] at hsts; omega) rfl rfl rfl
    split
    · next hintr => exact hother (by simp only [rUsbintr] at hintr; omega) rfl rfl rfl
    split
    · next hw1c =>
        simp only [rEndptsetupstat, rEndptcomplete] at hw1c
        exact hother (by omega) rfl rfl rfl
    split
    · next hp =>
        simp only [rEndptprime] at hp
        omega
    split
    · next hflush =>
        simp only [rEndptflush] at hflush
        have hstat : rEndptstat ≠ rUsbcmd ∧ rEndptstat ≠ rUsbmode := by decide
        have hwritten : RegistersWritten x.st off v
            (x.st.setReg rEndptstat (x.st.regs rEndptstat &&& ~~~v)) :=
          setReg_other hcmd (by omega) hstat rfl rfl rfl
        exact .registers (by omega) hwritten rfl
    · exact .registers (fun hoff => hcmd (by rw [hoff]; rfl)) (setReg_written h v) rfl

def usbcmdCalls : List BackendCall :=
  if anyBit v usbcmdRst then []
  else if anyBit v usbcmdRs && deviceMode s.regs && !s.enabled then [.attach speedHigh]
  else if !anyBit v usbcmdRs && s.enabled then [.detach]
  else []

structure UsbcmdWritten (x : Core) (v : Word) (y : Core) : Prop where
  log : y.log = x.log
  mem : y.mem = x.mem
  ep : y.st.ep = x.st.ep
  calls : y.calls = x.calls ++ usbcmdCalls x.st v
  enabled : y.st.enabled =
    (!anyBit v usbcmdRst && anyBit v usbcmdRs && (deviceMode x.st.regs || x.st.enabled))
  usbcmd : y.st.regs rUsbcmd = if anyBit v usbcmdRst then 0 else v
  usbmode : y.st.regs rUsbmode = x.st.regs rUsbmode

lemma deviceMode_setReg_usbcmd : deviceMode (s.setReg rUsbcmd v).regs = deviceMode s.regs := by
  have hne : rUsbmode ≠ rUsbcmd := by decide
  simp only [deviceMode, setReg, update_of_ne hne]

lemma writeUsbcmd_written : UsbcmdWritten x v (writeUsbcmd x v) := by
  have hne : rUsbmode ≠ rUsbcmd := by decide
  have hcmd : (x.st.setReg rUsbcmd v).regs rUsbcmd = v := by simp [setReg]
  have hmode : (x.st.setReg rUsbcmd v).regs rUsbmode = x.st.regs rUsbmode := by simp [setReg, hne]
  have hen : (x.st.setReg rUsbcmd v).enabled = x.st.enabled := rfl
  unfold writeUsbcmd
  simp only [deviceMode_setReg_usbcmd, hen]
  split
  · next hrst =>
      refine ⟨rfl, rfl, rfl, ?_, ?_, ?_, rfl⟩
      · rw [usbcmdCalls, if_pos hrst, append_nil]
      · rw [hrst]
        rfl
      · rw [if_pos hrst]
        rfl
  next hrst =>
  have hrst : anyBit v usbcmdRst = false := by simpa using hrst
  split
  · next hattach =>
      have hcalls : usbcmdCalls x.st v = [.attach speedHigh] := by
        simp only [usbcmdCalls, hrst, hattach, if_true, Bool.false_eq_true, if_false]
      simp only [Bool.and_eq_true] at hattach
      refine ⟨rfl, rfl, rfl, by rw [hcalls], ?_, ?_, hmode⟩
      · simp [hrst, hattach.1.1, hattach.1.2]
      · simp [hrst, hcmd]
  next hattach =>
  split
  · next hdetach =>
      have hcalls : usbcmdCalls x.st v = [.detach] := by
        rw [usbcmdCalls, hrst, if_neg (by simp), if_neg hattach, if_pos hdetach]
      simp only [Bool.and_eq_true, Bool.not_eq_true'] at hdetach
      refine ⟨rfl, rfl, rfl, by rw [hcalls], ?_, ?_, hmode⟩
      · simp [hdetach.1]
      · simp [hrst, hcmd]
  next hdetach =>
    have hcalls : usbcmdCalls x.st v = [] := by
      rw [usbcmdCalls, hrst, if_neg (by simp), if_neg hattach, if_neg hdetach]
    refine ⟨rfl, rfl, rfl, by rw [hcalls, append_nil], ?_, ?_, hmode⟩
    · rw [hen, hrst]
      revert hattach hdetach
      cases anyBit v usbcmdRs <;> cases deviceMode x.st.regs <;> cases x.st.enabled <;> simp
    · simp [hrst, hcmd]

lemma latched_sameMode {x : Core} {e : UsbhsEvent}
    (hwrite : ∀ off v, e = .write off v → off = 0x1B0) (hreset : e ≠ .reset) :
    SameMode x.st (latched x e).st := by
  cases e with
  | write off v =>
    rw [latched, if_pos (hwrite off v rfl)]
    exact setReg_sameMode _ _ (by decide) (by decide)
  | setup pkt =>
    have hset := setReg_sameMode x.st (r := rEndptsetupstat)
      (x.st.regs rEndptsetupstat ||| 1) (by decide) (by decide)
    exact (hset.trans (ui_sameMode _)).ofRegs rfl rfl
  | busReset =>
    have hset := setReg_sameMode x.st (r := rUsbsts) (x.st.regs rUsbsts ||| usbstsUri)
      (by decide) (by decide)
    exact hset.ofRegs rfl rfl
  | reset => exact absurd rfl hreset
  | sof => exact .refl _
  | epIn ep len | epOut ep data => exact (SameMode.refl x.st).ofRegs rfl rfl
  | store addr bytes => exact .refl _

lemma step_sameMode : SameMode (latched x e).st (usbhsStep x e).st := by
  rw [step_polls]
  exact run_invariant (P := fun y : Core => SameMode (latched x e).st y.st)
    (fun y p hy => hy.trans (poll_polled y p).mode) (.refl _) _

def latchedCalls : UsbhsEvent → List BackendCall
  | .write off v => if off = 0x140 then usbcmdCalls x.st v else []
  | _ => []

lemma latched_log : (latched x e).log = x.log := by
  cases e with
  | write off v =>
    by_cases hprime : off = 0x1B0
    · rw [latched, if_pos hprime]
    rw [latched, if_neg hprime]
    cases coreWrite_written x v hprime with
    | usbcmd hoff hy => rw [hy, (writeUsbcmd_written x v).log]
    | registers hoff h hy => rw [hy]
  | _ => rfl

lemma latched_calls : (latched x e).calls = x.calls ++ latchedCalls x e := by
  cases e with
  | write off v =>
    by_cases hprime : off = 0x1B0
    · have hcmd : off ≠ 0x140 := by omega
      rw [latched, if_pos hprime, latchedCalls, if_neg hcmd, append_nil]
    rw [latched, if_neg hprime, latchedCalls]
    cases coreWrite_written x v hprime with
    | usbcmd hoff hy => rw [hy, if_pos hoff, (writeUsbcmd_written x v).calls]
    | registers hoff h hy => rw [hy, if_neg hoff, append_nil]
  | _ => exact (append_nil _).symm

def stepMarks : List EngineMark := outputs usbhsPoll pollMarks (latched x e) (polls x e)

def stepCalls : List BackendCall :=
  latchedCalls x e ++ outputs usbhsPoll pollCalls (latched x e) (polls x e)

lemma step_log : (usbhsStep x e).log = x.log ++ stepMarks x e := by
  rw [step_polls, log_run (fun x p => (poll_polled x p).log), latched_log, stepMarks]

lemma step_calls : (usbhsStep x e).calls = x.calls ++ stepCalls x e := by
  rw [step_polls, log_run (fun x p => (poll_polled x p).calls), latched_calls,
    stepCalls, List.append_assoc]

def newMarks (x y : Core) : List EngineMark := y.log.drop x.log.length

def newCalls (x y : Core) : List BackendCall := y.calls.drop x.calls.length

lemma newMarks_step : newMarks x (usbhsStep x e) = stepMarks x e := by
  rw [newMarks, step_log, drop_left]

lemma newCalls_step : newCalls x (usbhsStep x e) = stepCalls x e := by
  rw [newCalls, step_calls, drop_left]

end Mcxn947.Usbhs
