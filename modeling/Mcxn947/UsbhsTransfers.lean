import Mcxn947.UsbhsService

/-!
# Bytes through the dTD chains

A dTD names a number of bytes and up to five pages that hold them.
-/

namespace Mcxn947.Usbhs

open MachineWords GuestMemory EventRuns Usbdev List Function

def bufferAddr (m : Mem) (dtd : Word) (i : ℕ) : ℕ :=
  let first := (hsLd m (dtd + 8)).toNat
  let page := (first % 4096 + i) / 4096
  if page = 0 then first + i
  else
    (hsLd m (dtd + 8 + BitVec.ofNat 32 (4 * page))).toNat / 4096 * 4096 + (first % 4096 + i) % 4096

def Adjacent (m : Mem) (dtd : Word) (n : ℕ) : Prop :=
  (hsLd m (dtd + 8)).toNat % 4096 + n ≤ 4096 ∨
    (hsLd m (dtd + 12)).toNat / 4096 = (hsLd m (dtd + 8)).toNat / 4096 + 1
deriving Decidable

lemma bufferAddr_of_adjacent {m : Mem} {dtd : Word} {n i : ℕ} (h : Adjacent m dtd n)
    (hn : n ≤ 4096) (hi : i < n) : bufferAddr m dtd i = (hsLd m (dtd + 8)).toNat + i := by
  unfold bufferAddr
  dsimp only
  split
  · rfl
  next hpage =>
    have hone : ((hsLd m (dtd + 8)).toNat % 4096 + i) / 4096 = 1 := by omega
    have hsecond : dtd + 8 + BitVec.ofNat 32 (4 * 1) = dtd + 12 := by
      rw [BitVec.add_assoc]
      rfl
    rw [hone, hsecond]
    cases h with
    | inl hfirst | inr hnext => omega

def Transfer.total (t : Transfer) : ℕ := totbytes (hsLd t.before (t.dtd + 4))

def Transfer.buffer (t : Transfer) : List Byte :=
  (List.range t.total).map fun i => t.before (bufferAddr t.before t.dtd i)

structure Transfer.Whole (t : Transfer) : Prop where
  moved : t.moved.length = t.total
  remaining : t.remaining = 0

structure Transfer.Filled (t : Transfer) : Prop where
  stored : ∀ i < t.total, t.after (bufferAddr t.before t.dtd i) = t.moved.getD i 0
  kept : ∀ a, (∀ i < t.total, a ≠ bufferAddr t.before t.dtd i) → t.after a = t.before a

structure Wire where
  core : Core
  (host told : EpIdx → List Byte)

def payload (ep : EpIdx) : BackendCall → List Byte
  | .completeIn n data => if n = devEp ep then data else []
  | _ => []

variable (host : EpIdx → List Byte)

def reported (ep : EpIdx) : BackendCall → List Byte
  | .completeOut n .success len => if n = devEp ep then (host ep).take len else []
  | _ => []

def hostAfter : UsbhsEvent → EpIdx → List Byte
  | .epOut n data => Function.update host (hsEp n) data
  | _ => host

def Wire.step (w : Wire) (e : UsbhsEvent) : Wire :=
  let y := usbhsStep w.core e
  let host := hostAfter w.host e
  ⟨y, host, fun ep => w.told ep ++ (newCalls w.core y).flatMap (reported host ep)⟩

def Wire.start (mem : Mem) : Wire := ⟨.powerOn mem, fun _ => [], fun _ => []⟩

def drained (ep : EpIdx) : EngineMark → List Byte
  | .retire t => if t.ep = ep ∧ t.isIn = true then t.buffer else []
  | _ => []

def filled (ep : EpIdx) : EngineMark → List Byte
  | .retire t => if t.ep = ep ∧ t.isIn = false then t.moved else []
  | _ => []

/-- The host has received exactly the buffers of the retired `IN` dTDs, has been told of
exactly the bytes in the retired `OUT` dTDs, and every dTD was retired whole. -/
structure Lossless (w : Wire) (ep : EpIdx) : Prop where
  received : w.core.calls.flatMap (payload ep) = w.core.log.flatMap (drained ep)
  told : w.told ep = w.core.log.flatMap (filled ep)
  whole : ∀ t, .retire t ∈ w.core.log → t.ep = ep → t.Whole
  stored : ∀ t, .retire t ∈ w.core.log → t.ep = ep → t.isIn = false → t.Filled

def offered (x : Core) : Poll → ℕ
  | .status => 0
  | .dataIn ep => min (x.st.ep ep).inLen usbhsXfermax
  | .dataOut ep => (x.st.ep ep).outData.length

def TakesWhole (x : Core) (p : Poll) : Prop :=
  p.ep ≠ 0 → finds x p = true →
    headTotal x p ≤ offered x p ∧ Adjacent x.mem (headDtd x p) (headTotal x p)
deriving Decidable

def Held (s : UsbhsState) : Prop :=
  ∀ ep, (s.ep ep).outPending = true → (s.ep ep).outData = (host ep).take usbhsXfermax

variable {host}

lemma Held.keeps {s t : UsbhsState} (h : Held host s)
    (hkeep : KeepsRequests s t) : Held host t := by
  intro ep hpend
  rw [hkeep.outData, h ep (hkeep.outPending ep hpend)]

lemma pollTransfer_total (x : Core) (p : Poll) : (pollTransfer x p).total = headTotal x p := by
  cases p <;> rfl

variable {x : Core} {p : Poll}

lemma finds_asks (h : finds x p) : asks x.st p := by
  have hfetch := finds_fetches h
  simp only [fetches, Bool.and_eq_true] at hfetch
  exact hfetch.1

lemma offered_le (hheld : Held host x.st) (hfinds : finds x p) : offered x p ≤ usbhsXfermax := by
  cases p with
  | status => exact Nat.zero_le _
  | dataIn ep => exact Nat.min_le_right _ _
  | dataOut ep =>
    have hpend := finds_asks hfinds
    rw [offered, hheld ep hpend]
    exact length_take_le _ _

lemma pollTransfer_whole (hep : p.ep ≠ 0)
    (hfits : headTotal x p ≤ offered x p) : (pollTransfer x p).Whole := by
  cases p with
  | status => exact absurd rfl hep
  | dataIn ep =>
    have hle : headTotal x (.dataIn ep) ≤ min (x.st.ep ep).inLen usbhsXfermax := hfits
    have hn : min (min (headTotal x (.dataIn ep)) (x.st.ep ep).inLen) usbhsXfermax =
        headTotal x (.dataIn ep) := by omega
    constructor
    · rw [pollTransfer_total, pollTransfer]
      simp only [length_load, hn]
    · simp only [pollTransfer, hn, Nat.sub_self]
  | dataOut ep =>
    have hn := length_take_of_le hfits
    constructor
    · rw [pollTransfer_total, pollTransfer]
      simp only [hn]
    · simp only [pollTransfer, hn, Nat.sub_self]

lemma pollTransfer_buffer {ep : EpIdx} (hfits : headTotal x (.dataIn ep) ≤ offered x (.dataIn ep))
    (hadjacent : Adjacent x.mem (headDtd x (.dataIn ep)) (headTotal x (.dataIn ep))) :
    (pollTransfer x (.dataIn ep)).moved = (pollTransfer x (.dataIn ep)).buffer := by
  have hle : headTotal x (.dataIn ep) ≤ min (x.st.ep ep).inLen 1024 := hfits
  have hn : min (min (headTotal x (.dataIn ep)) (x.st.ep ep).inLen) usbhsXfermax =
      headTotal x (.dataIn ep) := by
    rw [usbhsXfermax]
    omega
  have hmoved : (pollTransfer x (.dataIn ep)).moved =
      load x.mem (headBuffer x (.dataIn ep)) (headTotal x (.dataIn ep)) := by
    simp only [pollTransfer, hn]
  rw [hmoved, Transfer.buffer, pollTransfer_total, load]
  apply map_congr_left
  intro i hi
  have hlt := List.mem_range.mp hi
  change _ = x.mem (bufferAddr x.mem (headDtd x (.dataIn ep)) i)
  rw [bufferAddr_of_adjacent hadjacent (by omega) hlt, headBuffer]

lemma pollTransfer_filled {ep : EpIdx}
    (hfits : headTotal x (.dataOut ep) ≤ (x.st.ep ep).outData.length)
    (hmax : (x.st.ep ep).outData.length ≤ usbhsXfermax)
    (hadjacent : Adjacent x.mem (headDtd x (.dataOut ep)) (headTotal x (.dataOut ep))) :
    (pollTransfer x (.dataOut ep)).Filled := by
  rw [usbhsXfermax] at hmax
  have haddr (i : ℕ) (hi : i < headTotal x (.dataOut ep)) :
      bufferAddr x.mem (headDtd x (.dataOut ep)) i = headBuffer x (.dataOut ep) + i :=
    bufferAddr_of_adjacent hadjacent (by omega) hi
  have hlen := length_take_of_le hfits
  constructor
  · intro i hi
    rw [pollTransfer_total] at hi
    change store x.mem _ _ (bufferAddr x.mem (headDtd x (.dataOut ep)) i) = _
    rw [haddr i hi]
    have hcovers : Covers (headBuffer x (.dataOut ep))
        ((x.st.ep ep).outData.take (headTotal x (.dataOut ep))).length
        (headBuffer x (.dataOut ep) + i) := ⟨by omega, by omega⟩
    rw [store_apply_of_covers hcovers, Nat.add_sub_cancel_left]
    rfl
  intro a ha
  rw [pollTransfer_total] at ha
  refine store_apply_of_not_covers fun hcovers => ?_
  obtain ⟨hlow, hhigh⟩ := hcovers
  refine ha (a - headBuffer x (.dataOut ep)) (by omega) ?_
  change _ = bufferAddr x.mem (headDtd x (.dataOut ep)) _
  rw [haddr _ (by omega)]
  omega

lemma devEp_inj {a b : EpIdx} : devEp a = devEp b ↔ a = b := by
  constructor
  · intro h
    have hval : a.val % 16 = b.val % 16 := congrArg Fin.val h
    exact Fin.ext (by omega)
  · intro h
    rw [h]

section Polls

variable {x : Core} {p : Poll} {ep : EpIdx} {f : BackendCall → List Byte}
  {g : EngineMark → List Byte}

lemma poll_flatMap (hread : ∀ ep isIn, g (.read ep isIn) = []) (hfound : finds x p →
      f (pollAnswer p (pollTransfer x p).moved) = g (.retire (pollTransfer x p))) :
    (pollCalls x p).flatMap f = (pollMarks x p).flatMap g := by
  cases hfinds : finds x p with
  | false =>
    cases hfetch : fetches x p with
    | false => simp [pollCalls, pollMarks, hfinds, hfetch]
    | true => simp [pollCalls, pollMarks, hfinds, hfetch, hread]
  | true => simp [pollCalls, pollMarks, hfinds, hread, hfound hfinds]

lemma poll_received (hep : ep ≠ 0) (h : TakesWhole x p) :
    (pollCalls x p).flatMap (payload ep) = (pollMarks x p).flatMap (drained ep) := by
  refine poll_flatMap (fun _ _ => rfl) fun hfinds => ?_
  cases p with
  | status => exact (if_neg fun hzero => hep hzero.1.symm).symm
  | dataOut e => exact (if_neg fun hin => Bool.false_ne_true hin.2).symm
  | dataIn e =>
    by_cases he : e = ep
    · subst he
      obtain ⟨hfits, hadjacent⟩ := h hep hfinds
      have hpayload : payload e (pollAnswer (.dataIn e) (pollTransfer x (.dataIn e)).moved) =
          (pollTransfer x (.dataIn e)).moved := if_pos rfl
      rw [hpayload, pollTransfer_buffer hfits hadjacent]
      exact (if_pos ⟨rfl, rfl⟩).symm
    have hpayload : payload ep (pollAnswer (.dataIn e) (pollTransfer x (.dataIn e)).moved) =
        [] := if_neg (mt devEp_inj.mp he)
    rw [hpayload]
    exact (if_neg fun hhere => he hhere.1).symm

lemma poll_reported (hep : ep ≠ 0) (hheld : Held host x.st) :
    (pollCalls x p).flatMap (reported host ep) = (pollMarks x p).flatMap (filled ep) := by
  refine poll_flatMap (fun _ _ => rfl) fun hfinds => ?_
  cases p with
  | status =>
    have hstatus : reported host ep (pollAnswer .status (pollTransfer x .status).moved) = [] :=
      if_neg fun hzero => hep (devEp_inj.mp hzero.symm)
    rw [hstatus]
    exact (if_neg fun hin => Bool.false_ne_true hin.2.symm).symm
  | dataIn e => exact (if_neg fun hin => Bool.false_ne_true hin.2.symm).symm
  | dataOut e =>
    by_cases he : e = ep
    · subst he
      have hpend := finds_asks hfinds
      have hmoved : (pollTransfer x (.dataOut e)).moved =
          ((host e).take usbhsXfermax).take (headTotal x (.dataOut e)) := by
        rw [← hheld e hpend]
        rfl
      have hprefix : (pollTransfer x (.dataOut e)).moved <+: host e := by
        rw [hmoved]
        exact (List.take_prefix _ _).trans (List.take_prefix _ _)
      have hreported : reported host e
          (pollAnswer (.dataOut e) (pollTransfer x (.dataOut e)).moved) =
          (host e).take (pollTransfer x (.dataOut e)).moved.length := if_pos rfl
      rw [hreported, ← List.prefix_iff_eq_take.mp hprefix]
      exact (if_pos ⟨rfl, rfl⟩).symm
    have hreported : reported host ep
        (pollAnswer (.dataOut e) (pollTransfer x (.dataOut e)).moved) = [] :=
      if_neg (mt devEp_inj.mp he)
    rw [hreported]
    exact (if_neg fun hhere => he hhere.1).symm

def Sound (mark : EngineMark) : Prop :=
  ∀ t, mark = .retire t → t.ep ≠ 0 → t.Whole ∧ (t.isIn = false → t.Filled)

lemma poll_sound (hheld : Held host x.st) (h : TakesWhole x p) :
    ∀ mark ∈ pollMarks x p, Sound mark := by
  have hsound (hfinds : finds x p = true) : Sound (.retire (pollTransfer x p)) := by
    rintro t ⟨⟩ hep
    rw [pollTransfer_ep] at hep
    obtain ⟨hfits, hadjacent⟩ := h hep hfinds
    refine ⟨pollTransfer_whole hep hfits, fun hout => ?_⟩
    cases p with
    | status | dataIn e => cases hout
    | dataOut e => exact pollTransfer_filled hfits (offered_le hheld hfinds) hadjacent
  have hread : Sound (.read p.ep p.isIn) := by rintro t ⟨⟩
  unfold pollMarks
  split
  · next hfinds => simp [hread, hsound hfinds]
  · split <;> simp [hread]

end Polls

lemma latched_held (h : Held host x.st)
    (e : UsbhsEvent) : Held (hostAfter host e) (latched x e).st := by
  cases e with
  | write off v =>
    by_cases hprime : off = 0x1B0
    · rw [latched, if_pos hprime]
      exact h
    rw [latched, if_neg hprime]
    cases coreWrite_written x v hprime with
    | usbcmd hoff hy =>
      intro ep
      rw [hy, (writeUsbcmd_written x v).ep]
      exact h ep
    | registers hoff hs hy =>
      intro ep
      rw [hy, hs.ep]
      exact h ep
  | sof => exact h
  | setup pkt =>
    -- the control request drops what waited on endpoint 0
    intro ep hpend
    by_cases hep : ep = 0
    · subst hep
      exact absurd hpend Bool.false_ne_true
    have hsame : (latched x (.setup pkt)).st.ep ep = x.st.ep ep := update_of_ne hep ..
    rw [hsame] at hpend ⊢
    exact h ep hpend
  | epIn n len => exact h.keeps (setXfer_keepsRequests rfl rfl id)
  | epOut n data =>
    intro ep hpend
    by_cases hep : ep = hsEp n
    · subst hep
      simp [latched, hostAfter, UsbhsState.setXfer]
    have hsame : (latched x (.epOut n data)).st.ep ep = x.st.ep ep := update_of_ne hep ..
    rw [hsame] at hpend ⊢
    rw [hostAfter, update_of_ne hep, h ep hpend]
  | busReset | reset => exact fun ep hpend => absurd hpend Bool.false_ne_true
  | store addr bytes => exact h

variable {e : UsbhsEvent}

lemma latchedCalls_silent (f : BackendCall → List Byte)
    (hattach : ∀ speed, f (.attach speed) = []) (hdetach : f .detach = []) :
    (latchedCalls x e).flatMap f = [] := by
  cases e with
  | write off v =>
    simp only [latchedCalls, usbcmdCalls]
    split <;> [skip; rfl]
    split <;> [rfl; skip]
    split
    · simp [hattach]
    split
    · simp [hdetach]
    · rfl
  | _ => rfl

def WholeTransfers (w : Wire) (e : UsbhsEvent) : Prop :=
  Admits usbhsPoll TakesWhole (latched w.core e) (polls w.core e)
deriving Decidable

structure Wire.Sound (w : Wire) : Prop where
  held : Held w.host w.core.st
  lossless : ∀ ep, ep ≠ 0 → Lossless w ep

lemma poll_held (h : Held host x.st) (p : Poll) : Held host (usbhsPoll x p).st :=
  h.keeps (poll_polled x p).requests

lemma Wire.Sound.step {w : Wire} (hw : w.Sound) (h : WholeTransfers w e) : (w.step e).Sound := by
  have hheld := latched_held hw.held e
  have hlog : (w.step e).core.log = w.core.log ++ stepMarks w.core e := step_log _ _
  have hcalls : (w.step e).core.calls = w.core.calls ++ stepCalls w.core e := step_calls _ _
  have htold (ep : EpIdx) : (w.step e).told ep =
      w.told ep ++ (stepCalls w.core e).flatMap (reported (hostAfter w.host e) ep) := by
    rw [← newCalls_step]
    rfl
  have hmarks : ∀ mark ∈ stepMarks w.core e, Usbhs.Sound mark := by
    refine forall_mem_outputs.mpr (h.strengthen (P := fun x => Held (hostAfter w.host e) x.st)
      (fun x p hfits hx => ⟨poll_held hx p, poll_sound hx hfits⟩) hheld)
  constructor
  · change Held (hostAfter w.host e) (usbhsStep w.core e).st
    rw [step_polls]
    exact run_invariant (P := fun x : Core => Held (hostAfter w.host e) x.st)
      (fun x p hx => poll_held hx p) hheld _
  intro ep hep
  obtain ⟨hreceived, htoldBefore, hwhole, hstored⟩ := hw.lossless ep hep
  have hmem {t : Transfer} (ht : .retire t ∈ (w.step e).core.log) :
      .retire t ∈ w.core.log ∨ .retire t ∈ stepMarks w.core e := by
    rw [hlog] at ht
    exact List.mem_append.mp ht
  constructor
  · have hstep : (stepCalls w.core e).flatMap (payload ep) =
        (stepMarks w.core e).flatMap (drained ep) := by
      rw [stepCalls, flatMap_append,
        latchedCalls_silent (payload ep) (fun _ => rfl) rfl, nil_append]
      exact flatMap_outputs (P := fun _ => True)
        (fun x p hfits _ => ⟨trivial, poll_received hep hfits⟩) trivial h
    rw [hcalls, hlog, flatMap_append, flatMap_append, hreceived, hstep]
  · have hstep : (stepCalls w.core e).flatMap (reported (hostAfter w.host e) ep) =
        (stepMarks w.core e).flatMap (filled ep) := by
      rw [stepCalls, flatMap_append,
        latchedCalls_silent (reported _ ep) (fun _ => rfl) rfl, nil_append]
      exact flatMap_outputs (P := fun x : Core => Held (hostAfter w.host e) x.st)
        (fun x p _ hx => ⟨poll_held hx p, poll_reported hep hx⟩) hheld h
    rw [htold, hlog, flatMap_append, htoldBefore, hstep]
  · intro t ht htep
    cases hmem ht with
    | inl hold => exact hwhole t hold htep
    | inr hnew => exact (hmarks _ hnew t rfl (htep ▸ hep)).1
  intro t ht htep hout
  cases hmem ht with
  | inl hold => exact hstored t hold htep hout
  | inr hnew => exact (hmarks _ hnew t rfl (htep ▸ hep)).2 hout

end Mcxn947.Usbhs
