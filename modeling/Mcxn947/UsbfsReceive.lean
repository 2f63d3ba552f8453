import Mcxn947.UsbfsService

/-!
# `SETUP` and `OUT` packets in device mode

What the remote host sends is stored packet by packet through the receive descriptors of the
endpoint.
-/

namespace Mcxn947.Usbfs

open MachineWords GuestMemory EventRuns List BitVec Function Nat Bool
open UsbdevCall UsbfsState UsbfsXfer

def UsbfsState.setupFirst (s : UsbfsState) (ep : EpIdx) : Bool := ep = 0 && s.setupPending

def UsbfsState.packetFor (s : UsbfsState) (ep : EpIdx) : List Byte :=
  if s.setupFirst ep then s.setupPkt else (s.ep ep).outChunk

def received (x y : Controller) : List Bd := (retirements x y).filter (!Bd.tx ·)

def countField (w : Word) : ℕ := ((w >>> 16) &&& 0x3FF).toNat

structure StoredWithin (x y : Controller) (bd : Bd) (bytes : List Byte) : Prop where
  fits : bytes.length ≤ min usbfsMps (bdCount x bd)
  count : countField (bdLd y.mem (bdAddr x.st bd)) = bytes.length
  mem : ∀ a, ¬ Covers (bdAddr x.st bd).toNat 4 a → y.mem a = store x.mem (bdBuf x bd) bytes a

def UsbfsEvent.Sends : UsbfsEvent → Prop
  | .setup pkt => pkt.length = 8
  | _ => True

def Roomy (x : Controller) : Prop :=
  ∀ ep, (x.st.setupFirst ep = true ∨ (x.st.ep ep).outPending = true) →
    armed x (x.st.due ep false) = true →
    (x.st.packetFor ep).length ≤ bdCount x (x.st.due ep false)

variable {pid : Word} {pkt : List Byte} {t : UsbfsXfer} {e : UsbfsEvent} {events : List UsbfsEvent}

lemma countField_writeBack {n : ℕ} (hn : n < 1024) (hpid : pid.toNat < 16) :
    countField ((BitVec.ofNat 32 n <<< 16) ||| (pid <<< 2)) = n := by
  have hlow : pid <<< 2 >>> 16 = 0#32 := by
    apply eq_of_toNat_eq
    simp only [toNat_ushiftRight, toNat_shiftLeft, Nat.shiftLeft_eq,
      shiftRight_eq_div_pow, toNat_ofNat]
    omega
  have hcount : BitVec.ofNat 32 n <<< 16 >>> 16 = BitVec.ofNat 32 n := by
    apply eq_of_toNat_eq
    simp only [toNat_ushiftRight, toNat_shiftLeft, Nat.shiftLeft_eq,
      shiftRight_eq_div_pow, toNat_ofNat]
    omega
  have hmask : BitVec.toNat (0x3FF : Word) = 2 ^ 10 - 1 := rfl
  rw [countField, ushiftRight_or_distrib, hlow, hcount, BitVec.or_zero,
    toNat_and, hmask, and_two_pow_sub_one_eq_mod, toNat_ofNat]
  omega

lemma length_outChunk_le (t : UsbfsXfer) : t.outChunk.length ≤ usbfsMps := by
  rw [outChunk, length_load]
  exact min_le_right _ _

variable {x y : Controller}

lemma Served.storedWithin {bd : Bd} {bytes : List Byte}
    {xfers : EpIdx → UsbfsXfer} {setupPending ep0StatusIn : Bool} {calls : List UsbdevCall}
    (h : Served x y bd (store x.mem (bdBuf x bd) bytes)
      ((BitVec.ofNat 32 bytes.length <<< 16) ||| (pid <<< 2)) xfers setupPending ep0StatusIn calls)
    (hpid : pid.toNat < 16) (hpacket : bytes.length ≤ usbfsMps)
    (hroom : bytes.length ≤ bdCount x bd) : StoredWithin x y bd bytes where
  fits := le_min hpacket hroom
  count := by
    rw [bdLd, h.mem, load32_store32_self]
    exact countField_writeBack (hpacket.trans_lt (by decide)) hpid
  mem := by
    intro a ha
    rw [h.mem, store32]
    exact store_apply_of_not_covers ha

lemma ServedOut.not_setupFirst {ep : EpIdx} (h : ServedOut x y ep)
    (hfirst : x.st.setupPending → armed x (x.st.due 0 false) = false) : ¬ x.st.setupFirst ep := by
  intro hsetup
  simp only [setupFirst, and_eq_true, decide_eq_true_eq] at hsetup
  obtain ⟨rfl, hwaits⟩ := hsetup
  exact absurd h.armed (Bool.eq_false_iff.mp (hfirst hwaits))

lemma setupWriteBack (h : pkt.length = 8) : ((8 <<< 16) ||| (pidSetup <<< 2) : Word) =
      (BitVec.ofNat 32 pkt.length <<< 16) ||| (pidSetup <<< 2) := by
  rw [h]
  rfl

lemma Serves.storedWithin (hy : Serves x y) (hsetup : x.st.setupPkt.length = 8) (hroomy : Roomy x) :
    ∀ bd ∈ received x y, StoredWithin x y bd (x.st.packetFor bd.ep) := by
  intro bd hbd
  cases hy with
  | idle heq =>
    subst heq
    rw [received, (Silent.ofEq rfl rfl : Silent y y).retirements] at hbd
    cases hbd
  | status _ hserv | dataIn _ _ _ hserv =>
    rw [received, hserv.retirements] at hbd
    cases hbd
  | setup hwaits _ hserv =>
    rw [received, hserv.retirements] at hbd
    obtain rfl : bd = x.st.due 0 false := List.mem_singleton.mp hbd
    have hfirst : x.st.setupFirst 0 := by simp [setupFirst, hwaits]
    have hpacket : x.st.packetFor 0 = x.st.setupPkt := if_pos hfirst
    have hroom := hroomy 0 (.inl hfirst) hserv.armed
    show StoredWithin x y _ (x.st.packetFor 0)
    rw [hpacket] at hroom ⊢
    rw [ServedSetup, setupWriteBack hsetup] at hserv
    apply Served.storedWithin hserv (by decide) ?_ hroom
    rw [hsetup]
    decide
  | dataOut ep hpend hfirst hserv =>
    rw [received, hserv.retirements] at hbd
    obtain rfl : bd = x.st.due ep false := List.mem_singleton.mp hbd
    have hlast := hserv.not_setupFirst hfirst
    have hpacket : x.st.packetFor ep = (x.st.ep ep).outChunk := if_neg hlast
    have hroom := hroomy ep (.inr hpend) hserv.armed
    show StoredWithin x y _ (x.st.packetFor ep)
    rw [hpacket] at hroom ⊢
    exact Served.storedWithin hserv (by decide) (length_outChunk_le _) hroom

def outPackets (ep : EpIdx) (x y : Controller) : List (List Byte) :=
  if x.st.setupFirst ep then []
  else ((received x y).filter (·.ep = ep)).map fun bd => x.st.packetFor bd.ep

def UsbdevCall.answersOut (ep : EpIdx) : UsbdevCall → Option ℕ
  | .completeOut ep' len => if ep' = ep then some len else none
  | _ => none

def outAnswers (ep : EpIdx) (x y : Controller) : List ℕ := (newCalls x y).filterMap (answersOut ep)

def outStream (ep : EpIdx) : Controller → List UsbfsEvent → List Byte
  | _, [] => []
  | x, e :: rest =>
    (outPackets ep (latched x e) (usbfsStep x e)).flatten ++ outStream ep (usbfsStep x e) rest

def outTold (ep : EpIdx) : Controller → List UsbfsEvent → List ℕ
  | _, [] => []
  | x, e :: rest => outAnswers ep x (usbfsStep x e) ++ outTold ep (usbfsStep x e) rest

structure Holds (data sent : List Byte) (t : UsbfsXfer) : Prop where
  len : t.outLen = data.length
  off : t.outOff = sent.length
  buf : load t.outBuf 0 t.outLen = data

/-- What has been stored is the start of the data; where the host has been told of success,
it is all of it.  The status stage of a control transfer reports no bytes. -/
structure Sending (ep : EpIdx) (data : List Byte) (x : Controller) (sent : List Byte)
    (told : List ℕ) : Prop where
  mode : DeviceMode x
  start : sent <+: data
  told : ∀ n ∈ told, n = data.length ∧ sent = data ∨ ep = 0 ∧ n = 0
  holds : (x.st.ep ep).outPending = true → Holds data sent (x.st.ep ep)

variable {data sent : List Byte}

lemma Holds.congr {u : UsbfsXfer} (h : Holds data sent t)
    (hsame : SameOut t u) : Holds data sent u :=
  ⟨hsame.len.trans h.len, hsame.off.trans h.off, by rw [hsame.buf, hsame.len, h.buf]⟩

lemma Holds.next (h : Holds data sent t) (hstart : sent <+: data) :
    sent ++ t.outChunk = data.take (sent.length + t.outChunk.length) ∧
      sent.length + t.outChunk.length ≤ data.length := by
  have hle := hstart.length_le
  have hchunk : t.outChunk.length = min (t.outLen - t.outOff) usbfsMps := length_load _ _ _
  have hfits : sent.length + t.outChunk.length ≤ data.length := by
    rw [hchunk, h.len, h.off]
    omega
  refine ⟨?_, hfits⟩
  have htake : ∀ n ≤ data.length, data.take n = load t.outBuf 0 n := by
    intro n hn
    obtain ⟨rest, hrest⟩ := Nat.exists_eq_add_of_le hn
    rw [← h.buf, h.len, hrest, load_add, take_left' (length_load _ _ _)]
  have hload : t.outChunk = load t.outBuf sent.length t.outChunk.length := by
    rw [hchunk, ← h.off, outChunk]
  rw [htake _ hfits, load_add, ← htake _ hle, ← List.prefix_iff_eq_take.mp hstart,
    Nat.zero_add, ← hload]

lemma Holds.done (h : Holds data sent t)
    (hstart : sent <+: data) (hdone : t.outDone) : sent ++ t.outChunk = data := by
  obtain ⟨hnext, hfits⟩ := h.next hstart
  have hchunk : t.outChunk.length = min (t.outLen - t.outOff) usbfsMps := length_load _ _ _
  rw [outDone, decide_eq_true_iff] at hdone
  have hall : data.length ≤ sent.length + t.outChunk.length := by
    rw [← h.len, ← h.off]
    omega
  rw [hnext, take_of_length_le hall]

lemma Holds.advance (h : Holds data sent t) : Holds data (sent ++ t.outChunk) t.advance where
  len := h.len
  off := by
    rw [length_append, ← h.off]
    rfl
  buf := h.buf

section Steps

variable {ep : EpIdx} {data sent : List Byte} {told : List ℕ} {x y : Controller}

lemma Sending.congr (h : Sending ep data x sent told) (hmode : DeviceMode y)
    (hsame : SameOut (x.st.ep ep) (y.st.ep ep) ∨ (y.st.ep ep).outPending = false)
    {new : List ℕ} (hnew : ∀ n ∈ new, ep = 0 ∧ n = 0) : Sending ep data y sent (told ++ new) where
  mode := hmode
  start := h.start
  told := fun n hn => (List.mem_append.mp hn).elim (h.told n) (fun hmem => .inr (hnew n hmem))
  holds := by
    intro hpend
    rcases hsame with hsame | hdropped
    · exact (h.holds (hsame.pending ▸ hpend)).congr hsame
    · rw [hdropped] at hpend
      cases hpend

lemma Sending.dataOut (h : Sending ep data x sent told)
    (hpend : (x.st.ep ep).outPending) (hy : ServedOut x y ep) :
    Sending ep data y (sent ++ (x.st.ep ep).outChunk)
      (told ++ if (x.st.ep ep).outDone then [(x.st.ep ep).outLen] else []) := by
  have hholds := h.holds hpend
  obtain ⟨hnext, hfits⟩ := hholds.next h.start
  have hxfer : y.st.ep ep = _ := congrFun hy.xfers ep
  rw [update_self] at hxfer
  have hstart : sent ++ (x.st.ep ep).outChunk <+: data := by
    rw [hnext]
    exact take_prefix _ _
  refine ⟨hy.mode h.mode, hstart, ?_, ?_⟩
  · intro n hn
    rcases List.mem_append.mp hn with hold | hnew
    · refine (h.told n hold).imp_left fun ⟨hlen, hall⟩ => ⟨hlen, ?_⟩
      -- nothing is left to store
      apply hstart.eq_of_length_le
      rw [hall]
      simp
    left
    split at hnew
    next hdone =>
      rw [List.mem_singleton.mp hnew]
      exact ⟨hholds.len, hholds.done h.start hdone⟩
    · cases hnew
  intro hstill
  rw [hxfer] at hstill ⊢
  split at hstill
  · cases hstill
  rename_i hmore
  rw [if_neg hmore]
  exact hholds.advance

lemma outPackets_eq_nil (h : ∀ bd ∈ retirements x y, bd.tx = false → bd.ep = ep →
    x.st.setupFirst ep) : outPackets ep x y = [] := by
  rw [outPackets]
  split
  · rfl
  rename_i hlast
  rw [received, List.filter_filter, map_eq_nil_iff, filter_eq_nil_iff]
  intro bd hbd hmatch
  simp only [and_eq_true, decide_eq_true_eq, not_eq_true'] at hmatch
  exact hlast (h bd hbd hmatch.2 hmatch.1)

lemma Sending.quiet (h : Sending ep data x sent told) (hmode : DeviceMode y)
    (hsame : SameOut (x.st.ep ep) (y.st.ep ep) ∨ (y.st.ep ep).outPending = false)
    (hpackets : outPackets ep x y = []) (hans : ∀ n ∈ outAnswers ep x y, ep = 0 ∧ n = 0) :
    Sending ep data y (sent ++ (outPackets ep x y).flatten) (told ++ outAnswers ep x y) := by
  rw [hpackets, flatten_nil, append_nil]
  exact h.congr hmode hsame hans

lemma Silent.outAnswers (h : Silent x y) : outAnswers ep x y = [] := by
  apply List.filterMap_eq_nil_iff.mpr
  intro c hc
  rcases h.newCalls c hc with rfl | rfl <;> rfl

section

variable (h : Sending ep data x sent told)
include h

lemma Sending.silent (hmode : DeviceMode y)
    (hsame : SameOut (x.st.ep ep) (y.st.ep ep) ∨ (y.st.ep ep).outPending = false)
    (hsilent : Silent x y) :
    Sending ep data y (sent ++ (outPackets ep x y).flatten) (told ++ outAnswers ep x y) := by
  apply h.quiet hmode hsame
  · exact outPackets_eq_nil (by simp [hsilent.retirements])
  · simp [hsilent.outAnswers]

lemma Sending.serve (hy : Serves x y) :
    Sending ep data y (sent ++ (outPackets ep x y).flatten) (told ++ outAnswers ep x y) := by
  cases hy with
  | idle heq =>
    subst heq
    exact h.silent h.mode (.inl (.refl _)) (.ofEq rfl rfl)
  | status howed hserv =>
    apply h.quiet (hserv.mode h.mode) (.inl (by rw [hserv.xfers]; exact .refl _))
    · exact outPackets_eq_nil (by simp [hserv.retirements, due])
    rw [outAnswers, hserv.newCalls]
    intro n hn
    obtain ⟨c, hc, hanswer⟩ := List.mem_filterMap.mp hn
    rw [List.mem_singleton.mp hc] at hanswer
    simp only [answersOut, Option.ite_none_right_eq_some] at hanswer
    exact ⟨hanswer.1.symm, (Option.some.inj hanswer.2).symm⟩
  | setup hwaits _ hserv =>
    apply h.quiet (hserv.mode h.mode) (.inl (by rw [hserv.xfers]; exact .refl _))
    · apply outPackets_eq_nil
      rw [hserv.retirements]
      intro bd hbd _ hep
      rw [List.mem_singleton.mp hbd] at hep
      obtain rfl : (0 : EpIdx) = ep := hep
      simp [setupFirst, hwaits]
    · simp [outAnswers, hserv.newCalls]
  | dataIn ep' hpend _ hserv =>
    apply h.quiet (hserv.mode h.mode) (.inl (hserv.sameOut ep))
    · exact outPackets_eq_nil (by simp [hserv.retirements, due])
    rw [outAnswers, hserv.newCalls]
    split
    · simp [answersOut]
    · simp
  | dataOut ep' hpend hfirst hserv =>
    by_cases hep : ep' = ep
    · subst hep
      have hlast := hserv.not_setupFirst hfirst
      have hpackets : outPackets ep' x y = [(x.st.ep ep').outChunk] := by
        rw [outPackets, if_neg hlast, received, hserv.retirements]
        simp [due, packetFor, hlast]
      have hans : outAnswers ep' x y =
          if (x.st.ep ep').outDone then [(x.st.ep ep').outLen] else [] := by
        rw [outAnswers, hserv.newCalls]
        split
        · simp [answersOut]
        · rfl
      rw [hpackets, flatten_singleton, hans]
      exact h.dataOut hpend hserv
    apply h.quiet (hserv.mode h.mode)
    · left
      rw [hserv.xfers, update_of_ne (Ne.symm hep)]
      exact .refl _
    · apply outPackets_eq_nil
      rw [hserv.retirements]
      intro bd hbd _ hmatch
      rw [List.mem_singleton.mp hbd] at hmatch
      exact absurd hmatch hep
    rw [outAnswers, hserv.newCalls]
    split
    · simp [answersOut, hep]
    · simp

lemma Sending.step (hkeeps : e.KeepsDeviceMode) (hother : ¬ e.RequestsOut ep) :
    Sending ep data (usbfsStep x e) (sent ++ (outPackets ep (latched x e) (usbfsStep x e)).flatten)
      (told ++ outAnswers ep x (usbfsStep x e)) := by
  rcases step_cases h.mode hkeeps with ⟨-, hprep⟩ | ⟨hevent, hserves⟩
  · have hpackets : outPackets ep (latched x e) (usbfsStep x e) = [] := by
      apply outPackets_eq_nil
      simp [retirements_latched, hprep.silent.retirements]
    rw [hpackets, flatten_nil, append_nil]
    apply h.congr hprep.mode (hprep.outs ep hother)
    simp [hprep.silent.outAnswers]
  have hprep := latched_prepares h.mode hevent
  have hlatch : Sending ep data (latched x e) sent (told ++ []) :=
    h.congr hprep.mode (hprep.outs ep hother) (by simp)
  rw [append_nil] at hlatch
  have hserv := hlatch.serve hserves
  rwa [outAnswers, newCalls_latched] at hserv

lemma Sending.run (hevents : ∀ e ∈ events, e.KeepsDeviceMode ∧ ¬ e.RequestsOut ep) :
    Sending ep data (run usbfsStep x events) (sent ++ outStream ep x events)
      (told ++ outTold ep x events) := by
  induction events generalizing x sent told with
  | nil => simpa [outStream, outTold] using h
  | cons e rest ih =>
    obtain ⟨hkeeps, hother⟩ := hevents e mem_cons_self
    have hrest := ih (h.step hkeeps hother) fun f hf => hevents f (mem_cons_of_mem _ hf)
    rwa [List.append_assoc, List.append_assoc] at hrest

end

lemma sending_request (hmode : DeviceMode x) (hready : x.st.stalled ep = false)
    (hlen : data.length ≤ usbfsXfermax) : Sending ep data (usbfsStep x (.epOut ep data))
      (outPackets ep (latched x (.epOut ep data)) (usbfsStep x (.epOut ep data))).flatten
      (outAnswers ep x (usbfsStep x (.epOut ep data))) := by
  have hserves : serves x (.epOut ep data) := by simp [serves, hready]
  have hprep := latched_prepares hmode hserves
  have hlatch : Sending ep data (latched x (.epOut ep data)) [] [] := by
    refine ⟨hprep.mode, nil_prefix, by simp, fun _ => ?_⟩
    simp only [latched, latchOut, setXfer, update_self, take_of_length_le hlen]
    exact ⟨rfl, rfl, load_store_self _ _ _⟩
  exact hlatch.serve (serves_usbfsStep hserves)

end Steps

def lastSetup (pkt : List Byte) (events : List UsbfsEvent) : List Byte :=
  events.foldl UsbfsEvent.latestSetup pkt

lemma step_setupPkt (hmode : DeviceMode x) (hkeeps : e.KeepsDeviceMode) :
    DeviceMode (usbfsStep x e) ∧ (usbfsStep x e).st.setupPkt = e.latestSetup x.st.setupPkt := by
  rcases step_cases hmode hkeeps with ⟨-, hprep⟩ | ⟨hevent, hserves⟩
  · exact ⟨hprep.mode, hprep.setupPkt⟩
  have hprep := latched_prepares hmode hevent
  rcases hserves.keeps with ⟨hhost, hpend, hpkt⟩
  exact ⟨⟨hhost.trans hprep.mode.1, hpend.trans hprep.mode.2⟩, hpkt.trans hprep.setupPkt⟩

lemma run_setupPkt (hmode : DeviceMode x) (hkeeps : ∀ e ∈ events, e.KeepsDeviceMode) :
    DeviceMode (run usbfsStep x events) ∧
      (run usbfsStep x events).st.setupPkt = lastSetup x.st.setupPkt events := by
  induction events generalizing x with
  | nil => exact ⟨hmode, rfl⟩
  | cons e rest ih =>
    obtain ⟨hmode', hpkt⟩ := step_setupPkt hmode (hkeeps e mem_cons_self)
    have hrest := ih hmode' fun f hf => hkeeps f (mem_cons_of_mem _ hf)
    rwa [hpkt] at hrest

lemma length_latestSetup (hpkt : pkt.length = 8)
    (he : e.Sends) : (e.latestSetup pkt).length = 8 := by
  cases e with
  | setup pkt' => exact he
  | _ => exact hpkt

lemma length_lastSetup (hpkt : pkt.length = 8)
    (hsends : ∀ e ∈ events, e.Sends) : (lastSetup pkt events).length = 8 := by
  have hstep : ∀ (pkt : List Byte) (e : UsbfsEvent), e.Sends → pkt.length = 8 →
      (e.latestSetup pkt).length = 8 := fun _ _ he hpkt => length_latestSetup hpkt he
  exact run_invariant_of_events hstep hpkt hsends

lemma received_within (hmode : DeviceMode x)
    (hpkt : x.st.setupPkt.length = 8) (hkeeps : e.KeepsDeviceMode)
    (hsends : e.Sends) (hroomy : Roomy (latched x e)) : ∀ bd ∈ received x (usbfsStep x e),
      StoredWithin x (usbfsStep x e) bd ((latched x e).st.packetFor bd.ep) := by
  intro bd hbd
  rcases step_cases hmode hkeeps with ⟨-, hprep⟩ | ⟨hevent, hserves⟩
  · rw [received, hprep.silent.retirements] at hbd
    cases hbd
  have htable := latched_sameTable x e
  have hpkt' : (latched x e).st.setupPkt.length = 8 := by
    rw [(latched_prepares hmode hevent).setupPkt]
    exact length_latestSetup hpkt hsends
  rw [received, ← retirements_latched x _ e] at hbd
  have hwithin := hserves.storedWithin hpkt' hroomy bd hbd
  exact ⟨htable.bdCount bd ▸ hwithin.fits, htable.bdAddr bd ▸ hwithin.count,
    by rw [← htable.bdAddr, ← htable.bdBuf, ← htable.mem]; exact hwithin.mem⟩

/-- In device mode every packet of the host is stored within the descriptor it is given,
where that has room for it; and the packets of an `OUT` request of at most 1024 bytes are its
data in order, all of it before the host is told that it was transferred.  A reported
length of 0 on endpoint 0 is the status stage of a control transfer. -/
theorem receive_exact (mem : Mem) {history : List UsbfsEvent}
    (hhistory : ∀ e ∈ history, e.KeepsDeviceMode ∧ e.Sends)
    {x : Controller} (hx : x = run usbfsStep (.powerOn mem) history) :
    x.st.setupPkt = lastSetup (List.replicate 8 0) history ∧
    (∀ e : UsbfsEvent, e.KeepsDeviceMode → e.Sends → Roomy (latched x e) →
      ∀ bd ∈ received x (usbfsStep x e),
        StoredWithin x (usbfsStep x e) bd ((latched x e).st.packetFor bd.ep)) ∧
    ∀ (ep : EpIdx) (data : List Byte) (later : List UsbfsEvent),
      x.st.stalled ep = false → data.length ≤ usbfsXfermax →
      (∀ e ∈ later, e.KeepsDeviceMode ∧ ¬ e.RequestsOut ep) →
      outStream ep x (.epOut ep data :: later) <+: data ∧
      ∀ n ∈ outTold ep x (.epOut ep data :: later),
        n = data.length ∧ outStream ep x (.epOut ep data :: later) = data ∨ ep = 0 ∧ n = 0 := by
  obtain ⟨hmode, hpkt⟩ := run_setupPkt (orderly_powerOn mem).mode (fun e he => (hhistory e he).1)
  rw [← hx] at hmode hpkt
  refine ⟨hpkt, ?_, ?_⟩
  · intro e hkeeps hsends hroomy
    refine received_within hmode ?_ hkeeps hsends hroomy
    rw [hpkt]
    exact length_lastSetup (length_replicate ..) fun e he => (hhistory e he).2
  intro ep data later hready hlen hlater
  have hsending := (sending_request hmode hready hlen).run hlater
  exact ⟨hsending.start, hsending.told⟩

def receiveMem (count : Word) : Mem :=
  store32 (store32 (fun _ => 0) 0x1000 ((count <<< 16) ||| 0x80)) 0x1004 0x2000

def getDescriptor : List Byte := [0x80, 0x06, 0x00, 0x01, 0x00, 0x00, 0x12, 0x01]

theorem receive_exact_setup : StoredWithin (enabledAt (receiveMem 8))
      (usbfsStep (enabledAt (receiveMem 8)) (.setup getDescriptor)) ⟨0, false, false⟩
      getDescriptor := by
  have hhistory : ∀ e ∈ enabling, e.KeepsDeviceMode ∧ e.Sends := by
    simp [enabling, UsbfsEvent.KeepsDeviceMode, UsbfsEvent.Sends]
    decide
  have hroomy : Roomy (latched (enabledAt (receiveMem 8)) (.setup getDescriptor)) := by
    unfold Roomy
    decide +kernel
  exact (receive_exact (receiveMem 8) hhistory rfl).2.1 (.setup getDescriptor) trivial rfl hroomy
    ⟨0, false, false⟩ (by decide +kernel)

theorem setup_overruns_buffer : UsbfsEvent.Sends (.setup getDescriptor) ∧
    ∃ bd ∈ received (enabledAt (receiveMem 4))
        (usbfsStep (enabledAt (receiveMem 4)) (.setup getDescriptor)),
      (∀ bytes, ¬ StoredWithin (enabledAt (receiveMem 4))
        (usbfsStep (enabledAt (receiveMem 4)) (.setup getDescriptor)) bd bytes) ∧
      (usbfsStep (enabledAt (receiveMem 4)) (.setup getDescriptor)).mem 0x2007 ≠
        (enabledAt (receiveMem 4)).mem 0x2007 := by
  refine ⟨rfl, ⟨0, false, false⟩, by decide +kernel, ?_, by decide +kernel⟩
  intro bytes hwithin
  have hcount := hwithin.count
  have hfits := hwithin.fits
  have height : countField (bdLd (usbfsStep (enabledAt (receiveMem 4)) (.setup getDescriptor)).mem
      (bdAddr (enabledAt (receiveMem 4)).st ⟨0, false, false⟩)) = 8 := by
    decide +kernel
  rw [← hcount, height] at hfits
  exact absurd hfits (by decide +kernel)

end Mcxn947.Usbfs
