import Mcxn947.UsbdevModel
import Mcxn947.UsbfsService

/-!
# `IN` transfers in device mode

A request of the remote host is answered from the transmit descriptors of its endpoint, as
many as it takes: a packet shorter than the packet size ends the transfer, and so do enough
bytes.
-/

namespace Mcxn947.Usbdev

open MachineWords

def Packet.payload : Packet → List Byte
  | .control _ _ _ data | .bulk _ _ _ _ data => data
  | _ => []

structure AwaitsIn (dev : UsbDevState) (ep : Fin 16) (len : ℕ) : Prop where
  parser : dev.parser = true
  active : (dev.pending (inSlot ep)).active = true
  length : (dev.pending (inSlot ep)).length = len

lemma AwaitsIn.answer {dev : UsbDevState} {ep : Fin 16} {len : ℕ} (h : AwaitsIn dev ep len)
    (data : List Byte) : ∃ id packet, (mcxnUsbdevCompleteIn dev ep data).2 = [.reply id packet] ∧
      packet.payload = data.take len := by
  refine ⟨(dev.pending (inSlot ep)).id, inPacket (dev.pending (inSlot ep)) ep data, ?_, ?_⟩
  · simp [mcxnUsbdevCompleteIn, h.parser, h.active]
  rw [← h.length, inPacket]
  split <;> rfl

end Mcxn947.Usbdev

namespace Mcxn947.Usbfs

open MachineWords GuestMemory EventRuns Function List UsbdevCall UsbfsState

def drained (ep : EpIdx) (x y : Controller) : List (List Byte) :=
  (retirements x y).filterMap fun bd =>
    if bd.ep = ep ∧ bd.tx = true then some (offered x bd) else none

def UsbdevCall.answersIn (ep : EpIdx) : UsbdevCall → Option (List Byte)
  | .completeIn ep' data => if ep' = ep then some data else none
  | _ => none

lemma answersIn_self (ep : EpIdx) (data : List Byte) :
    (completeIn ep data).answersIn ep = some data :=
  if_pos rfl

def inAnswers (ep : EpIdx) (x y : Controller) : List (List Byte) :=
  (newCalls x y).filterMap (answersIn ep)

def firstAnswer (ep : EpIdx) :
    Controller → List (List Byte) → List UsbfsEvent → Option (List (List Byte) × List Byte)
  | _, _, [] => none
  | x, bufs, e :: rest =>
    match inAnswers ep x (usbfsStep x e) with
    | [] => firstAnswer ep (usbfsStep x e) (bufs ++ drained ep x (usbfsStep x e)) rest
    | data :: _ => some (bufs ++ drained ep x (usbfsStep x e), data)

/-- The reply comes with a short packet or in full, and holds the drained bytes in order. -/
structure ByteExact (ep : EpIdx) (len : ℕ) (bufs : List (List Byte)) (data : List Byte) : Prop where
  due : (∃ buf ∈ bufs, buf.length < usbfsMps) ∨ len ≤ bufs.flatten.length
  payload : ∀ dev, Usbdev.AwaitsIn dev ep len →
    ∃ id packet, (Usbdev.mcxnUsbdevCompleteIn dev ep data).2 = [.reply id packet] ∧
      packet.payload = bufs.flatten.take len

def StatusEmpty (x : Controller) : Prop :=
  x.st.ep0StatusIn = true → armed x (x.st.due 0 true) = true → bdCount x (x.st.due 0 true) = 0

variable {x y : Controller}

lemma Silent.nothing_new (h : Silent x y) (ep : EpIdx) :
    drained ep x y = [] ∧ inAnswers ep x y = [] := by
  constructor
  · rw [drained, h.retirements, filterMap_nil]
  apply filterMap_eq_nil_iff.mpr
  intro c hc
  rcases h.newCalls c hc with rfl | rfl <;> rfl

section Served

variable {x y : Controller} {bd : Bd} {m : Mem} {w : Word} {xfers : EpIdx → UsbfsXfer}
  {setupPending ep0StatusIn : Bool} {calls : List UsbdevCall}

section

variable (h : Served x y bd m w xfers setupPending ep0StatusIn calls) (ep : EpIdx)
include h

lemma Served.drained :
    drained ep x y = if bd.ep = ep ∧ bd.tx = true then [offered x bd] else [] := by
  rw [Usbfs.drained, h.retirements]
  by_cases hmatch : bd.ep = ep ∧ bd.tx = true
  · simp only [filterMap_cons, filterMap_nil, if_pos hmatch]
  · simp only [filterMap_cons, filterMap_nil, if_neg hmatch]

lemma Served.inAnswers : inAnswers ep x y = calls.filterMap (UsbdevCall.answersIn ep) := by
  rw [Usbfs.inAnswers, h.newCalls]

end

end Served

structure Gathered (len : ℕ) (t : UsbfsXfer) (bufs : List (List Byte)) : Prop where
  asked : t.inLen = len
  held : load t.inBuf 0 t.inAcc = bufs.flatten
  whole : ∀ buf ∈ bufs, buf = [] ∨ buf.length = usbfsMps
  short : bufs.flatten = [] ∨ bufs.flatten.length < len

structure Collecting (ep : EpIdx) (len : ℕ) (x : Controller) (bufs : List (List Byte)) : Prop where
  mode : DeviceMode x
  gathered : (x.st.ep ep).inPending = true → Gathered len (x.st.ep ep) bufs

variable {t : UsbfsXfer} {new : List (List Byte)} {len : ℕ} {bufs : List (List Byte)}

lemma Gathered.acc (h : Gathered len t bufs) : t.inAcc = bufs.flatten.length := by
  rw [← h.held, length_load]

lemma Gathered.room (h : Gathered len t bufs) (hlen : len ≤ usbfsXfermax) :
    usbfsMps ≤ usbfsXfermax - t.inAcc := by
  have hdvd : usbfsMps ∣ bufs.flatten.length := by
    rw [length_flatten]
    apply dvd_sum
    intro n hn
    obtain ⟨buf, hbuf, rfl⟩ := mem_map.mp hn
    rcases h.whole buf hbuf with rfl | hwhole
    · exact dvd_zero _
    · rw [hwhole]
  obtain ⟨packets, hpackets⟩ := hdvd
  have hless : bufs.flatten.length < usbfsXfermax := by
    rcases h.short with hnil | hshort
    · rw [hnil]
      decide
    · exact hshort.trans_le hlen
  rw [h.acc]
  simp only [usbfsMps, usbfsXfermax] at *
  omega

lemma Gathered.congr {u : UsbfsXfer}
    (h : Gathered len t bufs) (hsame : SameIn t u) (hnew : ∀ buf ∈ new, buf = []) :
    Gathered len u (bufs ++ new) := by
  have hflat : (bufs ++ new).flatten = bufs.flatten := by
    rw [flatten_append, flatten_eq_nil_iff.mpr hnew, append_nil]
  refine ⟨hsame.len.trans h.asked, ?_, ?_, ?_⟩
  · rw [hsame.buf, hsame.acc, hflat, h.held]
  · intro buf hbuf
    exact (mem_append.mp hbuf).elim (h.whole buf) (fun hmem => .inl (hnew buf hmem))
  · rw [hflat]
    exact h.short

lemma Gathered.collected (h : Gathered len t bufs) (bytes : List Byte) :
    load (t.collect bytes).inBuf 0 (t.collect bytes).inAcc = (bufs ++ [bytes]).flatten := by
  have hload := load_store_append t.inBuf 0 t.inAcc bytes
  rw [Nat.zero_add] at hload
  simp only [UsbfsXfer.collect]
  rw [hload, h.held, flatten_append, flatten_singleton]

lemma Collecting.congr {ep : EpIdx} (h : Collecting ep len x bufs) (hmode : DeviceMode y)
    (hsame : SameIn (x.st.ep ep) (y.st.ep ep) ∨ (y.st.ep ep).inPending = false)
    (hnew : (y.st.ep ep).inPending → ∀ buf ∈ new, buf = []) :
    Collecting ep len y (bufs ++ new) where
  mode := hmode
  gathered := by
    intro hpend
    rcases hsame with hsame | hdropped
    · exact (h.gathered (hsame.pending ▸ hpend)).congr hsame (hnew hpend)
    · rw [hdropped] at hpend
      cases hpend

def Progress (ep : EpIdx) (len : ℕ) (bufs : List (List Byte)) (x y : Controller) : Prop :=
  inAnswers ep x y = [] ∧ Collecting ep len y (bufs ++ drained ep x y) ∨
    ∃ data, inAnswers ep x y = [data] ∧ ByteExact ep len (bufs ++ drained ep x y) data

section Steps

variable {ep : EpIdx} {len : ℕ} {bufs : List (List Byte)} {x y : Controller}

lemma taken_eq_offered {t : List (List Byte)} (h : Gathered len (x.st.ep ep) t)
    (hlen : len ≤ usbfsXfermax) : taken x ep = offered x (x.st.due ep true) := by
  have hroom := h.room hlen
  rw [taken, offered, min_eq_left ((min_le_right _ _).trans hroom)]

lemma length_offered_le (x : Controller) (bd : Bd) : (offered x bd).length ≤ usbfsMps := by
  rw [offered, length_load]
  exact min_le_right _ _

section

variable (h : Collecting ep len x bufs) (hlen : len ≤ usbfsXfermax)
include h hlen

lemma Collecting.dataIn (hpend : (x.st.ep ep).inPending) (hy : ServedIn x y ep) :
    Progress ep len bufs x y := by
  have hgathered := h.gathered hpend
  have htaken := taken_eq_offered hgathered hlen
  have hmode := hy.mode h.mode
  have hdrained : drained ep x y = [offered x (x.st.due ep true)] := by
    rw [hy.drained, if_pos ⟨rfl, rfl⟩]
  have hans := hy.inAnswers ep
  have hxfer : y.st.ep ep = _ := congrFun hy.xfers ep
  rw [update_self] at hxfer
  simp only [htaken] at hans hxfer
  rw [Progress, hdrained]
  generalize hbytes : offered x (x.st.due ep true) = bytes at *
  have hcoll := hgathered.collected bytes
  have hpacket : bytes.length ≤ usbfsMps := hbytes ▸ length_offered_le x _
  have htotal : (x.st.ep ep).inAcc + bytes.length = (bufs ++ [bytes]).flatten.length := by
    rw [hgathered.acc]
    simp
  have hdone : (x.st.ep ep).inDone bytes ↔
      bytes.length < usbfsMps ∨ len ≤ (bufs ++ [bytes]).flatten.length ∨
        usbfsXfermax ≤ (bufs ++ [bytes]).flatten.length := by
    rw [UsbfsXfer.inDone, decide_eq_true_iff, htotal, hgathered.asked]
  by_cases hend : (x.st.ep ep).inDone bytes = true
  · right
    rw [if_pos hend] at hans
    rw [filterMap_cons_some (answersIn_self _ _)] at hans
    refine ⟨_, hans, ?_, ?_⟩
    · rcases hdone.mp hend with hshort | henough | hfull
      · exact .inl ⟨bytes, by simp, hshort⟩
      · exact .inr henough
      · exact .inr (hlen.trans hfull)
    intro dev hawaits
    rw [← hcoll]
    exact hawaits.answer _
  left
  rw [if_neg hend] at hans hxfer
  refine ⟨hans, hmode, fun _ => ?_⟩
  have hmore := fun hor => hend (hdone.mpr hor)
  rw [hxfer]
  refine ⟨hgathered.asked, hcoll, ?_, ?_⟩
  · intro buf hbuf
    rcases mem_append.mp hbuf with hold | hlast
    · exact hgathered.whole buf hold
    · rw [mem_singleton.mp hlast]
      exact .inr (le_antisymm hpacket (not_lt.mp fun hlt => hmore (.inl hlt)))
  · exact .inr (not_le.mp fun hle => hmore (.inr (.inl hle)))

lemma Collecting.serve
    (hstatus : ep = 0 → (x.st.ep 0).inPending → StatusEmpty x) (hy : Serves x y) :
    Progress ep len bufs x y := by
  cases hy with
  | idle heq =>
    subst heq
    obtain ⟨hdrained, hans⟩ := (Silent.ofEq rfl rfl : Silent y y).nothing_new ep
    rw [Progress, hdrained, append_nil]
    exact .inl ⟨hans, h⟩
  | status howed hserv =>
    left
    refine ⟨hserv.inAnswers ep, ?_⟩
    apply h.congr (hserv.mode h.mode) (.inl (by rw [hserv.xfers]; exact .refl _))
    rw [hserv.drained, hserv.xfers]
    intro hpend buf hbuf
    split at hbuf
    next hmatch =>
      obtain rfl : ep = 0 := hmatch.1.symm
      rw [mem_singleton.mp hbuf, offered, hstatus rfl hpend howed hserv.armed]
      rfl
    · cases hbuf
  | setup hwaits _ hserv =>
    left
    refine ⟨hserv.inAnswers ep, ?_⟩
    apply h.congr (hserv.mode h.mode) (.inl (by rw [hserv.xfers]; exact .refl _))
    rw [hserv.drained, if_neg fun hmatch => absurd hmatch.2 Bool.false_ne_true]
    simp
  | dataIn ep' hpend _ hserv =>
    by_cases hep : ep' = ep
    · subst hep
      exact h.dataIn hlen hpend hserv
    left
    have hother := hserv.inAnswers ep
    constructor
    · rw [hother]
      split
      · simp [answersIn, hep]
      · rfl
    apply h.congr (hserv.mode h.mode)
    · left
      rw [hserv.xfers, update_of_ne (Ne.symm hep)]
      exact .refl _
    · rw [hserv.drained, if_neg fun hmatch => hep hmatch.1]
      simp
  | dataOut ep' hpend _ hserv =>
    left
    constructor
    · rw [hserv.inAnswers]
      split <;> rfl
    apply h.congr (hserv.mode h.mode) (.inl (hserv.sameIn ep))
    rw [hserv.drained, if_neg fun hmatch => absurd hmatch.2 Bool.false_ne_true]
    simp

end

section

variable (x y : Controller) (e : UsbfsEvent) (ep : EpIdx)

lemma drained_latched : drained ep (latched x e) y = drained ep x y := by
  have htable := latched_sameTable x e
  simp only [drained, retirements_latched, htable.offered]

lemma inAnswers_latched : inAnswers ep (latched x e) y = inAnswers ep x y := by
  rw [inAnswers, inAnswers, newCalls_latched]

end

variable {e : UsbfsEvent}

lemma Collecting.served (h : Collecting ep len (latched x e) bufs) (hlen : len ≤ usbfsXfermax)
    (hstatus : ep = 0 → ((latched x e).st.ep 0).inPending → StatusEmpty (latched x e))
    (hy : Serves (latched x e) y) : Progress ep len bufs x y := by
  have hprogress := h.serve hlen hstatus hy
  simpa only [Progress, drained_latched, inAnswers_latched] using hprogress

lemma statusEmpty_latched (h : StatusEmpty x)
    (hpend : ((latched x e).st.ep 0).inPending) : StatusEmpty (latched x e) := by
  have htable := latched_sameTable x e
  intro howed
  -- a `SETUP` may owe another status stage, but it drops the transfer
  cases e with
  | setup pkt => simp [latched, latchSetup] at hpend
  | _ => exact h howed

lemma Collecting.step (h : Collecting ep len x bufs)
    (hlen : len ≤ usbfsXfermax) (hkeeps : e.KeepsDeviceMode) (hother : ¬ e.RequestsIn ep)
    (hstatus : ep = 0 → StatusEmpty x) : Progress ep len bufs x (usbfsStep x e) := by
  rcases step_cases h.mode hkeeps with ⟨-, hprep⟩ | ⟨hevent, hserves⟩
  · obtain ⟨hdrained, hans⟩ := hprep.silent.nothing_new ep
    rw [Progress, hdrained]
    exact .inl ⟨hans, h.congr hprep.mode (hprep.ins ep hother) (by simp)⟩
  have hprep := latched_prepares h.mode hevent
  have hlatch : Collecting ep len (latched x e) (bufs ++ []) :=
    h.congr hprep.mode (hprep.ins ep hother) (by simp)
  rw [append_nil] at hlatch
  exact hlatch.served hlen (fun hep hpend => statusEmpty_latched (hstatus hep) hpend) hserves

lemma Collecting.start (hmode : DeviceMode x) (hlen : len ≤ usbfsXfermax)
    (hready : x.st.stalled ep = false) (hstatus : ep = 0 → StatusEmpty x) :
    Progress ep len [] x (usbfsStep x (.epIn ep len)) := by
  have hserves : serves x (.epIn ep len) := by simp [serves, hready]
  have hprep := latched_prepares hmode hserves
  have hlatch : Collecting ep len (latched x (.epIn ep len)) [] := by
    refine ⟨hprep.mode, fun _ => ?_⟩
    simp only [latched, latchIn, setXfer, update_self]
    exact ⟨rfl, rfl, by simp, .inl rfl⟩
  exact hlatch.served hlen (fun hep hpend => statusEmpty_latched (hstatus hep) hpend)
    (serves_usbfsStep hserves)

variable {answer : List (List Byte) × List Byte}

lemma Progress.firstAnswer {rest : List UsbfsEvent} (h : Progress ep len bufs x (usbfsStep x e))
    (hrest : ∀ bufs', Collecting ep len (usbfsStep x e) bufs' →
      firstAnswer ep (usbfsStep x e) bufs' rest = some answer → ByteExact ep len answer.1 answer.2)
    (hanswer : firstAnswer ep x bufs (e :: rest) = some answer) :
    ByteExact ep len answer.1 answer.2 := by
  rw [Usbfs.firstAnswer] at hanswer
  rcases h with ⟨hnone, hcollecting⟩ | ⟨data, hdata, hexact⟩
  · rw [hnone] at hanswer
    exact hrest _ hcollecting hanswer
  rw [hdata] at hanswer
  rw [← Option.some.inj hanswer]
  exact hexact

lemma Collecting.run (h : Collecting ep len x bufs) (hlen : len ≤ usbfsXfermax)
    {later : List UsbfsEvent} (hkeeps : ∀ e ∈ later, e.KeepsDeviceMode)
    (halone : ∀ e ∈ later, ¬ e.RequestsIn ep)
    (hstatus : ep = 0 → Admits usbfsStep (fun s _ => StatusEmpty s) x later)
    (hanswer : firstAnswer ep x bufs later = some answer) : ByteExact ep len answer.1 answer.2 := by
  induction later generalizing x bufs with
  | nil => cases hanswer
  | cons e rest ih =>
    have hstep := h.step hlen (hkeeps e mem_cons_self) (halone e mem_cons_self)
      (fun hep => (hstatus hep).1)
    refine hstep.firstAnswer (fun bufs' hcollecting => ?_) hanswer
    exact ih hcollecting (fun f hf => hkeeps f (mem_cons_of_mem _ hf))
      (fun f hf => halone f (mem_cons_of_mem _ hf)) (fun hep => (hstatus hep).2)

end Steps

/-- A request of at most 1024 bytes is answered byte by byte from the descriptors retired
since it arrived, provided that on endpoint 0 no descriptor with data is taken for the
status stage of an earlier request. -/
theorem in_request_byte_exact {x : Controller} (hmode : DeviceMode x) {ep : EpIdx} {len : ℕ}
    (hready : x.st.stalled ep = false) {later : List UsbfsEvent}
    (hkeeps : ∀ e ∈ later, e.KeepsDeviceMode) (halone : ∀ e ∈ later, ¬ e.RequestsIn ep)
    (hlen : len ≤ usbfsXfermax)
    (hstatus : ep = 0 → Admits usbfsStep (fun s _ => StatusEmpty s) x (.epIn ep len :: later))
    {bufs : List (List Byte)} {data : List Byte}
    (hanswer : firstAnswer ep x [] (.epIn ep len :: later) = some (bufs, data)) :
    ByteExact ep len bufs data := by
  have hstart := Collecting.start hmode hlen hready (fun hep => (hstatus hep).1)
  exact hstart.firstAnswer (fun bufs' hcollecting => hcollecting.run hlen hkeeps halone
    (fun hep => (hstatus hep).2)) hanswer

def wholePackets : Mem := store32 (store32 (fun _ => 0) 0x1030 0x400080) 0x1038 0x400080

theorem in_request_byte_exact_packet :
    firstAnswer 1 (enabledAt wholePackets) [] [.epIn 1 64] =
        some ([replicate 64 0], replicate 64 0) ∧
      ByteExact 1 64 [replicate 64 0] (replicate 64 0) := by
  have hanswer : firstAnswer 1 (enabledAt wholePackets) [] [.epIn 1 64] =
      some ([replicate 64 0], replicate 64 0) := by
    decide +kernel
  exact ⟨hanswer, in_request_byte_exact ⟨by decide, by decide⟩ (by decide) (by simp) (by simp)
    (by decide) (fun hep => absurd hep (by decide)) hanswer⟩

def rearm (addr : ℕ) : List UsbfsEvent := [.store addr (wordBytes 0x400080), .write 0x80 0x08 .nak]

def fifteenMore : List UsbfsEvent :=
  ((range 15).map fun k => rearm (if k % 2 = 0 then 0x1030 else 0x1038)).flatten

lemma mem_fifteenMore {e : UsbfsEvent} (h : e ∈ fifteenMore) :
    (∃ addr bytes, e = .store addr bytes) ∨ e = .write 0x80 0x08 .nak := by
  obtain ⟨events, hevents, he⟩ := mem_flatten.mp h
  obtain ⟨k, -, rfl⟩ := mem_map.mp hevents
  rcases mem_cons.mp he with hstore | hack
  · exact .inl ⟨_, _, hstore⟩
  · exact .inr (mem_singleton.mp hack)

theorem long_in_request_cut :
    (DeviceMode (enabledAt wholePackets) ∧ (enabledAt wholePackets).st.stalled 1 = false ∧
      (∀ e ∈ fifteenMore, e.KeepsDeviceMode) ∧ ∀ e ∈ fifteenMore, ¬ e.RequestsIn 1) ∧
    ∃ bufs data, firstAnswer 1 (enabledAt wholePackets) [] (.epIn 1 1025 :: fifteenMore) =
        some (bufs, data) ∧
      ¬ ByteExact 1 1025 bufs data := by
  refine ⟨⟨⟨by decide, by decide⟩, by decide, ?_, ?_⟩, ?_⟩
  · intro e he
    rcases mem_fifteenMore he with ⟨addr, bytes, rfl⟩ | rfl
    · trivial
    · exact fun hctl => absurd hctl (by decide)
  · intro e he
    rcases mem_fifteenMore he with ⟨addr, bytes, rfl⟩ | rfl <;> exact id
  have hlengths : (firstAnswer 1 (enabledAt wholePackets) []
      (.epIn 1 1025 :: fifteenMore)).map (fun answer => answer.1.map length) =
      some (replicate 16 64) := by
    decide +kernel
  obtain ⟨⟨bufs, data⟩, hanswer, hbufs⟩ := Option.map_eq_some_iff.mp hlengths
  refine ⟨bufs, data, hanswer, fun hexact => ?_⟩
  rcases hexact.due with ⟨buf, hbuf, hshort⟩ | henough
  · have hmem := mem_map_of_mem (f := length) hbuf
    rw [hbufs] at hmem
    rw [eq_of_mem_replicate hmem] at hshort
    exact absurd hshort (by decide)
  · rw [length_flatten, hbufs] at henough
    exact absurd henough (by decide)

end Mcxn947.Usbfs
