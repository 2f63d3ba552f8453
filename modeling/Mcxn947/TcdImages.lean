import Mcxn947.EdmaCompletion
import Mcxn947.BusAccesses

/-!
# Descriptor images through the register window

A 32-byte descriptor image reaches a channel in two ways: the engine loads it from memory,
or the guest stores it into the channel's TCD window.
-/

namespace Mcxn947.Edma

open MachineWords BusAccesses BitVec Chan ChanReg EdmaState

def ChanReg.bytes : ChanReg → ℕ
  | .tcdSoff | .tcdAttr | .tcdDoff | .tcdCiter | .tcdCsr | .tcdBiter => 2
  | _ => 4

def ChanReg.isTcd : ChanReg → Bool
  | .chCsr | .chEs | .chInt | .chSbr | .chPri | .chMux => false
  | _ => true

def tcdReg? (off : ℕ) : Option ChanReg := ofOffset (0x20 + off)

variable (c : Chan) (v : Word) (image : Vector Byte 32) {r : ChanReg}

def tcdField (r : ChanReg) : Word := (Chan.zero.withTcd image).read r

def imageWord (off : ℕ) : Word := ofBytes fun i => image.getD (off + i) 0

variable {off : ℕ} {c' : Chan} {p : TcdAccess}

lemma tcdReg_isTcd (hoff : off < 32) (h : tcdReg? off = some r) : r.isTcd := by
  interval_cases off <;> cases h <;> rfl

lemma lduwLeP_setWidth (off : ℕ) :
    (lduwLeP image off).setWidth 32 = cut 2 (imageWord image off) := by
  apply eq_of_getLsbD_eq
  intro i hi
  rw [imageWord, cut_ofBytes, ofBytes_getLsbD _ hi, getLsbD_setWidth, lduwLeP, getLsbD_append]
  by_cases hlow : i < 8
  · have hdiv : i / 8 = 0 := by omega
    have hmod : i % 8 = i := by omega
    simp [hi, hlow, hdiv, hmod]
  by_cases hmid : i < 16
  · have hdiv : i / 8 = 1 := by omega
    have hmod : i % 8 = i - 8 := by omega
    simp [hi, hlow, hdiv, hmod]
  have hdiv : ¬ i / 8 < 2 := by omega
  have hhigh : (image.getD (off + 1) 0).getLsbD (i - 8) = false := getLsbD_of_ge _ _ (by omega)
  simpa [hlow, hdiv] using fun _ => hhigh

def ChanReg.tcdOff : ChanReg → ℕ
  | .tcdSoff => 0x04
  | .tcdAttr => 0x06
  | .tcdNbytes => 0x08
  | .tcdSlast => 0x0C
  | .tcdDaddr => 0x10
  | .tcdDoff => 0x14
  | .tcdCiter => 0x16
  | .tcdDlast => 0x18
  | .tcdCsr => 0x1C
  | .tcdBiter => 0x1E
  | _ => 0x00

lemma tcdReg_off (hoff : off < 32) (h : tcdReg? off = some r) : off = r.tcdOff := by
  interval_cases off <;> cases h <;> rfl

lemma tcdField_eq (h : r.isTcd) : tcdField image r = cut r.bytes (imageWord image r.tcdOff) := by
  have hword : ∀ o, ldlLeP image o = cut 4 (imageWord image o) := by
    intro o
    rfl
  cases r with
  | chCsr | chEs | chInt | chSbr | chPri | chMux => exact absurd h Bool.false_ne_true
  | tcdSaddr => exact hword 0x00
  | tcdSoff => exact lduwLeP_setWidth image 0x04
  | tcdAttr => exact lduwLeP_setWidth image 0x06
  | tcdNbytes => exact hword 0x08
  | tcdSlast => exact hword 0x0C
  | tcdDaddr => exact hword 0x10
  | tcdDoff => exact lduwLeP_setWidth image 0x14
  | tcdCiter => exact lduwLeP_setWidth image 0x16
  | tcdDlast => exact hword 0x18
  | tcdCsr => exact lduwLeP_setWidth image 0x1C
  | tcdBiter => exact lduwLeP_setWidth image 0x1E

lemma Chan.read_write_self (h : r.isTcd) : (c.write v r).read r = cut r.bytes v := by
  have hword : v = cut 4 v := by simp [cut]
  cases r <;> first | exact absurd h Bool.false_ne_true | exact hword | rfl

lemma Chan.read_write_of_ne {r' : ChanReg} (hr : r.isTcd) (hr' : r'.isTcd) (hne : r ≠ r') :
    (c.write v r').read r = c.read r := by
  cases r' <;> first | exact absurd hr' Bool.false_ne_true | skip
  all_goals cases r <;> first | exact absurd hr Bool.false_ne_true | exact absurd rfl hne | rfl

lemma Chan.read_withTcd (h : r.isTcd) : (c.withTcd image).read r = tcdField image r := by
  cases r <;> first | exact absurd h Bool.false_ne_true | rfl

structure Chan.SameOutside (c c' : Chan) : Prop where
  csr : c'.csr = c.csr
  es : c'.es = c.es
  intr : c'.intr = c.intr
  sbr : c'.sbr = c.sbr
  pri : c'.pri = c.pri
  mux : c'.mux = c.mux

lemma Chan.SameOutside.write {c : Chan} (h : c.SameOutside c') (v : Word) (hr : r.isTcd) :
    c.SameOutside (c'.write v r) := by
  obtain ⟨hcsr, hes, hintr, hsbr, hpri, hmux⟩ := h
  cases r <;>
    first | exact absurd hr Bool.false_ne_true | exact ⟨hcsr, hes, hintr, hsbr, hpri, hmux⟩

lemma Chan.eq_withTcd_iff {c : Chan} (h : c.SameOutside c') (image : Vector Byte 32) :
    c' = c.withTcd image ↔ ∀ r : ChanReg, r.isTcd → c'.read r = tcdField image r := by
  constructor
  · rintro rfl r hr
    exact c.read_withTcd image hr
  intro hread
  have hhalf : ∀ {u v : HalfWord}, u.setWidth 32 = v.setWidth 32 → u = v := by
    intro u v huv
    have hcut := congrArg (BitVec.setWidth 16) huv
    simpa using hcut
  obtain ⟨hcsr, hes, hintr, hsbr, hpri, hmux⟩ := h
  have hsaddr := hread .tcdSaddr rfl
  have hsoff := hhalf (hread .tcdSoff rfl)
  have hattr := hhalf (hread .tcdAttr rfl)
  have hnbytes := hread .tcdNbytes rfl
  have hslast := hread .tcdSlast rfl
  have hdaddr := hread .tcdDaddr rfl
  have hdoff := hhalf (hread .tcdDoff rfl)
  have hciter := hhalf (hread .tcdCiter rfl)
  have hdlast := hread .tcdDlast rfl
  have htcdCsr := hhalf (hread .tcdCsr rfl)
  have hbiter := hhalf (hread .tcdBiter rfl)
  obtain ⟨⟩ := c'
  subst hcsr hes hintr hsbr hpri hmux hsaddr hsoff hattr hnbytes hslast hdaddr
    hdoff hciter hdlast htcdCsr hbiter
  rfl

structure TcdAccess where
  off : ℕ
  width : Width
  aligned : off % width.bytes = 0
  inside : off + width.bytes ≤ 32

def TcdAccess.reg? (p : TcdAccess) : Option ChanReg := tcdReg? p.off

def TcdAccess.value (p : TcdAccess) (image : Vector Byte 32) : Word :=
  cut p.width.bytes (imageWord image p.off)

def TcdAccess.offset (p : TcdAccess) (n : ChanIdx) : ℕ := 0x1000 * (n.val + 1) + (0x20 + p.off)

lemma TcdAccess.off_lt (p : TcdAccess) : p.off < 32 := by
  have hpos : 0 < p.width.bytes := by cases p.width <;> decide
  have hinside := p.inside
  omega

lemma TcdAccess.ofOffset (p : TcdAccess) (n : ChanIdx) :
    EdmaReg.ofOffset (p.offset n) = p.reg?.map (EdmaReg.chan n) := by
  have hoff := p.off_lt
  have hdiv : p.offset n / 0x1000 - 1 = n.val := by
    unfold offset
    omega
  have hmod : p.offset n % 0x1000 = 0x20 + p.off := by
    unfold offset
    omega
  have hpage : ¬ p.offset n < 0x1000 := by
    unfold offset
    omega
  unfold EdmaReg.ofOffset
  rw [if_neg hpage, dif_pos (by omega), hmod, reg?, tcdReg?]
  congr 2
  exact Fin.ext hdiv

variable {μ : Type}

variable (c : Chan) (bus : Bus μ) (x : Engine μ) (n : ChanIdx) (image : Vector Byte 32)
  (stores : List TcdAccess) (r : ChanReg)

def storeTcd (x : Engine μ) (p : TcdAccess) : Engine μ :=
  edmaWrite bus x (p.offset n) (p.value image)

def readTcd (p : TcdAccess) : Word := cut p.width.bytes (edmaRead x.st (p.offset n))

def Chan.store (c : Chan) (p : TcdAccess) : Chan :=
  match p.reg? with
  | some r => c.write (p.value image) r
  | none => c

lemma TcdAccess.value_start {image : Vector Byte 32}
    (hstart : anyBit (lduwLeP image 0x1C) tcdCsrStart = false) (h : p.reg? = some .tcdCsr) :
    anyBit (p.value image) (tcdCsrStart.setWidth 32) = false := by
  have hoff : p.off = 0x1C := tcdReg_off p.off_lt h
  have hmask : tcdCsrStart.setWidth 32 = BitVec.twoPow 32 0 := by decide
  have hmask' : tcdCsrStart = BitVec.twoPow 16 0 := by decide
  have hbit : (image.getD 0x1C 0).getLsbD 0 = false := by
    rwa [hmask', anyBit_twoPow, lduwLeP, getLsbD_append] at hstart
  have hpos : 0 < p.width.bytes := by cases p.width <;> decide
  rw [hmask, anyBit_twoPow, value, imageWord, cut_ofBytes, ofBytes_getLsbD _ (by decide), hoff]
  simp only [Nat.zero_div, Nat.zero_mod, if_pos hpos, Nat.add_zero]
  exact hbit

lemma storeTcd_ch {image : Vector Byte 32}
    (hstart : anyBit (lduwLeP image 0x1C) tcdCsrStart = false) (x : Engine μ) (p : TcdAccess) :
    (storeTcd bus n image x p).st.ch n = (x.st.ch n).store image p := by
  unfold storeTcd edmaWrite store
  rw [p.ofOffset]
  cases hreg : p.reg? with
  | none => rfl
  | some r =>
    have htcd := tcdReg_isTcd p.off_lt hreg
    by_cases hcsr : r = .tcdCsr
    · subst hcsr
      have hidle := p.value_start hstart hreg
      rw [hidle]
      exact Engine.modifyCh_ch_self _ _ _
    cases r <;>
      first
      | exact absurd htcd Bool.false_ne_true
      | exact absurd rfl hcsr
      | exact Engine.modifyCh_ch_self _ _ _

lemma foldl_storeTcd_ch {image : Vector Byte 32}
    (hstart : anyBit (lduwLeP image 0x1C) tcdCsrStart = false)
    (stores : List TcdAccess) (x : Engine μ) :
    (stores.foldl (storeTcd bus n image) x).st.ch n = stores.foldl (store image) (x.st.ch n) := by
  induction stores generalizing x with
  | nil => rfl
  | cons p rest ih => rw [List.foldl_cons, List.foldl_cons, ih, storeTcd_ch bus n hstart]

lemma readTcd_eq (p : TcdAccess) : readTcd x n p =
      cut p.width.bytes (p.reg?.elim 0 fun r => (x.st.ch n).read r) := by
  unfold readTcd edmaRead
  rw [p.ofOffset]
  cases p.reg? <;> rfl

def lastStore : Option TcdAccess := (stores.filter fun p => p.reg? = some r).getLast?

lemma foldl_store_sameOutside (c : Chan) : c.SameOutside (stores.foldl (store image) c) := by
  refine List.foldlRecOn stores (store image)
    (motive := fun c' => c.SameOutside c') ⟨rfl, rfl, rfl, rfl, rfl, rfl⟩ ?_
  intro c' h p _
  unfold store
  cases hreg : p.reg? with
  | none => exact h
  | some r => exact h.write _ (tcdReg_isTcd p.off_lt hreg)

lemma foldl_store_read (c : Chan) {r : ChanReg} (hr : r.isTcd = true) :
    (stores.foldl (store image) c).read r = match lastStore stores r with
      | some p => cut r.bytes (p.value image)
      | none => c.read r := by
  induction stores using List.reverseRecOn with
  | nil => rfl
  | append_singleton stores p ih =>
    rw [List.foldl_append, List.foldl_cons, List.foldl_nil, lastStore, List.filter_append]
    by_cases hreg : p.reg? = some r
    · have hlast : [p].filter (fun p => p.reg? = some r) = [p] := by simp [hreg]
      rw [hlast, List.getLast?_append, store, hreg]
      exact read_write_self _ _ hr
    have hnone : [p].filter (fun p => p.reg? = some r) = [] := by simp [hreg]
    rw [hnone, List.append_nil, ← lastStore, ← ih, store]
    cases hother : p.reg? with
    | none => rfl
    | some r' =>
      apply read_write_of_ne _ _ hr (tcdReg_isTcd p.off_lt hother)
      rintro rfl
      exact hreg hother

/-- The copy brings the image's value into register `r`: the store at its offset
covers the register, or what it leaves out is zero in the image; without such a
store the register held the value before. -/
def StoresReach (r : ChanReg) : Prop :=
  match lastStore stores r with
  | some p => ∀ i < r.bytes, p.width.bytes ≤ i → image.getD (p.off + i) 0 = 0
  | none => c.read r = tcdField image r

instance (c : Chan) (image : Vector Byte 32) (stores : List TcdAccess)
    (r : ChanReg) : Decidable (StoresReach c image stores r) :=
  match h : lastStore stores r with
  | some p => decidable_of_iff (∀ i < r.bytes, p.width.bytes ≤ i → image.getD (p.off + i) 0 = 0)
      (by rw [StoresReach, h])
  | none => decidable_of_iff (c.read r = tcdField image r) (by rw [StoresReach, h])

def ReadReaches (p : TcdAccess) : Prop :=
  ∀ i < p.width.bytes, p.reg?.elim 0 bytes ≤ i → image.getD (p.off + i) 0 = 0

instance (image : Vector Byte 32) (p : TcdAccess) : Decidable (ReadReaches image p) :=
  inferInstanceAs (Decidable (∀ i < _, _))

lemma cut_cut_eq_iff {f : ℕ → Byte} {wide narrow : ℕ} (hwide : wide ≤ 4) :
    cut wide (cut narrow (ofBytes f)) = cut wide (ofBytes f) ↔
      ∀ i < wide, narrow ≤ i → f i = 0 := by
  rw [cut_ofBytes, cut_ofBytes, cut_ofBytes, ofBytes_inj]
  constructor
  · intro h i hi hnarrow
    have hbyte := h i (by omega)
    rw [if_pos hi, if_neg (by omega), if_pos hi] at hbyte
    exact hbyte.symm
  intro h i _
  by_cases hi : i < wide
  · rw [if_pos hi, if_pos hi]
    split
    · rfl
    · exact (h i hi (by omega)).symm
  · rw [if_neg hi, if_neg hi]

lemma ChanReg.bytes_le : r.bytes ≤ 4 := by
  cases r <;> decide

lemma Width.bytes_le (w : Width) : w.bytes ≤ 4 := by
  cases w <;> decide

variable {stores}

lemma lastStore_reg {r : ChanReg} (h : lastStore stores r = some p) : p.reg? = some r := by
  have hmem := List.mem_of_getLast? h
  simpa using (List.mem_filter.mp hmem).2

variable {image}

lemma foldl_store_read_iff {c : Chan} {r : ChanReg} (hr : r.isTcd) :
    (stores.foldl (store image) c).read r = tcdField image r ↔ StoresReach c image stores r := by
  rw [foldl_store_read image stores c hr, StoresReach]
  cases hlast : lastStore stores r with
  | none => rfl
  | some p =>
    dsimp only
    rw [tcdField_eq image hr, ← tcdReg_off p.off_lt (lastStore_reg hlast),
      TcdAccess.value, imageWord]
    exact cut_cut_eq_iff r.bytes_le

lemma readTcd_iff {x : Engine μ} {n : ChanIdx} (hfields : ∀ r : ChanReg, r.isTcd →
      (x.st.ch n).read r = tcdField image r) (p : TcdAccess) :
    readTcd x n p = p.value image ↔ ReadReaches image p := by
  rw [readTcd_eq, ReadReaches, TcdAccess.value, imageWord]
  cases hreg : p.reg? with
  | none =>
    have hzero : (0 : Word) = cut 0 (ofBytes fun i => image.getD (p.off + i) 0) := by
      have hnone : (0 : Word) = ofBytes fun _ => 0 := by decide
      rw [cut_ofBytes, hnone, ofBytes_inj]
      exact fun i _ => (if_neg (Nat.not_lt_zero i)).symm
    rw [hzero]
    exact cut_cut_eq_iff (Width.bytes_le _)
  | some r =>
    dsimp only [Option.elim_some]
    have htcd := tcdReg_isTcd p.off_lt hreg
    rw [hfields r htcd, tcdField_eq image htcd, ← tcdReg_off p.off_lt hreg, imageWord]
    exact cut_cut_eq_iff (Width.bytes_le _)

/-- For every image with `START` clear, every sequence of aligned stores of its
parts into the TCD window of a channel and every set of aligned reads: the
channel holds the descriptor that a load of the image from memory would give,
and the reads return the image, just when the copy reaches every register and
every read stays inside a register, as far as the image is not zero. -/
theorem tcd_image_copied_iff {image : Vector Byte 32}
    (hstart : anyBit (lduwLeP image 0x1C) tcdCsrStart = false)
    (stores reads : List TcdAccess) :
    ((stores.foldl (storeTcd bus n image) x).st.ch n = (x.st.ch n).withTcd image ∧
      ∀ p ∈ reads, readTcd (stores.foldl (storeTcd bus n image) x) n p = p.value image) ↔
    (∀ r : ChanReg, r.isTcd = true → StoresReach (x.st.ch n) image stores r) ∧
    ∀ p ∈ reads, ReadReaches image p := by
  have hch := foldl_storeTcd_ch bus n hstart stores x
  have hfields : (stores.foldl (storeTcd bus n image) x).st.ch n =
      (x.st.ch n).withTcd image ↔ ∀ r : ChanReg, r.isTcd = true →
        ((stores.foldl (storeTcd bus n image) x).st.ch n).read r =
          tcdField image r := by
    rw [hch]
    exact eq_withTcd_iff (foldl_store_sameOutside image stores _) image
  have hstores : (∀ r : ChanReg, r.isTcd = true →
      ((stores.foldl (storeTcd bus n image) x).st.ch n).read r =
        tcdField image r) ↔ ∀ r : ChanReg, r.isTcd = true →
      StoresReach (x.st.ch n) image stores r := by
    rw [hch]
    exact forall₂_congr fun r hr => foldl_store_read_iff hr
  rw [hfields]
  constructor
  · rintro ⟨hread, hreads⟩
    exact ⟨hstores.mp hread, fun p hp => (readTcd_iff hread p).mp (hreads p hp)⟩
  rintro ⟨hreach, hreads⟩
  have hread := hstores.mpr hreach
  exact ⟨hread, fun p hp => (readTcd_iff hread p).mpr (hreads p hp)⟩

def sampleImage : Vector Byte 32 :=
  Vector.ofFn fun i =>
    if i = 0x06 then 2 else if i = 0x08 then 4 else if i = 0x16 then 1 else 0

def registerAccesses : List TcdAccess :=
  [⟨0x00, .word, by decide, by decide⟩, ⟨0x04, .half, by decide, by decide⟩,
    ⟨0x06, .half, by decide, by decide⟩, ⟨0x08, .word, by decide, by decide⟩,
    ⟨0x0C, .word, by decide, by decide⟩, ⟨0x10, .word, by decide, by decide⟩,
    ⟨0x14, .half, by decide, by decide⟩, ⟨0x16, .half, by decide, by decide⟩,
    ⟨0x18, .word, by decide, by decide⟩, ⟨0x1C, .half, by decide, by decide⟩,
    ⟨0x1E, .half, by decide, by decide⟩]

def wordAccesses : List TcdAccess :=
  [⟨0x00, .word, by decide, by decide⟩, ⟨0x04, .word, by decide, by decide⟩,
    ⟨0x08, .word, by decide, by decide⟩, ⟨0x0C, .word, by decide, by decide⟩,
    ⟨0x10, .word, by decide, by decide⟩, ⟨0x14, .word, by decide, by decide⟩,
    ⟨0x18, .word, by decide, by decide⟩, ⟨0x1C, .word, by decide, by decide⟩]

theorem tcd_image_copied_by_registers : (registerAccesses.foldl (storeTcd memoryBus 0 sampleImage)
      (⟨created 0, fun _ => 0, []⟩ : Engine (Word → Byte))).st.ch 0 =
        Chan.zero.withTcd sampleImage := by
  have hstart : anyBit (lduwLeP sampleImage 0x1C) tcdCsrStart = false := by
    decide +kernel
  refine ((tcd_image_copied_iff memoryBus ⟨created 0, fun _ => 0, []⟩ 0
    hstart registerAccesses registerAccesses).mpr ⟨?_, ?_⟩).1
  · intro r hr
    cases r <;> first | exact absurd hr Bool.false_ne_true | decide +kernel
  · decide +kernel

theorem tcd_image_lost_by_words : anyBit (lduwLeP sampleImage 0x1C) tcdCsrStart = false ∧
    (wordAccesses.foldl (storeTcd memoryBus 0 sampleImage)
      (⟨created 0, fun _ => 0, []⟩ : Engine (Word → Byte))).st.ch 0 ≠
        Chan.zero.withTcd sampleImage := by
  decide +kernel

end Mcxn947.Edma
