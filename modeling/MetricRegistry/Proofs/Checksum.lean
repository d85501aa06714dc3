import MetricRegistry.Proofs.Header
import MetricRegistry.Proofs.Decoding

/-! The header checksum catches every change of one byte: a CRC-32 shift is linear and maps only
zero to zero, so a written header reads back as itself and every one-byte change of it is
refused as an invalid log (`decode_encode_detects_one_change`). -/

namespace MetricRegistry.Hash

-----------------------------------------------------------------------------------------
-- The register map
-----------------------------------------------------------------------------------------

theorem xor_xor_cancel (a b p : UInt32) : a ^^^ p ^^^ (b ^^^ p) = a ^^^ b := by
  rw [UInt32.xor_assoc, UInt32.xor_comm b p, ← UInt32.xor_assoc p p b, UInt32.xor_self,
    UInt32.zero_xor]

theorem and_one_xor (a b : UInt32) : (a ^^^ b) &&& 1 = (a &&& 1) ^^^ (b &&& 1) := by
  apply UInt32.toBitVec_inj.mp
  ext i
  simp [Bool.and_xor_distrib_right]

theorem and_one_cases (a : UInt32) : a &&& 1 = 0 ∨ a &&& 1 = 1 := by
  have low : (a &&& 1).toNat < 2 := by
    rw [UInt32.toNat_and]
    exact Nat.lt_of_le_of_lt Nat.and_le_right (by decide)
  rcases (by omega : (a &&& 1).toNat = 0 ∨ (a &&& 1).toNat = 1) with zero | one
  · exact .inl (UInt32.toNat_inj.mp (by simpa using zero))
  · exact .inr (UInt32.toNat_inj.mp (by simpa using one))

/-- A shift of the register is linear in exclusive or. -/
theorem crcBit_xor (a b : UInt32) : crcBit (a ^^^ b) = crcBit a ^^^ crcBit b := by
  unfold crcBit
  rw [and_one_xor, UInt32.shiftRight_xor]
  -- the low bits decide which of the three folds in the polynomial
  rcases and_one_cases a with ha | ha <;> rcases and_one_cases b with hb | hb <;>
    simp only [ha, hb, show (0 : UInt32) ^^^ 0 = 0 by decide, show (0 : UInt32) ^^^ 1 = 1 by decide,
      show (1 : UInt32) ^^^ 0 = 1 by decide, show (1 : UInt32) ^^^ 1 = 0 by decide,
      show (0 : UInt32) ≠ 1 by decide, if_true, if_false]
  · ac_rfl
  · ac_rfl
  · rw [xor_xor_cancel]

/-- A shift of the register maps only zero to zero: a one falling out folds in the polynomial,
whose top bit the shifted register lacks. -/
theorem crcBit_eq_zero {a : UInt32} (h : crcBit a = 0) : a = 0 := by
  unfold crcBit at h
  split at h
  · have shifted : a >>> 1 = crcPolynomial := UInt32.xor_eq_zero_iff.mp h
    have below : (a >>> 1).toNat < 2 ^ 31 := by
      rw [UInt32.toNat_shiftRight]
      have := a.toNat_lt
      simp
      omega
    rw [shifted] at below
    simp [crcPolynomial] at below
  · rename_i even
    have low : (a &&& 1).toNat = 0 := by
      rcases and_one_cases a with zero | one
      · simp [zero]
      · exact absurd one even
    have high := congrArg UInt32.toNat h
    rw [UInt32.toNat_and] at low
    rw [UInt32.toNat_shiftRight] at high
    apply UInt32.toNat_inj.mp
    simp at low high ⊢
    omega

theorem crcShift_xor (n : Nat) (a b : UInt32)
    : crcShift n (a ^^^ b) = crcShift n a ^^^ crcShift n b := by
  induction n generalizing a b with
  | zero => rfl
  | succ n ih => rw [crcShift, crcShift, crcShift, crcBit_xor, ih]

theorem crcShift_eq_zero {n : Nat} {a : UInt32} (h : crcShift n a = 0) : a = 0 := by
  induction n generalizing a with
  | zero => exact h
  | succ n ih => exact crcBit_eq_zero (ih h)

theorem crcShift_crcShift (m n : Nat) (a : UInt32)
    : crcShift m (crcShift n a) = crcShift (n + m) a := by
  induction n generalizing a with
  | zero => rw [crcShift, Nat.zero_add]
  | succ n ih => rw [crcShift, ih, Nat.add_right_comm, crcShift]

-----------------------------------------------------------------------------------------
-- One changed byte
-----------------------------------------------------------------------------------------

/-- A byte folded into a register that differs by `c` gives a register that differs by the
byte's shifts of `c`. -/
theorem crcStep_xor (r c : UInt32) (b : UInt8)
    : crcStep (r ^^^ c) b = crcStep r b ^^^ crcShift 8 c := by
  rw [crcStep, crcStep, UInt32.xor_assoc, UInt32.xor_comm c, ← UInt32.xor_assoc, crcShift_xor]

/-- Folding bytes into registers that differ by `c` gives registers that differ by the shifts
of `c`, eight for each byte. -/
theorem foldl_crcStep_xor (bytes : List UInt8) (r c : UInt32)
    : bytes.foldl crcStep (r ^^^ c) = bytes.foldl crcStep r ^^^ crcShift (8 * bytes.length) c := by
  induction bytes generalizing r c with
  | nil => rfl
  | cons b rest ih =>
      rw [List.foldl_cons, List.foldl_cons, crcStep_xor, ih, crcShift_crcShift, List.length_cons,
        Nat.mul_succ, Nat.add_comm 8]

/-- Two bytes folded into one register give different registers. -/
theorem crcStep_ne {x y : UInt8} (ne : x ≠ y) (r : UInt32) (rest : List UInt8)
    : rest.foldl crcStep (crcStep r x) ≠ rest.foldl crcStep (crcStep r y) := by
  intro same
  have second : crcStep r y = crcStep r x ^^^ crcShift 8 (x.toUInt32 ^^^ y.toUInt32) := by
    rw [crcStep, crcStep, ← crcShift_xor, UInt32.xor_assoc, ← UInt32.xor_assoc x.toUInt32,
      UInt32.xor_self, UInt32.zero_xor]
  rw [second, foldl_crcStep_xor, crcShift_crcShift] at same
  have gone : crcShift (8 + 8 * rest.length) (x.toUInt32 ^^^ y.toUInt32) = 0 := by
    have cancelled := congrArg (rest.foldl crcStep (crcStep r x) ^^^ ·) same
    simp only [← UInt32.xor_assoc, UInt32.xor_self, UInt32.zero_xor] at cancelled
    exact cancelled.symm
  have equal := UInt32.xor_eq_zero_iff.mp (crcShift_eq_zero gone)
  exact ne (UInt8.toUInt32_inj.mp equal)

/-- Folding two byte lists of one length that differ at exactly one position gives different
registers; the induction follows the lists to that position. -/
theorem foldl_crcStep_ne : ∀ {a b : List UInt8} {i : Nat}, a.length = b.length →
    a[i]? ≠ b[i]? → (∀ j, j ≠ i → a[j]? = b[j]?) →
      ∀ r, a.foldl crcStep r ≠ b.foldl crcStep r
  | [], [], _, _, differs, _, _ => absurd rfl differs
  | x :: a, y :: b, i, length, differs, agree, r => by
      simp only [List.length_cons, Nat.add_right_cancel_iff] at length
      cases i with
      | zero =>
          have ne : x ≠ y := fun same => differs (by rw [same]; rfl)
          have rest : a = b := List.ext_getElem? fun j => by
            simpa using agree (j + 1) (by omega)
          rw [List.foldl_cons, List.foldl_cons, rest]
          exact crcStep_ne ne r b
      | succ i =>
          have same : x = y := by simpa using agree 0 (by omega)
          rw [List.foldl_cons, List.foldl_cons, same]
          exact foldl_crcStep_ne length (by simpa using differs)
            (fun j ne => by simpa using agree (j + 1) (by omega)) _

/-- Two byte strings of one length that differ in exactly one byte have different CRC-32s. -/
theorem crc32_ne_of_one_change {a b : ByteArray} (size : a.size = b.size) {i : Nat}
    (differs : a[i]? ≠ b[i]?) (agree : ∀ j, j ≠ i → a[j]? = b[j]?) : crc32 a ≠ crc32 b := by
  intro same
  rw [crc32, crc32, UInt32.xor_left_inj, Bytes.foldl_eq, Bytes.foldl_eq] at same
  refine @foldl_crcStep_ne _ _ i (by simpa using size) ?_ (fun j ne => ?_) _ same
  · simpa [Bytes.getElem?_eq_data] using differs
  · simpa [Bytes.getElem?_eq_data] using agree j ne

end MetricRegistry.Hash

namespace MetricRegistry.Log.Header

open Bytes

-----------------------------------------------------------------------------------------
-- Reading a header with one changed byte
-----------------------------------------------------------------------------------------

/-- Two strings that hold every byte of a word and differ at one of them read different
words. -/
theorem readLE_ne_of_getElem?_ne {b b' : ByteArray} {pos width i : Nat} (after : pos ≤ i)
    (before : i < pos + width) (hb : pos + width ≤ b.size) (hb' : pos + width ≤ b'.size)
    (ne : b[i]? ≠ b'[i]?) : readLE b pos width ≠ readLE b' pos width := by
  intro same
  have byte := congrArg (· / 256 ^ (i - pos) % 256) same
  rw [Record.readLE_div_mod (by omega), Record.readLE_div_mod (by omega),
    Nat.add_sub_cancel' after, getElem?_pos b i (by omega), getElem?_pos b' i (by omega)] at byte
  apply ne
  rw [getElem?_pos b i (by omega), getElem?_pos b' i (by omega)]
  exact congrArg some (UInt8.toNat_inj.mp byte)

/-- A header is refused as an invalid log when its magic, its byte-order marker or its
checksum over the first 60 bytes is wrong, whichever check comes first. -/
theorem decode_invalid {raw : ByteArray}
    (bad : (raw.extract 0 4).toList ≠ magic.toList ∨ readLE raw 6 2 ≠ byteOrderMarker ∨
      readLE raw 60 4 ≠ (Hash.crc32 (raw.extract 0 60)).toNat)
    : ∃ msg, decode raw = .error (.invalidLog msg) := by
  unfold decode
  by_cases magicOk : (raw.extract 0 4).toList = magic.toList
  · by_cases markerOk : readLE raw 6 2 = byteOrderMarker
    · -- the magic and the marker pass, so the checksum is what is wrong
      have sumBad : readLE raw 60 4 ≠ (Hash.crc32 (raw.extract 0 60)).toNat := by
        rcases bad with bad | bad | bad
        · exact absurd magicOk bad
        · exact absurd markerOk bad
        · exact bad
      simp [magicOk, markerOk, sumBad, bind, Except.bind, throw, throwThe, MonadExceptOf.throw]
    · simp [magicOk, markerOk, bind, Except.bind, throw, throwThe, MonadExceptOf.throw]
  · simp [magicOk, bind, Except.bind, throw, throwThe, MonadExceptOf.throw]

/-- Any 64 bytes that differ from a written header in exactly one byte are refused as an invalid
log: a change among the first 60 bytes changes their checksum but not the stored one, and a
change of the stored checksum does the opposite. -/
theorem decode_one_change {h : Header} {raw : ByteArray} (size : raw.size = headerSize) {i : Nat}
    (differs : raw[i]? ≠ h.encode[i]?) (agree : ∀ j, j ≠ i → raw[j]? = h.encode[j]?)
    : ∃ msg, decode raw = .error (.invalidLog msg) := by
  have sizes : raw.size = h.encode.size := by rw [size, size_encode]
  have inside : i < headerSize := by
    apply Nat.lt_of_not_le
    intro past
    apply differs
    rw [getElem?_neg raw i (by omega), getElem?_neg h.encode i (by rw [← sizes]; omega)]
  refine decode_invalid (.inr (.inr ?_))
  by_cases covered : i < 60
  · have stored : readLE raw 60 4 = readLE h.encode 60 4 :=
      readLE_congr fun j _ => agree (60 + j) (by omega)
    have computed : Hash.crc32 (raw.extract 0 60) ≠ Hash.crc32 (h.encode.extract 0 60) :=
      @Hash.crc32_ne_of_one_change _ _ (by simp [sizes]) i
        (by rwa [getElem?_extract, getElem?_extract, Nat.zero_add, if_pos covered, if_pos covered])
        (fun j ne => by
          rw [getElem?_extract, getElem?_extract, Nat.zero_add]
          split
          · exact agree j ne
          · rfl)
    rw [stored, readLE_encode_checksum, ← extract_encode_body]
    exact fun same => computed (UInt32.toNat_inj.mp same).symm
  · have body : raw.extract 0 60 = h.encode.extract 0 60 := ext_getElem? fun j => by
      rw [getElem?_extract, getElem?_extract, Nat.zero_add]
      split
      · exact agree j (by omega)
      · rfl
    rw [body, extract_encode_body, ← readLE_encode_checksum]
    exact readLE_ne_of_getElem?_ne (by omega) (by simp only [headerSize] at inside; omega)
      (by simp only [headerSize] at size; omega)
      (by rw [size_encode]; simp only [headerSize]; omega) differs

/-- A header whose fields fit their widths and whose version is at most the current one reads
back from its 64 bytes as itself, and any 64 bytes that differ from those in exactly one byte,
whatever that byte becomes, are refused as an invalid log. -/
theorem decode_encode_detects_one_change {h : Header} (fits : h.Fits)
    : decode h.encode = .ok h ∧
      ∀ (raw : ByteArray) (i : Nat), raw.size = headerSize → raw[i]? ≠ h.encode[i]? →
        (∀ j, j ≠ i → raw[j]? = h.encode[j]?) → ∃ msg, decode raw = .error (.invalidLog msg) :=
  ⟨decode_encode fits, fun _ _ size differs agree => decode_one_change size differs agree⟩

theorem decode_encode_detects_one_change_fresh
    : fresh.Fits ∧ decode fresh.encode = .ok fresh ∧
      ∀ (raw : ByteArray) (i : Nat), raw.size = headerSize → raw[i]? ≠ fresh.encode[i]? →
        (∀ j, j ≠ i → raw[j]? = fresh.encode[j]?) → ∃ msg, decode raw = .error (.invalidLog msg) :=
  ⟨⟨by decide, by decide, by decide⟩,
    decode_encode_detects_one_change ⟨by decide, by decide, by decide⟩⟩

end MetricRegistry.Log.Header
