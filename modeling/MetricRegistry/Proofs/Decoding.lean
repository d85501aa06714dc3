import MetricRegistry.Proofs.Record

/-! Decoding accepts exactly the well-formed records (`WellFormed`) and gives the record their
fields describe; encoding writes it back as the same bytes, and bytes past the total size
never matter. -/

namespace MetricRegistry.Record

open Bytes

-----------------------------------------------------------------------------------------
-- Words written back as they were read
-----------------------------------------------------------------------------------------

/-- Byte `j` of a word read from `b` is the byte of `b` it was read from. -/
theorem readLE_div_mod {b : ByteArray} {pos width j : Nat} (lt : j < width)
    : readLE b pos width / 256 ^ j % 256 = (b[pos + j]?.getD 0).toNat := by
  induction width generalizing pos j with
  | zero => omega
  | succ w ih =>
      have low := (b[pos]?.getD 0).toNat_lt
      rw [readLE]
      cases j with
      | zero =>
          simp only [Nat.pow_zero, Nat.div_one, Nat.add_zero]
          omega
      | succ j =>
          have high : ((b[pos]?.getD 0).toNat + 256 * readLE b (pos + 1) w) / 256 =
              readLE b (pos + 1) w := by omega
          rw [Nat.pow_succ', ← Nat.div_div_eq_div_mul, high, ih (by omega),
            show pos + 1 + j = pos + (j + 1) by omega]

/-- Writing back a word read from inside `b` gives the bytes it was read from. -/
theorem encodeLE_readLE {b : ByteArray} {pos width : Nat} (inside : pos + width ≤ b.size)
    : encodeLE width (readLE b pos width) = b.extract pos (pos + width) := by
  apply ext_getElem?
  intro j
  rw [getElem?_encodeLE, getElem?_extract]
  by_cases lt : j < width
  · rw [if_pos lt, if_pos (by omega), readLE_div_mod lt, getElem?_pos b (pos + j) (by omega),
      Option.getD_some, UInt8.ofNat_toNat]
  · rw [if_neg lt, if_neg (by omega)]

theorem encodeI64_readI64 {b : ByteArray} {pos : Nat} (inside : pos + 8 ≤ b.size)
    : encodeI64 (readI64 b pos) = b.extract pos (pos + 8) := by
  have word : (readI64 b pos).toUInt64.toNat = readLE b pos 8 := by
    rw [readI64, readU64, UInt64.toUInt64_toInt64, Nat.toUInt64_eq]
    exact UInt64.toNat_ofNat_of_lt' (readLE_lt b pos 8)
  rw [encodeI64, word, encodeLE_readLE inside]

theorem extract_append_extract_of_le {b : ByteArray} {i j k : Nat} (ij : i ≤ j) (jk : j ≤ k)
    : b.extract i j ++ b.extract j k = b.extract i k := by
  rw [ByteArray.extract_append_extract, Nat.min_eq_left ij, Nat.max_eq_right jk]

-----------------------------------------------------------------------------------------
-- The bytes decoding accepts
-----------------------------------------------------------------------------------------

/-- Bytes that hold a record from their start: a complete header whose total size is the header
and both lengths and lies within the bytes, and a name that is UTF-8 when it has bytes. -/
structure WellFormed (b : ByteArray) : Prop where
  header : headerSize ≤ b.size
  total : readLE b 1 4 = headerSize + readLE b 21 4 + readLE b 25 4
  within : readLE b 1 4 ≤ b.size
  name : readLE b 21 4 = 0 ∨ (slice b headerSize (headerSize + readLE b 21 4)).IsValidUTF8

instance (b : ByteArray) : Decidable (WellFormed b) :=
  decidable_of_iff (headerSize ≤ b.size ∧
      readLE b 1 4 = headerSize + readLE b 21 4 + readLE b 25 4 ∧ readLE b 1 4 ≤ b.size ∧
      (readLE b 21 4 = 0 ∨ (slice b headerSize (headerSize + readLE b 21 4)).IsValidUTF8))
    ⟨fun ⟨header, total, within, name⟩ => ⟨header, total, within, name⟩,
      fun ⟨header, total, within, name⟩ => ⟨header, total, within, name⟩⟩

/-- The record whose fields the bytes `b` hold: the ids from the header, the name and the opaque
key from the bytes their lengths give, absent when a length is zero, and deleted unless the first
byte is the live flag. -/
def fieldsOf (b : ByteArray) : Identity where
  globalId := readI64 b 5
  createdAt := readI64 b 13
  name := if readLE b 21 4 = 0 then none
    else String.fromUTF8? (slice b headerSize (headerSize + readLE b 21 4))
  opaqueKey := if readLE b 25 4 = 0 then none
    else some (slice b (headerSize + readLE b 21 4) (readLE b 1 4))
  tombstoned := b[0]?.getD 0 != flagLive

/-- A name check fails on bytes that are not UTF-8. -/
theorem decodeUtf8_error_of_invalid {bytes : ByteArray} (invalid : ¬ bytes.IsValidUTF8)
    : ∃ e, Text.decodeUtf8 bytes = .error e := by
  cases decoded : Text.decodeUtf8 bytes with
  | error e => exact ⟨e, rfl⟩
  | ok s => exact absurd (Text.decodeUtf8_eq_ok_iff.mp decoded ▸ s.isValidUTF8) invalid

/-- Well-formed bytes decode to the record their fields hold. -/
theorem decode_wellFormed {b : ByteArray} (w : WellFormed b) : decode b = .ok (fieldsOf b) := by
  have long : ¬ b.size < headerSize := Nat.not_lt.mpr w.header
  have within : ¬ b.size < readLE b 1 4 := Nat.not_lt.mpr w.within
  unfold decode
  simp only [if_neg long, ← w.total, bne_self_eq_false, gt_iff_lt, within, decide_false,
    Bool.false_or, Bool.false_eq_true, if_false]
  by_cases empty : readLE b 21 4 = 0
  · simp only [if_pos empty, fieldsOf]
    rfl
  · have valid := w.name.resolve_left empty
    have text : Text.decodeUtf8 (slice b headerSize (headerSize + readLE b 21 4)) =
        .ok (String.fromUTF8 _ valid) := Text.decodeUtf8_eq_ok_iff.mpr rfl
    simp only [if_neg empty, text, fieldsOf, String.fromUTF8?, dif_pos valid]
    rfl

/-- Bytes that are not well formed are refused as a corrupt record. -/
theorem decode_refuses {b : ByteArray} (bad : ¬ WellFormed b)
    : ∃ msg, decode b = .error (.corruptRecord msg) := by
  by_cases short : b.size < headerSize
  · unfold decode
    simp only [if_pos short]
    exact ⟨_, rfl⟩
  by_cases mismatch : (readLE b 1 4 != headerSize + readLE b 21 4 + readLE b 25 4 ||
      decide (readLE b 1 4 > b.size)) = true
  · unfold decode
    simp only [if_neg short, mismatch, if_true]
    exact ⟨_, rfl⟩
  have sized : readLE b 1 4 = headerSize + readLE b 21 4 + readLE b 25 4 ∧
      readLE b 1 4 ≤ b.size := by
    simp only [Bool.or_eq_true, bne_iff_ne, ne_eq, decide_eq_true_eq, gt_iff_lt] at mismatch
    omega
  have named : readLE b 21 4 ≠ 0 ∧
      ¬ (slice b headerSize (headerSize + readLE b 21 4)).IsValidUTF8 :=
    ⟨fun empty => bad ⟨Nat.le_of_not_lt short, sized.1, sized.2, .inl empty⟩,
      fun valid => bad ⟨Nat.le_of_not_lt short, sized.1, sized.2, .inr valid⟩⟩
  obtain ⟨e, failed⟩ := decodeUtf8_error_of_invalid named.2
  have within : ¬ b.size < readLE b 1 4 := Nat.not_lt.mpr sized.2
  unfold decode
  simp only [if_neg short, ← sized.1, bne_self_eq_false, gt_iff_lt, within, decide_false,
    Bool.false_or, Bool.false_eq_true, if_false, if_neg named.1, failed]
  exact ⟨_, rfl⟩

/-- Decoding accepts exactly the well-formed bytes, and gives the record their fields hold. -/
theorem decode_eq_ok_iff {b : ByteArray} {r : Identity}
    : decode b = .ok r ↔ WellFormed b ∧ r = fieldsOf b := by
  constructor
  · intro ok
    by_cases w : WellFormed b
    · rw [decode_wellFormed w] at ok
      exact ⟨w, (Except.ok.inj ok).symm⟩
    · obtain ⟨msg, refused⟩ := decode_refuses w
      rw [refused] at ok
      cases ok
  · rintro ⟨w, rfl⟩
    exact decode_wellFormed w

-----------------------------------------------------------------------------------------
-- Bytes past the total size
-----------------------------------------------------------------------------------------

theorem extract_congr {b other : ByteArray} {i j : Nat}
    (same : ∀ k, k < j → other[k]? = b[k]?) : other.extract i j = b.extract i j := by
  apply ext_getElem?
  intro k
  rw [getElem?_extract, getElem?_extract]
  by_cases inside : i + k < j
  · rw [if_pos inside, if_pos inside, same _ inside]
  · rw [if_neg inside, if_neg inside]

/-- Bytes that agree with well-formed bytes up to their total size, and reach it, are well formed
and hold the same record: what follows the total size is never read. -/
theorem wellFormed_congr {b other : ByteArray} (w : WellFormed b)
    (long : readLE b 1 4 ≤ other.size) (same : ∀ i, i < readLE b 1 4 → other[i]? = b[i]?)
    : WellFormed other ∧ fieldsOf other = fieldsOf b := by
  have total := w.total
  have word {pos width : Nat} (inside : pos + width ≤ headerSize)
      : readLE other pos width = readLE b pos width :=
    readLE_congr fun j _ => same _ (by omega)
  have sized : readLE other 1 4 = readLE b 1 4 := word (by decide)
  have nameLen : readLE other 21 4 = readLE b 21 4 := word (by decide)
  have keyLen : readLE other 25 4 = readLE b 25 4 := word (by decide)
  have part {i j : Nat} (inside : j ≤ readLE b 1 4) : slice other i j = slice b i j :=
    extract_congr fun k _ => same k (by omega)
  have name : slice other headerSize (headerSize + readLE b 21 4) =
      slice b headerSize (headerSize + readLE b 21 4) := part (by omega)
  have key : slice other (headerSize + readLE b 21 4) (readLE b 1 4) =
      slice b (headerSize + readLE b 21 4) (readLE b 1 4) := part (Nat.le_refl _)
  have globalId : readI64 other 5 = readI64 b 5 :=
    readI64_congr fun j _ => same _ (by simp only [headerSize] at total; omega)
  have createdAt : readI64 other 13 = readI64 b 13 :=
    readI64_congr fun j _ => same _ (by simp only [headerSize] at total; omega)
  have flag : other[0]? = b[0]? := same 0 (by simp only [headerSize] at total; omega)
  refine ⟨⟨by omega, by rw [sized, nameLen, keyLen]; exact total, by rw [sized]; exact long,
    by rw [nameLen, name]; exact w.name⟩, ?_⟩
  simp only [fieldsOf, sized, nameLen, keyLen, name, key, globalId, createdAt, flag]

-----------------------------------------------------------------------------------------
-- Encoding what decoding accepts
-----------------------------------------------------------------------------------------

section Encoding

variable {b : ByteArray}

/-- The name of the record well-formed bytes hold is written as the bytes it was read from; an
absent name as the empty range of a zero length. -/
theorem nameBytes_fieldsOf (w : WellFormed b)
    : nameBytes (fieldsOf b) = slice b headerSize (headerSize + readLE b 21 4) := by
  by_cases empty : readLE b 21 4 = 0
  · simp only [nameBytes, fieldsOf, empty, if_true, Option.map_none, Option.getD_none,
      Nat.add_zero, slice, ByteArray.extract_same]
  · have valid := w.name.resolve_left empty
    simp only [nameBytes, fieldsOf, if_neg empty, String.fromUTF8?, dif_pos valid,
      Option.map_some, Option.getD_some]
    rfl

theorem keyBytes_fieldsOf (w : WellFormed b)
    : keyBytes (fieldsOf b) = slice b (headerSize + readLE b 21 4) (readLE b 1 4) := by
  by_cases empty : readLE b 25 4 = 0
  · have total : readLE b 1 4 = headerSize + readLE b 21 4 := by rw [w.total, empty, Nat.add_zero]
    simp only [keyBytes, fieldsOf, empty, if_true, Option.getD_none, total, slice,
      ByteArray.extract_same]
  · simp only [keyBytes, fieldsOf, if_neg empty, Option.getD_some]

theorem encodedLen_fieldsOf (w : WellFormed b) : encodedLen (fieldsOf b) = readLE b 1 4 := by
  have total := w.total
  have within := w.within
  rw [encodedLen, nameBytes_fieldsOf w, keyBytes_fieldsOf w, slice, slice, ByteArray.size_extract,
    ByteArray.size_extract]
  omega

/-- Encoding the record that well-formed bytes hold writes back those bytes up to their total
size, with the live flag in place of their first byte. -/
theorem encode_fieldsOf (w : WellFormed b)
    : encode (fieldsOf b) = .ok (ByteArray.mk #[flagLive] ++ b.extract 1 (readLE b 1 4)) := by
  have total := w.total
  have within := w.within
  have header : headerSize = 29 := rfl
  have fits : encodedLen (fieldsOf b) ≤ maxU32 := by
    have lt : readLE b 1 4 < 2 ^ 32 := readLE_lt b 1 4
    rw [encodedLen_fieldsOf w, maxU32]
    omega
  have sizeField : encodeLE 4 (readLE b 1 4) = b.extract 1 5 := encodeLE_readLE (by omega)
  have globalId : encodeI64 (readI64 b 5) = b.extract 5 13 := encodeI64_readI64 (by omega)
  have createdAt : encodeI64 (readI64 b 13) = b.extract 13 21 := encodeI64_readI64 (by omega)
  have nameField : encodeLE 4 (readLE b 21 4) = b.extract 21 25 := encodeLE_readLE (by omega)
  have keyField : encodeLE 4 (readLE b 25 4) = b.extract 25 headerSize :=
    encodeLE_readLE (by omega)
  have nameSize : (nameBytes (fieldsOf b)).size = readLE b 21 4 := by
    rw [nameBytes_fieldsOf w, slice, ByteArray.size_extract]
    omega
  have keySize : (keyBytes (fieldsOf b)).size = readLE b 25 4 := by
    rw [keyBytes_fieldsOf w, slice, ByteArray.size_extract]
    omega
  rw [encode_eq_ok fits, encodeUnchecked]
  simp only [nameSize, keySize]
  rw [← total, sizeField, nameField, keyField, nameBytes_fieldsOf w, keyBytes_fieldsOf w,
    show (fieldsOf b).globalId = readI64 b 5 from rfl, globalId,
    show (fieldsOf b).createdAt = readI64 b 13 from rfl, createdAt, slice, slice]
  simp only [ByteArray.append_assoc]
  -- the pieces are adjacent ranges of the bytes, merged from the last one back
  rw [extract_append_extract_of_le, extract_append_extract_of_le, extract_append_extract_of_le,
    extract_append_extract_of_le, extract_append_extract_of_le, extract_append_extract_of_le]
    <;> omega

/-- A proper prefix of a record's binary form is refused as corrupt: once it holds the header,
it declares the whole record's size, which it lacks. -/
theorem decode_prefix_refused {r : Identity} {e : ByteArray} (enc : encode r = .ok e) {k : Nat}
    (short : k < e.size) : ∃ msg, decode (e.extract 0 k) = .error (.corruptRecord msg) := by
  obtain ⟨fits, rfl⟩ := encode_ok enc
  rw [size_encodeUnchecked] at short
  apply decode_refuses
  intro w
  have size : ((encodeUnchecked r).extract 0 k).size = k := by
    rw [ByteArray.size_extract, size_encodeUnchecked]
    omega
  have header : headerSize ≤ k := size ▸ w.header
  have same : readLE ((encodeUnchecked r).extract 0 k) 1 4 = readLE (encodeUnchecked r) 1 4 :=
    readLE_congr fun j _ => by
      rw [getElem?_extract, if_pos (by simp only [headerSize] at header; omega), Nat.zero_add]
  have declared : readLE ((encodeUnchecked r).extract 0 k) 1 4 = encodedLen r := by
    rw [same, readLE_total, Nat.mod_eq_of_lt (by simp only [maxU32] at fits; omega)]
  have within := w.within
  rw [declared, size] at within
  omega

end Encoding

/-- What decoding `b` to `r` tells of `r`: it is deleted exactly when the first byte of `b` is not
the live flag, encoding it writes back `b` up to its total size with the live flag first, and any
bytes that agree with `b` that far decode to it as well. -/
structure Accepted (b : ByteArray) (r : Identity) : Prop where
  tombstoned : r.tombstoned = true ↔ b[0]? ≠ some flagLive
  encodes : encode r = .ok (ByteArray.mk #[flagLive] ++ b.extract 1 (readLE b 1 4))
  rest : ∀ other : ByteArray, readLE b 1 4 ≤ other.size →
    (∀ i, i < readLE b 1 4 → other[i]? = b[i]?) → decode other = .ok r

theorem accepted_fieldsOf {b : ByteArray} (w : WellFormed b) : Accepted b (fieldsOf b) := by
  refine ⟨?_, encode_fieldsOf w, fun other long same => ?_⟩
  · have first : 0 < b.size := by
      have := w.header
      simp only [headerSize] at this
      omega
    simp [fieldsOf, getElem?_pos b 0 first]
  · obtain ⟨wc, fields⟩ := wellFormed_congr w long same
    rw [decode_wellFormed wc, fields]

/-- Decoding accepts exactly the well-formed bytes: a complete header, a total size that is the
header and both lengths and lies within the bytes, and a UTF-8 name when it has bytes. A record it
accepts is deleted exactly when the first byte is not the live flag, encodes back to the bytes up
to the total size with the live flag first, and is read the same whatever follows the total size.
A proper prefix of any record's binary form is refused as corrupt. -/
theorem decode_accepts_wellFormed (b : ByteArray)
    : ((∃ r, decode b = .ok r) ↔ WellFormed b) ∧
      (∀ r, decode b = .ok r → Accepted b r) ∧
      (∀ r, encode r = .ok b →
        ∀ k, k < b.size → ∃ msg, decode (b.extract 0 k) = .error (.corruptRecord msg)) := by
  refine ⟨⟨fun ⟨r, ok⟩ => (decode_eq_ok_iff.mp ok).1,
      fun w => ⟨fieldsOf b, decode_wellFormed w⟩⟩, fun r ok => ?_,
    fun r enc k short => decode_prefix_refused enc short⟩
  obtain ⟨w, rfl⟩ := decode_eq_ok_iff.mp ok
  exact accepted_fieldsOf w

example : WellFormed ⟨#[1, 29, 0, 0, 0, 7, 0, 0, 0, 0, 0, 0, 0, 0, 0, 0, 0, 0, 0, 0, 0,
    0, 0, 0, 0, 0, 0, 0, 0, 42]⟩ := by
  decide

end MetricRegistry.Record
