import MetricRegistry.Proofs.Bytes
import MetricRegistry.Log.Header

/-! The index header reads back as written. Its 64 bytes are laid out field by field, the
checksum covers exactly the first 60, so reading the bytes back finds the magic, the marker and a
matching checksum, and gives every field whose value fits its width.
-/

namespace MetricRegistry.Log.Header

open Bytes

/-- A header whose fields fit their widths and whose version this code reads. -/
structure Fits (h : Header) : Prop where
  version : h.version ≤ formatVersion
  recordCount : h.recordCount < 2 ^ 64
  dataEnd : h.dataEnd < 2 ^ 64

theorem size_body (h : Header) : h.body.size = 60 := by
  simp [body, magic, size_encodeLE, size_encodeI64]

/-- Byte `i` of a header's first 60 bytes, field by field. -/
theorem getElem?_body (h : Header) (i : Nat)
    : h.body[i]? =
        if i < 4 then magic[i]?
        else if i < 6 then (encodeLE 2 h.version)[i - 4]?
        else if i < 8 then (encodeLE 2 byteOrderMarker)[i - 6]?
        else if i < 16 then (encodeLE 8 h.recordCount)[i - 8]?
        else if i < 24 then (encodeLE 8 h.dataEnd)[i - 16]?
        else if i < 32 then (encodeI64 h.nextId)[i - 24]?
        else if i < 60 then some 0
        else none := by
  simp only [body, getElem?_append, ByteArray.size_append, size_encodeLE, size_encodeI64,
    getElem?_zeros, magic, size_mk, List.size_toArray, List.length_cons,
    List.length_nil, Nat.reduceAdd]
  -- each branch of one side is the branch of the other with the offsets added up
  split_ifs <;> first
    | rfl
    | omega

theorem size_encode (h : Header) : h.encode.size = headerSize := by
  simp [encode, size_body, size_encodeLE, headerSize]

theorem getElem?_encode (h : Header) (i : Nat)
    : h.encode[i]? =
        if i < 60 then h.body[i]? else (encodeLE 4 (Hash.crc32 h.body).toNat)[i - 60]? := by
  rw [encode, getElem?_append, size_body]

theorem extract_encode_body (h : Header) : h.encode.extract 0 60 = h.body := by
  rw [encode]
  exact ByteArray.extract_append_eq_left (size_body h).symm

theorem extract_encode_magic (h : Header) : h.encode.extract 0 4 = magic := by
  apply ext_getElem?
  intro i
  rw [getElem?_extract, getElem?_encode]
  by_cases small : i < 4
  · rw [if_pos (by omega), if_pos (by omega), getElem?_body, if_pos (by omega), Nat.zero_add]
  · rw [if_neg (by omega), getElem?_neg magic i (by simp [magic]; omega)]

/-- A word of the body read back from the whole header. -/
theorem readLE_encode_body {h : Header} {pos width : Nat} (inside : pos + width ≤ 60)
    : readLE h.encode pos width = readLE h.body pos width :=
  readLE_congr fun j _ => by rw [getElem?_encode, if_pos (by omega)]

theorem readLE_encode_checksum (h : Header)
    : readLE h.encode 60 4 = (Hash.crc32 h.body).toNat :=
  (readLE_of_encodeLE fun j _ => by
      rw [getElem?_encode, if_neg (by omega), Nat.add_sub_cancel_left]).trans
    (Nat.mod_eq_of_lt (Hash.crc32 h.body).toNat_lt)

/-- The little-endian field of `width` bytes at `pos` of the body. -/
theorem readLE_body_field {h : Header} {pos width : Nat} (n : Nat)
    (field : ∀ j, j < width → h.body[pos + j]? = (encodeLE width n)[j]?)
    : readLE h.body pos width = n % 256 ^ width :=
  readLE_of_encodeLE field

/-- Reading a written header gives it back. -/
theorem decode_encode {h : Header} (fits : h.Fits) : decode h.encode = .ok h := by
  have version : readLE h.encode 4 2 = h.version := by
    rw [readLE_encode_body (by decide), readLE_body_field h.version fun j hj => by
      rw [getElem?_body]
      simp only [show ¬ 4 + j < 4 by omega, show 4 + j < 6 by omega, if_false, if_true,
        Nat.add_sub_cancel_left]]
    have := fits.version
    simp only [formatVersion] at this
    omega
  have marker : readLE h.encode 6 2 = byteOrderMarker := by
    rw [readLE_encode_body (by decide), readLE_body_field byteOrderMarker fun j hj => by
      rw [getElem?_body]
      simp only [show ¬ 6 + j < 4 by omega, show ¬ 6 + j < 6 by omega, show 6 + j < 8 by omega,
        if_false, if_true, Nat.add_sub_cancel_left]]
    rfl
  have recordCount : readLE h.encode 8 8 = h.recordCount := by
    rw [readLE_encode_body (by decide), readLE_body_field h.recordCount fun j hj => by
      rw [getElem?_body]
      simp only [show ¬ 8 + j < 4 by omega, show ¬ 8 + j < 6 by omega,
        show ¬ 8 + j < 8 by omega, show 8 + j < 16 by omega, if_false, if_true,
        Nat.add_sub_cancel_left]]
    exact Nat.mod_eq_of_lt fits.recordCount
  have dataEnd : readLE h.encode 16 8 = h.dataEnd := by
    rw [readLE_encode_body (by decide), readLE_body_field h.dataEnd fun j hj => by
      rw [getElem?_body]
      simp only [show ¬ 16 + j < 4 by omega, show ¬ 16 + j < 6 by omega,
        show ¬ 16 + j < 8 by omega, show ¬ 16 + j < 16 by omega, show 16 + j < 24 by omega,
        if_false, if_true, Nat.add_sub_cancel_left]]
    exact Nat.mod_eq_of_lt fits.dataEnd
  have nextId : readI64 h.encode 24 = h.nextId :=
    readI64_of_bytes fun j hj => by
      rw [getElem?_encode, if_pos (by omega), getElem?_body]
      simp only [show ¬ 24 + j < 4 by omega, show ¬ 24 + j < 6 by omega,
        show ¬ 24 + j < 8 by omega, show ¬ 24 + j < 16 by omega, show ¬ 24 + j < 24 by omega,
        show 24 + j < 32 by omega, if_false, if_true, Nat.add_sub_cancel_left]
  have small : ¬ h.version > formatVersion := Nat.not_lt.mpr fits.version
  simp only [decode, extract_encode_magic, bne_self_eq_false, Bool.false_eq_true, if_false,
    marker, readLE_encode_checksum, extract_encode_body, version, recordCount, dataEnd, nextId,
    small]
  rfl

/-- Whatever bytes a header is read from, its fields fit their widths. -/
theorem fits_of_decode {raw : ByteArray} {h : Header} (ok : decode raw = .ok h) : h.Fits := by
  simp only [decode, bind, Except.bind, pure, Except.pure] at ok
  split_ifs at ok with magicOk markerOk sumOk newer
  cases ok
  exact ⟨Nat.le_of_not_lt newer, readLE_lt raw 8 8, readLE_lt raw 16 8⟩

end MetricRegistry.Log.Header
