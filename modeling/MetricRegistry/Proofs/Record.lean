import MetricRegistry.Proofs.Utf8
import MetricRegistry.Record.Codec

/-! The codec reads back every record it writes, as live, or as deleted once its flag byte is
cleared, for keys that are non-empty and a size that fits its 32-bit field. -/

namespace MetricRegistry.Record

open Bytes

-----------------------------------------------------------------------------------------
-- Records the codec reproduces
-----------------------------------------------------------------------------------------

/-- A record the codec writes and reads back unchanged: its keys are the non-empty ones the
store keeps, and its binary form fits the 32-bit size field. -/
structure Canonical (r : Identity) : Prop where
  name : Identity.keepName r.name = r.name
  key : Identity.keepKey r.opaqueKey = r.opaqueKey
  fits : encodedLen r ≤ maxU32

theorem keepName_keepName (name : Option String)
    : Identity.keepName (Identity.keepName name) = Identity.keepName name := by
  cases name <;> simp [Identity.keepName, Option.filter]
  split <;> simp_all

theorem keepKey_keepKey (key : Option ByteArray)
    : Identity.keepKey (Identity.keepKey key) = Identity.keepKey key := by
  cases key <;> simp [Identity.keepKey, Option.filter]
  split <;> simp_all

/-- Building a record drops empty keys itself, so dropping them first changes nothing. -/
theorem create_keep (g t : Int64) (name : Option String) (key : Option ByteArray)
    : Identity.create g t (Identity.keepName name) (Identity.keepKey key) =
        Identity.create g t name key := by
  simp only [Identity.create, keepName_keepName, keepKey_keepKey]

/-- A record built from keys is canonical as soon as its binary form fits. -/
theorem canonical_create {g t : Int64} {name : Option String} {key : Option ByteArray}
    (fits : encodedLen (Identity.create g t name key) ≤ maxU32)
    : Canonical (Identity.create g t name key) :=
  ⟨keepName_keepName name, keepKey_keepKey key, fits⟩

theorem canonical_tombstoned {r : Identity} (c : Canonical r) (b : Bool)
    : Canonical { r with tombstoned := b } :=
  ⟨c.name, c.key, c.fits⟩

/-- A present name of a canonical record has bytes. -/
theorem nameBytes_size_pos {r : Identity} {s : String} (c : Canonical r) (h : r.name = some s)
    : 0 < (nameBytes r).size := by
  have keep := c.name
  rw [h] at keep
  simp only [Identity.keepName, Option.filter] at keep
  split at keep
  · rename_i nonempty
    simp only [nameBytes, h, Option.map_some, Option.getD_some]
    change 0 < s.utf8ByteSize
    simp only [Bool.not_eq_eq_eq_not, Bool.not_true, String.isEmpty_eq_false_iff] at nonempty
    exact Nat.pos_of_ne_zero fun zero => nonempty (String.utf8ByteSize_eq_zero_iff.mp zero)
  · exact absurd keep (by simp)

theorem keyBytes_size_pos {r : Identity} {k : ByteArray} (c : Canonical r)
    (h : r.opaqueKey = some k) : 0 < (keyBytes r).size := by
  have keep := c.key
  rw [h] at keep
  simp only [Identity.keepKey, Option.filter] at keep
  split at keep
  · rename_i nonempty
    simp only [keyBytes, h, Option.getD_some]
    simp only [bne_iff_ne, ne_eq] at nonempty
    omega
  · exact absurd keep (by simp)

-----------------------------------------------------------------------------------------
-- The layout of the binary form
-----------------------------------------------------------------------------------------

theorem size_encodeUnchecked (r : Identity) : (encodeUnchecked r).size = encodedLen r := by
  simp only [encodeUnchecked, encodedLen, headerSize, ByteArray.size_append, size_encodeLE,
    size_encodeI64, size_mk, List.size_toArray, List.length_singleton]

theorem encodeUnchecked_size_pos (r : Identity) : 0 < (encodeUnchecked r).size := by
  rw [size_encodeUnchecked, encodedLen, headerSize]
  omega

/-- Byte `i` of a record's binary form, field by field. -/
theorem getElem?_encodeUnchecked (r : Identity) (i : Nat)
    : (encodeUnchecked r)[i]? =
        if i < 1 then some flagLive
        else if i < 5 then (encodeLE 4 (encodedLen r))[i - 1]?
        else if i < 13 then (encodeI64 r.globalId)[i - 5]?
        else if i < 21 then (encodeI64 r.createdAt)[i - 13]?
        else if i < 25 then (encodeLE 4 (nameBytes r).size)[i - 21]?
        else if i < 29 then (encodeLE 4 (keyBytes r).size)[i - 25]?
        else if i < 29 + (nameBytes r).size then (nameBytes r)[i - 29]?
        else (keyBytes r)[i - 29 - (nameBytes r).size]? := by
  simp only [encodeUnchecked, encodedLen, headerSize, getElem?_append, ByteArray.size_append,
    size_encodeLE, size_encodeI64, size_mk, List.size_toArray, List.length_singleton,
    Nat.reduceAdd]
  split_ifs <;> first
    | rfl
    | omega
    | (simp [Nat.lt_one_iff.mp ‹i < 1›]; rfl)
    | (congr 1; omega)

/-- The bytes of a word field sit at its offset. -/
theorem encodeUnchecked_field {r : Identity} {pos width : Nat} {word : ByteArray}
    (at_pos : ∀ i, pos ≤ i → i < pos + width → (encodeUnchecked r)[i]? = word[i - pos]?)
    : ∀ j, j < width → (encodeUnchecked r)[pos + j]? = word[j]? := fun j hj => by
  rw [at_pos (pos + j) (by omega) (by omega), Nat.add_sub_cancel_left]

theorem readLE_total (r : Identity)
    : readLE (encodeUnchecked r) 1 4 = encodedLen r % 256 ^ 4 :=
  readLE_of_encodeLE (encodeUnchecked_field fun i lo hi => by
    rw [getElem?_encodeUnchecked, if_neg (by omega), if_pos hi])

theorem readLE_nameLen (r : Identity)
    : readLE (encodeUnchecked r) 21 4 = (nameBytes r).size % 256 ^ 4 :=
  readLE_of_encodeLE (encodeUnchecked_field fun i lo hi => by
    rw [getElem?_encodeUnchecked]
    simp only [show ¬ i < 1 by omega, show ¬ i < 5 by omega, show ¬ i < 13 by omega,
      show ¬ i < 21 by omega, show i < 25 by omega, if_true, if_false])

theorem readLE_keyLen (r : Identity)
    : readLE (encodeUnchecked r) 25 4 = (keyBytes r).size % 256 ^ 4 :=
  readLE_of_encodeLE (encodeUnchecked_field fun i lo hi => by
    rw [getElem?_encodeUnchecked]
    simp only [show ¬ i < 1 by omega, show ¬ i < 5 by omega, show ¬ i < 13 by omega,
      show ¬ i < 21 by omega, show ¬ i < 25 by omega, show i < 29 by omega, if_true, if_false])

theorem readI64_globalId (r : Identity) : readI64 (encodeUnchecked r) 5 = r.globalId :=
  readI64_of_bytes (encodeUnchecked_field fun i lo hi => by
    rw [getElem?_encodeUnchecked]
    simp only [show ¬ i < 1 by omega, show ¬ i < 5 by omega, show i < 13 by omega, if_true,
      if_false])

theorem readI64_createdAt (r : Identity) : readI64 (encodeUnchecked r) 13 = r.createdAt :=
  readI64_of_bytes (encodeUnchecked_field fun i lo hi => by
    rw [getElem?_encodeUnchecked]
    simp only [show ¬ i < 1 by omega, show ¬ i < 5 by omega, show ¬ i < 13 by omega,
      show i < 21 by omega, if_true, if_false])

-----------------------------------------------------------------------------------------
-- Decoding
-----------------------------------------------------------------------------------------

section Layout

variable {r : Identity} {b : ByteArray}

theorem getElem?_encodeUnchecked_name {r : Identity} {i : Nat} (within : i < (nameBytes r).size)
    : (encodeUnchecked r)[headerSize + i]? = (nameBytes r)[i]? := by
  simp (disch := omega) only [getElem?_encodeUnchecked, headerSize, if_pos, if_neg,
    Nat.add_sub_cancel_left]

theorem getElem?_encodeUnchecked_key {r : Identity} {i : Nat}
    : (encodeUnchecked r)[headerSize + (nameBytes r).size + i]? = (keyBytes r)[i]? := by
  simp (disch := omega) only [getElem?_encodeUnchecked, headerSize, if_neg, Nat.sub_sub,
    Nat.add_sub_cancel_left]

/-- The name's bytes sit right after the header. -/
theorem slice_name (same : ∀ i, 0 < i → i < encodedLen r → b[i]? = (encodeUnchecked r)[i]?)
    : slice b headerSize (headerSize + (nameBytes r).size) = nameBytes r := by
  apply ext_getElem?
  intro i
  rw [slice, getElem?_extract]
  by_cases within : i < (nameBytes r).size
  · rw [if_pos (by omega), same _ (by simp only [headerSize]; omega)
      (by simp only [encodedLen]; omega), getElem?_encodeUnchecked_name within]
  · rw [if_neg (by omega), getElem?_neg _ _ (by omega)]

/-- The opaque key's bytes run from the end of the name to the end of the record. -/
theorem slice_key (same : ∀ i, 0 < i → i < encodedLen r → b[i]? = (encodeUnchecked r)[i]?)
    : slice b (headerSize + (nameBytes r).size) (encodedLen r) = keyBytes r := by
  apply ext_getElem?
  intro i
  rw [slice, getElem?_extract]
  by_cases within : i < (keyBytes r).size
  · rw [if_pos (by simp only [encodedLen]; omega), same _ (by simp only [headerSize]; omega)
      (by simp only [encodedLen]; omega), getElem?_encodeUnchecked_key]
  · rw [if_neg (by simp only [encodedLen]; omega), getElem?_neg _ _ (by omega)]

/-- Bytes that begin with a canonical record's binary form, whatever their flag byte and
whatever follows the record, decode to that record, deleted unless the flag is the live one. -/
theorem decode_of_leading (c : Canonical r) (size : encodedLen r ≤ b.size)
    (same : ∀ i, 0 < i → i < encodedLen r → b[i]? = (encodeUnchecked r)[i]?)
    : decode b = .ok { r with tombstoned := b[0]?.getD 0 != flagLive } := by
  have fits := c.fits
  simp only [encodedLen, maxU32, headerSize] at fits size
  have header {i : Nat} (past : 0 < i) (inside : i < headerSize)
      : b[i]? = (encodeUnchecked r)[i]? :=
    same i past (by simp only [encodedLen, headerSize] at inside ⊢; omega)
  have word {pos width : Nat} (past : 0 < pos) (inside : pos + width ≤ headerSize)
      : readLE b pos width = readLE (encodeUnchecked r) pos width :=
    readLE_congr fun j _ => header (by omega) (by omega)
  have total : readLE b 1 4 = encodedLen r := by
    rw [word (by decide) (by decide), readLE_total,
      Nat.mod_eq_of_lt (by simp only [encodedLen, headerSize]; omega)]
  have nameLen : readLE b 21 4 = (nameBytes r).size := by
    rw [word (by decide) (by decide), readLE_nameLen, Nat.mod_eq_of_lt (by omega)]
  have keyLen : readLE b 25 4 = (keyBytes r).size := by
    rw [word (by decide) (by decide), readLE_keyLen, Nat.mod_eq_of_lt (by omega)]
  have globalId : readI64 b 5 = r.globalId :=
    (readI64_congr fun j _ => header (by omega) (by simp only [headerSize]; omega)).trans
      (readI64_globalId r)
  have createdAt : readI64 b 13 = r.createdAt :=
    (readI64_congr fun j _ => header (by omega) (by simp only [headerSize]; omega)).trans
      (readI64_createdAt r)
  have name := slice_name same
  have key : slice b (headerSize + (nameBytes r).size)
      (headerSize + (nameBytes r).size + (keyBytes r).size) = keyBytes r := slice_key same
  have long : ¬ b.size < headerSize := by simp only [headerSize]; omega
  have within : ¬ b.size < headerSize + (nameBytes r).size + (keyBytes r).size := by
    simp only [headerSize]; omega
  -- an absent key has no bytes and a present one has some, so the length decides presence
  have keyField : (if (keyBytes r).size = 0 then none else some (keyBytes r)) = r.opaqueKey := by
    cases hk : r.opaqueKey with
    | none => simp [keyBytes, hk]
    | some k => rw [if_neg (Nat.pos_iff_ne_zero.mp (keyBytes_size_pos c hk))]; simp [keyBytes, hk]
  unfold decode
  simp only [total, nameLen, keyLen, encodedLen, bne_self_eq_false, gt_iff_lt, within,
    decide_false, Bool.false_or, Bool.false_eq_true, if_false, if_neg long, name, key, globalId,
    createdAt, keyField]
  cases hn : r.name with
  | none =>
      simp [nameBytes, hn]
      rfl
  | some s =>
      have text : Text.decodeUtf8 (nameBytes r) = .ok s := by
        simp only [nameBytes, hn, Option.map_some, Option.getD_some]
        exact Text.decodeUtf8_toUTF8 s
      simp [Nat.pos_iff_ne_zero.mp (nameBytes_size_pos c hn), text]
      rfl

/-- Bytes laid out as a canonical record's binary form, whatever their flag byte, decode to that
record, deleted unless the flag is the live one. -/
theorem decode_of_layout (c : Canonical r) (size : b.size = encodedLen r)
    (same : ∀ i, 0 < i → b[i]? = (encodeUnchecked r)[i]?)
    : decode b = .ok { r with tombstoned := b[0]?.getD 0 != flagLive } :=
  decode_of_leading c (Nat.le_of_eq size.symm) fun i past _ => same i past

end Layout

/-- Encoding refuses exactly the records whose binary form overflows its 32-bit size field. -/
theorem encode_eq_ok {r : Identity} (fits : encodedLen r ≤ maxU32)
    : encode r = .ok (encodeUnchecked r) := by
  have name : (nameBytes r).size ≤ maxU32 := by simp only [encodedLen] at fits; omega
  have key : (keyBytes r).size ≤ maxU32 := by simp only [encodedLen] at fits; omega
  simp only [encode, checkedU32, if_pos name, if_pos key, if_pos fits]
  rfl

theorem encode_eq_error {r : Identity} (large : maxU32 < encodedLen r)
    : ∃ e, encode r = .error e := by
  unfold encode
  simp only [checkedU32]
  split_ifs <;> first | omega | exact ⟨_, rfl⟩

/-- Encoding gives the binary form, and only when it fits. -/
theorem encode_ok {r : Identity} {b : ByteArray} (h : encode r = .ok b)
    : encodedLen r ≤ maxU32 ∧ b = encodeUnchecked r := by
  by_cases fits : encodedLen r ≤ maxU32
  · rw [encode_eq_ok fits] at h
    exact ⟨fits, (Except.ok.inj h).symm⟩
  · obtain ⟨e, refused⟩ := encode_eq_error (Nat.lt_of_not_le fits)
    rw [refused] at h
    cases h

-----------------------------------------------------------------------------------------
-- Writing and reading back
-----------------------------------------------------------------------------------------

/-- The record the codec reads back from the binary form of `r`: live, with an empty name or
opaque key read as absent. -/
def readBack (r : Identity) : Identity :=
  { r with name := Identity.keepName r.name, opaqueKey := Identity.keepKey r.opaqueKey,
           tombstoned := false }

/-- An empty name writes no bytes, present or absent. -/
theorem nameBytes_readBack (r : Identity) : nameBytes (readBack r) = nameBytes r := by
  cases hn : r.name with
  | none => simp [readBack, nameBytes, hn, Identity.keepName]
  | some s =>
      by_cases empty : s.isEmpty
      · have blank : s = "" := String.isEmpty_iff.mp empty
        subst blank
        simp [readBack, nameBytes, hn, Identity.keepName, Option.filter]
      · simp [readBack, nameBytes, hn, Identity.keepName, Option.filter, empty]

/-- An empty opaque key writes no bytes, present or absent. -/
theorem keyBytes_readBack (r : Identity) : keyBytes (readBack r) = keyBytes r := by
  cases hk : r.opaqueKey with
  | none => simp [readBack, keyBytes, hk, Identity.keepKey]
  | some k =>
      by_cases empty : k.size = 0
      · have blank : k = ByteArray.empty := ByteArray.ext (Array.eq_empty_of_size_eq_zero empty)
        subst blank
        simp [readBack, keyBytes, hk, Identity.keepKey, Option.filter]
      · simp [readBack, keyBytes, hk, Identity.keepKey, Option.filter, empty]

theorem encodeUnchecked_readBack (r : Identity)
    : encodeUnchecked (readBack r) = encodeUnchecked r := by
  simp only [encodeUnchecked, nameBytes_readBack, keyBytes_readBack]
  rfl

theorem encodedLen_readBack (r : Identity) : encodedLen (readBack r) = encodedLen r := by
  simp only [encodedLen, nameBytes_readBack, keyBytes_readBack]

theorem canonical_readBack {r : Identity} (fits : encodedLen r ≤ maxU32)
    : Canonical (readBack r) :=
  ⟨keepName_keepName r.name, keepKey_keepKey r.opaqueKey, (encodedLen_readBack r).symm ▸ fits⟩

/-- A record's binary form, followed by any bytes, decodes to the record read back. -/
theorem decode_encodeUnchecked_append {r : Identity} (fits : encodedLen r ≤ maxU32)
    (rest : ByteArray) : decode (encodeUnchecked r ++ rest) = .ok (readBack r) := by
  have size := size_encodeUnchecked (readBack r)
  have head : (encodeUnchecked r ++ rest)[0]? = some flagLive := by
    rw [getElem?_append, if_pos (encodeUnchecked_size_pos r), getElem?_encodeUnchecked,
      if_pos (by decide)]
  have same : ∀ i, 0 < i → i < encodedLen (readBack r) →
      (encodeUnchecked r ++ rest)[i]? = (encodeUnchecked (readBack r))[i]? := fun i _ inside => by
    rw [encodeUnchecked_readBack, getElem?_append,
      if_pos (by rw [size_encodeUnchecked, ← encodedLen_readBack]; exact inside)]
  rw [decode_of_leading (canonical_readBack fits) (by
      rw [ByteArray.size_append, ← encodeUnchecked_readBack, size]; omega) same, head]
  rfl

/-- The codec's round trip. A record whose binary form fits the 32-bit size field is written
as `encodedLen r` bytes, appended after any buffer it is written into, with its size, its id and
the live flag in the header; and those bytes, followed by any others, read back as the record,
live and with an empty name or opaque key dropped. -/
theorem encode_roundTrip (r : Identity) (fits : encodedLen r < 2 ^ 32) (buf rest : ByteArray)
    : ∃ b, encode r = .ok b ∧ encodeInto r buf = .ok (buf ++ b) ∧ b.size = encodedLen r ∧
        declaredSize b = some (encodedLen r) ∧ globalId? b = some r.globalId ∧
        isTombstoned b = false ∧ decode (b ++ rest) = .ok (readBack r) := by
  have fits' : encodedLen r ≤ maxU32 := by simp only [maxU32]; omega
  have encoded := encode_eq_ok fits'
  have long : headerSize ≤ (encodeUnchecked r).size := by
    rw [size_encodeUnchecked, encodedLen]
    omega
  have flag : (encodeUnchecked r)[0]? = some flagLive := by
    rw [getElem?_encodeUnchecked, if_pos (by decide)]
  refine ⟨encodeUnchecked r, encoded, by rw [encodeInto, encoded]; rfl, size_encodeUnchecked r,
    ?_, ?_, ?_, decode_encodeUnchecked_append fits' rest⟩
  · rw [declaredSize, if_pos long, readLE_total,
      Nat.mod_eq_of_lt (show encodedLen r < 256 ^ 4 from fits)]
  · rw [globalId?, if_pos long, readI64_globalId]
  · simp [isTombstoned, Nat.not_lt.mpr long, flag]

/-- A named record with a two-byte key, written after a one-byte buffer and read back with a
byte after it. -/
theorem encode_roundTrip_sample
    : encodedLen ⟨7, 0, some "cpu", some ⟨#[1, 2]⟩, true⟩ < 2 ^ 32 ∧
      ∃ b, encode ⟨7, 0, some "cpu", some ⟨#[1, 2]⟩, true⟩ = .ok b ∧
        encodeInto ⟨7, 0, some "cpu", some ⟨#[1, 2]⟩, true⟩ ⟨#[9]⟩ = .ok (⟨#[9]⟩ ++ b) ∧
        b.size = encodedLen ⟨7, 0, some "cpu", some ⟨#[1, 2]⟩, true⟩ ∧
        declaredSize b = some (encodedLen ⟨7, 0, some "cpu", some ⟨#[1, 2]⟩, true⟩) ∧
        globalId? b = some 7 ∧ isTombstoned b = false ∧
        decode (b ++ ⟨#[0]⟩) = .ok (readBack ⟨7, 0, some "cpu", some ⟨#[1, 2]⟩, true⟩) :=
  ⟨by decide, encode_roundTrip _ (by decide) _ _⟩

-----------------------------------------------------------------------------------------
-- The bytes a log holds for a record
-----------------------------------------------------------------------------------------

/-- The bytes a log holds for a record: its binary form, with the flag byte cleared once the
record is deleted. -/
def stored (r : Identity) : ByteArray :=
  if r.tombstoned then overwrite (encodeUnchecked r) 0 ⟨#[flagDeleted]⟩ else encodeUnchecked r

theorem stored_live {r : Identity} (live : r.tombstoned = false) : stored r = encodeUnchecked r := by
  simp [stored, live]

theorem getElem?_stored_flag (r : Identity)
    : (stored r)[0]? = some (if r.tombstoned then flagDeleted else flagLive) := by
  unfold stored
  split
  · rw [getElem?_overwrite, if_pos (by simp)]
    rfl
  · rw [getElem?_encodeUnchecked, if_pos (by decide)]

theorem getElem?_stored {r : Identity} {i : Nat} (past : 0 < i)
    : (stored r)[i]? = (encodeUnchecked r)[i]? := by
  unfold stored
  split
  · have within := encodeUnchecked_size_pos r
    rw [getElem?_overwrite, if_neg (by simp; omega)]
    by_cases inside : i < (encodeUnchecked r).size
    · rw [if_pos inside]
    · rw [if_neg inside, if_neg (by simp; omega), getElem?_neg (encodeUnchecked r) i inside]
  · rfl

theorem size_stored (r : Identity) : (stored r).size = encodedLen r := by
  unfold stored
  split
  · rw [size_overwrite, size_encodeUnchecked]
    have := encodeUnchecked_size_pos r
    rw [size_encodeUnchecked] at this
    simp only [size_mk, List.size_toArray, List.length_singleton]
    omega
  · exact size_encodeUnchecked r

/-- A record the log holds reads back as itself, deleted or not. -/
theorem decode_stored {r : Identity} (c : Canonical r) : decode (stored r) = .ok r := by
  rw [decode_of_layout c (size_stored r) fun _ past => getElem?_stored past, getElem?_stored_flag]
  cases r with
  | mk g t name key deleted => cases deleted <;> rfl

theorem globalId?_stored (r : Identity) : globalId? (stored r) = some r.globalId := by
  have long : headerSize ≤ (stored r).size := by
    rw [size_stored, encodedLen]
    omega
  have same : ∀ j, j < 8 → (stored r)[5 + j]? = (encodeUnchecked r)[5 + j]? :=
    fun _ _ => getElem?_stored (by omega)
  rw [globalId?, if_pos long, readI64_congr same, readI64_globalId]

theorem isTombstoned_stored (r : Identity) : isTombstoned (stored r) = r.tombstoned := by
  have long : ¬ (stored r).size < headerSize := by
    rw [size_stored, encodedLen]
    omega
  rw [isTombstoned, getElem?_stored_flag]
  cases h : r.tombstoned <;> simp [long, flagDeleted, flagLive]

/-- Clearing the flag byte of a live record's bytes gives the bytes of the deleted record. -/
theorem overwrite_flag_stored {r : Identity} (live : r.tombstoned = false)
    : overwrite (stored r) 0 ⟨#[flagDeleted]⟩ = stored { r with tombstoned := true } := by
  simp only [stored, live, Bool.false_eq_true, if_false, if_true]
  rfl

end MetricRegistry.Record
