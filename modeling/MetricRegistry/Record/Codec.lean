import MetricRegistry.Bytes.Word
import MetricRegistry.Text.Utf8
import MetricRegistry.Record.Identity
import MetricRegistry.Store.Error

/-! The binary form of a record: a 29-byte header (flag, total size, id, creation time, name and
key lengths, little-endian), then the name's UTF-8 bytes and the opaque key. Reading accepts
exactly a consistent total size within the input and a UTF-8 name. -/

namespace MetricRegistry.Record

/-- Bytes in the fixed header. -/
def headerSize : Nat := 29

/-- The flag byte of a live record. -/
def flagLive : UInt8 := 1

/-- The flag byte written to delete a record in place. -/
def flagDeleted : UInt8 := 0

/-- The largest value of a 32-bit length field. -/
def maxU32 : Nat := 2 ^ 32 - 1

/-- The name's bytes, empty when there is no name. -/
def nameBytes (r : Identity) : ByteArray := (r.name.map String.toUTF8).getD ByteArray.empty

/-- The opaque key's bytes, empty when there is none. -/
def keyBytes (r : Identity) : ByteArray := r.opaqueKey.getD ByteArray.empty

/-- The size of a record's binary form. -/
def encodedLen (r : Identity) : Nat := headerSize + (nameBytes r).size + (keyBytes r).size

/-- A length that must fit a 32-bit field. -/
def checkedU32 (len : Nat) (what : String) : Except StoreError Nat :=
  if len ≤ maxU32 then .ok len else .error (.capacityExceeded s!"{what} of {len} bytes")

/-- The header and payload of a record, flag live. -/
def encodeUnchecked (r : Identity) : ByteArray :=
  let name := nameBytes r
  let key := keyBytes r
  ByteArray.mk #[flagLive]
    ++ Bytes.encodeLE 4 (headerSize + name.size + key.size)
    ++ Bytes.encodeI64 r.globalId
    ++ Bytes.encodeI64 r.createdAt
    ++ Bytes.encodeLE 4 name.size
    ++ Bytes.encodeLE 4 key.size
    ++ name ++ key

/-- The binary form of a record, once every length fits its field. -/
def encode (r : Identity) : Except StoreError ByteArray := do
  let _ ← checkedU32 (nameBytes r).size "name"
  let _ ← checkedU32 (keyBytes r).size "opaque key"
  let _ ← checkedU32 (encodedLen r) "record"
  pure (encodeUnchecked r)

/-- `buf` followed by the binary form of `r`. -/
def encodeInto (r : Identity) (buf : ByteArray) : Except StoreError ByteArray :=
  (encode r).map (buf ++ ·)

/-- The total size field, once the header is complete. -/
def declaredSize (bytes : ByteArray) : Option Nat :=
  if bytes.size ≥ headerSize then some (Bytes.readLE bytes 1 4) else none

/-- The global id field, once the header is complete. -/
def globalId? (bytes : ByteArray) : Option Int64 :=
  if bytes.size ≥ headerSize then some (Bytes.readI64 bytes 5) else none

/-- A record reads as deleted when its header is incomplete or its flag is not live. -/
def isTombstoned (bytes : ByteArray) : Bool :=
  bytes.size < headerSize || bytes[0]?.getD 0 != flagLive

/-- Reads a record from the start of `bytes`. -/
def decode (bytes : ByteArray) : Except StoreError Identity := do
  let len := bytes.size
  if len < headerSize then
    throw (.corruptRecord s!"{len} bytes is smaller than the 29 byte header")
  let total := Bytes.readLE bytes 1 4
  let nameLen := Bytes.readLE bytes 21 4
  let keyLen := Bytes.readLE bytes 25 4
  if total != headerSize + nameLen + keyLen || total > len then
    throw (.corruptRecord
      s!"size {total} doesn't match header + name {nameLen} + opaque {keyLen} (have {len} bytes)")
  let name ← if nameLen = 0 then pure none else
    match Text.decodeUtf8 (Bytes.slice bytes headerSize (headerSize + nameLen)) with
    | .ok text => pure (some text)
    | .error e =>
      let why := e.message
      throw (.corruptRecord s!"name is not UTF-8: {why}")
  let key := if keyLen = 0 then none else some (Bytes.slice bytes (headerSize + nameLen) total)
  pure { globalId := Bytes.readI64 bytes 5, createdAt := Bytes.readI64 bytes 13,
         name, opaqueKey := key, tombstoned := bytes[0]?.getD 0 != flagLive }

end MetricRegistry.Record
