import MetricRegistry.Bytes.Word
import MetricRegistry.Bytes.Hex
import MetricRegistry.Hash.Crc32
import MetricRegistry.Store.Error

/-! The 64-byte header of the offset index: magic `GIDX`, version, byte-order marker, record
count, data end, next id, reserved bytes and a CRC-32 of the first 60 bytes. Reading checks the
magic, the byte order, the checksum and the version, in that order. -/

namespace MetricRegistry.Log

/-- Bytes in the header. -/
def headerSize : Nat := 64

/-- The current format version. -/
def formatVersion : Nat := 1

/-- The byte-order marker as written on a little-endian machine. -/
def byteOrderMarker : Nat := 0x0102

/-- The magic bytes. -/
def magic : ByteArray := ⟨#[71, 73, 68, 88]⟩

/-- The header fields. -/
structure Header where
  version : Nat
  recordCount : Nat
  dataEnd : Nat
  nextId : Int64
  deriving DecidableEq, Repr

namespace Header

/-- The header of an empty log: no records, no data, ids from 1. -/
def fresh : Header := ⟨formatVersion, 0, 0, 1⟩

/-- The first 60 bytes: every field and the reserved zeros. -/
def body (h : Header) : ByteArray :=
  magic ++ Bytes.encodeLE 2 h.version ++ Bytes.encodeLE 2 byteOrderMarker ++
    Bytes.encodeLE 8 h.recordCount ++ Bytes.encodeLE 8 h.dataEnd ++ Bytes.encodeI64 h.nextId ++
    ⟨Array.replicate 28 0⟩

/-- The 64 bytes of a header, checksum last. -/
def encode (h : Header) : ByteArray :=
  let b := h.body
  b ++ Bytes.encodeLE 4 (Hash.crc32 b).toNat

/-- A number as `0x` and four lowercase hexadecimal digits at least. -/
def hex4 (n : Nat) : String :=
  let digits := Bytes.hexNat n
  "0x" ++ String.ofList (List.replicate (4 - digits.length) '0') ++ digits

/-- Reads a header from its 64 bytes. -/
def decode (raw : ByteArray) : Except StoreError Header := do
  let head := (raw.extract 0 4).toList
  if head != magic.toList then
    let shown := ", ".intercalate (head.map fun b => toString b.toNat)
    throw (.invalidLog s!"Invalid magic: [{shown}]")
  let marker := Bytes.readLE raw 6 2
  if marker != byteOrderMarker then
    let shown := hex4 marker
    throw (.invalidLog s!"Log was written with a different byte order (marker {shown})")
  let stored := Bytes.readLE raw 60 4
  let computed := (Hash.crc32 (raw.extract 0 60)).toNat
  if stored != computed then
    throw (.invalidLog s!"Header checksum mismatch: stored={stored}, computed={computed}")
  let version := Bytes.readLE raw 4 2
  if version > formatVersion then throw (.invalidLog s!"Unsupported version: {version}")
  pure { version, recordCount := Bytes.readLE raw 8 8, dataEnd := Bytes.readLE raw 16 8,
         nextId := Bytes.readI64 raw 24 }

end Header

end MetricRegistry.Log
