import MetricRegistry.Core.Instances

/-!
Little-endian words inside byte strings. Records and log headers store every integer least
significant byte first; a word is read from a position and written as a fixed number of bytes.
-/

namespace MetricRegistry.Bytes

/-- The natural number whose `width` bytes start at `pos`, least significant first. A byte past
the end of `bytes` reads as zero, so a caller checks the length first where that matters. -/
def readLE (bytes : ByteArray) (pos : Nat) : Nat → Nat
  | 0 => 0
  | width + 1 => (bytes[pos]?.getD 0).toNat + 256 * readLE bytes (pos + 1) width

/-- The `width` bytes of `n`, least significant first; bits above `8 * width` are dropped. -/
def toListLE : Nat → Nat → List UInt8
  | 0, _ => []
  | width + 1, n => UInt8.ofNat (n % 256) :: toListLE width (n / 256)

/-- The `width` little-endian bytes of `n` as a byte string. -/
def encodeLE (width n : Nat) : ByteArray :=
  ⟨(toListLE width n).toArray⟩

/-- The unsigned 32-bit word at `pos`. -/
def readU32 (bytes : ByteArray) (pos : Nat) : UInt32 :=
  (readLE bytes pos 4).toUInt32

/-- The unsigned 64-bit word at `pos`. -/
def readU64 (bytes : ByteArray) (pos : Nat) : UInt64 :=
  (readLE bytes pos 8).toUInt64

/-- The signed 64-bit word at `pos`, in two's complement. -/
def readI64 (bytes : ByteArray) (pos : Nat) : Int64 :=
  (readU64 bytes pos).toInt64

/-- The eight bytes of a signed 64-bit word, in two's complement. -/
def encodeI64 (n : Int64) : ByteArray :=
  encodeLE 8 n.toUInt64.toNat

/-- The bytes `bytes[start], …, bytes[stop - 1]`, cut to what exists. -/
def slice (bytes : ByteArray) (start stop : Nat) : ByteArray :=
  bytes.extract start stop

/-- `bytes` with `patch` written from `pos` on, grown with zero bytes where it is too short. -/
def overwrite (bytes : ByteArray) (pos : Nat) (patch : ByteArray) : ByteArray :=
  let grown :=
    if bytes.size < pos + patch.size then
      bytes ++ ⟨Array.replicate (pos + patch.size - bytes.size) 0⟩
    else bytes
  patch.copySlice 0 grown pos patch.size

/-- `bytes` cut or grown with zero bytes to exactly `len` bytes. -/
def resize (bytes : ByteArray) (len : Nat) : ByteArray :=
  if len ≤ bytes.size then bytes.extract 0 len
  else bytes ++ ⟨Array.replicate (len - bytes.size) 0⟩

end MetricRegistry.Bytes
