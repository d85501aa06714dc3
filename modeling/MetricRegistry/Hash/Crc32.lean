import MetricRegistry.Core.Instances

/-!
The CRC-32 checksum of ISO-HDLC: the reflected polynomial 0xEDB88320, initial value and final
exclusive or all ones, computed one bit at a time.
-/

namespace MetricRegistry.Hash

/-- The reflected generator polynomial. -/
def crcPolynomial : UInt32 := 0xEDB88320

/-- One shift of the register: right by one bit, folding in the polynomial when a one falls
out. -/
def crcBit (r : UInt32) : UInt32 :=
  if r &&& 1 = 1 then (r >>> 1) ^^^ crcPolynomial else r >>> 1

/-- `n` shifts of the register; eight of them follow each byte that is xor-ed in. -/
def crcShift : Nat → UInt32 → UInt32
  | 0, r => r
  | n + 1, r => crcShift n (crcBit r)

/-- The register after one byte. -/
def crcStep (r : UInt32) (b : UInt8) : UInt32 :=
  crcShift 8 (r ^^^ b.toUInt32)

/-- The CRC-32 of a byte string. -/
def crc32 (bytes : ByteArray) : UInt32 :=
  (bytes.foldl crcStep 0xFFFFFFFF) ^^^ 0xFFFFFFFF

end MetricRegistry.Hash
