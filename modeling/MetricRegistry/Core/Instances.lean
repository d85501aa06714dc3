/-! The core instances for powers, the zero of the naturals and equality of byte strings, pinned
above those of an algebra library, so a definition is the same term with or without it. -/

namespace MetricRegistry

/-- Powers of naturals are the core ones, also for a numeral exponent; a numeral base whose type
is not yet known is taken as a natural first, as numerals are. -/
@[default_instance high + 2]
instance (priority := 1100) natPow : Pow Nat Nat := instPowNat

/-- Powers of integers by naturals are the core ones, also for a numeral exponent. -/
@[default_instance high + 1]
instance (priority := 1100) intPow : Pow Int Nat := instPowNat

/-- The zero of the naturals, as sums over lists use it. -/
instance (priority := 1100) natZero : Zero Nat := ⟨0⟩

/-- Byte strings are equal when their bytes are. -/
instance (priority := 1100) byteArrayDecEq : DecidableEq ByteArray := ByteArray.instDecidableEq

end MetricRegistry
