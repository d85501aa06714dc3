import MetricRegistry.Core.Instances

/-! Reading decimal numbers as doubles, rounded to nearest with ties to even; exponents far
outside the range of doubles are settled without computing their powers. -/

namespace MetricRegistry.Text

/-- The number of decimal digits of `n`; 1 for zero. -/
def decimalLength (n : Nat) : Nat := (toString n).length

/-- `mantissa · 10^exponent` rounded to the nearest double. -/
def decimalToFloat (mantissa : Nat) (exponent : Int) : Float :=
  if mantissa = 0 then 0.0
  else if exponent > 310 then 1.0 / 0.0
  else if exponent + decimalLength mantissa < -330 then 0.0
  else if exponent ≥ 0 then Float.ofScientific mantissa false exponent.toNat
  else Float.ofScientific mantissa true (-exponent).toNat

end MetricRegistry.Text
