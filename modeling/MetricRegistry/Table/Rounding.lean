import MetricRegistry.Text.Shortest

/-! Binary64 arithmetic of table sizing, computed exactly over rationals: each double operation
rounds to the nearest double, ties to even, and the result saturates at the largest word. -/

namespace MetricRegistry.Table

/-- `⌊log2 x⌋` of a positive rational. -/
def floorLog2 (x : Rat) : Int :=
  let k : Int := (x.num.toNat.log2 : Int) - (x.den.log2 : Int)
  if (2 : Rat) ^ k ≤ x then k else k - 1

/-- The nearest integer, ties to the even one. -/
def roundHalfEven (x : Rat) : Int :=
  let f := x.floor
  let r := x - f
  if r < 1 / 2 ∨ (r = 1 / 2 ∧ f % 2 = 0) then f else f + 1

/-- The place of the last significand bit of the double nearest a positive `x`. -/
def lastPlace (x : Rat) : Int := max (floorLog2 x - 52) (-1074)

/-- A non-negative rational rounded to the nearest double, ties to even. -/
def roundBinary64 (x : Rat) : Rat :=
  let e := lastPlace x
  (roundHalfEven (x / 2 ^ e) : Rat) * 2 ^ e

/-- The largest word. -/
def wordMax : Nat := 2 ^ 64 - 1

/-- An integer converted to a word, zero below and the largest word above. -/
def saturate (n : Int) : Nat := min n.toNat wordMax

/-- `entries / lf` rounded up to a word, as doubles compute it: the count converted to a
double, divided, rounded up and converted back. A quotient that is NaN, zero or negative gives
zero, and one past the largest word (an infinity among them) the largest word. -/
def ceilQuotient (entries : Nat) (lf : Float) : Nat :=
  let x := roundBinary64 entries.toUInt64.toNat
  match Text.FloatParts.ofFloat lf with
  | .finite negative m q _ =>
    -- `0 / lf` is zero or NaN, and a count over a negative divisor at most `-0`
    if x = 0 ∨ negative then 0
    else if m = 0 then wordMax
    else saturate (-(-roundBinary64 (x / (m * 2 ^ q))).floor)
  | .infinite _ => 0
  | .nan => 0

/-- `capacity · lf` rounded down to a word, as doubles compute it. A product that is NaN, zero
or negative gives zero, and one past the largest word the largest word. -/
def floorProduct (capacity : Nat) (lf : Float) : Nat :=
  let x := roundBinary64 capacity.toUInt64.toNat
  match Text.FloatParts.ofFloat lf with
  | .finite negative m q _ =>
    if negative then 0 else saturate (roundBinary64 (x * (m * 2 ^ q))).floor
  | .infinite negative =>
    -- `0 · ∞` is NaN
    if x = 0 ∨ negative then 0 else wordMax
  | .nan => 0

end MetricRegistry.Table
