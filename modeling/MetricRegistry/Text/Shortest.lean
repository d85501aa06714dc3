import MetricRegistry.Core.Instances

/-! Shortest decimal text of a double, found in exact arithmetic, written in a plain layout or in
the interchange layout that keeps `.0` and switches to an exponent outside `[1e-5, 1e16)`. -/

namespace MetricRegistry.Text

/-- A double taken apart: sign, and either a finite value `m · 2^q` with its lower interval end
narrower (at a power of two), or an infinity, or NaN. -/
inductive FloatParts where
  | finite (negative : Bool) (m : Nat) (q : Int) (narrowBelow : Bool)
  | infinite (negative : Bool)
  | nan

/-- The parts of a double, read from its bits. -/
def FloatParts.ofFloat (x : Float) : FloatParts :=
  let bits := x.toBits.toNat
  let negative := bits / 2 ^ 63 = 1
  let field : Nat := (bits / 2 ^ 52) % 2 ^ 11
  let fraction : Nat := bits % 2 ^ 52
  if field = 2047 then (if fraction = 0 then .infinite negative else .nan)
  else if field = 0 then .finite negative fraction (-1074) false
  else .finite negative (fraction + 2 ^ 52) ((field : Int) - 1075) (fraction = 0 ∧ field > 1)

/-- `a · 2^k` for an integer `k`, as a fraction over a power of two: numerator and denominator. -/
def scaled (a : Nat) (k : Int) : Nat × Nat :=
  if 0 ≤ k then (a * 2 ^ k.toNat, 1) else (a, 2 ^ (-k).toNat)

/-- Number of decimal digits of `n` (one for zero). -/
def digitCount (n : Nat) : Nat :=
  if n < 10 then 1 else digitCount (n / 10) + 1
termination_by n
decreasing_by omega

/-- `num / den · 10^(-e)` compared with the integer `c`: the order of `c · 10^e` and
`num / den`. -/
def compareScaled (c : Nat) (e : Int) (num den : Nat) : Ordering :=
  if 0 ≤ e then compare (c * 10 ^ e.toNat * den) num
  else compare (c * den) (num * 10 ^ (-e).toNat)

/-- `⌊num / (den · 10^e)⌋`. -/
def floorScaled (num den : Nat) (e : Int) : Nat :=
  if 0 ≤ e then num / (den * 10 ^ e.toNat) else num * 10 ^ (-e).toNat / den

/-- `⌊log10 (num / den)⌋` for a positive fraction. -/
def floorLog10 (num den : Nat) : Int :=
  let k : Int := (digitCount num : Int) - (digitCount den : Int)
  if compareScaled 1 k num den != .gt then k else k - 1

/-- The shortest digits `c` and exponent `e` with `c · 10^e` reading back as `m · 2^q`. -/
def shortestDigits (m : Nat) (q : Int) (narrowBelow : Bool) : Nat × Int :=
  let (v, den) := scaled (4 * m) q
  let (lo, _) := scaled (4 * m - (if narrowBelow then 1 else 2)) q
  let (hi, _) := scaled (4 * m + 2) q
  let den := 4 * den
  let closed := m % 2 = 0
  let inside (c : Nat) (e : Int) : Bool :=
    let below := compareScaled c e lo den
    let above := compareScaled c e hi den
    (below == .gt || (closed && below == .eq)) && (above == .lt || (closed && above == .eq))
  let top := floorLog10 v den
  let pick : Nat → Option (Nat × Int) := fun p =>
    let e := top - (p : Int) + 1
    let c0 := floorScaled v den e
    let c1 := c0 + 1
    match inside c0 e, inside c1 e with
    | true, true =>
      -- distances to the value, both times 10^e · den
      let d0 := if 0 ≤ e then v - c0 * 10 ^ e.toNat * den else v * 10 ^ (-e).toNat - c0 * den
      let d1 := if 0 ≤ e then c1 * 10 ^ e.toNat * den - v else c1 * den - v * 10 ^ (-e).toNat
      if d0 < d1 then some (c0, e) else if d1 < d0 then some (c1, e)
      else if c0 % 2 = 0 then some (c0, e) else some (c1, e)
    | true, false => some (c0, e)
    | false, true => some (c1, e)
    | false, false => none
  let found := (List.range 17).findSome? (fun i => pick (i + 1))
  found.getD (floorScaled v den (top - 16), top - 16)

/-- Digits without trailing zeros, the exponent raised to match. -/
def trimZeros (c : Nat) (e : Int) : Nat × Int :=
  if c ≠ 0 ∧ c % 10 = 0 then trimZeros (c / 10) (e + 1) else (c, e)
termination_by c
decreasing_by omega

/-- The shortest decimal of a finite value: digit string and the power of ten of its first
digit's place plus one, so that the value is `0.d₁d₂… · 10^point`. -/
def shortestDecimal (m : Nat) (q : Int) (narrowBelow : Bool) : String × Int :=
  if m = 0 then ("0", 1)
  else
    let (c, e) := shortestDigits m q narrowBelow
    let (c, e) := trimZeros c e
    let digits := toString c
    (digits, e + digits.length)

/-- `n` zeros. -/
def zeros (n : Nat) : String := String.ofList (List.replicate n '0')

/-- The plain layout: positional always, no fractional part when the value is whole, `NaN`,
`inf` and `-inf` for the values that are not finite. -/
def plainText (x : Float) : String :=
  match FloatParts.ofFloat x with
  | .nan => "NaN"
  | .infinite neg => if neg then "-inf" else "inf"
  | .finite neg m q narrow =>
    let sign := if neg then "-" else ""
    let (digits, point) := shortestDecimal m q narrow
    let len : Int := digits.length
    let body :=
      if point ≤ 0 then "0." ++ zeros (-point).toNat ++ digits
      else if len ≤ point then digits ++ zeros (point - len).toNat
      else
        let whole := (digits.toList.take point.toNat)
        let frac := (digits.toList.drop point.toNat)
        String.ofList whole ++ "." ++ String.ofList frac
    sign ++ body

/-- The interchange layout of a finite value: positional with `.0` for whole values when the
first digit's place is below 10^16 and above 10^-6, otherwise one digit, a point and the rest
when there is a rest, then `e` and the exponent. -/
def exchangeText (x : Float) : String :=
  match FloatParts.ofFloat x with
  | .nan => "NaN"
  | .infinite neg => if neg then "-inf" else "inf"
  | .finite neg m q narrow =>
    let sign := if neg then "-" else ""
    let (digits, point) := shortestDecimal m q narrow
    let len : Int := digits.length
    let body :=
      if m = 0 then "0.0"
      else if len ≤ point ∧ point ≤ 16 then digits ++ zeros (point - len).toNat ++ ".0"
      else if 0 < point ∧ point ≤ 16 then
        String.ofList (digits.toList.take point.toNat) ++ "." ++
          String.ofList (digits.toList.drop point.toNat)
      else if -5 < point ∧ point ≤ 0 then "0." ++ zeros (-point).toNat ++ digits
      else
        let exp := point - 1
        let mant := if len = 1 then digits
          else String.ofList (digits.toList.take 1) ++ "." ++ String.ofList (digits.toList.drop 1)
        mant ++ "e" ++ toString exp
    sign ++ body

/-- `num / den` rounded to a whole number, a tie to the even one. -/
def roundHalfEven (num den : Nat) : Nat :=
  let q := num / den
  let r := num % den
  if 2 * r > den then q + 1
  else if 2 * r < den then q
  else if q % 2 = 0 then q else q + 1

/-- The value with exactly `places` digits after the point, rounded to nearest, a tie to even. -/
def fixedText (x : Float) (places : Nat) : String :=
  match FloatParts.ofFloat x with
  | .nan => "NaN"
  | .infinite neg => if neg then "-inf" else "inf"
  | .finite neg m q _ =>
    let (num, den) := scaled m q
    let n := roundHalfEven (num * 10 ^ places) den
    let digits := toString n
    let digits := zeros (places + 1 - digits.length) ++ digits
    let cut := digits.length - places
    let whole := String.ofList (digits.toList.take cut)
    let frac := String.ofList (digits.toList.drop cut)
    (if neg then "-" else "") ++ whole ++ (if places = 0 then "" else "." ++ frac)

end MetricRegistry.Text
