import MetricRegistry.Core.Instances

/-! Instants in milliseconds since 1970 as RFC 3339 text in UTC, by whole 400-year eras; instants
whose year falls outside -262143 to 262142 have no text. -/

namespace MetricRegistry.Time

/-- Milliseconds in a day. -/
def dayMillis : Int := 86400000

/-- Days in a 400-year era of the Gregorian calendar. -/
def eraDays : Int := 146097

/-- A date of the proleptic Gregorian calendar. -/
structure CivilDate where
  year : Int
  month : Nat
  day : Nat
  deriving DecidableEq, Repr

/-- The date `days` days after 1970-01-01. Days are counted from 0000-03-01, so that the leap
day ends each year; `era` is the 400-year era and `dayOfEra` the day within it. -/
def CivilDate.ofDays (days : Int) : CivilDate :=
  let z := days + 719468
  let era := z / eraDays
  let dayOfEra := (z % eraDays).toNat
  let yearOfEra := (dayOfEra - dayOfEra / 1460 + dayOfEra / 36524 - dayOfEra / 146096) / 365
  let dayOfYear := dayOfEra - (365 * yearOfEra + yearOfEra / 4 - yearOfEra / 100)
  let shifted := (5 * dayOfYear + 2) / 153
  let day := dayOfYear - (153 * shifted + 2) / 5 + 1
  let month := if shifted < 10 then shifted + 3 else shifted - 9
  let year := (yearOfEra : Int) + era * 400 + (if month ≤ 2 then 1 else 0)
  { year, month, day }

/-- A number in at least `width` digits, zeros in front. -/
def padded (width n : Nat) : String :=
  let digits := toString n
  String.ofList (List.replicate (width - digits.length) '0') ++ digits

/-- A year as RFC 3339 writes it: four digits from 0 to 9999, else a sign and four or more
digits. -/
def yearText (y : Int) : String :=
  if 0 ≤ y ∧ y ≤ 9999 then padded 4 y.toNat
  else (if y < 0 then "-" else "+") ++ padded 4 y.natAbs

/-- Years that have a text. -/
def yearInRange (y : Int) : Bool := -262143 ≤ y && y ≤ 262142

/-- The RFC 3339 text of an instant given in milliseconds since the epoch. -/
def rfc3339OfMillis (ms : Int) : Option String :=
  let date := CivilDate.ofDays (ms / dayMillis)
  let ofDay := (ms % dayMillis).toNat
  let seconds := ofDay / 1000
  let millis := ofDay % 1000
  if yearInRange date.year then
    some (yearText date.year ++ "-" ++ padded 2 date.month ++ "-" ++ padded 2 date.day ++ "T" ++
      padded 2 (seconds / 3600) ++ ":" ++ padded 2 (seconds / 60 % 60) ++ ":" ++
      padded 2 (seconds % 60) ++ (if millis = 0 then "" else "." ++ padded 3 millis) ++ "Z")
  else none

end MetricRegistry.Time
