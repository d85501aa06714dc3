import MetricRegistry.Core.Instances

/-! TOML values, with tables in the order written, and the reasons a TOML text is refused. -/

namespace MetricRegistry.Toml

/-- A TOML value. -/
inductive Value where
  | str (s : String)
  | int (n : Int)
  | float (x : Float)
  | bool (b : Bool)
  /-- An offset or local date-time, date or time, as written. -/
  | datetime (text : String)
  | arr (items : List Value)
  | table (entries : List (String × Value))
  deriving Inhabited

namespace Value

/-- The value of a key in a table. -/
def field? (v : Value) (key : String) : Option Value :=
  match v with
  | .table entries => (entries.find? (·.1 == key)).map (·.2)
  | _ => none

end Value

/-- Why a TOML text is refused. -/
inductive Fault where
  /-- The text does not follow the grammar. -/
  | grammar
  /-- A key or a table is defined twice, or a table is extended where it may not be. -/
  | duplicate
  /-- A number, date or time is outside its range. -/
  | outOfRange
  /-- A value does not have the type or the range that its key needs. -/
  | invalidValue
  deriving DecidableEq, Repr

/-- A short text for the kind of a fault. -/
def Fault.message : Fault → String
  | .grammar => "text is not valid TOML"
  | .duplicate => "duplicate key or table"
  | .outOfRange => "value out of range"
  | .invalidValue => "invalid value for a setting"

/-- A step of reading: a value and the characters after it. -/
abbrev Step (α : Type) := List Char → Except Fault (α × List Char)

end MetricRegistry.Toml
