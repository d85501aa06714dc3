import MetricRegistry.Core.Instances

/-! JSON values: whole numbers kept exactly, other numbers as doubles, object fields in order. -/

namespace MetricRegistry

/-- A JSON value. -/
inductive Json where
  | null
  | bool (b : Bool)
  /-- A whole number, written without fraction or exponent. -/
  | int (n : Int)
  /-- A number written with a fraction or an exponent. -/
  | float (x : Float)
  | str (s : String)
  | arr (items : List Json)
  | obj (fields : List (String × Json))
  deriving Inhabited

namespace Json

/-- The value of field `key`, the first one when it repeats. -/
def field? (j : Json) (key : String) : Option Json :=
  match j with
  | .obj fields => (fields.find? (·.1 == key)).map (·.2)
  | _ => none

/-- The field's value unless it is missing or null. -/
def present? (j : Json) (key : String) : Option Json :=
  match j.field? key with
  | some .null => none
  | other => other

/-- The text of a string value. -/
def str? : Json → Option String
  | .str s => some s
  | _ => none

/-- The whole number of an integer value. -/
def int? : Json → Option Int
  | .int n => some n
  | _ => none

/-- The truth value of a boolean. -/
def bool? : Json → Option Bool
  | .bool b => some b
  | _ => none

/-- The items of an array. -/
def arr? : Json → Option (List Json)
  | .arr xs => some xs
  | _ => none

/-- The fields of an object. -/
def obj? : Json → Option (List (String × Json))
  | .obj fs => some fs
  | _ => none

/-- An optional text as a string or null. -/
def ofOption {α : Type} (f : α → Json) : Option α → Json
  | some a => f a
  | none => .null

/-- A signed word as a whole number. -/
def ofInt64 (n : Int64) : Json := .int n.toInt

/-- A natural number as a whole number. -/
def ofNat (n : Nat) : Json := .int n

end Json

end MetricRegistry
