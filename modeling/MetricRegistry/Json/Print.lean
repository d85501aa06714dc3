import MetricRegistry.Json.Basic
import MetricRegistry.Text.Shortest
import MetricRegistry.Bytes.Hex

/-! Writing JSON, compact or indented: strings escaped as the interchange format requires, whole
numbers exactly, doubles in the interchange layout and `null` when not finite. -/

namespace MetricRegistry.Json

/-- A character inside a quoted string. -/
def escapeChar (c : Char) : String :=
  if c = '"' then "\\\""
  else if c = '\\' then "\\\\"
  else if c.toNat = 8 then "\\b"
  else if c.toNat = 12 then "\\f"
  else if c = '\n' then "\\n"
  else if c = '\r' then "\\r"
  else if c = '\t' then "\\t"
  else if c.toNat < 32 then
    "\\u00" ++ String.singleton (Bytes.hexDigit (c.toNat / 16)) ++
      String.singleton (Bytes.hexDigit (c.toNat % 16))
  else String.singleton c

/-- A string as a quoted JSON string. -/
def quote (s : String) : String :=
  "\"" ++ s.foldl (fun acc c => acc ++ escapeChar c) "" ++ "\""

/-- The text of a double: its interchange layout, or `null` when it is not finite. -/
def floatText (x : Float) : String :=
  if x.isNaN || x.isInf then "null" else Text.exchangeText x

mutual

/-- The compact text of a value. -/
def compact : Json → String
  | .null => "null"
  | .bool b => if b then "true" else "false"
  | .int n => toString n
  | .float x => floatText x
  | .str s => quote s
  | .arr items => "[" ++ ",".intercalate (compactItems items) ++ "]"
  | .obj fields => "\x7b" ++ ",".intercalate (compactFields fields) ++ "\x7d"

/-- The compact texts of array items. -/
def compactItems : List Json → List String
  | [] => []
  | j :: rest => compact j :: compactItems rest

/-- The compact texts of object fields, each key with its value. -/
def compactFields : List (String × Json) → List String
  | [] => []
  | (k, j) :: rest => (quote k ++ ":" ++ compact j) :: compactFields rest

end

/-- Spaces for `depth` levels of indentation. -/
def indent (depth : Nat) : String := String.ofList (List.replicate (2 * depth) ' ')

mutual

/-- The indented text of a value whose first line is already `depth` levels deep. -/
def pretty (depth : Nat) : Json → String
  | .arr [] => "[]"
  | .obj [] => "\x7b\x7d"
  | .arr items =>
    "[\n" ++ ",\n".intercalate (prettyItems (depth + 1) items) ++ "\n" ++ indent depth ++ "]"
  | .obj fields =>
    "\x7b\n" ++ ",\n".intercalate (prettyFields (depth + 1) fields) ++ "\n" ++ indent depth ++
      "\x7d"
  | .null => "null"
  | .bool b => if b then "true" else "false"
  | .int n => toString n
  | .float x => floatText x
  | .str s => quote s

/-- Indented array items, each on its own line at `depth`. -/
def prettyItems (depth : Nat) : List Json → List String
  | [] => []
  | j :: rest => (indent depth ++ pretty depth j) :: prettyItems depth rest

/-- Indented object fields, each on its own line at `depth`. -/
def prettyFields (depth : Nat) : List (String × Json) → List String
  | [] => []
  | (k, j) :: rest => (indent depth ++ quote k ++ ": " ++ pretty depth j) :: prettyFields depth rest

end

end MetricRegistry.Json
