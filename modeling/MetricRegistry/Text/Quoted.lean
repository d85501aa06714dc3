import MetricRegistry.Core.Instances

/-! Texts shown quoted in messages: between double quotes, with quotes, backslashes and control
characters escaped. -/

namespace MetricRegistry.Text

/-- The lowercase hexadecimal digits of a number. -/
def hexDigits (n : Nat) : String := String.ofList (Nat.toDigits 16 n)

/-- A character inside a quoted text. -/
def quotedChar (c : Char) : String :=
  if c = '"' then "\\\""
  else if c = '\\' then "\\\\"
  else if c = '\t' then "\\t"
  else if c = '\r' then "\\r"
  else if c = '\n' then "\\n"
  else if c.toNat = 0 then "\\0"
  else if c.toNat < 0x20 || (0x7F ≤ c.toNat && c.toNat < 0xA0) then
    "\\u\x7b" ++ hexDigits c.toNat ++ "\x7d"
  else c.toString

/-- A text between double quotes, escaped. -/
def quoted (s : String) : String :=
  "\"" ++ s.foldl (fun acc c => acc ++ quotedChar c) "" ++ "\""

end MetricRegistry.Text
