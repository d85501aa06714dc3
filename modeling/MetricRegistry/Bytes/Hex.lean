import MetricRegistry.Core.Instances

/-! Hexadecimal text for byte strings: written in lowercase, read in either case, with the odd
digit count or the first non-digit and its position as the error. -/

namespace MetricRegistry.Bytes

/-- Why a text is not hexadecimal. -/
inductive HexError where
  /-- The text has an odd number of bytes. -/
  | oddLength
  /-- The byte at `pos` is no hexadecimal digit. -/
  | invalidChar (byte : UInt8) (pos : Nat)
  deriving DecidableEq, Repr

/-- The lowercase digit of a nibble. -/
def hexDigit (n : Nat) : Char :=
  if n < 10 then Char.ofNat (48 + n) else Char.ofNat (87 + n)

/-- Two lowercase digits a byte, high nibble first. -/
def hexEncode (bytes : ByteArray) : String :=
  bytes.foldl (fun acc b => (acc.push (hexDigit (b.toNat / 16))).push (hexDigit (b.toNat % 16))) ""

/-- The value of one hexadecimal digit byte, in either case. -/
def nibble? (b : UInt8) : Option Nat :=
  if 48 ≤ b.toNat ∧ b.toNat ≤ 57 then some (b.toNat - 48)
  else if 65 ≤ b.toNat ∧ b.toNat ≤ 70 then some (b.toNat - 55)
  else if 97 ≤ b.toNat ∧ b.toNat ≤ 102 then some (b.toNat - 87)
  else none

/-- Reads digit pairs from the list, `pos` being the position of its first byte. -/
def decodePairs : List UInt8 → Nat → Except HexError (List UInt8)
  | [], _ => .ok []
  | [_], _ => .error .oddLength
  | hi :: lo :: rest, pos =>
    match nibble? hi with
    | none => .error (.invalidChar hi pos)
    | some h => match nibble? lo with
      | none => .error (.invalidChar lo (pos + 1))
      | some l => (decodePairs rest (pos + 2)).map (UInt8.ofNat (16 * h + l) :: ·)

/-- The bytes written by a hexadecimal text, read from its UTF-8 bytes. -/
def hexDecodeBytes (text : ByteArray) : Except HexError ByteArray :=
  if text.size % 2 = 1 then .error .oddLength
  else (decodePairs text.toList 0).map fun bs => ⟨bs.toArray⟩

/-- The bytes written by a hexadecimal text. -/
def hexDecode (text : String) : Except HexError ByteArray :=
  hexDecodeBytes text.toUTF8

/-- Hexadecimal digits of `n` without leading zeros, lowercase. -/
def hexNat (n : Nat) : String :=
  String.ofList ((Nat.toDigits 16 n))

/-- A code point as a quoted character literal: common controls by their escape, a quote and a
backslash escaped, other controls and blanks other than space as a braced hexadecimal escape,
everything else itself. Only code points up to 0xFF reach it. -/
def charLiteral (c : Nat) : String :=
  let body :=
    if c = 0 then "\\0"
    else if c = 9 then "\\t"
    else if c = 10 then "\\n"
    else if c = 13 then "\\r"
    else if c = 39 then "\\'"
    else if c = 92 then "\\\\"
    else if c < 32 ∨ (127 ≤ c ∧ c ≤ 160) ∨ c = 173 then "\\u" ++ "\x7b" ++ hexNat c ++ "\x7d"
    else String.singleton (Char.ofNat c)
  "'" ++ body ++ "'"

/-- The message of a hexadecimal reading error. -/
def HexError.message : HexError → String
  | .oddLength => "Odd number of digits"
  | .invalidChar b pos =>
    let shown := charLiteral b.toNat
    s!"Invalid character {shown} at position {pos}"

end MetricRegistry.Bytes
