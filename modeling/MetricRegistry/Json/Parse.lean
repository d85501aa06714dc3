import MetricRegistry.Json.Basic
import MetricRegistry.Text.Utf8

/-! Reading JSON from bytes, with the error and the line and column where the reader stood.
Nesting past 127 levels is refused; nested values are read with a budget from the input length. -/

namespace MetricRegistry.Json

/-- What a JSON reader refused. -/
inductive SyntaxError where
  | eofWhileParsingValue
  | eofWhileParsingList
  | eofWhileParsingObject
  | eofWhileParsingString
  | expectedSomeValue
  | expectedSomeIdent
  | expectedListCommaOrEnd
  | expectedObjectCommaOrEnd
  | expectedColon
  | keyMustBeAString
  | trailingCharacters
  | trailingComma
  | invalidEscape
  | invalidNumber
  | numberOutOfRange
  | invalidUnicodeCodePoint
  | controlCharacterWhileParsingString
  | loneLeadingSurrogateInHexEscape
  | unexpectedEndOfHexEscape
  | recursionLimitExceeded
  deriving DecidableEq, Repr

/-- The text of a refusal. -/
def SyntaxError.text : SyntaxError → String
  | .eofWhileParsingValue => "EOF while parsing a value"
  | .eofWhileParsingList => "EOF while parsing a list"
  | .eofWhileParsingObject => "EOF while parsing an object"
  | .eofWhileParsingString => "EOF while parsing a string"
  | .expectedSomeValue => "expected value"
  | .expectedSomeIdent => "expected ident"
  | .expectedListCommaOrEnd => "expected `,` or `]`"
  | .expectedObjectCommaOrEnd => "expected `,` or `\x7d`"
  | .expectedColon => "expected `:`"
  | .keyMustBeAString => "key must be a string"
  | .trailingCharacters => "trailing characters"
  | .trailingComma => "trailing comma"
  | .invalidEscape => "invalid escape"
  | .invalidNumber => "invalid number"
  | .numberOutOfRange => "number out of range"
  | .invalidUnicodeCodePoint => "invalid unicode code point"
  | .controlCharacterWhileParsingString =>
    "control character (\\u0000-\\u001F) found while parsing a string"
  | .loneLeadingSurrogateInHexEscape => "lone leading surrogate in hex escape"
  | .unexpectedEndOfHexEscape => "unexpected end of hex escape"
  | .recursionLimitExceeded => "recursion limit exceeded"

/-- A refusal at a byte position of the input. -/
structure ParseError where
  error : SyntaxError
  pos : Nat
  deriving DecidableEq, Repr

/-- Line and column of byte position `pos`: lines count from one, the column is the number of
bytes since the last line break before `pos`. -/
def lineColumn (bytes : ByteArray) (pos : Nat) : Nat × Nat :=
  let before := (bytes.extract 0 pos).toList
  let lineStart := before.length - (before.reverse.takeWhile (· != 10)).length
  let lines := (before.take lineStart).count 10
  (lines + 1, pos - lineStart)

/-- The full message of a refusal: what, then where. -/
def ParseError.message (bytes : ByteArray) (e : ParseError) : String :=
  let (line, col) := lineColumn bytes e.pos
  let what := e.error.text
  s!"{what} at line {line} column {col}"


/-- The byte at `pos`, if any. -/
def byteAt (bytes : ByteArray) (pos : Nat) : Option UInt8 := bytes[pos]?

/-- A refusal where the reader stands. -/
def failAt {α : Type} (e : SyntaxError) (pos : Nat) : Except ParseError α := .error ⟨e, pos⟩

/-- A refusal one byte ahead of the reader, at most at the end of the input. -/
def failAhead {α : Type} (bytes : ByteArray) (e : SyntaxError) (pos : Nat) :
    Except ParseError α :=
  .error ⟨e, min bytes.size (pos + 1)⟩

/-- The position after blanks: space, tab, line feed and carriage return. -/
def skipBlanks (bytes : ByteArray) (pos : Nat) : Nat :=
  if h : pos < bytes.size then
    let b := bytes[pos]
    if b = 32 || b = 9 || b = 10 || b = 13 then skipBlanks bytes (pos + 1) else pos
  else pos
termination_by bytes.size - pos

/-- Value of a hexadecimal digit byte. -/
def hexValue (b : UInt8) : Option Nat :=
  let n := b.toNat
  if 48 ≤ n ∧ n ≤ 57 then some (n - 48)
  else if 65 ≤ n ∧ n ≤ 70 then some (n - 55)
  else if 97 ≤ n ∧ n ≤ 102 then some (n - 87)
  else none

/-- Four hexadecimal digits from `pos`. -/
def readHex4 (bytes : ByteArray) (pos : Nat) : Except ParseError (Nat × Nat) :=
  if pos + 4 > bytes.size then failAt .eofWhileParsingString bytes.size
  else
    let digit (i : Nat) : Except ParseError Nat :=
      match hexValue (bytes[pos + i]?.getD 0) with
      | some v => .ok v
      | none => failAt .invalidEscape (pos + i + 1)
    do
      let a ← digit 0
      let b ← digit 1
      let c ← digit 2
      let d ← digit 3
      pure (((a * 16 + b) * 16 + c) * 16 + d, pos + 4)

/-- The UTF-8 bytes of a code point. -/
def utf8Of (c : Nat) : List UInt8 :=
  (String.singleton (Char.ofNat c)).toUTF8.toList

/-- One escape after a backslash, the escape letter at `pos`: the bytes it stands for. With
`strict`, an unpaired surrogate is refused; without, the escape is only checked for its shape
and stands for nothing. -/
def readEscape (bytes : ByteArray) (strict : Bool) (pos : Nat) : Except ParseError ((List UInt8) × Nat) :=
  match byteAt bytes pos with
  | none => failAt .eofWhileParsingString pos
  | some c =>
    let after := pos + 1
    if c = 34 then .ok ([34], after)
    else if c = 92 then .ok ([92], after)
    else if c = 47 then .ok ([47], after)
    else if c = 98 then .ok ([8], after)
    else if c = 102 then .ok ([12], after)
    else if c = 110 then .ok ([10], after)
    else if c = 114 then .ok ([13], after)
    else if c = 116 then .ok ([9], after)
    else if c = 117 then do
      let (n, p) ← readHex4 bytes after
      if !strict then .ok ([], p)
      else if 0xDC00 ≤ n ∧ n ≤ 0xDFFF then failAt .loneLeadingSurrogateInHexEscape p
      else if 0xD800 ≤ n ∧ n ≤ 0xDBFF then
        match byteAt bytes p with
        | none => failAt .eofWhileParsingString p
        | some b1 =>
          if b1 != 92 then failAt .unexpectedEndOfHexEscape (p + 1)
          else match byteAt bytes (p + 1) with
            | none => failAt .eofWhileParsingString (p + 1)
            | some b2 =>
              if b2 != 117 then failAt .unexpectedEndOfHexEscape (p + 2)
              else do
                let (n2, p2) ← readHex4 bytes (p + 2)
                if n2 < 0xDC00 ∨ n2 > 0xDFFF then failAt .loneLeadingSurrogateInHexEscape p2
                else .ok (utf8Of ((n - 0xD800) * 1024 + (n2 - 0xDC00) + 0x10000), p2)
      else .ok (utf8Of n, p)
    else failAt .invalidEscape after

/-- The bytes of a string body from `pos` (after the opening quote) up to the closing quote,
escapes resolved, and the position after the closing quote. -/
def readStringBytes (bytes : ByteArray) (strict : Bool) (pos : Nat) (acc : Array UInt8) :
    Except ParseError ((Array UInt8) × Nat) :=
  if h : pos < bytes.size then
    let b := bytes[pos]
    if b = 34 then .ok (acc, pos + 1)
    else if b = 92 then
      match readEscape bytes strict (pos + 1) with
      | .error e => .error e
      | .ok (more, p) =>
        if pos < p then readStringBytes bytes strict p (acc ++ more.toArray)
        else failAt .eofWhileParsingString pos
    else if b < 32 then failAt .controlCharacterWhileParsingString (if strict then pos + 1 else pos)
    else readStringBytes bytes strict (pos + 1) (acc.push b)
  else failAt .eofWhileParsingString pos
termination_by bytes.size + 1 - pos

/-- A string body as text: refused when its bytes are not UTF-8. -/
def readString (bytes : ByteArray) (pos : Nat) : Except ParseError (String × Nat) := do
  let (raw, p) ← readStringBytes bytes true pos #[]
  match Text.decodeUtf8 ⟨raw⟩ with
  | .ok s => pure (s, p)
  | .error _ => failAt .invalidUnicodeCodePoint p

/-- Decimal digits from `pos`: their value, their count and the position after them. -/
def readDigits (bytes : ByteArray) (pos value count : Nat) : Nat × Nat × Nat :=
  if h : pos < bytes.size then
    let b := bytes[pos]
    if 48 ≤ b.toNat ∧ b.toNat ≤ 57 then readDigits bytes (pos + 1) (value * 10 + (b.toNat - 48)) (count + 1)
    else (value, count, pos)
  else (value, count, pos)
termination_by bytes.size - pos

/-- The largest unsigned word. -/
def maxWord : Nat := 2 ^ 64 - 1

/-- The number `mantissa · 10^exponent`, correctly rounded to a double, with the sign; refused
when it is too large for a double. -/
def toDouble (negative : Bool) (mantissa : Nat) (exponent : Int) (pos : Nat) :
    Except ParseError Json :=
  let x : Float :=
    if mantissa = 0 then 0.0
    else if exponent ≥ 0 then Float.ofScientific mantissa false exponent.toNat
    else Float.ofScientific mantissa true (-exponent).toNat
  if x.isInf then failAt .numberOutOfRange pos
  else .ok (.float (if negative then -x else x))

/-- A number after its optional minus sign, the first digit at `pos`. -/
def readNumber (bytes : ByteArray) (negative : Bool) (pos : Nat) : Except ParseError (Json × Nat) := do
  let first ← match byteAt bytes pos with
    | none => failAt .eofWhileParsingValue pos
    | some b => pure b
  if ¬(48 ≤ first.toNat ∧ first.toNat ≤ 57) then failAt .invalidNumber (pos + 1)
  let (whole, count, p) :=
    if first.toNat = 48 then (0, 1, pos + 1) else readDigits bytes pos 0 0
  if first.toNat = 48 then
    match byteAt bytes p with
    | some b => if 48 ≤ b.toNat ∧ b.toNat ≤ 57 then failAhead bytes .invalidNumber p else pure ()
    | none => pure ()
  -- the fraction, if any
  let (mantissa, scale, p) ← match byteAt bytes p with
    | some 46 =>
      let (frac, fcount, q) := readDigits bytes (p + 1) 0 0
      if fcount = 0 then
        match byteAt bytes q with
        | some _ => failAhead bytes .invalidNumber q
        | none => failAhead bytes .eofWhileParsingValue q
      else pure (whole * 10 ^ fcount + frac, -(fcount : Int), q)
    | _ => pure (whole, (0 : Int), p)
  let isFloat := scale != 0
  -- the exponent, if any
  match byteAt bytes p with
  | some 101 | some 69 =>
    let q := p + 1
    let (expNegative, q) := match byteAt bytes q with
      | some 43 => (false, q + 1)
      | some 45 => (true, q + 1)
      | _ => (false, q)
    match byteAt bytes q with
    | none => failAt .eofWhileParsingValue q
    | some d =>
      if ¬(48 ≤ d.toNat ∧ d.toNat ≤ 57) then failAt .invalidNumber (q + 1)
      else
        let (e, _, r) := readDigits bytes q 0 0
        let e : Int := if expNegative then -(e : Int) else e
        let j ← toDouble negative mantissa (scale + e) r
        pure (j, r)
  | _ =>
    if isFloat then
      let j ← toDouble negative mantissa scale p
      pure (j, p)
    else if count > 0 ∧ whole > maxWord then
      let j ← toDouble negative whole 0 p
      pure (j, p)
    else if negative then
      if whole = 0 ∨ whole > 2 ^ 63 then pure (.float (-(Float.ofNat whole)), p)
      else pure (.int (-(whole : Int)), p)
    else pure (.int whole, p)

/-- A literal word after its first letter: each next byte must match. -/
def readWord (bytes : ByteArray) (rest : List UInt8) (pos : Nat) : Except ParseError Nat :=
  match rest with
  | [] => .ok pos
  | c :: more =>
    match byteAt bytes pos with
    | none => failAt .eofWhileParsingValue pos
    | some b => if b = c then readWord bytes more (pos + 1) else failAt .expectedSomeIdent (pos + 1)

mutual

/-- A value starting after blanks at `pos`, with `depth` levels of nesting still allowed and a
budget of `fuel` steps. -/
def readValue (bytes : ByteArray) (fuel depth pos : Nat) : Except ParseError (Json × Nat) :=
  match fuel with
  | 0 => failAt .eofWhileParsingValue pos
  | fuel + 1 =>
    let pos := skipBlanks bytes pos
    match byteAt bytes pos with
    | none => failAhead bytes .eofWhileParsingValue pos
    | some b =>
      if b = 110 then (readWord bytes [117, 108, 108] (pos + 1)).map (.null, ·)
      else if b = 116 then (readWord bytes [114, 117, 101] (pos + 1)).map (.bool true, ·)
      else if b = 102 then (readWord bytes [97, 108, 115, 101] (pos + 1)).map (.bool false, ·)
      else if b = 45 then readNumber bytes true (pos + 1)
      else if 48 ≤ b.toNat ∧ b.toNat ≤ 57 then readNumber bytes false pos
      else if b = 34 then (readString bytes (pos + 1)).map fun (s, p) => (.str s, p)
      else if b = 91 then
        if depth ≤ 1 then failAhead bytes .recursionLimitExceeded pos
        else readItems bytes fuel (depth - 1) (pos + 1) true []
      else if b = 123 then
        if depth ≤ 1 then failAhead bytes .recursionLimitExceeded pos
        else readFields bytes fuel (depth - 1) (pos + 1) true []
      else failAhead bytes .expectedSomeValue pos

/-- Items of an array after its opening bracket or after an item. -/
def readItems (bytes : ByteArray) (fuel depth pos : Nat) (first : Bool) (acc : List Json) :
    Except ParseError (Json × Nat) :=
  match fuel with
  | 0 => failAt .eofWhileParsingList pos
  | fuel + 1 =>
    let pos := skipBlanks bytes pos
    match byteAt bytes pos with
    | none => failAhead bytes .eofWhileParsingList pos
    | some 93 => .ok (.arr acc.reverse, pos + 1)
    | some b =>
      let start :=
        if b = 44 ∧ !first then .ok (skipBlanks bytes (pos + 1))
        else if first then .ok pos
        else failAhead bytes .expectedListCommaOrEnd pos
      match start with
      | .error e => .error e
      | .ok p =>
        match byteAt bytes p with
        | some 93 => failAhead bytes .trailingComma p
        | _ =>
          match readValue bytes fuel depth p with
          | .error e => .error e
          | .ok (j, q) => readItems bytes fuel depth q false (j :: acc)

/-- Fields of an object after its opening brace or after a field. -/
def readFields (bytes : ByteArray) (fuel depth pos : Nat) (first : Bool)
    (acc : List (String × Json)) : Except ParseError (Json × Nat) :=
  match fuel with
  | 0 => failAt .eofWhileParsingObject pos
  | fuel + 1 =>
    let pos := skipBlanks bytes pos
    match byteAt bytes pos with
    | none => failAhead bytes .eofWhileParsingObject pos
    | some 125 => .ok (.obj acc.reverse, pos + 1)
    | some b =>
      let start :=
        if b = 44 ∧ !first then .ok (skipBlanks bytes (pos + 1))
        else if first then .ok pos
        else failAhead bytes .expectedObjectCommaOrEnd pos
      match start with
      | .error e => .error e
      | .ok p =>
        match byteAt bytes p with
        | some 34 =>
          match readString bytes (p + 1) with
          | .error e => .error e
          | .ok (key, q) =>
            let q := skipBlanks bytes q
            match byteAt bytes q with
            | some 58 =>
              match readValue bytes fuel depth (q + 1) with
              | .error e => .error e
              | .ok (j, r) => readFields bytes fuel depth r false ((key, j) :: acc)
            | some _ => failAhead bytes .expectedColon q
            | none => failAhead bytes .eofWhileParsingObject q
        | some 125 => failAhead bytes .trailingComma p
        | some _ => failAhead bytes .keyMustBeAString p
        | none => failAhead bytes .eofWhileParsingValue p

end

/-- Nesting levels a reader accepts, plus one. -/
def depthLimit : Nat := 128

/-- One JSON value filling the whole input but for blanks. -/
def parseBytes (bytes : ByteArray) : Except ParseError Json := do
  let (j, p) ← readValue bytes (2 * bytes.size + 2) depthLimit 0
  let q := skipBlanks bytes p
  if q < bytes.size then failAhead bytes .trailingCharacters q else pure j

/-- One JSON value read from a text. -/
def parse (text : String) : Except String Json :=
  let bytes := text.toUTF8
  match parseBytes bytes with
  | .ok j => .ok j
  | .error e => .error (e.message bytes)

end MetricRegistry.Json
