import MetricRegistry.Toml.Value
import MetricRegistry.Text.Decimal

/-! The pieces of a TOML line: blanks, comments, keys, the four kinds of strings, integers,
floats, booleans, dates and times. Each reader answers its piece and the rest. -/

namespace MetricRegistry.Toml

/-- Space or tab. -/
def isBlank (c : Char) : Bool := c = ' ' || c = '\t'

/-- A decimal digit. -/
def isDigit (c : Char) : Bool := '0' ≤ c && c ≤ '9'

/-- The characters after leading blanks. -/
def skipBlanks : List Char → List Char
  | [] => []
  | c :: rest => if isBlank c then skipBlanks rest else c :: rest

/-- A character that may stand in a comment: tab, printable ASCII, or anything beyond ASCII. -/
def commentChar (c : Char) : Bool :=
  c = '\t' || (0x20 ≤ c.toNat && c.toNat ≤ 0x7E) || 0x80 ≤ c.toNat

/-- The rest of a comment after `#`, up to its newline. -/
def skipComment : List Char → Except Fault (List Char)
  | [] => .ok []
  | '\n' :: rest => .ok ('\n' :: rest)
  | '\r' :: '\n' :: rest => .ok ('\r' :: '\n' :: rest)
  | c :: rest => if commentChar c then skipComment rest else .error .grammar

/-- Blanks, an optional comment, and the end of the line or of the text. -/
def lineEnd (cs : List Char) : Except Fault (List Char) := do
  let cs := skipBlanks cs
  let cs ← match cs with
    | '#' :: rest => skipComment rest
    | _ => pure cs
  match cs with
  | [] => pure []
  | '\n' :: rest => pure rest
  | '\r' :: '\n' :: rest => pure rest
  | _ => throw .grammar

/-- Blanks, comments and newlines, as they may stand between the items of an array;
`inComment` says that a comment is open. -/
def skipFiller : Bool → List Char → Except Fault (List Char)
  | _, [] => .ok []
  | true, '\n' :: rest => skipFiller false rest
  | true, '\r' :: '\n' :: rest => skipFiller false rest
  | true, c :: rest => if commentChar c then skipFiller true rest else .error .grammar
  | false, '#' :: rest => skipFiller true rest
  | false, '\n' :: rest => skipFiller false rest
  | false, '\r' :: '\n' :: rest => skipFiller false rest
  | false, c :: rest => if isBlank c then skipFiller false rest else .ok (c :: rest)

/-! ## Strings -/

/-- The character of a code point that is a Unicode scalar value. -/
def scalar? (n : Nat) : Option Char :=
  if n < 0xD800 || (0xE000 ≤ n && n ≤ 0x10FFFF) then some (Char.ofNat n) else none

/-- The value of a hexadecimal digit. -/
def hexValue? (c : Char) : Option Nat :=
  if isDigit c then some (c.toNat - '0'.toNat)
  else if 'a' ≤ c && c ≤ 'f' then some (c.toNat - 'a'.toNat + 10)
  else if 'A' ≤ c && c ≤ 'F' then some (c.toNat - 'A'.toNat + 10)
  else none

/-- The number a list of hexadecimal digits spells. -/
def hexNumber? (cs : List Char) : Option Nat :=
  cs.foldl (fun acc c => do let a ← acc; let d ← hexValue? c; pure (16 * a + d)) (some 0)

/-- The character a `\u` or `\U` escape names. -/
def unicodeEscape (digits : List Char) : Except Fault Char :=
  match hexNumber? digits >>= scalar? with
  | some c => .ok c
  | none => .error .grammar

/-- A character that stands for itself in a basic string. -/
def basicChar (c : Char) : Bool :=
  c = '\t' || (0x20 ≤ c.toNat && c.toNat ≤ 0x7E && c ≠ '"' && c ≠ '\\') || 0x80 ≤ c.toNat

/-- A character that stands for itself in a literal string. -/
def literalChar (c : Char) : Bool :=
  c = '\t' || (0x20 ≤ c.toNat && c.toNat ≤ 0x7E && c ≠ '\'') || 0x80 ≤ c.toNat

/-- The one-character escapes, by the letter after the backslash. -/
def simpleEscape? : Char → Option Char
  | 'b' => some '\x08'
  | 't' => some '\t'
  | 'n' => some '\n'
  | 'f' => some '\x0c'
  | 'r' => some '\r'
  | '"' => some '"'
  | '\\' => some '\\'
  | _ => none

/-- The body of a basic string after its opening quote, through the closing quote; `acc`
holds the characters read so far, last first. -/
def basicBody : List Char → List Char → Except Fault (String × List Char)
  | _, [] => .error .grammar
  | acc, '"' :: rest => .ok (String.ofList acc.reverse, rest)
  | acc, '\\' :: 'u' :: a :: b :: c :: d :: rest => do
    basicBody ((← unicodeEscape [a, b, c, d]) :: acc) rest
  | acc, '\\' :: 'U' :: a :: b :: c :: d :: e :: f :: g :: h :: rest => do
    basicBody ((← unicodeEscape [a, b, c, d, e, f, g, h]) :: acc) rest
  | acc, '\\' :: c :: rest =>
    match simpleEscape? c with
    | some e => basicBody (e :: acc) rest
    | none => .error .grammar
  | acc, c :: rest => if basicChar c then basicBody (c :: acc) rest else .error .grammar

/-- The characters after a backslash that ends a line, when it does: blanks, a newline, then
all blanks and newlines up to the next other character. -/
def lineContinuation (cs : List Char) : Option (List Char) :=
  match skipBlanks cs with
  | '\n' :: rest => some (rest.dropWhile fun c => isBlank c || c = '\n' || c = '\r')
  | '\r' :: '\n' :: rest => some (rest.dropWhile fun c => isBlank c || c = '\n' || c = '\r')
  | _ => none

/-- A newline and a newline's characters. -/
def newlineLength : List Char → Option Nat
  | '\n' :: _ => some 1
  | '\r' :: '\n' :: _ => some 2
  | _ => none

/-- The body of a multi-line basic string after its first newline, through the closing quotes;
up to two quotes before the closing three belong to the string. `fuel` bounds the steps. -/
def mlBasicBody : Nat → List Char → List Char → Except Fault (String × List Char)
  | 0, _, _ => .error .grammar
  | _ + 1, _, [] => .error .grammar
  | _ + 1, acc, '"' :: '"' :: '"' :: '"' :: '"' :: rest =>
    .ok (String.ofList ('"' :: '"' :: acc).reverse, rest)
  | _ + 1, acc, '"' :: '"' :: '"' :: '"' :: rest => .ok (String.ofList ('"' :: acc).reverse, rest)
  | _ + 1, acc, '"' :: '"' :: '"' :: rest => .ok (String.ofList acc.reverse, rest)
  | fuel + 1, acc, '"' :: rest => mlBasicBody fuel ('"' :: acc) rest
  | fuel + 1, acc, '\n' :: rest => mlBasicBody fuel ('\n' :: acc) rest
  | fuel + 1, acc, '\r' :: '\n' :: rest => mlBasicBody fuel ('\n' :: acc) rest
  | fuel + 1, acc, '\\' :: rest =>
    match lineContinuation rest with
    | some more => mlBasicBody fuel acc more
    | none =>
      match rest with
      | 'u' :: a :: b :: c :: d :: more => do
        mlBasicBody fuel ((← unicodeEscape [a, b, c, d]) :: acc) more
      | 'U' :: a :: b :: c :: d :: e :: f :: g :: h :: more => do
        mlBasicBody fuel ((← unicodeEscape [a, b, c, d, e, f, g, h]) :: acc) more
      | c :: more =>
        match simpleEscape? c with
        | some e => mlBasicBody fuel (e :: acc) more
        | none => .error .grammar
      | [] => .error .grammar
  | fuel + 1, acc, c :: rest => if basicChar c then mlBasicBody fuel (c :: acc) rest else .error .grammar

/-- The body of a literal string after its opening quote, through the closing quote. -/
def literalBody : List Char → List Char → Except Fault (String × List Char)
  | _, [] => .error .grammar
  | acc, '\'' :: rest => .ok (String.ofList acc.reverse, rest)
  | acc, c :: rest => if literalChar c then literalBody (c :: acc) rest else .error .grammar

/-- The body of a multi-line literal string after its first newline, through the closing
quotes; up to two quotes before the closing three belong to the string. -/
def mlLiteralBody : List Char → List Char → Except Fault (String × List Char)
  | _, [] => .error .grammar
  | acc, '\'' :: '\'' :: '\'' :: '\'' :: '\'' :: rest =>
    .ok (String.ofList ('\'' :: '\'' :: acc).reverse, rest)
  | acc, '\'' :: '\'' :: '\'' :: '\'' :: rest => .ok (String.ofList ('\'' :: acc).reverse, rest)
  | acc, '\'' :: '\'' :: '\'' :: rest => .ok (String.ofList acc.reverse, rest)
  | acc, '\'' :: rest => mlLiteralBody ('\'' :: acc) rest
  | acc, '\n' :: rest => mlLiteralBody ('\n' :: acc) rest
  | acc, '\r' :: '\n' :: rest => mlLiteralBody ('\n' :: acc) rest
  | acc, c :: rest => if literalChar c then mlLiteralBody (c :: acc) rest else .error .grammar

/-- The characters after a newline that directly follows an opening delimiter. -/
def dropFirstNewline : List Char → List Char
  | '\n' :: rest => rest
  | '\r' :: '\n' :: rest => rest
  | cs => cs

/-- A string of any of the four kinds, from its opening quote. -/
def readString : Step String
  | '"' :: '"' :: '"' :: rest =>
    let body := dropFirstNewline rest
    mlBasicBody (body.length + 1) [] body
  | '"' :: rest => basicBody [] rest
  | '\'' :: '\'' :: '\'' :: rest => mlLiteralBody [] (dropFirstNewline rest)
  | '\'' :: rest => literalBody [] rest
  | _ => .error .grammar

/-! ## Keys -/

/-- A character of a bare key. -/
def bareKeyChar (c : Char) : Bool := c.isAlphanum || c = '_' || c = '-'

/-- One part of a key: bare, or a basic or literal string on one line. -/
def readKeyPart : Step String
  | '"' :: rest => basicBody [] rest
  | '\'' :: rest => literalBody [] rest
  | cs =>
    let bare := cs.takeWhile bareKeyChar
    if bare.isEmpty then .error .grammar else .ok (String.ofList bare, cs.drop bare.length)

/-- The parts of a dotted key after its first, each after a dot between blanks. -/
def readKeyRest : Nat → List String → Step (List String)
  | 0, _, _ => .error .grammar
  | fuel + 1, acc, cs =>
    match skipBlanks cs with
    | '.' :: rest => do
      let (part, rest) ← readKeyPart (skipBlanks rest)
      readKeyRest fuel (part :: acc) rest
    | _ => .ok (acc.reverse, cs)

/-- A key: one or more parts joined by dots. -/
def readKey (cs : List Char) : Except Fault (List String × List Char) := do
  let (first, rest) ← readKeyPart cs
  readKeyRest (rest.length + 1) [first] rest

/-! ## Numbers -/

/-- Digits with single underscores between them, after a first digit that `acc` holds. -/
def digitRun (ok : Char → Bool) : List Char → List Char → Except Fault (List Char × List Char)
  | acc, [] => .ok (acc.reverse, [])
  | acc, c :: rest =>
    if ok c then digitRun ok (c :: acc) rest
    else if c = '_' then
      match rest with
      | d :: more => if ok d then digitRun ok (d :: acc) more else .error .grammar
      | [] => .error .grammar
    else .ok (acc.reverse, c :: rest)

/-- A run of digits that must start with a digit. -/
def digitsFrom (ok : Char → Bool) : List Char → Except Fault (List Char × List Char)
  | c :: rest => if ok c then digitRun ok [c] rest else .error .grammar
  | [] => .error .grammar

/-- The number that digits spell in a base. -/
def digitsValue (base : Nat) (digits : List Char) : Nat :=
  digits.foldl (fun acc c => base * acc + ((hexValue? c).getD 0)) 0

/-- The largest integer of 64 signed bits. -/
def intMax : Int := 2 ^ 63 - 1

/-- An integer if it fits in 64 signed bits. -/
def fitInt (n : Int) (rest : List Char) : Except Fault (Value × List Char) :=
  if -(2 ^ 63) ≤ n && n ≤ intMax then .ok (.int n, rest) else .error .outOfRange

/-- A decimal integer part without leading zeros: `0`, or a digit from 1 with more digits. -/
def decimalPart : List Char → Except Fault (List Char × List Char)
  | '0' :: rest => .ok (['0'], rest)
  | cs => digitsFrom isDigit cs

/-- The exponent after `e`: an optional sign and digits. -/
def readExponent (cs : List Char) : Except Fault (Int × List Char) := do
  let (negative, cs) := match cs with
    | '+' :: rest => (false, rest)
    | '-' :: rest => (true, rest)
    | _ => (false, cs)
  let (digits, rest) ← digitsFrom isDigit cs
  let e : Int := digitsValue 10 digits
  pure (if negative then -e else e, rest)

/-- A float from its sign, its digits and the power of ten they are scaled by; a finite text
that rounds to positive infinity is out of range. -/
def decimalFloat (negative : Bool) (digits : List Char) (exponent : Int) (rest : List Char) :
    Except Fault (Value × List Char) :=
  let x := Text.decimalToFloat (digitsValue 10 digits) exponent
  if negative then .ok (.float (-x), rest)
  else if x.isInf then .error .outOfRange
  else .ok (.float x, rest)

/-- A decimal integer or float after its sign. -/
def readDecimal (negative : Bool) (cs : List Char) : Except Fault (Value × List Char) := do
  let (whole, rest) ← decimalPart cs
  match rest with
  | '.' :: more =>
    let (frac, more) ← digitsFrom isDigit more
    match more with
    | 'e' :: exp | 'E' :: exp =>
      let (e, more) ← readExponent exp
      decimalFloat negative (whole ++ frac) (e - frac.length) more
    | _ => decimalFloat negative (whole ++ frac) (-(frac.length : Int)) more
  | 'e' :: exp | 'E' :: exp =>
    let (e, more) ← readExponent exp
    decimalFloat negative whole e more
  | _ =>
    let n : Int := digitsValue 10 whole
    fitInt (if negative then -n else n) rest

/-- A number: an integer in any base, or a float. -/
def readNumber (cs : List Char) : Except Fault (Value × List Char) :=
  let (negative, signed, body) := match cs with
    | '+' :: rest => (false, true, rest)
    | '-' :: rest => (true, true, rest)
    | _ => (false, false, cs)
  match body with
  | 'i' :: 'n' :: 'f' :: rest => .ok (.float (if negative then -(1.0 / 0.0) else 1.0 / 0.0), rest)
  | 'n' :: 'a' :: 'n' :: rest => .ok (.float (if negative then -(0.0 / 0.0) else 0.0 / 0.0), rest)
  | '0' :: 'x' :: rest =>
    if signed then readDecimal negative body else do
      let (digits, rest) ← digitsFrom (fun c => (hexValue? c).isSome) rest
      fitInt (digitsValue 16 digits) rest
  | '0' :: 'o' :: rest =>
    if signed then readDecimal negative body else do
      let (digits, rest) ← digitsFrom (fun c => '0' ≤ c && c ≤ '7') rest
      fitInt (digitsValue 8 digits) rest
  | '0' :: 'b' :: rest =>
    if signed then readDecimal negative body else do
      let (digits, rest) ← digitsFrom (fun c => c = '0' || c = '1') rest
      fitInt (digitsValue 2 digits) rest
  | _ => readDecimal negative body

/-! ## Dates and times -/

/-- Two digits and their value. -/
def twoDigits : List Char → Option (Nat × List Char)
  | a :: b :: rest => if isDigit a && isDigit b then some (digitsValue 10 [a, b], rest) else none
  | _ => none

/-- Two digits within `lo` and `hi`; anything else is refused, as the reading is committed. -/
def boundedTwo (lo hi : Nat) (cs : List Char) : Except Fault (Nat × List Char) :=
  match twoDigits cs with
  | some (n, rest) => if lo ≤ n && n ≤ hi then .ok (n, rest) else .error .outOfRange
  | none => .error .grammar

/-- Days in a month of a year. -/
def monthDays (year month : Nat) : Nat :=
  if month = 2 then
    if year % 4 = 0 && (year % 100 != 0 || year % 400 = 0) then 29 else 28
  else if month = 4 || month = 6 || month = 9 || month = 11 then 30
  else 31

/-- A date `YYYY-MM-DD`; none when the text does not start with four digits and a dash. -/
def readDate (cs : List Char) : Option (Except Fault (List Char)) :=
  match cs with
  | a :: b :: c :: d :: '-' :: rest =>
    if [a, b, c, d].all isDigit then
      some do
        let year := digitsValue 10 [a, b, c, d]
        let (month, rest) ← boundedTwo 1 12 rest
        let rest ← match rest with
          | '-' :: more => pure more
          | _ => throw .grammar
        let (day, rest) ← boundedTwo 1 31 rest
        if day > monthDays year month then throw .outOfRange
        pure rest
    else none
  | _ => none

/-- A time `HH:MM:SS` with an optional fraction; none when the text does not start with an hour
and a colon. -/
def readTime (cs : List Char) : Option (Except Fault (List Char)) :=
  match twoDigits cs with
  | some (hour, ':' :: rest) =>
    if hour > 23 then none
    else some do
      let (_, rest) ← boundedTwo 0 59 rest
      let rest ← match rest with
        | ':' :: more => pure more
        | _ => throw .grammar
      let (_, rest) ← boundedTwo 0 60 rest
      match rest with
      | '.' :: more => pure ((← digitsFrom isDigit more).2)
      | _ => pure rest
  | _ => none

/-- An optional offset after a time: `Z`, or a sign, hours and minutes. -/
def readOffset : List Char → Except Fault (List Char)
  | 'Z' :: rest | 'z' :: rest => .ok rest
  | '+' :: rest | '-' :: rest => do
    let (_, rest) ← boundedTwo 0 23 rest
    let rest ← match rest with
      | ':' :: more => pure more
      | _ => throw .grammar
    pure (← boundedTwo 0 59 rest).2
  | rest => .ok rest

/-- A date, with an optional time after `T`, `t` or a space, and an optional offset after the
time; or a time alone. None when the text starts with neither. -/
def readDateTime (cs : List Char) : Option (Except Fault (Value × List Char)) :=
  let taken (rest : List Char) : Value × List Char :=
    (.datetime (String.ofList (cs.take (cs.length - rest.length))), rest)
  match readDate cs with
  | some (.error e) => some (.error e)
  | some (.ok rest) =>
    let withTime : Option (Except Fault (List Char)) := match rest with
      | d :: more =>
        if d = 'T' || d = 't' || d = ' ' then
          (readTime more).map fun r => do readOffset (← r)
        else none
      | [] => none
    match withTime with
    | some (.ok more) => some (.ok (taken more))
    | some (.error e) => some (.error e)
    | none => some (.ok (taken rest))
  | none => (readTime cs).map fun r => do pure (taken (← r))

end MetricRegistry.Toml
