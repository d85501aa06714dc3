import MetricRegistry.Api.Dto
import MetricRegistry.Json.Parse
import MetricRegistry.Text.Quoted
import MetricRegistry.Text.Shortest

/-! Reading a resolve request from a JSON body, as a streaming reader fills a record: an object
or array with `name` and `opaque_key`, refused at the first problem as malformed JSON or JSON
of the wrong shape, with the field and the line and column where it happened. -/

namespace MetricRegistry.Api

open Json

/-- Where in the body a refusal happened: at the top, in a field's value, or in an item. -/
inductive BodyPlace where
  | top
  | field (key : String)
  | item (index : Nat)
  deriving DecidableEq, Repr

/-- The place written before a refusal's message. -/
def BodyPlace.label : BodyPlace → String
  | .top => ""
  | .field key => key ++ ": "
  | .item index => "[" ++ toString index ++ "]: "

/-- Why a body is not a resolve request. -/
inductive BodyError where
  /-- The body is not JSON. -/
  | malformed (place : BodyPlace) (e : ParseError)
  /-- The body is JSON of the wrong shape; the message says what was found and where it ended. -/
  | mistyped (place : BodyPlace) (message : String) (pos : Nat)
  deriving DecidableEq, Repr

/-- The text of a body refusal over the body's bytes. -/
def BodyError.message (bytes : ByteArray) : BodyError → String
  | .malformed place e => place.label ++ e.message bytes
  | .mistyped place message pos =>
    let (line, col) := lineColumn bytes pos
    place.label ++ message ++ " at line " ++ toString line ++ " column " ++ toString col

/-- How a number that does not fit is described; a float is written as JSON writes it. -/
def numberText : Json → String
  | .int n => "integer `" ++ toString n ++ "`"
  | .float x => "floating point `" ++ Text.exchangeText x ++ "`"
  | _ => ""

/-- What the value at `pos` is, for a refusal, and the position after what was read of it. -/
def foundAt (bytes : ByteArray) (pos : Nat) : Except ParseError (String × Nat) :=
  match byteAt bytes pos with
  | some 110 => (readWord bytes [117, 108, 108] (pos + 1)).map ("null", ·)
  | some 116 => (readWord bytes [114, 117, 101] (pos + 1)).map ("boolean `true`", ·)
  | some 102 => (readWord bytes [97, 108, 115, 101] (pos + 1)).map ("boolean `false`", ·)
  | some 45 => (readNumber bytes true (pos + 1)).map fun (j, p) => (numberText j, p)
  | some 34 => (readString bytes (pos + 1)).map fun (s, p) => ("string " ++ Text.quoted s, p)
  | some 91 => .ok ("sequence", pos)
  | some 123 => .ok ("map", pos)
  | some b =>
    if 48 ≤ b.toNat ∧ b.toNat ≤ 57 then (readNumber bytes false pos).map fun (j, p) => (numberText j, p)
    else failAhead bytes .expectedSomeValue pos
  | none => failAhead bytes .expectedSomeValue pos

/-- A refusal of the value at `pos`, which is not what `expected` names. -/
def refuseAt {α : Type} (bytes : ByteArray) (place : BodyPlace) (expected : String) (pos : Nat) :
    Except BodyError α :=
  match foundAt bytes pos with
  | .ok (found, p) => .error (.mistyped place ("invalid type: " ++ found ++ ", expected " ++ expected) p)
  | .error e => .error (.malformed place e)

/-- A malformed-body refusal at a place. -/
def malformedAt {α : Type} (place : BodyPlace) : Except ParseError α → Except BodyError α
  | .ok a => .ok a
  | .error e => .error (.malformed place e)

/-- A string or `null` at `pos`, blanks first. -/
def readOptionalString (bytes : ByteArray) (place : BodyPlace) (pos : Nat) :
    Except BodyError (Option String × Nat) :=
  let p := skipBlanks bytes pos
  match byteAt bytes p with
  | none => malformedAt place (failAhead bytes .eofWhileParsingValue p)
  | some 110 => malformedAt place ((readWord bytes [117, 108, 108] (p + 1)).map (none, ·))
  | some 34 => malformedAt place ((readString bytes (p + 1)).map fun (s, q) => (some s, q))
  | some _ => refuseAt bytes place "a string" p

/-- Fields seen so far: each field's value once it has been read. -/
structure SeenFields where
  name : Option (Option String) := none
  opaqueKey : Option (Option String) := none

/-- The request the fields give, missing ones being absent. -/
def SeenFields.request (s : SeenFields) : ResolveRequest :=
  { name := s.name.getD none, opaqueKey := s.opaqueKey.getD none }

/-- The value of the field `key`, whose colon is still to come at `pos`. -/
def readFieldValue (bytes : ByteArray) (key : String) (seen : SeenFields) (pos : Nat) :
    Except BodyError (SeenFields × Nat) := do
  let place := BodyPlace.field key
  let c := skipBlanks bytes pos
  match byteAt bytes c with
  | some 58 =>
    if key = "name" then
      let (v, q) ← readOptionalString bytes place (c + 1)
      pure ({ seen with name := some v }, q)
    else if key = "opaque_key" then
      let (v, q) ← readOptionalString bytes place (c + 1)
      pure ({ seen with opaqueKey := some v }, q)
    else
      let (_, q) ← malformedAt place (readValue bytes (2 * bytes.size + 2) (depthLimit - 1) (c + 1))
      pure (seen, q)
  | some _ => malformedAt .top (failAhead bytes .expectedColon c)
  | none => malformedAt .top (failAhead bytes .eofWhileParsingObject c)

/-- The fields of an object from `pos`, after its brace or a field; `fuel` bounds the fields. -/
def readObjectFields (bytes : ByteArray) (fuel : Nat) (first : Bool) (seen : SeenFields)
    (pos : Nat) : Except BodyError ResolveRequest :=
  match fuel with
  | 0 => malformedAt .top (failAt .eofWhileParsingObject pos)
  | fuel + 1 => do
    let p := skipBlanks bytes pos
    let k ← match byteAt bytes p with
      | none => malformedAt .top (failAhead bytes .eofWhileParsingObject p)
      | some 125 => return seen.request
      | some 44 =>
        if first then malformedAt .top (failAhead bytes .keyMustBeAString p)
        else pure (skipBlanks bytes (p + 1))
      | some _ =>
        if first then pure p else malformedAt .top (failAhead bytes .expectedObjectCommaOrEnd p)
    let (key, r) ← match byteAt bytes k with
      | some 34 => malformedAt .top (readString bytes (k + 1))
      | some 125 => malformedAt .top (failAhead bytes .trailingComma k)
      | some _ => malformedAt .top (failAhead bytes .keyMustBeAString k)
      | none => malformedAt .top (failAhead bytes .eofWhileParsingValue k)
    if key = "name" && seen.name.isSome then
      throw (.mistyped .top "duplicate field `name`" r)
    if key = "opaque_key" && seen.opaqueKey.isSome then
      throw (.mistyped .top "duplicate field `opaque_key`" r)
    let (seen, q) ← readFieldValue bytes key seen r
    if q ≤ pos then malformedAt .top (failAt .eofWhileParsingObject q)
    else readObjectFields bytes fuel false seen q

/-- Item `index` of an array from `pos`, after its bracket or an item: none at the end. -/
def readItem (bytes : ByteArray) (index : Nat) (pos : Nat) :
    Except BodyError (Option (Option String) × Nat) := do
  let place := BodyPlace.item index
  let p := skipBlanks bytes pos
  match byteAt bytes p with
  | none => malformedAt .top (failAhead bytes .eofWhileParsingList p)
  | some 93 => pure (none, p)
  | some 44 =>
    if index = 0 then
      let (v, q) ← readOptionalString bytes place p
      return (some v, q)
    let q := skipBlanks bytes (p + 1)
    match byteAt bytes q with
    | some 93 => malformedAt .top (failAhead bytes .trailingComma q)
    | none => malformedAt .top (failAhead bytes .eofWhileParsingValue q)
    | some _ =>
      let (v, r) ← readOptionalString bytes place q
      pure (some v, r)
  | some _ =>
    if index = 0 then
      let (v, q) ← readOptionalString bytes place p
      pure (some v, q)
    else malformedAt .top (failAhead bytes .expectedListCommaOrEnd p)

/-- The end of an array after the items a request takes. -/
def readArrayEnd (bytes : ByteArray) (pos : Nat) : Except BodyError Unit :=
  let p := skipBlanks bytes pos
  match byteAt bytes p with
  | some 93 => .ok ()
  | some 44 =>
    let q := skipBlanks bytes (p + 1)
    match byteAt bytes q with
    | some 93 => malformedAt .top (failAhead bytes .trailingComma q)
    | _ => malformedAt .top (failAhead bytes .trailingCharacters q)
  | some _ => malformedAt .top (failAhead bytes .expectedListCommaOrEnd p)
  | none => malformedAt .top (failAhead bytes .eofWhileParsingList p)

/-- Reads a resolve request from a body. -/
def ResolveRequest.ofBody (bytes : ByteArray) : Except BodyError ResolveRequest := do
  let p := skipBlanks bytes 0
  match byteAt bytes p with
  | none => malformedAt .top (failAhead bytes .eofWhileParsingValue p)
  | some 123 => readObjectFields bytes (bytes.size + 1) true {} (p + 1)
  | some 91 =>
    let (name, q) ← readItem bytes 0 (p + 1)
    let (key, r) ← readItem bytes 1 q
    readArrayEnd bytes r
    pure { name := name.getD none, opaqueKey := key.getD none }
  | some _ => refuseAt bytes .top "struct ResolveRequest" p

end MetricRegistry.Api
