import MetricRegistry.Core.Instances

/-! UTF-8 validation with a located error: the valid bytes before the fault and the length of the
faulty prefix, or that the bytes ran out inside a character. -/

namespace MetricRegistry.Text

/-- Where and how a byte string stops being UTF-8. -/
structure Utf8Error where
  /-- Bytes before the faulty character, all of them valid. -/
  validUpTo : Nat
  /-- Length of the invalid prefix of the faulty character, or `none` when the input ends
  inside a character that was well-formed so far. -/
  errorLen : Option Nat
  deriving DecidableEq, Repr

/-- The message of a UTF-8 error. -/
def Utf8Error.message (e : Utf8Error) : String :=
  let at_ := e.validUpTo
  match e.errorLen with
  | some n => s!"invalid utf-8 sequence of {n} bytes from index {at_}"
  | none => s!"incomplete utf-8 byte sequence from index {at_}"

/-- The byte is a continuation byte, `0x80` to `0xBF`. -/
def isTail (b : UInt8) : Bool := 0x80 ≤ b.toNat ∧ b.toNat ≤ 0xBF

/-- For a lead byte that starts a character of two to four bytes: how many continuation bytes
follow it, and the range allowed for the first of them. `none` for a byte that starts no such
character. -/
def leadRule (lead : Nat) : Option (Nat × Nat × Nat) :=
  if 0xC2 ≤ lead ∧ lead ≤ 0xDF then some (1, 0x80, 0xBF)
  else if lead = 0xE0 then some (2, 0xA0, 0xBF)
  else if 0xE1 ≤ lead ∧ lead ≤ 0xEC then some (2, 0x80, 0xBF)
  else if lead = 0xED then some (2, 0x80, 0x9F)
  else if 0xEE ≤ lead ∧ lead ≤ 0xEF then some (2, 0x80, 0xBF)
  else if lead = 0xF0 then some (3, 0x90, 0xBF)
  else if 0xF1 ≤ lead ∧ lead ≤ 0xF3 then some (3, 0x80, 0xBF)
  else if lead = 0xF4 then some (3, 0x80, 0x8F)
  else none

/-- Checks `count` continuation bytes from `pos + i` on, the character starting at `pos`.
`none` when all are there and good; `some none` when the input ends first; `some (some k)` when
the byte at `pos + k` is no continuation byte. -/
def tailFault (bytes : ByteArray) (pos i : Nat) : Nat → Option (Option Nat)
  | 0 => none
  | count + 1 =>
    match bytes[pos + i]? with
    | none => some none
    | some b => if isTail b then tailFault bytes pos (i + 1) count else some (some i)

/-- Validates `bytes` from `pos` on; the bytes before `pos` are valid. -/
def validateFrom (bytes : ByteArray) (pos : Nat) : Except Utf8Error Unit :=
  if h : pos < bytes.size then
    let lead := bytes[pos].toNat
    if lead < 0x80 then validateFrom bytes (pos + 1)
    else match leadRule lead with
      | none => .error ⟨pos, some 1⟩
      | some (extra, lo, hi) =>
        match bytes[pos + 1]? with
        | none => .error ⟨pos, none⟩
        | some second =>
          if lo ≤ second.toNat ∧ second.toNat ≤ hi then
            match tailFault bytes pos 2 (extra - 1) with
            | some len => .error ⟨pos, len⟩
            | none => validateFrom bytes (pos + extra + 1)
          else .error ⟨pos, some 1⟩
  else .ok ()
termination_by bytes.size - pos

/-- The text written by UTF-8 bytes, or where they stop being UTF-8. -/
def decodeUtf8 (bytes : ByteArray) : Except Utf8Error String :=
  match validateFrom bytes 0 with
  | .error e => .error e
  | .ok () => .ok ((String.fromUTF8? bytes).getD "")

end MetricRegistry.Text
