import MetricRegistry.Settings.Basic

/-! The server's log filter: `RUST_LOG` when every directive of it reads, otherwise the configured
level's filter with each directive that does not read dropped with a warning. -/

namespace MetricRegistry.Server

open Settings

/-- Whether a text names a log level: a level word in any case, or a digit up to five. -/
def isLevelName (s : String) : Bool :=
  ["trace", "debug", "info", "warn", "error", "off"].contains (s.map Char.toLower) ||
    ["0", "1", "2", "3", "4", "5"].contains s

/-- Whether a character may stand in a target: a word character, a colon or a dash. Letters
beyond ASCII are word characters. -/
def isTargetChar (c : Char) : Bool :=
  c.isAlphanum || c == '_' || c == ':' || c == '-' || c.toNat ≥ 128

/-- The characters after one part at the front of `cs`: a span in square brackets, or a
nonempty run of target characters; none when `cs` starts with neither. -/
def afterPart : List Char → Option (List Char)
  | '[' :: rest =>
    match rest.dropWhile (· != ']') with
    | ']' :: after => some after
    | _ => none
  | cs =>
    let after := cs.dropWhile isTargetChar
    if after.length < cs.length then some after else none

/-- Whether a directive reads: a level alone, or one or two parts and an optional `=` level. -/
def directiveReads (d : String) : Bool :=
  isLevelName d ||
    match afterPart d.toList with
    | none => false
    | some first =>
      match (afterPart first).getD first with
      | [] => true
      | '=' :: level => level.isEmpty || isLevelName (String.ofList level)
      | _ => false

/-- The directives of a filter, empty ones skipped. -/
def directives (spec : String) : List String :=
  (spec.splitOn ",").filter (· ≠ "")

/-- The warning for a directive that does not read. -/
def ignoredWarning (d : String) : String :=
  "ignoring \x60" ++ d ++ "\x60: invalid filter directive\n"

/-- What the server writes to its error stream while choosing its log filter, with `level`
the configured level. -/
def filterWarnings (env : Environment) (level : String) : String :=
  let fromEnv := match env.get? "RUST_LOG" with
    | some spec => (directives spec).all directiveReads
    | none => false
  if fromEnv then ""
  else
    let configured := directives ("gidstore=" ++ level ++ ",tower_http=info")
    String.join ((configured.filter (!directiveReads ·)).map ignoredWarning)

end MetricRegistry.Server
