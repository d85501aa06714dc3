import MetricRegistry.Toml.Scalar
import MetricRegistry.Toml.Tree

/-! Reading a TOML document line by line: pairs, table headers and array headers, with nested
values read under a budget of steps from the text's length. -/

namespace MetricRegistry.Toml

/-- The prefix and last part of a key; keys are never empty. -/
def splitKey (path : List String) : List String × String :=
  (path.dropLast, path.getLast?.getD "")

mutual

/-- A value, with `fuel` steps left for nesting. -/
def readValue : Nat → Step Value
  | 0, _ => .error .grammar
  | fuel + 1, cs =>
    match cs with
    | '"' :: _ | '\'' :: _ => (readString cs).map fun (s, rest) => (.str s, rest)
    | 't' :: 'r' :: 'u' :: 'e' :: rest => .ok (.bool true, rest)
    | 'f' :: 'a' :: 'l' :: 's' :: 'e' :: rest => .ok (.bool false, rest)
    | '[' :: rest => readItems fuel [] rest
    | '{' :: rest =>
      match skipBlanks rest with
      | '}' :: more => .ok (.table [], more)
      | more => readPairs fuel [] more
    | c :: _ =>
      if c = '+' || c = '-' || isDigit c || c = 'i' || c = 'n' then
        match readDateTime cs with
        | some r => r
        | none => readNumber cs
      else .error .grammar
    | [] => .error .grammar

/-- The items of an array after its opening bracket or after a comma; `acc` holds the items
read so far, last first. -/
def readItems : Nat → List Value → Step Value
  | 0, _, _ => .error .grammar
  | fuel + 1, acc, cs => do
    match ← skipFiller false cs with
    | ']' :: rest => .ok (.arr acc.reverse, rest)
    | more =>
      let (v, rest) ← readValue fuel more
      match ← skipFiller false rest with
      | ',' :: rest => readItems fuel (v :: acc) rest
      | ']' :: rest => .ok (.arr (v :: acc).reverse, rest)
      | _ => .error .grammar

/-- The pairs of an inline table after its opening brace or after a comma. -/
def readPairs : Nat → Entries → Step Value
  | 0, _, _ => .error .grammar
  | fuel + 1, es, cs => do
    let (path, rest) ← readKey cs
    match skipBlanks rest with
    | '=' :: rest =>
      let (v, rest) ← readValue fuel (skipBlanks rest)
      let (pre, key) := splitKey path
      let es ← insertValue pre key v (some .explicit) es
      match skipBlanks rest with
      | ',' :: rest => readPairs fuel es (skipBlanks rest)
      | '}' :: rest => .ok (.table (entriesToValue es), rest)
      | _ => .error .grammar
    | _ => .error .grammar

end

/-- A header's key between its brackets, and the rest of its line. -/
def readHeader (cs : List Char) (closing : List Char) : Except Fault (List String × List Char) := do
  let (path, rest) ← readKey (skipBlanks cs)
  let rest := skipBlanks rest
  if rest.take closing.length = closing then
    pure (path, ← lineEnd (rest.drop closing.length))
  else throw .grammar

/-- The lines of a document from `cs`, into the tables `root`, with pairs going to the table at
`current`; `fuel` bounds the lines. -/
def readLines : Nat → Entries → List String → List Char → Except Fault Entries
  | 0, _, _, _ => .error .grammar
  | fuel + 1, root, current, cs =>
    match skipBlanks cs with
    | [] => .ok root
    | '#' :: rest => do readLines fuel root current (← lineEnd ('#' :: rest))
    | '\n' :: rest => readLines fuel root current rest
    | '\r' :: '\n' :: rest => readLines fuel root current rest
    | '[' :: '[' :: rest => do
      let (path, rest) ← readHeader rest [']', ']']
      let (pre, key) := splitKey path
      readLines fuel (← appendTable pre key root) path rest
    | '[' :: rest => do
      let (path, rest) ← readHeader rest [']']
      let (pre, key) := splitKey path
      readLines fuel (← defineTable pre key root) path rest
    | line => do
      let (path, rest) ← readKey line
      let rest ← match skipBlanks rest with
        | '=' :: more => pure (skipBlanks more)
        | _ => throw .grammar
      let (v, rest) ← readValue (rest.length + 1) rest
      let rest ← lineEnd rest
      let (pre, key) := splitKey path
      let root ← atPath false (fun _ es => insertValue pre key v (some .explicit) es) none root current
      readLines fuel root current rest

/-- Reads a TOML document into its root table. -/
def parse (text : String) : Except Fault Value := do
  let cs := match text.toList with
    | '\uFEFF' :: rest => rest
    | cs => cs
  let root ← readLines (cs.length + 1) [] [] cs
  pure (.table (entriesToValue root))

end MetricRegistry.Toml
