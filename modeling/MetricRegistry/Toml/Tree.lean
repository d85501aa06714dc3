import MetricRegistry.Toml.Value

/-! A TOML document under construction, with the rules for when a table may be defined or
extended: explicit, implicit and dotted tables, and arrays of tables. -/

namespace MetricRegistry.Toml

/-- How a table came to be. -/
inductive Origin where
  | explicit
  | implicit
  | dotted
  deriving DecidableEq, Repr

/-- A value in a document under construction. -/
inductive Node where
  /-- A value written after `=`; an inline table or array is closed to later keys. -/
  | leaf (v : Value)
  | table (origin : Origin) (entries : List (String × Node))
  /-- An array of tables, from array headers. -/
  | tables (items : List (List (String × Node)))
  deriving Inhabited

/-- The entries of a table under construction. -/
abbrev Entries := List (String × Node)

/-- The node of a key. -/
def lookup (es : Entries) (key : String) : Option Node :=
  (es.find? (·.1 == key)).map (·.2)

/-- The entries with the node of `key` replaced. -/
def replaceAt (es : Entries) (key : String) (n : Node) : Entries :=
  es.map fun e => if e.1 == key then (key, n) else e

/-- Applies `f` to the table at `path` below the table `es`, whose origin is `here` (none for a
member of an array of tables). Missing tables are created, dotted when `dotted` and implicit
otherwise. With `dotted`, explicit tables may not be entered. -/
def atPath (dotted : Bool) (f : Option Origin → Entries → Except Fault Entries)
    (here : Option Origin) (es : Entries) : List String → Except Fault Entries
  | [] => f here es
  | key :: rest =>
    match lookup es key with
    | none => do
      let created := if dotted then Origin.dotted else .implicit
      let sub ← atPath dotted f (some created) [] rest
      pure (es ++ [(key, .table created sub)])
    | some (.table origin sub) =>
      if dotted && origin = .explicit then .error .duplicate
      else do
        let sub ← atPath dotted f (some origin) sub rest
        pure (replaceAt es key (.table origin sub))
    | some (.tables items) =>
      match items.getLast? with
      | some last => do
        let last ← atPath dotted f none last rest
        pure (replaceAt es key (.tables (items.dropLast ++ [last])))
      | none => .error .duplicate
    | some (.leaf _) => .error .duplicate

/-- Defines `key = v` in the table `es`, the key given as its dotted prefix and last part. The
table the key lands in must be dotted exactly when the prefix is not empty. -/
def insertValue (pre : List String) (key : String) (v : Value) (here : Option Origin)
    (es : Entries) : Except Fault Entries :=
  atPath true (fun origin t =>
    if (origin == some .dotted) == pre.isEmpty then .error .duplicate
    else match lookup t key with
      | some _ => .error .duplicate
      | none => .ok (t ++ [(key, .leaf v)])) here es pre

/-- Defines the table a header names, below the parent tables `pre`. -/
def defineTable (pre : List String) (key : String) (root : Entries) : Except Fault Entries :=
  atPath false (fun _ es =>
    match lookup es key with
    | none => .ok (es ++ [(key, .table .explicit [])])
    | some (.table .implicit sub) => .ok (replaceAt es key (.table .explicit sub))
    | _ => .error .duplicate) none root pre

/-- Adds a table to the array of tables an array header names. -/
def appendTable (pre : List String) (key : String) (root : Entries) : Except Fault Entries :=
  atPath false (fun _ es =>
    match lookup es key with
    | none => .ok (es ++ [(key, .tables [[]])])
    | some (.tables items) => .ok (replaceAt es key (.tables (items ++ [[]])))
    | _ => .error .duplicate) none root pre

mutual

/-- The value a node stands for. -/
def Node.toValue : Node → Value
  | .leaf v => v
  | .table _ es => .table (entriesToValue es)
  | .tables items => .arr (itemsToValue items)

/-- The values of a table's entries. -/
def entriesToValue : Entries → List (String × Value)
  | [] => []
  | (k, n) :: rest => (k, n.toValue) :: entriesToValue rest

/-- The tables of an array of tables. -/
def itemsToValue : List Entries → List Value
  | [] => []
  | es :: rest => .table (entriesToValue es) :: itemsToValue rest

end

end MetricRegistry.Toml
