import MetricRegistry.Text.Quoted

/-! The command line of the client: global options, one subcommand and its arguments. A line
that cannot be read is refused with a message, a usage line and a hint, and status 2. -/

namespace MetricRegistry.Cli

/-- What the client is asked to do. -/
inductive Command where
  | resolve (name keyText : Option String)
  | lookup (name keyText : Option String)
  | get (globalId : Int64)
  | delete (globalId : Int64)
  | defrag
  | stats
  | config (output : Option String)
  deriving Repr

/-- A read command line. -/
structure Invocation where
  apiUrl : String := "http://localhost:8090"
  dataDir : Option String := none
  timeout : Nat := 10
  format : String := "table"
  command : Command
  deriving Repr

/-- An option: its long name, its short letter, and the name of its value. -/
structure OptionSpec where
  long : String
  short : Option Char
  valueName : String

/-- How an option is shown in messages. -/
def OptionSpec.display (o : OptionSpec) : String := "--" ++ o.long ++ " <" ++ o.valueName ++ ">"

/-- The options every subcommand takes. -/
def globalOptions : List OptionSpec :=
  [⟨"api-url", none, "API_URL"⟩, ⟨"data-dir", none, "DATA_DIR"⟩, ⟨"timeout", none, "TIMEOUT"⟩,
   ⟨"format", some 'f', "FORMAT"⟩]

/-- The subcommands, in the order help lists them. -/
def subcommands : List String := ["resolve", "lookup", "get", "delete", "defrag", "stats", "config", "help"]

/-- The options of a subcommand, besides the global ones. -/
def ownOptions : String → List OptionSpec
  | "resolve" | "lookup" => [⟨"name", some 'n', "NAME"⟩, ⟨"opaque", some 'o', "OPAQUE"⟩]
  | "config" => [⟨"output", some 'o', "OUTPUT"⟩]
  | _ => []

/-- Whether a subcommand takes a global id. -/
def takesId (sub : String) : Bool := sub = "get" || sub = "delete"

/-- The usage line of the program or a subcommand. -/
def usage : Option String → String
  | none => "gidstore-cli [OPTIONS] <COMMAND>"
  | some sub => "gidstore-cli " ++ sub ++ " [OPTIONS]" ++ (if takesId sub then " <GLOBAL_ID>" else "")

/-- Output and a status the program stops with before running anything. -/
structure Stop where
  code : Nat
  stdout : String := ""
  stderr : String := ""

/-- How a refusal is written: the message, then its tips together after a blank line, then an
optional usage line, then the hint. -/
def refusal (message : String) (tips : List String) (usageLine : Option String) : Stop :=
  { code := 2, stderr := "error: " ++ message ++
    (if tips.isEmpty then "" else "\n" ++ String.join (tips.map ("\n  tip: " ++ ·))) ++
    (match usageLine with | some u => "\n\nUsage: " ++ u | none => "") ++
    "\n\nFor more information, try '--help'.\n" }

/-- The help of one subcommand or option: what it does. -/
def helpOf : String → String
  | "resolve" => "Resolve a metric to its global ID, creating it if needed"
  | "lookup" => "Look up a global ID without creating anything"
  | "get" => "Show the record of a global ID"
  | "delete" => "Delete a global ID"
  | "defrag" => "Compact the identity log"
  | "stats" => "Show store counters"
  | "config" => "Generate default config file"
  | "help" => "Print this message or the help of the given subcommand(s)"
  | "api-url" => "API server URL"
  | "data-dir" => "Open the store in this directory instead of calling a server"
  | "timeout" => "Request timeout in seconds"
  | "format" => "Output format (table, json)"
  | "name" => "Metric name"
  | "opaque" => "Opaque key, hex encoded"
  | "output" => "Output path (default: stdout)"
  | _ => ""

/-- Rows of a help table, the left column padded to the widest entry. -/
def helpRows (rows : List (String × String)) : String :=
  let width := rows.foldl (fun w (l, _) => max w l.length) 0
  String.join (rows.map fun (l, h) =>
    "  " ++ l ++ String.ofList (List.replicate (width - l.length + 2) ' ') ++ h ++ "\n")

/-- Rows of a long help: each entry on its own line, its help below it indented, the entries
apart by a blank line. -/
def longRows (rows : List (String × String)) : String :=
  let indent := String.ofList (List.replicate 10 ' ')
  "\n\n".intercalate (rows.map fun (l, h) => "  " ++ l ++ "\n" ++ indent ++ (h.replace "\n" ("\n" ++ indent))) ++ "\n"

/-- The default an option shows in help. -/
def defaultOf : String → Option String
  | "api-url" => some "http://localhost:8090"
  | "timeout" => some "10"
  | "format" => some "table"
  | _ => none

/-- The help of an option with its default: after a space in short help, after a blank line in
long help. -/
def optionHelp (long : Bool) (name : String) : String :=
  match defaultOf name with
  | some d => helpOf name ++ (if long then "\n\n" else " ") ++ "[default: " ++ d ++ "]"
  | none => helpOf name

/-- The left column of an option's help row. -/
def OptionSpec.helpLeft (o : OptionSpec) : String :=
  (match o.short with | some c => "-" ++ String.singleton c ++ ", " | none => "    ") ++ o.display

/-- The help text of the program or of a subcommand. The program's long help, asked for with
`--help` or `help`, gives its longer description and each option's help on lines of its own;
a subcommand has only the short form. -/
def helpText (long : Bool) : Option String → String
  | none =>
    (if long then "gidstore assigns every metric a permanent global ID, keyed by its name and/or an " ++
        "opaque binary key." else "Stable global IDs for metrics") ++
      "\n\nUsage: " ++ usage none ++ "\n\nCommands:\n" ++
      helpRows (subcommands.map fun c => (c, helpOf c)) ++ "\nOptions:\n" ++
      (if long then
        longRows (globalOptions.map (fun o => (o.helpLeft, optionHelp true o.long)) ++
          [("-h, --help", "Print help (see a summary with '-h')"), ("-V, --version", "Print version")])
      else
        helpRows (globalOptions.map (fun o => (o.helpLeft, optionHelp false o.long)) ++
          [("-h, --help", "Print help (see more with '--help')"), ("-V, --version", "Print version")]))
  | some sub =>
    helpOf sub ++ "\n\nUsage: " ++ usage (some sub) ++ "\n\n" ++
      (if takesId sub then "Arguments:\n" ++ helpRows [("<GLOBAL_ID>", "")] ++ "\n" else "") ++ "Options:\n" ++
      helpRows ((ownOptions sub ++ globalOptions).map (fun o => (o.helpLeft, optionHelp false o.long)) ++
        [("-h, --help", "Print help")])

/-- The version line. -/
def versionText : String := "gidstore-cli 0.1.0\n"

/-- Why a whole number does not read as one. -/
inductive NumberFault where
  | empty
  | invalidDigit
  | tooLarge
  | tooSmall

/-- The text of a number fault. -/
def NumberFault.message : NumberFault → String
  | .empty => "cannot parse integer from empty string"
  | .invalidDigit => "invalid digit found in string"
  | .tooLarge => "number too large to fit in target type"
  | .tooSmall => "number too small to fit in target type"

/-- A whole number from decimal digits after an optional sign, within `[lo, hi]`. -/
def readWhole (text : String) (signed : Bool) (lo hi : Int) : Except NumberFault Int :=
  let (negative, digits) := match text.toList with
    | '+' :: rest => (false, rest)
    | '-' :: rest => if signed then (true, rest) else (false, '-' :: rest)
    | cs => (false, cs)
  if text.isEmpty then .error .empty
  else if digits.isEmpty || !digits.all Char.isDigit then .error .invalidDigit
  else
    let n : Int := digits.foldl (fun n c => 10 * n + (c.toNat - 48 : Nat)) 0
    let v := if negative then -n else n
    if v > hi then .error .tooLarge else if v < lo then .error .tooSmall else .ok v

/-- What the reader has seen so far. -/
structure Seen where
  sub : Option String := none
  /-- Options with their values; a global option given again after the subcommand takes the
  later value. -/
  values : List (String × String) := []
  /-- What was given since the subcommand began, or since the start: option names, and
  `GLOBAL_ID` for the id, in the order first given. -/
  used : List String := []
  globalId : Option Int64 := none
  afterDashes : Bool := false

/-- The options the reader accepts where it stands. -/
def Seen.options (s : Seen) : List OptionSpec :=
  globalOptions ++ (match s.sub with | some sub => ownOptions sub | none => [])

/-- Records an option's value; giving an option twice is refused. -/
def Seen.give (s : Seen) (o : OptionSpec) (value : String) : Except Stop Seen :=
  let recorded := { s with values := (s.values.filter (·.1 != o.long)) ++ [(o.long, value)],
                           used := s.used ++ [o.long] }
  if s.used.contains o.long then
    .error (refusal ("the argument '" ++ o.display ++ "' cannot be used multiple times") [] (some (usage s.sub)))
  else if o.long = "timeout" then
    match readWhole value false 0 (2 ^ 64 - 1) with
    | .ok _ => .ok recorded
    | .error f => .error (refusal ("invalid value '" ++ value ++ "' for '" ++ o.display ++ "': " ++ f.message) [] none)
  else .ok recorded

/-- Jaro similarity of two texts, by characters: characters match when equal and at most about
half the longer length apart, and half the matched pairs out of order count as transpositions. -/
def jaro (a b : String) : Float :=
  let xs := a.toList
  let ys := b.toList
  let la := xs.length
  let lb := ys.length
  if la = 0 && lb = 0 then 1.0
  else if la = 0 || lb = 0 then 0.0
  else
    let reach := max la lb / 2 - 1
    let (aFlags, bFlags) := xs.zipIdx.foldl (fun (af, bf) (c, i) =>
      let lo := i - reach
      let hi := min lb (i + reach + 1)
      match (List.range' lo (hi - lo)).find? (fun j => ys[j]? == some c && !(bf[j]?.getD true)) with
      | some j => (af ++ [true], bf.set j true)
      | none => (af ++ [false], bf)) (([] : List Bool), List.replicate lb false)
    let am := (xs.zip aFlags).filterMap fun (c, f) => if f then some c else none
    let bm := (ys.zip bFlags).filterMap fun (c, f) => if f then some c else none
    let m := am.length
    let t := ((am.zip bm).filter fun (p, q) => p != q).length / 2
    if m = 0 then 0.0
    else (m.toFloat / la.toFloat + m.toFloat / lb.toFloat + (m - t).toFloat / m.toFloat) / 3.0

/-- The candidates similar to a text, least similar first: those of Jaro similarity above 0.7. -/
def similar (given : String) (candidates : List String) : List String :=
  let scored := (candidates.map fun c => (jaro given c, c)).filter (·.1 > 0.7)
  (scored.mergeSort fun p q => p.1 ≤ q.1).map (·.2)

/-- The long option names a command knows: its own, the global ones, help, and the version at
the top. -/
def longsOf (sub : Option String) : List String :=
  match sub with
  | some sub => (ownOptions sub).map (·.long) ++ globalOptions.map (·.long) ++ ["help"]
  | none => globalOptions.map (·.long) ++ ["help", "version"]

/-- How an option or the id is written in a usage line. -/
def usedText (sub : Option String) (name : String) : String :=
  match ((ownOptions (sub.getD "")) ++ globalOptions).find? (·.long == name) with
  | some o => o.display
  | none => if name = "GLOBAL_ID" then "<GLOBAL_ID>" else "--" ++ name

/-- The usage line that names what was given: the required id and the given options in the
order first given, then the id; the full usage line when nothing was given. -/
def smartUsage (sub : Option String) (used : List String) : String :=
  if used.isEmpty then usage sub
  else
    let required := if (sub.map takesId).getD false then ["GLOBAL_ID"] else []
    let all := (required ++ used).eraseDups
    "gidstore-cli" ++ (match sub with | some s => " " ++ s | none => "") ++
      String.join ((all.filter (· != "GLOBAL_ID")).map (" " ++ usedText sub ·)) ++
      (if all.contains "GLOBAL_ID" then " <GLOBAL_ID>" else "") ++
      (if sub.isNone then " <COMMAND>" else "")

/-- Whether an argument looks like an option rather than a value. -/
def looksLikeOption (arg : String) : Bool := arg.startsWith "-" && arg.length > 1

/-- The refusal of an argument the reader does not take. -/
def unexpected (s : Seen) (arg : String) : Stop :=
  let tips := if looksLikeOption arg && (s.sub.map takesId).getD false then
      ["to pass '" ++ arg ++ "' as a value, use '-- " ++ arg ++ "'"]
    else []
  refusal ("unexpected argument '" ++ arg ++ "' found") tips (some (usage s.sub))

/-- The refusal of a long option the reader does not know, with the most similar one it knows,
or else, at the top, a subcommand still to come that knows a similar one. -/
def unknownLong (s : Seen) (name : String) (rest : List String) : Stop :=
  let arg := "--" ++ name
  let near := (similar name (longsOf s.sub)).getLast?
  let viaSub := if near.isSome || s.sub.isSome then none else
    (subcommands.filter (· != "help")).findSome? fun sub =>
      if rest.contains sub then (similar name (longsOf (some sub))).getLast?.map (sub, ·) else none
  let trailing := near.isNone && !s.afterDashes && (s.sub.map takesId).getD false
  let tips := (near.map fun n => "a similar argument exists: '--" ++ n ++ "'").toList ++
    (if trailing then ["to pass '" ++ arg ++ "' as a value, use '-- " ++ arg ++ "'"] else []) ++
    (viaSub.map fun (sub, n) => "'" ++ sub ++ " --" ++ n ++ "' exists").toList
  refusal ("unexpected argument '" ++ arg ++ "' found") tips
    (some (smartUsage s.sub (s.used ++ near.toList)))

/-- The refusal of a word where a subcommand belongs, with the similar subcommands. -/
def unknownSubcommand (word : String) : Stop :=
  let tip := match similar word subcommands with
    | [] => []
    | [one] => ["a similar subcommand exists: '" ++ one ++ "'"]
    | many => ["some similar subcommands exist: " ++ ", ".intercalate (many.map fun c => "'" ++ c ++ "'")]
  refusal ("unrecognized subcommand '" ++ word ++ "'") tip (some (usage none))

/-- The refusal of an option given without its value. -/
def missingValue (o : OptionSpec) : Stop :=
  refusal ("a value is required for '" ++ o.display ++ "' but none was supplied") [] none

/-- One step of reading: the next argument, with the ones after it. -/
def step (s : Seen) (arg : String) (rest : List String) : Except Stop (Seen × List String) :=
  if s.afterDashes then positional s arg rest
  else if arg = "--help" || arg = "-h" then .error { code := 0, stdout := helpText (arg = "--help") s.sub }
  else if (arg = "--version" || arg = "-V") && s.sub.isNone then .error { code := 0, stdout := versionText }
  else if arg = "--" then .ok ({ s with afterDashes := true }, rest)
  else if arg.startsWith "--" then
    let body := (arg.drop 2).toString
    let (name, inline) := match body.splitOn "=" with
      | [n] => (n, none)
      | n :: more => (n, some ("=".intercalate more))
      | [] => (body, none)
    match s.options.find? (·.long == name) with
    | none => .error (unknownLong s name rest)
    | some o =>
      match inline, rest with
      | some v, _ => do pure (← s.give o v, rest)
      | none, v :: more =>
        if looksLikeOption v then .error (missingValue o) else do pure (← s.give o v, more)
      | none, [] => .error (missingValue o)
  else if looksLikeOption arg then
    match arg.toList with
    | _ :: c :: after =>
      match s.options.find? (·.short == some c) with
      | none => .error (unexpected s ("-" ++ String.singleton c))
      | some o =>
        let after := match after with | '=' :: more => more | other => other
        if !after.isEmpty then do pure (← s.give o (String.ofList after), rest)
        else match rest with
          | v :: more => if looksLikeOption v then .error (missingValue o) else do pure (← s.give o v, more)
          | [] => .error (missingValue o)
    | _ => .error (unexpected s arg)
  else positional s arg rest
where
  /-- An argument that is not an option. -/
  positional (s : Seen) (arg : String) (rest : List String) : Except Stop (Seen × List String) :=
    match s.sub with
    | none =>
      if arg = "help" then
        match rest with
        | [] => .error { code := 0, stdout := helpText true none }
        | sub :: _ =>
          if subcommands.contains sub && sub != "help" then .error { code := 0, stdout := helpText true (some sub) }
          else .error (refusal ("unrecognized subcommand '" ++ sub ++ "'") [] (some (usage none)))
      else if subcommands.contains arg then .ok ({ s with sub := some arg, used := [] }, rest)
      else .error (unknownSubcommand arg)
    | some sub =>
      if takesId sub && s.globalId.isNone then
        match readWhole arg true (-(2 ^ 63)) (2 ^ 63 - 1) with
        | .ok v => .ok ({ s with globalId := some (Int64.ofInt v), used := s.used ++ ["GLOBAL_ID"] }, rest)
        | .error f => .error (refusal ("invalid value '" ++ arg ++ "' for '<GLOBAL_ID>': " ++ f.message) [] none)
      else .error (unexpected s arg)

/-- Reads all arguments; `fuel` bounds the steps. -/
def readAll (s : Seen) : Nat → List String → Except Stop Seen
  | 0, _ => .ok s
  | _, [] => .ok s
  | fuel + 1, arg :: rest => do
    let (s, rest) ← step s arg rest
    readAll s fuel rest

/-- The invocation read arguments make, or the refusal of them. -/
def Seen.finish (s : Seen) : Except Stop Invocation := do
  let value := fun (long : String) => (s.values.find? (·.1 == long)).map (·.2)
  let sub ← match s.sub with
    | some sub => pure sub
    | none => throw { code := 2, stderr := "error: 'gidstore-cli' requires a subcommand but one was not provided\n" ++
        "  [subcommands: " ++ ", ".intercalate subcommands ++ "]\n\nUsage: " ++ usage none ++
        "\n\nFor more information, try '--help'.\n" }
  let command ← match sub with
    | "resolve" => pure (Command.resolve (value "name") (value "opaque"))
    | "lookup" =>
      match s.used.find? fun k => k == "name" || k == "opaque" with
      | some first =>
        if s.used.contains "name" && s.used.contains "opaque" then
          let other := if first = "name" then "opaque" else "name"
          throw (refusal ("the argument '" ++ usedText s.sub first ++ "' cannot be used with '" ++
            usedText s.sub other ++ "'") [] (some (smartUsage s.sub (s.used.filter (· != other)))))
        else pure (Command.lookup (value "name") (value "opaque"))
      | none => pure (Command.lookup none none)
    | "get" | "delete" =>
      match s.globalId with
      | some g => pure (if sub = "get" then Command.get g else Command.delete g)
      | none => throw { code := 2, stderr := "error: the following required arguments were not provided:\n  <GLOBAL_ID>\n\n" ++
          "Usage: " ++ smartUsage s.sub (s.used ++ ["GLOBAL_ID"]) ++ "\n\nFor more information, try '--help'.\n" }
    | "defrag" => pure Command.defrag
    | "stats" => pure Command.stats
    | _ => pure (Command.config (value "output"))
  pure { apiUrl := (value "api-url").getD "http://localhost:8090", dataDir := value "data-dir",
         timeout := ((value "timeout").bind String.toNat?).getD 10,
         format := (value "format").getD "table", command }

/-- Reads a command line, the program's name not included. -/
def parseArgs (args : List String) : Except Stop Invocation := do
  if args.isEmpty then throw { code := 2, stderr := helpText false none }
  (← readAll {} (args.length + 1) args).finish

end MetricRegistry.Cli
