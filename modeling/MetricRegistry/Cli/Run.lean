import MetricRegistry.Cli.Args
import MetricRegistry.Api.Backend
import MetricRegistry.Api.Dto
import MetricRegistry.Json.Print
import MetricRegistry.Settings.Template
import MetricRegistry.Text.Failure

/-! Running the client on a local store or a remote server: its output as tables or JSON, its exit
status, and the files it leaves. -/

namespace MetricRegistry.Cli

open Api Disk

/-- How a run of the client ended. -/
structure Outcome where
  code : Nat
  stdout : String := ""
  stderr : String := ""

/-- A run that stopped on an error given as its message and causes. -/
def failed (chain : List String) : Outcome :=
  { code := 1, stderr := Text.failureReport chain }

/-- A run that printed `text` and ended well. -/
def printed (text : String) : Outcome := { code := 0, stdout := text }

/-- A run that reported a missing identity. -/
def missing (text : String) : Outcome := { code := 1, stderr := text ++ "\n" }

/-- An opaque key given in hexadecimal; the failure names the text. -/
def readKey (text : String) : Except (List String) ByteArray :=
  match Bytes.hexDecode text with
  | .ok key => .ok key
  | .error e => .error ["'" ++ text ++ "' is not a hex opaque key", e.message]

/-- The JSON of a found id. -/
def idJson (g : Int64) : String := Json.compact (.obj [("global_id", Json.ofInt64 g)]) ++ "\n"

/-- A table row: the label padded to `width`, a space, the value. -/
def row (width : Nat) (label value : String) : String :=
  Text.padRight label width ++ " " ++ value ++ "\n"

/-- The creation time as the table shows it: RFC 3339 to the second, or milliseconds. -/
def createdText (r : Identity) : String :=
  match Time.rfc3339OfMillis r.createdAt.toInt with
  | some iso =>
    -- whole seconds only: drop a fraction before the zone letter
    match iso.splitOn "." with
    | [whole, _] => whole ++ "Z"
    | _ => iso
  | none => toString r.createdAt.toInt

/-- Runs a command on a backend; the result is output or a failure to report. -/
def runCommand (now : Int64) (json : Bool) : Command → BackendM (Except (List String) Outcome)
  | .resolve name keyText => do
    match keyText.map readKey with
    | some (.error chain) => pure (.error chain)
    | other =>
      let key := match other with | some (.ok k) => some k | _ => none
      if name.isNone && key.isNone then return .error ["pass --name and/or --opaque"]
      let g ← Backend.resolve now name key
      pure (.ok (printed (if json then idJson g else toString g.toInt ++ "\n")))
  | .lookup name keyText => do
    let found ← match name, keyText with
      | some n, _ => Backend.lookupName n
      | none, some o =>
        match readKey o with
        | .ok key => Backend.lookupKey key
        | .error chain => return .error chain
      | none, none => return .error ["pass --name or --opaque"]
    match found with
    | some g => pure (.ok (printed (if json then idJson g else toString g.toInt ++ "\n")))
    | none => pure (.ok (missing "Not found"))
  | .get g => do
    match ← Backend.record g with
    | none => pure (.ok (missing ("Identity " ++ toString g.toInt ++ " not found")))
    | some r =>
      let v := IdentityView.ofIdentity r
      if json then pure (.ok (printed (Json.pretty 0 v.toJson ++ "\n")))
      else pure (.ok (printed (row 12 "Global ID" (toString g.toInt) ++ row 12 "Name" (v.name.getD "-") ++
        row 12 "Opaque key" (v.opaqueKey.getD "-") ++ row 12 "Created" (createdText r))))
  | .delete g => do
    if ← Backend.delete g then pure (.ok (printed ("Deleted " ++ toString g.toInt ++ "\n")))
    else pure (.ok (missing ("Identity " ++ toString g.toInt ++ " not found")))
  | .defrag => do
    let r ← Backend.defragment
    if json then pure (.ok (printed (Json.pretty 0 (reportJson r) ++ "\n")))
    else pure (.ok (printed ("Defragmented in 0 ms: " ++ toString r.recordsBefore ++ " -> " ++
      toString r.recordsAfter ++ " records, " ++ toString r.bytesBefore ++ " -> " ++
      toString r.bytesAfter ++ " bytes\n")))
  | .stats => do
    let s ← Backend.stats
    if json then pure (.ok (printed (Json.pretty 0 (statsJson s) ++ "\n")))
    else
      let percent := Text.fixedText (s.tombstoneRatio * 100.0) 1
      pure (.ok (printed (row 20 "Names" (toString s.nameCacheSize) ++
        row 20 "Opaque keys" (toString s.opaqueCacheSize) ++ row 20 "Locations" (toString s.idCacheSize) ++
        row 20 "Log records" (toString s.logSize) ++
        row 20 "Tombstones" (toString s.deletedCount ++ " (" ++ percent ++ "%)") ++
        row 20 "Inserts" (toString s.insertCount))))
  | .config _ => pure (.ok (printed ""))

/-- Runs a read command line over the file system `d`; `now` stamps new records. -/
def Invocation.run (inv : Invocation) (now : Int64) (d : Disk) : Outcome × Disk :=
  match inv.command with
  | .config (some path) =>
    match d.writeFile path Settings.defaultText.toUTF8 with
    | .ok d => (printed ("Config written to " ++ path ++ "\n"), d)
    | .error e => (failed ["writing " ++ path, e.message], d)
  | .config none => (printed Settings.defaultText, d)
  | command =>
    let json := inv.format == "json"
    let opened : Except (List String) Backend × Disk := match inv.dataDir with
      | some dir =>
        match Store.open { dataDir := dir } d with
        | .ok s _ => (.ok (.local s), s.disk)
        | .error e d => (.error (("opening store at " ++ dir) :: e.causes), d)
      | none =>
        match Backend.ofBaseUrl inv.apiUrl with
        | .ok b => (.ok b, d)
        | .error e => (.error e.causes, d)
    match opened with
    | (.error chain, d) => (failed chain, d)
    | (.ok b, d) =>
      let (result, b) := match runCommand now json command b with
        | .ok r b => (r, b)
        | .error e b => (.error e.causes, b)
      let d := match b.store? with
        | some s => s.close
        | none => d
      match result with
      | .ok out => (out, d)
      | .error chain => (failed chain, d)

/-- Runs the client on a command line over the file system `d`. -/
def run (args : List String) (now : Int64) (d : Disk) : Outcome × Disk :=
  match parseArgs args with
  | .error stop => ({ code := stop.code, stdout := stop.stdout, stderr := stop.stderr }, d)
  | .ok inv => inv.run now d

end MetricRegistry.Cli
