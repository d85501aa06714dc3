import MetricRegistry.Settings.Basic
import MetricRegistry.Disk.Basic
import MetricRegistry.Text.Quoted

/-! Where the settings come from: a settings file, the environment's six overrides, or the first
standard place that holds a file that loads, else the defaults. -/

namespace MetricRegistry.Settings

open Disk Log Store

/-- A port written as decimal digits after an optional plus sign, at most 65535. -/
def parsePort (text : String) : Option Nat :=
  let digits := match text.toList with
    | '+' :: rest => rest
    | cs => cs
  if digits.isEmpty || !digits.all Char.isDigit then none
  else
    let n := digits.foldl (fun n c => 10 * n + (c.toNat - '0'.toNat)) 0
    if n ≤ 65535 then some n else none

/-- The settings with the environment's overrides applied. -/
def withEnv (env : Environment) (s : Settings) : Settings :=
  let s := match env.get? "GIDSTORE_DATA_DIR" with
    | some dir => { s with store.dataDir := dir }
    | none => s
  let s := match (env.get? "GIDSTORE_LOG_ACCESS").map parseAccess with
    | some (.ok access) => { s with store.access := access }
    | _ => s
  let s := match env.get? "GIDSTORE_API_HOST" with
    | some host => { s with api.host := host }
    | none => s
  let s := match (env.get? "GIDSTORE_API_PORT").bind parsePort with
    | some port => { s with api.port := port }
    | none => s
  let s := match env.get? "GIDSTORE_LOG_LEVEL" with
    | some level => { s with logging.level := level }
    | none => s
  match env.get? "GIDSTORE_LOG_FORMAT" with
  | some format => { s with logging.format := format }
  | none => s

/-- Why a settings file did not load. -/
inductive LoadError where
  /-- The file could not be read as text. -/
  | unreadable (path : String) (cause : IoError)
  /-- The text is not TOML, or does not describe settings. -/
  | malformed (path : String) (fault : Toml.Fault)

/-- The text of a load failure; a malformed file's fault is told by its kind only. -/
def LoadError.message : LoadError → String
  | .unreadable path e => "Failed to read config file " ++ Text.quoted path ++ ": " ++ e.message
  | .malformed path f => "Failed to parse config file " ++ Text.quoted path ++ ": " ++ f.message

/-- The settings of the file at `path`, without the environment's overrides. -/
def load (env : Environment) (d : Disk) (path : String) : Except LoadError Settings :=
  match d.fileText path with
  | .error e => .error (.unreadable path e)
  | .ok text =>
    match Settings.parse env text with
    | .error f => .error (.malformed path f)
    | .ok s => .ok s

/-- The settings of the file at `path`, with the environment's overrides. -/
def loadWithEnv (env : Environment) (d : Disk) (path : String) :
    Except LoadError Settings :=
  (Settings.load env d path).map (Settings.withEnv env)

/-- The defaults with the environment's overrides. -/
def fromEnv (env : Environment) : Settings :=
  (Settings.defaults env).withEnv env

/-- The places a settings file is looked for, in order. -/
def standardPlaces (env : Environment) : List String :=
  (env.configDir?.map fun dir => pathJoin (pathJoin dir "gidstore") "config.toml").toList ++
    ["/etc/gidstore/config.toml", "./config.toml"]

/-- The settings of the first place in `places` that holds a file that loads, or `fallback`. -/
def firstLoaded (env : Environment) (d : Disk) (fallback : Settings) : List String → Settings
  | [] => fallback
  | path :: rest =>
    if d.exists_ path then
      match Settings.loadWithEnv env d path with
      | .ok s => s
      | .error _ => firstLoaded env d fallback rest
    else firstLoaded env d fallback rest

/-- The settings of the first standard place that holds a file that loads, or the defaults with
the environment's overrides. -/
def loadDefault (env : Environment) (d : Disk) : Settings :=
  firstLoaded env d (Settings.fromEnv env) (standardPlaces env)

end MetricRegistry.Settings
