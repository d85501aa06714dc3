import MetricRegistry.Store.Config
import MetricRegistry.Toml.Parse

/-! The settings of the program from a TOML file: store, caches, compaction, HTTP interface and
logging. A missing key takes its default, a present one must have its setting's type, and
unknown keys are ignored. -/

namespace MetricRegistry.Settings

open Log Table Store

/-- The variables of the process environment that the settings look at. -/
structure Environment where
  vars : List (String × String) := []

/-- The value of a variable. -/
def Environment.get? (env : Environment) (name : String) : Option String :=
  (env.vars.find? (·.1 == name)).map (·.2)

/-- `rest` below the directory `base`; an absolute `rest` stands alone, and an empty one leaves
a separator at the end. -/
def pathJoin (base rest : String) : String :=
  if rest.startsWith "/" then rest
  else if base.isEmpty then rest
  else if base.endsWith "/" then base ++ rest
  else base ++ "/" ++ rest

/-- The user's home directory. -/
def Environment.home? (env : Environment) : Option String := env.get? "HOME"

/-- A directory named by an XDG variable, used when it is absolute; else `fallback` below the
home directory. -/
def Environment.baseDir? (env : Environment) (name fallback : String) : Option String :=
  match env.get? name with
  | some dir => if dir.startsWith "/" then some dir else (env.home?).map (pathJoin · fallback)
  | none => (env.home?).map (pathJoin · fallback)

/-- The user's directory for local data. -/
def Environment.dataDir? (env : Environment) : Option String :=
  env.baseDir? "XDG_DATA_HOME" ".local/share"

/-- The user's directory for settings. -/
def Environment.configDir? (env : Environment) : Option String :=
  env.baseDir? "XDG_CONFIG_HOME" ".config"

/-- Where the log lives and how it reaches its files. -/
structure StoreSection where
  dataDir : String
  access : Access := .mapped
  syncMode : SyncMode := .batched
  syncThreshold : Nat := 65536

/-- The sizing of the three caches. -/
structure CacheSections where
  name : Sizing := {}
  opaqueKey : Sizing := {}
  location : Sizing := {}

/-- Where the HTTP interface listens, and which origins may call it; none listed allows any. -/
structure ApiSection where
  host : String := "0.0.0.0"
  port : Nat := 8090
  corsOrigins : List String := []

/-- How the program logs. -/
structure LoggingSection where
  level : String := "info"
  format : String := "pretty"

end MetricRegistry.Settings

namespace MetricRegistry

/-- The settings of the program. -/
structure Settings where
  store : Settings.StoreSection
  caches : Settings.CacheSections := {}
  defrag : Store.DefragPolicy := {}
  api : Settings.ApiSection := {}
  logging : Settings.LoggingSection := {}

end MetricRegistry

namespace MetricRegistry.Settings

open Log Table Store

/-- The data directory used when none is set. -/
def defaultDataDir (env : Environment) : String :=
  match env.dataDir? with
  | some dir => pathJoin dir "gidstore"
  | none => "./gidstore_data"

/-- The settings when nothing is set. -/
def defaults (env : Environment) : Settings :=
  { store := { dataDir := defaultDataDir env } }

/-! ## Reading values -/

open Toml

/-- A string. -/
def asString : Value → Option String
  | .str s => some s
  | _ => none

/-- A non-negative integer. -/
def asCount : Value → Option Nat
  | .int n => if n ≥ 0 then some n.toNat else none
  | _ => none

/-- An integer that fits a port. -/
def asPort : Value → Option Nat
  | .int n => if 0 ≤ n && n ≤ 65535 then some n.toNat else none
  | _ => none

/-- A float, or an integer read as one. -/
def asFloat : Value → Option Float
  | .float x => some x
  | .int n => some (Float.ofInt n)
  | _ => none

/-- A log access by its exact name. -/
def asAccess : Value → Option Access
  | .str s => Access.ofName? s
  | _ => none

/-- A sync mode by its exact name. -/
def asSyncMode : Value → Option SyncMode
  | .str s => SyncMode.ofName? s
  | _ => none

/-- A list of strings. -/
def asStrings : Value → Option (List String)
  | .arr items => items.mapM asString
  | _ => none

/-- The value of `key` in the table `t` read by `read`, or `default` when it is missing. -/
def setting {α : Type} (t : Value) (key : String) (read : Value → Option α) (default : α) :
    Except Fault α :=
  match t.field? key with
  | none => .ok default
  | some v =>
    match read v with
    | some a => .ok a
    | none => .error .invalidValue

/-- The table of `key` in `t` read by `read`, or `default` when it is missing. -/
def tableSetting {α : Type} (t : Value) (key : String) (read : Value → Except Fault α) (default : α) :
    Except Fault α :=
  match t.field? key with
  | none => .ok default
  | some (.table entries) => read (.table entries)
  | some _ => .error .invalidValue

/-- The store section. -/
def readStore (env : Environment) (t : Value) : Except Fault StoreSection := do
  let d : StoreSection := { dataDir := defaultDataDir env }
  pure { dataDir := ← setting t "data_dir" asString d.dataDir,
         access := ← setting t "log_access" asAccess d.access,
         syncMode := ← setting t "sync_mode" asSyncMode d.syncMode,
         syncThreshold := ← setting t "sync_threshold" asCount d.syncThreshold }

/-- The sizing of one cache. -/
def readSizing (t : Value) : Except Fault Sizing := do
  pure { initialCapacity := ← setting t "initial_capacity" asCount 1024,
         loadFactor := ← setting t "load_factor" asFloat 0.5 }

/-- The caches section. -/
def readCaches (t : Value) : Except Fault CacheSections := do
  pure { name := ← tableSetting t "name" readSizing {},
         opaqueKey := ← tableSetting t "opaque" readSizing {},
         location := ← tableSetting t "location" readSizing {} }

/-- The compaction policy. -/
def readDefrag (t : Value) : Except Fault DefragPolicy := do
  let d : DefragPolicy := {}
  pure { tombstoneRatio := ← setting t "tombstone_ratio" asFloat d.tombstoneRatio,
         minTombstones := ← setting t "min_tombstones" asCount d.minTombstones,
         intervalSecs := ← setting t "interval_secs" asCount d.intervalSecs }

/-- The HTTP interface section. -/
def readApi (t : Value) : Except Fault ApiSection := do
  let d : ApiSection := {}
  pure { host := ← setting t "host" asString d.host,
         port := ← setting t "port" asPort d.port,
         corsOrigins := ← setting t "cors_origins" asStrings d.corsOrigins }

/-- The logging section. -/
def readLogging (t : Value) : Except Fault LoggingSection := do
  let d : LoggingSection := {}
  pure { level := ← setting t "level" asString d.level,
         format := ← setting t "format" asString d.format }

/-- The settings a TOML document gives. -/
def ofToml (env : Environment) (root : Value) : Except Fault Settings := do
  let d := Settings.defaults env
  pure { store := ← tableSetting root "store" (readStore env) d.store,
         caches := ← tableSetting root "caches" readCaches d.caches,
         defrag := ← tableSetting root "defrag" readDefrag d.defrag,
         api := ← tableSetting root "api" readApi d.api,
         logging := ← tableSetting root "logging" readLogging d.logging }

/-- The settings a TOML text gives. -/
def parse (env : Environment) (text : String) : Except Fault Settings := do
  Settings.ofToml env (← Toml.parse text)

/-! ## The store's configuration -/

/-- A path with a leading `~/` taken below the home directory, when there is one. -/
def expandHome (home : Option String) (path : String) : String :=
  match home with
  | some h => if path.startsWith "~/" then pathJoin h (path.drop 2).toString else path
  | none => path

/-- The configuration the store is opened with, `home` being the directory `~/` stands for. -/
def storeConfig (s : Settings) (home : Option String) : Store.Config :=
  { dataDir := expandHome home s.store.dataDir, access := s.store.access,
    syncMode := s.store.syncMode, syncThreshold := s.store.syncThreshold,
    nameCache := s.caches.name, opaqueCache := s.caches.opaqueKey,
    locationCache := s.caches.location, defrag := s.defrag }

/-- The address the HTTP interface listens on. -/
def ApiSection.addr (a : ApiSection) : String := a.host ++ ":" ++ toString a.port

end MetricRegistry.Settings
