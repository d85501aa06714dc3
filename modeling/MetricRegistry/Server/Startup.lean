import MetricRegistry.Settings.Load
import MetricRegistry.Store.Basic
import MetricRegistry.Text.Failure
import MetricRegistry.Server.Filter

/-! How the server starts: its settings, its log filter, its store, then its listening socket.
Any failure ends the program with status 1 and a report of the error and its causes. -/

namespace MetricRegistry.Server

open Disk Settings

/-- How a start ended: serving with these settings and this store, or stopped. Both carry what
the server wrote to its error stream, which for a stop ends with the report. -/
inductive Startup where
  | serving (settings : Settings) (store : Store) (errors : String)
  | failed (errors : String)

/-- Starts the server over the file system `d`; `portTaken` says the listening address is in use. -/
def start (env : Environment) (portTaken : Bool) (d : Disk) : Startup × Disk :=
  let loaded := match env.get? "GIDSTORE_CONFIG" with
    | some path => Settings.loadWithEnv env d path
    | none => .ok (Settings.loadDefault env d)
  match loaded with
  | .error e => (.failed (Text.failureReport [e.message]), d)
  | .ok s =>
    let warnings := filterWarnings env s.logging.level
    match Store.open (s.storeConfig env.home?) d with
    | .error e d => (.failed (warnings ++ Text.failureReport e.causes), d)
    | .ok store _ =>
      if portTaken then
        let io := "Address already in use (os error 98)"
        (.failed (warnings ++ Text.failureReport ["IO error: " ++ io, io]), store.disk)
      else (.serving s store warnings, store.disk)

end MetricRegistry.Server
