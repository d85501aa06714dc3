import MetricRegistry.Disk.Error
import MetricRegistry.Table.Prime

/-! Errors of the identity store, each with its message. A word overflow panics and a compaction
that fails after the log was emptied aborts: both stop the process. -/

namespace MetricRegistry

namespace Store

/-- Where a compaction run is. Between operations a store is always idle. -/
inductive Phase where
  | idle
  | snapshotting
  | rewritingLive
  | swapping
  | reloading
  deriving DecidableEq, Repr

namespace Phase

/-- The name a phase is written with in answers. -/
def name : Phase → String
  | .idle => "idle"
  | .snapshotting => "snapshotting"
  | .rewritingLive => "rewriting_live"
  | .swapping => "swapping"
  | .reloading => "reloading"

/-- The name a phase is written with in a store's description. -/
def label : Phase → String
  | .idle => "Idle"
  | .snapshotting => "Snapshotting"
  | .rewritingLive => "RewritingLive"
  | .swapping => "Swapping"
  | .reloading => "Reloading"

end Phase

end Store

/-- Why a store operation failed. -/
inductive StoreError where
  /-- Neither a name nor an opaque key was given. -/
  | invalidIdentity
  /-- A record is too short or its lengths do not add up. -/
  | corruptRecord (detail : String)
  /-- A file-system call failed. -/
  | logIo (cause : Disk.IoError)
  /-- The log's files are missing, damaged or from another platform. -/
  | invalidLog (detail : String)
  /-- The configuration is not usable. -/
  | config (detail : String)
  /-- A table or key store would leave its addressable size. -/
  | capacityExceeded (detail : String)
  /-- Word arithmetic overflowed, or a slot vector outgrew a signed word: a panic. -/
  | overflow (cause : Table.Overflow)
  /-- A compaction failed in `phase`, after the log was emptied: the process aborts. -/
  | aborted (phase : Store.Phase) (cause : StoreError)
  deriving DecidableEq, Repr

namespace StoreError

/-- The message of a store error. -/
def message : StoreError → String
  | .invalidIdentity => "Invalid identity: a name or an opaque key is required"
  | .corruptRecord d => "Corrupt record: " ++ d
  | .logIo e => "Log IO error: " ++ e.message
  | .invalidLog d => "Invalid log: " ++ d
  | .config d => "Configuration error: " ++ d
  | .capacityExceeded d => "Capacity exceeded: " ++ d
  | .overflow o => o.message
  | .aborted p e => "Compaction failed while " ++ p.name ++ ": " ++ e.message ++
      "; aborting to protect the identity log"

/-- The message of the error followed by the messages of the failures beneath it. -/
def causes : StoreError → List String
  | .logIo e => ["Log IO error: " ++ e.message, e.message]
  | e => [e.message]

/-- The short name of the cause. -/
def kind : StoreError → String
  | .invalidIdentity => "InvalidIdentity"
  | .corruptRecord _ => "CorruptRecord"
  | .logIo _ => "LogIo"
  | .invalidLog _ => "InvalidLog"
  | .config _ => "Config"
  | .capacityExceeded _ => "CapacityExceeded"
  | .overflow _ => "panic"
  | .aborted _ _ => "abort"

/-- A panic: it unwinds out of every call in progress. -/
def isPanic : StoreError → Bool
  | .overflow _ => true
  | _ => false

/-- The failure stops the process: a panic or an abort. No later call runs. -/
def stopsProcess : StoreError → Bool
  | .overflow _ | .aborted _ _ => true
  | _ => false

/-- The failure of a stage after which the log cannot be trusted: an error aborts the process in
`phase`, and a failure that stops the process already stays as it is. -/
def abortIn (phase : Store.Phase) (e : StoreError) : StoreError :=
  if e.stopsProcess then e else .aborted phase e

end StoreError

end MetricRegistry
