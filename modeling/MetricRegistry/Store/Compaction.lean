import MetricRegistry.Store.Basic
import MetricRegistry.Text.Quoted

/-! Compaction: the live records are copied to a temporary log, marked complete and put back in
place of the log, whose caches are rebuilt; a failure after the copy aborts the process. -/
namespace MetricRegistry.Store

open Disk Log Table

/-- What one compaction did. -/
structure Report where
  recordsBefore : Nat
  recordsAfter : Nat
  bytesBefore : Nat
  bytesAfter : Nat
  deriving DecidableEq, Repr

/-- Records the compaction dropped. -/
def Report.dropped (r : Report) : Nat := r.recordsBefore - r.recordsAfter

/-- Appends a record's live copy when the record is live and decodes. -/
def keepLive (bytes : ByteArray) : LogM Unit := do
  if Record.isTombstoned bytes then return
  match Record.decode bytes with
  | .ok record =>
    let _ ← append (← Log.liftExcept (Record.encode record))
  | .error _ => pure ()

/-- Copies the live records of `log` to a new log in `dir` that takes `log`'s next id, then
writes the marker. -/
def rewriteLive (log : IdentityLog) (dir : String) : DiskM IdentityLog := do
  let temp ← IdentityLog.create dir { log.options with syncMode := .never }
  let records := log.records (← get)
  let ((), temp) ← onLog temp do
    for (_, bytes) in records do
      keepLive bytes
    raiseNextId log.nextId
    sync
  set (← liftIo ((← get).writeFile (join dir swapMarker) ByteArray.empty))
  pure temp

/-- Removes the marker and then the temporary log; a failure stops the removal and is not
reported. -/
def discardTemp (temp : IdentityLog) (dir : String) (d : Disk) : Disk :=
  match d.removeFile (join dir swapMarker) with
  | .error _ => d
  | .ok d =>
    match onLog temp destroy d with
    | .ok _ d => d
    | .error _ d => d


/-- Removes the compaction directory after a copy that failed; a failure to remove it is not
reported. -/
def abandon (dir : String) (d : Disk) : Disk :=
  match d.removeDirAll dir with
  | .ok d => d
  | .error _ => d

/-- Puts the copy `temp`, kept in `dir`, in place of the log: the log is made again, empty, the
copy's records are appended back, and the copy and its marker are removed. -/
def swap (temp : IdentityLog) (dir : String) : StoreM Unit := do
  withIndexed (IndexedLog.withLog recreate)
  withIndexed (IndexedLog.withLog (copyBack temp))
  modify fun s => s.onDisk (discardTemp temp dir)

/-- Replays the log into empty caches of the same sizing, which take the place of the caches
once the replay succeeds; the caches stay as they were when it fails. -/
def rebuild : StoreM Unit := do
  let s ← getThe Store
  let caches ← Log.liftExcept s.caches.fresh
  match IndexedLog.replay { s.indexed with caches } with
  | .ok _ indexed => set { s with indexed }
  | .error e _ => throw e

/-- Runs a stage of a compaction after which the log cannot be trusted: its failure aborts the
process in `phase`. -/
def halting {α : Type} (phase : Phase) (m : StoreM α) : StoreM α := fun s =>
  match m s with
  | .ok a s' => .ok a s'
  | .error e s' => .error (e.abortIn phase) s'

/-- Rewrites the log without its deleted records and rebuilds the caches from it. A failure of the
rewrite leaves the store as it was; a failure of the swap or of the rebuild aborts the process. -/
def defragment : StoreM Report := do
  let s ← getThe Store
  let log : IdentityLog := s.log
  let dir := join log.dir compactDir
  match rewriteLive log dir s.disk with
  | .error e d =>
    set (s.onDisk fun _ => abandon dir d)
    throw e
  | .ok temp d =>
    set (s.onDisk fun _ => d)
    halting .swapping (swap temp dir)
    halting .reloading rebuild
    let after : IdentityLog := (← getThe Store).log
    pure { recordsBefore := log.size, recordsAfter := after.size,
           bytesBefore := log.dataLen, bytesAfter := after.dataLen }

/-- The compaction phase a caller sees: a compaction runs within one call, so between calls the
store is idle. -/
def phase (_ : Store) : Phase := .idle

/-- The one-line description of a store: its data directory and its compaction phase. -/
def describe (s : Store) : String :=
  "MetricStore \x7b data_dir: " ++ Text.quoted s.config.dataDir ++ ", phase: " ++ s.phase.label ++
    ", .. \x7d"


end MetricRegistry.Store
