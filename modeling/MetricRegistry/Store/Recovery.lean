import MetricRegistry.Log.Basic

/-! Finishing or discarding a compaction that stopped half way: with the `SWAPPING` marker the log
is made again from the temporary log, without it the temporary files are removed. -/

namespace MetricRegistry.Store

open Disk Log

/-- The directory, under the data directory, that holds a compaction's temporary log. -/
def compactDir : String := "compact"

/-- The file whose presence says that the temporary log is complete. -/
def swapMarker : String := "SWAPPING"

/-- Appends every record of `temp`, in order, to the log, then raises the log's next id to
`temp`'s. -/
def copyBack (temp : IdentityLog) : LogM Unit := do
  let records := temp.records (← get).disk
  for (_, bytes) in records do
    let _ ← append bytes
  raiseNextId temp.nextId
  sync

/-- Leaves the files of a compaction that stopped: a temporary log holding `records`, its next id
raised to `nextId` when given, and the marker when `marked`. Every interrupted compaction leaves
files of this shape, which is what `recoverInterrupted` starts from. -/
def leaveInterrupted (dataDir : String) (options : Options) (records : List ByteArray)
    (nextId : Option Int64) (marked : Bool) : DiskM Unit := do
  let dir := join dataDir compactDir
  let temp ← IdentityLog.create dir options
  let _ ← onLog temp do
    for bytes in records do
      let _ ← append bytes
    if let some n := nextId then raiseNextId n
  if marked then
    set (← liftIo ((← get).writeFile (join dir swapMarker) ByteArray.empty))

/-- Brings the data directory back to one intact log after an interrupted compaction. -/
def recoverInterrupted (dataDir : String) (options : Options) : DiskM Unit := do
  let dir := join dataDir compactDir
  let d ← get
  if !d.exists_ dir then return
  if !d.exists_ (join dir swapMarker) then
    set (← liftIo (d.removeDirAll dir))
    return
  let temp ← IdentityLog.openIn dir options
  let log ← IdentityLog.create dataDir options
  let _ ← onLog log (copyBack temp)
  set (← liftIo ((← get).removeFile (join dir swapMarker)))
  let _ ← onLog temp destroy

end MetricRegistry.Store
