import MetricRegistry.Store.Config
import MetricRegistry.Store.Resolve
import MetricRegistry.Store.Recovery

/-! The identity store: a log, the caches that index its live records, its configuration and its
insert count. Opening replays the log into empty caches and raises the id mark past every id. -/

namespace MetricRegistry.Store

open Disk Log Table

/-- What a replay of the log found. -/
structure ReplaySummary where
  /-- Records indexed into the caches. -/
  live : Nat := 0
  /-- Records deleted, too short or not decodable. -/
  skipped : Nat := 0
  /-- The largest id of any record with a complete header. -/
  maxGlobalId : Option Int64 := none

/-- The larger of a known largest id and another id. -/
def ReplaySummary.see (s : ReplaySummary) (g : Int64) : ReplaySummary :=
  { s with maxGlobalId := some (match s.maxGlobalId with
      | some m => if g > m then g else m
      | none => g) }

namespace IndexedLog

/-- Indexes record `index` when it is live and decodes, and notes its id either way. -/
def replayRecord (summary : ReplaySummary) (entry : Nat × ByteArray) :
    IndexedM ReplaySummary := do
  let (index, bytes) := entry
  let summary := match Record.globalId? bytes with
    | some g => summary.see g
    | none => summary
  if Record.isTombstoned bytes then return { summary with skipped := summary.skipped + 1 }
  match Record.decode bytes with
  | .error _ => return { summary with skipped := summary.skipped + 1 }
  | .ok record =>
    putLocation record.globalId (Int64.ofNat index)
    indexKeys record.globalId record.name record.opaqueKey
    return { summary with live := summary.live + 1 }

/-- Indexes every live record of the log, in order. -/
def replay : IndexedM ReplaySummary := do
  let s ← get
  (s.log.records s.disk).foldlM replayRecord {}

/-- Replays the log, then raises its next id past every id it holds. -/
def load : IndexedM Unit := do
  let summary ← replay
  if let some m := summary.maxGlobalId then
    withLog (raiseNextId (followingId m))

end IndexedLog

end MetricRegistry.Store

namespace MetricRegistry

/-- An open identity store. -/
structure Store where
  config : Store.Config
  indexed : Store.IndexedLog
  /-- Records appended since the store was opened. -/
  inserts : Nat

end MetricRegistry

namespace MetricRegistry.Store

open Disk Log Table

/-- Operations on an open store. -/
abbrev StoreM := EStateM StoreError Store

/-- Opens the store that `config` describes on a file system. -/
def «open» (config : Config) : DiskM Store := do
  Log.liftExcept config.validate
  recoverInterrupted config.dataDir config.logOptions
  let log ← IdentityLog.openIn config.dataDir config.logOptions
  let caches ← Log.liftExcept
    (CacheSet.create config.nameCache config.opaqueCache config.locationCache)
  match IndexedLog.load ⟨← get, log, caches⟩ with
  | .ok () indexed =>
    set indexed.disk
    pure { config, indexed, inserts := 0 }
  | .error e indexed =>
    set indexed.disk
    throw e

/-- The file system the store lives on. -/
def disk (s : Store) : Disk := s.indexed.disk

/-- The store's caches. -/
def caches (s : Store) : CacheSet := s.indexed.caches

/-- The store's log. -/
def log (s : Store) : IdentityLog := s.indexed.log

/-- Runs an operation on the store's log and caches. -/
def withIndexed {α : Type} (m : IndexedM α) : StoreM α := fun s =>
  match m s.indexed with
  | .ok a t => .ok a { s with indexed := t }
  | .error e t => .error e { s with indexed := t }

/-- Changes the file system under an open store. -/
protected def onDisk (s : Store) (f : Disk → Disk) : Store :=
  { s with indexed := { s.indexed with disk := f s.indexed.disk } }

/-- Resolves a name and an opaque key to an identity; new records are stamped `now`. -/
protected def resolve (now : Int64) (name : Option String) (key : Option ByteArray) : StoreM Int64 := do
  let r ← withIndexed (IndexedLog.resolve now name key)
  if r.appended then modify fun s => { s with inserts := s.inserts + 1 }
  pure r.globalId

/-- The identity a name resolves to; none for the empty name. -/
def lookupName (s : Store) (name : String) : Option Int64 :=
  if name.isEmpty then none else s.caches.names.get name

/-- The identity an opaque key resolves to; none for the empty key. -/
def lookupKey (s : Store) (key : ByteArray) : Option Int64 :=
  if key.size = 0 then none else s.caches.opaqueKeys.get key

/-- The record index of an identity's current record. -/
def locationOf (s : Store) (globalId : Int64) : Option Nat :=
  (s.caches.locations.get globalId).map (·.toUInt64.toNat)

/-- The live record of an identity: none when it has no location, or when the record there is
deleted or belongs to another identity. -/
protected def get (s : Store) (globalId : Int64) : Except StoreError (Option Identity) := do
  match s.caches.locations.get globalId with
  | none => pure none
  | some location =>
    let record ← Record.decode (← s.log.read s.disk location.toUInt64.toNat)
    pure (if record.tombstoned || record.globalId != globalId then none else some record)

/-- Deletes an identity; false when it has no cached location. -/
protected def delete (globalId : Int64) : StoreM Bool := withIndexed (IndexedLog.delete globalId)

/-- The store's counters. -/
def stats (s : Store) : Stats :=
  { nameCacheSize := s.caches.names.size
    opaqueCacheSize := s.caches.opaqueKeys.size
    idCacheSize := s.caches.locations.size
    logSize := s.log.size
    deletedCount := s.log.tombstones
    insertCount := s.inserts }

/-- Whether the configured policy calls for a compaction. -/
def needsDefragment (s : Store) : Bool := s.config.defrag.shouldDefragment s.stats

/-- Closes the store and gives back its file system. -/
protected def close (s : Store) : Disk := s.disk


end MetricRegistry.Store
