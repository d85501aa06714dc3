import MetricRegistry.Core.Instances

/-! Metric identities and store counters: a permanent 64-bit id with a creation time, a name and
an opaque key, where an empty key is no key. -/

namespace MetricRegistry

/-- One identity record. -/
structure Identity where
  /-- Permanent id, never handed out twice. -/
  globalId : Int64
  /-- Creation time in milliseconds since the epoch. -/
  createdAt : Int64
  /-- Human-readable name. -/
  name : Option String
  /-- Alternate binary key. -/
  opaqueKey : Option ByteArray
  /-- Marked deleted in the log and not yet compacted away. -/
  tombstoned : Bool
  deriving DecidableEq

namespace Identity

/-- A present, non-empty key. -/
def keepName (name : Option String) : Option String :=
  name.filter (fun n => !n.isEmpty)

/-- A present, non-empty opaque key. -/
def keepKey (key : Option ByteArray) : Option ByteArray :=
  key.filter (fun k => k.size != 0)

/-- A live identity with its empty keys dropped. -/
def create (globalId createdAt : Int64) (name : Option String) (key : Option ByteArray) :
    Identity :=
  { globalId, createdAt, name := keepName name, opaqueKey := keepKey key, tombstoned := false }

/-- The identity carries at least one key. -/
def hasKey (r : Identity) : Bool := r.name.isSome || r.opaqueKey.isSome

end Identity

/-- Counters of a store: entries in each cache, records in the log, tombstones among them, and
records appended since the store was opened. -/
structure Stats where
  nameCacheSize : Nat
  opaqueCacheSize : Nat
  idCacheSize : Nat
  logSize : Nat
  deletedCount : Nat
  insertCount : Nat
  deriving DecidableEq, Repr

namespace Stats

/-- The share of log records that are tombstones; zero for an empty log. -/
def tombstoneRatio (s : Stats) : Float :=
  if s.logSize = 0 then 0.0
  else s.deletedCount.toUInt64.toFloat / s.logSize.toUInt64.toFloat

/-- The one-line summary of the counters. -/
def summary (s : Stats) : String :=
  let names := s.nameCacheSize
  let keyCount := s.opaqueCacheSize
  let ids := s.idCacheSize
  let log := s.logSize
  let deleted := s.deletedCount
  let inserts := s.insertCount
  s!"Names: {names}, Opaque: {keyCount}, IDs: {ids}, Log: {log} ({deleted} deleted), Inserts: {inserts}"

end Stats

end MetricRegistry
