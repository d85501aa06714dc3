import MetricRegistry.Log.Basic
import MetricRegistry.Table.Cache

/-! Resolving keys to identities over a log and its caches: create, answer, or merge two
identities into one. Every change reaches the log before any cache. -/

namespace MetricRegistry.Store

open Disk Log Table

/-- A log on its file system, with the caches that index it. -/
structure IndexedLog where
  disk : Disk
  log : IdentityLog
  caches : CacheSet

/-- Operations on an indexed log. -/
abbrev IndexedM := EStateM StoreError IndexedLog

/-- What resolving a request did. -/
inductive Resolution where
  /-- The keys were known; nothing was written. -/
  | existing (globalId : Int64)
  /-- A new identity was assigned. -/
  | created (globalId : Int64)
  /-- Name and key named two identities; both gave way to a new one. -/
  | merged (globalId byName byKey : Int64)
  deriving DecidableEq, Repr

namespace Resolution

/-- The identity the request resolved to. -/
def globalId : Resolution → Int64
  | .existing g | .created g | .merged g _ _ => g

/-- Whether a record was appended to the log. -/
def appended : Resolution → Bool
  | .existing _ => false
  | _ => true

end Resolution

namespace IndexedLog

/-- Runs a log operation on the indexed log's file system and log. -/
def withLog {α : Type} (m : LogM α) : IndexedM α := fun s =>
  match m ⟨s.disk, s.log⟩ with
  | .ok a t => .ok a { s with disk := t.disk, log := t.log }
  | .error e t => .error e { s with disk := t.disk, log := t.log }

/-- Inserts an entry into one cache of the set, which keeps the cache as the insertion left it,
failed or not. -/
def putInto {κ : Type} [DecidableEq κ] [TableKey κ] (cache : CacheSet → Cache κ)
    (update : CacheSet → Cache κ → CacheSet) (key : κ) (value : Int64) : IndexedM Unit := fun s =>
  match (cache s.caches).put key value with
  | .ok _ c => .ok () { s with caches := update s.caches c }
  | .error e c => .error e { s with caches := update s.caches c }

/-- Caches the record index of an identity. -/
def putLocation (globalId index : Int64) : IndexedM Unit :=
  putInto (·.locations) (fun c locations => { c with locations }) globalId index

/-- Points both present keys at an identity. -/
def indexKeys (globalId : Int64) (name : Option String) (key : Option ByteArray) :
    IndexedM Unit := do
  if let some n := name then
    putInto (·.names) (fun c names => { c with names }) n globalId
  if let some k := key then
    putInto (·.opaqueKeys) (fun c opaqueKeys => { c with opaqueKeys }) k globalId

/-- Appends a new live record under the log's next id, stamped `now`, and caches its
location. -/
def writeRecord (now : Int64) (name : Option String) (key : Option ByteArray) :
    IndexedM Int64 := do
  let globalId := (← get).log.nextId
  let bytes ← Log.liftExcept (Record.encode (Identity.create globalId now name key))
  let index ← withLog (append bytes)
  putLocation globalId (Int64.ofNat index)
  pure globalId

/-- Marks the current record of an identity deleted and drops its cache entries; false when
the identity has no cached location. A record that no longer decodes keeps its keys cached. -/
def retire (globalId : Int64) : IndexedM Bool := do
  match (← get).caches.locations.get globalId with
  | none => pure false
  | some location =>
    let index := location.toUInt64.toNat
    let bytes ← withLog (readAt index)
    let _ ← withLog (tombstone index)
    modify fun s =>
      { s with caches := { s.caches with
          locations := (s.caches.locations.removeIf globalId location).2 } }
    if let .ok record := Record.decode bytes then
      if let some n := record.name then
        modify fun s =>
          { s with caches := { s.caches with names := (s.caches.names.removeIf n globalId).2 } }
      if let some k := record.opaqueKey then
        modify fun s =>
          { s with caches := { s.caches with
              opaqueKeys := (s.caches.opaqueKeys.removeIf k globalId).2 } }
    pure true

/-- Resolves a name and an opaque key to an identity, creating or merging identities as
needed; new records are stamped `now`. -/
def resolve (now : Int64) (name : Option String) (key : Option ByteArray) :
    IndexedM Resolution := do
  let name := Identity.keepName name
  let key := Identity.keepKey key
  if name.isNone && key.isNone then throw .invalidIdentity
  let c := (← get).caches
  match name.bind c.names.get, key.bind c.opaqueKeys.get with
  | none, none =>
    let globalId ← writeRecord now name key
    indexKeys globalId name key
    pure (.created globalId)
  | some byName, some byKey =>
    if byName = byKey then pure (.existing byName)
    else
      let globalId ← writeRecord now name key
      let _ ← retire byName
      let _ ← retire byKey
      indexKeys globalId name key
      pure (.merged globalId byName byKey)
  | some g, none | none, some g => pure (.existing g)

/-- Deletes an identity: its record is marked deleted and its cache entries dropped; false when
it has no cached location. -/
def delete (globalId : Int64) : IndexedM Bool := retire globalId

end IndexedLog

end MetricRegistry.Store
