import MetricRegistry.Table.Basic

/-! Caches: a table remembered with its sizing, and the three caches of a store: names to ids,
opaque keys to ids, and ids to record indices. -/

namespace MetricRegistry.Table

/-- Initial sizing of a cache: entries before the first growth, and the load factor. -/
structure Sizing where
  initialCapacity : Nat := 1024
  loadFactor : Float := 0.5

/-- One cache: a table and the sizing it was created with. -/
structure Cache (κ : Type) where
  table : OpenTable κ
  sizing : Sizing

namespace Cache

variable {κ : Type} [DecidableEq κ] [TableKey κ]

/-- An empty cache of the given sizing. -/
def create (sizing : Sizing) : Except StoreError (Cache κ) := do
  pure { table := ← OpenTable.create sizing.initialCapacity sizing.loadFactor, sizing }

/-- Number of entries. -/
def size (c : Cache κ) : Nat := c.table.len

/-- The cache holds no entry. -/
def isEmpty (c : Cache κ) : Bool := c.size = 0

/-- Number of slots of the table. -/
def capacity (c : Cache κ) : Nat := c.table.capacity

/-- The value under `key`. -/
def get (c : Cache κ) (key : κ) : Option Int64 := c.table.get key

/-- Whether `key` has an entry. -/
def contains (c : Cache κ) (key : κ) : Bool := c.table.contains key

/-- Inserts or overwrites; answers the previous value. A failure comes with the cache as the
failed insertion left it. -/
def put (c : Cache κ) (key : κ) (value : Int64) : EStateM.Result StoreError (Cache κ) (Option Int64) :=
  match c.table.insert key value with
  | .ok prev t => .ok prev { c with table := t }
  | .error e t => .error e { c with table := t }

/-- Inserts unless present; answers the value already there. -/
def putIfAbsent (c : Cache κ) (key : κ) (value : Int64) :
    EStateM.Result StoreError (Cache κ) (Option Int64) :=
  match c.table.insertIfAbsent key value with
  | .ok prev t => .ok prev { c with table := t }
  | .error e t => .error e { c with table := t }

/-- Removes `key`; answers its value. -/
def remove (c : Cache κ) (key : κ) : Option Int64 × Cache κ :=
  let (prev, t) := c.table.remove key
  (prev, { c with table := t })

/-- Removes `key` only while it maps to `expected`; answers whether it did. -/
def removeIf (c : Cache κ) (key : κ) (expected : Int64) : Bool × Cache κ :=
  if c.get key = some expected then (true, (c.remove key).2) else (false, c)

/-- Inserts every entry in order, later ones overwriting earlier ones; the first failure stops
the pass and keeps what it inserted so far. -/
def putAll (c : Cache κ) : List (κ × Int64) → EStateM.Result StoreError (Cache κ) Unit
  | [] => .ok () c
  | (k, v) :: rest =>
    match c.put k v with
    | .ok _ c => c.putAll rest
    | .error e c => .error e c

/-- Drops every entry and keeps the capacity. -/
def clear (c : Cache κ) : Cache κ := { c with table := c.table.clear }

/-- Drops every entry and returns to the initial capacity. -/
def purge (c : Cache κ) : Cache κ := { c with table := c.table.purge }

/-- The entries, in slot order. -/
def entries (c : Cache κ) : List (κ × Int64) := c.table.toList

end Cache

/-- The three caches of an identity store. -/
structure CacheSet where
  names : Cache String
  opaqueKeys : Cache ByteArray
  locations : Cache Int64

namespace CacheSet

/-- Empty caches of the given sizings. -/
def create (names keys locations : Sizing) : Except StoreError CacheSet := do
  pure { names := ← Cache.create names, opaqueKeys := ← Cache.create keys,
         locations := ← Cache.create locations }

/-- Empty caches sized like these ones. -/
def fresh (c : CacheSet) : Except StoreError CacheSet :=
  create c.names.sizing c.opaqueKeys.sizing c.locations.sizing

/-- Drops every entry of all three caches, keeping their capacities. -/
def clear (c : CacheSet) : CacheSet :=
  { names := c.names.clear, opaqueKeys := c.opaqueKeys.clear, locations := c.locations.clear }

end CacheSet

end MetricRegistry.Table
