import MetricRegistry.Store.Resolve
import MetricRegistry.Store.Compaction
import MetricRegistry.Api.Dto
import MetricRegistry.Bytes.Hex
import MetricRegistry.Json.Basic

/-!
JSON views of what the store holds and reports: records with every stored field, compaction
reports, and the counters of tables, caches and logs. Keys are written in hexadecimal.
-/

namespace MetricRegistry

/-- A record with every stored field; `withTime` adds its creation time. -/
def Identity.toJson (r : Identity) (withTime : Bool) : Json :=
  .obj ((if withTime then [("created_at", Json.ofInt64 r.createdAt)] else []) ++
    [("global_id", Json.ofInt64 r.globalId), ("name", Json.ofOption .str r.name),
     ("opaque_key", Json.ofOption (.str ∘ Bytes.hexEncode) r.opaqueKey),
     ("tombstoned", .bool r.tombstoned)])

/-- A compaction report with the records it dropped. -/
def Store.Report.toJson (r : Store.Report) : Json :=
  .obj [("records_before", Json.ofNat r.recordsBefore), ("records_after", Json.ofNat r.recordsAfter),
        ("bytes_before", Json.ofNat r.bytesBefore), ("bytes_after", Json.ofNat r.bytesAfter),
        ("dropped", Json.ofNat r.dropped)]

/-- The counters of a table: entries, slots, removed slots, and its key store's live and dead bytes. -/
def Table.OpenTable.countersJson {κ : Type} (t : Table.OpenTable κ) : Json :=
  .obj [("len", Json.ofNat t.len), ("capacity", Json.ofNat t.capacity), ("removed", Json.ofNat t.removed),
        ("arena_len", Json.ofNat t.storeBytes), ("arena_dead", Json.ofNat t.deadBytes)]

/-- The counters of a cache. -/
def Table.Cache.countersJson {κ : Type} (c : Table.Cache κ) : Json :=
  .obj [("size", Json.ofNat c.size), ("capacity", Json.ofNat c.capacity), ("is_empty", .bool c.isEmpty)]

/-- The counters of a log, or that it is closed. -/
def Log.countersJson : Option Log.IdentityLog → Json
  | none => .obj [("open", .bool false)]
  | some l => .obj [("open", .bool true), ("size", Json.ofNat l.size), ("is_empty", .bool l.isEmpty),
      ("tombstones", Json.ofNat l.tombstones), ("data_len", Json.ofNat l.dataLen),
      ("next_id", Json.ofInt64 l.nextId)]

/-- The counters of an indexed log: its log and the size of each cache. -/
def Store.IndexedLog.countersJson (s : Store.IndexedLog) : Json :=
  .obj [("log_size", Json.ofNat s.log.size), ("tombstones", Json.ofNat s.log.tombstones),
        ("next_id", Json.ofInt64 s.log.nextId), ("names", Json.ofNat s.caches.names.size),
        ("opaque_size", Json.ofNat s.caches.opaqueKeys.size),
        ("locations", Json.ofNat s.caches.locations.size)]

/-- What a store says about itself: its description, its directory and log settings, and its
counters as one line. -/
def Store.infoJson (s : Store) : List (String × Json) :=
  [("debug", .str s.describe), ("data_dir", .str s.config.dataDir),
   ("log_access", .str s.config.access.name), ("sync_mode", .str s.config.syncMode.name),
   ("stats_display", .str s.stats.summary)]

/-- How the keys of a table are listed: as JSON, in a fixed order. -/
class ListedKey (κ : Type) where
  toJson : κ → Json
  /-- Strict order of listing. -/
  before : κ → κ → Bool

/-- Lexicographic order of byte lists. -/
def bytesBefore : List UInt8 → List UInt8 → Bool
  | [], [] => false
  | [], _ => true
  | _, [] => false
  | a :: as, b :: bs => a < b || (a == b && bytesBefore as bs)

/-- Names are listed as text, in the order of their UTF-8 bytes. -/
instance : ListedKey String := ⟨.str, fun a b => bytesBefore a.toUTF8.toList b.toUTF8.toList⟩

/-- Opaque keys are listed in hexadecimal, in the order of their bytes. -/
instance : ListedKey ByteArray := ⟨.str ∘ Bytes.hexEncode, fun a b => bytesBefore a.toList b.toList⟩

/-- Ids are listed as numbers, in numeric order. -/
instance : ListedKey Int64 := ⟨Json.ofInt64, fun a b => a.toInt < b.toInt⟩

/-- Entries as `[key, value]` pairs ordered by key, then by value. -/
def entriesJson {κ : Type} [ListedKey κ] (xs : List (κ × Int64)) : Json :=
  let sorted := xs.mergeSort fun a b =>
    ListedKey.before a.1 b.1 || (!ListedKey.before b.1 a.1 && a.2.toInt ≤ b.2.toInt)
  .arr (sorted.map fun (key, v) => .arr [ListedKey.toJson key, Json.ofInt64 v])

/-- The entries of every cache of a set. -/
def Table.CacheSet.entriesJson (c : Table.CacheSet) : Json :=
  .obj [("names", MetricRegistry.entriesJson c.names.entries),
        ("opaque", MetricRegistry.entriesJson c.opaqueKeys.entries),
        ("locations", MetricRegistry.entriesJson c.locations.entries)]

/-- What a resolution did, the identity it gave, and whether it wrote a record. -/
def Store.Resolution.fields (r : Store.Resolution) : List (String × Json) :=
  let kind := match r with
    | .existing _ => [("resolution", .str "existing")]
    | .created _ => [("resolution", .str "created")]
    | .merged _ a b => [("resolution", .str "merged"), ("replaced", .arr [Json.ofInt64 a, Json.ofInt64 b])]
  kind ++ [("global_id", Json.ofInt64 r.globalId), ("appended", .bool r.appended)]

end MetricRegistry
