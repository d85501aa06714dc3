import MetricRegistry.Bytes.Hex
import MetricRegistry.Json.Basic
import MetricRegistry.Record.Identity
import MetricRegistry.Store.Compaction
import MetricRegistry.Time.Rfc3339

/-! What the HTTP interface sends and receives: opaque keys as hexadecimal text, records with
their creation time in milliseconds and as RFC 3339 text, and counters as flat objects. -/

namespace MetricRegistry.Api

/-- Reads an opaque key from hexadecimal text; the message names the field. -/
def decodeOpaque (text : String) : Except String ByteArray :=
  match Bytes.hexDecode text with
  | .ok bytes => .ok bytes
  | .error e => .error ("opaque_key is not valid hex: " ++ e.message)

/-- A request to resolve a name, an opaque key in hexadecimal, or both. -/
structure ResolveRequest where
  name : Option String := none
  opaqueKey : Option String := none
  deriving DecidableEq, Repr

/-- The opaque key of a request as bytes, when it has one. -/
def ResolveRequest.opaqueBytes (r : ResolveRequest) : Except String (Option ByteArray) :=
  match r.opaqueKey with
  | some text => some <$> decodeOpaque text
  | none => pure none

/-- A record as the interface shows it. -/
structure IdentityView where
  globalId : Int64
  /-- Milliseconds since the epoch. -/
  createdAt : Int64
  /-- The creation time as RFC 3339 text; none outside the years that have one. -/
  createdAtIso : Option String
  name : Option String
  /-- The opaque key in lowercase hexadecimal. -/
  opaqueKey : Option String
  deriving DecidableEq, Repr

namespace IdentityView

/-- How a record is shown. -/
def ofIdentity (r : Identity) : IdentityView :=
  { globalId := r.globalId, createdAt := r.createdAt,
    createdAtIso := Time.rfc3339OfMillis r.createdAt.toInt, name := r.name,
    opaqueKey := r.opaqueKey.map Bytes.hexEncode }

/-- The live record a view shows; an empty name or key counts as absent. -/
def toIdentity (v : IdentityView) : Except String Identity := do
  let key ← match v.opaqueKey with
    | some text => some <$> decodeOpaque text
    | none => pure none
  pure { globalId := v.globalId, createdAt := v.createdAt, name := Identity.keepName v.name,
         opaqueKey := Identity.keepKey key, tombstoned := false }

/-- The view as a JSON object. -/
def toJson (v : IdentityView) : Json :=
  .obj [("global_id", Json.ofInt64 v.globalId), ("created_at", Json.ofInt64 v.createdAt),
        ("created_at_iso", Json.ofOption .str v.createdAtIso), ("name", Json.ofOption .str v.name),
        ("opaque_key", Json.ofOption .str v.opaqueKey)]

end IdentityView

/-- The counters as a flat object. -/
def statsFields (s : Stats) : List (String × Json) :=
  [("name_cache_size", Json.ofNat s.nameCacheSize), ("opaque_cache_size", Json.ofNat s.opaqueCacheSize),
   ("id_cache_size", Json.ofNat s.idCacheSize), ("log_size", Json.ofNat s.logSize),
   ("deleted_count", Json.ofNat s.deletedCount), ("insert_count", Json.ofNat s.insertCount)]

/-- The counters with their tombstone ratio. -/
def statsJson (s : Stats) : Json := .obj (statsFields s ++ [("tombstone_ratio", .float s.tombstoneRatio)])

/-- A compaction report; the model's compaction takes no time. -/
def reportJson (r : Store.Report) : Json :=
  .obj [("records_before", Json.ofNat r.recordsBefore), ("records_after", Json.ofNat r.recordsAfter),
        ("bytes_before", Json.ofNat r.bytesBefore), ("bytes_after", Json.ofNat r.bytesAfter),
        ("duration_ms", Json.ofNat 0)]

/-- The answer to a compaction: the counters on either side of it and its report. -/
def defragmentJson (before after : Stats) (r : Store.Report) : Json :=
  .obj [("before", .obj (statsFields before)), ("after", .obj (statsFields after)),
        ("report", reportJson r)]

end MetricRegistry.Api
