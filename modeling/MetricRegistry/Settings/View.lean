import MetricRegistry.Settings.Basic
import MetricRegistry.Json.Basic

/-!
Settings as JSON: every section with its values, as they were read, and the store configuration
they make.
-/

namespace MetricRegistry.Settings

open Store

/-- A cache sizing. -/
def sizingJson (z : Table.Sizing) : Json :=
  .obj [("initial_capacity", Json.ofNat z.initialCapacity), ("load_factor", .float z.loadFactor)]

/-- A compaction policy. -/
def policyJson (p : DefragPolicy) : Json :=
  .obj [("interval_secs", Json.ofNat p.intervalSecs), ("min_tombstones", Json.ofNat p.minTombstones),
        ("tombstone_ratio", .float p.tombstoneRatio)]

/-- A store configuration. -/
def configJson (c : Store.Config) : Json :=
  .obj [("data_dir", .str c.dataDir), ("log_access", .str c.access.name),
        ("sync_mode", .str c.syncMode.name), ("sync_threshold", Json.ofNat c.syncThreshold),
        ("name_cache", sizingJson c.nameCache), ("opaque_cache", sizingJson c.opaqueCache),
        ("location_cache", sizingJson c.locationCache), ("defrag", policyJson c.defrag)]

/-- The sections of the settings. -/
def sectionsJson (s : Settings) : List (String × Json) :=
  [("store", .obj [("data_dir", .str s.store.dataDir), ("log_access", .str s.store.access.name),
     ("sync_mode", .str s.store.syncMode.name), ("sync_threshold", Json.ofNat s.store.syncThreshold)]),
   ("caches", .obj [("name", sizingJson s.caches.name), ("opaque", sizingJson s.caches.opaqueKey),
     ("location", sizingJson s.caches.location)]),
   ("defrag", policyJson s.defrag),
   ("api", .obj [("host", .str s.api.host), ("port", Json.ofNat s.api.port),
     ("cors_origins", .arr (s.api.corsOrigins.map .str))]),
   ("logging", .obj [("level", .str s.logging.level), ("format", .str s.logging.format)])]

end MetricRegistry.Settings
