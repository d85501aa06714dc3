import MetricRegistry.Log.Basic
import MetricRegistry.Table.Cache
import MetricRegistry.Text.Lowercase
import MetricRegistry.Text.Shortest

/-! How a store is set up: its log's place, access and syncing, its caches' sizes and its
compaction policy. A configuration is usable when its ratio and load factors are in range. -/

namespace MetricRegistry.Store

open Log Table Text

/-- When a store should be compacted. -/
structure DefragPolicy where
  /-- Share of log records that are tombstones. -/
  tombstoneRatio : Float := 0.3
  /-- Tombstones required before the ratio is considered. -/
  minTombstones : Nat := 1000
  /-- Seconds between two checks in the background; 0 turns the checks off. -/
  intervalSecs : Nat := 300

/-- A store is due for compaction when it has tombstones, at least the policy's least number
of them, and a tombstone ratio of at least the policy's. -/
def DefragPolicy.shouldDefragment (p : DefragPolicy) (s : Stats) : Bool :=
  s.deletedCount > 0 && decide (s.deletedCount ≥ p.minTombstones) &&
    decide (s.tombstoneRatio ≥ p.tombstoneRatio)

/-- Everything a store is opened with. -/
structure Config where
  dataDir : String
  access : Access := .mapped
  syncMode : SyncMode := .batched
  syncThreshold : Nat := 65536
  nameCache : Sizing := {}
  opaqueCache : Sizing := {}
  locationCache : Sizing := {}
  defrag : DefragPolicy := {}

namespace Config

/-- The options the store's log is opened with. -/
def logOptions (c : Config) : Options :=
  { access := c.access, syncMode := c.syncMode, syncThreshold := c.syncThreshold }

/-- A load factor is usable strictly between 0 and 1; `name` says which cache it sizes. -/
def checkLoadFactor (name : String) (sizing : Sizing) : Except StoreError Unit :=
  let lf := sizing.loadFactor
  if lf > 0.0 && lf < 1.0 then pure ()
  else throw (.config (name ++ " cache load_factor must be within (0, 1), got " ++ plainText lf))

/-- Checks the tombstone ratio, then the name, opaque and location caches' load factors. -/
def validate (c : Config) : Except StoreError Unit := do
  let ratio := c.defrag.tombstoneRatio
  unless 0.0 ≤ ratio && ratio ≤ 1.0 do
    throw (.config ("defrag tombstone_ratio must be within [0, 1], got " ++ plainText ratio))
  checkLoadFactor "name" c.nameCache
  checkLoadFactor "opaque" c.opaqueCache
  checkLoadFactor "location" c.locationCache

end Config

/-- Reads a log access from its name, in any case: `mapped` or `mmap`, or `file`. -/
def parseAccess (text : String) : Except StoreError Access :=
  match lower text with
  | "mapped" | "mmap" => .ok .mapped
  | "file" => .ok .file
  | other => .error (.config ("Unknown log access: " ++ other))

end MetricRegistry.Store
