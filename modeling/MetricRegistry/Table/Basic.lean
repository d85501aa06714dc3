import MetricRegistry.Table.Prime
import MetricRegistry.Store.Error
import MetricRegistry.Hash.Fx
import MetricRegistry.Text.Shortest

/-! Open-addressing tables from keys to signed words, with double-hashing probes, removed marks,
a key store of copied key bytes, and rebuilds past the fill limit or the dead-byte limit.
The observable content of a table is `toList`. -/

namespace MetricRegistry.Table

/-- How a key is hashed and how many key-store bytes its stored copy takes. -/
class TableKey (κ : Type) where
  hash : κ → UInt64
  storedSize : κ → Nat

instance : TableKey String where
  hash s := Hash.hashBytes s.toUTF8
  storedSize s := s.utf8ByteSize

instance : TableKey ByteArray where
  hash b := Hash.hashBytes b
  storedSize b := b.size

instance : TableKey Int64 where
  hash n := Hash.hashInt64 n
  storedSize _ := 0

/-- One slot of a table. -/
inductive Slot (κ : Type) where
  | free
  | full (key : κ) (value : Int64)
  | removed
  deriving Inhabited

/-- Dead key-store bytes tolerated before they can force a rebuild on their own. -/
def deadBytesFloor : Nat := 4096

/-- The largest key-store offset or key length. -/
def storeLimit : Nat := 2 ^ 32 - 1

/-- Bytes per slot in the slot array, which bounds the capacity a table can allocate. -/
def slotWidth : Nat := 17

/-- An open-addressing table. -/
structure OpenTable (κ : Type) where
  slots : Array (Slot κ)
  initialCapacity : Nat
  loadFactor : Float
  maxFill : Nat
  len : Nat
  removed : Nat
  /-- Bytes held by the key store, live and dead. -/
  storeBytes : Nat
  /-- Bytes of the key store that belong to removed keys. -/
  deadBytes : Nat

/-- Where an insertion goes: the slot holding the key, or a vacant slot for it. -/
inductive Probe where
  | found (slot : Nat)
  | vacant (slot : Nat)
  deriving DecidableEq, Repr

namespace OpenTable

variable {κ : Type} [DecidableEq κ] [TableKey κ]

/-- Number of slots. -/
def capacity (t : OpenTable κ) : Nat := t.slots.size

/-- The live entries in slot order. -/
def toList (t : OpenTable κ) : List (κ × Int64) :=
  t.slots.toList.filterMap fun
    | .full k v => some (k, v)
    | _ => none

/-- The home slot of a hash. -/
def home (h : UInt64) (cap : Nat) : Nat := h.toNat % cap

/-- The probe step of a hash. -/
def stride (h : UInt64) (cap : Nat) : Nat := 1 + h.toNat % (cap - 2)

/-- Walks at most `steps` slots from `i`, stopping at a free slot or at the key. -/
def findFrom (slots : Array (Slot κ)) (key : κ) (step : Nat) : Nat → Nat → Option Nat
  | 0, _ => none
  | steps + 1, i =>
    match slots[i]? with
    | some .free | none => none
    | some (.full k _) =>
      if k = key then some i else findFrom slots key step steps ((i + step) % slots.size)
    | some .removed => findFrom slots key step steps ((i + step) % slots.size)

/-- The slot holding `key`. -/
def find (t : OpenTable κ) (key : κ) : Option Nat :=
  let h := TableKey.hash key
  findFrom t.slots key (stride h t.capacity) t.capacity (home h t.capacity)

/-- The value of the full slot `i`. -/
def valueAt (t : OpenTable κ) (i : Nat) : Option Int64 :=
  match t.slots[i]? with
  | some (.full _ v) => some v
  | _ => none

/-- The value stored under `key`. -/
def get (t : OpenTable κ) (key : κ) : Option Int64 :=
  (t.find key).bind t.valueAt

/-- Whether `key` has an entry. -/
def contains (t : OpenTable κ) (key : κ) : Bool := (t.find key).isSome

/-- Walks at most `steps` slots from `i` for an insertion of `key`, remembering the first removed
slot passed. -/
def probeFrom (slots : Array (Slot κ)) (key : κ) (step : Nat) :
    Nat → Nat → Option Nat → Option Probe
  | 0, _, firstRemoved => firstRemoved.map .vacant
  | steps + 1, i, firstRemoved =>
    let next := (i + step) % slots.size
    match slots[i]? with
    | some .free | none => some (.vacant (firstRemoved.getD i))
    | some (.full k _) =>
      if k = key then some (.found i) else probeFrom slots key step steps next firstRemoved
    | some .removed => probeFrom slots key step steps next (firstRemoved <|> some i)

/-- Where an insertion of `key` goes. -/
def probe (t : OpenTable κ) (key : κ) : Except StoreError Probe :=
  let h := TableKey.hash key
  match probeFrom t.slots key (stride h t.capacity) t.capacity (home h t.capacity) none with
  | some p => .ok p
  | none => .error (.capacityExceeded "hash table has no vacant slot")

/-- A slot array of `cap` free slots, refused when its byte size leaves the word range; a size
past the largest signed word panics, as a vector of that many bytes cannot be made. -/
def allocate (cap : Nat) : Except StoreError (Array (Slot κ)) :=
  if cap * slotWidth ≥ wordLimit then .error (.capacityExceeded s!"hash table capacity {cap}")
  else if cap * slotWidth ≥ signedLimit then .error (.overflow .capacity)
  else .ok (Array.replicate cap .free)

/-- Walks at most `steps` slots from `i` to the first free one. -/
def freeFrom (slots : Array (Slot κ)) (step : Nat) : Nat → Nat → Option Nat
  | 0, _ => none
  | steps + 1, i =>
    match slots[i]? with
    | some .free => some i
    | _ => freeFrom slots step steps ((i + step) % slots.size)

/-- Places one entry into a slot array that has a free slot on its probe sequence. -/
def place (slots : Array (Slot κ)) (key : κ) (value : Int64) : Except StoreError (Array (Slot κ)) :=
  let h := TableKey.hash key
  match freeFrom slots (stride h slots.size) slots.size (home h slots.size) with
  | some i => .ok (slots.set! i (.full key value))
  | none => .error (.capacityExceeded "hash table has no vacant slot")

/-- Rebuilds the table with `cap` slots: the full slots in slot order, into a fresh key store. -/
def rehash (t : OpenTable κ) (cap : Nat) : Except StoreError (OpenTable κ) := do
  let fresh ← allocate cap
  let live := t.toList
  let bytes := (live.map fun (k, _) => TableKey.storedSize k).sum
  if bytes > storeLimit then throw (.capacityExceeded "key arena exceeds 4 GiB")
  let slots ← live.foldlM (fun s (k, v) => place s k v) fresh
  pure { t with slots, maxFill := Table.maxFill cap t.loadFactor, removed := 0,
                storeBytes := bytes, deadBytes := 0 }

/-- Copies `key` into the key store, refused past 4 GiB. -/
def storeKey (t : OpenTable κ) (key : κ) : Except StoreError Nat :=
  let size := TableKey.storedSize key
  if t.storeBytes > storeLimit then .error (.capacityExceeded "key arena exceeds 4 GiB")
  else if size > storeLimit then .error (.capacityExceeded s!"key of {size} bytes")
  else if t.storeBytes + size > storeLimit then .error (.capacityExceeded "key arena exceeds 4 GiB")
  else .ok (t.storeBytes + size)

/-- Rebuilds a table whose full and removed slots passed its fill limit (growing it, unless
removed slots make up at least half of them) or whose key store holds more dead bytes than the
floor and than live ones; any other table is kept as it is. -/
def settle (t : OpenTable κ) : Except StoreError (OpenTable κ) :=
  if t.len + t.removed > t.maxFill then do
    let target ← (if t.removed * 2 ≥ t.len + t.removed then capacityFor (t.len + 1) t.loadFactor
      else capacityFor (t.len * 2) t.loadFactor).mapError StoreError.overflow
    t.rehash target
  else if t.deadBytes > deadBytesFloor ∧ t.deadBytes > t.storeBytes - t.deadBytes then
    t.rehash t.capacity
  else pure t

/-- Puts a new entry into the vacant slot `i`, then settles the table. The entry is written
before the rebuild, so a rebuild that fails leaves the table holding it, over its fill limit; a
key the key store refuses is never written. -/
def occupy (t : OpenTable κ) (i : Nat) (key : κ) (value : Int64) :
    EStateM.Result StoreError (OpenTable κ) Unit :=
  match t.storeKey key with
  | .error e => .error e t
  | .ok storeBytes =>
    let wasFree := match t.slots[i]? with
      | some .free => true
      | _ => false
    let t := { t with slots := t.slots.set! i (.full key value), storeBytes, len := t.len + 1,
                      removed := if wasFree then t.removed else t.removed - 1 }
    match t.settle with
    | .ok t' => .ok () t'
    | .error e => .error e t

/-- Inserts or overwrites; answers the previous value. A failure comes with the table as the
failed step left it. -/
def insert (t : OpenTable κ) (key : κ) (value : Int64) :
    EStateM.Result StoreError (OpenTable κ) (Option Int64) :=
  match t.probe key with
  | .error e => .error e t
  | .ok (.found i) => .ok (t.valueAt i) { t with slots := t.slots.set! i (.full key value) }
  | .ok (.vacant i) =>
    match t.occupy i key value with
    | .ok () t' => .ok none t'
    | .error e t' => .error e t'

/-- Inserts unless present; answers the value already there. -/
def insertIfAbsent (t : OpenTable κ) (key : κ) (value : Int64) :
    EStateM.Result StoreError (OpenTable κ) (Option Int64) :=
  match t.probe key with
  | .error e => .error e t
  | .ok (.found i) => .ok (t.valueAt i) t
  | .ok (.vacant i) =>
    match t.occupy i key value with
    | .ok () t' => .ok none t'
    | .error e t' => .error e t'

/-- Removes `key`, leaving a removed mark; answers its value. -/
def remove (t : OpenTable κ) (key : κ) : Option Int64 × OpenTable κ :=
  match t.find key with
  | none => (none, t)
  | some i =>
    (t.valueAt i, { t with slots := t.slots.set! i .removed, len := t.len - 1,
                           removed := t.removed + 1,
                           deadBytes := t.deadBytes + TableKey.storedSize key })

/-- Drops every entry and keeps the capacity. -/
def clear (t : OpenTable κ) : OpenTable κ :=
  { t with slots := Array.replicate t.capacity .free, len := 0, removed := 0, storeBytes := 0,
           deadBytes := 0 }

/-- Drops every entry and returns to the initial capacity. -/
def purge (t : OpenTable κ) : OpenTable κ :=
  { t with slots := Array.replicate t.initialCapacity .free,
           maxFill := Table.maxFill t.initialCapacity t.loadFactor, len := 0, removed := 0,
           storeBytes := 0, deadBytes := 0 }

/-- An empty table sized for `expected` entries at load factor `lf`, which must lie strictly
between 0 and 1. -/
def create (expected : Nat) (lf : Float) : Except StoreError (OpenTable κ) := do
  if !(0.0 < lf && lf < 1.0) then
    let shown := Text.plainText lf
    throw (.config s!"load factor must be in (0, 1), got {shown}")
  let cap ← (capacityFor expected lf).mapError StoreError.overflow
  let slots ← allocate cap
  pure { slots, initialCapacity := cap, loadFactor := lf, maxFill := Table.maxFill cap lf, len := 0,
         removed := 0, storeBytes := 0, deadBytes := 0 }

end OpenTable

end MetricRegistry.Table
