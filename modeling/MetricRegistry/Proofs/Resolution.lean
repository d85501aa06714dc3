import MetricRegistry.Proofs.Indexing
import MetricRegistry.Proofs.LogFiles
import MetricRegistry.Store.Resolve

/-! Resolving and deleting keep a store consistent (`Consistent`): each step of a resolution has
one lemma, and the outcomes and deletion are assembled from them. -/

namespace MetricRegistry.Store

open Log Table Record

-----------------------------------------------------------------------------------------
-- The id mark
-----------------------------------------------------------------------------------------

/-- The largest id; the id mark stops there. -/
def maxId : Int64 := Int64.ofInt (2 ^ 63 - 1)

theorem toInt_maxId : maxId.toInt = 2 ^ 63 - 1 := by decide

/-- Below the largest id, the next id is one more. -/
theorem toInt_followingId {g : Int64} (below : g < maxId)
    : (followingId g).toInt = g.toInt + 1 := by
  rw [Int64.lt_iff_toInt_lt, toInt_maxId] at below
  have notMax : g ≠ Int64.ofInt (2 ^ 63 - 1) := fun same => by
    rw [same] at below
    exact absurd below (by decide)
  have low := Int64.le_toInt g
  have one : Int64.toInt 1 = 1 := rfl
  rw [followingId, if_neg notMax, Int64.toInt_add, one]
  apply Int.bmod_eq_of_le <;> omega

theorem lt_followingId {g : Int64} (below : g < maxId) : g < followingId g := by
  rw [Int64.lt_iff_toInt_lt, toInt_followingId below]
  omega

/-- The id after one below a mark is at most the mark. -/
theorem followingId_le {m n : Int64} (below : m < n) : ¬ followingId m > n := by
  have low : m < maxId := by
    rw [Int64.lt_iff_toInt_lt, toInt_maxId]
    have := Int64.toInt_le n
    rw [Int64.lt_iff_toInt_lt] at below
    simp only [Int64.toInt_maxValue] at this
    omega
  rw [gt_iff_lt, Int64.lt_iff_toInt_lt, toInt_followingId low]
  rw [Int64.lt_iff_toInt_lt] at below
  omega

/-- Appending the stored form of a record raises the id mark past the record's id. -/
theorem nextId_appended (h : Header) (r : Identity)
    : (h.appended (Record.stored r)).nextId =
        if followingId r.globalId > h.nextId then followingId r.globalId else h.nextId := by
  simp only [Header.appended, globalId?_stored]

-----------------------------------------------------------------------------------------
-- One step at a time
-----------------------------------------------------------------------------------------

theorem ok_of_bind {ε σ α β : Type} {x : EStateM ε σ α} {f : α → EStateM ε σ β} {s s'' : σ}
    {b : β} (h : (x >>= f) s = .ok b s'') : ∃ a s', x s = .ok a s' ∧ f a s' = .ok b s'' := by
  simp only [bind, EStateM.bind] at h
  split at h
  · rename_i a s' first
    exact ⟨a, s', first, h⟩
  · cases h

namespace IndexedLog

variable {s s' : IndexedLog}

theorem withLog_ok {α : Type} {m : LogM α} {a : α} (h : withLog m s = .ok a s')
    : ∃ t, m ⟨s.disk, s.log⟩ = .ok a t ∧ s' = { s with disk := t.disk, log := t.log } := by
  unfold withLog at h
  split at h
  · rename_i t run
    cases h
    exact ⟨t, run, rfl⟩
  · cases h

theorem withLog_of_ok {α : Type} {m : LogM α} {a : α} {t : LogState}
    (h : m ⟨s.disk, s.log⟩ = .ok a t)
    : withLog m s = .ok a { s with disk := t.disk, log := t.log } := by
  simp only [withLog, h]

/-- An insertion into one cache that succeeds puts its entry into that cache alone. -/
theorem putInto_ok {κ : Type} [DecidableEq κ] [TableKey κ] {cache : CacheSet → Cache κ}
    {update : CacheSet → Cache κ → CacheSet} {key : κ} {value : Int64} {u : Unit}
    (h : putInto cache update key value s = .ok u s')
    : ∃ c, PutsEntry (cache s.caches) (some (key, value)) c ∧
        s' = { s with caches := update s.caches c } := by
  unfold putInto at h
  split at h
  · rename_i prev c put
    cases h
    exact ⟨c, ⟨prev, put⟩, rfl⟩
  · cases h

theorem putLocation_ok {g v : Int64} {u : Unit} (h : putLocation g v s = .ok u s')
    : ∃ locations, PutsEntry s.caches.locations (some (g, v)) locations ∧
        s' = { s with caches := { s.caches with locations } } :=
  putInto_ok h

theorem indexKeys_ok {g : Int64} {name : Option String} {key : Option ByteArray} {u : Unit}
    (h : indexKeys g name key s = .ok u s')
    : ∃ names opaqueKeys, PutsEntry s.caches.names (name.map (·, g)) names ∧
        PutsEntry s.caches.opaqueKeys (key.map (·, g)) opaqueKeys ∧
        s' = { s with caches := { s.caches with names, opaqueKeys } } := by
  have keyed : ∀ {t : IndexedLog}, indexKeys g none key t = .ok u s' →
      ∃ opaqueKeys, PutsEntry t.caches.opaqueKeys (key.map (·, g)) opaqueKeys ∧
        s' = { t with caches := { t.caches with opaqueKeys } } := by
    intro t ht
    unfold indexKeys at ht
    cases key with
    | none =>
        cases ht
        exact ⟨_, rfl, rfl⟩
    | some k => exact putInto_ok ht
  unfold indexKeys at h
  cases name with
  | none =>
      obtain ⟨opaqueKeys, putKey, rfl⟩ := keyed h
      exact ⟨s.caches.names, opaqueKeys, rfl, putKey, rfl⟩
  | some n =>
      obtain ⟨_, s1, named, rest⟩ := ok_of_bind h
      obtain ⟨names, putName, rfl⟩ := putInto_ok named
      obtain ⟨opaqueKeys, putKey, rfl⟩ := keyed rest
      exact ⟨names, opaqueKeys, putName, putKey, rfl⟩

/-- Writing a record that succeeds appends the live record under the log's id mark, stored in
its binary form, and puts its location in. -/
theorem writeRecord_ok {rs : List Identity} (stored : Stored s.disk s.log (rs.map Record.stored))
    {now g : Int64} {name : Option String} {key : Option ByteArray}
    (h : writeRecord now name key s = .ok g s')
    : g = s.log.nextId ∧ Canonical (Identity.create g now name key) ∧
      Stored s'.disk s'.log ((rs ++ [Identity.create g now name key]).map Record.stored) ∧
      s'.log.header = s.log.header.appended (Record.stored (Identity.create g now name key)) ∧
      SameFiles s.log s'.log ∧ Confined s.log s.disk s'.disk ∧
      s'.caches.names = s.caches.names ∧ s'.caches.opaqueKeys = s.caches.opaqueKeys ∧
      PutsEntry s.caches.locations (locationEntry rs.length (Identity.create g now name key))
        s'.caches.locations := by
  cases encoded : Record.encode (Identity.create s.log.nextId now name key) with
  | error e =>
      simp [writeRecord, bind, EStateM.bind, get, getThe, MonadStateOf.get, EStateM.get,
        Log.liftExcept, encoded, throw, throwThe, MonadExceptOf.throw, EStateM.throw] at h
  | ok bytes =>
      obtain ⟨fits, rfl⟩ := encode_ok encoded
      simp only [writeRecord, bind, EStateM.bind, get, getThe, MonadStateOf.get, EStateM.get,
        Log.liftExcept, encoded, pure, EStateM.pure] at h
      split at h
      · rename_i index s1 appended
        obtain ⟨t, run, rfl⟩ := withLog_ok appended
        obtain ⟨nonempty, room⟩ := append_fits run
        have live : (Identity.create s.log.nextId now name key).tombstoned = false := rfl
        obtain ⟨d', l', run', stored', header', same', confined'⟩ :=
          stored.append nonempty room
        rw [run'] at run
        cases run
        split at h
        · rename_i s2 located
          obtain ⟨locations, puts, rfl⟩ := putLocation_ok located
          cases h
          refine ⟨rfl, canonical_create fits, ?_, ?_, same', confined', rfl, rfl, ?_⟩
          · rw [List.map_append, List.map_singleton, stored_live live]
            exact stored'
          · rw [header', stored_live live]
          · rw [List.length_map] at puts
            exact puts
        · cases h
      · cases h

/-- Retiring an id with no location does nothing. -/
theorem retire_absent {g : Int64} (absent : s.caches.locations.get g = none)
    : retire g s = .ok false s := by
  simp only [retire, bind, EStateM.bind, get, getThe, MonadStateOf.get, EStateM.get, absent, pure,
    EStateM.pure]

/-- Retiring an id whose location holds its live record writes the record's flag byte in place,
counts one more deleted record, and drops the record's three entries. -/
theorem retire_exact {d : Disk} {l : IdentityLog} {c : CacheSet} {rs : List Identity}
    (stored : Stored d l (rs.map Record.stored))
    (canonical : ∀ r ∈ rs, Canonical r) (short : rs.length < 2 ^ 63) {g : Int64} {i : Nat}
    {r : Identity} (located : c.locations.get g = some (Int64.ofNat i))
    (live : LiveAt rs i r) (id : r.globalId = g) {iD : Nat} (hD : l.data.inode = some iD)
    : retire g ⟨d, l, c⟩ = .ok true
        ⟨d.modifyBytes iD (Bytes.overwrite · (offsetOf (rs.map Record.stored) i) ⟨#[flagDeleted]⟩),
         { l with tombstones := l.tombstones + 1 },
         { names := dropEntry c.names (nameEntry i r)
           opaqueKeys := dropEntry c.opaqueKeys (keyEntry i r)
           locations := dropEntry c.locations (locationEntry i r) }⟩ := by
  have index : (Int64.ofNat i).toUInt64.toNat = i :=
    toNat_toUInt64_ofNat (Nat.lt_trans live.lt_length short)
  have hk : (rs.map Record.stored)[i]? = some (Record.stored r) := by
    rw [List.getElem?_map, live.1]
    rfl
  have read := readAt_eq stored.reads hk
  have flagged := tombstone_exact stored.reads hk (by rw [isTombstoned_stored]; exact live.2) hD
  have decoded := decode_stored (canonical r (List.mem_of_getElem? live.1))
  subst id
  simp only [retire, bind, EStateM.bind, get, getThe, MonadStateOf.get, EStateM.get, located,
    index, withLog, read, flagged, modify, modifyGet, MonadStateOf.modifyGet, EStateM.modifyGet,
    decoded, pure]
  cases named : r.name <;> cases keyed : r.opaqueKey <;>
    simp [named, keyed, dropEntry, nameEntry, keyEntry, locationEntry, EStateM.bind,
      EStateM.modifyGet, EStateM.pure]

/-- Retiring an id whose location holds its live record flags that record deleted in the log and
drops the record's three entries. -/
theorem retire_live {d : Disk} {l : IdentityLog} {c : CacheSet} {rs : List Identity}
    (stored : Stored d l (rs.map Record.stored))
    (canonical : ∀ r ∈ rs, Canonical r) (short : rs.length < 2 ^ 63) {g : Int64} {i : Nat}
    {r : Identity} (located : c.locations.get g = some (Int64.ofNat i))
    (live : LiveAt rs i r) (id : r.globalId = g)
    : ∃ d' l', retire g ⟨d, l, c⟩ = .ok true
        ⟨d', l', { names := dropEntry c.names (nameEntry i r)
                   opaqueKeys := dropEntry c.opaqueKeys (keyEntry i r)
                   locations := dropEntry c.locations (locationEntry i r) }⟩ ∧
        Stored d' l' ((rs.set i { r with tombstoned := true }).map Record.stored) ∧
        l'.header = l.header ∧ SameFiles l l' ∧ Confined l d d' := by
  have hk : (rs.map Record.stored)[i]? = some (Record.stored r) := by
    rw [List.getElem?_map, live.1]
    rfl
  have alive : isTombstoned (Record.stored r) = false := by rw [isTombstoned_stored]; exact live.2
  obtain ⟨iD, hD⟩ := Option.isSome_iff_exists.mp (Region.isSome_inode stored.reads.data)
  obtain ⟨d', l', flagged, stored', header', same', confined'⟩ := stored.tombstone hk alive
  simp only [tombstone_exact stored.reads hk alive hD, EStateM.Result.ok.injEq, LogState.mk.injEq,
    true_and] at flagged
  obtain ⟨rfl, rfl⟩ := flagged
  refine ⟨_, _, retire_exact stored canonical short located live id hD, ?_, header', same',
    confined'⟩
  rw [List.map_set, ← overwrite_flag_stored live.2]
  exact stored'

end IndexedLog

-----------------------------------------------------------------------------------------
-- Consistent stores
-----------------------------------------------------------------------------------------

/-- A log holding records written by the codec holds fewer than `2 ^ 63` of them: each takes a
header's 29 bytes at least, and the data end is a 64-bit word. -/
theorem length_lt_of_stored {d : Disk} {l : IdentityLog} {rs : List Identity}
    (h : Stored d l (rs.map Record.stored)) : rs.length < 2 ^ 63 := by
  have big : ∀ b ∈ rs.map Record.stored, Record.headerSize ≤ b.size := by
    intro b mem
    obtain ⟨r, -, rfl⟩ := List.mem_map.mp mem
    rw [size_stored, encodedLen]
    omega
  have spread := mul_le_offsetOf big (Nat.le_refl (rs.map Record.stored).length)
  rw [← h.reads.dataEnd, List.length_map] at spread
  have word := (Header.fits_of_decode h.persisted.header).dataEnd
  simp only [Record.headerSize] at spread
  omega

/-- A key cache after a merge: the two retired records' entries dropped, then the new record's
entry put in, answers for the merged records, provided only the two retired records gave the new
entry's key. -/
theorem answers_merged {κ : Type} [DecidableEq κ] [TableKey κ] {c c' : Cache κ}
    {entry : Nat → Identity → Option (κ × Int64)} {rs : List Identity} {x r1 r2 : Identity}
    {i1 i2 : Nat} {k : κ} {v : Int64}
    (h : Answers c rs entry) (hs : c.Sound) (unique : Unique rs entry)
    (live1 : LiveAt rs i1 r1) (live2 : LiveAt rs i2 r2) (apart : i2 ≠ i1)
    (alive : x.tombstoned = false) (he : entry rs.length x = some (k, v))
    (held : ∀ i r v', LiveAt rs i r → entry i r = some (k, v') → i = i1 ∨ i = i2)
    (puts : PutsEntry (dropEntry (dropEntry c (entry i1 r1)) (entry i2 r2)) (some (k, v)) c')
    : Answers c' (((rs ++ [x]).set i1 { r1 with tombstoned := true }).set i2
        { r2 with tombstoned := true }) entry := by
  have live2' : LiveAt (rs.set i1 { r1 with tombstoned := true }) i2 r2 :=
    (liveAt_retire live1.1).mpr ⟨live2, apart⟩
  have dropped := (h.retire_entry hs unique live1).retire_entry (sound_dropEntry hs _)
    (unique.retire live1.1) live2'
  have length : ((rs.set i1 { r1 with tombstoned := true }).set i2
      { r2 with tombstoned := true }).length = rs.length := by simp
  rw [List.set_append_left i1 _ live1.lt_length, List.set_append_left i2 _ (by simpa using
    live2.lt_length)]
  refine dropped.append (sound_dropEntry (sound_dropEntry hs _) _) alive ?_
    (by rw [length, he]; exact puts)
  intro k' v'' he' i r v' live same
  rw [length, he] at he'
  simp only [Option.some.injEq, Prod.mk.injEq] at he'
  obtain ⟨rfl, -⟩ := he'
  rw [liveAt_retire (by rw [List.getElem?_set_ne (Ne.symm apart)]; exact live2.1),
    liveAt_retire live1.1] at live
  rcases held i r v' live.1.1 same with here | here
  · exact live.1.2 here
  · exact live.2 here

namespace IndexedLog

/-- `s'` names the same files as `s` and keeps its log in the same directory: only file contents,
the log's header and offsets, and the caches may differ. -/
structure Framed (s s' : IndexedLog) : Prop where
  nodes : s'.disk.nodes = s.disk.nodes
  dir : s'.log.dir = s.log.dir

theorem Framed.refl (s : IndexedLog) : Framed s s := ⟨rfl, rfl⟩

theorem Framed.of_log {d d' : Disk} {l l' : IdentityLog} {c c' : CacheSet}
    (same : SameFiles l l') (confined : Confined l d d') : Framed ⟨d, l, c⟩ ⟨d', l', c'⟩ :=
  ⟨confined.nodes, same.dir⟩

/-- The log of `s` holds the records `rs`, each in the binary form the codec writes; the caches
answer for exactly the live ones; and every id is below the log's id mark. -/
structure Consistent (s : IndexedLog) (rs : List Identity) : Prop where
  stored : Stored s.disk s.log (rs.map Record.stored)
  canonical : ∀ r ∈ rs, Canonical r
  sound : s.caches.Sound
  indexed : Indexed rs s.caches
  fresh : ∀ r ∈ rs, r.globalId < s.log.nextId

namespace Consistent

variable {s s1 s2 : IndexedLog} {rs : List Identity}

theorem short (h : Consistent s rs) : rs.length < 2 ^ 63 := length_lt_of_stored h.stored

theorem distinct (h : Consistent s rs) : Distinct rs := h.indexed.distinct h.short

/-- A new record under the id mark, once located, is answered for by the location cache beside
the live records, its id apart from theirs. -/
theorem located_fresh (hc : Consistent s rs) {x : Identity} (id : x.globalId = s.log.nextId)
    (alive : x.tombstoned = false) {located : Cache Int64}
    (puts : PutsEntry s.caches.locations (locationEntry rs.length x) located)
    : Answers located (rs ++ [x]) locationEntry ∧ Unique (rs ++ [x]) locationEntry := by
  have freshX : ∀ g v, locationEntry rs.length x = some (g, v) → ∀ i r v', LiveAt rs i r →
      locationEntry i r ≠ some (g, v') := by
    intro g v he i r v' live same
    simp only [locationEntry, Option.some.injEq, Prod.mk.injEq] at he same
    have below := hc.fresh r (List.mem_of_getElem? live.1)
    rw [same.1, ← he.1, id] at below
    exact Int64.lt_irrefl below
  exact ⟨hc.indexed.locations.append hc.sound.locations alive freshX puts,
    hc.distinct.ids.append freshX⟩

/-- A new record under the id mark, whose keys no live record carries, keeps the store
consistent; the id mark moves one up. -/
theorem create (hc : Consistent s rs) (room : s.log.nextId < maxId) {now g : Int64}
    {name : Option String} {key : Option ByteArray} {u : Unit}
    (keptName : Identity.keepName name = name) (keptKey : Identity.keepKey key = key)
    (newName : ∀ n, name = some n → s.caches.names.get n = none)
    (newKey : ∀ k, key = some k → s.caches.opaqueKeys.get k = none)
    (written : IndexedLog.writeRecord now name key s = .ok g s1)
    (keyed : IndexedLog.indexKeys g name key s1 = .ok u s2)
    : g = s.log.nextId ∧ Consistent s2 (rs ++ [Identity.create g now name key]) ∧
        s2.log.nextId = followingId s.log.nextId ∧ Framed s s2 := by
  obtain ⟨rfl, canonicalX, stored1, header1, same1, confined1, names1, keys1, located1⟩ :=
    IndexedLog.writeRecord_ok hc.stored written
  obtain ⟨names, keys, putName, putKey, rfl⟩ := IndexedLog.indexKeys_ok keyed
  rw [names1] at putName
  rw [keys1] at putKey
  have nextId1 : s1.log.nextId = followingId s.log.nextId := by
    rw [IdentityLog.nextId, header1, nextId_appended]
    exact if_pos (lt_followingId room)
  refine ⟨rfl, ⟨stored1, fun r mem => ?canonical, ⟨putName.sound hc.sound.names,
    putKey.sound hc.sound.opaqueKeys, located1.sound hc.sound.locations⟩,
    ⟨?names, ?keys, ?locations⟩, fun r mem => ?fresh⟩, nextId1, confined1.nodes, same1.dir⟩
  case canonical =>
    rcases List.mem_append.mp mem with old | new
    · exact hc.canonical r old
    · rw [List.mem_singleton.mp new]
      exact canonicalX
  case names =>
    refine hc.indexed.names.append hc.sound.names rfl ?_
      (by rw [nameEntry]; simpa [Identity.create, keptName] using putName)
    intro n v he i r v' live
    have named : name = some n := by
      simp only [nameEntry, Identity.create, keptName, Option.map_eq_some_iff, Prod.mk.injEq] at he
      obtain ⟨_, rfl, rfl, -⟩ := he
      rfl
    exact hc.indexed.names.absent (newName n named) live
  case keys =>
    refine hc.indexed.keys.append hc.sound.opaqueKeys rfl ?_
      (by rw [keyEntry]; simpa [Identity.create, keptKey] using putKey)
    intro k v he i r v' live
    have keyed : key = some k := by
      simp only [keyEntry, Identity.create, keptKey, Option.map_eq_some_iff, Prod.mk.injEq] at he
      obtain ⟨_, rfl, rfl, -⟩ := he
      rfl
    exact hc.indexed.keys.absent (newKey k keyed) live
  case locations => exact (hc.located_fresh rfl rfl located1).1
  case fresh =>
    rw [nextId1]
    rcases List.mem_append.mp mem with old | new
    · exact Int64.lt_trans (hc.fresh r old) (lt_followingId room)
    · rw [List.mem_singleton.mp new]
      exact lt_followingId room

/-- The steps of a merge on a consistent store, one after another: the new record is appended
under the id mark and located; the live record that carries the name and the one that carries the
key, apart since they have different ids, are flagged deleted and their entries dropped; and the
new record's name and key are put in. No other file is touched. -/
theorem merge_steps (hc : Consistent s rs) {now g byName byKey : Int64} {n : String}
    {k : ByteArray} {b1 b2 : Bool} {u : Unit} {s3 s4 : IndexedLog}
    (named : s.caches.names.get n = some byName) (keyed : s.caches.opaqueKeys.get k = some byKey)
    (apart : byName ≠ byKey)
    (written : IndexedLog.writeRecord now (some n) (some k) s = .ok g s1)
    (retired1 : IndexedLog.retire byName s1 = .ok b1 s2)
    (retired2 : IndexedLog.retire byKey s2 = .ok b2 s3)
    (indexed : IndexedLog.indexKeys g (some n) (some k) s3 = .ok u s4)
    : g = s.log.nextId ∧ Canonical (Identity.create g now (some n) (some k)) ∧
      ∃ i1 r1 i2 r2, LiveAt rs i1 r1 ∧ nameEntry i1 r1 = some (n, byName) ∧ LiveAt rs i2 r2 ∧
        keyEntry i2 r2 = some (k, byKey) ∧ i2 ≠ i1 ∧
        Stored s4.disk s4.log ((((rs ++ [Identity.create g now (some n) (some k)]).set i1
          { r1 with tombstoned := true }).set i2 { r2 with tombstoned := true }).map Record.stored) ∧
        s4.log.header =
          s.log.header.appended (Record.stored (Identity.create g now (some n) (some k))) ∧
        SameFiles s.log s4.log ∧ Confined s.log s.disk s4.disk ∧
        ∃ located, PutsEntry s.caches.locations
            (locationEntry rs.length (Identity.create g now (some n) (some k))) located ∧
          s4.caches.locations = dropEntry (dropEntry located (locationEntry i1 r1))
            (locationEntry i2 r2) ∧
          PutsEntry (dropEntry (dropEntry s.caches.names (nameEntry i1 r1)) (nameEntry i2 r2))
            (some (n, g)) s4.caches.names ∧
          PutsEntry (dropEntry (dropEntry s.caches.opaqueKeys (keyEntry i1 r1)) (keyEntry i2 r2))
            (some (k, g)) s4.caches.opaqueKeys := by
  obtain ⟨rfl, canonicalX, stored1, header1, same1, confined1, names1, keys1, located1⟩ :=
    IndexedLog.writeRecord_ok hc.stored written
  have idX : (Identity.create s.log.nextId now (some n) (some k)).globalId = s.log.nextId := rfl
  generalize Identity.create s.log.nextId now (some n) (some k) = x at *
  obtain ⟨i1, r1, live1, entry1⟩ := (hc.indexed.names n byName).mp named
  obtain ⟨i2, r2, live2, entry2⟩ := (hc.indexed.keys k byKey).mp keyed
  have id1 : r1.globalId = byName := (nameEntry_id entry1).symm
  have id2 : r2.globalId = byKey := (keyEntry_id entry2).symm
  have notSame : i2 ≠ i1 := fun same => by
    subst same
    obtain rfl : r2 = r1 := Option.some.inj (live2.1.symm.trans live1.1)
    exact apart (id1.symm.trans id2)
  have old : ∀ {i r}, LiveAt rs i r → r.globalId ≠ s.log.nextId := fun live same =>
    Int64.lt_irrefl (same ▸ hc.fresh _ (List.mem_of_getElem? live.1))
  have puts := located1
  obtain ⟨prev, put⟩ := located1
  rw [idX] at put
  have kept1 : ∀ g', g' ≠ s.log.nextId → s1.caches.locations.get g' = s.caches.locations.get g' :=
    fun g' ne => by rw [(Cache.put_ok hc.sound.locations put).2.2 g', if_neg ne]
  have canonical1 : ∀ r ∈ rs ++ [x], Canonical r := fun r mem => by
    rcases List.mem_append.mp mem with old | new
    · exact hc.canonical r old
    · exact List.mem_singleton.mp new ▸ canonicalX
  have live1' : LiveAt (rs ++ [x]) i1 r1 := liveAt_append.mpr (.inl live1)
  obtain ⟨d2, l2, run1, stored2, header2, same2, confined2⟩ :=
    IndexedLog.retire_live stored1 canonical1
    (length_lt_of_stored stored1) (by
      rw [kept1 byName (id1 ▸ old live1)]
      exact hc.indexed.locations.get_of_live live1 (by rw [locationEntry, id1])) live1' id1
  rw [run1] at retired1
  simp only [EStateM.Result.ok.injEq] at retired1
  obtain ⟨-, hs2⟩ := retired1
  have live2' : LiveAt ((rs ++ [x]).set i1 { r1 with tombstoned := true }) i2 r2 :=
    (liveAt_retire live1'.1).mpr ⟨liveAt_append.mpr (.inl live2), notSame⟩
  have sound1 : s1.caches.locations.Sound := (Cache.put_ok hc.sound.locations put).1
  have located2 : s2.caches.locations.get byKey = some (Int64.ofNat i2) := by
    rw [← hs2]
    simp only [dropEntry, locationEntry, (Cache.removeIf_spec sound1 _).2 byKey, id1]
    rw [if_neg fun same => apart same.1.symm, kept1 byKey (id2 ▸ old live2)]
    exact hc.indexed.locations.get_of_live live2 (by rw [locationEntry, id2])
  have stored2' : Stored s2.disk s2.log
      (((rs ++ [x]).set i1 { r1 with tombstoned := true }).map Record.stored) := by
    rw [← hs2]
    exact stored2
  obtain ⟨d3, l3, run2, stored3, header3, same3, confined3⟩ := IndexedLog.retire_live stored2'
    (fun r mem => by
      rcases List.mem_or_eq_of_mem_set mem with old | new
      · exact canonical1 r old
      · exact new ▸ canonical_tombstoned (hc.canonical r1 (List.mem_of_getElem? live1.1)) true)
    (length_lt_of_stored stored2) located2 live2' id2
  rw [run2] at retired2
  simp only [EStateM.Result.ok.injEq] at retired2
  obtain ⟨-, rfl⟩ := retired2
  subst hs2
  obtain ⟨names4, keys4, putName, putKey, rfl⟩ := IndexedLog.indexKeys_ok indexed
  rw [names1] at putName
  rw [keys1] at putKey
  refine ⟨rfl, canonicalX, i1, r1, i2, r2, live1, entry1, live2, entry2, notSame, stored3,
    by rw [header3, header2, header1], same1.trans (same2.trans same3),
    confined1.trans same1 (confined2.trans same2 confined3), s1.caches.locations, puts, rfl,
    putName, putKey⟩

/-- A new record under the id mark that takes the name of one live record and the key of another
retires both; the store stays consistent, holding the new record, and the id mark moves one up. -/
theorem merge (hc : Consistent s rs) (room : s.log.nextId < maxId) {now g byName byKey : Int64}
    {n : String} {k : ByteArray} {b1 b2 : Bool} {u : Unit} {s3 s4 : IndexedLog}
    (named : s.caches.names.get n = some byName) (keyed : s.caches.opaqueKeys.get k = some byKey)
    (apart : byName ≠ byKey) (nameKept : Identity.keepName (some n) = some n)
    (keyKept : Identity.keepKey (some k) = some k)
    (written : IndexedLog.writeRecord now (some n) (some k) s = .ok g s1)
    (retired1 : IndexedLog.retire byName s1 = .ok b1 s2)
    (retired2 : IndexedLog.retire byKey s2 = .ok b2 s3)
    (indexed : IndexedLog.indexKeys g (some n) (some k) s3 = .ok u s4)
    : g = s.log.nextId ∧ (∃ rs', Consistent s4 rs' ∧ ∃ r ∈ rs', r.globalId = g) ∧
        s4.log.nextId = followingId s.log.nextId ∧ Framed s s4 := by
  obtain ⟨rfl, canonicalX, i1, r1, i2, r2, live1, entry1, live2, entry2, notSame, stored4,
    header4, same4, confined4, located, puts, locations4, putName, putKey⟩ :=
    merge_steps hc named keyed apart written retired1 retired2 indexed
  have nameX : nameEntry rs.length (Identity.create s.log.nextId now (some n) (some k)) =
      some (n, s.log.nextId) := by simp [nameEntry, Identity.create, nameKept]
  have keyX : keyEntry rs.length (Identity.create s.log.nextId now (some n) (some k)) =
      some (k, s.log.nextId) := by simp [keyEntry, Identity.create, keyKept]
  have idX : (Identity.create s.log.nextId now (some n) (some k)).globalId = s.log.nextId := rfl
  have aliveX : (Identity.create s.log.nextId now (some n) (some k)).tombstoned = false := rfl
  generalize Identity.create s.log.nextId now (some n) (some k) = x at *
  have distinct := hc.distinct
  have live1' : LiveAt (rs ++ [x]) i1 r1 := liveAt_append.mpr (.inl live1)
  have live2' : LiveAt ((rs ++ [x]).set i1 { r1 with tombstoned := true }) i2 r2 :=
    (liveAt_retire live1'.1).mpr ⟨liveAt_append.mpr (.inl live2), notSame⟩
  have sound1 : located.Sound := puts.sound hc.sound.locations
  have nextId4 : s4.log.nextId = followingId s.log.nextId := by
    rw [IdentityLog.nextId, header4, nextId_appended, idX]
    exact if_pos (lt_followingId room)
  have kept : x ∈ ((rs ++ [x]).set i1 { r1 with tombstoned := true }).set i2
      { r2 with tombstoned := true } := by
    have before1 := live1.lt_length
    have before2 := live2.lt_length
    have last : (((rs ++ [x]).set i1 { r1 with tombstoned := true }).set i2
        { r2 with tombstoned := true })[rs.length]? = some x := by
      rw [List.getElem?_set_ne (by omega), List.getElem?_set_ne (by omega),
        List.getElem?_concat_length]
    exact List.mem_of_getElem? last
  refine ⟨rfl, ⟨_, ⟨stored4, ?canonical, ⟨?soundNames, ?soundKeys, ?soundLocations⟩,
    ⟨?names, ?keys, ?locations⟩, ?fresh⟩, x, kept, idX⟩, nextId4,
    ⟨confined4.nodes, same4.dir⟩⟩
  case canonical =>
    intro r mem
    rcases List.mem_or_eq_of_mem_set mem with mem | new
    · rcases List.mem_or_eq_of_mem_set mem with mem | new
      · rcases List.mem_append.mp mem with old | new
        · exact hc.canonical r old
        · exact List.mem_singleton.mp new ▸ canonicalX
      · exact new ▸ canonical_tombstoned (hc.canonical r1 (List.mem_of_getElem? live1.1)) true
    · exact new ▸ canonical_tombstoned (hc.canonical r2 (List.mem_of_getElem? live2.1)) true
  case soundNames =>
    exact putName.sound (sound_dropEntry (sound_dropEntry hc.sound.names
      (nameEntry i1 r1)) (nameEntry i2 r2))
  case soundKeys =>
    exact putKey.sound (sound_dropEntry (sound_dropEntry hc.sound.opaqueKeys
      (keyEntry i1 r1)) (keyEntry i2 r2))
  case soundLocations =>
    rw [locations4]
    exact sound_dropEntry (sound_dropEntry sound1 (locationEntry i1 r1)) (locationEntry i2 r2)
  case names =>
    exact answers_merged hc.indexed.names hc.sound.names distinct.names live1 live2 notSame
      aliveX nameX (fun i r v' live he => .inl (distinct.names.apart live live1 he entry1)) putName
  case keys =>
    exact answers_merged hc.indexed.keys hc.sound.opaqueKeys distinct.keys live1 live2 notSame
      aliveX keyX (fun i r v' live he => .inr (distinct.keys.apart live live2 he entry2)) putKey
  case locations =>
    obtain ⟨answers1, unique1⟩ := hc.located_fresh idX aliveX puts
    rw [locations4]
    exact (answers1.retire_entry sound1 unique1 live1').retire_entry (sound_dropEntry sound1 _)
      (unique1.retire live1'.1) live2'
  case fresh =>
    have below : ∀ r ∈ rs ++ [x], r.globalId < followingId s.log.nextId := fun r mem => by
      rcases List.mem_append.mp mem with old | new
      · exact Int64.lt_trans (hc.fresh r old) (lt_followingId room)
      · rw [List.mem_singleton.mp new, idX]
        exact lt_followingId room
    intro r mem
    rw [nextId4]
    rcases List.mem_or_eq_of_mem_set mem with mem | rfl
    · rcases List.mem_or_eq_of_mem_set mem with old | rfl
      · exact below r old
      · exact below r1 (List.mem_append_left _ (List.mem_of_getElem? live1.1))
    · exact below r2 (List.mem_append_left _ (List.mem_of_getElem? live2.1))

/-- A resolution that succeeds keeps the store consistent. When the keys were known it changes
nothing; otherwise it appends one record, under the id mark, which the log then holds, and the
mark moves one up. -/
theorem resolve (hc : Consistent s rs) (room : s.log.nextId < maxId) {now : Int64}
    {name : Option String} {key : Option ByteArray} {res : Resolution}
    (h : IndexedLog.resolve now name key s = .ok res s')
    : (∃ rs', Consistent s' rs' ∧ (res.appended = true → ∃ r ∈ rs', r.globalId = res.globalId)) ∧
        Framed s s' ∧ (res.appended = false → s' = s) ∧
        (res.appended = true →
          res.globalId = s.log.nextId ∧ s'.log.nextId = followingId s.log.nextId) := by
  unfold IndexedLog.resolve at h
  by_cases keyless : ((Identity.keepName name).isNone && (Identity.keepKey key).isNone) = true
  · simp [keyless, bind, EStateM.bind, throw, throwThe, MonadExceptOf.throw, EStateM.throw] at h
  · simp only [keyless, Bool.false_eq_true, if_false, bind, EStateM.bind, get, getThe,
      MonadStateOf.get, EStateM.get] at h
    generalize byName? : (Identity.keepName name).bind s.caches.names.get = foundName at h
    generalize byKey? : (Identity.keepKey key).bind s.caches.opaqueKeys.get = foundKey at h
    have unchanged : ∀ g, (pure (Resolution.existing g) : IndexedM Resolution) s = .ok res s' →
        (∃ rs', Consistent s' rs' ∧ (res.appended = true → ∃ r ∈ rs', r.globalId = res.globalId)) ∧
          Framed s s' ∧ (res.appended = false → s' = s) ∧
          (res.appended = true →
            res.globalId = s.log.nextId ∧ s'.log.nextId = followingId s.log.nextId) := by
      intro g known
      simp only [pure, EStateM.pure, EStateM.Result.ok.injEq] at known
      obtain ⟨rfl, rfl⟩ := known
      exact ⟨⟨rs, hc, fun appended => by cases appended⟩, Framed.refl s, fun _ => rfl,
        fun appended => by cases appended⟩
    cases foundName with
    | none =>
        cases foundKey with
        | none =>
            simp only at h
            obtain ⟨g, s1, written, rest⟩ := ok_of_bind h
            obtain ⟨u, s2, keyed, done⟩ := ok_of_bind rest
            simp only [pure, EStateM.pure, EStateM.Result.ok.injEq] at done
            obtain ⟨rfl, rfl⟩ := done
            obtain ⟨rfl, consistent, nextId, framed⟩ := hc.create room (keepName_keepName name)
              (keepKey_keepKey key)
              (fun n named => by simpa [named] using byName?)
              (fun k keyed => by simpa [keyed] using byKey?) written keyed
            exact ⟨⟨_, consistent, fun _ => ⟨_, List.mem_concat_self, rfl⟩⟩, framed,
              (fun appended => by cases appended), fun _ => ⟨rfl, nextId⟩⟩
        | some g => exact unchanged g h
    | some byName =>
        cases foundKey with
        | none => exact unchanged byName h
        | some byKey =>
            simp only at h
            by_cases same : byName = byKey
            · rw [if_pos same] at h
              exact unchanged byName h
            · rw [if_neg same] at h
              obtain ⟨n, named, found⟩ := Option.bind_eq_some_iff.mp byName?
              obtain ⟨k, keyed, foundK⟩ := Option.bind_eq_some_iff.mp byKey?
              obtain ⟨g, s1, written, rest⟩ := ok_of_bind h
              obtain ⟨_, s2, retired1, rest⟩ := ok_of_bind rest
              obtain ⟨_, s3, retired2, rest⟩ := ok_of_bind rest
              obtain ⟨u, s4, indexed, done⟩ := ok_of_bind rest
              simp only [pure, EStateM.pure, EStateM.Result.ok.injEq] at done
              obtain ⟨rfl, rfl⟩ := done
              rw [named, keyed] at written indexed
              obtain ⟨rfl, ⟨rs', consistent, merged⟩, nextId, framed⟩ := hc.merge room found
                foundK same (named ▸ keepName_keepName name) (keyed ▸ keepKey_keepKey key) written
                retired1 retired2 indexed
              exact ⟨⟨rs', consistent, fun _ => merged⟩, framed,
                (fun appended => by cases appended), fun _ => ⟨rfl, nextId⟩⟩

/-- A deletion that succeeds keeps the store consistent and the id mark where it was: an id
with a live record has that record flagged deleted, and any other id changes nothing. -/
theorem delete (hc : Consistent s rs) {g : Int64} {b : Bool}
    (h : IndexedLog.delete g s = .ok b s')
    : (∃ rs', Consistent s' rs') ∧ Framed s s' ∧ s'.log.nextId = s.log.nextId := by
  unfold IndexedLog.delete at h
  cases located : s.caches.locations.get g with
  | none =>
      rw [IndexedLog.retire_absent located] at h
      cases h
      exact ⟨⟨rs, hc⟩, Framed.refl s, rfl⟩
  | some v =>
      obtain ⟨i, r, live, entry⟩ := (hc.indexed.locations g v).mp located
      simp only [locationEntry, Option.some.injEq, Prod.mk.injEq] at entry
      obtain ⟨id, rfl⟩ := entry
      obtain ⟨d', l', run, stored', header', same', confined'⟩ :=
        IndexedLog.retire_live hc.stored hc.canonical hc.short located live id
      rw [run] at h
      cases h
      have distinct := hc.distinct
      refine ⟨⟨_, stored', fun r' mem => ?_, ⟨sound_dropEntry hc.sound.names _,
        sound_dropEntry hc.sound.opaqueKeys _, sound_dropEntry hc.sound.locations _⟩,
        ⟨hc.indexed.names.retire_entry hc.sound.names distinct.names live,
          hc.indexed.keys.retire_entry hc.sound.opaqueKeys distinct.keys live,
          hc.indexed.locations.retire_entry hc.sound.locations distinct.ids live⟩,
        fun r' mem => ?_⟩, Framed.of_log same' confined', by rw [IdentityLog.nextId, header']; rfl⟩
      · rcases List.mem_or_eq_of_mem_set mem with old | rfl
        · exact hc.canonical r' old
        · exact canonical_tombstoned (hc.canonical r (List.mem_of_getElem? live.1)) true
      · rcases List.mem_or_eq_of_mem_set mem with old | rfl
        · rw [IdentityLog.nextId, header']
          exact hc.fresh r' old
        · rw [IdentityLog.nextId, header']
          exact hc.fresh r (List.mem_of_getElem? live.1)

end Consistent

end IndexedLog

end MetricRegistry.Store
