import MetricRegistry.Proofs.Session

/-! Deleting an identity from a consistent store writes one flag byte, counts one more deleted
record and drops exactly the identity's cache entries; an id without a location changes
nothing. -/

namespace MetricRegistry.Store

open Disk Log Table Record

-----------------------------------------------------------------------------------------
-- Dropping a record's own entry
-----------------------------------------------------------------------------------------

section Caches

variable {κ : Type} [DecidableEq κ] [TableKey κ] {c : Cache κ} {rs : List Identity}

/-- Dropping a live record's entry from a cache that answers for it empties the entry's key and
keeps every other key. -/
theorem Answers.get_dropOwn {entry : Nat → Identity → Option (κ × Int64)}
    (h : Answers c rs entry) (hs : c.Sound) {i : Nat} {r : Identity} (live : LiveAt rs i r)
    (y : κ) : (dropEntry c (entry i r)).get y =
      if (entry i r).map Prod.fst = some y then none else c.get y := by
  cases he : entry i r with
  | none => simp [dropEntry]
  | some kv =>
      obtain ⟨k, v⟩ := kv
      rw [dropEntry, (Cache.removeIf_spec hs v).2 y, h.get_of_live live he]
      by_cases same : y = k
      · simp [same]
      · simp [same, Ne.symm same]

/-- The key of a record's name entry is its name. -/
theorem nameEntry_keys (i : Nat) (r : Identity) : (nameEntry i r).map Prod.fst = r.name := by
  cases named : r.name <;> simp [nameEntry, named]

/-- The key of a record's opaque-key entry is its opaque key. -/
theorem keyEntry_keys (i : Nat) (r : Identity) : (keyEntry i r).map Prod.fst = r.opaqueKey := by
  cases keyed : r.opaqueKey <;> simp [keyEntry, keyed]

end Caches

-----------------------------------------------------------------------------------------
-- What a deletion leaves
-----------------------------------------------------------------------------------------


/-- What deleting the identity `g`, whose live record `r` is record `i` of the log, does to the
store `st`, leaving `st'`. Of all file bytes only the record's flag changes, from live to
deleted; the log counts one more deleted record and is otherwise as it was; the location cache
drops `g`, the name and opaque-key caches drop `r`'s keys, and every other entry stays; and
reads find nothing under `g` or under `r`'s keys. -/
structure Deleted (st : Store) (g : Int64) (i : Nat) (r : Identity) (st' : Store) : Prop where
  flag : ∃ start stop inode, st.log.recordRange i = .ok (start, stop) ∧
    st.log.data.inode = some inode ∧ (st.disk.bytesOf inode)[start]? = some flagLive ∧
    ∀ j, (st'.disk.bytesOf inode)[j]? =
      if j = start then some flagDeleted else (st.disk.bytesOf inode)[j]?
  files : st'.disk.nodes = st.disk.nodes ∧ st'.disk.contents.size = st.disk.contents.size ∧
    ∀ j, st.log.data.inode ≠ some j → st'.disk.bytesOf j = st.disk.bytesOf j
  log : st'.log = { st.log with tombstones := st.log.tombstones + 1 }
  locations : ∀ y, st'.caches.locations.get y = if y = g then none else st.caches.locations.get y
  names : ∀ n, st'.caches.names.get n = if r.name = some n then none else st.caches.names.get n
  keys : ∀ k, st'.caches.opaqueKeys.get k =
    if r.opaqueKey = some k then none else st.caches.opaqueKeys.get k
  config : st'.config = st.config
  inserts : st'.inserts = st.inserts
  get : st'.get g = .ok none
  lookupName : ∀ n, r.name = some n → st'.lookupName n = none
  lookupKey : ∀ k, r.opaqueKey = some k → st'.lookupKey k = none

/-- How a deletion of `g` from `st` ends: `false` and the same store when `g` has no location,
`true` and the record of `g` deleted when it has one. -/
inductive DeleteOutcome (st : Store) (g : Int64) : Bool → Store → Prop
  | unknown : st.caches.locations.get g = none → DeleteOutcome st g false st
  | deleted {i : Nat} {r : Identity} {st' : Store} :
      st.caches.locations.get g = some (Int64.ofNat i) → st.liveRecord i = some r →
      r.globalId = g → Deleted st g i r st' → DeleteOutcome st g true st'

/-- Reads of a store whose caches lost an id, a name or a key find nothing there. -/
theorem get_of_unlocated {st : Store} {g : Int64} (absent : st.caches.locations.get g = none)
    : st.get g = .ok none := by
  simp [Store.get, absent, pure, Except.pure]

theorem lookupName_of_unnamed {st : Store} {n : String} (absent : st.caches.names.get n = none)
    : st.lookupName n = none := by
  simp [Store.lookupName, absent]

theorem lookupKey_of_unkeyed {st : Store} {k : ByteArray}
    (absent : st.caches.opaqueKeys.get k = none) : st.lookupKey k = none := by
  simp [Store.lookupKey, absent]

section Delete

variable {st : Store} {rs : List Identity}

/-- The store a deletion of a live record leaves is that record deleted. -/
theorem deleted_of_retire (hc : st.indexed.Consistent rs) {g : Int64} {i : Nat} {r : Identity}
    (live : LiveAt rs i r) (id : r.globalId = g) {iD : Nat} (hD : st.log.data.inode = some iD)
    : Deleted st g i r { st with indexed :=
        ⟨st.disk.modifyBytes iD (Bytes.overwrite · (offsetOf (rs.map Record.stored) i)
            ⟨#[flagDeleted]⟩),
         { st.log with tombstones := st.log.tombstones + 1 },
         { names := dropEntry st.caches.names (nameEntry i r)
           opaqueKeys := dropEntry st.caches.opaqueKeys (keyEntry i r)
           locations := dropEntry st.caches.locations (locationEntry i r) }⟩ } := by
  have reads : Reads st.disk st.log (rs.map Record.stored) := hc.stored.reads
  have hk : (rs.map Record.stored)[i]? = some (Record.stored r) := by
    rw [List.getElem?_map, live.1]
    rfl
  have inodeLt : iD < st.disk.contents.size := Region.lt_of_valid reads.data hD
  have fileBytes : st.log.data.bytes st.disk = st.disk.bytesOf iD := Region.bytes_of_inode hD
  have first : (st.disk.bytesOf iD)[offsetOf (rs.map Record.stored) i]? = some flagLive := by
    have := reads.bytes hk 0 (by rw [size_stored, encodedLen, Record.headerSize]; omega)
    rw [Nat.add_zero, fileBytes, getElem?_stored_flag, live.2] at this
    exact this
  have inside : offsetOf (rs.map Record.stored) i < (st.disk.bytesOf iD).size :=
    (getElem?_eq_some_iff.mp first).1
  have indexed : Indexed rs st.caches := hc.indexed
  have sound : st.caches.Sound := hc.sound
  have names := indexed.names.get_dropOwn sound.names live
  have keys := indexed.keys.get_dropOwn sound.opaqueKeys live
  have locations := indexed.locations.get_dropOwn sound.locations live
  refine ⟨⟨_, _, iD, reads.recordRange_eq hk, hD, first, fun j => ?_⟩,
    ⟨rfl, Disk.size_modifyBytes,
      fun j other => Disk.bytesOf_modifyBytes_other (fun same => other (same ▸ hD))⟩,
    rfl, fun y => ?_, fun n => ?_, fun k => ?_, rfl, rfl, ?_, fun n named => ?_,
    fun k keyed => ?_⟩
  · change ((st.disk.modifyBytes iD _).bytesOf iD)[j]? = _
    rw [Disk.bytesOf_modifyBytes_self inodeLt, Bytes.getElem?_overwrite_byte inside]
  · change (dropEntry _ _).get y = _
    rw [locations y, locationEntry, id]
    by_cases same : y = g
    · simp [same]
    · simp [same, Ne.symm same]
  · change (dropEntry _ _).get n = _
    rw [names n, nameEntry_keys]
  · change (dropEntry _ _).get k = _
    rw [keys k, keyEntry_keys]
  · apply get_of_unlocated
    change (dropEntry _ _).get g = none
    rw [locations g, locationEntry, id]
    simp
  · apply lookupName_of_unnamed
    change (dropEntry _ _).get n = none
    rw [names n, nameEntry_keys, if_pos named]
  · apply lookupKey_of_unkeyed
    change (dropEntry _ _).get k = none
    rw [keys k, keyEntry_keys, if_pos keyed]

/-- Deleting any id from a store whose caches answer for its live records is exact and framed.
It answers `true` exactly when the id has a location. Without one the store stays as it was.
With one, the id's live record is deleted by its flag byte alone: no other byte of any file, no
record count, data end or id mark, and no other cache entry changes, while the deleted count
grows by one and the id and the record's keys leave the caches. Either way nothing is found
under the id afterwards. -/
theorem delete_framed (hc : st.indexed.Consistent rs) (g : Int64)
    : ∃ b st', Store.delete g st = .ok b st' ∧ DeleteOutcome st g b st' ∧
        st'.get g = .ok none := by
  cases located : st.caches.locations.get g with
  | none =>
      refine ⟨false, st, ?_, .unknown located, get_of_unlocated located⟩
      simp only [Store.delete, withIndexed, IndexedLog.delete, IndexedLog.retire_absent located]
  | some v =>
      obtain ⟨i, r, live, entry⟩ := (hc.indexed.locations g v).mp located
      simp only [locationEntry, Option.some.injEq, Prod.mk.injEq] at entry
      obtain ⟨id, rfl⟩ := entry
      obtain ⟨iD, hD⟩ := Option.isSome_iff_exists.mp (Region.isSome_inode hc.stored.reads.data)
      have run : IndexedLog.retire g st.indexed = .ok true _ :=
        IndexedLog.retire_exact hc.stored hc.canonical hc.short located live id hD
      have deleted := deleted_of_retire hc live id hD
      refine ⟨true, _, ?_, .deleted located ((hc.stored.liveRecord_iff hc.canonical i r).mpr live)
        id deleted, deleted.get⟩
      simp only [Store.delete, withIndexed, IndexedLog.delete, run]
      rfl

/-- Deleting the id of the one record of a session that named `cpu`. -/
theorem delete_framed_sample
    : match session { dataDir := "/srv/ids" } [.resolve 0 (some "cpu") none] with
      | some st => ∃ rs, st.indexed.Consistent rs ∧
          ∃ b st', Store.delete 1 st = .ok b st' ∧ DeleteOutcome st 1 b st' ∧
            st'.get 1 = .ok none
      | none => True := by
  cases reached : session { dataDir := "/srv/ids" } [.resolve 0 (some "cpu") none] with
  | none => trivial
  | some st =>
      obtain ⟨rs, hc, -⟩ := session_consistent (by decide) reached
      exact ⟨rs, hc.indexed, delete_framed hc.indexed 1⟩

end Delete


end MetricRegistry.Store
