import MetricRegistry.Proofs.Compaction

/-! Compacting a consistent store: it succeeds with a store consistent with exactly the live
records that answers every lookup as before, or fails while rebuilding the caches once the log
is compacted, where the process stops. -/

namespace MetricRegistry

/-- A failure in a stage after which the log cannot be trusted stops the process. -/
@[simp] theorem StoreError.stopsProcess_abortIn (phase : Store.Phase) (e : StoreError)
    : (e.abortIn phase).stopsProcess := by
  unfold StoreError.abortIn
  split
  · assumption
  · rfl

end MetricRegistry

namespace MetricRegistry.Store

open Disk Log Table Record

-----------------------------------------------------------------------------------------
-- Live records kept in order
-----------------------------------------------------------------------------------------

@[simp] theorem liveRecords_liveRecords (rs : List Identity)
    : liveRecords (liveRecords rs) = liveRecords rs := by
  simp [liveRecords, List.filter_filter]

/-- A record is live somewhere in `rs` exactly when it is one of the live records. -/
theorem exists_liveAt_iff {rs : List Identity} {r : Identity}
    : (∃ i, LiveAt rs i r) ↔ r ∈ liveRecords rs := by
  rw [mem_liveRecords, List.mem_iff_getElem?]
  constructor
  · rintro ⟨i, found, alive⟩
    exact ⟨⟨i, found⟩, alive⟩
  · rintro ⟨⟨i, found⟩, alive⟩
    exact ⟨i, found, alive⟩

/-- The live records of `rs`, kept alone, are live where `rs`'s are. -/
theorem exists_liveAt_liveRecords {rs : List Identity} {r : Identity}
    : (∃ i, LiveAt (liveRecords rs) i r) ↔ ∃ i, LiveAt rs i r := by
  rw [exists_liveAt_iff, exists_liveAt_iff, liveRecords_liveRecords]

/-- Records kept from `rs`, in order, stay apart under an entry whose key does not depend on the
record's place. -/
theorem Unique.sublist {κ : Type} {rs rs' : List Identity}
    {entry : Nat → Identity → Option (κ × Int64)} (h : Unique rs entry) (sub : List.Sublist rs' rs)
    (moves : ∀ {i j r k v}, entry i r = some (k, v) → ∃ v', entry j r = some (k, v'))
    : Unique rs' entry := by
  -- each kept record sits at a place of `rs`, and distinct places stay distinct
  obtain ⟨f, kept⟩ := List.sublist_iff_exists_orderEmbedding_getElem?_eq.mp sub
  have lift : ∀ {i r}, LiveAt rs' i r → LiveAt rs (f i) r :=
    fun live => ⟨(kept _).symm.trans live.1, live.2⟩
  refine ⟨fun {i j r r' k v v'} live live' he he' => ?_⟩
  obtain ⟨w, hw⟩ := moves (j := f i) he
  obtain ⟨w', hw'⟩ := moves (j := f j) he'
  exact f.injective (h.apart (lift live) (lift live') hw hw')

theorem Distinct.sublist {rs rs' : List Identity} (h : Distinct rs) (sub : List.Sublist rs' rs)
    : Distinct rs' :=
  ⟨h.ids.sublist sub fun he => by
      simp only [locationEntry, Option.some.injEq, Prod.mk.injEq] at he
      exact ⟨_, by rw [locationEntry, he.1]⟩,
    h.names.sublist sub fun he => ⟨_, he⟩, h.keys.sublist sub fun he => ⟨_, he⟩⟩

/-- A log of live records only counts no deleted record. -/
theorem count_liveRecords (rs : List Identity)
    : (((liveRecords rs).map stored).filter isTombstoned).length = 0 := by
  simp only [List.length_eq_zero_iff, List.filter_eq_nil_iff, List.mem_map]
  rintro _ ⟨r, mem, rfl⟩
  simp [isTombstoned_stored, (mem_liveRecords.mp mem).2]


variable {st st' st3 : Store} {rs : List Identity}

-----------------------------------------------------------------------------------------
-- The stages of a compaction
-----------------------------------------------------------------------------------------

/-- Putting a copy in place of the log runs the log's re-creation, the copy back and the discard
of the copy, and leaves the caches as they were. -/
theorem swap_ok {temp : IdentityLog} {dir : String} {d1 d2 d3 : Disk} {l2 l3 : IdentityLog}
    (recreated : recreate ⟨d1, st.log⟩ = .ok () ⟨d2, l2⟩)
    (copied : copyBack temp ⟨d2, l2⟩ = .ok () ⟨d3, l3⟩)
    : swap temp dir (st.onDisk fun _ => d1) =
        .ok () { st with indexed := ⟨discardTemp temp dir d3, l3, st.caches⟩ } := by
  have recreated' : recreate ⟨d1, st.indexed.log⟩ = .ok () ⟨d2, l2⟩ := recreated
  simp only [swap, bind, EStateM.bind, withIndexed, IndexedLog.withLog, Store.onDisk, recreated',
    copied, modify, modifyGet, MonadStateOf.modifyGet, EStateM.modifyGet]
  rfl

/-- Once the copy and the swap succeed, a compaction ends as the rebuild of the caches does, and
reports the records and bytes of the log before and after; a failed rebuild aborts. -/
theorem defragment_swapped {temp : IdentityLog} {d1 : Disk}
    (rewritten : rewriteLive st.log (join st.log.dir compactDir) st.disk = .ok temp d1)
    (swapped : swap temp (join st.log.dir compactDir) (st.onDisk fun _ => d1) = .ok () st3)
    : Store.defragment st = match rebuild st3 with
        | .ok () st' =>
          .ok { recordsBefore := st.log.size, recordsAfter := st'.log.size,
                bytesBefore := st.log.dataLen, bytesAfter := st'.log.dataLen } st'
        | .error e st' => .error (e.abortIn .reloading) st' := by
  simp only [Store.defragment, bind, EStateM.bind, getThe, MonadStateOf.get, EStateM.get,
    rewritten, set, EStateM.set, halting, swapped, pure, EStateM.pure]
  cases rebuild st3 <;> rfl

/-- A rebuild that succeeds made fresh caches, replayed the log into them and changed nothing
but the indexed log. -/
theorem rebuild_replayed {u : Unit} (h : rebuild st = .ok u st')
    : ∃ caches result t, st.caches.fresh = .ok caches ∧
        IndexedLog.replay ⟨st.indexed.disk, st.indexed.log, caches⟩ = .ok result t ∧
        st' = { st with indexed := t } := by
  simp only [rebuild, bind, EStateM.bind, getThe, MonadStateOf.get, EStateM.get] at h
  cases made : st.caches.fresh with
  | error e =>
      simp [made, Log.liftExcept, throw, throwThe, MonadExceptOf.throw, EStateM.throw] at h
  | ok caches =>
      cases replayed : IndexedLog.replay ⟨st.indexed.disk, st.indexed.log, caches⟩ with
      | error e t =>
          simp [made, replayed, Log.liftExcept, pure, EStateM.pure, throw, throwThe,
            MonadExceptOf.throw, EStateM.throw] at h
      | ok result t =>
          simp only [made, replayed, Log.liftExcept, pure, EStateM.pure, set, EStateM.set,
            EStateM.Result.ok.injEq] at h
          obtain ⟨-, rfl⟩ := h
          exact ⟨caches, result, t, rfl, replayed, rfl⟩

/-- A rebuild that succeeds replays the log into fresh caches sized as before; over a log of
records the codec wrote, apart, the caches then index exactly its live records, and nothing
else changes. -/
theorem rebuild_ok (stored : Stored st.disk st.log (rs.map stored))
    (canonical : ∀ r ∈ rs, Canonical r) (distinct : Distinct rs) {u : Unit}
    (h : rebuild st = .ok u st')
    : st'.disk = st.disk ∧ st'.log = st.log ∧ st'.caches.Sound ∧ Indexed rs st'.caches ∧
        st'.config = st.config ∧ st'.inserts = st.inserts := by
  obtain ⟨caches, result, t, made, replayed, rfl⟩ := rebuild_replayed h
  obtain ⟨sound, empty⟩ := indexed_create made
  obtain ⟨disk, log, sound', indexed, -⟩ :=
    IndexedLog.replay_ok (s := ⟨st.indexed.disk, st.indexed.log, caches⟩) stored canonical
      distinct sound empty replayed
  exact ⟨disk, log, sound', indexed, rfl, rfl⟩

-----------------------------------------------------------------------------------------
-- Compacting a consistent store
-----------------------------------------------------------------------------------------

/-- The file-system half of compacting a consistent store succeeds: the live records are copied
out and put in place of the log, which then holds exactly them under the same id mark in the
same directory; the caches, configuration and count are untouched and the compaction directory
is gone. -/
theorem Consistent.swapped (hc : st.Consistent rs)
    : ∃ temp d1 st3, rewriteLive st.log (join st.log.dir compactDir) st.disk = .ok temp d1 ∧
        swap temp (join st.log.dir compactDir) (st.onDisk fun _ => d1) = .ok () st3 ∧
        Stored st3.disk st3.log ((liveRecords rs).map stored) ∧ st3.log.nextId = st.log.nextId ∧
        st3.log.dir = st.log.dir ∧ st3.caches = st.caches ∧ st3.config = st.config ∧
        st3.inserts = st.inserts ∧ ∀ q, compactPath st.log.dir <+: q → st3.disk.node? q = none := by
  have empty : ∀ q, compactPath st.log.dir <+: q → st.disk.node? q = none := fun q under =>
    hc.idle q (by rw [compactPath, hc.home] at under; exact under)
  obtain ⟨temp, d1, rewritten, d2, l2, recreated, d3, l3, copied, stored3, nextId3, dir3, gone⟩ :=
    compactLog_spec hc.indexed.stored hc.indexed.canonical hc.indexed.fresh hc.started empty
  refine ⟨temp, d1, { st with indexed := ⟨discardTemp temp (join st.log.dir compactDir) d3, l3,
    st.caches⟩ }, rewritten, swap_ok recreated copied, ?_, nextId3, dir3, ?_, rfl, rfl, ?_⟩
  -- the store's fields are read through definitions, unfolded here before the disk's
  · simpa only [Store.disk, Store.log] using stored3
  · simp only [Store.caches]
  · simpa only [Store.disk, Store.log] using gone

/-- Rebuilding the caches after the swap, when it succeeds, leaves a store consistent with
exactly the live records. -/
theorem Consistent.rebuilt (hc : st.Consistent rs)
    (stored3 : Stored st3.disk st3.log ((liveRecords rs).map stored))
    (nextId3 : st3.log.nextId = st.log.nextId) (dir3 : st3.log.dir = st.log.dir)
    (config3 : st3.config = st.config)
    (gone : ∀ q, compactPath st.log.dir <+: q → st3.disk.node? q = none) {u : Unit}
    (h : rebuild st3 = .ok u st')
    : st'.Consistent (liveRecords rs) ∧ st'.log = st3.log ∧ st'.config = st.config ∧
        st'.inserts = st3.inserts := by
  have canonical : ∀ r ∈ liveRecords rs, Canonical r := fun r mem =>
    hc.indexed.canonical r (mem_liveRecords.mp mem).1
  have distinct := hc.indexed.distinct.sublist (liveRecords_sublist rs)
  obtain ⟨disk, log, sound, indexed, config, inserts⟩ := rebuild_ok stored3 canonical distinct h
  have stored' : Stored st'.disk st'.log ((liveRecords rs).map stored) := by
    rw [disk, log]
    exact stored3
  refine ⟨⟨⟨stored', canonical, sound, indexed, fun r mem => ?_⟩, ?_, fun q under => ?_, ?_⟩, log,
    config.trans config3, inserts⟩
  · show r.globalId < st'.log.nextId
    rw [log, nextId3]
    exact hc.indexed.fresh r (mem_liveRecords.mp mem).1
  · show st'.log.dir = st'.config.dataDir
    rw [log, dir3, config, config3]
    exact hc.home
  · show st'.disk.node? q = none
    rw [disk]
    apply gone
    rw [compactPath, hc.home, ← config3, ← config]
    exact under
  · show ¬ Header.fresh.nextId > st'.log.nextId
    rw [log, nextId3]
    exact hc.started

/-- What a compaction that succeeded leaves of a store `st` whose log held `rs`: a store
consistent with exactly the live records, in order and byte for byte, none deleted, under the
same id mark, configuration and count; every lookup by name or opaque key and every `get`
answers as in `st`, and an id is located at its record's place among the live ones. -/
structure Compacted (st : Store) (rs : List Identity) (st' : Store) : Prop where
  consistent : st'.Consistent (liveRecords rs)
  tombstones : st'.log.tombstones = 0
  nextId : st'.log.nextId = st.log.nextId
  config : st'.config = st.config
  inserts : st'.inserts = st.inserts
  lookupName : ∀ n, st'.lookupName n = st.lookupName n
  lookupKey : ∀ k, st'.lookupKey k = st.lookupKey k
  get : ∀ g, st'.get g = st.get g
  locationOf : ∀ g i, st'.locationOf g = some i ↔ ∃ r, LiveAt (liveRecords rs) i r ∧ r.globalId = g

/-- A compaction of a store `st` whose log held `rs` that failed in rebuilding the caches: the
log already held exactly the live records under the same id mark, beside the old caches. -/
def RebuildFailed (st : Store) (rs : List Identity) (e : StoreError) (st' : Store) : Prop :=
  ∃ st3, Stored st3.disk st3.log ((liveRecords rs).map stored) ∧ st3.log.nextId = st.log.nextId ∧
    st3.caches = st.caches ∧ rebuild st3 = .error e st'

/-- Compacting a consistent store either succeeds, keeping exactly the live records and every
answer, and reports the records before and after; or it fails in rebuilding the caches, once
the log is compacted, and aborts. -/
theorem Consistent.defragment (hc : st.Consistent rs)
    : (∃ st', Store.defragment st =
          .ok { recordsBefore := rs.length, recordsAfter := (liveRecords rs).length,
                bytesBefore := st.log.dataLen, bytesAfter := st'.log.dataLen } st' ∧
        Compacted st rs st') ∨
      ∃ e st', Store.defragment st = .error (e.abortIn .reloading) st' ∧
        RebuildFailed st rs e st' := by
  obtain ⟨temp, d1, st3, rewritten, swapped, stored3, nextId3, dir3, caches3, config3, inserts3,
    gone⟩ := hc.swapped
  have outcome := defragment_swapped rewritten swapped
  cases rebuilt : rebuild st3 with
  | error e st' =>
      exact .inr ⟨e, st', by rw [outcome, rebuilt], st3, stored3, nextId3, caches3, rebuilt⟩
  | ok u st' =>
      obtain ⟨hc', log', config', inserts'⟩ := hc.rebuilt stored3 nextId3 dir3 config3 gone rebuilt
      have same : ∀ r, (∃ i, LiveAt (liveRecords rs) i r) ↔ ∃ i, LiveAt rs i r :=
        fun _ => exists_liveAt_liveRecords
      have before : st.log.size = rs.length :=
        hc.indexed.stored.reads.size_eq.trans (List.length_map _)
      have after : st'.log.size = (liveRecords rs).length :=
        hc'.indexed.stored.reads.size_eq.trans (List.length_map _)
      refine .inl ⟨st', by rw [outcome, rebuilt, ← before, ← after], hc',
        hc'.indexed.stored.reads.tombstones.trans (count_liveRecords rs), ?_, config',
        inserts'.trans inserts3, hc.lookupName_eq hc' same, hc.lookupKey_eq hc' same,
        hc.get_eq hc' same, fun g i => ?_⟩
      · rw [log', nextId3]
      · rw [hc'.lookupsAgree.locationOf]
        simp only [hc'.liveRecord_iff]


end MetricRegistry.Store
