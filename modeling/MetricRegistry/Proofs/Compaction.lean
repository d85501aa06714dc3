import MetricRegistry.Proofs.Lookups
import MetricRegistry.Store.Compaction

/-! A compaction keeps exactly the live records of a consistent store: copied in order to a
temporary log, copied back into the log made again empty, then the caches rebuilt. Each stage
has a lemma of its own over logs the codec wrote. -/

namespace MetricRegistry.Store

open Disk Log Table Record

-----------------------------------------------------------------------------------------
-- Loops
-----------------------------------------------------------------------------------------

/-- A loop over `xs.map f` whose every step, from a state where `inv` holds of the items done so
far, yields into a state where it holds of one more, runs through the whole list. -/
theorem forIn_run {ε σ α β : Type} (xs : List β) (f : β → α)
    (body : α → PUnit → EStateM ε σ (ForInStep PUnit)) (inv : List β → σ → Prop)
    (step : ∀ pre x rest, pre ++ x :: rest = xs → ∀ s, inv pre s →
      ∃ s', body (f x) () s = .ok (.yield ()) s' ∧ inv (pre ++ [x]) s')
    {s : σ} (start : inv [] s) : ∃ s', forIn (xs.map f) () body s = .ok () s' ∧ inv xs s' := by
  -- the items still to run follow the ones done
  suffices go : ∀ rest pre s, pre ++ rest = xs → inv pre s →
      ∃ s', forIn (rest.map f) () body s = .ok () s' ∧ inv xs s' from go xs [] s rfl start
  intro rest
  induction rest with
  | nil =>
      intro pre s whole holds
      rw [List.append_nil] at whole
      exact ⟨s, rfl, whole ▸ holds⟩
  | cons x rest ih =>
      intro pre s whole holds
      obtain ⟨s1, ran, holds1⟩ := step pre x rest whole s holds
      obtain ⟨s2, rested, holds2⟩ := ih (pre ++ [x]) s1 (by simpa using whole) holds1
      refine ⟨s2, ?_, holds2⟩
      simp only [List.map_cons, List.forIn_cons, bind, EStateM.bind, ran]
      exact rested

-----------------------------------------------------------------------------------------
-- Live records
-----------------------------------------------------------------------------------------

/-- The records of `rs` that are not deleted, in order. -/
def liveRecords (rs : List Identity) : List Identity := rs.filter fun r => !r.tombstoned

@[simp] theorem liveRecords_nil : liveRecords [] = [] := rfl

theorem liveRecords_append (rs rs' : List Identity)
    : liveRecords (rs ++ rs') = liveRecords rs ++ liveRecords rs' := by
  simp [liveRecords]

theorem mem_liveRecords {rs : List Identity} {r : Identity}
    : r ∈ liveRecords rs ↔ r ∈ rs ∧ r.tombstoned = false := by
  simp [liveRecords]

theorem liveRecords_sublist (rs : List Identity) : List.Sublist (liveRecords rs) rs :=
  List.filter_sublist

-----------------------------------------------------------------------------------------
-- The id mark
-----------------------------------------------------------------------------------------

/-- Appending a record whose id is below `bound` keeps a mark that is at most `bound` so. -/
theorem nextId_appended_le {h : Header} {bound : Int64} (le : ¬ h.nextId > bound) {r : Identity}
    (below : r.globalId < bound) : ¬ (h.appended (stored r)).nextId > bound := by
  rw [nextId_appended]
  split
  · exact followingId_le below
  · exact le

/-- Raising a mark that is at most `bound` to `bound` gives `bound`. -/
theorem raised_to_bound {m bound : Int64} (le : ¬ m > bound)
    : (if bound > m then bound else m) = bound := by
  split
  · rfl
  · rename_i notAbove
    rw [gt_iff_lt, Int64.lt_iff_toInt_lt] at le notAbove
    exact Int64.toInt_inj.mp (by omega)

-----------------------------------------------------------------------------------------
-- The compaction directory
-----------------------------------------------------------------------------------------

/-- The path of the directory where a compaction of the log in `dir` works. -/
def compactPath (dir : String) : List String := components dir ++ [compactDir]

theorem components_compactDir (dir : String)
    : components (join dir compactDir) = compactPath dir :=
  components_join dir plain_compactDir

/-- `d'` keeps every inode of `d` with its bytes. -/
structure InodesKept (d d' : Disk) : Prop where
  size : d.contents.size ≤ d'.contents.size
  bytes : ∀ j, j < d.contents.size → d'.bytesOf j = d.bytesOf j

theorem InodesKept.trans {d1 d2 d3 : Disk} (h12 : InodesKept d1 d2) (h23 : InodesKept d2 d3)
    : InodesKept d1 d3 :=
  ⟨Nat.le_trans h12.size h23.size,
    fun j hj => (h23.bytes j (Nat.lt_of_lt_of_le hj h12.size)).trans (h12.bytes j hj)⟩

/-- `d'` names what `d` names, except under the path `T`. -/
def SameOutside (T : List String) (d d' : Disk) : Prop :=
  ∀ q, ¬ T <+: q → d'.node? q = d.node? q

/-- A log whose directory holds the compaction directory has none of its own names under it. -/
theorem not_under_compactPath {dir : String} {q : List String}
    (own : q ∈ Disk.prefixes (components dir) ∨ q = components dir ++ [indexFile] ∨
      q = components dir ++ [dataFile])
    : ¬ compactPath dir <+: q := fun under => by
  obtain ⟨-, notPrefix, notChild⟩ := under_child under
  rcases own with onPath | index | data
  · have long := under.length_le
    have short := Disk.length_le_of_mem_prefixes onPath
    simp [compactPath] at long
    omega
  · exact notChild indexFile (by decide) index
  · exact notChild dataFile (by decide) data

/-- A path strictly under `T` is not on the way to `T`. -/
theorem not_mem_prefixes_of_under {T q : List String} (under : T <+: q) (ne : q ≠ T)
    : q ∉ Disk.prefixes T := fun mem =>
  ne (under.eq_of_length
    (Nat.le_antisymm under.length_le (Disk.length_le_of_mem_prefixes mem))).symm

theorem mem_prefixes_compactPath {dir : String} {q : List String}
    : q ∈ Disk.prefixes (compactPath dir) ↔ q ∈ Disk.prefixes (components dir) ∨ q = compactPath dir := by
  rw [compactPath, Disk.prefixes_concat, List.mem_append, List.mem_singleton]

/-- The names of the log in `dir` are none of the names of a log in its compaction directory. -/
theorem ne_copy_names {dir : String} {q : List String}
    (own : q ∈ Disk.prefixes (compactPath dir) ∨ q = compactPath dir ++ [indexFile] ∨
      q = compactPath dir ++ [dataFile]) (name : String) (plain : name ≠ compactDir)
    : q ≠ components dir ++ [name] := by
  rintro rfl
  rcases own with onPath | same | same
  · rcases mem_prefixes_compactPath.mp onPath with inPath | same
    · have := Disk.length_le_of_mem_prefixes inPath
      simp at this
    · exact child_ne_child plain same
  · have := congrArg List.length same
    simp [compactPath] at this
  · have := congrArg List.length same
    simp [compactPath] at this

theorem InodesKept.of_contents {d d' : Disk} (same : d'.contents = d.contents) : InodesKept d d' :=
  ⟨Nat.le_of_eq (congrArg Array.size same).symm, fun j _ => by simp [Disk.bytesOf, same]⟩

/-- A stored log stays stored when the inodes are kept and only names under its compaction
directory change. -/
theorem stored_outside {d d' : Disk} {l : IdentityLog} {recs : List ByteArray}
    (h : Stored d l recs) (kept : InodesKept d d') (same : SameOutside (compactPath l.dir) d d')
    : Stored d' l recs :=
  h.frame kept.size
    (fun i hi => kept.bytes i (by
      rcases hi with index | data
      · exact Region.lt_of_valid h.persisted.index index
      · exact Region.lt_of_valid h.reads.data data))
    (fun q own => same q (not_under_compactPath own))

-----------------------------------------------------------------------------------------
-- Copying live records
-----------------------------------------------------------------------------------------

section Copy

variable {d : Disk} {l : IdentityLog} {recs : List ByteArray} {rs : List Identity}

/-- Copying a record the codec wrote appends it when it is live and does nothing when it is
deleted. -/
theorem keepLive_stored (h : Stored d l recs) {r : Identity} (canonical : Canonical r)
    (fits : l.header.dataEnd + (stored r).size < Table.wordLimit)
    : ∃ d' l', keepLive (stored r) ⟨d, l⟩ = .ok () ⟨d', l'⟩ ∧
        Stored d' l' (recs ++ (liveRecords [r]).map stored) ∧
        (l'.header = l.header ∨ l'.header = l.header.appended (stored r)) ∧ SameFiles l l' ∧
        Confined l d d' := by
  cases dead : r.tombstoned with
  | true =>
      refine ⟨d, l, ?_, by simpa [liveRecords, dead] using h, .inl rfl, SameFiles.refl l,
        Confined.refl l d⟩
      simp [keepLive, isTombstoned_stored, dead, pure, EStateM.pure]
  | false =>
      have encoded : encode r = .ok (stored r) := by
        rw [stored_live dead]
        exact encode_eq_ok canonical.fits
      obtain ⟨d', l', run, stored', header', same, confined⟩ :=
        h.append (by rw [size_stored, encodedLen, Record.headerSize]; omega) fits
      refine ⟨d', l', ?_, by simpa [liveRecords, dead] using stored', .inr header', same,
        confined⟩
      simp [keepLive, isTombstoned_stored, dead, decode_stored canonical, Log.liftExcept, encoded,
        bind, EStateM.bind, run, pure, EStateM.pure]

/-- The bytes of some of the records take no more room than those of all of them. -/
theorem size_sum_le {rs rs' : List Identity} (sub : List.Sublist rs' rs)
    : ((rs'.map stored).map ByteArray.size).sum ≤ ((rs.map stored).map ByteArray.size).sum :=
  List.Sublist.sum_le_sum ((sub.map _).map _) fun _ _ => Nat.zero_le _

theorem offsetOf_length (recs : List ByteArray)
    : offsetOf recs recs.length = (recs.map ByteArray.size).sum := by
  simp [offsetOf]

/-- Copying every record of a log the codec wrote, in order, onto an empty stored log appends
exactly the live ones, and keeps the copy's id mark at most a bound above every id. -/
theorem keepLive_all {t : IdentityLog} (start : Stored d t []) (canonical : ∀ r ∈ rs, Canonical r)
    {bound : Int64} (fresh : ∀ r ∈ rs, r.globalId < bound) (marked : ¬ t.header.nextId > bound)
    (room : offsetOf (rs.map stored) (rs.map stored).length < Table.wordLimit)
    : ∃ d' t', forIn (rs.zipIdx.map fun p => (p.2, stored p.1)) ()
          (fun x _ => keepLive x.2 >>= fun _ => pure (ForInStep.yield ())) ⟨d, t⟩ =
          .ok () ⟨d', t'⟩ ∧
        Stored d' t' ((liveRecords rs).map stored) ∧ ¬ t'.header.nextId > bound ∧
        SameFiles t t' ∧ Confined t d d' := by
  -- after the items `pre`, the copy holds the live records among them
  have run := forIn_run rs.zipIdx (fun p => (p.2, stored p.1))
    (fun x _ => keepLive x.2 >>= fun _ => pure (ForInStep.yield ()))
    (fun pre s => ∃ d' t', s = ⟨d', t'⟩ ∧
      Stored d' t' ((liveRecords (pre.map Prod.fst)).map stored) ∧ ¬ t'.header.nextId > bound ∧
      SameFiles t t' ∧ Confined t d d')
    (fun pre x rest whole s ⟨d1, t1, hs, stored1, marked1, same1, confined1⟩ => by
      subst hs
      have split : pre.map Prod.fst ++ x.1 :: rest.map Prod.fst = rs := by
        rw [← List.zipIdx_map_fst 0 rs, ← whole]
        simp
      have mem : x.1 ∈ rs := by
        rw [← split]
        simp
      have fits : t1.header.dataEnd + (stored x.1).size < Table.wordLimit := by
        rw [stored1.reads.dataEnd, offsetOf_length]
        have sub : List.Sublist (liveRecords (pre.map Prod.fst) ++ [x.1]) rs := by
          rw [← split]
          exact ((liveRecords_sublist _).append (List.Sublist.refl [x.1])).trans
            (by simp)
        have total := size_sum_le sub
        rw [offsetOf_length] at room
        simp only [List.map_append, List.map_singleton, List.sum_append, List.sum_singleton]
          at total
        omega
      obtain ⟨d2, t2, ran, stored2, header2, same2, confined2⟩ :=
        keepLive_stored stored1 (canonical x.1 mem) fits
      refine ⟨⟨d2, t2⟩, ?_, d2, t2, rfl, ?_, ?_, same1.trans same2, confined1.trans same1 confined2⟩
      · simp only [bind, EStateM.bind, ran, pure, EStateM.pure]
      · simpa [liveRecords_append] using stored2
      · rcases header2 with same | appended
        · rw [same]
          exact marked1
        · rw [appended]
          exact nextId_appended_le marked1 (fresh x.1 mem))
    ⟨d, t, rfl, by simpa using start, marked, SameFiles.refl t, Confined.refl t d⟩
  obtain ⟨s', ran, d', t', rfl, stored', marked', same', confined'⟩ := run
  refine ⟨d', t', ran, ?_, marked', same', confined'⟩
  rwa [List.zipIdx_map_fst] at stored'

/-- Making a log in the empty compaction directory of a stored log gives an empty stored log
there under the fresh header, on new inodes; every inode and every name outside that directory
stays, and under it only the new log's names appear. -/
theorem create_beside (h : Stored d l recs)
    (empty : ∀ q, compactPath l.dir <+: q → d.node? q = none) (options : Options)
    : ∃ temp d', IdentityLog.create (join l.dir compactDir) options d = .ok temp d' ∧
        Stored d' temp [] ∧ temp.header = .fresh ∧ temp.dir = join l.dir compactDir ∧
        InodesKept d d' ∧ SameOutside (compactPath l.dir) d d' ∧
        (∀ q, compactPath l.dir <+: q → q ≠ compactPath l.dir →
          q ≠ compactPath l.dir ++ [indexFile] → q ≠ compactPath l.dir ++ [dataFile] →
          d'.node? q = none) ∧
        (∀ i, temp.index.inode = some i ∨ temp.data.inode = some i → d.contents.size ≤ i) := by
  have comps := components_compactDir l.dir
  have noFile : ∀ q ∈ Disk.prefixes (components (join l.dir compactDir)), ∀ i,
      d.node? q ≠ some (.file i) := by
    intro q hq i
    rw [comps, mem_prefixes_compactPath] at hq
    rcases hq with onPath | rfl
    · rw [h.placed.chain q onPath]
      simp
    · rw [empty _ (List.prefix_refl _)]
      simp
  have absent (name : String) : d.node? (components (join l.dir compactDir) ++ [name]) = none := by
    rw [comps]
    exact empty _ (List.prefix_append _ _)
  obtain ⟨temp, d', made, stored, header, dir, -, size, bytes, inodes, names⟩ :=
    create_spec options noFile (absent indexFile) (absent dataFile)
  have chain : Disk.DirChain d' (compactPath l.dir) := by
    rw [← comps, ← dir]
    exact stored.placed.chain
  refine ⟨temp, d', made, stored, header, dir, ⟨size, bytes⟩, fun q out => ?_,
    fun q under ne noIndex noData => ?_, inodes⟩
  · by_cases onPath : q ∈ Disk.prefixes (components l.dir)
    · rw [chain q (mem_prefixes_compactPath.mpr (.inl onPath)), h.placed.chain q onPath]
    · apply names q
      · rw [comps, mem_prefixes_compactPath]
        rintro (inPath | rfl)
        · exact onPath inPath
        · exact out (List.prefix_refl _)
      · rintro rfl
        exact out (by rw [comps]; exact List.prefix_append _ _)
      · rintro rfl
        exact out (by rw [comps]; exact List.prefix_append _ _)
  · rw [names q (by rw [comps]; exact not_mem_prefixes_of_under under ne) (by rw [comps]; exact noIndex)
      (by rw [comps]; exact noData)]
    exact empty q under

theorem plain_swapMarker : PlainName swapMarker := ⟨by decide, by decide, by decide⟩

/-- Writing the empty marker in a directory that is there, where nothing has its name, names it
as a new inode and changes no other name or inode. -/
theorem writeFile_marker {dir : String} (chain : Disk.DirChain d (components dir))
    (absent : d.node? (components dir ++ [swapMarker]) = none)
    : ∃ d', d.writeFile (join dir swapMarker) ByteArray.empty = .ok d' ∧
        (∃ m, d'.node? (components dir ++ [swapMarker]) = some (.file m)) ∧ InodesKept d d' ∧
        ∀ q, q ≠ components dir ++ [swapMarker] → d'.node? q = d.node? q := by
  refine ⟨_, Disk.writeFile_new chain (components_join dir plain_swapMarker) absent,
    ⟨d.contents.size, ?_⟩, ⟨by simp, fun j hj => ?_⟩, fun q ne => ?_⟩
  · simp [Disk.node?, Disk.setNode]
  · simp [Disk.bytesOf, Array.getElem?_push_lt hj, Array.getElem?_eq_getElem hj]
  · by_cases root : q = []
    · simp [Disk.node?, root]
    · exact (Disk.node?_setNode (d := d) _ root).trans (if_neg ne)

/-- Copying the live records of a stored log to a temporary log in its empty compaction
directory succeeds: the copy holds the live records, byte for byte and in order, under the log's
id mark, and the marker says it is complete. Every inode and every name outside that directory
stays, and under it only the copy's names and the marker appear. -/
theorem rewriteLive_spec (h : Stored d l (rs.map stored)) (canonical : ∀ r ∈ rs, Canonical r)
    (fresh : ∀ r ∈ rs, r.globalId < l.nextId) (started : ¬ Header.fresh.nextId > l.nextId)
    (empty : ∀ q, compactPath l.dir <+: q → d.node? q = none)
    : ∃ temp d', rewriteLive l (join l.dir compactDir) d = .ok temp d' ∧
        Stored d' temp ((liveRecords rs).map stored) ∧ temp.nextId = l.nextId ∧
        temp.dir = join l.dir compactDir ∧ InodesKept d d' ∧
        SameOutside (compactPath l.dir) d d' ∧
        (∃ m, d'.node? (compactPath l.dir ++ [swapMarker]) = some (.file m)) ∧
        (∀ q, compactPath l.dir <+: q → q ≠ compactPath l.dir →
          q ≠ compactPath l.dir ++ [indexFile] → q ≠ compactPath l.dir ++ [dataFile] →
          q ≠ compactPath l.dir ++ [swapMarker] → d'.node? q = none) ∧
        (∀ i, temp.index.inode = some i ∨ temp.data.inode = some i → d.contents.size ≤ i) := by
  have comps := components_compactDir l.dir
  obtain ⟨temp0, d1, made, stored0, header0, dir0, kept1, same1, alone1, inodes1⟩ :=
    create_beside h empty { l.options with syncMode := .never }
  have records : l.records d1 = rs.zipIdx.map fun p => (p.2, stored p.1) := by
    rw [(stored_outside h kept1 same1).reads.records_eq, List.zipIdx_map, List.map_map]
    rfl
  have room : offsetOf (rs.map stored) (rs.map stored).length < Table.wordLimit := by
    rw [← h.reads.dataEnd]
    exact (Header.fits_of_decode h.persisted.header).dataEnd
  obtain ⟨d2, t1, looped, stored1, marked1, same01, confined01⟩ :=
    keepLive_all stored0 canonical fresh (by rw [header0]; exact started) room
  have looped' : forIn (rs.zipIdx.map fun p => (p.2, stored p.1)) PUnit.unit
      (fun x _ => EStateM.bind (keepLive x.2) fun _ => pure (ForInStep.yield PUnit.unit))
      ⟨d1, temp0⟩ = .ok () ⟨d2, t1⟩ := looped
  obtain ⟨d3, t2, raised, stored2, header2, same12, confined12⟩ := stored1.raiseNextId l.nextId
  have nextId2 : t2.nextId = l.nextId := by
    rw [IdentityLog.nextId, header2]
    exact raised_to_bound marked1
  have dir2 : t2.dir = join l.dir compactDir := by rw [same12.dir, same01.dir, dir0]
  have nodes3 : ∀ q, d3.node? q = d1.node? q := fun q => by
    rw [Disk.node?_congr confined12.nodes, Disk.node?_congr confined01.nodes]
  have chain3 : Disk.DirChain d3 (components (join l.dir compactDir)) := by
    rw [← dir2]
    exact stored2.placed.chain
  have absent3 : d3.node? (components (join l.dir compactDir) ++ [swapMarker]) = none := by
    rw [nodes3, comps]
    exact alone1 _ (List.prefix_append _ _) (by simp) (child_ne_child (by decide))
      (child_ne_child (by decide))
  obtain ⟨d4, wrote, marker4, kept34, names34⟩ := writeFile_marker chain3 absent3
  -- the copy's inodes are new, so copying into it touched none of the old ones
  have apart : ∀ j, j < d.contents.size → temp0.data.inode ≠ some j ∧ temp0.index.inode ≠ some j :=
    fun j hj => ⟨fun same => Nat.lt_irrefl j (Nat.lt_of_lt_of_le hj (inodes1 j (.inr same))),
      fun same => Nat.lt_irrefl j (Nat.lt_of_lt_of_le hj (inodes1 j (.inl same)))⟩
  have kept3 : InodesKept d d3 := by
    refine ⟨by rw [confined12.size, confined01.size]; exact kept1.size, fun j hj => ?_⟩
    rw [confined12.others j (same01.data ▸ (apart j hj).1) (same01.index ▸ (apart j hj).2),
      confined01.others j (apart j hj).1 (apart j hj).2, kept1.bytes j hj]
  have notMarker : ∀ q, q ∈ Disk.prefixes (compactPath l.dir) ∨
      q = compactPath l.dir ++ [indexFile] ∨ q = compactPath l.dir ++ [dataFile] →
      q ≠ compactPath l.dir ++ [swapMarker] := by
    rintro q (onPath | rfl | rfl)
    · rintro rfl
      have := Disk.length_le_of_mem_prefixes onPath
      simp at this
    · exact child_ne_child (by decide)
    · exact child_ne_child (by decide)
  rw [comps] at marker4 names34
  refine ⟨t2, d4, ?_, ?_, nextId2, dir2, kept3.trans kept34, fun q out => ?_, marker4,
    fun q under ne noIndex noData noMarker => ?_, fun i hi => inodes1 i ?_⟩
  · unfold rewriteLive
    simp only [bind, EStateM.bind, made, get, getThe, MonadStateOf.get, EStateM.get, records, onLog]
    rw [looped']
    simp only [raised, sync, pure, EStateM.pure, liftIo, wrote, set, EStateM.set]
  · refine stored2.frame kept34.size
      (fun i hi => kept34.bytes i ?_) (fun q own => names34 q (notMarker q ?_))
    · rcases hi with index | data
      · exact Region.lt_of_valid stored2.persisted.index index
      · exact Region.lt_of_valid stored2.reads.data data
    · rw [dir2, comps] at own
      exact own
  · rw [names34 q fun same => out (same ▸ List.prefix_append _ _), nodes3]
    exact same1 q out
  · rw [names34 q noMarker, nodes3]
    exact alone1 q under ne noIndex noData
  · rw [← same01.index, ← same01.data, ← same12.index, ← same12.data]
    exact hi

/-- Appending records the codec wrote to a stored log, one after another, appends them all in
order when they fit below the word limit, and keeps the id mark at most a bound above their
ids. -/
theorem append_all (start : Stored d l recs) {news : List Identity} {bound : Int64}
    (fresh : ∀ r ∈ news, r.globalId < bound) (marked : ¬ l.header.nextId > bound)
    (room : l.header.dataEnd + ((news.map stored).map ByteArray.size).sum < Table.wordLimit)
    : ∃ d' l', forIn (news.zipIdx.map fun p => (p.2, stored p.1)) ()
          (fun x _ => append x.2 >>= fun _ => pure (ForInStep.yield ())) ⟨d, l⟩ =
          .ok () ⟨d', l'⟩ ∧
        Stored d' l' (recs ++ news.map stored) ∧ ¬ l'.header.nextId > bound ∧ SameFiles l l' ∧
        Confined l d d' := by
  have run := forIn_run news.zipIdx (fun p => (p.2, stored p.1))
    (fun x _ => append x.2 >>= fun _ => pure (ForInStep.yield ()))
    (fun pre s => ∃ d' l', s = ⟨d', l'⟩ ∧
      Stored d' l' (recs ++ (pre.map Prod.fst).map stored) ∧ ¬ l'.header.nextId > bound ∧
      SameFiles l l' ∧ Confined l d d')
    (fun pre x rest whole s ⟨d1, l1, hs, stored1, marked1, same1, confined1⟩ => by
      subst hs
      have split : pre.map Prod.fst ++ x.1 :: rest.map Prod.fst = news := by
        rw [← List.zipIdx_map_fst 0 news, ← whole]
        simp
      have mem : x.1 ∈ news := by
        rw [← split]
        simp
      have fits : l1.header.dataEnd + (stored x.1).size < Table.wordLimit := by
        rw [stored1.reads.dataEnd, offsetOf_length]
        rw [start.reads.dataEnd, offsetOf_length] at room
        have total := @size_sum_le news (pre.map Prod.fst ++ [x.1]) (by rw [← split]; simp)
        simp only [List.map_append, List.map_singleton, List.sum_append, List.sum_singleton]
          at total ⊢
        omega
      obtain ⟨d2, l2, ran, stored2, header2, same2, confined2⟩ :=
        stored1.append (by rw [size_stored, encodedLen, Record.headerSize]; omega) fits
      refine ⟨⟨d2, l2⟩, ?_, d2, l2, rfl, ?_, ?_, same1.trans same2, confined1.trans same1 confined2⟩
      · simp only [bind, EStateM.bind, ran, pure, EStateM.pure]
      · simpa using stored2
      · rw [header2]
        exact nextId_appended_le marked1 (fresh x.1 mem))
    ⟨d, l, rfl, by simpa using start, marked, SameFiles.refl l, Confined.refl l d⟩
  obtain ⟨s', ran, d', l', rfl, stored', marked', same', confined'⟩ := run
  refine ⟨d', l', ran, ?_, marked', same', confined'⟩
  rwa [List.zipIdx_map_fst] at stored'

/-- Copying back a stored copy onto an empty stored log on other inodes appends the copy's records
in order and takes the copy's id mark, when every id is below it. -/
theorem copyBack_spec {t : IdentityLog} {kept : List Identity} (main : Stored d l [])
    (copy : Stored d t (kept.map stored)) (fresh : ∀ r ∈ kept, r.globalId < t.nextId)
    (marked : ¬ l.header.nextId > t.nextId)
    : ∃ d' l', copyBack t ⟨d, l⟩ = .ok () ⟨d', l'⟩ ∧ Stored d' l' (kept.map stored) ∧
        l'.nextId = t.nextId ∧ SameFiles l l' ∧ Confined l d d' := by
  have records : t.records d = kept.zipIdx.map fun p => (p.2, stored p.1) := by
    rw [copy.reads.records_eq, List.zipIdx_map, List.map_map]
    rfl
  have room : l.header.dataEnd + ((kept.map stored).map ByteArray.size).sum < Table.wordLimit := by
    rw [main.reads.dataEnd, List.length_nil, offsetOf_zero, Nat.zero_add, ← offsetOf_length,
      ← copy.reads.dataEnd]
    exact (Header.fits_of_decode copy.persisted.header).dataEnd
  obtain ⟨d1, l1, looped, stored1, marked1, same1, confined1⟩ := append_all main fresh marked room
  have looped' : forIn (kept.zipIdx.map fun p => (p.2, stored p.1)) PUnit.unit
      (fun x _ => EStateM.bind (append x.2) fun _ => pure (ForInStep.yield PUnit.unit))
      ⟨d, l⟩ = .ok () ⟨d1, l1⟩ := looped
  obtain ⟨d2, l2, raised, stored2, header2, same2, confined2⟩ := stored1.raiseNextId t.nextId
  refine ⟨d2, l2, ?_, by simpa using stored2, ?_, same1.trans same2,
    confined1.trans same1 confined2⟩
  · unfold copyBack
    simp only [bind, EStateM.bind, get, getThe, MonadStateOf.get, EStateM.get, records]
    rw [looped']
    simp only [raised, sync, pure, EStateM.pure]
  · rw [IdentityLog.nextId, header2]
    exact raised_to_bound marked1

/-- Discarding a stored copy that is alone with its marker in the compaction directory removes
every name under that directory, and no other name and no inode. -/
theorem discardTemp_spec {t : IdentityLog} {dir : String} (copy : Stored d t recs)
    (home : t.dir = join dir compactDir)
    (marker : ∃ m, d.node? (compactPath dir ++ [swapMarker]) = some (.file m))
    (alone : ∀ q, compactPath dir <+: q → q ≠ compactPath dir →
      q ≠ compactPath dir ++ [indexFile] → q ≠ compactPath dir ++ [dataFile] →
      q ≠ compactPath dir ++ [swapMarker] → d.node? q = none)
    : (discardTemp t (join dir compactDir) d).contents = d.contents ∧
        (∀ q, compactPath dir <+: q → (discardTemp t (join dir compactDir) d).node? q = none) ∧
        SameOutside (compactPath dir) d (discardTemp t (join dir compactDir) d) := by
  obtain ⟨m, file⟩ := marker
  have comps : components t.dir = compactPath dir := by rw [home, components_compactDir]
  have chain : Disk.DirChain d (compactPath dir) := comps ▸ copy.placed.chain
  have removed := Disk.removeFile_file chain
    (by rw [components_join _ plain_swapMarker, components_compactDir]) file
  have unlinked : ∀ q, ({ d with nodes := d.nodes.filter (·.1 != compactPath dir ++ [swapMarker]) } :
      Disk).node? q = if q = compactPath dir ++ [swapMarker] then none else d.node? q := by
    intro q
    by_cases root : q = []
    · subst root
      simp [Disk.node?]
    · exact Disk.node?_unlink root
  have copy1 : Stored { d with nodes := d.nodes.filter (·.1 != compactPath dir ++ [swapMarker]) }
      t recs := by
    refine copy.frame (Nat.le_refl _) (fun _ _ => rfl) fun q own => ?_
    rw [unlinked, if_neg]
    rintro rfl
    rw [comps] at own
    rcases own with onPath | same | same
    · have := Disk.length_le_of_mem_prefixes onPath
      simp at this
    · exact child_ne_child (by decide) same.symm
    · exact child_ne_child (by decide) same.symm
  obtain ⟨d2, destroyed, contents2, gone2, others2⟩ := destroy_spec copy1
    (by rw [comps, compactPath]; simp)
    (fun q under ne noIndex noData => by
      rw [comps] at under ne noIndex noData
      rw [unlinked]
      split
      · rfl
      · exact alone q under ne noIndex noData (by assumption))
  simp only [discardTemp, removed, onLog, destroyed]
  refine ⟨contents2, fun q under => gone2 q (comps ▸ under), fun q out => ?_⟩
  have notMarker : q ≠ compactPath dir ++ [swapMarker] := fun same =>
    out (by rw [same]; exact List.prefix_append _ _)
  rw [others2 q (comps ▸ out), unlinked, if_neg notMarker]

end Copy

-----------------------------------------------------------------------------------------
-- Compacting the log
-----------------------------------------------------------------------------------------

section Log

variable {d : Disk} {l : IdentityLog} {rs : List Identity}

/-- The file-system half of a compaction: for a stored log of records the codec wrote, whose ids
are below its mark, with nothing in its compaction directory, copying the live records out,
making the log again, copying them back and discarding the copy all succeed. The log then holds
exactly its live records, in order, under the same mark, and the compaction directory is gone. -/
theorem compactLog_spec (h : Stored d l (rs.map stored)) (canonical : ∀ r ∈ rs, Canonical r)
    (fresh : ∀ r ∈ rs, r.globalId < l.nextId) (started : ¬ Header.fresh.nextId > l.nextId)
    (empty : ∀ q, compactPath l.dir <+: q → d.node? q = none)
    : ∃ temp d1, rewriteLive l (join l.dir compactDir) d = .ok temp d1 ∧
      ∃ d2 l2, recreate ⟨d1, l⟩ = .ok () ⟨d2, l2⟩ ∧
      ∃ d3 l3, copyBack temp ⟨d2, l2⟩ = .ok () ⟨d3, l3⟩ ∧
        Stored (discardTemp temp (join l.dir compactDir) d3) l3 ((liveRecords rs).map stored) ∧
        l3.nextId = l.nextId ∧ l3.dir = l.dir ∧
        ∀ q, compactPath l.dir <+: q → (discardTemp temp (join l.dir compactDir) d3).node? q = none := by
  obtain ⟨temp, d1, rewritten, copy1, nextIdT, dirT, kept1, same1, marker1, alone1, -⟩ :=
    rewriteLive_spec h canonical fresh started empty
  have compT : components temp.dir = compactPath l.dir := by rw [dirT, components_compactDir]
  obtain ⟨d2, l2, recreated, main2, header2, dir2, -, size2, bytes2, inodes2, names2⟩ :=
    recreate_spec (stored_outside h kept1 same1)
  have unnamed : ∀ q, (q ∈ Disk.prefixes (compactPath l.dir) ∨ q = compactPath l.dir ++ [indexFile] ∨
      q = compactPath l.dir ++ [dataFile]) → d2.node? q = d1.node? q := fun q own =>
    names2 q (ne_copy_names own indexFile (by decide)) (ne_copy_names own dataFile (by decide))
  have copy2 : Stored d2 temp ((liveRecords rs).map stored) :=
    copy1.frame size2 (fun i hi => bytes2 i (copy1.inode_lt hi)) fun q own => unnamed q (compT ▸ own)
  have marked : ¬ l2.header.nextId > temp.nextId := by
    rw [header2, nextIdT, raised_to_bound started]
    exact fun above => Int64.lt_irrefl above
  obtain ⟨d3, l3, copied, main3, nextId3, same23, confined23⟩ :=
    copyBack_spec main2 copy2 (fun r mem => nextIdT ▸ fresh r (mem_liveRecords.mp mem).1) marked
  have copy3 : Stored d3 temp ((liveRecords rs).map stored) := by
    refine copy2.frame (Nat.le_of_eq confined23.size.symm) (fun i hi => confined23.others i ?_ ?_)
      fun q _ => Disk.node?_congr confined23.nodes q
    · intro same
      have := inodes2 i (.inr same)
      have := copy1.inode_lt hi
      omega
    · intro same
      have := inodes2 i (.inl same)
      have := copy1.inode_lt hi
      omega
  have names3 : ∀ q, compactPath l.dir <+: q → d3.node? q = d1.node? q := fun q under =>
    (Disk.node?_congr confined23.nodes q).trans
      (names2 q ((under_child under).2.2 indexFile (by decide))
        ((under_child under).2.2 dataFile (by decide)))
  have marker3 : ∃ m, d3.node? (compactPath l.dir ++ [swapMarker]) = some (.file m) := by
    rw [names3 _ (List.prefix_append _ _)]
    exact marker1
  obtain ⟨contents4, gone4, same4⟩ := discardTemp_spec copy3 dirT marker3
    fun q under ne noIndex noData noMarker => by
      rw [names3 q under]
      exact alone1 q under ne noIndex noData noMarker
  have dir3 : l3.dir = l.dir := same23.dir.trans dir2
  refine ⟨temp, d1, rewritten, d2, l2, recreated, d3, l3, copied, ?_, nextId3.trans nextIdT, dir3,
    gone4⟩
  exact stored_outside main3 (InodesKept.of_contents contents4) (dir3 ▸ same4)

end Log

end MetricRegistry.Store

