import MetricRegistry.Proofs.Resolution
import MetricRegistry.Store.Basic

/-! Opening a store replays its log into caches that answer for exactly its live records; a store
opened on an empty directory is consistent, and so is a consistent store opened again. -/

namespace MetricRegistry.Store

open Disk Log Table Record

-----------------------------------------------------------------------------------------
-- Replaying records
-----------------------------------------------------------------------------------------

namespace IndexedLog

variable {s s' : IndexedLog}

/-- Replaying one record the codec wrote notes its id, and indexes it when it is live. -/
theorem replayRecord_stored {summary result : ReplaySummary} {i : Nat} {r : Identity}
    (canonical : Canonical r) (h : replayRecord summary (i, Record.stored r) s = .ok result s')
    : result.maxGlobalId = (summary.see r.globalId).maxGlobalId ∧ s'.disk = s.disk ∧
        s'.log = s.log ∧ (r.tombstoned = true → s'.caches = s.caches) ∧
        (r.tombstoned = false →
          PutsEntry s.caches.names (nameEntry i r) s'.caches.names ∧
          PutsEntry s.caches.opaqueKeys (keyEntry i r) s'.caches.opaqueKeys ∧
          PutsEntry s.caches.locations (locationEntry i r) s'.caches.locations) := by
  unfold replayRecord at h
  simp only [globalId?_stored, isTombstoned_stored, decode_stored canonical] at h
  cases deleted : r.tombstoned with
  | true =>
      simp only [deleted, if_true, pure, EStateM.pure, EStateM.Result.ok.injEq] at h
      obtain ⟨rfl, rfl⟩ := h
      exact ⟨rfl, rfl, rfl, fun _ => rfl, fun live => by cases live⟩
  | false =>
      simp only [deleted, Bool.false_eq_true, if_false] at h
      obtain ⟨_, s1, located, rest⟩ := ok_of_bind h
      obtain ⟨_, s2, keyed, done⟩ := ok_of_bind rest
      simp only [pure, EStateM.pure, EStateM.Result.ok.injEq] at done
      obtain ⟨rfl, rfl⟩ := done
      obtain ⟨locations, putLoc, rfl⟩ := putLocation_ok located
      obtain ⟨names, keys, putName, putKey, rfl⟩ := indexKeys_ok keyed
      exact ⟨rfl, rfl, rfl, (fun gone => by cases gone), fun _ => ⟨putName, putKey, putLoc⟩⟩

/-- Replaying the records `post` that follow `pre`, into caches that answer for `pre`, leaves
caches that answer for `pre ++ post`, as long as the live records of the whole list are apart;
every id the summary holds is one of theirs. -/
theorem replay_stored : ∀ (post pre : List Identity) {summary result : ReplaySummary}
    {s t : IndexedLog}, (∀ r ∈ pre ++ post, Canonical r) → Distinct (pre ++ post) →
    s.caches.Sound → Indexed pre s.caches →
    (∀ m, summary.maxGlobalId = some m → ∃ r ∈ pre, r.globalId = m) →
    (((post.map Record.stored).zipIdx pre.length).map fun (b, k) => (k, b)).foldlM replayRecord
      summary s = .ok result t →
    t.disk = s.disk ∧ t.log = s.log ∧ t.caches.Sound ∧ Indexed (pre ++ post) t.caches ∧
      ∀ m, result.maxGlobalId = some m → ∃ r ∈ pre ++ post, r.globalId = m := by
  intro post
  induction post with
  | nil =>
      intro pre summary result s t _ _ sound indexed noted h
      simp only [List.map_nil, List.zipIdx_nil, List.foldlM_nil, pure, EStateM.pure,
        EStateM.Result.ok.injEq] at h
      obtain ⟨rfl, rfl⟩ := h
      simpa using ⟨sound, indexed, noted⟩
  | cons r rest ih =>
      intro pre summary result s t canonical distinct sound indexed noted h
      simp only [List.map_cons, List.zipIdx_cons, List.foldlM_cons] at h
      obtain ⟨summary1, s1, replayed, h⟩ := ok_of_bind h
      have canonicalR : Canonical r := canonical r (by simp)
      obtain ⟨max1, disk1, log1, dead, live⟩ := replayRecord_stored canonicalR replayed
      have regroup : pre ++ r :: rest = (pre ++ [r]) ++ rest := by simp
      have indexed1 : Indexed (pre ++ [r]) s1.caches ∧ s1.caches.Sound := by
        cases alive : r.tombstoned with
        | true =>
            rw [dead alive]
            exact ⟨⟨indexed.names.append_quiet (.inl alive), indexed.keys.append_quiet (.inl alive),
              indexed.locations.append_quiet (.inl alive)⟩, sound⟩
        | false =>
            obtain ⟨putName, putKey, putLoc⟩ := live alive
            exact ⟨⟨indexed.names.append sound.names alive
                (distinct.names.fresh_of_prefix alive) putName,
              indexed.keys.append sound.opaqueKeys alive (distinct.keys.fresh_of_prefix alive) putKey,
              indexed.locations.append sound.locations alive (distinct.ids.fresh_of_prefix alive)
                putLoc⟩,
              ⟨putName.sound sound.names, putKey.sound sound.opaqueKeys,
                putLoc.sound sound.locations⟩⟩
      have noted1 : ∀ m, summary1.maxGlobalId = some m → ∃ r' ∈ pre ++ [r], r'.globalId = m := by
        intro m seen
        rw [max1, ReplaySummary.see] at seen
        simp only [Option.some.injEq] at seen
        split at seen
        · split at seen
          · exact ⟨r, by simp, seen⟩
          · rename_i old _ _
            obtain ⟨r', mem, id⟩ := noted old (by assumption)
            exact ⟨r', List.mem_append_left _ mem, id.trans seen⟩
        · exact ⟨r, by simp, seen⟩
      rw [regroup] at canonical distinct ⊢
      have length : (pre ++ [r]).length = pre.length + 1 := by simp
      obtain ⟨diskT, logT, soundT, indexedT, notedT⟩ :=
        ih (pre ++ [r]) canonical distinct indexed1.2 indexed1.1 noted1 (by rw [length]; exact h)
      exact ⟨diskT.trans disk1, logT.trans log1, soundT, indexedT, notedT⟩

/-- Replaying a log of records the codec wrote, whose live records are apart, into empty caches
indexes exactly its live records. -/
theorem replay_ok {rs : List Identity} (stored : Stored s.disk s.log (rs.map Record.stored))
    (canonical : ∀ r ∈ rs, Canonical r) (distinct : Distinct rs) (sound : s.caches.Sound)
    (empty : Indexed [] s.caches) {result : ReplaySummary} (h : replay s = .ok result s')
    : s'.disk = s.disk ∧ s'.log = s.log ∧ s'.caches.Sound ∧ Indexed rs s'.caches ∧
        ∀ m, result.maxGlobalId = some m → ∃ r ∈ rs, r.globalId = m := by
  simp only [replay, bind, EStateM.bind, get, getThe, MonadStateOf.get, EStateM.get,
    stored.reads.records_eq] at h
  exact @replay_stored rs [] {} result s s' (by simpa using canonical) (by simpa using distinct)
    sound empty (fun m none => by cases none) (by simpa using h)

/-- Loading a consistent log into empty caches makes a consistent store; the id mark stays, as
every id is already below it. -/
theorem load_ok {rs : List Identity} (stored : Stored s.disk s.log (rs.map Record.stored))
    (canonical : ∀ r ∈ rs, Canonical r) (distinct : Distinct rs)
    (fresh : ∀ r ∈ rs, r.globalId < s.log.nextId) (sound : s.caches.Sound)
    (empty : Indexed [] s.caches) {u : Unit} (h : load s = .ok u s')
    : Consistent s' rs ∧ s'.disk = s.disk ∧ s'.log = s.log := by
  unfold load at h
  obtain ⟨result, s1, replayed, raised⟩ := ok_of_bind h
  obtain ⟨disk1, log1, sound1, indexed1, noted⟩ :=
    replay_ok stored canonical distinct sound empty replayed
  have same : s' = s1 := by
    cases seen : result.maxGlobalId with
    | none =>
        simp only [seen, pure, EStateM.pure, EStateM.Result.ok.injEq] at raised
        exact raised.2.symm
    | some m =>
        obtain ⟨r, mem, rfl⟩ := noted m seen
        have below : ¬ followingId r.globalId > s1.log.header.nextId := by
          rw [log1]
          exact followingId_le (fresh r mem)
        simp only [seen, withLog, raiseNextId_below below, EStateM.Result.ok.injEq] at raised
        exact raised.2.symm
  subst same
  exact ⟨⟨disk1 ▸ log1 ▸ stored, canonical, sound1, indexed1, log1 ▸ fresh⟩, disk1, log1⟩

end IndexedLog

-----------------------------------------------------------------------------------------
-- Opening a store
-----------------------------------------------------------------------------------------

theorem plain_compactDir : PlainName compactDir := ⟨by decide, by decide, by decide⟩

/-- Nothing is recovered where no compaction left its directory. -/
theorem recoverInterrupted_idle {d : Disk} {dataDir : String} {options : Options}
    (chain : Disk.DirChain d (components dataDir))
    (absent : d.node? (components dataDir ++ [compactDir]) = none)
    : recoverInterrupted dataDir options d = .ok () d := by
  simp only [recoverInterrupted, bind, EStateM.bind, get, getThe, MonadStateOf.get, EStateM.get,
    Disk.exists_absent chain (components_join dataDir plain_compactDir) absent]
  rfl

/-- New caches are sound and index no record. -/
theorem indexed_create {names keys locations : Sizing} {c : CacheSet}
    (h : CacheSet.create names keys locations = .ok c) : c.Sound ∧ Indexed [] c := by
  obtain ⟨sound, noName, noKey, noLocation⟩ := CacheSet.create_ok h
  have dead : ∀ i r, ¬ LiveAt [] i r := fun i r live => by simp [LiveAt] at live
  exact ⟨sound, answers_empty noName dead, answers_empty noKey dead, answers_empty noLocation dead⟩

theorem distinct_nil : Distinct [] :=
  have apart {κ : Type} (entry : Nat → Identity → Option (κ × Int64)) : Unique [] entry :=
    ⟨fun live => by simp [LiveAt] at live⟩
  ⟨apart _, apart _, apart _⟩

/-- A path under the entry `a` of a directory is neither the directory's entry `b ≠ a` nor on
the directory's own path. -/
theorem under_child {P q : List String} {a : String} (under : P ++ [a] <+: q)
    : q ≠ [] ∧ q ∉ Disk.prefixes P ∧ ∀ b, b ≠ a → q ≠ P ++ [b] := by
  have long := under.length_le
  simp only [List.length_append, List.length_singleton] at long
  refine ⟨fun nil => by simp [nil] at long, fun mem => ?_, fun b ne same => ?_⟩
  · have := Disk.length_le_of_mem_prefixes mem
    omega
  · rw [same] at under
    exact ne (List.singleton_inj.mp (List.append_cancel_left (under.eq_of_length (by simp)))).symm


/-- A store consistent with the records `rs`: its log and caches are, its log lives in its data
directory, no compaction has left anything in that directory, and its id mark is past the first
id. -/
structure Consistent (st : Store) (rs : List Identity) : Prop where
  indexed : st.indexed.Consistent rs
  home : st.log.dir = st.config.dataDir
  idle : ∀ q, components st.config.dataDir ++ [compactDir] <+: q → st.disk.node? q = none
  started : ¬ Header.fresh.nextId > st.log.nextId

theorem liftExcept_ok {σ α : Type} {e : Except StoreError α} {a : α} {s s' : σ}
    (h : Log.liftExcept e s = .ok a s') : e = .ok a ∧ s' = s := by
  cases e with
  | error err => simp [Log.liftExcept, throw, throwThe, MonadExceptOf.throw, EStateM.throw] at h
  | ok v =>
      simp only [Log.liftExcept, pure, EStateM.pure, EStateM.Result.ok.injEq] at h
      exact ⟨by rw [h.1], h.2.symm⟩

/-- Opening a store that succeeds recovered the data directory, opened the log there, made
empty caches and loaded the log into them. -/
theorem open_ok {config : Config} {d d' : Disk} {st : Store}
    (h : Store.open config d = .ok st d')
    : ∃ d1 d2 log caches, recoverInterrupted config.dataDir config.logOptions d = .ok () d1 ∧
        IdentityLog.openIn config.dataDir config.logOptions d1 = .ok log d2 ∧
        CacheSet.create config.nameCache config.opaqueCache config.locationCache = .ok caches ∧
        IndexedLog.load ⟨d2, log, caches⟩ = .ok () st.indexed ∧ st.config = config ∧
        d' = st.disk := by
  unfold Store.open at h
  obtain ⟨_, d0, valid, h1⟩ := ok_of_bind h
  obtain ⟨⟨⟩, d1, recovered, h2⟩ := ok_of_bind h1
  obtain ⟨log, d2, opened, h3⟩ := ok_of_bind h2
  obtain ⟨caches, d3, made, h4⟩ := ok_of_bind h3
  obtain ⟨created, rfl⟩ := liftExcept_ok made
  obtain rfl := (liftExcept_ok valid).2
  obtain ⟨_, _, got, h5⟩ := ok_of_bind h4
  cases got
  cases loaded : IndexedLog.load ⟨d3, log, caches⟩ with
  | error e t =>
      simp only [loaded] at h5
      simp [bind, EStateM.bind, set, EStateM.set, throw, throwThe, MonadExceptOf.throw,
        EStateM.throw] at h5
  | ok u t =>
      simp only [loaded, set, pure] at h5
      obtain ⟨rfl, rfl⟩ := h5
      exact ⟨d1, d3, log, caches, recovered, opened, created, loaded, rfl, rfl⟩

/-- Opening a store on a file system that holds only its data directory gives an empty
consistent store whose id mark is the first id. -/
theorem open_fresh {config : Config} {st : Store} {d' : Disk}
    (h : Store.open config (Disk.withDir config.dataDir) = .ok st d')
    : st.Consistent [] ∧ st.log.nextId = 1 := by
  obtain ⟨chain, -, empty⟩ := withDir_spec config.dataDir
  have unnamed : ∀ q, q ≠ [] → q ∉ Disk.prefixes (components config.dataDir) →
      (Disk.withDir config.dataDir).node? q = none := empty
  have noFile : ∀ q ∈ Disk.prefixes (components config.dataDir), ∀ i,
      (Disk.withDir config.dataDir).node? q ≠ some (.file i) := fun q hq i => by
    rw [chain q hq]
    simp
  have child (name : String)
      : (Disk.withDir config.dataDir).node? (components config.dataDir ++ [name]) = none :=
    unnamed _ (by simp) (child_not_mem_prefixes _ name)
  obtain ⟨d1, d2, log, caches, recovered, opened, created, loaded, hconfig, rfl⟩ := open_ok h
  rw [recoverInterrupted_idle chain (child compactDir)] at recovered
  cases recovered
  obtain ⟨l, d3, made, stored, header, dir, -, -, -, -, others⟩ :=
    create_spec config.logOptions noFile (child indexFile) (child dataFile)
  rw [openIn_fresh config.logOptions chain (child indexFile) (child dataFile), made] at opened
  cases opened
  obtain ⟨sound, blank⟩ := indexed_create created
  obtain ⟨consistent, disk, logEq⟩ :=
    @IndexedLog.load_ok ⟨d2, log, caches⟩ st.indexed [] stored (by simp) distinct_nil (by simp)
      sound blank () loaded
  have first : st.log.nextId = 1 := by
    show st.indexed.log.header.nextId = 1
    rw [logEq, header]
    rfl
  refine ⟨⟨consistent, ?_, ?_, ?_⟩, first⟩
  · show st.indexed.log.dir = st.config.dataDir
    rw [logEq, hconfig]
    exact dir
  · intro q under
    obtain ⟨nonempty, notPrefix, notChild⟩ := under_child (hconfig ▸ under)
    show st.indexed.disk.node? q = none
    rw [disk, others q notPrefix (notChild indexFile (by decide)) (notChild dataFile (by decide))]
    exact unnamed q nonempty notPrefix
  · rw [first]
    exact fun above => Int64.lt_irrefl above

/-- Closing a consistent store leaves its data directory as recovery finds nothing to do in it,
and its log opens there again, with any options, on the same records under the same header. -/
theorem Consistent.reloads {st : Store} {rs : List Identity} (hc : st.Consistent rs)
    {config : Config} (same : config.dataDir = st.config.dataDir)
    : recoverInterrupted config.dataDir config.logOptions st.close = .ok () st.close ∧
      ∃ l d, IdentityLog.openIn config.dataDir config.logOptions st.close = .ok l d ∧
        Stored d l (rs.map stored) ∧ l.header = st.log.header ∧ l.dir = st.log.dir ∧
        d.nodes = st.close.nodes := by
  have stored := hc.indexed.stored
  have home : components st.log.dir = components config.dataDir := by rw [hc.home, same]
  have idle : st.close.node? (components config.dataDir ++ [compactDir]) = none :=
    hc.idle _ (same ▸ List.prefix_refl _)
  obtain ⟨l, d, reopened, stored', header, -, -, dir, -, -, -, nodes, -, -⟩ :=
    openIn_stored stored config.logOptions
  have dataDir : st.indexed.log.dir = config.dataDir := hc.home.trans same.symm
  exact ⟨recoverInterrupted_idle (home ▸ stored.placed.chain) idle,
    l, d, dataDir ▸ reopened, stored', header, dir, nodes⟩

/-- Closing a consistent store and opening its data directory again, under any configuration
that names the same directory, gives a store consistent with the same records under the same
id mark. -/
theorem Consistent.reopen {st st' : Store} {rs : List Identity} (hc : st.Consistent rs)
    {config : Config} (same : config.dataDir = st.config.dataDir) {d' : Disk}
    (h : Store.open config st.close = .ok st' d')
    : st'.Consistent rs ∧ st'.log.nextId = st.log.nextId ∧ st'.config = config := by
  obtain ⟨d1, d2, log, caches, recovered, opened, created, loaded, hconfig, rfl⟩ := open_ok h
  obtain ⟨idle, l, d3, reopened, stored', header, dir, nodes⟩ := hc.reloads same
  rw [idle] at recovered
  cases recovered
  rw [reopened] at opened
  cases opened
  obtain ⟨sound, blank⟩ := indexed_create created
  have fresh : ∀ r ∈ rs, r.globalId < log.nextId := fun r mem => by
    rw [IdentityLog.nextId, header]
    exact hc.indexed.fresh r mem
  obtain ⟨consistent, disk, logEq⟩ :=
    @IndexedLog.load_ok ⟨d2, log, caches⟩ st'.indexed rs stored' hc.indexed.canonical
      hc.indexed.distinct fresh sound blank () loaded
  have nextId : st'.log.nextId = st.log.nextId := by
    show st'.indexed.log.header.nextId = st.indexed.log.header.nextId
    rw [logEq, header]
    rfl
  refine ⟨⟨consistent, ?_, ?_, nextId ▸ hc.started⟩, nextId, hconfig⟩
  · show st'.indexed.log.dir = st'.config.dataDir
    rw [logEq, hconfig, dir]
    exact hc.home.trans same.symm
  · intro q under
    show st'.indexed.disk.node? q = none
    rw [disk, Disk.node?_congr nodes]
    exact hc.idle q (by rw [← same, ← hconfig]; exact under)


end MetricRegistry.Store
