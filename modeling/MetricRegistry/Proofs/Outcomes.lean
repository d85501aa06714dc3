import MetricRegistry.Proofs.Failures
import MetricRegistry.Proofs.Session

/-! What a resolution does, outcome by outcome: refused without a key, answered by an identity
its keys find, or a new record created or merged, stated by the records the log holds and what
each cache answers. -/

namespace MetricRegistry.Store

open Log Table Record

-----------------------------------------------------------------------------------------
-- What a cache answers after an entry is put in or dropped
-----------------------------------------------------------------------------------------

section Caches

variable {κ : Type} [DecidableEq κ] [TableKey κ] {c c' : Cache κ} {rs : List Identity}

/-- Putting an entry in changes the cache at the entry's key only. -/
theorem PutsEntry.get_eq {e : Option (κ × Int64)} (hs : c.Sound) (h : PutsEntry c e c') (y : κ)
    : c'.get y = if e.map Prod.fst = some y then e.map Prod.snd else c.get y := by
  cases e with
  | none => simp [show c' = c from h]
  | some kv =>
      obtain ⟨prev, put⟩ := h
      rw [(Cache.put_ok hs put).2.2 y]
      by_cases same : y = kv.1
      · simp [same]
      · simp [same, Ne.symm same]

/-- In a key cache over live records with distinct ids, dropping a live record's entry drops
exactly the keys that map to the record's id: the record's own key, if it has one. -/
theorem Answers.get_dropEntry {entry : Nat → Identity → Option (κ × Int64)}
    (h : Answers c rs entry) (hs : c.Sound) (ids : Unique rs locationEntry)
    (toId : ∀ i r k v, entry i r = some (k, v) → v = r.globalId) {i : Nat} {r : Identity}
    (live : LiveAt rs i r) (y : κ)
    : (dropEntry c (entry i r)).get y = if c.get y = some r.globalId then none else c.get y := by
  have owner : c.get y = some r.globalId → entry i r = some (y, r.globalId) := by
    intro held
    obtain ⟨j, r', live', he⟩ := (h y r.globalId).mp held
    obtain rfl := ids.ids live live' (toId j r' y r.globalId he)
    obtain rfl : r' = r := Option.some.inj (live'.1.symm.trans live.1)
    exact he
  cases he : entry i r with
  | none =>
      have free : c.get y ≠ some r.globalId := fun held => by
        rw [owner held] at he
        cases he
      simp [dropEntry, free]
  | some kv =>
      obtain ⟨k, v⟩ := kv
      obtain rfl := toId i r k v he
      rw [dropEntry, (Cache.removeIf_spec hs _).2 y, h.get_of_live live he]
      by_cases same : y = k
      · simp [same, h.get_of_live live he]
      · have other : c.get y ≠ some r.globalId := fun held => by
          rw [owner held, Option.some.injEq, Prod.mk.injEq] at he
          exact same he.1
        simp [same, other]

/-- Dropping a live record's location drops its id and nothing else. -/
theorem Answers.get_dropLocation {c : Cache Int64} (h : Answers c rs locationEntry)
    (hs : c.Sound) {i : Nat} {r : Identity} (live : LiveAt rs i r) (y : Int64)
    : (dropEntry c (locationEntry i r)).get y = if y = r.globalId then none else c.get y := by
  rw [locationEntry, dropEntry, (Cache.removeIf_spec hs _).2 y,
    h.get_of_live live (by rw [locationEntry])]
  simp

/-- Dropping the entries of two live records, one after the other, drops exactly the keys that
map to either record's id. -/
theorem Answers.get_dropTwo {entry : Nat → Identity → Option (κ × Int64)}
    (h : Answers c rs entry) (hs : c.Sound) (unique : Unique rs entry)
    (ids : Unique rs locationEntry) (toId : ∀ i r k v, entry i r = some (k, v) → v = r.globalId)
    {i1 i2 : Nat} {r1 r2 : Identity} (live1 : LiveAt rs i1 r1)
    (live2 : LiveAt (rs.set i1 { r1 with tombstoned := true }) i2 r2) (y : κ)
    : (dropEntry (dropEntry c (entry i1 r1)) (entry i2 r2)).get y =
        if c.get y = some r1.globalId ∨ c.get y = some r2.globalId then none else c.get y := by
  rw [(h.retire_entry hs unique live1).get_dropEntry (sound_dropEntry hs _) (ids.retire live1.1)
    toId live2 y, h.get_dropEntry hs ids toId live1 y]
  by_cases one : c.get y = some r1.globalId <;> by_cases two : c.get y = some r2.globalId <;>
    simp [one, two]

end Caches

namespace IndexedLog

variable {s s' : IndexedLog} {rs : List Identity} {now : Int64} {name : Option String}
  {key : Option ByteArray}

-----------------------------------------------------------------------------------------
-- The branches of a resolution
-----------------------------------------------------------------------------------------

/-- Without a present key, a resolution fails and changes nothing. -/
theorem resolve_keyless (noName : Identity.keepName name = none)
    (noKey : Identity.keepKey key = none)
    : resolve now name key s = .error .invalidIdentity s := by
  simp [resolve, noName, noKey, bind, EStateM.bind, throw, throwThe, MonadExceptOf.throw,
    EStateM.throw]

/-- The body of a resolution with a present key, once the caches are read. -/
theorem resolve_keyed (keyed : ¬ (Identity.keepName name = none ∧ Identity.keepKey key = none))
    : resolve now name key s =
        (match (Identity.keepName name).bind s.caches.names.get,
            (Identity.keepKey key).bind s.caches.opaqueKeys.get with
          | none, none => do
            let g ← writeRecord now (Identity.keepName name) (Identity.keepKey key)
            indexKeys g (Identity.keepName name) (Identity.keepKey key)
            pure (Resolution.created g)
          | some byName, some byKey =>
            if byName = byKey then pure (Resolution.existing byName)
            else do
              let g ← writeRecord now (Identity.keepName name) (Identity.keepKey key)
              let _ ← retire byName
              let _ ← retire byKey
              indexKeys g (Identity.keepName name) (Identity.keepKey key)
              pure (Resolution.merged g byName byKey)
          | some g, none | none, some g => pure (Resolution.existing g) : IndexedM Resolution) s := by
  have present : ¬ ((Identity.keepName name).isNone && (Identity.keepKey key).isNone) = true := by
    cases hn : Identity.keepName name <;> cases hk : Identity.keepKey key <;> simp_all
  unfold resolve
  dsimp only
  rw [if_neg present]
  rfl

/-- Keys that find one identity, and no other, answer it and change nothing. A present key that
finds nothing is not attached to that identity. -/
theorem resolve_known {g : Int64}
    (known : ((Identity.keepName name).bind s.caches.names.get = some g ∧
        (Identity.keepKey key).bind s.caches.opaqueKeys.get = some g) ∨
      ((Identity.keepName name).bind s.caches.names.get = some g ∧
        (Identity.keepKey key).bind s.caches.opaqueKeys.get = none) ∨
      ((Identity.keepName name).bind s.caches.names.get = none ∧
        (Identity.keepKey key).bind s.caches.opaqueKeys.get = some g))
    : resolve now name key s = .ok (.existing g) s := by
  have keyed : ¬ (Identity.keepName name = none ∧ Identity.keepKey key = none) := by
    rintro ⟨noName, noKey⟩
    rcases known with ⟨found, -⟩ | ⟨found, -⟩ | ⟨-, found⟩ <;> simp [noName, noKey] at found
  rw [resolve_keyed keyed]
  rcases known with ⟨byName, byKey⟩ | ⟨byName, byKey⟩ | ⟨byName, byKey⟩ <;>
    simp [byName, byKey, pure, EStateM.pure]

/-- A resolution is refused for want of a key exactly when neither key is present, and a refused
one changes nothing: a request with a key fails, if at all, in the log or in a cache. -/
theorem resolve_refused_iff
    : resolve now name key s = .error .invalidIdentity s' ↔
      (Identity.keepName name = none ∧ Identity.keepKey key = none) ∧ s' = s := by
  by_cases keyless : Identity.keepName name = none ∧ Identity.keepKey key = none
  · rw [resolve_keyless keyless.1 keyless.2]
    simp [keyless, eq_comm]
  rw [resolve_keyed keyless]
  simp only [keyless, false_and, iff_false]
  rcases (Identity.keepName name).bind s.caches.names.get with _ | byName <;>
    rcases (Identity.keepKey key).bind s.caches.opaqueKeys.get with _ | byKey
  · exact (NeverFails.bind (writeRecord_neverFails _ _ _) fun g =>
      .bind (indexKeys_neverFails g _ _) fun _ => .pure _) s s'
  · exact NeverFails.pure _ s s'
  · exact NeverFails.pure _ s s'
  · dsimp only
    split
    · exact NeverFails.pure _ s s'
    · exact (NeverFails.bind (writeRecord_neverFails _ _ _) fun g =>
        .bind (retire_neverFails _) fun _ => .bind (retire_neverFails _) fun _ =>
          .bind (indexKeys_neverFails g _ _) fun _ => .pure _) s s'

-----------------------------------------------------------------------------------------
-- A new identity
-----------------------------------------------------------------------------------------

/-- The store `s'` after a new identity was created in `s`, whose log held `rs`, for a request of
`name` and `key` stamped `now`: the log holds one more record, live, under the id mark; the
location cache maps the new id to the record's index and the name and opaque key caches map each
present key to the new id; no other record, file or cache entry changed. -/
structure Created (s : IndexedLog) (rs : List Identity) (now : Int64) (name : Option String)
    (key : Option ByteArray) (s' : IndexedLog) : Prop where
  stored : Stored s'.disk s'.log
    ((rs ++ [Identity.create s.log.nextId now name key]).map Record.stored)
  header : s'.log.header =
    s.log.header.appended (Record.stored (Identity.create s.log.nextId now name key))
  files : SameFiles s.log s'.log
  confined : Confined s.log s.disk s'.disk
  locations : ∀ g, s'.caches.locations.get g =
    if g = s.log.nextId then some (Int64.ofNat rs.length) else s.caches.locations.get g
  names : ∀ n, s'.caches.names.get n =
    if Identity.keepName name = some n then some s.log.nextId else s.caches.names.get n
  opaqueKeys : ∀ k, s'.caches.opaqueKeys.get k =
    if Identity.keepKey key = some k then some s.log.nextId else s.caches.opaqueKeys.get k

/-- Keys that find nothing, when the resolution succeeds, get one new identity. -/
theorem Consistent.resolve_created (hc : Consistent s rs)
    (noName : (Identity.keepName name).bind s.caches.names.get = none)
    (noKey : (Identity.keepKey key).bind s.caches.opaqueKeys.get = none) {res : Resolution}
    (h : IndexedLog.resolve now name key s = .ok res s')
    : res = .created s.log.nextId ∧ Created s rs now name key s' := by
  by_cases keyless : Identity.keepName name = none ∧ Identity.keepKey key = none
  · rw [resolve_keyless keyless.1 keyless.2] at h
    cases h
  rw [resolve_keyed keyless] at h
  simp only [noName, noKey] at h
  obtain ⟨g, s1, written, rest⟩ := ok_of_bind h
  obtain ⟨u, s2, keyed, done⟩ := ok_of_bind rest
  simp only [pure, EStateM.pure, EStateM.Result.ok.injEq] at done
  obtain ⟨rfl, rfl⟩ := done
  obtain ⟨rfl, -, stored1, header1, same1, confined1, names1, keys1, located1⟩ :=
    writeRecord_ok hc.stored written
  obtain ⟨names, keys, putName, putKey, rfl⟩ := indexKeys_ok keyed
  rw [create_keep] at stored1 header1 located1
  refine ⟨rfl, stored1, header1, same1, confined1, fun g => ?_, fun n => ?_, fun k => ?_⟩
  · rw [located1.get_eq hc.sound.locations g]
    by_cases same : g = s.log.nextId <;> simp [locationEntry, Identity.create, same, eq_comm]
  · rw [putName.get_eq (names1 ▸ hc.sound.names) n, names1]
    cases Identity.keepName name <;> simp
  · rw [putKey.get_eq (keys1 ▸ hc.sound.opaqueKeys) k, keys1]
    cases Identity.keepKey key <;> simp

-----------------------------------------------------------------------------------------
-- Two identities merged
-----------------------------------------------------------------------------------------

/-- The store `s'` after the identities `a` and `b` were merged in `s`, whose log held `rs`, for a
request of `name` and `key` stamped `now`. The log holds one more record, live, carrying both keys
under the id mark, and the live records of `a` and `b`, the ones the location cache pointed at,
are flagged deleted. The location cache drops the two ids and locates the new one; the name and
opaque key caches drop every key that mapped to either identity, whichever record carried it, and
map the request's keys to the new id. No other record, file or cache entry changed. -/
structure Merged (s : IndexedLog) (rs : List Identity) (now : Int64) (name : Option String)
    (key : Option ByteArray) (a b : Int64) (s' : IndexedLog) : Prop where
  retired : ∃ i1 r1 i2 r2, s.caches.locations.get a = some (Int64.ofNat i1) ∧ LiveAt rs i1 r1 ∧
    s.caches.locations.get b = some (Int64.ofNat i2) ∧ LiveAt rs i2 r2 ∧
    Stored s'.disk s'.log ((((rs ++ [Identity.create s.log.nextId now name key]).set i1
      { r1 with tombstoned := true }).set i2 { r2 with tombstoned := true }).map Record.stored)
  header : s'.log.header =
    s.log.header.appended (Record.stored (Identity.create s.log.nextId now name key))
  files : SameFiles s.log s'.log
  confined : Confined s.log s.disk s'.disk
  locations : ∀ g, s'.caches.locations.get g = if g = s.log.nextId then some (Int64.ofNat rs.length)
    else if g = a ∨ g = b then none else s.caches.locations.get g
  names : ∀ n, s'.caches.names.get n = if Identity.keepName name = some n then some s.log.nextId
    else if s.caches.names.get n = some a ∨ s.caches.names.get n = some b then none
    else s.caches.names.get n
  opaqueKeys : ∀ k, s'.caches.opaqueKeys.get k = if Identity.keepKey key = some k
    then some s.log.nextId
    else if s.caches.opaqueKeys.get k = some a ∨ s.caches.opaqueKeys.get k = some b then none
    else s.caches.opaqueKeys.get k

/-- Keys that find two identities, when the resolution succeeds, merge them into a new one. -/
theorem Consistent.resolve_merged (hc : Consistent s rs) {n : String} {k : ByteArray}
    {a b : Int64} (named : Identity.keepName name = some n) (keyed : Identity.keepKey key = some k)
    (byName : s.caches.names.get n = some a) (byKey : s.caches.opaqueKeys.get k = some b)
    (apart : a ≠ b) {res : Resolution} (h : IndexedLog.resolve now name key s = .ok res s')
    : res = .merged s.log.nextId a b ∧ Merged s rs now name key a b s' := by
  have present : ¬ (Identity.keepName name = none ∧ Identity.keepKey key = none) := by
    simp [named]
  rw [resolve_keyed present] at h
  simp only [named, keyed, Option.bind_some, byName, byKey, if_neg apart] at h
  obtain ⟨g, s1, written, rest⟩ := ok_of_bind h
  obtain ⟨_, s2, retired1, rest⟩ := ok_of_bind rest
  obtain ⟨_, s3, retired2, rest⟩ := ok_of_bind rest
  obtain ⟨u, s4, indexed, done⟩ := ok_of_bind rest
  simp only [pure, EStateM.pure, EStateM.Result.ok.injEq] at done
  obtain ⟨rfl, rfl⟩ := done
  obtain ⟨rfl, -, i1, r1, i2, r2, live1, entry1, live2, entry2, notSame, stored4, header4, same4,
    confined4, located, puts, locations4, putName, putKey⟩ :=
    merge_steps hc byName byKey apart written retired1 retired2 indexed
  have record : Identity.create s.log.nextId now (some n) (some k) =
      Identity.create s.log.nextId now name key := by
    rw [← named, ← keyed, create_keep]
  rw [record] at stored4 header4 puts
  have id1 : r1.globalId = a := (nameEntry_id entry1).symm
  have id2 : r2.globalId = b := (keyEntry_id entry2).symm
  have distinct := hc.distinct
  have live2' : LiveAt (rs.set i1 { r1 with tombstoned := true }) i2 r2 :=
    (liveAt_retire live1.1).mpr ⟨live2, notSame⟩
  have located1 := hc.indexed.locations.get_of_live live1 (by rw [locationEntry, id1])
  have located2 := hc.indexed.locations.get_of_live live2 (by rw [locationEntry, id2])
  refine ⟨rfl, ⟨i1, r1, i2, r2, located1, live1, located2, live2, stored4⟩, header4, same4,
    confined4, fun g => ?_, fun n' => ?_, fun k' => ?_⟩
  · have fresh1 : a ≠ s.log.nextId := fun same => Int64.lt_irrefl
      (same ▸ id1 ▸ hc.fresh r1 (List.mem_of_getElem? live1.1))
    have fresh2 : b ≠ s.log.nextId := fun same => Int64.lt_irrefl
      (same ▸ id2 ▸ hc.fresh r2 (List.mem_of_getElem? live2.1))
    obtain ⟨answers1, unique1⟩ := hc.located_fresh rfl rfl puts
    have sound1 : located.Sound := puts.sound hc.sound.locations
    have live1' : LiveAt (rs ++ [Identity.create s.log.nextId now name key]) i1 r1 :=
      liveAt_append.mpr (.inl live1)
    have live2'' := (liveAt_retire live1'.1).mpr ⟨liveAt_append.mpr (.inl live2), notSame⟩
    rw [locations4, (answers1.retire_entry sound1 unique1 live1').get_dropLocation
      (sound_dropEntry sound1 _) live2'' g, answers1.get_dropLocation sound1 live1' g,
      puts.get_eq hc.sound.locations g, id1, id2]
    by_cases new : g = s.log.nextId
    · subst new
      simp [locationEntry, Identity.create, fresh1.symm, fresh2.symm]
    · by_cases ga : g = a <;> by_cases gb : g = b <;>
        simp [locationEntry, Identity.create, new, ga, gb, Ne.symm new, fresh1, fresh2]
  · rw [putName.get_eq (sound_dropEntry (sound_dropEntry hc.sound.names _) _) n',
      hc.indexed.names.get_dropTwo hc.sound.names distinct.names distinct.ids
        (fun _ _ _ _ => nameEntry_id) live1 live2' n', id1, id2]
    by_cases same : n' = n
    · simp [named, same]
    · simp [named, Ne.symm same]
  · rw [putKey.get_eq (sound_dropEntry (sound_dropEntry hc.sound.opaqueKeys _) _) k',
      hc.indexed.keys.get_dropTwo hc.sound.opaqueKeys distinct.keys distinct.ids
        (fun _ _ _ _ => keyEntry_id) live1 live2' k', id1, id2]
    by_cases same : k' = k
    · simp [keyed, same]
    · simp [keyed, Ne.symm same]

-----------------------------------------------------------------------------------------
-- Every outcome
-----------------------------------------------------------------------------------------

/-- What a resolution of `name` and `key` stamped `now` does from the store `s`, whose log holds
`rs`, by what the present keys find in the caches. -/
structure Resolves (s : IndexedLog) (rs : List Identity) (now : Int64) (name : Option String)
    (key : Option ByteArray) : Prop where
  refused : ∀ s', resolve now name key s = .error .invalidIdentity s' ↔
    (Identity.keepName name = none ∧ Identity.keepKey key = none) ∧ s' = s
  known : ∀ g, ((Identity.keepName name).bind s.caches.names.get = some g ∧
        (Identity.keepKey key).bind s.caches.opaqueKeys.get = some g) ∨
      ((Identity.keepName name).bind s.caches.names.get = some g ∧
        (Identity.keepKey key).bind s.caches.opaqueKeys.get = none) ∨
      ((Identity.keepName name).bind s.caches.names.get = none ∧
        (Identity.keepKey key).bind s.caches.opaqueKeys.get = some g) →
    resolve now name key s = .ok (.existing g) s
  created : (Identity.keepName name).bind s.caches.names.get = none →
    (Identity.keepKey key).bind s.caches.opaqueKeys.get = none →
    ∀ res s', resolve now name key s = .ok res s' →
      res = .created s.log.nextId ∧ Created s rs now name key s'
  merged : ∀ n k a b, Identity.keepName name = some n → Identity.keepKey key = some k →
    s.caches.names.get n = some a → s.caches.opaqueKeys.get k = some b → a ≠ b →
    ∀ res s', resolve now name key s = .ok res s' →
      res = .merged s.log.nextId a b ∧ Merged s rs now name key a b s'

/-- Every resolution from a consistent store has the outcome its keys call for: refused exactly
without a key, the known identity unchanged, or, when it succeeds, a new identity or two merged
into a new one. -/
theorem Consistent.resolve_outcomes (hc : Consistent s rs) (now : Int64) (name : Option String)
    (key : Option ByteArray) : Resolves s rs now name key where
  refused _ := resolve_refused_iff
  known _ := resolve_known
  created noName noKey _ _ := hc.resolve_created noName noKey
  merged _ _ _ _ named keyed byName byKey apart _ _ :=
    hc.resolve_merged named keyed byName byKey apart

theorem resolve_outcomes_sample
    : match session { dataDir := "/srv/ids" } [.resolve 0 (some "cpu") none] with
      | some st => ∃ rs, st.indexed.Consistent rs ∧
          Resolves st.indexed rs 1 (some "cpu") (some ⟨#[1]⟩)
      | none => True := by
  cases reached : session { dataDir := "/srv/ids" } [.resolve 0 (some "cpu") none] with
  | none => trivial
  | some st =>
      obtain ⟨rs, hc, -⟩ := session_consistent (by decide) reached
      exact ⟨rs, hc.indexed, hc.indexed.resolve_outcomes 1 (some "cpu") (some ⟨#[1]⟩)⟩

end IndexedLog

end MetricRegistry.Store
