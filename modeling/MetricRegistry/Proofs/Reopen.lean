import MetricRegistry.Proofs.Session

/-! Closing a store and opening it again keeps its caches, counters and lookups
(`Consistent.reopened`), so every store a session reaches reopens to itself
(`session_reopen`). -/

namespace MetricRegistry.Store

open Disk Log Table Record

section Caches

variable {κ : Type} [DecidableEq κ] [TableKey κ] {c c' : Cache κ} {rs : List Identity}
  {entry : Nat → Identity → Option (κ × Int64)}

/-- Two caches that answer for the same records map every key alike. -/
theorem Answers.get_congr (h : Answers c rs entry) (h' : Answers c' rs entry) (k : κ)
    : c'.get k = c.get k :=
  Option.ext fun v => (h' k v).trans (h k v).symm

end Caches

/-- The checks of a configuration do not read its log access. -/
theorem Config.validate_access (c : Config) (access : Access)
    : ({ c with access } : Config).validate = c.validate := by
  unfold Config.validate
  rfl


/-- Opening a store of a valid configuration, on a data directory that recovery leaves as it
is, once the log has opened and the caches are made, is loading the log into those caches. -/
theorem open_loaded {config : Config} {d d1 d2 : Disk} {log : IdentityLog} {caches : CacheSet}
    (valid : config.validate = .ok ())
    (recovered : recoverInterrupted config.dataDir config.logOptions d = .ok () d1)
    (opened : IdentityLog.openIn config.dataDir config.logOptions d1 = .ok log d2)
    (created : CacheSet.create config.nameCache config.opaqueCache config.locationCache =
      .ok caches)
    : Store.open config d =
        match IndexedLog.load ⟨d2, log, caches⟩ with
        | .ok () t => .ok { config, indexed := t, inserts := 0 } t.disk
        | .error e t => .error e t.disk := by
  simp only [Store.open, bind, EStateM.bind, Log.liftExcept, valid, created, recovered, opened,
    pure, EStateM.pure, getThe, MonadState.get, MonadStateOf.get, EStateM.get]
  cases IndexedLog.load ⟨d2, log, caches⟩ <;> rfl

/-- An open store was opened under a valid configuration. -/
theorem open_valid {config : Config} {d d' : Disk} {st : Store}
    (h : Store.open config d = .ok st d') : config.validate = .ok () := by
  unfold Store.open at h
  obtain ⟨u, d0, valid, -⟩ := ok_of_bind h
  exact (liftExcept_ok valid).1

variable {st st' : Store} {rs : List Identity}

/-- What closing a store `st` whose log held `rs` and opening it again leaves: a store
consistent with the same records, whose caches map every name, opaque key and id as before (an
id to the same record index), with as many records and deleted records under the same id mark,
and which answers every lookup, location and `get` as before. -/
structure Reopened (st : Store) (rs : List Identity) (st' : Store) : Prop where
  consistent : st'.Consistent rs
  names : ∀ n, st'.caches.names.get n = st.caches.names.get n
  opaqueKeys : ∀ k, st'.caches.opaqueKeys.get k = st.caches.opaqueKeys.get k
  locations : ∀ g, st'.caches.locations.get g = st.caches.locations.get g
  size : st'.log.size = st.log.size
  tombstones : st'.log.tombstones = st.log.tombstones
  nextId : st'.log.nextId = st.log.nextId
  lookupName : ∀ n, st'.lookupName n = st.lookupName n
  lookupKey : ∀ k, st'.lookupKey k = st.lookupKey k
  locationOf : ∀ g, st'.locationOf g = st.locationOf g
  get : ∀ g, st'.get g = st.get g

/-- Two stores consistent with the same records under the same id mark are alike in all that a
reopening keeps. -/
theorem Consistent.reopened (hc : st.Consistent rs) (hc' : st'.Consistent rs)
    (nextId : st'.log.nextId = st.log.nextId) : Reopened st rs st' := by
  have names := hc.indexed.indexed.names.get_congr hc'.indexed.indexed.names
  have keys := hc.indexed.indexed.keys.get_congr hc'.indexed.indexed.keys
  have locations := hc.indexed.indexed.locations.get_congr hc'.indexed.indexed.locations
  have reads := hc.indexed.stored.reads
  have reads' := hc'.indexed.stored.reads
  refine ⟨hc', names, keys, locations, reads'.size_eq.trans reads.size_eq.symm,
    reads'.tombstones.trans reads.tombstones.symm, nextId, fun n => ?_, fun k => ?_,
    fun g => ?_, hc.get_eq hc' fun _ => Iff.rfl⟩
  · simp only [Store.lookupName, Store.caches, names]
  · simp only [Store.lookupKey, Store.caches, keys]
  · simp only [Store.locationOf, Store.caches, locations]

/-- A reopening of a store `st` whose log held `rs` that failed in filling the fresh caches: the
log had opened on the same records under the same id mark, and loading it into new caches of
the configured sizes failed. -/
def ReloadFailed (st : Store) (rs : List Identity) (e : StoreError) : Prop :=
  ∃ s s', Stored s.disk s.log (rs.map stored) ∧ s.log.nextId = st.log.nextId ∧
    CacheSet.create st.config.nameCache st.config.opaqueCache st.config.locationCache =
      .ok s.caches ∧
    IndexedLog.load s = .error e s'

/-- Closing a consistent store of a valid configuration whose caches can be made, and opening it
again with either log access, either gives a store alike in all that reopening keeps, or fails
in filling the fresh caches from the log, which opened on the same records. -/
theorem Consistent.reopen_outcome (hc : st.Consistent rs) (valid : st.config.validate = .ok ())
    {caches : CacheSet}
    (created : CacheSet.create st.config.nameCache st.config.opaqueCache st.config.locationCache =
      .ok caches)
    (access : Access)
    : (∃ st' d, Store.open { st.config with access } st.close = .ok st' d ∧ Reopened st rs st') ∨
      ∃ e d, Store.open { st.config with access } st.close = .error e d ∧ ReloadFailed st rs e := by
  have same : ({ st.config with access } : Config).dataDir = st.config.dataDir := rfl
  cases opened : Store.open { st.config with access } st.close with
  | ok st' d =>
      obtain ⟨hc', nextId, -⟩ := hc.reopen same opened
      exact .inl ⟨st', d, rfl, hc.reopened hc' nextId⟩
  | error e d =>
      -- recovery leaves the directory alone and the log opens again, so only the load can fail
      obtain ⟨idle, l, d', reopened, stored', header, -, -⟩ := hc.reloads same
      have valid' := (Config.validate_access st.config access).trans valid
      rw [open_loaded valid' idle reopened created] at opened
      cases loaded : IndexedLog.load ⟨d', l, caches⟩ with
      | ok u t =>
          rw [loaded] at opened
          cases opened
      | error e' t =>
          rw [loaded] at opened
          cases opened
          refine .inr ⟨e, _, rfl, ⟨d', l, caches⟩, t, stored', ?_, created, loaded⟩
          show l.header.nextId = st.indexed.log.header.nextId
          rw [header]
          rfl


/-- The configuration a session opened under is valid and sizes caches that can be made, and so
is that of every store the session reaches. -/
theorem session_sized {config : Config} {cs : List Call} (few : cs.length < 2 ^ 62)
    {st : Store} (h : session config cs = some st)
    : st.config.validate = .ok () ∧
      ∃ caches, CacheSet.create st.config.nameCache st.config.opaqueCache
        st.config.locationCache = .ok caches := by
  obtain ⟨-, -, configured⟩ := session_consistent few h
  unfold session at h
  split at h
  · rename_i st0 d0 opened
    obtain ⟨-, -, -, caches, -, -, created, -, -, -⟩ := Store.open_ok opened
    rw [configured, Config.validate_access]
    exact ⟨Store.open_valid opened, caches, created⟩
  · cases h

/-- Closing any store a session of fewer than `2 ^ 62` calls reaches and opening its data
directory again, with either log access, gives a store consistent with the same records whose
caches map every name, opaque key and id as before, with as many records and deleted records
under the same id mark, answering every lookup, location and `get` as before; or the opening
fails in filling the fresh caches from the log, which opened on the same records. -/
theorem session_reopen (config : Config) (cs : List Call) (few : cs.length < 2 ^ 62)
    (access : Access)
    : match session config cs with
      | some st => ∃ rs, st.Consistent rs ∧
          ((∃ st' d, Store.open { st.config with access } st.close = .ok st' d ∧
              Store.Reopened st rs st') ∨
            ∃ e d, Store.open { st.config with access } st.close = .error e d ∧
              Store.ReloadFailed st rs e)
      | none => True := by
  cases reached : session config cs with
  | none => trivial
  | some st =>
      obtain ⟨rs, hc, -⟩ := session_consistent few reached
      obtain ⟨valid, caches, created⟩ := session_sized few reached
      exact ⟨rs, hc, hc.reopen_outcome valid created access⟩

theorem session_reopen_sample
    : [Call.resolve 0 (some "cpu") none, .delete 1, .resolve 0 none (some ⟨#[1]⟩)].length <
        2 ^ 62 ∧
      match session { dataDir := "/srv/ids" }
          [.resolve 0 (some "cpu") none, .delete 1, .resolve 0 none (some ⟨#[1]⟩)] with
      | some st => ∃ rs, st.Consistent rs ∧
          ((∃ st' d, Store.open { st.config with access := .file } st.close = .ok st' d ∧
              Store.Reopened st rs st') ∨
            ∃ e d, Store.open { st.config with access := .file } st.close = .error e d ∧
              Store.ReloadFailed st rs e)
      | none => True :=
  ⟨by decide, session_reopen _ _ (by decide) .file⟩

end MetricRegistry.Store
