import MetricRegistry.Proofs.Serializable
import MetricRegistry.Proofs.Session

/-! Lookups while a compaction runs: every cell a lookup can reach answers as the store did
before the compaction, so every lookup in every interleaving does (`session_compaction_lookups`),
and no existing cell is written again. -/

namespace MetricRegistry.Store

open Disk Log Table

/-- A cache set answers every lookup of a non-empty name or key as the store `st` does. -/
def AnswersLike (st : Store) (c : CacheSet) : Prop :=
  ∀ q : Query, q.isEmpty = false → q.probe c = q.answer st

/-- An empty name or key finds nothing in any store. -/
theorem Query.answer_of_isEmpty {q : Query} (st : Store) (h : q.isEmpty = true)
    : q.answer st = none := by
  cases q with
  | name n =>
      have empty : n.isEmpty = true := h
      simp [Query.answer, Store.lookupName, empty]
  | key k =>
      have empty : k.size = 0 := by simpa [Query.isEmpty] using h
      simp [Query.answer, Store.lookupKey, empty]

/-- The caches of a store that answers every lookup as `st` answer as `st` does. -/
theorem answersLike_of_lookups {st st' : Store} (names : ∀ n, st'.lookupName n = st.lookupName n)
    (keys : ∀ k, st'.lookupKey k = st.lookupKey k) : AnswersLike st st'.caches := by
  intro q nonempty
  cases q with
  | name n =>
      have filled : n.isEmpty = false := nonempty
      rw [Query.probe, Query.answer, ← names n]
      simp [Store.lookupName, filled]
  | key k =>
      have filled : ¬ k.size = 0 := by simpa [Query.isEmpty] using nonempty
      rw [Query.probe, Query.answer, ← keys k]
      simp [Store.lookupKey, filled]

/-- A compaction of a consistent store that succeeds leaves it compacted. -/
theorem Consistent.compacted_of_ok {st st' : Store} {rs : List Identity}
    (hc : st.Consistent rs) {report : Report} (h : Store.defragment st = .ok report st')
    : Store.Compacted st rs st' := by
  rcases hc.defragment with ⟨st'', done, compacted⟩ | ⟨e, st'', failed, -⟩
  · rw [h, EStateM.Result.ok.injEq] at done
    exact done.2 ▸ compacted
  · rw [h] at failed
    cases failed

namespace Shared

variable {s s' : Shared} {t : Nat} {stage stage' : Stage}

theorem allocate_keeps (s : Shared) (x : CacheSet)
    : s.cellCount ≤ (s.allocate x).cellCount ∧
        ∀ c < s.cellCount, (s.allocate x).cells c = s.cells c :=
  ⟨Nat.le_succ _, fun _ lt => by simp [allocate, Nat.ne_of_lt lt]⟩

/-- A new cell that answers as `st` keeps every cell answering as `st`. -/
theorem allocate_answersLike {st : Store} {x : CacheSet}
    (cells : ∀ c < s.cellCount, AnswersLike st (s.cells c)) (like : AnswersLike st x)
    : ∀ c < (s.allocate x).cellCount, AnswersLike st ((s.allocate x).cells c) := by
  intro c lt
  by_cases new : c = s.cellCount
  · subst new
    simpa [allocate] using like
  · have old : c < s.cellCount := by
      simp only [allocate] at lt
      omega
    simpa [allocate, new] using cells c old

/-- What a compaction's step can do to the cells and the read path: leave the cells alone and
keep the read path or send it back to the primary pointer; put a snapshot of the pinned cell in a
new cell; send lookups to the snapshot; or put the rebuilt caches in a new cell. -/
theorem compactionStep_shape (h : s.compactionStep t stage = some (s', stage'))
    : (s'.cellCount = s.cellCount ∧ s'.cells = s.cells ∧
        (s'.readPath = s.readPath ∨ s'.readPath = .primary)) ∨
      (∃ before old, stage = .pinned before old ∧ s' = s.allocate (s.cells old)) ∨
      (∃ before old shadow, stage = .snapshotted before old shadow ∧
        s' = { s with readPath := .shadow shadow }) ∨
      (∃ before old st', stage = .swapped before old ∧
        Store.rebuild (s.view old) = .ok () st' ∧ s' = s.allocate st'.caches ∧
        stage' = .rebuilt before s.cellCount) := by
  unfold compactionStep at h
  cases stage with
  | start =>
      obtain ⟨s'', taken, same⟩ := Option.map_eq_some_iff.mp h
      simp only [Prod.mk.injEq] at same
      obtain ⟨rfl, -⟩ := same
      obtain ⟨-, rfl⟩ := acquire_eq_some taken
      exact .inl ⟨rfl, rfl, .inl rfl⟩
  | pinned before old =>
      simp only [Option.some.injEq, Prod.mk.injEq] at h
      exact .inr (.inl ⟨before, old, rfl, h.1.symm⟩)
  | snapshotted before old shadow =>
      simp only [Option.some.injEq, Prod.mk.injEq] at h
      exact .inr (.inr (.inl ⟨before, old, shadow, rfl, h.1.symm⟩))
  | redirected before old =>
      dsimp only at h
      split at h
      · simp only [Option.some.injEq, Prod.mk.injEq] at h
        obtain ⟨rfl, -⟩ := h
        exact .inl ⟨rfl, rfl, .inr rfl⟩
      · simp only [Option.some.injEq, Prod.mk.injEq] at h
        obtain ⟨rfl, -⟩ := h
        exact .inl ⟨rfl, rfl, .inl rfl⟩
  | rewritten before old temp =>
      dsimp only at h
      split at h
      all_goals
        simp only [Option.some.injEq, Prod.mk.injEq] at h
        obtain ⟨rfl, -⟩ := h
        exact .inl ⟨rfl, rfl, .inl rfl⟩
  | swapped before old =>
      dsimp only at h
      split at h
      · rename_i st' rebuilt
        simp only [Option.some.injEq, Prod.mk.injEq] at h
        obtain ⟨rfl, rfl⟩ := h
        exact .inr (.inr (.inr ⟨before, old, st', rfl, rebuilt, rfl, rfl⟩))
      · simp only [Option.some.injEq, Prod.mk.injEq] at h
        obtain ⟨rfl, -⟩ := h
        exact .inl ⟨rfl, rfl, .inl rfl⟩
  | rebuilt before fresh =>
      simp only [Option.some.injEq, Prod.mk.injEq] at h
      obtain ⟨rfl, -⟩ := h
      exact .inl ⟨rfl, rfl, .inl rfl⟩
  | replaced report =>
      simp only [Option.some.injEq, Prod.mk.injEq] at h
      obtain ⟨rfl, -⟩ := h
      exact .inl ⟨rfl, rfl, .inr rfl⟩
  | releasing a k =>
      simp only [Option.some.injEq] at h
      have released : s' = s.release := (congrArg Prod.fst h).symm
      subst released
      exact .inl ⟨rfl, rfl, .inl rfl⟩
  | locked =>
      simp only [Option.some.injEq, Prod.mk.injEq] at h
      obtain ⟨rfl, -⟩ := h
      exact .inl ⟨rfl, rfl, .inl rfl⟩
  | _ => cases h

/-- A compaction's step only adds cells: the ones there stay as they are. -/
theorem compactionStep_keeps_cells (h : s.compactionStep t stage = some (s', stage'))
    : s.cellCount ≤ s'.cellCount ∧ ∀ c < s.cellCount, s'.cells c = s.cells c := by
  rcases compactionStep_shape h with
    ⟨count, cells, -⟩ | ⟨_, _, -, rfl⟩ | ⟨_, _, _, -, rfl⟩ | ⟨_, _, _, -, -, rfl, -⟩
  · rw [count, cells]
    exact ⟨Nat.le_refl _, fun _ _ => rfl⟩
  · exact allocate_keeps s _
  · exact ⟨Nat.le_refl _, fun _ _ => rfl⟩
  · exact allocate_keeps s _

/-- A step of a lookup or of a compaction only adds cells. -/
theorem threadStep_keeps_cells {th : Thread}
    (reads : th.task = .defragment ∨ ∃ q, th.task = .lookup q)
    (h : s.threadStep t th = some (s', stage'))
    : s.cellCount ≤ s'.cellCount ∧ ∀ c < s.cellCount, s'.cells c = s.cells c := by
  obtain ⟨task, stage⟩ := th
  rcases reads with rfl | ⟨q, rfl⟩
  · exact compactionStep_keeps_cells h
  · rw [lookupStep_shared h]
    exact ⟨Nat.le_refl _, fun _ _ => rfl⟩

end Shared

/-- A run keeps every thread's task. -/
theorem World.run_tasks : ∀ {w : World} {ts : List Nat} {w' : World}, w.run ts = some w' →
    w'.threads.map Thread.task = w.threads.map Thread.task
  | w, [], w', ran => by
      simp only [World.run, Option.some.injEq] at ran
      rw [ran]
  | w, t :: ts, w', ran => by
      simp only [World.run] at ran
      cases stepped : w.step t with
      | none => simp [stepped] at ran
      | some w1 =>
          simp only [stepped, Option.bind_some] at ran
          exact (World.run_tasks ran).trans (World.tasks_step stepped)

/-- Threads that only look up and compact never write a cell that exists: every run keeps the
cells there are and only adds new ones. -/
theorem World.run_keeps_cells : ∀ {w : World} {ts : List Nat} {w' : World},
    (∀ task ∈ w.threads.map Thread.task, task = .defragment ∨ ∃ q, task = .lookup q) →
    w.run ts = some w' →
    w.shared.cellCount ≤ w'.shared.cellCount ∧
      ∀ c < w.shared.cellCount, w'.shared.cells c = w.shared.cells c
  | w, [], w', _, ran => by
      simp only [World.run, Option.some.injEq] at ran
      subst ran
      exact ⟨Nat.le_refl _, fun _ _ => rfl⟩
  | w, t :: ts, w', reads, ran => by
      simp only [World.run] at ran
      cases stepped : w.step t with
      | none => simp [stepped] at ran
      | some w1 =>
          simp only [stepped, Option.bind_some] at ran
          obtain ⟨-, th, s1, stage1, found, moved, rfl⟩ := World.step_some stepped
          have kind := reads th.task (List.mem_map_of_mem (List.mem_of_getElem? found))
          obtain ⟨grew, kept⟩ := Shared.threadStep_keeps_cells kind moved
          obtain ⟨grew', kept'⟩ :=
            World.run_keeps_cells (by rw [World.tasks_step stepped]; exact reads) ran
          exact ⟨Nat.le_trans grew grew', fun c lt => (kept' c (Nat.lt_of_lt_of_le lt grew)).trans
            (kept c lt)⟩

-----------------------------------------------------------------------------------------
-- One compaction among lookups
-----------------------------------------------------------------------------------------

section Tasks

variable {queries : List Query} {task : Task}

/-- The first thread is the compaction. -/
theorem task_zero (h : (Task.defragment :: queries.map .lookup)[0]? = some task)
    : task = .defragment := by
  simpa using h.symm

/-- Every other thread looks up one of the queries. -/
theorem task_succ {i : Nat} (h : (Task.defragment :: queries.map .lookup)[i + 1]? = some task)
    : ∃ q, queries[i]? = some q ∧ task = .lookup q := by
  simp only [List.getElem?_cons_succ, List.getElem?_map, Option.map_eq_some_iff] at h
  obtain ⟨q, found, rfl⟩ := h
  exact ⟨q, found, rfl⟩

end Tasks

/-- How far a lookup for `q` has got, against the store `st` it should answer as: past the check
for an empty name or key it asks a non-empty one, the cell it holds exists, and once done it
answered as `st` does. -/
def Reading (st : Store) (q : Query) (s : Shared) : Stage → Prop
  | .start => True
  | .routed => q.isEmpty = false
  | .holding c => q.isEmpty = false ∧ c < s.cellCount
  | .done a => a = .found (q.answer st)
  | _ => False

/-- New cells do not disturb a lookup. -/
theorem Reading.mono {st : Store} {q : Query} {s s' : Shared} {stage : Stage}
    (r : Reading st q s stage) (grew : s.cellCount ≤ s'.cellCount) : Reading st q s' stage := by
  cases stage with
  | holding c => exact ⟨r.1, Nat.lt_of_lt_of_le r.2 grew⟩
  | start => trivial
  | routed => exact r
  | done a => exact r
  | _ => exact r.elim

/-- What every step keeps of a compaction and lookups for `queries` started on `st`: the serial
invariant, which puts the compaction, when it holds the lock, at a stage of compacting `st`
itself; every cell there is answers as `st` does; the read path names a cell there is; and every
lookup has got only as far as `Reading` allows. -/
structure Snapshot (st : Store) (queries : List Query) (w : World) : Prop where
  serial : Serial st (.defragment :: queries.map .lookup) w
  cells : ∀ c < w.shared.cellCount, AnswersLike st (w.shared.cells c)
  readPath : ∀ c, w.shared.readPath = .shadow c → c < w.shared.cellCount
  readers : ∀ i q th, queries[i]? = some q → w.threads[i + 1]? = some th →
    Reading st q w.shared th.stage

namespace Snapshot

variable {st : Store} {rs : List Identity} {queries : List Query} {w : World}

/-- The threads start on the store's own caches, with lookups sent to them. -/
theorem start (st : Store) (queries : List Query)
    : Snapshot st queries (World.start st (.defragment :: queries.map .lookup)) := by
  refine ⟨Serial.start st _, fun c _ => answersLike_of_lookups (fun _ => rfl) (fun _ => rfl),
    (fun c path => nomatch path), fun i q th _ found => ?_⟩
  simp only [World.start, List.getElem?_map, Option.map_eq_some_iff] at found
  obtain ⟨task, -, rfl⟩ := found
  trivial

/-- The compaction's step keeps every cell answering as `st`, and the read path on a cell there
is: the snapshot copies the pinned cell, which is the primary one, the redirect names the
snapshot, and the rebuilt caches index the live records, which answer as before. -/
theorem compaction_step (hc : st.Consistent rs) (hs : Snapshot st queries w) {stage : Stage}
    (found : w.threads[0]? = some { task := .defragment, stage }) {s' : Shared} {stage' : Stage}
    (h : w.shared.compactionStep 0 stage = some (s', stage')) (live : s'.aborted = false)
    : (∀ c < s'.cellCount, AnswersLike st (s'.cells c)) ∧
        ∀ c, s'.readPath = .shadow c → c < s'.cellCount := by
  by_cases start : stage = .start
  · subst start
    obtain ⟨s'', taken, same⟩ := Option.map_eq_some_iff.mp h
    simp only [Prod.mk.injEq] at same
    obtain ⟨rfl, -⟩ := same
    obtain ⟨-, rfl⟩ := Shared.acquire_eq_some taken
    exact ⟨hs.cells, hs.readPath⟩
  have running : ({ task := .defragment, stage } : Thread).answer? = none := by
    cases stage with
    | done a => cases h
    | counting k a => cases h
    | _ => rfl
  obtain ⟨pre, -, order, out, -, progress⟩ := hs.serial.holder found rfl start running
  -- only the compaction takes the lock, so it took it first: it compacts `st` itself
  have first : pre = [] := List.eq_nil_iff_forall_not_mem.mpr fun u mem => by
    obtain ⟨th', found', locks'⟩ :=
      hs.serial.locking u (by rw [order]; exact List.mem_append_left _ mem)
    cases u with
    | zero => exact out mem
    | succ j =>
        obtain ⟨q, -, looks⟩ := task_succ (hs.serial.task_of found')
        rw [looks] at locks'
        cases locks'
  subst first
  have p : CompactionProgress st (w.shared.recount (w.shared.inserts + w.pending)) stage :=
    progress
  rcases Shared.compactionStep_shape h with ⟨count, cells, path⟩ | ⟨before, old, rfl, rfl⟩ |
    ⟨before, old, shadow, rfl, rfl⟩ | ⟨before, old, st', rfl, rebuilt, rfl, rfl⟩
  · rw [count, cells]
    refine ⟨hs.cells, fun c path' => ?_⟩
    rcases path with same | primary
    · rw [same] at path'
      exact hs.readPath c path'
    · rw [primary] at path'
      cases path'
  · obtain ⟨rfl, -, -⟩ := p
    exact ⟨Shared.allocate_answersLike hs.cells (hs.cells _ hs.serial.primary),
      fun c path => Nat.lt_succ_of_lt (hs.readPath c path)⟩
  · obtain ⟨-, -, -, made⟩ := p
    refine ⟨hs.cells, fun c path => ?_⟩
    simp only [ReadPath.shadow.injEq] at path
    exact path ▸ made
  · rcases CompactionProgress.step p h live hs.serial.primary with
      ⟨a, k, releasing, -⟩ | ⟨-, -, -, p'⟩
    · cases releasing
    · obtain ⟨-, -, done⟩ := p'
      have compacted := hc.compacted_of_ok done
      have rebuiltLike : AnswersLike st st'.caches := by
        have like := answersLike_of_lookups compacted.lookupName compacted.lookupKey
        simpa [Shared.view, Shared.recount, Store.recount, Store.caches, Shared.allocate] using like
      exact ⟨Shared.allocate_answersLike hs.cells rebuiltLike,
        fun c path => Nat.lt_succ_of_lt (hs.readPath c path)⟩

/-- A lookup's step keeps it within `Reading`: it reads a read path and a primary pointer that
name cells there are, and a cell answers as `st` does. -/
theorem lookup_step (hs : Snapshot st queries w) {q : Query} {stage : Stage}
    (r : Reading st q w.shared stage) {s' : Shared} {stage' : Stage}
    (h : w.shared.lookupStep q stage = some (s', stage')) : Reading st q w.shared stage' := by
  cases stage with
  | start =>
      simp only [Shared.lookupStep] at h
      split at h
      · rename_i empty
        simp only [Option.some.injEq, Prod.mk.injEq] at h
        obtain ⟨-, rfl⟩ := h
        show Answer.found none = .found (q.answer st)
        rw [Query.answer_of_isEmpty st empty]
      · rename_i nonempty
        split at h
        · simp only [Option.some.injEq, Prod.mk.injEq] at h
          obtain ⟨-, rfl⟩ := h
          exact Bool.eq_false_iff.mpr nonempty
        · rename_i c path
          simp only [Option.some.injEq, Prod.mk.injEq] at h
          obtain ⟨-, rfl⟩ := h
          exact ⟨Bool.eq_false_iff.mpr nonempty, hs.readPath c path⟩
  | routed =>
      simp only [Shared.lookupStep, Option.some.injEq, Prod.mk.injEq] at h
      obtain ⟨-, rfl⟩ := h
      exact ⟨r, hs.serial.primary⟩
  | holding c =>
      simp only [Shared.lookupStep, Option.some.injEq, Prod.mk.injEq] at h
      obtain ⟨-, rfl⟩ := h
      show Answer.found _ = .found _
      rw [hs.cells c r.2 q r.1]
  | _ => simp [Shared.lookupStep] at h

/-- Every step that does not stop the process keeps the invariant. -/
theorem step (hc : st.Consistent rs) (hs : Snapshot st queries w) {t : Nat} {w' : World}
    (h : w.step t = some w') (live : w'.shared.aborted = false) : Snapshot st queries w' := by
  have serial := hs.serial.step h live
  obtain ⟨-, th, s', stage', found, stepped, rfl⟩ := World.step_some h
  have lt : t < w.threads.length := (List.getElem?_eq_some_iff.mp found).1
  obtain ⟨task, stage⟩ := th
  have kind := hs.serial.task_of found
  cases t with
  | zero =>
      have compacting := task_zero kind
      subst compacting
      obtain ⟨grew, -⟩ := Shared.compactionStep_keeps_cells stepped
      obtain ⟨cells, path⟩ := hs.compaction_step hc found stepped live
      refine ⟨serial, cells, path, fun i q th query found' => ?_⟩
      rw [List.getElem?_set_ne (Nat.succ_ne_zero i).symm] at found'
      exact (hs.readers i q th query found').mono grew
  | succ j =>
      obtain ⟨q, query, rfl⟩ := task_succ kind
      have same : s' = w.shared := Shared.lookupStep_shared stepped
      subst same
      refine ⟨serial, hs.cells, hs.readPath, fun i q' th query' found' => ?_⟩
      by_cases moved : j = i
      · subst moved
        rw [query, Option.some.injEq] at query'
        subst query'
        rw [List.getElem?_set_self lt, Option.some.injEq] at found'
        subst found'
        exact hs.lookup_step (hs.readers j q _ query found) stepped
      · rw [List.getElem?_set_ne (by omega)] at found'
        exact hs.readers i q' th query' found'

/-- Every run that does not stop the process keeps the invariant. -/
theorem run (hc : st.Consistent rs) {w w' : World} {ts : List Nat} (hs : Snapshot st queries w)
    (ran : w.run ts = some w') (live : w'.shared.aborted = false) : Snapshot st queries w' :=
  World.run_invariant (Snapshot st queries) (fun hs h live => hs.step hc h live) hs ran live

end Snapshot

/-- A compaction started with lookups on any store a session of fewer than `2 ^ 62` calls
reaches, their steps interleaved in any way while writers wait: every lookup that has finished,
unless the process stopped on a failed swap or rebuild, answered as the store did when the
compaction started, whether it read the read path and the primary pointer before, during or
after the compaction, or held its cell throughout; and no cell that exists is written again by
any later steps, so caches a lookup holds never change under it. -/
theorem session_compaction_lookups (config : Config) (cs : List Call) (few : cs.length < 2 ^ 62)
    (queries : List Query) (schedule : List Nat)
    : match session config cs with
      | some st =>
        match (World.start st (.defragment :: queries.map .lookup)).run schedule with
        | some w =>
            (w.shared.aborted = false → ∀ (i : Nat) (q : Query) (th : Thread) (a : Answer),
              queries[i]? = some q → w.threads[i + 1]? = some th → th.stage = .done a →
                a = .found (q.answer st)) ∧
            ∀ (more : List Nat) (w' : World), w.run more = some w' →
              ∀ c < w.shared.cellCount, w'.shared.cells c = w.shared.cells c
        | none => True
      | none => True := by
  cases reached : session config cs with
  | none => trivial
  | some st =>
      obtain ⟨rs, hc, -⟩ := session_consistent few reached
      dsimp only
      cases ran : (World.start st (.defragment :: queries.map .lookup)).run schedule with
      | none => trivial
      | some w =>
          have reads : ∀ task ∈ w.threads.map Thread.task,
              task = .defragment ∨ ∃ q, task = .lookup q := by
            intro task mem
            rw [World.run_tasks ran] at mem
            simp only [World.start, List.map_map, Function.comp_def, List.map_id', List.mem_cons,
              List.mem_map] at mem
            rcases mem with rfl | ⟨q, -, rfl⟩
            · exact .inl rfl
            · exact .inr ⟨q, rfl⟩
          refine ⟨fun live i q th a query found done => ?_, fun more w' ran' c lt =>
            (World.run_keeps_cells reads ran').2 c lt⟩
          have hs := (Snapshot.start st queries).run hc ran live
          have reading := hs.readers i q th query found
          rw [done] at reading
          exact reading

theorem session_compaction_lookups_sample
    : [Call.resolve 0 (some "cpu") none, .resolve 0 none (some ⟨#[1]⟩), .delete 1].length <
        2 ^ 62 ∧
      match session { dataDir := "/srv/ids" }
          [.resolve 0 (some "cpu") none, .resolve 0 none (some ⟨#[1]⟩), .delete 1] with
      | some st =>
        match (World.start st (.defragment :: [Query.name "cpu", .key ⟨#[1]⟩].map .lookup)).run
            [1, 0, 0, 0, 2, 0, 0, 0, 1, 0, 0, 2, 0] with
        | some w =>
            (w.shared.aborted = false → ∀ (i : Nat) (q : Query) (th : Thread) (a : Answer),
              [Query.name "cpu", .key ⟨#[1]⟩][i]? = some q → w.threads[i + 1]? = some th →
                th.stage = .done a → a = .found (q.answer st)) ∧
            ∀ (more : List Nat) (w' : World), w.run more = some w' →
              ∀ c < w.shared.cellCount, w'.shared.cells c = w.shared.cells c
        | none => True
      | none => True :=
  ⟨by decide, session_compaction_lookups _ _ (by decide) _ _⟩

end MetricRegistry.Store
