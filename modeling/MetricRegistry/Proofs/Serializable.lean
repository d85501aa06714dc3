import MetricRegistry.Proofs.Defragment
import MetricRegistry.Proofs.Session
import MetricRegistry.Store.Threads

/-! Threads at work on one store are serializable: whatever the interleaving, the shared memory is
the store the calls that took the lock leave when run alone in that order (`run_serializable`).
Steps are atomic; progress is not stated. -/

namespace MetricRegistry.Store

open Disk Log Table

-----------------------------------------------------------------------------------------
-- What the stages of a compaction leave alone
-----------------------------------------------------------------------------------------

namespace IndexedLog

variable {s s' : IndexedLog}

/-- Replaying a record changes only the caches. -/
theorem replayRecord_frame {summary result : ReplaySummary} {i : Nat} {bytes : ByteArray}
    (h : replayRecord summary (i, bytes) s = .ok result s')
    : s'.disk = s.disk ∧ s'.log = s.log := by
  unfold replayRecord at h
  cases dead : Record.isTombstoned bytes with
  | true =>
      simp only [dead, if_true, pure, EStateM.pure, EStateM.Result.ok.injEq] at h
      obtain ⟨-, rfl⟩ := h
      exact ⟨rfl, rfl⟩
  | false =>
      simp only [dead, Bool.false_eq_true, if_false] at h
      cases decoded : Record.decode bytes with
      | error e =>
          simp only [decoded, pure, EStateM.pure, EStateM.Result.ok.injEq] at h
          obtain ⟨-, rfl⟩ := h
          exact ⟨rfl, rfl⟩
      | ok record =>
          simp only [decoded] at h
          obtain ⟨_, s1, located, rest⟩ := ok_of_bind h
          obtain ⟨_, s2, keyed, done⟩ := ok_of_bind rest
          simp only [pure, EStateM.pure, EStateM.Result.ok.injEq] at done
          obtain ⟨-, rfl⟩ := done
          obtain ⟨_, -, rfl⟩ := putLocation_ok located
          obtain ⟨_, _, -, -, rfl⟩ := indexKeys_ok keyed
          exact ⟨rfl, rfl⟩

/-- Replaying any records changes only the caches. -/
theorem foldlM_replayRecord_frame : ∀ (entries : List (Nat × ByteArray))
    {summary result : ReplaySummary} {s t : IndexedLog},
    entries.foldlM replayRecord summary s = .ok result t → t.disk = s.disk ∧ t.log = s.log := by
  intro entries
  induction entries with
  | nil =>
      intro summary result s t h
      simp only [List.foldlM_nil, pure, EStateM.pure, EStateM.Result.ok.injEq] at h
      obtain ⟨-, rfl⟩ := h
      exact ⟨rfl, rfl⟩
  | cons entry rest ih =>
      intro summary result s t h
      simp only [List.foldlM_cons] at h
      obtain ⟨summary1, s1, replayed, h⟩ := ok_of_bind h
      obtain ⟨disk1, log1⟩ := replayRecord_frame replayed
      obtain ⟨diskT, logT⟩ := ih h
      exact ⟨diskT.trans disk1, logT.trans log1⟩

/-- Replaying the log changes only the caches. -/
theorem replay_frame {result : ReplaySummary} (h : replay s = .ok result s')
    : s'.disk = s.disk ∧ s'.log = s.log := by
  simp only [replay, bind, EStateM.bind, get, getThe, MonadStateOf.get, EStateM.get] at h
  exact foldlM_replayRecord_frame _ h

end IndexedLog


variable {st st' : Store}

/-- A rebuild that succeeds changes only the caches. -/
theorem rebuild_frame {u : Unit} (h : rebuild st = .ok u st')
    : st'.disk = st.disk ∧ st'.log = st.log ∧ st'.config = st.config ∧
        st'.inserts = st.inserts := by
  obtain ⟨_, _, t, -, replayed, rfl⟩ := rebuild_replayed h
  obtain ⟨disk, log⟩ := IndexedLog.replay_frame replayed
  exact ⟨disk, log, rfl, rfl⟩

/-- An operation on the log alone that succeeds leaves the caches, configuration and count. -/
theorem withLog_frame {α : Type} {m : LogM α} {a : α}
    (h : withIndexed (IndexedLog.withLog m) st = .ok a st')
    : st'.caches = st.caches ∧ st'.config = st.config ∧ st'.inserts = st.inserts := by
  simp only [withIndexed, IndexedLog.withLog] at h
  cases ran : m ⟨st.indexed.disk, st.indexed.log⟩ with
  | ok b t =>
      simp only [ran, EStateM.Result.ok.injEq] at h
      obtain ⟨-, rfl⟩ := h
      exact ⟨rfl, rfl, rfl⟩
  | error e t => simp [ran] at h

/-- Changing the file system leaves the caches, configuration and count. -/
theorem onDisk_frame (s : Store) (f : Disk → Disk)
    : (s.onDisk f).caches = s.caches ∧ (s.onDisk f).config = s.config ∧
      (s.onDisk f).inserts = s.inserts := ⟨rfl, rfl, rfl⟩

/-- A swap that succeeds leaves the caches, configuration and count. -/
theorem swap_frame {temp : IdentityLog} {dir : String} {u : Unit}
    (h : swap temp dir st = .ok u st')
    : st'.caches = st.caches ∧ st'.config = st.config ∧ st'.inserts = st.inserts := by
  unfold swap at h
  obtain ⟨_, st1, recreated, rest⟩ := ok_of_bind h
  obtain ⟨_, st2, copied, done⟩ := ok_of_bind rest
  simp only [modify, modifyGet, MonadStateOf.modifyGet, EStateM.modifyGet,
    EStateM.Result.ok.injEq] at done
  obtain ⟨-, rfl⟩ := done
  obtain ⟨caches1, config1, inserts1⟩ := withLog_frame recreated
  obtain ⟨caches2, config2, inserts2⟩ := withLog_frame copied
  -- stated by name: unifying through the closure would unfold the removal of the copy
  obtain ⟨caches3, config3, inserts3⟩ := onDisk_frame st2 (discardTemp temp dir)
  exact ⟨caches3.trans (caches2.trans caches1), config3.trans (config2.trans config1),
    inserts3.trans (inserts2.trans inserts1)⟩

/-- A compaction whose copy of the live records fails removes the compaction directory and
fails, with the log and caches as they were. -/
theorem defragment_abandoned {e : StoreError} {d : Disk}
    (failed : rewriteLive st.log (join st.log.dir compactDir) st.disk = .error e d)
    : Store.defragment st =
        .error e (st.onDisk fun _ => abandon (join st.log.dir compactDir) d) := by
  simp only [Store.defragment, bind, EStateM.bind, getThe, MonadStateOf.get, EStateM.get,
    failed, set, EStateM.set, throw, throwThe, MonadExceptOf.throw, EStateM.throw]

/-- The store with its insert count set to `n`. -/
def recount (st : Store) (n : Nat) : Store := { st with inserts := n }

@[simp] theorem recount_log (st : Store) (n : Nat) : (st.recount n).log = st.log := rfl

/-- An operation on the log and caches neither reads nor changes the count. -/
theorem withIndexed_recount {α : Type} (m : IndexedM α) (n : Nat)
    : withIndexed m (st.recount n) = match withIndexed m st with
      | .ok a st' => .ok a (st'.recount n)
      | .error e st' => .error e (st'.recount n) := by
  have same : (st.recount n).indexed = st.indexed := rfl
  simp only [withIndexed, same]
  cases m st.indexed <;> rfl

/-- A swap does not read the count. -/
theorem swap_recount {temp : IdentityLog} {dir : String} {u : Unit} (n : Nat)
    (h : swap temp dir st = .ok u st') : swap temp dir (st.recount n) = .ok u (st'.recount n) := by
  simp only [swap, bind, EStateM.bind] at h ⊢
  rw [withIndexed_recount]
  split at h
  · rename_i st1 recreated
    rw [recreated]
    dsimp only
    rw [withIndexed_recount]
    split at h
    · rename_i st2 copied
      rw [copied]
      simp only [modify, modifyGet, MonadStateOf.modifyGet, EStateM.modifyGet,
        EStateM.Result.ok.injEq] at h ⊢
      obtain ⟨-, rfl⟩ := h
      exact ⟨trivial, rfl⟩
    · cases h
  · cases h

/-- A rebuild does not read the count. -/
theorem rebuild_recount {u : Unit} (n : Nat) (h : rebuild st = .ok u st')
    : rebuild (st.recount n) = .ok u (st'.recount n) := by
  obtain ⟨caches, result, t, made, replayed, rfl⟩ := rebuild_replayed h
  have made' : (st.recount n).caches.fresh = .ok caches := made
  have replayed' : IndexedLog.replay { (st.recount n).indexed with caches } = .ok result t :=
    replayed
  simp only [rebuild, bind, EStateM.bind, getThe, MonadStateOf.get, EStateM.get, made',
    Log.liftExcept, pure, EStateM.pure, replayed']
  rfl


-----------------------------------------------------------------------------------------
-- The shared memory
-----------------------------------------------------------------------------------------

/-- The records a thread at this stage has appended and not yet counted. -/
def Stage.pending : Stage → Nat
  | .releasing _ n | .counting n _ => n
  | _ => 0

namespace Shared

variable {s : Shared} {c : Nat} {st : Store}

/-- The store a cell presents, field by field. -/
theorem view_eq : s.view c = st ↔ s.config = st.config ∧ s.disk = st.disk ∧
    s.log.value = st.log ∧ s.cells c = st.caches ∧ s.inserts = st.inserts := by
  obtain ⟨config, ⟨disk, log, caches⟩, inserts⟩ := st
  simp only [view, Store.disk, Store.log, Store.caches, Store.mk.injEq, IndexedLog.mk.injEq,
    and_assoc]

@[simp] theorem view_load (s : Shared) (p : Nat) (st : Store) : (s.load p st).view p = st :=
  view_eq.mpr ⟨rfl, rfl, rfl, by simp [load], rfl⟩

@[simp] theorem view_release (s : Shared) (c : Nat) : s.release.view c = s.view c := rfl

/-- The memory with its insert count set to `n`. -/
def recount (s : Shared) (n : Nat) : Shared := { s with inserts := n }

@[simp] theorem view_recount (s : Shared) (c n : Nat) : (s.recount n).view c = (s.view c).recount n :=
  rfl

@[simp] theorem recount_recount (s : Shared) (m n : Nat) : (s.recount m).recount n = s.recount n :=
  rfl

/-- A new cell leaves the others as they were. -/
theorem view_allocate_of_ne (s : Shared) (x : CacheSet) (h : c ≠ s.cellCount)
    : (s.allocate x).view c = s.view c := by
  simp [view, allocate, h]

/-- Taking the lock needs it free, and records the taker as the holder and last in the order. -/
theorem acquire_eq_some {t : Nat} {s' : Shared} (h : s.acquire t = some s')
    : s.log.locked = false ∧
        s' = { s with log := { s.log with locked := true }, holder := some t,
                      order := s.order ++ [t] } := by
  unfold acquire Sync.SpinLock.tryAcquire at h
  cases locked : s.log.locked with
  | true => simp [locked] at h
  | false =>
      simp only [locked, Bool.false_eq_true, if_false, Option.map_some, Option.some.injEq] at h
      exact ⟨rfl, h.symm⟩

/-- A lookup only reads the memory. -/
theorem lookupStep_shared {q : Query} {stage stage' : Stage} {s' : Shared}
    (h : s.lookupStep q stage = some (s', stage')) : s' = s := by
  cases stage <;> simp only [lookupStep, reduceCtorEq] at h
  case start =>
    split at h
    · cases h; rfl
    · split at h <;> (cases h; rfl)
  all_goals cases h; rfl

/-- A lookup has nothing to count. -/
theorem lookupStep_pending {q : Query} {stage stage' : Stage} {s' : Shared}
    (h : s.lookupStep q stage = some (s', stage')) : stage.pending = 0 ∧ stage'.pending = 0 := by
  cases stage <;> simp only [lookupStep, reduceCtorEq] at h
  case start =>
    split at h
    · cases h; exact ⟨rfl, rfl⟩
    · split at h <;> (cases h; exact ⟨rfl, rfl⟩)
  all_goals cases h; exact ⟨rfl, rfl⟩

/-- A thread that let go of the lock has its answer. -/
theorem answer?_releaseStep (s : Shared) (a : Answer) (k : Nat) (th : Thread)
    : ({ th with stage := (s.releaseStep a k).2 } : Thread).answer? = some a := by
  unfold releaseStep
  by_cases none : k = 0 <;> simp [Thread.answer?, none]

/-- Letting go of the lock keeps the records still to count. -/
@[simp] theorem pending_releaseStep (s : Shared) (a : Answer) (k : Nat)
    : (s.releaseStep a k).2.pending = k := by
  unfold releaseStep
  split
  · rename_i none
    exact none.symm
  · rfl

end Shared

-----------------------------------------------------------------------------------------
-- Serial runs
-----------------------------------------------------------------------------------------

namespace Task

/-- Whether the task runs under the log lock: every task but a lookup. -/
def locks : Task → Bool
  | .lookup _ => false
  | _ => true

/-- A writer's task counts only after the lock: its part under the lock keeps the count and does
not read it, and the task run alone is that part followed by the count. -/
structure CountsAfter (task : Task) : Prop where
  keeps : ∀ st, (task.underLock st).2.1.inserts = st.inserts
  perform : ∀ st n, task.perform (st.recount n) =
    ((task.underLock st).1, (task.underLock st).2.1.recount (n + (task.underLock st).2.2))

theorem countsAfter_resolve (now : Int64) (name : Option String) (key : Option ByteArray)
    : (Task.resolve now name key).CountsAfter := by
  refine ⟨fun st => ?_, fun st n => ?_⟩
  · simp only [underLock, Store.withIndexed]
    cases IndexedLog.resolve now name key st.indexed <;> rfl
  · simp only [perform, underLock, Store.resolve, bind, EStateM.bind, Store.withIndexed_recount]
    cases Store.withIndexed (IndexedLog.resolve now name key) st with
    | ok r st' =>
        cases appended : r.appended <;>
          simp [appended, modify, modifyGet, MonadStateOf.modifyGet, EStateM.modifyGet,
            EStateM.bind, pure, EStateM.pure, Store.recount]
    | error e st' => simp [Store.recount]

theorem countsAfter_delete (g : Int64) : (Task.delete g).CountsAfter := by
  refine ⟨fun st => ?_, fun st n => ?_⟩
  · simp only [underLock, perform, Store.delete, Store.withIndexed]
    cases IndexedLog.delete g st.indexed <;> rfl
  · simp only [perform, underLock, Store.delete, Store.withIndexed_recount]
    cases Store.withIndexed (IndexedLog.delete g) st <;> rfl

end Task

/-- The tasks of the threads `ts`, in order. -/
def tasksOf (tasks : List Task) (ts : List Nat) : List Task := ts.filterMap (tasks[·]?)

theorem tasksOf_append_singleton {tasks : List Task} {ts : List Nat} {t : Nat} {task : Task}
    (h : tasks[t]? = some task) : tasksOf tasks (ts ++ [t]) = tasksOf tasks ts ++ [task] := by
  simp [tasksOf, List.filterMap_append, h]


/-- A serial run one task longer is the shorter run followed by that task. -/
theorem serial_append_singleton (st : Store) (tasks : List Task) (task : Task)
    : st.serial (tasks ++ [task]) =
        ((st.serial tasks).1 ++ [(task.perform (st.serial tasks).2).1],
          (task.perform (st.serial tasks).2).2) := by
  simp [Store.serial, List.foldl_append]


namespace Thread

theorem answer?_eq_some {th : Thread} {a : Answer}
    : th.answer? = some a ↔ th.stage = .done a ∨ ∃ k, th.stage = .counting k a := by
  unfold answer?
  split <;> simp_all

end Thread

namespace World

variable {w : World} {t : Nat} {th : Thread}

/-- What the threads `ts` answered, in order; none for a thread whose call has not run. -/
def answers (w : World) (ts : List Nat) : List (Option Answer) :=
  ts.map fun t => (w.threads[t]?).bind Thread.answer?

/-- A thread among those that all answered has its answer. -/
theorem answered_of_answers {ts : List Nat} {xs : List Answer} (h : w.answers ts = xs.map some)
    (mem : t ∈ ts) (found : w.threads[t]? = some th) : ∃ a, th.answer? = some a := by
  have listed : (w.threads[t]?).bind Thread.answer? ∈ xs.map some := by
    rw [← h]
    exact List.mem_map_of_mem mem
  obtain ⟨a, -, some_a⟩ := List.mem_map.mp listed
  rw [found, Option.bind_some] at some_a
  exact ⟨a, some_a.symm⟩

/-- What the other threads answered does not change when one thread moves. -/
theorem answers_set {ts : List Nat} (out : t ∉ ts) (s : Shared) (x : Thread)
    : World.answers ⟨s, w.threads.set t x⟩ ts = w.answers ts := by
  unfold answers
  refine List.map_congr_left fun u mem => ?_
  have ne : t ≠ u := fun same => out (same ▸ mem)
  simp only [List.getElem?_set_ne ne]

/-- What the threads answered does not change when one moves and keeps its answer. -/
theorem answers_set_same {ts : List Nat} (found : w.threads[t]? = some th) {x : Thread}
    (same : x.answer? = th.answer?) (s : Shared)
    : World.answers ⟨s, w.threads.set t x⟩ ts = w.answers ts := by
  unfold answers
  refine List.map_congr_left fun u _ => ?_
  by_cases moved : t = u
  · subst moved
    rw [List.getElem?_set_self (List.getElem?_eq_some_iff.mp found).1, found]
    exact same
  · simp only [List.getElem?_set_ne moved]

/-- The records the threads have appended and not yet counted. -/
def pending (w : World) : Nat := (w.threads.map fun th => th.stage.pending).sum

/-- The memory once every thread has counted the records it appended. -/
def settled (w : World) : Shared := w.shared.recount (w.shared.inserts + w.pending)

/-- Moving one thread changes the records still to count by its own. -/
theorem pending_set (found : w.threads[t]? = some th) (s : Shared) (stage : Stage)
    : World.pending ⟨s, w.threads.set t { th with stage }⟩ + th.stage.pending =
        w.pending + stage.pending := by
  obtain ⟨lt, get⟩ := List.getElem?_eq_some_iff.mp found
  have lt' : t < (w.threads.map fun th => th.stage.pending).length := by simpa using lt
  have whole : (w.threads.map fun th => th.stage.pending).sum =
      ((w.threads.map fun th => th.stage.pending).take t).sum + th.stage.pending +
        ((w.threads.map fun th => th.stage.pending).drop (t + 1)).sum := by
    rw [← List.sum_take_add_sum_drop _ (t + 1), List.sum_take_succ _ _ lt']
    simp [get]
  unfold pending
  rw [List.map_set, List.sum_set, if_pos lt', whole]
  simp only
  omega

/-- A move that keeps the thread's records to count leaves them all as they were. -/
theorem settled_set (found : w.threads[t]? = some th) (s : Shared) (stage : Stage)
    (same : stage.pending = th.stage.pending)
    : World.settled ⟨s, w.threads.set t { th with stage }⟩ = s.recount (s.inserts + w.pending) := by
  have moved := pending_set found s stage
  unfold settled
  congr 2
  show World.pending _ = _
  omega

theorem pending_start (st : Store) (tasks : List Task) : (World.start st tasks).pending = 0 := by
  simp [pending, World.start, Stage.pending, Function.comp_def]

/-- A step of thread `t`: the process has not stopped, the thread is there, and the step moves
it alone, to the memory and stage its step function gives. -/
theorem step_some {w' : World} (h : w.step t = some w')
    : w.shared.aborted = false ∧ ∃ th s stage, w.threads[t]? = some th ∧
        w.shared.threadStep t th = some (s, stage) ∧
        w' = ⟨s, w.threads.set t { th with stage }⟩ := by
  unfold step at h
  split at h
  · cases h
  · rename_i live
    cases found : w.threads[t]? with
    | none => simp [found] at h
    | some th =>
        simp only [found, Option.bind_some] at h
        cases stepped : w.shared.threadStep t th with
        | none => simp [stepped] at h
        | some r =>
            obtain ⟨s, stage⟩ := r
            simp only [stepped, Option.map_some, Option.some.injEq] at h
            exact ⟨by simpa using live, th, s, stage, rfl, stepped, h.symm⟩

/-- Moving a thread to another stage keeps every thread's task. -/
theorem tasks_set (found : w.threads[t]? = some th) (stage : Stage)
    : (w.threads.set t { th with stage }).map Thread.task = w.threads.map Thread.task := by
  apply List.ext_getElem?
  intro u
  by_cases same : t = u
  · subst same
    obtain ⟨lt, get⟩ := List.getElem?_eq_some_iff.mp found
    simp [lt, get]
  · simp [List.getElem?_set_ne same]

/-- A step keeps every thread's task. -/
theorem tasks_step {w' : World} (h : w.step t = some w')
    : w'.threads.map Thread.task = w.threads.map Thread.task := by
  obtain ⟨-, th, s, stage, found, -, rfl⟩ := step_some h
  exact tasks_set found stage

/-- A stopped process takes no more steps. -/
theorem run_aborted {w' : World} (h : w.shared.aborted = true)
    : ∀ {ts : List Nat}, w.run ts = some w' → w' = w
  | [], ran => by simp only [World.run, Option.some.injEq] at ran; exact ran.symm
  | t :: ts, ran => by simp [World.run, World.step, h] at ran

/-- What every step keeps, unless it stops the process, every run keeps. -/
theorem run_invariant (Inv : World → Prop)
    (step : ∀ {w w' : World} {t : Nat}, Inv w → w.step t = some w' →
      w'.shared.aborted = false → Inv w')
    : ∀ {w : World} {ts : List Nat} {w' : World}, Inv w → w.run ts = some w' →
        w'.shared.aborted = false → Inv w'
  | w, [], w', hw, ran, _ => by
      simp only [run, Option.some.injEq] at ran
      exact ran ▸ hw
  | w, t :: ts, w', hw, ran, live => by
      simp only [run] at ran
      cases stepped : w.step t with
      | none => simp [stepped] at ran
      | some w1 =>
          simp only [stepped, Option.bind_some] at ran
          cases stopped : w1.shared.aborted with
          | true =>
              rw [run_aborted stopped ran, stopped] at live
              cases live
          | false => exact run_invariant Inv step (step hw stepped stopped) ran live

end World

-----------------------------------------------------------------------------------------
-- How far the holder of the lock has got
-----------------------------------------------------------------------------------------

/-- A compaction run alone answers with its report or its error. -/
theorem Task.perform_defragment_ok {st st' : Store} {r : Report}
    (h : Store.defragment st = .ok r st')
    : Task.defragment.perform st = (.compacted (.ok r), st') := by
  unfold Task.perform
  simp only [h]

theorem Task.perform_defragment_error {st st' : Store} {e : StoreError}
    (h : Store.defragment st = .error e st')
    : Task.defragment.perform st = (.compacted (.error e), st') := by
  unfold Task.perform
  simp only [h]

/-- How far a writer holding the log lock has got with `task`, begun on the store `st0`: the
memory presents `st0` from the primary cell until the writer runs its operation there, and then
the store that the operation, run alone on `st0`, leaves, with its answer. -/
def WriterProgress (st0 : Store) (s : Shared) (task : Task) : Stage → Prop
  | .locked => s.view s.primary = st0
  | .holding p => p = s.primary ∧ s.view p = st0
  | .releasing a _ => task.perform st0 = (a, s.view s.primary)
  | _ => False

/-- How far a compaction holding the log lock has got, begun on the store `st0`: each stage
holds the part of `Store.defragment st0` done so far, and the primary pointer names the pinned
cell until the rebuilt cell replaces it. -/
def CompactionProgress (st0 : Store) (s : Shared) : Stage → Prop
  | .locked => s.view s.primary = st0
  | .pinned before old => old = s.primary ∧ before = st0.log ∧ s.view old = st0
  | .snapshotted before old shadow =>
    old = s.primary ∧ before = st0.log ∧ s.view old = st0 ∧ shadow < s.cellCount
  | .redirected before old => old = s.primary ∧ before = st0.log ∧ s.view old = st0
  | .rewritten before old temp =>
    old = s.primary ∧ before = st0.log ∧ ∃ d,
      rewriteLive st0.log (join st0.log.dir compactDir) st0.disk = .ok temp d ∧
      s.view old = st0.onDisk fun _ => d
  | .swapped before old =>
    old = s.primary ∧ before = st0.log ∧
      Store.defragment st0 = match Store.rebuild (s.view old) with
        | .ok () st' =>
          .ok { recordsBefore := st0.log.size, recordsAfter := st'.log.size,
                bytesBefore := st0.log.dataLen, bytesAfter := st'.log.dataLen } st'
        | .error e st' => .error (e.abortIn .reloading) st'
  | .rebuilt before fresh =>
    before = st0.log ∧ fresh < s.cellCount ∧
      Store.defragment st0 =
        .ok { recordsBefore := before.size, recordsAfter := s.log.value.size,
              bytesBefore := before.dataLen, bytesAfter := s.log.value.dataLen } (s.view fresh)
  | .replaced report => Store.defragment st0 = .ok report (s.view s.primary)
  | .releasing a _ => Task.defragment.perform st0 = (a, s.view s.primary)
  | _ => False

/-- How far the thread holding the log lock has got with its task, begun on `st0`. -/
def Progress (st0 : Store) (s : Shared) (th : Thread) : Prop :=
  match th.task with
  | .lookup _ => False
  | .defragment => CompactionProgress st0 s th.stage
  | task => WriterProgress st0 s task th.stage

/-- A step of the lock's holder that keeps the lock: the holder, the order, the flag and the
count stay, and the primary pointer still names a cell. -/
structure Shared.Keeps (s s' : Shared) : Prop where
  holder : s'.holder = s.holder
  order : s'.order = s.order
  locked : s'.log.locked = s.log.locked
  primary : s.primary < s.cellCount → s'.primary < s'.cellCount
  inserts : s'.inserts = s.inserts

variable {st0 : Store} {s s' : Shared} {t n : Nat} {stage stage' : Stage}

/-- A writer's step either lets go of the lock once it has answered, or keeps the lock and gets
one stage further, with nothing yet to count before it answers. The progress is read in the
memory with the settled count `n`. -/
theorem WriterProgress.step {task : Task} (counts : task.CountsAfter)
    (p : WriterProgress st0 (s.recount n) task stage)
    (h : s.writerStep t task stage = some (s', stage'))
    : (∃ a k, stage = .releasing a k ∧ (s', stage') = s.releaseStep a k) ∨
      (stage.pending = 0 ∧ s.Keeps s' ∧
        WriterProgress st0 (s'.recount (n + stage'.pending)) task stage') := by
  cases stage with
  | locked =>
      simp only [Shared.writerStep, Option.some.injEq, Prod.mk.injEq] at h
      obtain ⟨rfl, rfl⟩ := h
      exact .inr ⟨rfl, ⟨rfl, rfl, rfl, id, rfl⟩, rfl, p⟩
  | holding c =>
      -- the writer runs its operation on the cell it read, which is still the primary one, and
      -- counts what it appended only later
      obtain ⟨primary, rfl⟩ := p
      have primary' : c = s.primary := primary
      subst primary'
      simp only [Shared.writerStep, Option.some.injEq, Prod.mk.injEq] at h
      obtain ⟨rfl, rfl⟩ := h
      refine .inr ⟨rfl, ⟨rfl, rfl, rfl, id, counts.keeps _⟩, ?_⟩
      show task.perform ((s.recount n).view s.primary) =
        (_, ((s.load s.primary _).recount (n + _)).view s.primary)
      rw [Shared.view_recount, Shared.view_recount, Shared.view_load, counts.perform]
      rfl
  | releasing a k =>
      simp only [Shared.writerStep, Option.some.injEq] at h
      exact .inl ⟨a, k, rfl, h.symm⟩
  | _ => exact p.elim

/-- A compaction's step either lets go of the lock once it has answered, or keeps the lock and
gets one stage further, unless it stopped the process; a compaction counts nothing. The progress is
read in the memory with the settled count `n`, which no stage reads. -/
theorem CompactionProgress.step (p : CompactionProgress st0 (s.recount n) stage)
    (h : s.compactionStep t stage = some (s', stage')) (live : s'.aborted = false)
    (bound : s.primary < s.cellCount)
    : (∃ a k, stage = .releasing a k ∧ (s', stage') = s.releaseStep a k) ∨
      (stage.pending = 0 ∧ stage'.pending = 0 ∧ s.Keeps s' ∧
        CompactionProgress st0 (s'.recount n) stage') := by
  -- the step's equations, one per stage, are costly to build; the unfolded match reduces at once
  unfold Shared.compactionStep at h
  cases stage with
  | locked =>
      simp only [Option.some.injEq, Prod.mk.injEq] at h
      obtain ⟨rfl, rfl⟩ := h
      exact .inr ⟨rfl, rfl, ⟨rfl, rfl, rfl, id, rfl⟩, rfl, (Shared.view_eq.mp p).2.2.1, p⟩
  | pinned before old =>
      obtain ⟨primary, rfl, view⟩ := p
      simp only [Option.some.injEq, Prod.mk.injEq] at h
      obtain ⟨rfl, rfl⟩ := h
      refine .inr ⟨rfl, rfl, ⟨rfl, rfl, rfl, Nat.lt_succ_of_lt, rfl⟩, primary, rfl, ?_,
        Nat.lt_succ_self _⟩
      have below : old ≠ s.cellCount := primary ▸ Nat.ne_of_lt bound
      rw [Shared.view_recount, Shared.view_allocate_of_ne s _ below, ← Shared.view_recount]
      exact view
  | snapshotted before old shadow =>
      obtain ⟨primary, rfl, view, -⟩ := p
      simp only [Option.some.injEq, Prod.mk.injEq] at h
      obtain ⟨rfl, rfl⟩ := h
      exact .inr ⟨rfl, rfl, ⟨rfl, rfl, rfl, id, rfl⟩, primary, rfl, view⟩
  | redirected before old =>
      obtain ⟨primary, rfl, view⟩ := p
      subst primary
      obtain ⟨config, disk, log, caches, inserts⟩ := Shared.view_eq.mp view
      have disk' : s.disk = st0.disk := disk
      rw [disk'] at h
      cases rewritten : rewriteLive st0.log (join st0.log.dir compactDir) st0.disk with
      | error e d =>
          simp only [rewritten, Option.some.injEq, Prod.mk.injEq] at h
          obtain ⟨rfl, rfl⟩ := h
          refine .inr ⟨rfl, rfl, ⟨rfl, rfl, rfl, id, rfl⟩, ?_⟩
          show Task.defragment.perform st0 = (_, Shared.view _ _)
          rw [Task.perform_defragment_error (Store.defragment_abandoned rewritten)]
          -- the file system the failed copy leaves is named, so that it is never computed
          generalize Store.abandon (join st0.log.dir compactDir) d = d'
          exact Prod.ext rfl (Eq.symm (Shared.view_eq.mpr ⟨config, rfl, log, caches, inserts⟩))
      | ok temp d =>
          simp only [rewritten, Option.some.injEq, Prod.mk.injEq] at h
          obtain ⟨rfl, rfl⟩ := h
          have after : (({ s with disk := d } : Shared).recount n).view s.primary =
              st0.onDisk fun _ => d :=
            Shared.view_eq.mpr ⟨config, rfl, log, caches, inserts⟩
          exact .inr ⟨rfl, rfl, ⟨rfl, rfl, rfl, id, rfl⟩, rfl, rfl, d, rewritten, after⟩
  | rewritten before old temp =>
      obtain ⟨primary, rfl, d, rewritten, view⟩ := p
      cases swapped : Store.swap temp (join st0.log.dir compactDir) (s.view old) with
      | error e st' =>
          simp only [swapped, Option.some.injEq, Prod.mk.injEq] at h
          obtain ⟨rfl, rfl⟩ := h
          cases live
      | ok u st' =>
          simp only [swapped, Option.some.injEq, Prod.mk.injEq] at h
          obtain ⟨rfl, rfl⟩ := h
          refine .inr ⟨rfl, rfl, ⟨rfl, rfl, rfl, id, rfl⟩, primary, rfl, ?_⟩
          obtain ⟨caches, config, -⟩ := Store.swap_frame swapped
          have settled := Store.swap_recount n swapped
          rw [← Shared.view_recount, view] at settled
          have after : (({ s with disk := st'.disk, log := s.log.set st'.log } : Shared).recount
              n).view old = st'.recount n :=
            Shared.view_eq.mpr ⟨config.symm, rfl, rfl, caches.symm, rfl⟩
          rw [after]
          exact Store.defragment_swapped rewritten settled
  | swapped before old =>
      obtain ⟨primary, rfl, finish⟩ := p
      cases rebuilt : Store.rebuild (s.view old) with
      | error e st' =>
          simp only [rebuilt, Option.some.injEq, Prod.mk.injEq] at h
          obtain ⟨rfl, rfl⟩ := h
          cases live
      | ok u st' =>
          simp only [rebuilt, Option.some.injEq, Prod.mk.injEq] at h
          obtain ⟨rfl, rfl⟩ := h
          refine .inr ⟨rfl, rfl, ⟨rfl, rfl, rfl, Nat.lt_succ_of_lt, rfl⟩, rfl,
            Nat.lt_succ_self _, ?_⟩
          obtain ⟨disk, log, config, -⟩ := Store.rebuild_frame rebuilt
          have settled := Store.rebuild_recount n rebuilt
          rw [← Shared.view_recount] at settled
          have after : ((s.allocate st'.caches).recount n).view s.cellCount = st'.recount n := by
            refine Shared.view_eq.mpr ⟨config.symm, disk.symm, log.symm, ?_, rfl⟩
            show (s.allocate st'.caches).cells s.cellCount = st'.caches
            simp [Shared.allocate]
          cases u
          rw [finish, settled, after]
          simp only [Store.recount_log, log]
          rfl
  | rebuilt before fresh =>
      obtain ⟨rfl, lt, done⟩ := p
      simp only [Option.some.injEq, Prod.mk.injEq] at h
      obtain ⟨rfl, rfl⟩ := h
      exact .inr ⟨rfl, rfl, ⟨rfl, rfl, rfl, fun _ => lt, rfl⟩, done⟩
  | replaced report =>
      simp only [Option.some.injEq, Prod.mk.injEq] at h
      obtain ⟨rfl, rfl⟩ := h
      exact .inr ⟨rfl, rfl, ⟨rfl, rfl, rfl, id, rfl⟩, Task.perform_defragment_ok p⟩
  | releasing a k =>
      simp only [Option.some.injEq] at h
      exact .inl ⟨a, k, rfl, h.symm⟩
  | _ => exact p.elim

namespace Progress

variable {th : Thread}

/-- The holder's step either lets go of the lock once the task has answered, or keeps the lock
and gets the task one stage further, unless it stopped the process. -/
theorem step (p : Progress st0 (s.recount n) th) (h : s.threadStep t th = some (s', stage'))
    (live : s'.aborted = false) (bound : s.primary < s.cellCount)
    : (∃ a k, th.stage = .releasing a k ∧ (s', stage') = s.releaseStep a k) ∨
      (th.stage.pending = 0 ∧ s.Keeps s' ∧
        Progress st0 (s'.recount (n + stage'.pending)) { th with stage := stage' }) := by
  obtain ⟨task, stage⟩ := th
  cases task with
  | lookup q => exact p.elim
  | defragment =>
      rcases CompactionProgress.step p h live bound with released | ⟨idle, idle', keeps, next⟩
      · exact .inl released
      · refine .inr ⟨idle, keeps, ?_⟩
        rw [idle', Nat.add_zero]
        exact next
  | resolve now name key => exact WriterProgress.step (Task.countsAfter_resolve now name key) p h
  | delete g => exact WriterProgress.step (Task.countsAfter_delete g) p h

/-- A writer or a compaction that has just taken the lock has done nothing yet. -/
theorem locked {task : Task} (locks : task.locks = true) (view : s.view s.primary = st0)
    : Progress st0 s { task, stage := .locked } := by
  cases task with
  | lookup q => cases locks
  | defragment => exact view
  | resolve now name key => exact view
  | delete g => exact view

/-- A task that has answered has done all its own operation does, run alone. -/
theorem releasing {a : Answer} {k : Nat} (p : Progress st0 s th)
    (releasing : th.stage = .releasing a k) : th.task.perform st0 = (a, s.view s.primary) := by
  obtain ⟨task, stage⟩ := th
  simp only at releasing
  subst releasing
  cases task with
  | lookup q => exact p.elim
  | defragment => exact p
  | resolve now name key => exact p
  | delete g => exact p

/-- No thread counts its records while it holds the lock. -/
theorem not_counting {k : Nat} {a : Answer} (p : Progress st0 s th) : th.stage ≠ .counting k a := by
  obtain ⟨task, stage⟩ := th
  rintro rfl
  cases task <;> exact p.elim

end Progress

/-- A writer or a compaction that has not started tries to take the lock. -/
theorem Shared.threadStep_start {th : Thread} (locks : th.task.locks = true)
    (start : th.stage = .start) : s.threadStep t th = (s.acquire t).map (·, .locked) := by
  obtain ⟨task, stage⟩ := th
  simp only at start
  subst start
  cases task with
  | lookup q => cases locks
  | _ => rfl

/-- A thread counting its records takes no lock and changes only the count. -/
theorem Shared.threadStep_counting {k : Nat} {a : Answer} {th : Thread}
    (counting : th.stage = .counting k a) (h : s.threadStep t th = some (s', stage'))
    : th.task.locks = true ∧ s' = s.recount (s.inserts + k) ∧ stage' = .done a := by
  obtain ⟨task, stage⟩ := th
  simp only at counting
  subst counting
  cases task with
  | lookup q => cases h
  | defragment => cases h
  | resolve now name key =>
      simp only [Shared.threadStep, Shared.writerStep, Option.some.injEq, Prod.mk.injEq] at h
      exact ⟨rfl, h.1.symm, h.2.symm⟩
  | delete g =>
      simp only [Shared.threadStep, Shared.writerStep, Option.some.injEq, Prod.mk.injEq] at h
      exact ⟨rfl, h.1.symm, h.2.symm⟩

/-- A thread that has finished takes no step. -/
theorem Shared.threadStep_done {th : Thread} {a : Answer} (done : th.stage = .done a)
    : s.threadStep t th = none := by
  obtain ⟨task, stage⟩ := th
  subst done
  cases task <;> rfl

-----------------------------------------------------------------------------------------
-- The invariant
-----------------------------------------------------------------------------------------

/-- The order in which threads started on `st` with `tasks` took the log lock, against the serial
run of their tasks in that order, read in the memory with every appended record counted. With no
holder, the threads that took the lock answered as the serial run does, and the memory presents
the store it leaves; with a holder, the threads before it did so, and the holder has got as far
with its task, begun on the store they leave, as `Progress` says. -/
def Ordered (st : Store) (tasks : List Task) (w : World) : Prop :=
  match w.shared.holder with
  | none => w.answers w.shared.order = (st.serial (tasksOf tasks w.shared.order)).1.map some ∧
      w.settled.view w.settled.primary = (st.serial (tasksOf tasks w.shared.order)).2
  | some t => ∃ pre th, w.shared.order = pre ++ [t] ∧
      w.answers pre = (st.serial (tasksOf tasks pre)).1.map some ∧ w.threads[t]? = some th ∧
      Progress (st.serial (tasksOf tasks pre)).2 w.settled th

theorem Ordered.unheld {st : Store} {tasks : List Task} {w : World}
    (held : w.shared.holder = none)
    (answered : w.answers w.shared.order = (st.serial (tasksOf tasks w.shared.order)).1.map some)
    (view : w.settled.view w.settled.primary = (st.serial (tasksOf tasks w.shared.order)).2)
    : Ordered st tasks w := by
  unfold Ordered
  rw [held]
  exact ⟨answered, view⟩

theorem Ordered.holding {st : Store} {tasks : List Task} {w : World} {t : Nat} {pre : List Nat}
    {th : Thread} (held : w.shared.holder = some t) (order : w.shared.order = pre ++ [t])
    (answered : w.answers pre = (st.serial (tasksOf tasks pre)).1.map some)
    (found : w.threads[t]? = some th)
    (progress : Progress (st.serial (tasksOf tasks pre)).2 w.settled th)
    : Ordered st tasks w := by
  unfold Ordered
  rw [held]
  exact ⟨pre, th, order, answered, found, progress⟩

/-- What every step keeps of threads started on `st` with `tasks`: each thread keeps its task;
the lock's flag is set exactly when a thread holds it; the primary pointer names a cell; the
threads that took the lock took it once each, and only writers and compactions take it; a writer
or compaction that never took it has not started; and the order they took it in is serial. -/
structure Serial (st : Store) (tasks : List Task) (w : World) : Prop where
  tasksKept : w.threads.map Thread.task = tasks
  locked : w.shared.log.locked = w.shared.holder.isSome
  primary : w.shared.primary < w.shared.cellCount
  nodup : w.shared.order.Nodup
  locking : ∀ t ∈ w.shared.order, ∃ th, w.threads[t]? = some th ∧ th.task.locks = true
  waiting : ∀ t th, w.threads[t]? = some th → th.task.locks = true → t ∉ w.shared.order →
    th.stage = .start
  ordered : Ordered st tasks w

namespace Serial

variable {st : Store} {tasks : List Task} {w : World} {th : Thread}

/-- Threads start on the store itself, with nothing ordered and nothing to count. -/
theorem start (st : Store) (tasks : List Task) : Serial st tasks (World.start st tasks) := by
  refine ⟨?_, rfl, Nat.zero_lt_one, List.nodup_nil, (fun _ mem => nomatch mem), ?_, ?_⟩
  · simp [World.start, List.map_map, Function.comp_def]
  · intro t th found _ _
    simp only [World.start, List.getElem?_map, Option.map_eq_some_iff] at found
    obtain ⟨task, -, rfl⟩ := found
    rfl
  · refine ⟨rfl, Shared.view_eq.mpr ⟨rfl, rfl, rfl, rfl, ?_⟩⟩
    show st.inserts + (World.start st tasks).pending = st.inserts
    rw [World.pending_start, Nat.add_zero]

/-- A thread's task is the one it was started with. -/
theorem task_of (hs : Serial st tasks w) {t : Nat} (found : w.threads[t]? = some th)
    : tasks[t]? = some th.task := by
  rw [← hs.tasksKept, List.getElem?_map, found]
  rfl

/-- Moving a thread to another stage keeps every thread's task. -/
theorem tasks_set (hs : Serial st tasks w) {t : Nat} (found : w.threads[t]? = some th)
    (stage : Stage) : (w.threads.set t { th with stage }).map Thread.task = tasks :=
  (World.tasks_set found stage).trans hs.tasksKept

/-- A writer or compaction that has started and has no answer yet holds the lock: it took it
last, after threads that all answered as the serial run of their tasks does, and has got as far
as `Progress` says. -/
theorem holder (hs : Serial st tasks w) {t : Nat} (found : w.threads[t]? = some th)
    (locks : th.task.locks = true) (started : th.stage ≠ .start) (running : th.answer? = none)
    : ∃ pre, w.shared.holder = some t ∧ w.shared.order = pre ++ [t] ∧ t ∉ pre ∧
        w.answers pre = (st.serial (tasksOf tasks pre)).1.map some ∧
        Progress (st.serial (tasksOf tasks pre)).2 w.settled th := by
  have mem : t ∈ w.shared.order := by
    by_contra out
    exact started (hs.waiting t th found locks out)
  have ordered := hs.ordered
  unfold Ordered at ordered
  cases held : w.shared.holder with
  | none =>
      rw [held] at ordered
      obtain ⟨a, answered⟩ := World.answered_of_answers ordered.1 mem found
      rw [running] at answered
      cases answered
  | some h =>
      rw [held] at ordered
      obtain ⟨pre, th', order, answered, found', progress⟩ := ordered
      -- every thread before the holder has answered, so the thread is the holder
      have out : t ∉ pre := fun inPre => by
        obtain ⟨a, answered'⟩ := World.answered_of_answers answered inPre found
        rw [running] at answered'
        cases answered'
      have same : t = h := by
        rw [order] at mem
        simpa [out] using mem
      subst same
      rw [found, Option.some.injEq] at found'
      subst found'
      exact ⟨pre, rfl, order, out, answered, progress⟩

/-- A lookup's step keeps the invariant: it only reads the memory, never took the lock and has
nothing to count. -/
theorem lookup (hs : Serial st tasks w) {t : Nat} (found : w.threads[t]? = some th)
    (reads : th.task.locks = false) {s' : Shared} {stage' : Stage}
    (h : w.shared.threadStep t th = some (s', stage'))
    : Serial st tasks ⟨s', w.threads.set t { th with stage := stage' }⟩ := by
  obtain ⟨task, stage⟩ := th
  cases task with
  | lookup q =>
      have same : s' = w.shared := Shared.lookupStep_shared h
      subst same
      obtain ⟨idle, idle'⟩ := Shared.lookupStep_pending h
      have settled := World.settled_set found w.shared stage' (idle'.trans idle.symm)
      have out : t ∉ w.shared.order := fun mem => by
        obtain ⟨th', found', locks'⟩ := hs.locking t mem
        rw [found, Option.some.injEq] at found'
        subst found'
        cases locks'
      refine ⟨hs.tasks_set found stage', hs.locked, hs.primary, hs.nodup, fun u mem => ?_,
        fun u th' found' locks' out' => ?_, ?_⟩
      · have ne : t ≠ u := fun same => out (same ▸ mem)
        rw [List.getElem?_set_ne ne]
        exact hs.locking u mem
      · have ne : t ≠ u := by
          rintro rfl
          rw [List.getElem?_set_self (List.getElem?_eq_some_iff.mp found).1,
            Option.some.injEq] at found'
          subst found'
          cases locks'
        rw [List.getElem?_set_ne ne] at found'
        exact hs.waiting u th' found' locks' out'
      · have ordered := hs.ordered
        unfold Ordered at ordered
        cases held : w.shared.holder with
        | none =>
            rw [held] at ordered
            refine .unheld held ((World.answers_set out _ _).trans ordered.1) ?_
            rw [settled]
            exact ordered.2
        | some h =>
            rw [held] at ordered
            obtain ⟨pre, th', order, answered, found', progress⟩ := ordered
            have out' : t ∉ pre ∧ t ≠ h := by simpa [order] using out
            have moved : (w.threads.set t { task := .lookup q, stage := stage' })[h]? = some th' := by
              rw [List.getElem?_set_ne out'.2]
              exact found'
            refine .holding held order ((World.answers_set out'.1 _ _).trans answered) moved ?_
            rw [settled]
            exact progress
  | _ => cases reads

/-- A writer or compaction that has not started takes the lock when it is free, and then holds
it with nothing done, after threads that all answered as the serial run does. -/
theorem acquire (hs : Serial st tasks w) {t : Nat} (found : w.threads[t]? = some th)
    (locks : th.task.locks = true) (start : th.stage = .start) {s' : Shared} {stage' : Stage}
    (h : w.shared.threadStep t th = some (s', stage'))
    : Serial st tasks ⟨s', w.threads.set t { th with stage := stage' }⟩ := by
  rw [Shared.threadStep_start locks start, Option.map_eq_some_iff] at h
  obtain ⟨s'', taken, same⟩ := h
  simp only [Prod.mk.injEq] at same
  obtain ⟨rfl, rfl⟩ := same
  obtain ⟨free, rfl⟩ := Shared.acquire_eq_some taken
  -- the lock was free, so no call was under way and every thread that took it has answered
  have held : w.shared.holder = none := by
    have flag := hs.locked
    rw [free] at flag
    cases holder : w.shared.holder with
    | none => rfl
    | some _ => simp [holder] at flag
  have ordered := hs.ordered
  unfold Ordered at ordered
  rw [held] at ordered
  have out : t ∉ w.shared.order := fun mem => by
    obtain ⟨a, answered⟩ := World.answered_of_answers ordered.1 mem found
    simp [Thread.answer?, start] at answered
  have lt : t < w.threads.length := (List.getElem?_eq_some_iff.mp found).1
  have settled := World.settled_set found
    { w.shared with log := { w.shared.log with locked := true }, holder := some t,
                    order := w.shared.order ++ [t] } .locked (by rw [start]; rfl)
  refine ⟨hs.tasks_set found .locked, rfl, hs.primary, ?_, fun u mem => ?_,
    fun u th' found' locks' out' => ?_, ?_⟩
  · exact List.nodup_append.mpr ⟨hs.nodup, List.nodup_singleton t,
      fun a mem b same => by
        rw [List.mem_singleton] at same
        subst same
        exact fun e => out (e ▸ mem)⟩
  · rcases List.mem_append.mp mem with old | new
    · have ne : t ≠ u := fun same => out (same ▸ old)
      rw [List.getElem?_set_ne ne]
      exact hs.locking u old
    · rw [List.mem_singleton] at new
      subst new
      exact ⟨_, List.getElem?_set_self lt, locks⟩
  · have ne : t ≠ u := fun same => out' (same ▸ List.mem_concat_self)
    rw [List.getElem?_set_ne ne] at found'
    exact hs.waiting u th' found' locks' fun old => out' (List.mem_append_left _ old)
  · refine .holding rfl rfl ((World.answers_set out _ _).trans ordered.1)
      (List.getElem?_set_self lt) ?_
    rw [settled]
    exact Progress.locked locks ordered.2

/-- Moving a thread that took the lock to another stage keeps every thread that took the lock a
writer or a compaction, and every writer or compaction that never took it where it was. -/
theorem moved (hs : Serial st tasks w) {t : Nat} (found : w.threads[t]? = some th)
    (mem : t ∈ w.shared.order) (stage : Stage)
    : (∀ u ∈ w.shared.order, ∃ th', (w.threads.set t { th with stage })[u]? = some th' ∧
          th'.task.locks = true) ∧
      ∀ u th', (w.threads.set t { th with stage })[u]? = some th' → th'.task.locks = true →
        u ∉ w.shared.order → th'.stage = .start := by
  have lt : t < w.threads.length := (List.getElem?_eq_some_iff.mp found).1
  obtain ⟨th', found', locks⟩ := hs.locking t mem
  rw [found, Option.some.injEq] at found'
  subst found'
  refine ⟨fun u mem' => ?_, fun u th' found' locks' out' => ?_⟩
  · by_cases same : t = u
    · subst same
      exact ⟨_, List.getElem?_set_self lt, locks⟩
    · rw [List.getElem?_set_ne same]
      exact hs.locking u mem'
  · have ne : t ≠ u := fun same => out' (same ▸ mem)
    rw [List.getElem?_set_ne ne] at found'
    exact hs.waiting u th' found' locks' out'

/-- The holder's step that keeps the lock keeps the invariant: the records it has to count
after the lock join those the other threads have. -/
theorem advance (hs : Serial st tasks w) {t : Nat} (found : w.threads[t]? = some th)
    {pre : List Nat} (held : w.shared.holder = some t) (order : w.shared.order = pre ++ [t])
    (out : t ∉ pre) (answered : w.answers pre = (st.serial (tasksOf tasks pre)).1.map some)
    {s' : Shared} {stage' : Stage} (idle : th.stage.pending = 0) (keeps : w.shared.Keeps s')
    (progress : Progress (st.serial (tasksOf tasks pre)).2
      (s'.recount (w.shared.inserts + w.pending + stage'.pending)) { th with stage := stage' })
    : Serial st tasks ⟨s', w.threads.set t { th with stage := stage' }⟩ := by
  have lt : t < w.threads.length := (List.getElem?_eq_some_iff.mp found).1
  have mem : t ∈ w.shared.order := by
    rw [order]
    exact List.mem_concat_self
  obtain ⟨locking, waiting⟩ := hs.moved found mem stage'
  have counted := World.pending_set found s' stage'
  have settled : World.settled ⟨s', w.threads.set t { th with stage := stage' }⟩ =
      s'.recount (w.shared.inserts + w.pending + stage'.pending) := by
    show s'.recount (s'.inserts + World.pending _) = _
    rw [keeps.inserts]
    congr 1
    omega
  refine ⟨hs.tasks_set found stage', ?_, keeps.primary hs.primary, ?_, fun u mem => ?_,
    fun u th' found' locks' out' => ?_, ?_⟩
  · show s'.log.locked = s'.holder.isSome
    rw [keeps.locked, keeps.holder]
    exact hs.locked
  · show s'.order.Nodup
    rw [keeps.order]
    exact hs.nodup
  · change u ∈ s'.order at mem
    rw [keeps.order] at mem
    exact locking u mem
  · change u ∉ s'.order at out'
    rw [keeps.order] at out'
    exact waiting u th' found' locks' out'
  · refine .holding (keeps.holder.trans held) (keeps.order.trans order)
      ((World.answers_set out _ _).trans answered) (List.getElem?_set_self lt) ?_
    rw [settled]
    exact progress

/-- The holder letting go of the lock once its task has answered as the serial run does keeps
the invariant, with no call under way: the records it counts next are still counted in the
settled memory. -/
theorem release (hs : Serial st tasks w) {t : Nat} (found : w.threads[t]? = some th)
    {pre : List Nat} (order : w.shared.order = pre ++ [t]) (out : t ∉ pre)
    (answered : w.answers pre = (st.serial (tasksOf tasks pre)).1.map some) {a : Answer}
    {k : Nat} (releasing : th.stage = .releasing a k)
    (performed : th.task.perform (st.serial (tasksOf tasks pre)).2 =
      (a, w.settled.view w.settled.primary))
    : Serial st tasks
        ⟨w.shared.release, w.threads.set t { th with stage := (w.shared.releaseStep a k).2 }⟩ := by
  have lt : t < w.threads.length := (List.getElem?_eq_some_iff.mp found).1
  have mem : t ∈ w.shared.order := by
    rw [order]
    exact List.mem_concat_self
  obtain ⟨locking, waiting⟩ := hs.moved found mem (w.shared.releaseStep a k).2
  have settled := World.settled_set found w.shared.release (w.shared.releaseStep a k).2
    (by rw [Shared.pending_releaseStep, releasing]; rfl)
  refine ⟨hs.tasks_set found _, rfl, hs.primary, hs.nodup, locking, waiting, ?_⟩
  · have serial := Store.serial_append_singleton st (tasksOf tasks pre) th.task
    rw [performed, ← tasksOf_append_singleton (hs.task_of found), ← order] at serial
    refine .unheld rfl ?_ ?_
    · show World.answers ⟨w.shared.release, _⟩ w.shared.order =
        (st.serial (tasksOf tasks w.shared.order)).1.map some
      rw [serial, order, World.answers, List.map_append, ← World.answers,
        World.answers_set out _ _, answered]
      simp [List.getElem?_set_self lt, Shared.answer?_releaseStep]
    · rw [settled]
      show _ = (st.serial (tasksOf tasks w.shared.order)).2
      rw [serial]
      rfl

/-- A resolution counting its records after the lock keeps the invariant: the memory with every
record counted stays as it was. -/
theorem count (hs : Serial st tasks w) {t : Nat} (found : w.threads[t]? = some th) {k : Nat}
    {a : Answer} (counting : th.stage = .counting k a) {s' : Shared} {stage' : Stage}
    (h : w.shared.threadStep t th = some (s', stage'))
    : Serial st tasks ⟨s', w.threads.set t { th with stage := stage' }⟩ := by
  obtain ⟨locks, rfl, rfl⟩ := Shared.threadStep_counting counting h
  have mem : t ∈ w.shared.order := by
    by_contra out
    rw [hs.waiting t th found locks out] at counting
    cases counting
  obtain ⟨locking, waiting⟩ := hs.moved found mem (.done a)
  have counted := World.pending_set found (w.shared.recount (w.shared.inserts + k)) (.done a)
  rw [counting] at counted
  have settled : World.settled ⟨w.shared.recount (w.shared.inserts + k),
      w.threads.set t { th with stage := .done a }⟩ = w.settled := by
    show (w.shared.recount _).recount (w.shared.inserts + k + World.pending _) =
      w.shared.recount (w.shared.inserts + w.pending)
    change World.pending _ + k = w.pending + 0 at counted
    rw [Shared.recount_recount]
    congr 1
    omega
  have same : ({ th with stage := .done a } : Thread).answer? = th.answer? := by
    simp [Thread.answer?, counting]
  refine ⟨hs.tasks_set found _, hs.locked, hs.primary, hs.nodup, locking, waiting, ?_⟩
  · have ordered := hs.ordered
    unfold Ordered at ordered
    cases held : w.shared.holder with
    | none =>
        rw [held] at ordered
        refine .unheld held ((World.answers_set_same found same _).trans ordered.1) ?_
        rw [settled]
        exact ordered.2
    | some u =>
        rw [held] at ordered
        obtain ⟨pre, th', order, answered, found', progress⟩ := ordered
        have ne : t ≠ u := by
          rintro rfl
          rw [found, Option.some.injEq] at found'
          subst found'
          exact progress.not_counting counting
        have moved : (w.threads.set t { th with stage := .done a })[u]? = some th' := by
          rw [List.getElem?_set_ne ne]
          exact found'
        refine .holding held order ((World.answers_set_same found same _).trans answered) moved ?_
        rw [settled]
        exact progress

/-- Every step that does not stop the process keeps the invariant. -/
theorem step (hs : Serial st tasks w) {t : Nat} {w' : World} (h : w.step t = some w')
    (live : w'.shared.aborted = false) : Serial st tasks w' := by
  obtain ⟨-, th, s', stage', found, stepped, rfl⟩ := World.step_some h
  cases locks : th.task.locks with
  | false => exact hs.lookup found locks stepped
  | true =>
      by_cases start : th.stage = .start
      · exact hs.acquire found locks start stepped
      · cases answer : th.answer? with
        | some a =>
            rcases Thread.answer?_eq_some.mp answer with done | ⟨k, counting⟩
            · rw [Shared.threadStep_done done] at stepped
              cases stepped
            · exact hs.count found counting stepped
        | none =>
            obtain ⟨pre, held, order, out, answered, progress⟩ :=
              hs.holder found locks start answer
            rcases progress.step stepped live hs.primary with
              ⟨a, k, releasing, same⟩ | ⟨idle, keeps, next⟩
            · have released : s' = w.shared.release := congrArg Prod.fst same
              have next : stage' = (w.shared.releaseStep a k).2 := congrArg Prod.snd same
              subst released next
              exact hs.release found order out answered releasing (progress.releasing releasing)
            · exact hs.advance found held order out answered idle keeps next

/-- Every run that does not stop the process keeps the invariant. -/
theorem run {w w' : World} {ts : List Nat} (hs : Serial st tasks w) (ran : w.run ts = some w')
    (live : w'.shared.aborted = false) : Serial st tasks w' :=
  World.run_invariant (Serial st tasks) (fun hs h live => hs.step h live) hs ran live

/-- A writer that has read the primary pointer holds the lock, so the pointer has not moved
since: it works on the primary caches. -/
theorem holding_primary (hs : Serial st tasks w) {t p : Nat} (found : w.threads[t]? = some th)
    (locks : th.task.locks = true) (holding : th.stage = .holding p) : p = w.shared.primary := by
  obtain ⟨pre, -, -, -, -, progress⟩ :=
    hs.holder found locks (by rw [holding]; nofun) (by simp [Thread.answer?, holding])
  obtain ⟨task, stage⟩ := th
  simp only at holding
  subst holding
  cases task with
  | lookup q => exact progress.elim
  | defragment => exact progress.elim
  | resolve now name key => exact progress.1
  | delete g => exact progress.1

end Serial

/-- What threads started on `st` with `tasks` have done when no call holds the lock: the threads
that took the log lock took it once each; in the order they took it, they answered as their
tasks run alone one after another answer, and the memory, once the threads have counted the
records they appended, presents the store that serial run leaves; every other writer or
compaction has not started. -/
structure Serialized (st : Store) (tasks : List Task) (w : World) : Prop where
  nodup : w.shared.order.Nodup
  answers : w.answers w.shared.order = (st.serial (tasksOf tasks w.shared.order)).1.map some
  store : w.settled.view w.settled.primary = (st.serial (tasksOf tasks w.shared.order)).2
  waiting : ∀ t th, w.threads[t]? = some th → th.task.locks = true → t ∉ w.shared.order →
    th.stage = .start

/-- Threads started on any store, with any resolutions, deletions, compactions and lookups and
run in any interleaving, are serializable. Whenever no call holds the log lock, and the process
has not stopped on a failed swap or rebuild, each writer and compaction that took the lock
answered as the same tasks run alone one after another, in the order they took the lock, answer;
the memory (file system, log, caches and configuration, and the insert count once the threads
have counted the records they appended) is the store that serial run leaves; and every other
writer or compaction has not started. At every step, a writer that read the primary pointer
works on the primary caches: none writes into caches a compaction replaced. -/
theorem run_serializable (st : Store) (tasks : List Task) (schedule : List Nat)
    : match (World.start st tasks).run schedule with
      | some w => w.shared.aborted = false →
          (w.shared.holder = none → Serialized st tasks w) ∧
          ∀ (t : Nat) (th : Thread) (p : Nat), w.threads[t]? = some th →
            th.task.locks = true → th.stage = .holding p → p = w.shared.primary
      | none => True := by
  cases ran : (World.start st tasks).run schedule with
  | none => trivial
  | some w =>
      intro live
      have hs := (Serial.start st tasks).run ran live
      refine ⟨fun held => ?_,
        fun t th p found locks holding => hs.holding_primary found locks holding⟩
      have ordered := hs.ordered
      unfold Ordered at ordered
      rw [held] at ordered
      exact ⟨hs.nodup, ordered.1, ordered.2, hs.waiting⟩

/-- A store in `/srv/ids` written through plain file calls, each cache made at the least
capacity. -/
def smallFileConfig : Config :=
  { dataDir := "/srv/ids", access := .file, nameCache := { initialCapacity := 0 },
    opaqueCache := { initialCapacity := 0 }, locationCache := { initialCapacity := 0 } }

/-- A resolution, a lookup and a compaction. -/
def mixedTasks : List Task := [.resolve 0 (some "mem") none, .lookup (.name "cpu"), .defragment]

/-- The threads of `mixedTasks` taking turns until each has answered. -/
def roundRobin : List Nat := [0, 1, 0, 1, 0, 1, 0, 2, 0, 2, 2, 2, 2, 2, 2, 2, 2, 2]

/-- On the store a session that resolved `cpu` leaves, the threads of `mixedTasks` run by
`roundRobin` finish with the lock free and the process running, and their run is serializable. -/
theorem run_serializable_sample
    : ∃ st w, session smallFileConfig [.resolve 0 (some "cpu") none] = some st ∧
      (World.start st mixedTasks).run roundRobin = some w ∧
      w.shared.aborted = false ∧ w.shared.holder = none ∧ Serialized st mixedTasks w ∧
      ∀ (t : Nat) (th : Thread) (p : Nat), w.threads[t]? = some th →
        th.task.locks = true → th.stage = .holding p → p = w.shared.primary := by
  have ran : ((session smallFileConfig [.resolve 0 (some "cpu") none]).bind fun st =>
      ((World.start st mixedTasks).run roundRobin).map
        fun w => (w.shared.aborted, w.shared.holder)) = some (false, none) := by
    decide +kernel
  obtain ⟨st, reached, ran⟩ := Option.bind_eq_some_iff.mp ran
  obtain ⟨w, finished, flags⟩ := Option.map_eq_some_iff.mp ran
  obtain ⟨live, free⟩ := Prod.mk.inj flags
  have serial := run_serializable st mixedTasks roundRobin
  rw [finished] at serial
  obtain ⟨serialized, primary⟩ := serial live
  exact ⟨st, w, reached, finished, live, free, serialized free, primary⟩

end MetricRegistry.Store
