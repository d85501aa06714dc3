import MetricRegistry.Store.Compaction
import MetricRegistry.Sync.SpinLock

/-! Threads sharing one store, one step at a time: writers and compactions hold the log lock,
lookups read the read path and the primary pointer without it, and cache sets live in numbered
cells. A critical section runs the store's own operation. -/

namespace MetricRegistry.Store

open Disk Log Table

/-- Where lookups find their caches. -/
inductive ReadPath where
  /-- The cell the primary pointer names. -/
  | primary
  /-- The cell of a snapshot a compaction took. -/
  | shadow (cell : Nat)
  deriving DecidableEq, Repr

/-- What a lookup asks. -/
inductive Query where
  | name (name : String)
  | key (key : ByteArray)

namespace Query

/-- An empty name or key finds nothing, without looking. -/
def isEmpty : Query → Bool
  | .name n => n.isEmpty
  | .key k => k.size == 0

/-- What a cache set answers. -/
def probe (c : CacheSet) : Query → Option Int64
  | .name n => c.names.get n
  | .key k => c.opaqueKeys.get k

/-- What a store answers on its own. -/
def answer (st : Store) : Query → Option Int64
  | .name n => st.lookupName n
  | .key k => st.lookupKey k

end Query

/-- What a thread was started to do. -/
inductive Task where
  | resolve (now : Int64) (name : Option String) (key : Option ByteArray)
  | delete (globalId : Int64)
  | defragment
  | lookup (query : Query)

/-- What a task answered. -/
inductive Answer where
  | resolved (result : Except StoreError Int64)
  | deleted (result : Except StoreError Bool)
  | compacted (result : Except StoreError Report)
  | found (globalId : Option Int64)

namespace Task

/-- What the task answers, and the store it leaves, when the store runs it alone. -/
def perform : Task → Store → Answer × Store
  | .resolve now name key, st =>
    match Store.resolve now name key st with
    | .ok g st' => (.resolved (.ok g), st')
    | .error e st' => (.resolved (.error e), st')
  | .delete g, st =>
    match Store.delete g st with
    | .ok b st' => (.deleted (.ok b), st')
    | .error e st' => (.deleted (.error e), st')
  | .defragment, st =>
    match Store.defragment st with
    | .ok r st' => (.compacted (.ok r), st')
    | .error e st' => (.compacted (.error e), st')
  | .lookup q, st => (.found (q.answer st), st)

/-- What a writer's task does under the log lock: its answer, the store it leaves and the records
it appended, which a resolution counts once it has let go of the lock. -/
def underLock : Task → Store → Answer × Store × Nat
  | .resolve now name key, st =>
    match Store.withIndexed (IndexedLog.resolve now name key) st with
    | .ok r st' => (.resolved (.ok r.globalId), st', if r.appended then 1 else 0)
    | .error e st' => (.resolved (.error e), st', 0)
  | task, st => ((task.perform st).1, (task.perform st).2, 0)

end Task

/-- The answers, in order, and the store that tasks run one after another leave. -/
def serial (st : Store) (tasks : List Task) : List Answer × Store :=
  tasks.foldl (fun done t => (done.1 ++ [(t.perform done.2).1], (t.perform done.2).2)) ([], st)

/-- How far a thread has got with its task. -/
inductive Stage where
  /-- Not started: a writer or a compaction waits for the log lock, a lookup reads the read
  path next. -/
  | start
  /-- Holds the log lock, and reads the primary pointer next. -/
  | locked
  /-- A writer read the primary pointer, or a lookup got its caches: the cell it uses. -/
  | holding (cell : Nat)
  /-- A lookup found the read path primary, and reads the primary pointer next. -/
  | routed
  /-- A compaction noted the log as it found it and read the primary pointer, `old`. -/
  | pinned (before : IdentityLog) (old : Nat)
  /-- A compaction put a snapshot of `old` in the new cell `shadow`. -/
  | snapshotted (before : IdentityLog) (old shadow : Nat)
  /-- A compaction sent lookups to the snapshot. -/
  | redirected (before : IdentityLog) (old : Nat)
  /-- A compaction wrote the live records to the temporary log `temp`. -/
  | rewritten (before : IdentityLog) (old : Nat) (temp : IdentityLog)
  /-- A compaction put the temporary records back in place of the log. -/
  | swapped (before : IdentityLog) (old : Nat)
  /-- A compaction rebuilt the caches into the new cell `fresh`. -/
  | rebuilt (before : IdentityLog) (fresh : Nat)
  /-- A compaction pointed the primary pointer at the rebuilt caches. -/
  | replaced (report : Report)
  /-- The task is answered; a writer or a compaction lets go of the log lock next, and counts the
  `added` records it appended after that. -/
  | releasing (answer : Answer) (added : Nat)
  /-- A resolution let go of the log lock and adds `added` to the insert count next. -/
  | counting (added : Nat) (answer : Answer)
  /-- The task is answered and the thread holds nothing. -/
  | done (answer : Answer)

/-- A thread: its task and how far it has got. -/
structure Thread where
  task : Task
  stage : Stage := .start

/-- The answer of a thread whose call has run: it has returned it, or returns it once it has
counted its records. -/
def Thread.answer? (th : Thread) : Option Answer :=
  match th.stage with
  | .done a | .counting _ a => some a
  | _ => none

/-- The memory the threads share: the store's configuration, file system and log (behind the
log lock), the cache sets made so far, the primary pointer, the read path and the insert count,
with the thread holding the log lock and the order in which threads took it, and whether the
process stopped. -/
structure Shared where
  config : Config
  disk : Disk
  log : Sync.SpinLock IdentityLog
  cells : Nat → CacheSet
  cellCount : Nat
  primary : Nat
  readPath : ReadPath
  inserts : Nat
  holder : Option Nat
  order : List Nat
  aborted : Bool

namespace Shared

/-- The store the memory presents with the caches of `cell`. -/
def view (s : Shared) (cell : Nat) : Store :=
  { config := s.config, indexed := ⟨s.disk, s.log.value, s.cells cell⟩, inserts := s.inserts }

/-- The memory once an operation that ran on the caches of `cell` left the store `st`. -/
def load (s : Shared) (cell : Nat) (st : Store) : Shared :=
  { s with config := st.config, disk := st.disk, log := s.log.set st.log, inserts := st.inserts,
           cells := fun c => if c = cell then st.caches else s.cells c }

/-- The memory with a new cell holding `c`. -/
def allocate (s : Shared) (c : CacheSet) : Shared :=
  { s with cells := fun i => if i = s.cellCount then c else s.cells i,
           cellCount := s.cellCount + 1 }

end Shared

/-- Threads at work on a shared store. -/
structure World where
  shared : Shared
  threads : List Thread

namespace World

/-- The threads started on a store, one per task, with lookups sent to the primary caches and
no lock held. -/
def start (st : Store) (tasks : List Task) : World where
  shared :=
    { config := st.config, disk := st.disk, log := .new st.log, cells := fun _ => st.caches,
      cellCount := 1, primary := 0, readPath := .primary, inserts := st.inserts, holder := none,
      order := [], aborted := false }
  threads := tasks.map ({ task := · })

end World

namespace Shared

/-- Thread `t` takes the log lock; none while another thread holds it. -/
def acquire (s : Shared) (t : Nat) : Option Shared :=
  s.log.tryAcquire.map fun log => { s with log, holder := some t, order := s.order ++ [t] }

/-- The holder lets go of the log lock. -/
def release (s : Shared) : Shared := { s with log := s.log.release, holder := none }

/-- The step a lookup for `q` takes from `stage`. An empty name or key answers at once; otherwise
the lookup reads the read path, then the primary pointer when the path is the primary one, then
looks in the cell it got. -/
def lookupStep (s : Shared) (q : Query) : Stage → Option (Shared × Stage)
  | .start =>
    if q.isEmpty then some (s, .done (.found none))
    else match s.readPath with
      | .primary => some (s, .routed)
      | .shadow c => some (s, .holding c)
  | .routed => some (s, .holding s.primary)
  | .holding c => some (s, .done (.found (q.probe (s.cells c))))
  | _ => none

/-- The step that lets go of the log lock, after which a thread with records to count counts
them. -/
def releaseStep (s : Shared) (a : Answer) (added : Nat) : Shared × Stage :=
  (s.release, if added = 0 then .done a else .counting added a)

/-- The step a resolution or a deletion by thread `t` takes from `stage`: it takes the log lock,
reads the primary pointer, runs on the log and the caches of that cell, lets go of the lock and
counts the record a resolution appended. -/
def writerStep (s : Shared) (t : Nat) (task : Task) : Stage → Option (Shared × Stage)
  | .start => (s.acquire t).map (·, .locked)
  | .locked => some (s, .holding s.primary)
  | .holding p =>
    some (s.load p (task.underLock (s.view p)).2.1,
      .releasing (task.underLock (s.view p)).1 (task.underLock (s.view p)).2.2)
  | .releasing a added => some (s.releaseStep a added)
  | .counting added a => some ({ s with inserts := s.inserts + added }, .done a)
  | _ => none

/-- The step a compaction by thread `t` takes from `stage`. A failure while the log is swapped or
the caches are rebuilt stops the process. -/
def compactionStep (s : Shared) (t : Nat) : Stage → Option (Shared × Stage)
  | .start => (s.acquire t).map (·, .locked)
  | .locked => some (s, .pinned s.log.value s.primary)
  | .pinned before old => some (s.allocate (s.cells old), .snapshotted before old s.cellCount)
  | .snapshotted before old shadow =>
    some ({ s with readPath := .shadow shadow }, .redirected before old)
  | .redirected before old =>
    let dir := join before.dir compactDir
    match rewriteLive before dir s.disk with
    | .error e d =>
      some ({ s with disk := Store.abandon dir d, readPath := .primary },
        .releasing (.compacted (.error e)) 0)
    | .ok temp d => some ({ s with disk := d }, .rewritten before old temp)
  | .rewritten before old temp =>
    match Store.swap temp (join before.dir compactDir) (s.view old) with
    | .ok () st => some ({ s with disk := st.disk, log := s.log.set st.log }, .swapped before old)
    | .error _ _ => some ({ s with aborted := true }, .rewritten before old temp)
  | .swapped before old =>
    match Store.rebuild (s.view old) with
    | .ok () st => some (s.allocate st.caches, .rebuilt before s.cellCount)
    | .error _ _ => some ({ s with aborted := true }, .swapped before old)
  | .rebuilt before fresh =>
    some ({ s with primary := fresh },
      .replaced { recordsBefore := before.size, recordsAfter := s.log.value.size,
                  bytesBefore := before.dataLen, bytesAfter := s.log.value.dataLen })
  | .replaced report =>
    some ({ s with readPath := .primary }, .releasing (.compacted (.ok report)) 0)
  | .releasing a added => some (s.releaseStep a added)
  | _ => none

/-- The step thread `t` takes: the memory it leaves and its next stage; none when it waits for the
log lock or has finished. -/
def threadStep (s : Shared) (t : Nat) (th : Thread) : Option (Shared × Stage) :=
  match th.task with
  | .lookup q => s.lookupStep q th.stage
  | .defragment => s.compactionStep t th.stage
  | task => s.writerStep t task th.stage

end Shared

namespace World

/-- One step of thread `t`; none when it cannot take one, or when the process stopped. -/
def step (w : World) (t : Nat) : Option World :=
  if w.shared.aborted then none
  else (w.threads[t]?).bind fun th =>
    (w.shared.threadStep t th).map fun (s, stage) => ⟨s, w.threads.set t { th with stage }⟩

/-- The world the steps of the threads `ts`, in order, leave; none when one of them cannot be
taken. -/
def run : World → List Nat → Option World
  | w, [] => some w
  | w, t :: ts => (w.step t).bind (run · ts)

end World

end MetricRegistry.Store
