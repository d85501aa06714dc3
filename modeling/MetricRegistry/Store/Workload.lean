import MetricRegistry.Store.Compaction

/-!
A workload of writers, a deleter and readers around compactions, one call at a time: a compaction
runs within one call, so every lookup sees the store before or after one.
-/

namespace MetricRegistry.Store

/-- What a workload did: the ids handed out, the names left live, the compaction reports, and
the lookups of live names that found nothing. -/
structure Workload where
  ids : List Int64
  live : List String
  reports : List Report
  misses : Nat


/-- The names `t{t}.m{i}` that `threads` writers resolve, `perThread` each. -/
def workloadNames (threads perThread : Nat) : List String :=
  (List.range threads).flatMap fun t => (List.range perThread).map fun i => s!"t{t}.m{i}"

/-- How many of `names` the store finds nothing for. -/
def misses (s : Store) (names : List String) : Nat :=
  (names.filter fun n => (s.lookupName n).isNone).length

/-- Readers look up `live` around each of `n` compactions; answers the reports and the misses. -/
def compactWhileReading (live : List String) : Nat → StoreM (List Report × Nat)
  | 0 => pure ([], 0)
  | n + 1 => do
    let report ← defragment
    let missed := (← getThe Store).misses live
    let (reports, later) ← compactWhileReading live n
    pure (report :: reports, missed + later)

/-- Writers resolve their names, every `every`-th name in name order is deleted, and readers
look up the live names before and after each of `compactions` compactions. -/
def workload (threads perThread compactions every : Nat) : StoreM Workload := do
  let names := workloadNames threads perThread
  let ids ← names.mapM fun n => Store.resolve 0 (some n) none
  let sorted := ((names.zip ids).mergeSort fun a b => compare a.1 b.1 != .gt).zipIdx
  let doomed (i : Nat) : Bool := every != 0 && i % every == 0
  let _ ← (sorted.filter (doomed ·.2)).mapM fun e => Store.delete e.1.2
  let live := (sorted.filter (!doomed ·.2)).map (·.1.1)
  let before := (← getThe Store).misses live
  let (reports, missed) ← compactWhileReading live compactions
  pure ⟨ids, live, reports, before + missed⟩


end MetricRegistry.Store
