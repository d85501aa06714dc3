import MetricRegistry.Store.Compaction

/-!
Compaction on a schedule: a started schedule checks the store once every period of its policy's
interval, and compacts when the policy asks for it. Times are counted in milliseconds.
-/
namespace MetricRegistry.Store

/-- A running schedule: the time it started and the time between two checks. -/
structure Schedule where
  startedAt : Nat
  period : Nat

namespace Schedule

/-- The schedule of `policy` started at `now`, when its interval is not zero. -/
def start (policy : DefragPolicy) (now : Nat) : Option Schedule :=
  if policy.intervalSecs = 0 then none else some ⟨now, policy.intervalSecs * 1000⟩

/-- The checks made after the time `now` up to and including the time `later`. -/
def checksBetween (s : Schedule) (now later : Nat) : Nat :=
  (later - s.startedAt) / s.period - (now - s.startedAt) / s.period

end Schedule


/-- One check: compacts when the policy asks for it. A failure the compaction returns is passed
over; one that stops the process ends the checks. -/
def check : StoreM Unit := do
  if (← getThe Store).needsDefragment then
    tryCatch (do let _ ← defragment) fun e => if e.stopsProcess then throw e else pure ()

/-- `n` checks in a row. -/
def checkTimes : Nat → StoreM Unit
  | 0 => pure ()
  | n + 1 => do check; checkTimes n

/-- The store after the time passes from `now` to `later` under the schedule `s`, if any. -/
def runSchedule (s : Option Schedule) (now later : Nat) : StoreM Unit :=
  match s with
  | some s => checkTimes (s.checksBetween now later)
  | none => pure ()

/-- Lets the time pass from `now` to `later` and answers the schedule still running. The checks
run in a task of their own: a panic in one ends that task and so the schedule, while the store
goes on as the panic left it; an abort ends the process. -/
def advance (s : Option Schedule) (now later : Nat) : StoreM (Option Schedule) := fun st =>
  match runSchedule s now later st with
  | .ok () st' => .ok s st'
  | .error e st' => if e.isPanic then .ok none st' else .error e st'


end MetricRegistry.Store
