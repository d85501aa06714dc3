import MetricRegistry.Proofs.Compaction

/-! Runs of steps that a crash does not cut, over the main and the temporary log (`Swapping`).
A property each phase keeps at each step holds of every state the run passes through
(`PhaseChain.run`). -/

namespace MetricRegistry.Store

open Disk Log

/-- The file system and the two logs a compaction or a recovery works through. -/
structure Swapping where
  disk : Disk
  log : IdentityLog
  temp : IdentityLog

/-- Operations on a file system and two logs. -/
abbrev SwapM := EStateM StoreError Swapping

/-- The log in the data directory, or the temporary log. -/
inductive Side where
  | main
  | temp

namespace Swapping

/-- The log on one side. -/
def logOn (s : Swapping) : Side → IdentityLog
  | .main => s.log
  | .temp => s.temp

/-- The state once an operation on one side left the file system and that log as `t`. -/
def update (s : Swapping) : Side → LogState → Swapping
  | .main, t => { s with disk := t.disk, log := t.log }
  | .temp, t => { s with disk := t.disk, temp := t.log }

section Update

variable (s : Swapping) (side : Side) (t u : LogState)

@[simp] theorem update_disk : (s.update side t).disk = t.disk := by cases side <;> rfl

@[simp] theorem logOn_update : (s.update side t).logOn side = t.log := by cases side <;> rfl

@[simp] theorem update_update : (s.update side t).update side u = s.update side u := by
  cases side <;> rfl

@[simp] theorem update_self : s.update side ⟨s.disk, s.logOn side⟩ = s := by cases side <;> rfl

@[simp] theorem update_main_temp : (s.update .main t).temp = s.temp := rfl

@[simp] theorem update_temp_log : (s.update .temp t).log = s.log := rfl

@[simp] theorem update_main_log : (s.update .main t).log = t.log := rfl

@[simp] theorem update_temp_temp : (s.update .temp t).temp = t.log := rfl

end Update

/-- Runs a file-system operation. -/
def onFiles {α : Type} (m : DiskM α) : SwapM α := fun s =>
  match m s.disk with
  | .ok a d => .ok a { s with disk := d }
  | .error e d => .error e { s with disk := d }

/-- Runs a log operation on one side. -/
def onSide {α : Type} (side : Side) (m : LogM α) : SwapM α := fun s =>
  match m ⟨s.disk, s.logOn side⟩ with
  | .ok a t => .ok a (s.update side t)
  | .error e t => .error e (s.update side t)

section Lifts

variable {α β : Type} {s : Swapping} {a : α}

theorem onFiles_ok {m : DiskM α} {d : Disk} (h : m s.disk = .ok a d)
    : onFiles m s = .ok a { s with disk := d } := by
  simp only [onFiles, h]

/-- A file-system operation that succeeded ran on the file system alone. -/
theorem onFiles_inv {m : DiskM α} {s' : Swapping} (h : onFiles m s = .ok a s')
    : m s.disk = .ok a s'.disk ∧ s' = { s with disk := s'.disk } := by
  unfold onFiles at h
  split at h
  · rename_i d ran
    cases h
    exact ⟨ran, rfl⟩
  · cases h

theorem onSide_ok {side : Side} {m : LogM α} {t : LogState} (h : m ⟨s.disk, s.logOn side⟩ = .ok a t)
    : onSide side m s = .ok a (s.update side t) := by
  simp only [onSide, h]

/-- Running two operations on one side one after the other runs their sequence there. -/
theorem onSide_bind (side : Side) (m : LogM α) (k : α → LogM β)
    : onSide side (m >>= k) = onSide side m >>= fun a => onSide side (k a) := by
  funext s
  simp only [onSide, bind, EStateM.bind]
  cases m ⟨s.disk, s.logOn side⟩ with
  | ok a t => simp only [update_disk, logOn_update, update_update]
  | error e t => rfl

/-- A log operation on one side that succeeded ran on that log alone. -/
theorem onSide_inv {side : Side} {m : LogM α} {s' : Swapping} (h : onSide side m s = .ok a s')
    : m ⟨s.disk, s.logOn side⟩ = .ok a ⟨s'.disk, s'.logOn side⟩ ∧
        s' = s.update side ⟨s'.disk, s'.logOn side⟩ := by
  unfold onSide at h
  split at h
  · rename_i t ran
    cases h
    rw [update_disk, logOn_update]
    exact ⟨ran, rfl⟩
  · cases h

theorem onSide_pure (side : Side) (a : α) : onSide side (pure a) = pure a := by
  funext s
  simp only [onSide, pure, EStateM.pure, update_self]

end Lifts

end Swapping

open Swapping

-----------------------------------------------------------------------------------------
-- Steps and phases
-----------------------------------------------------------------------------------------

/-- A step that a crash does not cut: it is made whole or not at all. -/
abbrev Step := SwapM Unit

/-- A phase of a run: the steps it makes, listed from the state it starts in. -/
abbrev PhaseSteps := Swapping → List Step

/-- Makes the steps in order, stopping at the first that fails. -/
def runSteps : List Step → Step
  | [] => pure ()
  | m :: ms => do m; runSteps ms

/-- The states a run of steps passes through: the one it starts in and the one each step leaves,
up to the first step that fails. -/
def stepStates : List Step → Swapping → List Swapping
  | [], s => [s]
  | m :: ms, s => s :: match m s with
    | .ok _ s' => stepStates ms s'
    | .error _ s' => [s']

/-- Makes the phases in order, each listing its steps from the state the one before left. -/
def runPhases : List PhaseSteps → Step
  | [] => pure ()
  | ph :: phs => fun s => match runSteps (ph s) s with
    | .ok _ s' => runPhases phs s'
    | .error e s' => .error e s'

/-- The states a run of phases passes through. -/
def phaseStates : List PhaseSteps → Swapping → List Swapping
  | [], s => [s]
  | ph :: phs, s => stepStates (ph s) s ++ match runSteps (ph s) s with
    | .ok _ s' => phaseStates phs s'
    | .error _ _ => []

section Runs

variable {s s' : Swapping} {m : Step} {ms : List Step}

theorem runSteps_cons_ok (h : m s = .ok () s') : runSteps (m :: ms) s = runSteps ms s' := by
  simp only [runSteps, bind, EStateM.bind, h]

theorem stepStates_cons_ok (h : m s = .ok () s') : stepStates (m :: ms) s = s :: stepStates ms s' := by
  simp only [stepStates, h]

theorem runPhases_cons_ok {ph : PhaseSteps} {phs : List PhaseSteps} (h : runSteps (ph s) s = .ok () s')
    : runPhases (ph :: phs) s = runPhases phs s' := by
  simp only [runPhases, h]

theorem phaseStates_cons_ok {ph : PhaseSteps} {phs : List PhaseSteps} (h : runSteps (ph s) s = .ok () s')
    : phaseStates (ph :: phs) s = stepStates (ph s) s ++ phaseStates phs s' := by
  simp only [phaseStates, h]

theorem runSteps_cons_inv (h : runSteps (m :: ms) s = .ok () s')
    : ∃ s1, m s = .ok () s1 ∧ runSteps ms s1 = .ok () s' := by
  simp only [runSteps, bind, EStateM.bind] at h
  split at h
  · rename_i u s1 ran
    exact ⟨s1, ran, h⟩
  · cases h

theorem runPhases_cons_inv {ph : PhaseSteps} {phs : List PhaseSteps}
    (h : runPhases (ph :: phs) s = .ok () s')
    : ∃ s1, runSteps (ph s) s = .ok () s1 ∧ runPhases phs s1 = .ok () s' := by
  simp only [runPhases] at h
  split at h
  · rename_i u s1 ran
    exact ⟨s1, ran, h⟩
  · cases h

/-- A run of phases one list after another is the run of the first list, then the second. -/
theorem runPhases_append (phs phs' : List PhaseSteps) (s : Swapping)
    : runPhases (phs ++ phs') s = match runPhases phs s with
      | .ok _ s' => runPhases phs' s'
      | .error e s' => .error e s' := by
  induction phs generalizing s with
  | nil => rfl
  | cons ph phs ih =>
      simp only [List.cons_append, runPhases]
      cases runSteps (ph s) s with
      | ok u s1 => exact ih s1
      | error e s1 => rfl

theorem runPhases_append_inv {phs phs' : List PhaseSteps} (h : runPhases (phs ++ phs') s = .ok () s')
    : ∃ s1, runPhases phs s = .ok () s1 ∧ runPhases phs' s1 = .ok () s' := by
  rw [runPhases_append] at h
  split at h
  · rename_i u s1 ran
    exact ⟨s1, ran, h⟩
  · cases h

end Runs

/-- A run of steps made one per item of `xs`, where each step, from a state where `inv` holds of
the items before it, succeeds into a state where `inv` holds of them and it: each state the run
passes through has `inv` of some first items of `xs`, and the run ends with `inv` of all. -/
theorem runSteps_map {β : Type} (xs : List β) (f : β → Step) (inv : List β → Swapping → Prop)
    (step : ∀ pre x rest, pre ++ x :: rest = xs → ∀ s, inv pre s →
      ∃ s', f x s = .ok () s' ∧ inv (pre ++ [x]) s')
    {s : Swapping} (start : inv [] s)
    : (∀ t ∈ stepStates (xs.map f) s, ∃ pre, pre <+: xs ∧ inv pre t) ∧
        ∃ s', runSteps (xs.map f) s = .ok () s' ∧ inv xs s' := by
  suffices go : ∀ rest pre s, pre ++ rest = xs → inv pre s →
      (∀ t ∈ stepStates (rest.map f) s, ∃ pre, pre <+: xs ∧ inv pre t) ∧
        ∃ s', runSteps (rest.map f) s = .ok () s' ∧ inv xs s' from go xs [] s rfl start
  intro rest
  induction rest with
  | nil =>
      intro pre s whole holds
      rw [List.append_nil] at whole
      subst whole
      refine ⟨fun t mem => ⟨pre, List.prefix_refl pre, ?_⟩, s, rfl, holds⟩
      rw [List.map_nil, stepStates, List.mem_singleton] at mem
      rw [mem]
      exact holds
  | cons x rest ih =>
      intro pre s whole holds
      obtain ⟨s1, ran, holds1⟩ := step pre x rest whole s holds
      obtain ⟨states, s2, rested, holds2⟩ := ih (pre ++ [x]) s1 (by simpa using whole) holds1
      rw [List.map_cons, stepStates_cons_ok ran, runSteps_cons_ok ran]
      refine ⟨fun t mem => ?_, s2, rested, holds2⟩
      rcases List.mem_cons.mp mem with rfl | later
      · exact ⟨pre, ⟨x :: rest, whole⟩, holds⟩
      · exact states t later

/-- A loop of the code on one side, its iterations made one step each, is the loop run there. -/
theorem runSteps_map_onSide {α β : Type} (side : Side) (xs : List β) (f : β → LogM α)
    : runSteps (xs.map fun x => onSide side (f x >>= fun _ => pure ())) =
        onSide side (forIn xs PUnit.unit fun x _ => f x >>= fun _ => pure (ForInStep.yield PUnit.unit)) := by
  induction xs with
  | nil => simp only [List.map_nil, runSteps, List.forIn_nil, onSide_pure]
  | cons x xs ih =>
      rw [List.map_cons, runSteps, ih]
      simp only [List.forIn_cons, bind_assoc, pure_bind, onSide_bind, onSide_pure]

-----------------------------------------------------------------------------------------
-- Properties kept by every step
-----------------------------------------------------------------------------------------

/-- From every state where `pre` holds, the phase makes all its steps, passing only through
states where `mid` holds, and ends in a state where `post` holds. -/
def PhaseSpec (ph : PhaseSteps) (pre mid post : Swapping → Prop) : Prop :=
  ∀ s, pre s → (∀ t ∈ stepStates (ph s) s, mid t) ∧ ∃ s', runSteps (ph s) s = .ok () s' ∧ post s'

/-- Phases that, run in order from a state where `pre` holds, pass only through states where `mid`
holds and end where `post` holds, each handing its postcondition to the next. -/
inductive PhaseChain (mid : Swapping → Prop) :
    List PhaseSteps → (Swapping → Prop) → (Swapping → Prop) → Prop
  | nil {pre post : Swapping → Prop} : (∀ s, pre s → mid s ∧ post s) → PhaseChain mid [] pre post
  | cons {ph : PhaseSteps} {phs : List PhaseSteps} {pre post fin : Swapping → Prop} :
      PhaseSpec ph pre mid post → PhaseChain mid phs post fin → PhaseChain mid (ph :: phs) pre fin

theorem PhaseSpec.strengthen {ph : PhaseSteps} {pre pre' mid post : Swapping → Prop}
    (h : PhaseSpec ph pre mid post) (implies : ∀ s, pre' s → pre s) : PhaseSpec ph pre' mid post :=
  fun s start => h s (implies s start)

namespace PhaseChain

variable {mid : Swapping → Prop}

/-- A chain runs from any state that implies its precondition. -/
theorem strengthen {phs : List PhaseSteps} {pre pre' post : Swapping → Prop}
    (h : PhaseChain mid phs pre post) (implies : ∀ s, pre' s → pre s) : PhaseChain mid phs pre' post := by
  cases h with
  | nil holds => exact .nil fun s start => holds s (implies s start)
  | cons spec rest => exact .cons (spec.strengthen implies) rest

theorem append {phs phs' : List PhaseSteps} {pre post fin : Swapping → Prop}
    (h : PhaseChain mid phs pre post) (h' : PhaseChain mid phs' post fin)
    : PhaseChain mid (phs ++ phs') pre fin := by
  induction h with
  | nil holds => exact h'.strengthen fun s start => (holds s start).2
  | cons spec _ ih => exact .cons spec (ih h')

/-- A chain of phases run from a state where its precondition holds passes only through states
where `mid` holds, and ends where its postcondition holds. -/
theorem run {phs : List PhaseSteps} {pre fin : Swapping → Prop} (h : PhaseChain mid phs pre fin)
    {s : Swapping} (start : pre s)
    : (∀ t ∈ phaseStates phs s, mid t) ∧ ∃ s', runPhases phs s = .ok () s' ∧ fin s' := by
  induction h generalizing s with
  | nil holds =>
      refine ⟨fun t mem => ?_, s, rfl, (holds s start).2⟩
      rw [phaseStates, List.mem_singleton] at mem
      rw [mem]
      exact (holds s start).1
  | cons spec _ ih =>
      obtain ⟨mids, s1, ran, post1⟩ := spec s start
      obtain ⟨later, s2, rested, fin2⟩ := ih post1
      rw [phaseStates_cons_ok ran, runPhases_cons_ok ran]
      refine ⟨fun t mem => ?_, s2, rested, fin2⟩
      rcases List.mem_append.mp mem with first | rest
      · exact mids t first
      · exact later t rest

end PhaseChain

end MetricRegistry.Store
