import MetricRegistry.Core.Instances

/-! A lock that guards one value by a single flag: a try fails at once when it is set, and a
blocking take against a flag no one else will clear never ends. -/

namespace MetricRegistry.Sync

/-- A lock with its flag and the value it guards. -/
structure SpinLock (α : Type) where
  locked : Bool := false
  value : α

namespace SpinLock

variable {α : Type}

/-- A free lock around `v`. -/
def new (v : α) : SpinLock α := { value := v }

/-- The lock held, when it was free; a held lock cannot be taken. -/
def tryAcquire (l : SpinLock α) : Option (SpinLock α) :=
  if l.locked then none else some { l with locked := true }

/-- The lock let go of. -/
def release (l : SpinLock α) : SpinLock α := { l with locked := false }

/-- The lock with its value replaced. -/
def set (l : SpinLock α) (v : α) : SpinLock α := { l with value := v }

/-- The value with `n` added by its owner, as a signed 64-bit word: a sum out of that range
panics. -/
def addToValue (l : SpinLock Int) (n : Int) : Except String (SpinLock Int) :=
  let total := l.value + n
  if total < -2 ^ 63 ∨ 2 ^ 63 ≤ total then .error "attempt to add with overflow"
  else .ok (l.set total)

/-- The debug text of a lock, which shows only the flag. -/
def describe (l : SpinLock α) : String :=
  "SpinLock \x7b locked: " ++ toString l.locked ++ ", .. \x7d"

/-- A try on a free lock takes it and keeps the value. -/
theorem tryAcquire_free (l : SpinLock α) (h : l.locked = false) :
    l.tryAcquire = some { l with locked := true } := by
  simp [tryAcquire, h]

/-- A try on a held lock fails. -/
theorem tryAcquire_held (l : SpinLock α) (h : l.locked = true) : l.tryAcquire = none := by
  simp [tryAcquire, h]

end SpinLock

end MetricRegistry.Sync
