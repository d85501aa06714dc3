import Mathlib
import MetricRegistry.Table.Cache

/-! An open-addressing table is a finite map: under `Sound`, `get` answers what the slots hold,
and a successful insertion or removal changes `get` at its key only. -/

namespace MetricRegistry.Table

-----------------------------------------------------------------------------------------
-- Probe walks
-----------------------------------------------------------------------------------------

/-- The slot a walk from `i`, stepping by `step` around `size` slots, reaches after `n` steps. -/
def walk (size step i : Nat) : Nat → Nat
  | 0 => i
  | n + 1 => walk size step ((i + step) % size) n

theorem walk_lt {size step i : Nat} (h : i < size) (n : Nat) : walk size step i n < size := by
  induction n generalizing i with
  | zero => exact h
  | succ n ih => exact ih (Nat.mod_lt _ (by omega))

namespace Slot

/-- A slot never used since its array was made. -/
def isFree {κ : Type} : Slot κ → Bool
  | .free => true
  | _ => false

/-- A slot holding an entry. -/
def isFull {κ : Type} : Slot κ → Bool
  | .full _ _ => true
  | _ => false

end Slot

variable {κ : Type}

/-- Slot `p` exists and is full or removed: a probe walk passes over it. -/
def InUse (slots : Array (Slot κ)) (p : Nat) : Prop :=
  ∃ x, slots[p]? = some x ∧ x.isFree = false

/-- Slot `p` exists and holds no entry: free, or removed. -/
def Vacant (slots : Array (Slot κ)) (p : Nat) : Prop :=
  ∃ x, slots[p]? = some x ∧ x.isFull = false

/-- Some slot holds `key` with `value`. -/
def Holds (slots : Array (Slot κ)) (key : κ) (value : Int64) : Prop :=
  ∃ j : Nat, slots[j]? = some (Slot.full key value)

theorem lt_size_of_getElem? {slots : Array (Slot κ)} {p : Nat} {x : Slot κ}
    (h : slots[p]? = some x) : p < slots.size :=
  (Array.getElem?_eq_some_iff.mp h).1

theorem inUse_set {slots : Array (Slot κ)} {i : Nat} {x : Slot κ} (hx : x.isFree = false)
    {p : Nat} (h : InUse slots p) : InUse (slots.set! i x) p := by
  obtain ⟨y, hy, free⟩ := h
  rw [InUse, Array.set!_eq_setIfInBounds, Array.getElem?_setIfInBounds]
  by_cases same : i = p
  · subst same
    exact ⟨x, by rw [if_pos rfl, if_pos (lt_size_of_getElem? hy)], hx⟩
  · exact ⟨y, by rw [if_neg same, hy], free⟩

theorem getElem?_set_ne {slots : Array (Slot κ)} {i p : Nat} {x : Slot κ} (h : i ≠ p)
    : (slots.set! i x)[p]? = slots[p]? := by
  rw [Array.set!_eq_setIfInBounds, Array.getElem?_setIfInBounds_ne h]

theorem getElem?_set_self {slots : Array (Slot κ)} {i : Nat} {x : Slot κ} (h : i < slots.size)
    : (slots.set! i x)[i]? = some x := by
  rw [Array.set!_eq_setIfInBounds, Array.getElem?_setIfInBounds_self_of_lt h]

variable [TableKey κ]

/-- The walk of `key`: from its home slot, by its stride. -/
def keyWalk (slots : Array (Slot κ)) (key : κ) (n : Nat) : Nat :=
  walk slots.size (OpenTable.stride (TableKey.hash key) slots.size)
    (OpenTable.home (TableKey.hash key) slots.size) n

/-- Slot `j` is reached by the walk of `key` within `slots.size` steps, over slots in use. -/
def OnPath (slots : Array (Slot κ)) (key : κ) (j : Nat) : Prop :=
  ∃ n < slots.size, keyWalk slots key n = j ∧ ∀ m < n, InUse slots (keyWalk slots key m)

/-- The representation invariant of a table's slots: a key is held by at most one slot, and
every held key lies on its own walk. -/
structure Sound (slots : Array (Slot κ)) : Prop where
  unique : ∀ {j j' : Nat} {k : κ} {v v' : Int64},
    slots[j]? = some (Slot.full k v) → slots[j']? = some (Slot.full k v') → j = j'
  onPath : ∀ {j : Nat} {k : κ} {v : Int64}, slots[j]? = some (Slot.full k v) → OnPath slots k j

/-- Walks only depend on the number of slots, so turning slots into slots in use keeps every
walk whole. -/
theorem onPath_mono {slots slots' : Array (Slot κ)} (size : slots'.size = slots.size)
    (keep : ∀ p, InUse slots p → InUse slots' p) {key : κ} {j : Nat}
    (h : OnPath slots key j) : OnPath slots' key j := by
  obtain ⟨n, hn, at_j, before⟩ := h
  have same : ∀ m, keyWalk slots' key m = keyWalk slots key m := fun m => by
    simp only [keyWalk, size]
  exact ⟨n, size ▸ hn, (same n).trans at_j, fun m hm => (same m) ▸ keep _ (before m hm)⟩

variable [DecidableEq κ]

-----------------------------------------------------------------------------------------
-- Finding a key
-----------------------------------------------------------------------------------------

omit [TableKey κ] in
/-- `findFrom` stops only at a slot holding the key. -/
theorem findFrom_full {slots : Array (Slot κ)} {key : κ} {step : Nat}
    : ∀ {s i j : Nat}, OpenTable.findFrom slots key step s i = some j →
        ∃ v, slots[j]? = some (Slot.full key v) := by
  intro s
  induction s with
  | zero => intro i j h; simp [OpenTable.findFrom] at h
  | succ s ih =>
      intro i j h
      unfold OpenTable.findFrom at h
      split at h
      · simp at h
      · simp at h
      · rename_i k v at_i
        split at h
        · rename_i same
          obtain rfl := Option.some.inj h
          exact ⟨v, same ▸ at_i⟩
        · exact ih h
      · exact ih h

omit [TableKey κ] in
/-- A walk over slots in use that reaches the key within its steps finds it. -/
theorem findFrom_of_walk {slots : Array (Slot κ)} {key : κ} {step : Nat}
    : ∀ {s i n : Nat} {v : Int64}, n < s →
        slots[walk slots.size step i n]? = some (Slot.full key v) →
        (∀ m < n, InUse slots (walk slots.size step i m)) →
        ∃ j, OpenTable.findFrom slots key step s i = some j := by
  intro s
  induction s with
  | zero => intro i n v hn; omega
  | succ s ih =>
      intro i n v hn at_n before
      unfold OpenTable.findFrom
      -- the walk's first slot is the key's, or in use and passed over
      cases n with
      | zero =>
          simp only [walk] at at_n
          rw [at_n]
          simp
      | succ n =>
          obtain ⟨x, at_i, used⟩ := before 0 (Nat.succ_pos n)
          simp only [walk] at at_i
          have at_n' : slots[walk slots.size step ((i + step) % slots.size) n]? =
              some (Slot.full key v) := at_n
          have rest := ih (by omega) at_n' fun m hm => before (m + 1) (by omega)
          rw [at_i]
          cases x with
          | free => simp [Slot.isFree] at used
          | full k v' =>
              simp only
              split
              · exact ⟨i, rfl⟩
              · exact rest
          | removed => exact rest

namespace OpenTable

/-- In a sound table, `find` answers the slot that holds the key. -/
theorem find_eq_some_iff {t : OpenTable κ} (hs : Sound t.slots) {key : κ} {j : Nat}
    : t.find key = some j ↔ ∃ v, t.slots[j]? = some (Slot.full key v) := by
  constructor
  · exact findFrom_full
  · rintro ⟨v, at_j⟩
    obtain ⟨n, hn, walk_n, before⟩ := hs.onPath at_j
    have at_walk : t.slots[keyWalk t.slots key n]? = some (Slot.full key v) := by
      rw [walk_n]
      exact at_j
    obtain ⟨j', found⟩ := findFrom_of_walk hn at_walk before
    obtain ⟨v', at_j'⟩ := findFrom_full found
    rw [find, capacity, found, hs.unique at_j' at_j]

theorem find_eq_none_iff {t : OpenTable κ} (hs : Sound t.slots) {key : κ}
    : t.find key = none ↔ ∀ v, ¬ Holds t.slots key v := by
  constructor
  · rintro none_found v ⟨j, at_j⟩
    have found := (find_eq_some_iff hs).mpr ⟨v, at_j⟩
    rw [none_found] at found
    exact absurd found (by simp)
  · intro absent
    cases found : t.find key with
    | none => rfl
    | some j =>
        obtain ⟨v, at_j⟩ := (find_eq_some_iff hs).mp found
        exact absurd ⟨j, at_j⟩ (absent v)

/-- In a sound table, `get` answers the value some slot holds for the key. -/
theorem get_eq_some_iff {t : OpenTable κ} (hs : Sound t.slots) {key : κ} {v : Int64}
    : t.get key = some v ↔ Holds t.slots key v := by
  cases found : t.find key with
  | none =>
      simp only [get, found, Option.bind_none, reduceCtorEq, false_iff]
      exact (find_eq_none_iff hs).mp found v
  | some j =>
      obtain ⟨v', at_j⟩ := (find_eq_some_iff hs).mp found
      simp only [get, found, Option.bind_some, valueAt, at_j, Option.some.injEq]
      constructor
      · rintro rfl
        exact ⟨j, at_j⟩
      · rintro ⟨j', at_j'⟩
        obtain rfl := hs.unique at_j' at_j
        rw [at_j] at at_j'
        simp only [Option.some.injEq, Slot.full.injEq, true_and] at at_j'
        exact at_j'

/-- Two sound tables, or a sound table and a map, agree on a key once the slots hold the same
values for it. -/
theorem get_eq_of_holds {t : OpenTable κ} (hs : Sound t.slots) {key : κ} {o : Option Int64}
    (h : ∀ v, Holds t.slots key v ↔ o = some v) : t.get key = o :=
  Option.ext fun v => (get_eq_some_iff hs).trans (h v)

end OpenTable

-----------------------------------------------------------------------------------------
-- Writing one slot
-----------------------------------------------------------------------------------------

section Write

variable {slots : Array (Slot κ)} {i : Nat} {key : κ} {value : Int64}

omit [TableKey κ] [DecidableEq κ] in
theorem holds_set_full (hi : i < slots.size) {k : κ} {v : Int64}
    : Holds (slots.set! i (Slot.full key value)) k v ↔
        (k = key ∧ v = value) ∨ ∃ j, j ≠ i ∧ slots[j]? = some (Slot.full k v) := by
  constructor
  · rintro ⟨j, at_j⟩
    by_cases same : i = j
    · subst same
      rw [getElem?_set_self hi] at at_j
      simp only [Option.some.injEq, Slot.full.injEq] at at_j
      exact Or.inl ⟨at_j.1.symm, at_j.2.symm⟩
    · rw [getElem?_set_ne same] at at_j
      exact Or.inr ⟨j, Ne.symm same, at_j⟩
  · rintro (⟨rfl, rfl⟩ | ⟨j, ne, at_j⟩)
    · exact ⟨i, getElem?_set_self hi⟩
    · exact ⟨j, by rw [getElem?_set_ne (Ne.symm ne)]; exact at_j⟩

omit [DecidableEq κ] in
/-- Writing `key` into a slot on its walk, where no other slot holds it, keeps the slots
sound. -/
theorem sound_set_full (hs : Sound slots) (hi : i < slots.size)
    (only : ∀ {j v}, slots[j]? = some (Slot.full key v) → j = i) (path : OnPath slots key i)
    : Sound (slots.set! i (Slot.full key value)) := by
  have keep : ∀ p, InUse slots p → InUse (slots.set! i (Slot.full key value)) p :=
    fun _ => inUse_set rfl
  have size : (slots.set! i (Slot.full key value)).size = slots.size := Array.size_setIfInBounds
  have cases : ∀ {j k v}, (slots.set! i (Slot.full key value))[j]? = some (Slot.full k v) →
      (j = i ∧ k = key) ∨ (j ≠ i ∧ slots[j]? = some (Slot.full k v)) := by
    intro j k v at_j
    by_cases same : i = j
    · subst same
      rw [getElem?_set_self hi] at at_j
      simp only [Option.some.injEq, Slot.full.injEq] at at_j
      exact Or.inl ⟨rfl, at_j.1.symm⟩
    · rw [getElem?_set_ne same] at at_j
      exact Or.inr ⟨Ne.symm same, at_j⟩
  constructor
  · intro j j' k v v' at_j at_j'
    rcases cases at_j with ⟨ji, hk⟩ | ⟨ne, old⟩ <;>
      rcases cases at_j' with ⟨ji', hk'⟩ | ⟨ne', old'⟩
    · rw [ji, ji']
    · exact absurd (only (hk ▸ old')) ne'
    · exact absurd (only (hk' ▸ old)) ne
    · exact hs.unique old old'
  · intro j k v at_j
    rcases cases at_j with ⟨rfl, rfl⟩ | ⟨_, old⟩
    · exact onPath_mono size keep path
    · exact onPath_mono size keep (hs.onPath old)

omit [DecidableEq κ] in
theorem sound_set_removed (hs : Sound slots) (hi : i < slots.size)
    : Sound (slots.set! i Slot.removed) := by
  have keep : ∀ p, InUse slots p → InUse (slots.set! i Slot.removed) p :=
    fun _ => inUse_set rfl
  have size : (slots.set! i Slot.removed).size = slots.size := Array.size_setIfInBounds
  have old : ∀ {j k v}, (slots.set! i Slot.removed)[j]? = some (Slot.full k v) →
      j ≠ i ∧ slots[j]? = some (Slot.full k v) := by
    intro j k v at_j
    by_cases same : i = j
    · subst same
      rw [getElem?_set_self hi] at at_j
      simp at at_j
    · rw [getElem?_set_ne same] at at_j
      exact ⟨Ne.symm same, at_j⟩
  exact ⟨fun at_j at_j' => hs.unique (old at_j).2 (old at_j').2,
    fun at_j => onPath_mono size keep (hs.onPath (old at_j).2)⟩

end Write

namespace OpenTable

variable {t t' : OpenTable κ} {i : Nat} {key : κ} {value : Int64}

/-- Writing `key` into a slot on its walk that holds no other key, where no other slot holds
`key`, updates the map at `key` only. -/
theorem get_set_full (hs : Sound t.slots) (slots' : t'.slots = t.slots.set! i (Slot.full key value))
    (hi : i < t.slots.size) (only : ∀ {j v}, t.slots[j]? = some (Slot.full key v) → j = i)
    (path : OnPath t.slots key i) (at_i : ∀ {k v}, t.slots[i]? = some (Slot.full k v) → k = key)
    : Sound t'.slots ∧ ∀ k, t'.get k = if k = key then some value else t.get k := by
  have hs' : Sound t'.slots := slots' ▸ sound_set_full hs hi only path
  refine ⟨hs', fun k => get_eq_of_holds hs' fun v => ?_⟩
  rw [slots', holds_set_full hi]
  by_cases same : k = key
  · subst same
    simp only [if_true, Option.some.injEq, true_and]
    constructor
    · rintro (h | ⟨j, ne, at_j⟩)
      · exact h.symm
      · exact absurd (only at_j) ne
    · intro h
      exact Or.inl h.symm
  · rw [if_neg same, get_eq_some_iff hs]
    constructor
    · rintro (⟨h, _⟩ | ⟨j, _, at_j⟩)
      · exact absurd h same
      · exact ⟨j, at_j⟩
    · rintro ⟨j, at_j⟩
      have ne : j ≠ i := by
        rintro rfl
        exact same (at_i at_j)
      exact Or.inr ⟨j, ne, at_j⟩

/-- Marking the slot of `key` removed takes `key` out of the map and nothing else. -/
theorem get_set_removed (hs : Sound t.slots) (slots' : t'.slots = t.slots.set! i Slot.removed)
    {v₀ : Int64} (at_i : t.slots[i]? = some (Slot.full key v₀))
    : Sound t'.slots ∧ ∀ k, t'.get k = if k = key then none else t.get k := by
  have hi := lt_size_of_getElem? at_i
  have hs' : Sound t'.slots := slots' ▸ sound_set_removed hs hi
  refine ⟨hs', fun k => get_eq_of_holds hs' fun v => ?_⟩
  rw [slots']
  by_cases same : k = key
  · subst same
    simp only [if_true, reduceCtorEq, iff_false]
    rintro ⟨j, at_j⟩
    by_cases ji : i = j
    · subst ji
      rw [getElem?_set_self hi] at at_j
      simp at at_j
    · rw [getElem?_set_ne ji] at at_j
      exact ji (hs.unique at_i at_j)
  · rw [if_neg same, get_eq_some_iff hs]
    constructor
    · rintro ⟨j, at_j⟩
      by_cases ji : i = j
      · subst ji
        rw [getElem?_set_self hi] at at_j
        simp at at_j
      · rw [getElem?_set_ne ji] at at_j
        exact ⟨j, at_j⟩
    · rintro ⟨j, at_j⟩
      have ji : i ≠ j := by
        rintro rfl
        rw [at_i] at at_j
        simp only [Option.some.injEq, Slot.full.injEq] at at_j
        exact same at_j.1.symm
      exact ⟨j, by rw [getElem?_set_ne ji]; exact at_j⟩

end OpenTable

-----------------------------------------------------------------------------------------
-- Probing for an insertion
-----------------------------------------------------------------------------------------

section Probe

variable {slots : Array (Slot κ)} {key : κ} {step : Nat}

omit [TableKey κ] in
/-- A probe that finds the key stops at a slot holding it. -/
theorem probeFrom_found : ∀ {s i : Nat} {firstRemoved : Option Nat} {j : Nat},
    OpenTable.probeFrom slots key step s i firstRemoved = some (.found j) →
      ∃ v, slots[j]? = some (Slot.full key v) := by
  intro s
  induction s with
  | zero => intro i fr j h; cases fr <;> simp [OpenTable.probeFrom] at h
  | succ s ih =>
      intro i fr j h
      unfold OpenTable.probeFrom at h
      split at h
      · simp at h
      · simp at h
      · rename_i k v at_i
        split at h
        · rename_i same
          simp only [Option.some.injEq, Probe.found.injEq] at h
          exact ⟨v, h ▸ same ▸ at_i⟩
        · exact ih h
      · exact ih h

omit [TableKey κ] in
/-- A probe that answers a vacant slot has passed no slot holding the key before the walk
leaves slots in use, and answers either the removed slot it remembered or a vacant slot of its
walk behind slots in use. -/
theorem probeFrom_vacant : ∀ {s i : Nat} {firstRemoved : Option Nat} {j : Nat}, i < slots.size →
    OpenTable.probeFrom slots key step s i firstRemoved = some (.vacant j) →
      (∀ n < s, (∀ m < n, InUse slots (walk slots.size step i m)) →
        ∀ v, slots[walk slots.size step i n]? ≠ some (Slot.full key v)) ∧
      (firstRemoved = some j ∨ ∃ n < s, walk slots.size step i n = j ∧ Vacant slots j ∧
        ∀ m < n, InUse slots (walk slots.size step i m)) := by
  intro s
  induction s with
  | zero =>
      intro i fr j _ h
      cases fr <;> simp [OpenTable.probeFrom] at h
      exact ⟨fun n hn => absurd hn (Nat.not_lt_zero n), Or.inl (by rw [h])⟩
  | succ s ih =>
      intro i fr j hi h
      have next : (i + step) % slots.size < slots.size := Nat.mod_lt _ (by omega)
      unfold OpenTable.probeFrom at h
      split at h
      · rename_i at_i
        simp only [Option.some.injEq, Probe.vacant.injEq] at h
        refine ⟨fun n _ before v => ?_, ?_⟩
        · cases n with
          | zero => simp [walk, at_i]
          | succ n =>
              obtain ⟨x, at_x, used⟩ := before 0 (Nat.succ_pos n)
              simp only [walk, at_i, Option.some.injEq] at at_x
              subst at_x
              simp [Slot.isFree] at used
        · cases fr with
          | none =>
              simp only [Option.getD_none] at h
              subst h
              exact Or.inr ⟨0, Nat.succ_pos s, rfl, ⟨_, at_i, rfl⟩, fun m hm => absurd hm (by omega)⟩
          | some r => exact Or.inl (by simpa using h)
      · rename_i at_i
        exact absurd at_i (by simp [hi])
      · rename_i k v at_i
        split at h
        · simp at h
        · rename_i other
          obtain ⟨nokey, found⟩ := ih next h
          refine ⟨fun n hn before v' => ?_, ?_⟩
          · cases n with
            | zero =>
                simp only [walk, at_i, ne_eq, Option.some.injEq, Slot.full.injEq, not_and]
                exact fun same => absurd same other
            | succ n => exact nokey n (by omega) (fun m hm => before (m + 1) (by omega)) v'
          · rcases found with same | ⟨n, hn, at_n, vacant, before⟩
            · exact Or.inl same
            · refine Or.inr ⟨n + 1, by omega, at_n, vacant, fun m hm => ?_⟩
              cases m with
              | zero => exact ⟨_, at_i, rfl⟩
              | succ m => exact before m (by omega)
      · rename_i at_i
        obtain ⟨nokey, found⟩ := ih next h
        refine ⟨fun n hn before v' => ?_, ?_⟩
        · cases n with
          | zero => simp [walk, at_i]
          | succ n => exact nokey n (by omega) (fun m hm => before (m + 1) (by omega)) v'
        · rcases found with same | ⟨n, hn, at_n, vacant, before⟩
          · cases fr with
            | none =>
                simp at same
                subst same
                exact Or.inr ⟨0, Nat.succ_pos s, rfl, ⟨_, at_i, rfl⟩,
                  fun m hm => absurd hm (by omega)⟩
            | some r => exact Or.inl (by simpa using same)
          · refine Or.inr ⟨n + 1, by omega, at_n, vacant, fun m hm => ?_⟩
            cases m with
            | zero => exact ⟨_, at_i, rfl⟩
            | succ m => exact before m (by omega)

omit [TableKey κ] [DecidableEq κ] in
/-- A search for a free slot stops at a free slot of its walk, behind slots in use. -/
theorem freeFrom_some : ∀ {s i j : Nat}, i < slots.size →
    OpenTable.freeFrom slots step s i = some j →
      ∃ n < s, walk slots.size step i n = j ∧ slots[j]? = some Slot.free ∧
        ∀ m < n, InUse slots (walk slots.size step i m) := by
  intro s
  induction s with
  | zero => intro i j _ h; simp [OpenTable.freeFrom] at h
  | succ s ih =>
      intro i j hi h
      unfold OpenTable.freeFrom at h
      split at h
      · rename_i at_i
        obtain rfl := Option.some.inj h
        exact ⟨0, Nat.succ_pos s, rfl, at_i, fun m hm => absurd hm (by omega)⟩
      · rename_i not_free
        obtain ⟨n, hn, at_n, free, before⟩ := ih (Nat.mod_lt _ (by omega)) h
        refine ⟨n + 1, by omega, at_n, free, fun m hm => ?_⟩
        cases m with
        | zero =>
            refine ⟨slots[i], getElem?_pos slots i hi, ?_⟩
            cases at_i : slots[i] with
            | free => exact absurd (by rw [getElem?_pos slots i hi, at_i]) not_free
            | full k v => rfl
            | removed => rfl
        | succ m => exact before m (by omega)

end Probe

-----------------------------------------------------------------------------------------
-- The entries of a table
-----------------------------------------------------------------------------------------

/-- A list whose elements name a value at most once names each value once. -/
theorem nodup_filterMap_of_getElem? {α β : Type} {g : α → Option β} :
    ∀ {l : List α}, (∀ {i j : Nat} {b : β}, l[i]?.bind g = some b → l[j]?.bind g = some b → i = j) →
      (l.filterMap g).Nodup := by
  intro l
  induction l with
  | nil => intro _; exact List.nodup_nil
  | cons a rest ih =>
      intro once
      have tail : (rest.filterMap g).Nodup :=
        ih fun at_i at_j => Nat.succ.inj (once (i := _ + 1) at_i at_j)
      rw [List.filterMap_cons]
      cases named : g a with
      | none => exact tail
      | some b =>
          refine List.nodup_cons.mpr ⟨fun mem => ?_, tail⟩
          obtain ⟨x, x_mem, at_x⟩ := List.mem_filterMap.mp mem
          obtain ⟨j, at_j⟩ := List.mem_iff_getElem?.mp x_mem
          have first : (a :: rest)[0]?.bind g = some b := by simp [named]
          have later : (a :: rest)[j + 1]?.bind g = some b := by simp [at_j, at_x]
          exact absurd (once first later) (by omega)

namespace OpenTable

variable {t t' : OpenTable κ} {key : κ} {value : Int64}

omit [TableKey κ] [DecidableEq κ] in
theorem mem_toList {k : κ} {v : Int64} : (k, v) ∈ t.toList ↔ Holds t.slots k v := by
  simp only [toList, List.mem_filterMap, Array.mem_toList_iff, Array.mem_iff_getElem?, Holds]
  constructor
  · rintro ⟨x, ⟨j, at_j⟩, named⟩
    cases x with
    | full k' v' =>
        simp only [Option.some.injEq, Prod.mk.injEq] at named
        obtain ⟨rfl, rfl⟩ := named
        exact ⟨j, at_j⟩
    | free => simp at named
    | removed => simp at named
  · rintro ⟨j, at_j⟩
    exact ⟨_, ⟨j, at_j⟩, rfl⟩

omit [DecidableEq κ] in
/-- A sound table lists each key once. -/
theorem toList_keys_nodup (hs : Sound t.slots) : (t.toList.map Prod.fst).Nodup := by
  rw [toList, List.map_filterMap]
  refine nodup_filterMap_of_getElem? fun {i j b} at_i at_j => ?_
  simp only [Array.getElem?_toList] at at_i at_j
  cases hi : t.slots[i]? with
  | none => simp [hi] at at_i
  | some x =>
      cases hj : t.slots[j]? with
      | none => simp [hj] at at_j
      | some y =>
          rw [hi] at at_i
          rw [hj] at at_j
          cases x <;> cases y <;> simp at at_i at_j
          subst at_i
          subst at_j
          exact hs.unique hi hj

/-- A probe that answers a vacant slot answers one on the key's walk, in a table that does not
hold the key. -/
theorem probe_vacant (hs : Sound t.slots) {j : Nat} (h : t.probe key = .ok (.vacant j))
    : j < t.slots.size ∧ Vacant t.slots j ∧ OnPath t.slots key j ∧ ∀ v, ¬ Holds t.slots key v := by
  unfold probe at h
  dsimp only at h
  split at h
  · rename_i p found
    simp only [Except.ok.injEq] at h
    subst h
    -- an empty slot array has no walk: the probe would have answered nothing
    have hsize : 0 < t.slots.size := by
      cases size : t.slots.size with
      | zero => simp [capacity, size, probeFrom] at found
      | succ n => omega
    obtain ⟨nokey, vacant⟩ := probeFrom_vacant (Nat.mod_lt _ hsize) found
    rcases vacant with none_some | ⟨n, hn, at_n, vac, before⟩
    · simp at none_some
    · refine ⟨at_n ▸ walk_lt (Nat.mod_lt _ hsize) n, vac, ⟨n, hn, at_n, before⟩, ?_⟩
      rintro v ⟨p, at_p⟩
      obtain ⟨m, hm, walk_m, before_m⟩ := hs.onPath at_p
      have at_walk : t.slots[keyWalk t.slots key m]? = some (Slot.full key v) := by
        rw [walk_m]
        exact at_p
      exact nokey m hm before_m v at_walk
  · simp at h

/-- A probe answers a vacant slot only for a key the table does not hold. -/
theorem get_of_probe_vacant (hs : Sound t.slots) {j : Nat} (h : t.probe key = .ok (.vacant j))
    : t.get key = none :=
  get_eq_of_holds hs fun v => by simp [(probe_vacant hs h).2.2.2 v]

/-- Writing a key into the vacant slot its probe answered keeps the slots sound and changes the
map at that key only. -/
theorem set_vacant (hs : Sound t.slots) {i : Nat} (h : t.probe key = .ok (.vacant i))
    (slots' : t'.slots = t.slots.set! i (Slot.full key value))
    : Sound t'.slots ∧ ∀ k, t'.get k = if k = key then some value else t.get k := by
  obtain ⟨hi, ⟨x, at_i, not_full⟩, path, absent⟩ := probe_vacant hs h
  refine get_set_full hs slots' hi (fun at_j => absurd ⟨_, at_j⟩ (absent _)) path fun at_k => ?_
  rw [at_i] at at_k
  cases Option.some.inj at_k
  simp [Slot.isFull] at not_full

omit [DecidableEq κ] in
/-- Placing an entry the slots do not hold keeps them sound and adds the entry. -/
theorem place_ok {slots slots' : Array (Slot κ)} (hs : Sound slots)
    (absent : ∀ v, ¬ Holds slots key v) (h : place slots key value = .ok slots')
    : Sound slots' ∧ slots'.size = slots.size ∧
        ∀ k v, Holds slots' k v ↔ (k = key ∧ v = value) ∨ Holds slots k v := by
  unfold place at h
  dsimp only at h
  split at h
  · rename_i i found
    simp only [Except.ok.injEq] at h
    subst h
    have hsize : 0 < slots.size := by
      cases size : slots.size with
      | zero => simp [size, freeFrom] at found
      | succ n => omega
    obtain ⟨n, hn, at_n, free, before⟩ := freeFrom_some (Nat.mod_lt _ hsize) found
    have hi := lt_size_of_getElem? free
    refine ⟨sound_set_full hs hi (fun at_j => absurd ⟨_, at_j⟩ (absent _)) ⟨n, hn, at_n, before⟩,
      Array.size_setIfInBounds, fun k v => ?_⟩
    rw [holds_set_full hi]
    constructor
    · rintro (same | ⟨j, _, at_j⟩)
      · exact Or.inl same
      · exact Or.inr ⟨j, at_j⟩
    · rintro (same | ⟨j, at_j⟩)
      · exact Or.inl same
      · refine Or.inr ⟨j, fun ji => ?_, at_j⟩
        subst ji
        rw [free] at at_j
        simp at at_j
  · simp at h

omit [DecidableEq κ] in
/-- Placing entries with distinct keys, none held yet, one after another keeps the slots sound
and adds exactly those entries; the induction follows the list. -/
theorem foldlM_place : ∀ {entries : List (κ × Int64)} {slots slots' : Array (Slot κ)},
    Sound slots → (entries.map Prod.fst).Nodup →
    (∀ e ∈ entries, ∀ v, ¬ Holds slots e.1 v) →
    entries.foldlM (fun s e => place s e.1 e.2) slots = .ok slots' →
      Sound slots' ∧ ∀ k v, Holds slots' k v ↔ (k, v) ∈ entries ∨ Holds slots k v := by
  intro entries
  induction entries with
  | nil =>
      intro slots slots' hs _ _ h
      simp only [List.foldlM_nil, pure, Except.pure, Except.ok.injEq] at h
      subst h
      exact ⟨hs, fun k v => by simp⟩
  | cons e rest ih =>
      intro slots slots' hs nodup fresh h
      obtain ⟨k, v⟩ := e
      rw [List.foldlM_cons] at h
      cases placed : place slots k v with
      | error err => simp [placed, bind, Except.bind] at h
      | ok slots₁ =>
          simp only [placed, bind, Except.bind] at h
          obtain ⟨hs₁, _, holds₁⟩ := place_ok hs (fresh (k, v) (by simp)) placed
          simp only [List.map_cons, List.nodup_cons] at nodup
          have fresh₁ : ∀ e ∈ rest, ∀ v', ¬ Holds slots₁ e.1 v' := by
            intro e mem v' held
            rcases (holds₁ e.1 v').mp held with ⟨same, _⟩ | old
            · have listed : e.1 ∈ rest.map Prod.fst := List.mem_map_of_mem mem
              rw [same] at listed
              exact nodup.1 listed
            · exact fresh e (List.mem_cons_of_mem _ mem) v' old
          obtain ⟨hs', holds'⟩ := ih hs₁ nodup.2 fresh₁ h
          refine ⟨hs', fun k' v' => ?_⟩
          rw [holds', holds₁, List.mem_cons, Prod.mk.injEq]
          exact (or_assoc.trans or_left_comm).symm

omit [TableKey κ] [DecidableEq κ] in
theorem allocate_ok {cap : Nat} {slots : Array (Slot κ)} (h : allocate cap = .ok slots)
    : slots = Array.replicate cap Slot.free := by
  unfold allocate at h
  split at h
  · simp at h
  · split at h
    · simp at h
    · simpa using h.symm

omit [TableKey κ] [DecidableEq κ] in
/-- A slot array whose bytes fit a signed word is made, all free. -/
theorem allocate_of_fits {cap : Nat} (fits : cap * slotWidth < signedLimit)
    : (allocate cap : Except StoreError (Array (Slot κ))) = .ok (Array.replicate cap .free) := by
  have word : cap * slotWidth < wordLimit := Nat.lt_trans fits (by decide)
  simp [allocate, Nat.not_le.mpr word, Nat.not_le.mpr fits]

omit [DecidableEq κ] in
theorem sound_replicate_free (cap : Nat) : Sound (Array.replicate cap (Slot.free : Slot κ)) :=
  ⟨fun at_j => by simp [Array.getElem?_replicate] at at_j,
    fun at_j => by simp [Array.getElem?_replicate] at at_j⟩

omit [TableKey κ] [DecidableEq κ] in
theorem not_holds_replicate_free {cap : Nat} {k : κ} {v : Int64}
    : ¬ Holds (Array.replicate cap Slot.free) k v :=
  fun ⟨_, at_j⟩ => by simp [Array.getElem?_replicate] at at_j

/-- A rebuild keeps the slots sound and holds the same entries. -/
theorem rehash_ok {cap : Nat} (hs : Sound t.slots) (h : t.rehash cap = .ok t')
    : Sound t'.slots ∧ ∀ k, t'.get k = t.get k := by
  unfold rehash at h
  simp only [bind, Except.bind] at h
  split at h
  · simp at h
  · rename_i fresh allocated
    obtain rfl := allocate_ok allocated
    split at h
    · simp at h
    · cases filled : t.toList.foldlM (fun s e => place s e.1 e.2)
          (Array.replicate cap Slot.free) with
      | error err => simp [filled] at h
      | ok slots =>
          simp only [filled, pure, Except.pure, Except.ok.injEq] at h
          subst h
          obtain ⟨hs', holds⟩ := foldlM_place (sound_replicate_free cap) (toList_keys_nodup hs)
            (fun _ _ _ => not_holds_replicate_free) filled
          refine ⟨hs', fun k => get_eq_of_holds hs' fun v => ?_⟩
          rw [holds, mem_toList, get_eq_some_iff hs]
          exact ⟨fun held => held.elim id (absurd · not_holds_replicate_free), Or.inl⟩

-----------------------------------------------------------------------------------------
-- The operations
-----------------------------------------------------------------------------------------

omit [DecidableEq κ] in
/-- Settling a table keeps it or rebuilds it. -/
theorem settle_ok (h : t.settle = .ok t') : t' = t ∨ ∃ cap, t.rehash cap = .ok t' := by
  unfold settle at h
  split at h
  · simp only [bind, Except.bind] at h
    split at h
    · cases h
    · exact .inr ⟨_, h⟩
  · split at h
    · exact .inr ⟨_, h⟩
    · exact .inl (Except.ok.inj h).symm

omit [DecidableEq κ] in
/-- A new entry goes into its slot, and the table may then be rebuilt. -/
theorem occupy_ok {i : Nat} (h : t.occupy i key value = .ok () t')
    : ∃ t₁ : OpenTable κ, t₁.slots = t.slots.set! i (Slot.full key value) ∧
        (t' = t₁ ∨ ∃ cap, t₁.rehash cap = .ok t') := by
  unfold occupy at h
  cases stored : t.storeKey key with
  | error e => simp [stored] at h
  | ok storeBytes =>
      simp only [stored] at h
      split at h
      · rename_i t₂ settled
        cases h
        exact ⟨_, rfl, settle_ok settled⟩
      · cases h

theorem probe_found {j : Nat} (h : t.probe key = .ok (.found j))
    : ∃ v, t.slots[j]? = some (Slot.full key v) := by
  unfold probe at h
  dsimp only at h
  split at h
  · rename_i p found
    simp only [Except.ok.injEq] at h
    subst h
    exact probeFrom_found found
  · simp at h

/-- A successful insertion answers the key's previous value and changes the map at the key
only; the table stays sound through any rebuild it triggers. -/
theorem insert_ok (hs : Sound t.slots) {prev : Option Int64}
    (h : t.insert key value = .ok prev t')
    : Sound t'.slots ∧ prev = t.get key ∧
        ∀ k, t'.get k = if k = key then some value else t.get k := by
  unfold insert at h
  split at h
  · cases h
  · rename_i i probed
    cases h
    obtain ⟨v₀, at_i⟩ := probe_found probed
    have written : ({ t with slots := t.slots.set! i (Slot.full key value) } : OpenTable κ).slots =
        t.slots.set! i (Slot.full key value) := rfl
    obtain ⟨hs', get'⟩ := get_set_full hs written (lt_size_of_getElem? at_i)
      (fun at_j => hs.unique at_j at_i) (hs.onPath at_i)
      (fun at_k => by
        rw [at_i] at at_k
        simp only [Option.some.injEq, Slot.full.injEq] at at_k
        exact at_k.1.symm)
    refine ⟨hs', ?_, get'⟩
    rw [(get_eq_some_iff hs).mpr ⟨i, at_i⟩]
    simp [valueAt, at_i]
  · rename_i i probed
    split at h
    · rename_i t₂ occupied
      cases h
      obtain ⟨t₁, slots₁, rebuilt⟩ := occupy_ok occupied
      obtain ⟨hs₁, get₁⟩ := set_vacant hs probed slots₁
      have none_held := get_of_probe_vacant hs probed
      rcases rebuilt with rfl | ⟨cap, rehashed⟩
      · exact ⟨hs₁, none_held.symm, get₁⟩
      · obtain ⟨hs₂, get₂⟩ := rehash_ok hs₁ rehashed
        exact ⟨hs₂, none_held.symm, fun k => (get₂ k).trans (get₁ k)⟩
    · cases h

/-- Removal answers the key's value and takes the key out of the map, and nothing else. -/
theorem remove_spec (hs : Sound t.slots) (key : κ)
    : Sound (t.remove key).2.slots ∧ (t.remove key).1 = t.get key ∧
        ∀ k, (t.remove key).2.get k = if k = key then none else t.get k := by
  unfold remove
  cases found : t.find key with
  | none =>
      have none_held : t.get key = none := by simp [get, found]
      refine ⟨hs, none_held.symm, fun k => ?_⟩
      by_cases same : k = key
      · rw [if_pos same, same, none_held]
      · rw [if_neg same]
  | some i =>
      obtain ⟨v₀, at_i⟩ := (find_eq_some_iff hs).mp found
      have marked : ({ t with slots := t.slots.set! i Slot.removed, len := t.len - 1,
                              removed := t.removed + 1,
                              deadBytes := t.deadBytes + TableKey.storedSize key } : OpenTable κ).slots =
          t.slots.set! i Slot.removed := rfl
      obtain ⟨hs', get'⟩ := get_set_removed hs marked at_i
      refine ⟨hs', ?_, get'⟩
      simp [get, found]

/-- A new table is sound and empty. -/
theorem create_ok {expected : Nat} {lf : Float} (h : create expected lf = .ok t)
    : Sound t.slots ∧ ∀ k, t.get k = none := by
  unfold create at h
  simp only [bind, Except.bind] at h
  split at h
  · simp at h
  · split at h
    · simp at h
    · split at h
      · simp at h
      · rename_i slots allocated
        obtain rfl := allocate_ok allocated
        simp only [pure, Except.pure, Except.ok.injEq] at h
        subst h
        exact ⟨sound_replicate_free _,
          fun _ => get_eq_of_holds (sound_replicate_free _) fun _ => by
            simp [not_holds_replicate_free]⟩

theorem clear_spec : Sound t.clear.slots ∧ ∀ k, t.clear.get k = none :=
  ⟨sound_replicate_free _, fun _ => get_eq_of_holds (sound_replicate_free _) fun _ =>
    iff_of_false not_holds_replicate_free (by simp)⟩

theorem purge_spec : Sound t.purge.slots ∧ ∀ k, t.purge.get k = none :=
  ⟨sound_replicate_free _, fun _ => get_eq_of_holds (sound_replicate_free _) fun _ =>
    iff_of_false not_holds_replicate_free (by simp)⟩

end OpenTable

-----------------------------------------------------------------------------------------
-- Caches
-----------------------------------------------------------------------------------------

namespace Cache

variable {c c' : Cache κ} {key : κ} {value : Int64}

/-- A cache is sound when its table is. -/
abbrev Sound (c : Cache κ) : Prop := Table.Sound c.table.slots

theorem put_ok (hs : c.Sound) {prev : Option Int64} (h : c.put key value = .ok prev c')
    : c'.Sound ∧ prev = c.get key ∧ ∀ k, c'.get k = if k = key then some value else c.get k := by
  unfold put at h
  split at h
  · rename_i p t inserted
    cases h
    exact OpenTable.insert_ok hs inserted
  · cases h

theorem remove_spec (hs : c.Sound)
    : (c.remove key).2.Sound ∧ ∀ k, (c.remove key).2.get k = if k = key then none else c.get k :=
  let spec := OpenTable.remove_spec hs key
  ⟨spec.1, spec.2.2⟩

/-- Removing a key only while it maps to `expected` changes nothing otherwise. -/
theorem removeIf_spec (hs : c.Sound) (expected : Int64)
    : (c.removeIf key expected).2.Sound ∧
        ∀ k, (c.removeIf key expected).2.get k =
          if k = key ∧ c.get key = some expected then none else c.get k := by
  unfold removeIf
  by_cases holds : c.get key = some expected
  · rw [if_pos holds]
    refine ⟨(remove_spec hs).1, fun k => ?_⟩
    rw [(remove_spec hs).2 k]
    simp only [holds, and_true]
  · rw [if_neg holds]
    exact ⟨hs, fun k => by simp [holds]⟩

theorem create_ok {sizing : Sizing} (h : Cache.create sizing = .ok c)
    : c.Sound ∧ ∀ k, c.get k = none := by
  unfold Cache.create at h
  simp only [bind, Except.bind] at h
  split at h
  · simp at h
  · rename_i t created
    simp only [pure, Except.pure, Except.ok.injEq] at h
    subst h
    exact OpenTable.create_ok created

theorem clear_spec : c.clear.Sound ∧ ∀ k, c.clear.get k = none := OpenTable.clear_spec

theorem purge_spec : c.purge.Sound ∧ ∀ k, c.purge.get k = none := OpenTable.purge_spec

end Cache

namespace CacheSet

/-- Three sound caches. -/
structure Sound (c : CacheSet) : Prop where
  names : c.names.Sound
  opaqueKeys : c.opaqueKeys.Sound
  locations : c.locations.Sound

/-- New caches are sound and empty. -/
theorem create_ok {names keys locations : Sizing} {c : CacheSet}
    (h : CacheSet.create names keys locations = .ok c)
    : c.Sound ∧ (∀ n, c.names.get n = none) ∧ (∀ k, c.opaqueKeys.get k = none) ∧
        ∀ g, c.locations.get g = none := by
  unfold CacheSet.create at h
  simp only [bind, Except.bind] at h
  split at h
  · simp at h
  · split at h
    · simp at h
    · split at h
      · simp at h
      · rename_i n nc _ k kc _ l lc
        simp only [pure, Except.pure, Except.ok.injEq] at h
        subst h
        obtain ⟨ns, ne⟩ := Cache.create_ok nc
        obtain ⟨ks, ke⟩ := Cache.create_ok kc
        obtain ⟨ls, le⟩ := Cache.create_ok lc
        exact ⟨⟨ns, ks, ls⟩, ne, ke, le⟩

end CacheSet

end MetricRegistry.Table
