import MetricRegistry.Proofs.Sizing
import MetricRegistry.Proofs.TableMap

/-! A table's capacity is bounded by the entries it has held at once: after any run, the larger of
the initial capacity and the capacity for twice the peak entry count
(`capacity_bounded_by_peak`), by induction over the operations (`Grown.afterAll`). -/

namespace MetricRegistry.Table

variable {κ : Type} [TableKey κ] [DecidableEq κ]

/-- The state a step leaves, whether it succeeded or failed. -/
def leftBy {ε σ α : Type} : EStateM.Result ε σ α → σ
  | .ok _ s => s
  | .error _ s => s

theorem except_map_eq_ok {ε α β : Type} {x : Except ε α} {f : α → β} {b : β}
    (h : x.map f = .ok b) : ∃ a, x = .ok a ∧ f a = b := by
  cases x with
  | error err => cases h
  | ok a => exact ⟨a, rfl, Except.ok.inj h⟩

namespace OpenTable

/-- The table an operation leaves, whether it succeeds or fails: a failed insertion leaves the
table as its failing step did. -/
def after (t : OpenTable κ) : TableOp κ → OpenTable κ
  | .insert k v => leftBy (t.insert k v)
  | .insertIfAbsent k v => leftBy (t.insertIfAbsent k v)
  | .remove k => (t.remove k).2
  | .clear => t.clear
  | .purge => t.purge
  | .get _ | .contains _ | .find _ | .iter | .len => t

/-- The table a run of operations leaves, each applied to what the one before left. -/
def afterAll (t : OpenTable κ) (ops : List (TableOp κ)) : OpenTable κ := ops.foldl after t

/-- The largest entry count a run reaches, the table it starts from included. -/
def peakLen (t : OpenTable κ) : List (TableOp κ) → Nat
  | [] => t.len
  | op :: ops => max t.len ((t.after op).peakLen ops)

variable {t t' : OpenTable κ}

-----------------------------------------------------------------------------------------
-- Counting entries
-----------------------------------------------------------------------------------------

omit [TableKey κ] [DecidableEq κ] in
theorem length_toList_eq_countP : t.toList.length = t.slots.toList.countP Slot.isFull := by
  unfold toList
  rw [List.length_filterMap_eq_countP]
  congr 1
  funext x
  cases x <;> rfl

omit [TableKey κ] [DecidableEq κ] in
/-- Writing one slot changes the entry count by what the slot held and what it now holds. -/
theorem length_toList_set {i : Nat} {x y : Slot κ} (at_i : t.slots[i]? = some x)
    (slots : t'.slots = t.slots.set! i y)
    : t'.toList.length + (if x.isFull then 1 else 0) =
        t.toList.length + (if y.isFull then 1 else 0) := by
  have lt : i < t.slots.toList.length := by simpa using lt_size_of_getElem? at_i
  have held : t.slots.toList[i] = x := by
    obtain ⟨_, at_i'⟩ := Array.getElem?_eq_some_iff.mp at_i
    simpa using at_i'
  rw [length_toList_eq_countP, length_toList_eq_countP, slots, Array.set!_eq_setIfInBounds,
    Array.toList_setIfInBounds, List.countP_set lt, held]
  have counted : (if x.isFull then 1 else 0) ≤ t.slots.toList.countP Slot.isFull := by
    split
    · exact List.countP_pos_iff.mpr ⟨x, held ▸ List.getElem_mem lt, by assumption⟩
    · exact Nat.zero_le _
  omega

/-- Two sound tables that answer alike list the same number of entries. -/
theorem length_toList_of_get (hs : Sound t.slots) (hs' : Sound t'.slots)
    (same : ∀ k, t'.get k = t.get k) : t'.toList.length = t.toList.length := by
  have nodup : ∀ {u : OpenTable κ}, Sound u.slots → u.toList.Nodup := fun sound =>
    (toList_keys_nodup sound).of_map _
  apply List.Perm.length_eq
  refine (List.perm_ext_iff_of_nodup (nodup hs') (nodup hs)).mpr fun ⟨k, v⟩ => ?_
  rw [mem_toList, mem_toList, ← get_eq_some_iff hs', ← get_eq_some_iff hs, same]

-----------------------------------------------------------------------------------------
-- Rebuilding and settling
-----------------------------------------------------------------------------------------

omit [DecidableEq κ] in
theorem foldlM_place_size : ∀ {entries : List (κ × Int64)} {slots slots' : Array (Slot κ)},
    entries.foldlM (fun s e => place s e.1 e.2) slots = .ok slots' →
      slots'.size = slots.size := by
  intro entries
  induction entries with
  | nil =>
      intro slots slots' h
      simp only [List.foldlM_nil, pure, Except.pure, Except.ok.injEq] at h
      rw [h]
  | cons e rest ih =>
      intro slots slots' h
      rw [List.foldlM_cons] at h
      cases placed : place slots e.1 e.2 with
      | error err => simp [placed, bind, Except.bind] at h
      | ok slots₁ =>
          simp only [placed, bind, Except.bind] at h
          rw [ih h]
          unfold place at placed
          dsimp only at placed
          split at placed
          · simp only [Except.ok.injEq] at placed
            rw [← placed, Array.set!_eq_setIfInBounds, Array.size_setIfInBounds]
          · simp at placed

omit [DecidableEq κ] in
/-- A rebuild takes the capacity and fill limit it was asked for, in an addressable slot array,
and keeps the entry count, the load factor and the initial capacity. -/
theorem rehash_fields {cap : Nat} (h : t.rehash cap = .ok t')
    : t'.capacity = cap ∧ cap * slotWidth < signedLimit ∧ t'.len = t.len ∧
        t'.loadFactor = t.loadFactor ∧ t'.initialCapacity = t.initialCapacity ∧
        t'.maxFill = Table.maxFill cap t.loadFactor := by
  unfold rehash at h
  simp only [bind, Except.bind] at h
  split at h
  · simp at h
  · rename_i fresh allocated
    have addressable := allocate_addressable allocated
    obtain rfl := allocate_ok allocated
    split at h
    · simp at h
    · cases filled : t.toList.foldlM (fun s e => place s e.1 e.2)
          (Array.replicate cap Slot.free) with
      | error err => simp [filled] at h
      | ok slots =>
          simp only [filled, pure, Except.pure, Except.ok.injEq] at h
          subst h
          have size := foldlM_place_size filled
          rw [Array.size_replicate] at size
          exact ⟨size, addressable, rfl, rfl, rfl, rfl⟩

theorem mapError_eq_ok {ε ε' α : Type} {e : Except ε α} {f : ε → ε'} {a : α}
    (h : e.mapError f = .ok a) : e = .ok a := by
  cases e with
  | error err => simp [Except.mapError] at h
  | ok a' =>
      simp only [Except.mapError, Except.ok.injEq] at h
      rw [h]

omit [DecidableEq κ] in
/-- Settling keeps a table, or rebuilds it into its own capacity, or into the capacity computed
for one more entry than it holds or for twice its entries. -/
theorem settle_cases (h : t.settle = .ok t')
    : t' = t ∨ ∃ cap, t.rehash cap = .ok t' ∧ (cap = t.capacity ∨
        ∃ n, (n = t.len + 1 ∨ n = t.len * 2) ∧ capacityFor n t.loadFactor = .ok cap) := by
  unfold settle at h
  split at h
  · simp only [bind, Except.bind] at h
    split at h
    · simp at h
    · rename_i cap computed
      refine Or.inr ⟨cap, h, Or.inr ?_⟩
      split at computed
      · exact ⟨_, Or.inl rfl, mapError_eq_ok computed⟩
      · exact ⟨_, Or.inr rfl, mapError_eq_ok computed⟩
  · split at h
    · exact Or.inr ⟨_, h, Or.inl rfl⟩
    · exact Or.inl (Except.ok.inj h).symm

-----------------------------------------------------------------------------------------
-- One operation
-----------------------------------------------------------------------------------------

/-- What every table a run reaches keeps: sound slots, an entry count that is the number of full
slots, and the sizing facts. -/
structure Counted (t : OpenTable κ) : Prop where
  sound : Sound t.slots
  len_eq : t.len = t.toList.length
  sized : t.Sized

omit [DecidableEq κ] in
theorem Counted.len_le_capacity (hc : t.Counted) : t.len ≤ t.capacity := by
  rw [hc.len_eq, length_toList_eq_countP]
  exact List.countP_le_length.trans (by simp [capacity])

omit [DecidableEq κ] in
/-- Twice the entry count of a counted table is a word, as its slot array is addressable. -/
theorem Counted.twice_len_lt (hc : t.Counted) : 2 * t.len < wordLimit := by
  have within := hc.len_le_capacity
  have addressable := hc.sized.capacity.addressable
  have signed : signedLimit < wordLimit := by decide
  unfold slotWidth at addressable
  omega

/-- A rebuild of a counted table into a usable capacity is counted. -/
theorem Counted.rehash (hc : t.Counted) {cap : Nat} (usable : Usable cap)
    (h : t.rehash cap = .ok t') : t'.Counted := by
  obtain ⟨size, -, len, -, initial, fill⟩ := rehash_fields h
  obtain ⟨hs', get'⟩ := rehash_ok hc.sound h
  refine ⟨hs', ?_, ⟨size ▸ usable, initial ▸ hc.sized.initial, ?_⟩⟩
  · rw [len, hc.len_eq, length_toList_of_get hc.sound hs' get']
  · rw [fill, size]
    exact maxFill_lt usable.prime.pos _

/-- What one operation does to a counted table: the table it leaves is counted, with the same
load factor and initial capacity, and with the capacity it had, the initial capacity, or one
computed at the load factor for at most twice its entry count. -/
structure StepBound (t t' : OpenTable κ) : Prop where
  counted : t'.Counted
  loadFactor : t'.loadFactor = t.loadFactor
  initial : t'.initialCapacity = t.initialCapacity
  capacity : t'.capacity = t.capacity ∨ t'.capacity = t.initialCapacity ∨
    ∃ n ≤ 2 * t'.len, capacityFor n t.loadFactor = .ok t'.capacity

omit [DecidableEq κ] in
theorem StepBound.refl (hc : t.Counted) : StepBound t t := ⟨hc, rfl, rfl, Or.inl rfl⟩

omit [DecidableEq κ] in
/-- A step that keeps the capacity, followed by any step. -/
theorem StepBound.trans {t₁ : OpenTable κ} (first : StepBound t t₁)
    (same : t₁.capacity = t.capacity) (second : StepBound t₁ t') : StepBound t t' := by
  refine ⟨second.counted, second.loadFactor.trans first.loadFactor,
    second.initial.trans first.initial, ?_⟩
  rcases second.capacity with kept | reset | ⟨n, within, computed⟩
  · exact Or.inl (kept.trans same)
  · exact Or.inr (Or.inl (reset.trans first.initial))
  · exact Or.inr (Or.inr ⟨n, within, first.loadFactor ▸ computed⟩)

/-- Settling a counted table that holds an entry: it is kept, rebuilt into its own capacity, or
grown into the capacity for one more entry than it holds or for twice its entries, both at most
twice its entries. -/
theorem Counted.settle (hc : t.Counted) (pos : 1 ≤ t.len) (h : t.settle = .ok t')
    : StepBound t t' := by
  rcases settle_cases h with rfl | ⟨cap, rebuilt, target⟩
  · exact .refl hc
  obtain ⟨size, addressable, len, loadFactor, initial, -⟩ := rehash_fields rebuilt
  rcases target with rfl | ⟨n, grown, computed⟩
  · exact ⟨hc.rehash hc.sized.capacity rebuilt, loadFactor, initial, Or.inl size⟩
  · obtain ⟨prime, big⟩ := capacityFor_spec computed
    refine ⟨hc.rehash ⟨prime, big, addressable⟩ rebuilt, loadFactor, initial,
      Or.inr (Or.inr ⟨n, ?_, size ▸ computed⟩)⟩
    rw [len]
    omega

/-- A new entry written into the vacant slot its probe answered, then settled: the written table
is counted with one more entry and the same capacity, and settling it keeps the bound. -/
theorem Counted.settle_written (hc : t.Counted) {i : Nat} {key : κ} {value : Int64}
    (probed : t.probe key = .ok (.vacant i)) {t₁ : OpenTable κ}
    (slots : t₁.slots = t.slots.set! i (.full key value)) (len : t₁.len = t.len + 1)
    (loadFactor : t₁.loadFactor = t.loadFactor)
    (initial : t₁.initialCapacity = t.initialCapacity)
    (fill : t₁.maxFill = t.maxFill)
    : StepBound t t₁ ∧ ∀ t', t₁.settle = .ok t' → StepBound t t' := by
  obtain ⟨-, ⟨x, at_i, vacant⟩, -, -⟩ := probe_vacant hc.sound probed
  have counted := length_toList_set at_i slots
  have full : (Slot.full key value).isFull = true := rfl
  simp only [vacant, full, Bool.false_eq_true, if_false, if_true] at counted
  have same : t₁.capacity = t.capacity := by
    rw [capacity, capacity, slots, Array.set!_eq_setIfInBounds, Array.size_setIfInBounds]
  have written : t₁.Counted :=
    ⟨(set_vacant hc.sound probed slots).1, by rw [len, hc.len_eq]; omega,
      hc.sized.of_set slots initial fill⟩
  have first : StepBound t t₁ := ⟨written, loadFactor, initial, Or.inl same⟩
  exact ⟨first, fun _ settled => first.trans same (written.settle (by omega) settled)⟩

/-- An insertion into the vacant slot its probe answered stops at the key store, or writes the
entry and settles, keeping the bound either way. -/
theorem Counted.occupy (hc : t.Counted) {i : Nat} {key : κ} {value : Int64}
    (probed : t.probe key = .ok (.vacant i)) : StepBound t (leftBy (t.occupy i key value)) := by
  unfold OpenTable.occupy
  cases t.storeKey key with
  | error e => exact .refl hc
  | ok storeBytes =>
      dsimp only
      split
      · rename_i t' settled
        exact (hc.settle_written probed (by rfl) (by rfl) (by rfl) (by rfl) (by rfl)).2 _ settled
      · exact (hc.settle_written probed (by rfl) (by rfl) (by rfl) (by rfl) (by rfl)).1

omit [DecidableEq κ] in
/-- Overwriting the value in the slot that holds the key keeps a table counted, with the same
entries and capacity. -/
theorem Counted.overwrite (hc : t.Counted) {i : Nat} {key : κ} {v₀ value : Int64}
    (at_i : t.slots[i]? = some (.full key v₀)) {t₁ : OpenTable κ}
    (slots : t₁.slots = t.slots.set! i (.full key value)) (len : t₁.len = t.len)
    (loadFactor : t₁.loadFactor = t.loadFactor)
    (initial : t₁.initialCapacity = t.initialCapacity)
    (fill : t₁.maxFill = t.maxFill) (sound : Sound t₁.slots) : StepBound t t₁ := by
  have counted := length_toList_set at_i slots
  have same : t₁.capacity = t.capacity := by
    rw [capacity, capacity, slots, Array.set!_eq_setIfInBounds, Array.size_setIfInBounds]
  refine ⟨⟨sound, ?_, hc.sized.of_set slots initial fill⟩, loadFactor, initial, Or.inl same⟩
  have full : ∀ v, (Slot.full key v).isFull = true := fun _ => rfl
  simp only [full, if_true] at counted
  rw [len, hc.len_eq]
  omega

theorem Counted.insert (hc : t.Counted) (key : κ) (value : Int64)
    : StepBound t (leftBy (t.insert key value)) := by
  unfold OpenTable.insert
  split
  · exact .refl hc
  · rename_i i probed
    obtain ⟨v₀, at_i⟩ := probe_found probed
    have inserted : t.insert key value =
        .ok (t.valueAt i) { t with slots := t.slots.set! i (.full key value) } := by
      unfold OpenTable.insert
      rw [probed]
    exact hc.overwrite at_i (by rfl) (by rfl) (by rfl) (by rfl) (by rfl)
      (insert_ok hc.sound inserted).1
  · rename_i i probed
    have occupied : StepBound t (leftBy (t.occupy i key value)) := hc.occupy probed
    split
    · rename_i t' h
      rwa [h] at occupied
    · rename_i e t' h
      rwa [h] at occupied

theorem Counted.insertIfAbsent (hc : t.Counted) (key : κ) (value : Int64)
    : StepBound t (leftBy (t.insertIfAbsent key value)) := by
  unfold OpenTable.insertIfAbsent
  split
  · exact .refl hc
  · exact .refl hc
  · rename_i i probed
    have occupied : StepBound t (leftBy (t.occupy i key value)) := hc.occupy probed
    split
    · rename_i t' h
      rwa [h] at occupied
    · rename_i e t' h
      rwa [h] at occupied

/-- A removal marks the key's slot removed, one entry fewer, or changes nothing. -/
theorem Counted.remove (hc : t.Counted) (key : κ) : StepBound t (t.remove key).2 := by
  cases found : t.find key with
  | none =>
      have same : (t.remove key).2 = t := by simp [OpenTable.remove, found]
      rw [same]
      exact .refl hc
  | some i =>
      obtain ⟨v₀, at_i⟩ := (find_eq_some_iff hc.sound).mp found
      have slots : (t.remove key).2.slots = t.slots.set! i .removed := by
        simp [OpenTable.remove, found]
      have counted := length_toList_set at_i slots
      have full : (Slot.full key v₀).isFull = true := rfl
      have marked : (Slot.removed : Slot κ).isFull = false := rfl
      simp only [full, marked, if_true, Bool.false_eq_true, if_false] at counted
      have same : (t.remove key).2.capacity = t.capacity := by
        rw [capacity, capacity, slots, Array.set!_eq_setIfInBounds, Array.size_setIfInBounds]
      refine ⟨⟨(remove_spec hc.sound key).1, ?_, hc.sized.of_set slots ?_ ?_⟩, ?_, ?_,
        Or.inl same⟩
      · have len : (t.remove key).2.len = t.len - 1 := by simp [OpenTable.remove, found]
        rw [len, hc.len_eq]
        omega
      all_goals simp [OpenTable.remove, found]

omit [TableKey κ] [DecidableEq κ] in
theorem length_toList_replicate (n : Nat) (t : OpenTable κ)
    (slots : t.slots = Array.replicate n Slot.free) : t.toList.length = 0 := by
  rw [length_toList_eq_countP, slots, Array.toList_replicate, List.countP_replicate]
  rfl

theorem Counted.clear (hc : t.Counted) : StepBound t t.clear := by
  have size : t.clear.capacity = t.capacity := Array.size_replicate
  exact ⟨⟨clear_spec.1, (length_toList_replicate _ _ rfl).symm,
    ⟨size ▸ hc.sized.capacity, hc.sized.initial, size ▸ hc.sized.fill⟩⟩, rfl, rfl,
    Or.inl size⟩

theorem Counted.purge (hc : t.Counted) : StepBound t t.purge := by
  have size : t.purge.capacity = t.initialCapacity := Array.size_replicate
  exact ⟨⟨purge_spec.1, (length_toList_replicate _ _ rfl).symm,
    ⟨size ▸ hc.sized.initial, hc.sized.initial,
      size ▸ maxFill_lt hc.sized.initial.prime.pos _⟩⟩, rfl, rfl, Or.inr (Or.inl size)⟩

/-- Every operation keeps a table counted and moves its capacity only within the bound. -/
theorem Counted.after (hc : t.Counted) (op : TableOp κ) : StepBound t (t.after op) := by
  cases op with
  | insert k v => exact hc.insert k v
  | insertIfAbsent k v => exact hc.insertIfAbsent k v
  | remove k => exact hc.remove k
  | clear => exact hc.clear
  | purge => exact hc.purge
  | get _ | contains _ | find _ | iter | len => exact .refl hc

-----------------------------------------------------------------------------------------
-- Runs
-----------------------------------------------------------------------------------------

theorem le_peakLen (t : OpenTable κ) (ops : List (TableOp κ)) : t.len ≤ t.peakLen ops := by
  cases ops with
  | nil => exact le_rfl
  | cons op ops => exact le_max_left _ _

/-- What a run from `t₀` keeps, with `peak` the largest entry count so far: the table is
counted, with the starting load factor and initial capacity, and its capacity is the initial
one or one computed for at most twice `peak` entries, twice `peak` being a word. -/
structure Grown (t₀ t : OpenTable κ) (peak : Nat) : Prop where
  counted : t.Counted
  loadFactor : t.loadFactor = t₀.loadFactor
  initial : t.initialCapacity = t₀.initialCapacity
  len_le : t.len ≤ peak
  small : 2 * peak < wordLimit
  capacity : t.capacity = t₀.initialCapacity ∨
    ∃ n ≤ 2 * peak, capacityFor n t₀.loadFactor = .ok t.capacity

variable {t₀ : OpenTable κ} {peak : Nat}

theorem Grown.after (h : Grown t₀ t peak) (op : TableOp κ)
    : Grown t₀ (t.after op) (max peak (t.after op).len) := by
  obtain ⟨counted, loadFactor, initial, capacity⟩ := h.counted.after op
  have small := counted.twice_len_lt
  refine ⟨counted, loadFactor.trans h.loadFactor, initial.trans h.initial, le_max_right _ _,
    by have := h.small; omega, ?_⟩
  rcases capacity with kept | reset | ⟨n, within, computed⟩
  · rcases h.capacity with start | ⟨n, within, computed⟩
    · exact Or.inl (kept.trans start)
    · exact Or.inr ⟨n, by omega, kept ▸ computed⟩
  · exact Or.inl (reset.trans h.initial)
  · exact Or.inr ⟨n, by omega, h.loadFactor ▸ computed⟩

/-- A run keeps the bound at the largest entry count it reaches; the induction follows the
operations, the peak so far growing with each table left. -/
theorem Grown.afterAll : ∀ (ops : List (TableOp κ)) {t : OpenTable κ} {peak : Nat},
    Grown t₀ t peak → Grown t₀ (t.afterAll ops) (max peak (t.peakLen ops)) := by
  intro ops
  induction ops with
  | nil =>
      intro t peak h
      show Grown t₀ t (max peak t.len)
      rwa [max_eq_left h.len_le]
  | cons op ops ih =>
      intro t peak h
      have next := ih (h.after op)
      have peaks : max (max peak (t.after op).len) ((t.after op).peakLen ops) =
          max peak (t.peakLen (op :: ops)) := by
        have := le_peakLen (t.after op) ops
        have := h.len_le
        simp only [peakLen]
        omega
      rw [peaks] at next
      exact next

omit [TableKey κ] [DecidableEq κ] in
/-- A new table has its initial capacity. -/
theorem create_capacity {expected : Nat} {lf : Float} (h : create expected lf = .ok t)
    : t.capacity = t.initialCapacity := by
  unfold create at h
  simp only [bind, Except.bind] at h
  split at h
  · simp at h
  · split at h
    · simp at h
    · split at h
      · simp at h
      · rename_i slots allocated
        obtain rfl := allocate_ok allocated
        simp only [pure, Except.pure, Except.ok.injEq] at h
        subst h
        exact Array.size_replicate

/-- A new table starts a run: it is counted, with no entries and its initial capacity. -/
theorem create_grown {expected : Nat} {lf : Float} (h : create expected lf = .ok t)
    : Grown t t 0 := by
  obtain ⟨refines, -, len, -⟩ := create_refines h
  have listed := refines.length_toList
  rw [Finmap.keys_empty, Finset.card_empty] at listed
  exact ⟨⟨refines.sound, len.trans listed.symm, refines.sized⟩, rfl, rfl, len.le,
    by unfold wordLimit; omega, Or.inl (create_capacity h)⟩

end OpenTable

/-- A table's capacity is bounded by the entries it has held at once, not by its history. From a
new table, after any run of insertions, insertions if absent, removals, clears, purges and
lookups, in any order and each succeeding or failing, the capacity is at most the larger of the
initial capacity and the capacity computed for twice the largest entry count the run reached.
So churn over at most `P` live keys never grows the table past that bound, however long it
runs; as every prefix of a run is a run, the bound holds at every step. A purge returns the table
to its initial capacity. -/
theorem capacity_bounded_by_peak (expected : Nat) (lf : Float) (ops : List (TableOp κ))
    : match (OpenTable.create expected lf : Except StoreError (OpenTable κ)) with
      | .ok t => (∀ c, capacityFor (2 * t.peakLen ops) lf = .ok c →
          (t.afterAll ops).capacity ≤ max t.capacity c) ∧
          (t.afterAll ops).purge.capacity = t.capacity
      | .error _ => True := by
  split
  · rename_i t created
    have run := (OpenTable.create_grown created).afterAll ops
    rw [Nat.zero_max] at run
    have loadFactor := (OpenTable.create_refines created).2.1
    have initial := OpenTable.create_capacity created
    refine ⟨fun c bound => ?_, ?_⟩
    · rcases run.capacity with start | ⟨n, within, computed⟩
      · rw [start, ← initial]
        exact le_max_left _ _
      · rw [loadFactor] at computed
        exact (capacityFor_mono lf computed bound within run.small).trans (le_max_right _ _)
    · have purged : (t.afterAll ops).purge.capacity = (t.afterAll ops).initialCapacity :=
        Array.size_replicate
      rw [purged, run.initial, initial]
  · trivial

/-- Churn that holds at most three keys at once, ending in a purge. -/
def churn : List (TableOp String) :=
  [.insert "a" 1, .insert "b" 2, .remove "a", .insert "c" 3, .insert "d" 4, .purge]

/-- `churn` from the least capacity peaks at three keys; the capacity it reaches stays within
the one computed for twice that peak, and the purge restores the first. -/
theorem capacity_bounded_by_peak_sample
    : ∃ t c, (OpenTable.create 0 0.5 : Except StoreError (OpenTable String)) = .ok t ∧
      capacityFor (2 * t.peakLen churn) 0.5 = .ok c ∧
      (t.afterAll churn).capacity ≤ max t.capacity c ∧
      (t.afterAll churn).purge.capacity = t.capacity := by
  have sized : ((OpenTable.create 0 0.5 : Except StoreError (OpenTable String)).map fun t =>
      capacityFor (2 * t.peakLen churn) 0.5) = .ok (.ok 13) := by
    decide +kernel
  obtain ⟨t, created, sized⟩ := except_map_eq_ok sized
  have bounded := capacity_bounded_by_peak 0 0.5 churn
  rw [created] at bounded
  exact ⟨t, 13, created, sized, bounded.1 13 sized, bounded.2⟩

end MetricRegistry.Table
