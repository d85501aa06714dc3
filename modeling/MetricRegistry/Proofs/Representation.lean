import MetricRegistry.Proofs.Growth

/-! The representation invariant of a table, kept by every run, failed operations included
(`afterAll_represented`); the fill bound is not among its facts, as a refused rebuild leaves a
table past its limit. -/

namespace MetricRegistry.Table

variable {κ : Type}

/-- A slot whose key was removed. -/
def Slot.isRemoved : Slot κ → Bool
  | .removed => true
  | _ => false

/-- Key-store bytes a slot holds for a live key. -/
def Slot.liveSize [TableKey κ] : Slot κ → Nat
  | .full k _ => TableKey.storedSize k
  | _ => 0

/-- Removed slots of a slot array. -/
def removedCount (slots : Array (Slot κ)) : Nat := slots.toList.countP Slot.isRemoved

/-- Key-store bytes of the live keys of a slot array. -/
def slotBytes [TableKey κ] (slots : Array (Slot κ)) : Nat := (slots.toList.map Slot.liveSize).sum

-----------------------------------------------------------------------------------------
-- Counting over slots
-----------------------------------------------------------------------------------------

/-- Writing one element changes a sum over a list by what the element was and what it is now. -/
theorem sum_map_set {α : Type} (f : α → Nat) (y : α)
    : ∀ {l : List α} {i : Nat} {x : α}, l[i]? = some x →
        ((l.set i y).map f).sum + f x = (l.map f).sum + f y
  | [], _, _, h => by simp at h
  | a :: l, 0, x, h => by
      simp only [List.getElem?_cons_zero, Option.some.injEq] at h
      subst h
      simp only [List.set_cons_zero, List.map_cons, List.sum_cons]
      omega
  | a :: l, i + 1, x, h => by
      simp only [List.getElem?_cons_succ] at h
      have := sum_map_set f y h
      simp only [List.set_cons_succ, List.map_cons, List.sum_cons]
      omega

/-- Writing one slot changes a count over the slots by what the slot held and what it now
holds. -/
theorem countP_set! {p : Slot κ → Bool} {slots : Array (Slot κ)} {i : Nat} {x : Slot κ}
    (y : Slot κ) (at_i : slots[i]? = some x)
    : (slots.set! i y).toList.countP p + (if p x then 1 else 0) =
        slots.toList.countP p + (if p y then 1 else 0) := by
  have lt : i < slots.toList.length := by simpa using lt_size_of_getElem? at_i
  have held : slots.toList[i] = x := by
    obtain ⟨_, at_i'⟩ := Array.getElem?_eq_some_iff.mp at_i
    simpa using at_i'
  rw [Array.set!_eq_setIfInBounds, Array.toList_setIfInBounds, List.countP_set lt, held]
  have counted : (if p x then 1 else 0) ≤ slots.toList.countP p := by
    split
    · exact List.countP_pos_iff.mpr ⟨x, held ▸ List.getElem_mem lt, by assumption⟩
    · exact Nat.zero_le _
  omega

theorem removedCount_set {slots : Array (Slot κ)} {i : Nat} {x : Slot κ} (y : Slot κ)
    (at_i : slots[i]? = some x)
    : removedCount (slots.set! i y) + (if x.isRemoved then 1 else 0) =
        removedCount slots + (if y.isRemoved then 1 else 0) :=
  countP_set! y at_i

/-- Writing one slot changes the live bytes of the slots by what the slot held and what it now
holds. -/
theorem slotBytes_set [TableKey κ] {slots : Array (Slot κ)} {i : Nat} {x : Slot κ} (y : Slot κ)
    (at_i : slots[i]? = some x) : slotBytes (slots.set! i y) + x.liveSize = slotBytes slots + y.liveSize := by
  unfold slotBytes
  rw [Array.set!_eq_setIfInBounds, Array.toList_setIfInBounds]
  exact sum_map_set _ _ (by simpa using at_i)

theorem slotBytes_replicate [TableKey κ] (n : Nat) : slotBytes (Array.replicate n (Slot.free : Slot κ)) = 0 := by
  simp [slotBytes, Slot.liveSize]

theorem removedCount_replicate (n : Nat) : removedCount (Array.replicate n (Slot.free : Slot κ)) = 0 := by
  simp [removedCount, List.countP_replicate, Slot.isRemoved]

namespace OpenTable

variable [TableKey κ] {t t' : OpenTable κ}

/-- The live bytes of a table are the live bytes of its slots. -/
theorem liveBytes_eq_slotBytes (t : OpenTable κ) : t.liveBytes = slotBytes t.slots := by
  unfold liveBytes toList slotBytes
  generalize t.slots.toList = l
  induction l with
  | nil => rfl
  | cons x l ih => cases x <;> simp [Slot.liveSize, ih]

variable [DecidableEq κ]

/-- Two sound tables that answer alike list the same entries, up to order. -/
theorem toList_perm_of_get (hs : Sound t.slots) (hs' : Sound t'.slots)
    (same : ∀ k, t'.get k = t.get k) : t'.toList.Perm t.toList := by
  have nodup : ∀ {u : OpenTable κ}, Sound u.slots → u.toList.Nodup := fun sound =>
    (toList_keys_nodup sound).of_map _
  refine (List.perm_ext_iff_of_nodup (nodup hs') (nodup hs)).mpr fun e => ?_
  obtain ⟨k, v⟩ := e
  rw [mem_toList, mem_toList, ← get_eq_some_iff hs', ← get_eq_some_iff hs, same]

theorem liveBytes_of_get (hs : Sound t.slots) (hs' : Sound t'.slots)
    (same : ∀ k, t'.get k = t.get k) : t'.liveBytes = t.liveBytes :=
  ((toList_perm_of_get hs hs' same).map _).sum_eq

end OpenTable

-----------------------------------------------------------------------------------------
-- What one operation can do
-----------------------------------------------------------------------------------------

namespace OpenTable

section Written

variable {t : OpenTable κ} {i : Nat} {key : κ} {value : Int64} {storeBytes : Nat}

/-- The table an insertion into the vacant slot `i` writes before it settles: the new entry in
its slot, the key store grown to `storeBytes`, one entry more, and one removed slot fewer when
the slot had been removed. -/
def written (t : OpenTable κ) (i : Nat) (key : κ) (value : Int64) (storeBytes : Nat) :
    OpenTable κ :=
  let wasFree := match t.slots[i]? with
    | some .free => true
    | _ => false
  { t with slots := t.slots.set! i (.full key value), storeBytes, len := t.len + 1,
           removed := if wasFree then t.removed else t.removed - 1 }

@[simp] theorem written_slots
    : (t.written i key value storeBytes).slots = t.slots.set! i (.full key value) := rfl

@[simp] theorem written_storeBytes : (t.written i key value storeBytes).storeBytes = storeBytes :=
  rfl

@[simp] theorem written_deadBytes : (t.written i key value storeBytes).deadBytes = t.deadBytes :=
  rfl

theorem written_removed_of_free (at_i : t.slots[i]? = some .free)
    : (t.written i key value storeBytes).removed = t.removed := by
  simp [written, at_i]

theorem written_removed_of_removed (at_i : t.slots[i]? = some .removed)
    : (t.written i key value storeBytes).removed = t.removed - 1 := by
  simp [written, at_i]

end Written

variable [TableKey κ] {t t' : OpenTable κ}

theorem occupy_eq [DecidableEq κ] (t : OpenTable κ) (i : Nat) (key : κ) (value : Int64)
    : t.occupy i key value = match t.storeKey key with
        | .error e => .error e t
        | .ok storeBytes =>
          match (t.written i key value storeBytes).settle with
          | .ok t' => .ok () t'
          | .error e => .error e (t.written i key value storeBytes) := rfl

/-- The key store takes a key within the 4 GiB limit, growing by the key's bytes. -/
theorem storeKey_ok {key : κ} {storeBytes : Nat} (h : t.storeKey key = .ok storeBytes)
    : storeBytes = t.storeBytes + TableKey.storedSize key ∧ storeBytes ≤ storeLimit := by
  unfold storeKey at h
  dsimp only at h
  split_ifs at h with first second third
  cases h
  exact ⟨rfl, by omega⟩

/-- A placement writes a full slot over a free one, so it adds no removed slot. -/
theorem place_removedCount {slots slots' : Array (Slot κ)} {key : κ} {value : Int64}
    (h : place slots key value = .ok slots') : removedCount slots' = removedCount slots := by
  unfold place at h
  dsimp only at h
  split at h
  · rename_i i found
    have size : 0 < slots.size := by
      cases size : slots.size with
      | zero => simp [size, freeFrom] at found
      | succ n => omega
    obtain ⟨-, -, -, at_i, -⟩ := freeFrom_some (Nat.mod_lt _ size) found
    cases h
    have counted := removedCount_set (.full key value) at_i
    simpa [Slot.isRemoved] using counted
  · cases h

theorem foldlM_place_removedCount : ∀ {entries : List (κ × Int64)} {slots slots' : Array (Slot κ)},
    entries.foldlM (fun s e => place s e.1 e.2) slots = .ok slots' →
      removedCount slots' = removedCount slots := by
  intro entries
  induction entries with
  | nil =>
      intro slots slots' h
      cases h
      rfl
  | cons e rest ih =>
      intro slots slots' h
      rw [List.foldlM_cons] at h
      cases placed : place slots e.1 e.2 with
      | error err => simp [placed, bind, Except.bind] at h
      | ok slots₁ =>
          simp only [placed, bind, Except.bind] at h
          rw [ih h, place_removedCount placed]

/-- A rebuild holds no removed slot and a key store of its live keys only, within the limit. -/
theorem rehash_store {cap : Nat} (h : t.rehash cap = .ok t')
    : removedCount t'.slots = 0 ∧ t'.removed = 0 ∧ t'.storeBytes = t.liveBytes ∧
        t'.deadBytes = 0 ∧ t.liveBytes ≤ storeLimit := by
  unfold rehash at h
  simp only [bind, Except.bind] at h
  split at h
  · cases h
  · rename_i fresh allocated
    obtain rfl := allocate_ok allocated
    split at h
    · cases h
    · rename_i within
      cases filled : t.toList.foldlM (fun s e => place s e.1 e.2)
          (Array.replicate cap Slot.free) with
      | error err => simp [filled] at h
      | ok slots =>
          simp only [filled, pure, Except.pure, Except.ok.injEq] at h
          subst h
          refine ⟨?_, rfl, rfl, rfl, Nat.not_lt.mp within⟩
          rw [foldlM_place_removedCount filled, removedCount_replicate]

end OpenTable

/-- What one operation can do to a table. -/
inductive Step [TableKey κ] [DecidableEq κ] (t : OpenTable κ) : OpenTable κ → Prop where
  /-- The table is kept: a lookup, an insertion the probe or the key store refused, or an
  insertion unless present of a key already held. -/
  | keep : Step t t
  /-- The value in the slot holding a key is overwritten. -/
  | overwrite {i : Nat} {key : κ} {v₀ value : Int64} :
      t.slots[i]? = some (.full key v₀) →
      Step t { t with slots := t.slots.set! i (.full key value) }
  /-- A new key is written into the vacant slot its probe answered, and the table is kept so,
  whether it needed no rebuild or its rebuild failed, or is rebuilt. -/
  | write {i : Nat} {key : κ} {value : Int64} {storeBytes : Nat} {t' : OpenTable κ} :
      t.probe key = .ok (.vacant i) → t.storeKey key = .ok storeBytes →
      (t' = t.written i key value storeBytes ∨
        ∃ cap, (t.written i key value storeBytes).rehash cap = .ok t') →
      Step t t'
  /-- The slot holding a key is marked removed, and the key's bytes become dead. -/
  | remove {i : Nat} {key : κ} {v₀ : Int64} :
      t.slots[i]? = some (.full key v₀) →
      Step t { t with slots := t.slots.set! i .removed, len := t.len - 1, removed := t.removed + 1,
                      deadBytes := t.deadBytes + TableKey.storedSize key }
  /-- Every entry is dropped. -/
  | clear : Step t t.clear
  /-- Every entry is dropped and the initial capacity restored. -/
  | purge : Step t t.purge

namespace OpenTable

variable [TableKey κ] [DecidableEq κ] {t t' : OpenTable κ}

/-- An insertion into the vacant slot its probe answered writes the entry and perhaps rebuilds,
or keeps the table when the key store refuses the key. -/
theorem step_occupy {i : Nat} {key : κ} {value : Int64} (probed : t.probe key = .ok (.vacant i))
    : Step t (leftBy (t.occupy i key value)) := by
  rw [occupy_eq]
  cases stored : t.storeKey key with
  | error e => exact .keep
  | ok storeBytes =>
      dsimp only
      split
      · rename_i t' settled
        exact .write probed stored (settle_ok settled)
      · exact .write probed stored (Or.inl rfl)

/-- Every operation is one of the steps, whether it succeeds or fails. -/
theorem step_after (t : OpenTable κ) (op : TableOp κ) : Step t (t.after op) := by
  cases op with
  | insert key value =>
      show Step t (leftBy (t.insert key value))
      unfold OpenTable.insert
      split
      · exact .keep
      · rename_i i probed
        obtain ⟨v₀, at_i⟩ := probe_found probed
        exact .overwrite at_i
      · rename_i i probed
        have occupied : Step t (leftBy (t.occupy i key value)) := step_occupy probed
        split
        · rename_i t' h
          rwa [h] at occupied
        · rename_i e t' h
          rwa [h] at occupied
  | insertIfAbsent key value =>
      show Step t (leftBy (t.insertIfAbsent key value))
      unfold OpenTable.insertIfAbsent
      split
      · exact .keep
      · exact .keep
      · rename_i i probed
        have occupied : Step t (leftBy (t.occupy i key value)) := step_occupy probed
        split
        · rename_i t' h
          rwa [h] at occupied
        · rename_i e t' h
          rwa [h] at occupied
  | remove key =>
      show Step t (t.remove key).2
      unfold OpenTable.remove
      cases found : t.find key with
      | none => exact .keep
      | some i =>
          obtain ⟨v₀, at_i⟩ := findFrom_full found
          exact .remove at_i
  | clear => exact .clear
  | purge => exact .purge
  | get _ | contains _ | find _ | iter | len => exact .keep

-----------------------------------------------------------------------------------------
-- Accounts
-----------------------------------------------------------------------------------------

/-- How a table accounts for its slots and its key store: the removed count is the number of
removed slots, and the key store holds the dead bytes and the bytes of the live keys, within the
4 GiB limit. -/
structure Accounted (t : OpenTable κ) : Prop where
  removed_eq : t.removed = removedCount t.slots
  store_eq : t.storeBytes = t.deadBytes + t.liveBytes
  store_le : t.storeBytes ≤ storeLimit

omit [DecidableEq κ] in
/-- A table of free slots that has removed and stored nothing is accounted. -/
theorem Accounted.of_free {n : Nat} (slots : t.slots = Array.replicate n .free)
    (removed : t.removed = 0) (store : t.storeBytes = 0) (dead : t.deadBytes = 0)
    : t.Accounted := by
  refine ⟨?_, ?_, ?_⟩
  · rw [removed, slots, removedCount_replicate]
  · rw [store, dead, liveBytes_eq_slotBytes, slots, slotBytes_replicate]
  · rw [store]
    exact Nat.zero_le _

/-- A new entry written into the vacant slot its probe answered is counted and stored. -/
theorem Accounted.written (ha : t.Accounted) (hs : Sound t.slots) {i : Nat} {key : κ}
    {value : Int64} {storeBytes : Nat} (probed : t.probe key = .ok (.vacant i))
    (stored : t.storeKey key = .ok storeBytes) : (t.written i key value storeBytes).Accounted := by
  obtain ⟨-, ⟨x, at_i, not_full⟩, -, -⟩ := probe_vacant hs probed
  obtain ⟨grown, within⟩ := storeKey_ok stored
  have store := ha.store_eq
  rw [liveBytes_eq_slotBytes] at store
  cases x with
  | full k v => simp [Slot.isFull] at not_full
  | free =>
      have counted : removedCount (t.slots.set! i (.full key value)) + 0 =
          removedCount t.slots + 0 := removedCount_set _ at_i
      have live : slotBytes (t.slots.set! i (.full key value)) + 0 =
          slotBytes t.slots + TableKey.storedSize key := slotBytes_set _ at_i
      refine ⟨?_, ?_, by simpa using within⟩
      · rw [written_removed_of_free at_i, written_slots, ha.removed_eq]
        omega
      · rw [liveBytes_eq_slotBytes, written_slots, written_storeBytes, written_deadBytes]
        omega
  | removed =>
      have counted : removedCount (t.slots.set! i (.full key value)) + 1 =
          removedCount t.slots + 0 := removedCount_set _ at_i
      have live : slotBytes (t.slots.set! i (.full key value)) + 0 =
          slotBytes t.slots + TableKey.storedSize key := slotBytes_set _ at_i
      refine ⟨?_, ?_, by simpa using within⟩
      · rw [written_removed_of_removed at_i, written_slots, ha.removed_eq]
        omega
      · rw [liveBytes_eq_slotBytes, written_slots, written_storeBytes, written_deadBytes]
        omega

/-- A rebuild of a sound table holds no removed slot and a key store of its live keys. -/
theorem Accounted.rehash (hs : Sound t.slots) {cap : Nat} (h : t.rehash cap = .ok t')
    : t'.Accounted := by
  obtain ⟨none_removed, removed, store, dead, within⟩ := rehash_store h
  obtain ⟨hs', same⟩ := rehash_ok hs h
  have live := liveBytes_of_get hs hs' same
  exact ⟨by rw [removed, none_removed], by rw [store, dead, live, Nat.zero_add],
    by rw [store]; exact within⟩

/-- Every step keeps the accounts of a sound table. -/
theorem Accounted.step (ha : t.Accounted) (hs : Sound t.slots) (h : Step t t') : t'.Accounted := by
  have store := ha.store_eq
  rw [liveBytes_eq_slotBytes] at store
  cases h with
  | keep => exact ha
  | overwrite at_i =>
      rename_i i key v₀ value
      have counted : removedCount (t.slots.set! i (.full key value)) + 0 =
          removedCount t.slots + 0 := removedCount_set _ at_i
      have live : slotBytes (t.slots.set! i (.full key value)) + TableKey.storedSize key =
          slotBytes t.slots + TableKey.storedSize key := slotBytes_set _ at_i
      refine ⟨?_, ?_, ha.store_le⟩
      · show t.removed = removedCount (t.slots.set! i (.full key value))
        rw [ha.removed_eq]
        omega
      · rw [liveBytes_eq_slotBytes]
        show t.storeBytes = t.deadBytes + slotBytes (t.slots.set! i (.full key value))
        omega
  | write probed stored rebuilt =>
      rcases rebuilt with rfl | ⟨cap, rebuilt⟩
      · exact ha.written hs probed stored
      · exact Accounted.rehash (set_vacant hs probed rfl).1 rebuilt
  | remove at_i =>
      rename_i i key v₀
      have counted : removedCount (t.slots.set! i .removed) + 0 =
          removedCount t.slots + 1 := removedCount_set _ at_i
      have live : slotBytes (t.slots.set! i .removed) + TableKey.storedSize key =
          slotBytes t.slots + 0 := slotBytes_set _ at_i
      refine ⟨?_, ?_, ha.store_le⟩
      · show t.removed + 1 = removedCount (t.slots.set! i .removed)
        rw [ha.removed_eq]
        omega
      · rw [liveBytes_eq_slotBytes]
        show t.storeBytes = t.deadBytes + TableKey.storedSize key + slotBytes (t.slots.set! i .removed)
        omega
  | clear => exact .of_free rfl rfl rfl rfl
  | purge => exact .of_free rfl rfl rfl rfl

omit [TableKey κ] [DecidableEq κ] in
theorem create_fields {expected : Nat} {lf : Float} (h : create expected lf = .ok t)
    : t.slots = Array.replicate t.capacity .free ∧ t.removed = 0 ∧ t.storeBytes = 0 ∧
        t.deadBytes = 0 := by
  unfold create at h
  simp only [bind, Except.bind] at h
  split at h
  · simp at h
  · split at h
    · simp at h
    · split at h
      · simp at h
      · rename_i slots allocated
        obtain rfl := allocate_ok allocated
        simp only [pure, Except.pure, Except.ok.injEq] at h
        subst h
        exact ⟨by simp [capacity], rfl, rfl, rfl⟩

-----------------------------------------------------------------------------------------
-- Runs
-----------------------------------------------------------------------------------------

/-- The representation invariant of a table: the facts every run keeps for its entries and
capacity, and its accounts of removed slots and of the key store. -/
structure Represented (t : OpenTable κ) : Prop extends Counted t, Accounted t

theorem Represented.after (h : t.Represented) (op : TableOp κ) : (t.after op).Represented :=
  ⟨(h.toCounted.after op).counted, h.toAccounted.step h.sound (step_after t op)⟩

/-- A run keeps the invariant; the induction follows the operations. -/
theorem Represented.afterAll : ∀ (ops : List (TableOp κ)) {t : OpenTable κ},
    t.Represented → (t.afterAll ops).Represented
  | [], _, h => h
  | op :: ops, _, h => Represented.afterAll ops (h.after op)

theorem create_represented {expected : Nat} {lf : Float} (h : create expected lf = .ok t)
    : t.Represented := by
  obtain ⟨slots, removed, store, dead⟩ := create_fields h
  exact ⟨(create_grown h).counted, .of_free slots removed store dead⟩

end OpenTable

end MetricRegistry.Table
