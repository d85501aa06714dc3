import MetricRegistry.Proofs.Probing

/-! A table refines a finite map (`Refines`): every run of operations on a new table answers as
the same operations on a `Finmap`, when every growth has an addressable capacity above its
entries (`Fits`). -/

namespace MetricRegistry.Table

variable {κ : Type}

-----------------------------------------------------------------------------------------
-- Operations on a table and on a map
-----------------------------------------------------------------------------------------

/-- An operation on a table. -/
inductive TableOp (κ : Type) where
  | insert (key : κ) (value : Int64)
  | insertIfAbsent (key : κ) (value : Int64)
  | remove (key : κ)
  | get (key : κ)
  | contains (key : κ)
  | find (key : κ)
  | clear
  | purge
  | iter
  | len

/-- What an operation answers. Entries form a multiset, since their order follows the hash, and
`find` answers whether it found a slot. -/
inductive TableAnswer (κ : Type) where
  | value (v : Option Int64)
  | flag (b : Bool)
  | entries (es : Multiset (κ × Int64))
  | count (n : Nat)
  | done

namespace TableOp

/-- Keys an operation may add to a table. -/
def keysAdded : TableOp κ → Nat
  | .insert _ _ | .insertIfAbsent _ _ => 1
  | _ => 0

variable [TableKey κ]

/-- Key-store bytes an operation may take. -/
def bytesAdded : TableOp κ → Nat
  | .insert k _ | .insertIfAbsent k _ => TableKey.storedSize k
  | _ => 0

end TableOp

variable [TableKey κ] [DecidableEq κ]

namespace OpenTable

/-- Runs one operation on a table; only insertions can fail. -/
def perform (t : OpenTable κ) : TableOp κ → Except StoreError (TableAnswer κ × OpenTable κ)
  | .insert k v =>
    match t.insert k v with
    | .ok prev t' => .ok (.value prev, t')
    | .error e _ => .error e
  | .insertIfAbsent k v =>
    match t.insertIfAbsent k v with
    | .ok prev t' => .ok (.value prev, t')
    | .error e _ => .error e
  | .remove k => .ok (.value (t.remove k).1, (t.remove k).2)
  | .get k => .ok (.value (t.get k), t)
  | .contains k => .ok (.flag (t.contains k), t)
  | .find k => .ok (.flag (t.find k).isSome, t)
  | .clear => .ok (.done, t.clear)
  | .purge => .ok (.done, t.purge)
  | .iter => .ok (.entries (t.toList : Multiset (κ × Int64)), t)
  | .len => .ok (.count t.len, t)

/-- Runs operations in order, up to the first failure. -/
def performAll (t : OpenTable κ) : List (TableOp κ) → Except StoreError (List (TableAnswer κ))
  | [] => .ok []
  | op :: ops =>
    match t.perform op with
    | .ok (a, t') => (t'.performAll ops).map (a :: ·)
    | .error e => .error e

end OpenTable

/-- Finite maps from keys to words: what a table stands for. -/
abbrev KeyMap (κ : Type) := Finmap fun _ : κ => Int64

namespace KeyMap

/-- The entries of a map, as pairs. -/
def pairs (m : KeyMap κ) : Multiset (κ × Int64) := m.entries.map fun e => (e.1, e.2)

/-- Key-store bytes of the map's keys. -/
def keyBytes (m : KeyMap κ) : Nat := ∑ k ∈ m.keys, TableKey.storedSize k

/-- Runs one operation on a map. -/
def perform (m : KeyMap κ) : TableOp κ → TableAnswer κ × KeyMap κ
  | .insert k v => (.value (m.lookup k), m.insert k v)
  | .insertIfAbsent k v => (.value (m.lookup k), if k ∈ m then m else m.insert k v)
  | .remove k => (.value (m.lookup k), m.erase k)
  | .get k => (.value (m.lookup k), m)
  | .contains k | .find k => (.flag (decide (k ∈ m)), m)
  | .clear | .purge => (.done, ∅)
  | .iter => (.entries m.pairs, m)
  | .len => (.count m.keys.card, m)

/-- Runs operations on a map in order. -/
def performAll (m : KeyMap κ) : List (TableOp κ) → List (TableAnswer κ)
  | [] => []
  | op :: ops => (m.perform op).1 :: (m.perform op).2.performAll ops

variable {m : KeyMap κ} {k : κ}

omit [TableKey κ] in
theorem lookup_insert_ite (v : Int64) (a : κ)
    : (m.insert k v).lookup a = if a = k then some v else m.lookup a := by
  by_cases same : a = k
  · subst same
    rw [if_pos rfl, Finmap.lookup_insert]
  · rw [if_neg same, Finmap.lookup_insert_of_ne _ same]

omit [TableKey κ] in
theorem lookup_erase_ite (a : κ) : (m.erase k).lookup a = if a = k then none else m.lookup a := by
  by_cases same : a = k
  · subst same
    rw [if_pos rfl, Finmap.lookup_erase]
  · rw [if_neg same, Finmap.lookup_erase_ne same]

omit [TableKey κ] in
theorem keys_insert (v : Int64) : (m.insert k v).keys = insert k m.keys :=
  Finset.ext fun a => by simp only [Finmap.mem_keys, Finmap.mem_insert, Finset.mem_insert]

omit [TableKey κ] in
theorem keys_insert_of_mem (v : Int64) (h : k ∈ m) : (m.insert k v).keys = m.keys := by
  rw [keys_insert, Finset.insert_eq_of_mem (Finmap.mem_keys.mpr h)]

omit [TableKey κ] in
theorem card_insert_of_notMem (v : Int64) (h : k ∉ m)
    : (m.insert k v).keys.card = m.keys.card + 1 := by
  rw [keys_insert, Finset.card_insert_of_notMem (mt Finmap.mem_keys.mp h)]

theorem keyBytes_insert_of_notMem (v : Int64) (h : k ∉ m)
    : keyBytes (m.insert k v) = m.keyBytes + TableKey.storedSize k := by
  rw [keyBytes, keyBytes, keys_insert, Finset.sum_insert (mt Finmap.mem_keys.mp h), Nat.add_comm]

theorem keyBytes_erase_le : keyBytes (m.erase k) ≤ m.keyBytes := by
  rw [keyBytes, keyBytes, Finmap.keys_erase]
  exact Finset.sum_le_sum_of_subset (Finset.erase_subset k m.keys)

omit [TableKey κ] in
theorem card_erase (h : k ∈ m) : (m.erase k).keys.card = m.keys.card - 1 := by
  rw [Finmap.keys_erase, Finset.card_erase_of_mem (Finmap.mem_keys.mpr h)]

omit [TableKey κ] in
theorem erase_of_notMem (h : k ∉ m) : m.erase k = m :=
  Finmap.ext_lookup fun a => by
    rw [lookup_erase_ite]
    split
    · rename_i same
      subst same
      exact (Finmap.lookup_eq_none.mpr h).symm
    · rfl

end KeyMap

-----------------------------------------------------------------------------------------
-- Capacities
-----------------------------------------------------------------------------------------

/-- Capacities a table can take: prime, at least the minimum, with a slot array whose byte size
fits a signed word, the most a vector holds. -/
structure Usable (c : Nat) : Prop where
  prime : c.Prime
  big : minCapacity ≤ c
  addressable : c * slotWidth < signedLimit

/-- The load factor `lf` fits `n` entries: the capacity it gives them is computed without
overflow, exceeds `n`, and has a slot array that can be made. -/
def Fits (lf : Float) (n : Nat) : Prop :=
  ∃ c, capacityFor n lf = .ok c ∧ n < c ∧ c * slotWidth < signedLimit

theorem Usable.three_le {c : Nat} (h : Usable c) : 3 ≤ c := by
  have := h.big
  simp only [minCapacity] at this
  omega

theorem Fits.usable {lf : Float} {n : Nat} (h : Fits lf n)
    : ∃ c, capacityFor n lf = .ok c ∧ n < c ∧ Usable c := by
  obtain ⟨c, computed, above, addressable⟩ := h
  obtain ⟨prime, big⟩ := capacityFor_spec computed
  exact ⟨c, computed, above, prime, big, addressable⟩

theorem maxFill_lt {c : Nat} (pos : 0 < c) (lf : Float) : Table.maxFill c lf < c := by
  unfold Table.maxFill
  dsimp only
  have := Nat.min_le_right (max (floorProduct c lf) 1) (c - 1)
  omega

namespace OpenTable

variable {t t' : OpenTable κ} {m : KeyMap κ}

omit [TableKey κ] [DecidableEq κ] in
theorem allocate_addressable {cap : Nat} {slots : Array (Slot κ)} (h : allocate cap = .ok slots)
    : cap * slotWidth < signedLimit := by
  unfold allocate at h
  split at h
  · simp at h
  · split at h
    · simp at h
    · omega

omit [DecidableEq κ] in
theorem storeKey_eq {key : κ} (fits : t.storeBytes + TableKey.storedSize key ≤ storeLimit)
    : t.storeKey key = .ok (t.storeBytes + TableKey.storedSize key) := by
  unfold storeKey
  dsimp only
  rw [if_neg (by omega), if_neg (by omega), if_neg (by omega)]

/-- The sizing facts a table keeps: usable capacities now and initially, and a fill limit that
leaves a slot free. -/
structure Sized (t : OpenTable κ) : Prop where
  capacity : Usable t.capacity
  initial : Usable t.initialCapacity
  fill : t.maxFill < t.capacity

omit [TableKey κ] [DecidableEq κ] in
/-- Rewriting slots in place keeps the sizing facts. -/
theorem Sized.of_set (h : t.Sized) {i : Nat} {x : Slot κ} (slots : t'.slots = t.slots.set! i x)
    (initial : t'.initialCapacity = t.initialCapacity) (fill : t'.maxFill = t.maxFill)
    : t'.Sized := by
  have size : t'.capacity = t.capacity := by
    rw [OpenTable.capacity, OpenTable.capacity, slots, Array.set!_eq_setIfInBounds,
      Array.size_setIfInBounds]
  exact ⟨size ▸ h.capacity, initial ▸ h.initial, size ▸ fill ▸ h.fill⟩

/-- A table stands for a map, up to room for the next entry. -/
structure Shape (t : OpenTable κ) (m : KeyMap κ) : Prop where
  sound : Sound t.slots
  get_eq : ∀ k, t.get k = m.lookup k
  len_eq : t.len = m.keys.card
  sized : t.Sized
  bytes : m.keyBytes ≤ t.storeBytes

/-- A table refines a map: it stands for it and has fewer entries than slots. -/
structure Refines (t : OpenTable κ) (m : KeyMap κ) : Prop extends Shape t m where
  room : t.len < t.capacity

-----------------------------------------------------------------------------------------
-- What a table shows of its map
-----------------------------------------------------------------------------------------

namespace Shape

variable (h : Shape t m)
include h

/-- A table lists exactly its map's entries, each once. -/
theorem toList_eq : (t.toList : Multiset (κ × Int64)) = m.pairs := by
  have mem : ∀ k v, (k, v) ∈ t.toList ↔ m.lookup k = some v := fun k v => by
    rw [mem_toList, ← get_eq_some_iff h.sound, h.get_eq]
  have pair_inj : Function.Injective fun e : (Σ _ : κ, Int64) => (e.1, e.2) := by
    rintro ⟨a, b⟩ ⟨c, d⟩ same
    simp only [Prod.mk.injEq] at same
    obtain ⟨rfl, rfl⟩ := same
    rfl
  refine (Multiset.Nodup.ext ?_ (m.nodup_entries.map pair_inj)).mpr fun ⟨k, v⟩ => ?_
  · exact Multiset.coe_nodup.mpr ((toList_keys_nodup h.sound).of_map _)
  · rw [Multiset.mem_coe, mem, Multiset.mem_map, Finmap.lookup_eq_some_iff]
    constructor
    · intro found
      exact ⟨⟨k, v⟩, found, rfl⟩
    · rintro ⟨⟨k', v'⟩, found, same⟩
      simp only [Prod.mk.injEq] at same
      obtain ⟨rfl, rfl⟩ := same
      exact found

theorem length_toList : t.toList.length = m.keys.card := by
  have same := congrArg Multiset.card h.toList_eq
  rw [Multiset.coe_card, KeyMap.pairs, Multiset.card_map] at same
  rw [same, Finmap.keys, Finset.card_mk, Multiset.keys, Multiset.card_map]

theorem liveBytes_eq : t.liveBytes = m.keyBytes := by
  -- the sum over the entries is one over their multiset, which is the map's pairs
  rw [liveBytes, ← Multiset.sum_coe, ← Multiset.map_coe, h.toList_eq, KeyMap.pairs,
    Multiset.map_map, KeyMap.keyBytes, Finset.sum_eq_multiset_sum]
  show _ = ((m.entries.map Sigma.fst).map TableKey.storedSize).sum
  rw [Multiset.map_map]
  rfl

theorem find_isSome (k : κ) : (t.find k).isSome = decide (k ∈ m) := by
  rw [Bool.eq_iff_iff, decide_eq_true_iff, ← Finmap.lookup_isSome, ← h.get_eq]
  cases found : t.find k with
  | none => simp [get, found]
  | some j =>
      obtain ⟨v, at_j⟩ := (find_eq_some_iff h.sound).mp found
      simp [get, found, valueAt, at_j]

theorem contains_eq (k : κ) : t.contains k = decide (k ∈ m) := h.find_isSome k

end Shape

-----------------------------------------------------------------------------------------
-- Rebuilding and settling keep the map
-----------------------------------------------------------------------------------------

omit [TableKey κ] [DecidableEq κ] in
/-- The count a growth sizes for: one entry more than the table holds, or twice its entries when
fewer slots are removed than full. It exceeds the entry count and is at most twice it, or one
for a table without entries. -/
theorem growth_count (t : OpenTable κ) : ∃ n, t.len < n ∧ n ≤ max (2 * t.len) 1 ∧
    (if t.removed * 2 ≥ t.len + t.removed then capacityFor (t.len + 1) t.loadFactor
      else capacityFor (t.len * 2) t.loadFactor) = capacityFor n t.loadFactor := by
  split
  · exact ⟨t.len + 1, by omega, by omega, rfl⟩
  · exact ⟨t.len * 2, by omega, by omega, rfl⟩

/-- A rebuild into a usable capacity above the entry count succeeds when the keys fit the key
store, and the rebuilt table refines the same map with a key store of its keys only. -/
theorem Shape.rehash (h : Shape t m) {c : Nat} (usable : Usable c) (room : m.keys.card < c)
    (arena : m.keyBytes ≤ storeLimit)
    : ∃ t', t.rehash c = .ok t' ∧ Refines t' m ∧ t'.loadFactor = t.loadFactor ∧
        t'.len = t.len ∧ t'.storeBytes = m.keyBytes := by
  obtain ⟨slots, size, rehashed⟩ := rehash_succeeds usable.prime usable.three_le usable.addressable
    (h.length_toList ▸ room) (h.liveBytes_eq ▸ arena)
  obtain ⟨hs', get'⟩ := rehash_ok h.sound rehashed
  refine ⟨_, rehashed, ⟨⟨hs', fun k => (get' k).trans (h.get_eq k), h.len_eq, ⟨?_, ?_, ?_⟩, ?_⟩,
    ?_⟩, rfl, rfl, h.liveBytes_eq⟩
  · exact size ▸ usable
  · exact h.sized.initial
  · exact size ▸ maxFill_lt (by omega) _
  · exact h.liveBytes_eq.ge
  · show t.len < slots.size
    rw [size, h.len_eq]
    exact room

/-- Settling a table that holds an entry succeeds when its load factor fits up to twice its
entries, and leaves a table that refines the same map. -/
theorem Shape.settle (h : Shape t m) (pos : 1 ≤ t.len)
    (grow : ∀ n, 1 ≤ n → n ≤ 2 * t.len → Fits t.loadFactor n) (arena : t.storeBytes ≤ storeLimit)
    : ∃ t', t.settle = .ok t' ∧ Refines t' m ∧ t'.loadFactor = t.loadFactor ∧ t'.len = t.len ∧
        t'.storeBytes ≤ t.storeBytes := by
  by_cases overfull : t.len + t.removed > t.maxFill
  · obtain ⟨n, above, le, chosen⟩ := growth_count t
    obtain ⟨c, computed, bigger, usable⟩ := (grow n (by omega) (by omega)).usable
    obtain ⟨t', rehashed, refines, lf, len, bytes⟩ :=
      h.rehash usable (by rw [← h.len_eq]; omega) (h.bytes.trans arena)
    refine ⟨t', ?_, refines, lf, len, bytes ▸ h.bytes⟩
    rw [OpenTable.settle, if_pos overfull, chosen, computed]
    exact rehashed
  · have room : t.len < t.capacity := by
      have := h.sized.fill
      omega
    by_cases dead : t.deadBytes > deadBytesFloor ∧ t.deadBytes > t.storeBytes - t.deadBytes
    · obtain ⟨t', rehashed, refines, lf, len, bytes⟩ :=
        h.rehash h.sized.capacity (h.len_eq ▸ room) (h.bytes.trans arena)
      refine ⟨t', ?_, refines, lf, len, bytes ▸ h.bytes⟩
      rw [OpenTable.settle, if_neg overfull, if_pos dead]
      exact rehashed
    · refine ⟨t, ?_, ⟨h, room⟩, rfl, rfl, le_refl _⟩
      rw [OpenTable.settle, if_neg overfull, if_neg dead]
      rfl

theorem Shape.settled (h : Shape t m) (pos : 1 ≤ t.len)
    (grow : ∀ n, 1 ≤ n → n ≤ 2 * t.len → Fits t.loadFactor n) (arena : t.storeBytes ≤ storeLimit)
    (settled : t.settle = .ok t')
    : Refines t' m ∧ t'.loadFactor = t.loadFactor ∧ t'.len = t.len ∧
        t'.storeBytes ≤ t.storeBytes := by
  obtain ⟨t'', settled', rest⟩ := h.settle pos grow arena
  rw [settled] at settled'
  cases settled'
  exact rest

theorem Shape.settle_ne (h : Shape t m) (pos : 1 ≤ t.len)
    (grow : ∀ n, 1 ≤ n → n ≤ 2 * t.len → Fits t.loadFactor n) (arena : t.storeBytes ≤ storeLimit)
    (e : StoreError) : t.settle ≠ .error e := by
  obtain ⟨t', settled, -⟩ := h.settle pos grow arena
  rw [settled]
  intro same
  cases same

-----------------------------------------------------------------------------------------
-- Insertions
-----------------------------------------------------------------------------------------

/-- A probe answers a vacant slot only for a key the map does not hold. -/
theorem Refines.fresh (h : Refines t m) {i : Nat} {key : κ}
    (probed : t.probe key = .ok (.vacant i)) : key ∉ m := by
  rw [← Finmap.lookup_eq_none, ← h.get_eq]
  exact get_of_probe_vacant h.sound probed

/-- A table just written by an insertion into the vacant slot of a probe stands for the map with
the new entry, room apart. -/
theorem Refines.written (h : Refines t m) {i : Nat} {key : κ} (value : Int64) {t₁ : OpenTable κ}
    (probed : t.probe key = .ok (.vacant i)) (slots : t₁.slots = t.slots.set! i (.full key value))
    (len : t₁.len = t.len + 1) (bytes : t₁.storeBytes = t.storeBytes + TableKey.storedSize key)
    (initial : t₁.initialCapacity = t.initialCapacity) (fill : t₁.maxFill = t.maxFill)
    : Shape t₁ (m.insert key value) := by
  have fresh := h.fresh probed
  obtain ⟨hs₁, get₁⟩ := set_vacant h.sound probed slots
  refine ⟨hs₁, fun k => ?_, ?_, h.sized.of_set slots initial fill, ?_⟩
  · rw [get₁, KeyMap.lookup_insert_ite, h.get_eq]
  · rw [len, KeyMap.card_insert_of_notMem _ fresh, h.len_eq]
  · rw [bytes, KeyMap.keyBytes_insert_of_notMem _ fresh]
    exact Nat.add_le_add_right h.bytes _

/-- An insertion into the vacant slot of a probe succeeds, for a new key, when the load factor
fits up to twice the entries it makes and the key fits the key store; the table then refines
the map with the new entry. -/
theorem Refines.occupy (h : Refines t m) {i : Nat} {key : κ} (value : Int64)
    (probed : t.probe key = .ok (.vacant i))
    (grow : ∀ n, 1 ≤ n → n ≤ 2 * (t.len + 1) → Fits t.loadFactor n)
    (arena : t.storeBytes + TableKey.storedSize key ≤ storeLimit)
    : ∃ t', t.occupy i key value = .ok () t' ∧ Refines t' (m.insert key value) ∧
        t'.loadFactor = t.loadFactor ∧ t'.len = t.len + 1 ∧
        t'.storeBytes ≤ t.storeBytes + TableKey.storedSize key := by
  unfold OpenTable.occupy
  rw [storeKey_eq arena]
  dsimp only
  -- the written table is named by the match on its settling; the facts about it wait for that
  split
  · rename_i t' settled
    exact ⟨t', rfl, (h.written value probed (by rfl) (by rfl) (by rfl) (by rfl) (by rfl)).settled
      (by simp) (by exact grow) (by exact arena) settled⟩
  · rename_i e settled
    exact absurd settled ((h.written value probed (by rfl) (by rfl) (by rfl) (by rfl)
      (by rfl)).settle_ne (by simp) (by exact grow) (by exact arena) e)

/-- In a table with room, an insertion probe answers a slot. -/
theorem Refines.probe (h : Refines t m) (key : κ) : ∃ p, t.probe key = .ok p := by
  exact probe_succeeds h.sized.capacity.prime h.sized.capacity.three_le
    (by rw [h.length_toList, ← h.len_eq]; exact h.room) key

/-- An insertion that overwrites the value of a key the table holds keeps the shape. -/
theorem Refines.overwritten (h : Refines t m) {i : Nat} {key : κ} (value : Int64)
    (probed : t.probe key = .ok (.found i))
    : t.valueAt i = m.lookup key ∧ key ∈ m ∧
        Refines { t with slots := t.slots.set! i (.full key value) } (m.insert key value) := by
  obtain ⟨v₀, at_i⟩ := probe_found probed
  have held : m.lookup key = some v₀ := by
    rw [← h.get_eq]
    exact (get_eq_some_iff h.sound).mpr ⟨i, at_i⟩
  have present : key ∈ m := Finmap.mem_of_lookup_eq_some held
  have inserted : t.insert key value =
      .ok (t.valueAt i) { t with slots := t.slots.set! i (.full key value) } := by
    unfold OpenTable.insert
    rw [probed]
  obtain ⟨hs', prev, get'⟩ := insert_ok h.sound inserted
  refine ⟨prev.trans (h.get_eq key), present, ⟨hs', fun k => ?_, ?_, h.sized.of_set rfl rfl rfl, ?_⟩,
    ?_⟩
  · rw [get', KeyMap.lookup_insert_ite, h.get_eq]
  · show t.len = _
    rw [KeyMap.keys_insert_of_mem _ present, h.len_eq]
  · rw [KeyMap.keyBytes, KeyMap.keys_insert_of_mem _ present]
    exact h.bytes
  · show t.len < (t.slots.set! i _).size
    rw [Array.set!_eq_setIfInBounds, Array.size_setIfInBounds]
    exact h.room

/-- An insertion succeeds, answers the map's value for the key, and leaves a table that refines
the map with the new entry. -/
theorem Refines.insert (h : Refines t m) (key : κ) (value : Int64)
    (grow : ∀ n, 1 ≤ n → n ≤ 2 * (t.len + 1) → Fits t.loadFactor n)
    (arena : t.storeBytes + TableKey.storedSize key ≤ storeLimit)
    : ∃ t', t.insert key value = .ok (m.lookup key) t' ∧ Refines t' (m.insert key value) ∧
        t'.loadFactor = t.loadFactor ∧ t'.len ≤ t.len + 1 ∧
        t'.storeBytes ≤ t.storeBytes + TableKey.storedSize key := by
  obtain ⟨p, probed⟩ := h.probe key
  cases p with
  | found i =>
      obtain ⟨answer, -, refines⟩ := h.overwritten value probed
      refine ⟨_, ?_, refines, rfl, by simp, by simp⟩
      unfold OpenTable.insert
      rw [probed]
      dsimp only
      rw [answer]
  | vacant i =>
      obtain ⟨t', occupied, refines, lf, len, bytes⟩ := h.occupy value probed grow arena
      refine ⟨t', ?_, refines, lf, by omega, bytes⟩
      unfold OpenTable.insert
      rw [probed]
      dsimp only
      rw [occupied, Finmap.lookup_eq_none.mpr (h.fresh probed)]

/-- An insertion unless present succeeds, answers the map's value for the key, and leaves a
table that refines the map with the entry added if the key was new. -/
theorem Refines.insertIfAbsent (h : Refines t m) (key : κ) (value : Int64)
    (grow : ∀ n, 1 ≤ n → n ≤ 2 * (t.len + 1) → Fits t.loadFactor n)
    (arena : t.storeBytes + TableKey.storedSize key ≤ storeLimit)
    : ∃ t', t.insertIfAbsent key value = .ok (m.lookup key) t' ∧
        Refines t' (if key ∈ m then m else m.insert key value) ∧
        t'.loadFactor = t.loadFactor ∧ t'.len ≤ t.len + 1 ∧
        t'.storeBytes ≤ t.storeBytes + TableKey.storedSize key := by
  obtain ⟨p, probed⟩ := h.probe key
  cases p with
  | found i =>
      obtain ⟨answer, present, -⟩ := h.overwritten value probed
      refine ⟨t, ?_, by rw [if_pos present]; exact h, rfl, by omega, by omega⟩
      unfold OpenTable.insertIfAbsent
      rw [probed]
      dsimp only
      rw [answer]
  | vacant i =>
      obtain ⟨t', occupied, refines, lf, len, bytes⟩ := h.occupy value probed grow arena
      have fresh := h.fresh probed
      refine ⟨t', ?_, by rw [if_neg fresh]; exact refines, lf, by omega, bytes⟩
      unfold OpenTable.insertIfAbsent
      rw [probed]
      dsimp only
      rw [occupied, Finmap.lookup_eq_none.mpr fresh]

-----------------------------------------------------------------------------------------
-- Removal, clearing and creation
-----------------------------------------------------------------------------------------

/-- Removal answers the map's value for the key and leaves a table that refines the map without
the key. -/
theorem Refines.remove (h : Refines t m) (key : κ)
    : (t.remove key).1 = m.lookup key ∧ Refines (t.remove key).2 (m.erase key) ∧
        (t.remove key).2.loadFactor = t.loadFactor ∧ (t.remove key).2.len ≤ t.len ∧
        (t.remove key).2.storeBytes = t.storeBytes := by
  obtain ⟨hs', prev, get'⟩ := remove_spec h.sound key
  have get_eq : ∀ k, (t.remove key).2.get k = (m.erase key).lookup k := fun k => by
    rw [get' k, KeyMap.lookup_erase_ite, h.get_eq]
  refine ⟨prev.trans (h.get_eq key), ?_⟩
  cases found : t.find key with
  | none =>
      have absent : key ∉ m := by
        rw [← Finmap.lookup_eq_none, ← h.get_eq]
        simp [get, found]
      have same : (t.remove key).2 = t := by simp [OpenTable.remove, found]
      rw [same, KeyMap.erase_of_notMem absent]
      exact ⟨h, rfl, le_refl _, rfl⟩
  | some i =>
      obtain ⟨v₀, at_i⟩ := (find_eq_some_iff h.sound).mp found
      have present : key ∈ m := by
        rw [← Finmap.lookup_isSome, ← h.get_eq, (get_eq_some_iff h.sound).mpr ⟨i, at_i⟩]
        rfl
      have marked : (t.remove key).2 =
          { t with slots := t.slots.set! i .removed, len := t.len - 1, removed := t.removed + 1,
                   deadBytes := t.deadBytes + TableKey.storedSize key } := by
        simp [OpenTable.remove, found]
      refine ⟨⟨⟨hs', get_eq, ?_, ?_, ?_⟩, ?_⟩, ?_, ?_, ?_⟩ <;> rw [marked]
      · show t.len - 1 = _
        rw [KeyMap.card_erase present, h.len_eq]
      · exact h.sized.of_set rfl rfl rfl
      · exact KeyMap.keyBytes_erase_le.trans h.bytes
      · show t.len - 1 < (t.slots.set! i _).size
        rw [Array.set!_eq_setIfInBounds, Array.size_setIfInBounds]
        have := h.room
        exact Nat.lt_of_le_of_lt (Nat.sub_le _ _) this
      · exact Nat.sub_le _ _

/-- A sound table without entries and with the sizing facts refines the empty map. -/
theorem Refines.emptied (hs : Sound t.slots) (empty : ∀ k, t.get k = none) (len : t.len = 0)
    (sized : t.Sized) : Refines t ∅ := by
  refine ⟨⟨hs, fun k => by rw [empty, Finmap.lookup_empty], ?_, sized, ?_⟩, ?_⟩
  · rw [len, Finmap.keys_empty, Finset.card_empty]
  · simp [KeyMap.keyBytes]
  · rw [len]
    exact sized.capacity.prime.pos

theorem Refines.clear (h : Refines t m) : Refines t.clear ∅ := by
  have size : t.clear.capacity = t.capacity := Array.size_replicate
  exact .emptied clear_spec.1 clear_spec.2 rfl
    ⟨size ▸ h.sized.capacity, h.sized.initial, size ▸ h.sized.fill⟩

theorem Refines.purge (h : Refines t m) : Refines t.purge ∅ := by
  have size : t.purge.capacity = t.initialCapacity := Array.size_replicate
  exact .emptied purge_spec.1 purge_spec.2 rfl
    ⟨size ▸ h.sized.initial, h.sized.initial, size ▸ maxFill_lt h.sized.initial.prime.pos _⟩

/-- A new table refines the empty map, with its load factor and an empty key store. -/
theorem create_refines {expected : Nat} {lf : Float} (h : create expected lf = .ok t)
    : Refines t ∅ ∧ t.loadFactor = lf ∧ t.len = 0 ∧ t.storeBytes = 0 := by
  obtain ⟨hs, empty⟩ := create_ok h
  unfold create at h
  simp only [bind, Except.bind] at h
  split at h
  · simp at h
  · split at h
    · simp at h
    · rename_i cap computed
      split at h
      · simp at h
      · rename_i slots allocated
        obtain rfl := allocate_ok allocated
        simp only [pure, Except.pure, Except.ok.injEq] at h
        subst h
        have computed' : capacityFor expected lf = .ok cap := by
          cases c : capacityFor expected lf with
          | error e =>
              rw [c] at computed
              simp [Except.mapError] at computed
          | ok c' =>
              rw [c] at computed
              simp only [Except.mapError, Except.ok.injEq] at computed
              rw [computed]
        obtain ⟨prime, big⟩ := capacityFor_spec computed'
        have usable : Usable cap := ⟨prime, big, allocate_addressable allocated⟩
        refine ⟨.emptied hs empty rfl ⟨?_, usable, ?_⟩, rfl, rfl, rfl⟩
        · show Usable (Array.replicate cap (Slot.free : Slot κ)).size
          rw [Array.size_replicate]
          exact usable
        · show Table.maxFill cap lf < (Array.replicate cap (Slot.free : Slot κ)).size
          rw [Array.size_replicate]
          exact maxFill_lt prime.pos lf

-----------------------------------------------------------------------------------------
-- Runs
-----------------------------------------------------------------------------------------

/-- One operation on a table that refines a map answers what the map answers and leaves a table
that refines the map the operation leaves, when the load factor fits up to twice the entries the
operation may make and its key fits the key store. -/
theorem Refines.perform (h : Refines t m) (op : TableOp κ)
    (grow : ∀ n, 1 ≤ n → n ≤ 2 * (t.len + op.keysAdded) → Fits t.loadFactor n)
    (arena : t.storeBytes + op.bytesAdded ≤ storeLimit)
    : ∃ t', t.perform op = .ok ((m.perform op).1, t') ∧ Refines t' (m.perform op).2 ∧
        t'.loadFactor = t.loadFactor ∧ t'.len ≤ t.len + op.keysAdded ∧
        t'.storeBytes ≤ t.storeBytes + op.bytesAdded := by
  cases op with
  | insert key value =>
      obtain ⟨t', inserted, refines, lf, len, bytes⟩ := h.insert key value grow arena
      exact ⟨t', by simp only [OpenTable.perform, inserted, KeyMap.perform], refines, lf, len, bytes⟩
  | insertIfAbsent key value =>
      obtain ⟨t', inserted, refines, lf, len, bytes⟩ := h.insertIfAbsent key value grow arena
      exact ⟨t', by simp only [OpenTable.perform, inserted, KeyMap.perform], refines, lf, len, bytes⟩
  | remove key =>
      obtain ⟨answer, refines, lf, len, bytes⟩ := h.remove key
      exact ⟨_, by simp only [OpenTable.perform, answer, KeyMap.perform], refines, lf,
        by simp only [TableOp.keysAdded]; omega, by simp only [TableOp.bytesAdded]; omega⟩
  | get key =>
      exact ⟨t, by simp only [OpenTable.perform, h.get_eq, KeyMap.perform], h, rfl, by omega,
        by omega⟩
  | contains key =>
      exact ⟨t, by simp only [OpenTable.perform, h.contains_eq, KeyMap.perform], h, rfl, by omega,
        by omega⟩
  | find key =>
      exact ⟨t, by simp only [OpenTable.perform, h.find_isSome, KeyMap.perform], h, rfl, by omega,
        by omega⟩
  | clear =>
      exact ⟨_, rfl, h.clear, rfl, by simp [OpenTable.clear], by simp [OpenTable.clear]⟩
  | purge =>
      exact ⟨_, rfl, h.purge, rfl, by simp [OpenTable.purge], by simp [OpenTable.purge]⟩
  | iter =>
      exact ⟨t, by simp only [OpenTable.perform, h.toList_eq, KeyMap.perform], h, rfl, by omega,
        by omega⟩
  | len =>
      exact ⟨t, by simp only [OpenTable.perform, h.len_eq, KeyMap.perform], h, rfl, by omega,
        by omega⟩

/-- A run on a table that refines a map answers what the run answers on the map, when the load
factor fits up to twice the entries the table can reach and the inserted keys fit the key
store; the induction follows the operations, each step from `Refines.perform`. -/
theorem Refines.performAll : ∀ (ops : List (TableOp κ)) {t : OpenTable κ} {m : KeyMap κ},
    Refines t m →
    (∀ n, 1 ≤ n → n ≤ 2 * (t.len + (ops.map TableOp.keysAdded).sum) → Fits t.loadFactor n) →
    t.storeBytes + (ops.map TableOp.bytesAdded).sum ≤ storeLimit →
      t.performAll ops = .ok (m.performAll ops)
  | [], _, _, _, _, _ => rfl
  | op :: ops, t, m, h, grow, arena => by
      simp only [List.map_cons, List.sum_cons] at grow arena
      obtain ⟨t', performed, refines, lf, len, bytes⟩ :=
        h.perform op (fun n one le => grow n one (by omega)) (by omega)
      have rest := Refines.performAll ops refines
        (fun n one le => lf ▸ grow n one (by omega)) (by omega)
      simp only [OpenTable.performAll, performed, rest, KeyMap.performAll, Except.map]

end OpenTable

end MetricRegistry.Table
