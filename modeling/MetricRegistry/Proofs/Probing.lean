import MetricRegistry.Proofs.Table

/-! Probes that always find room: capacities are prime, so a key's walk visits every slot within
the capacity, and a rebuild into a prime capacity above its entry count succeeds
(`rehash_succeeds`). -/

namespace MetricRegistry.Table

-----------------------------------------------------------------------------------------
-- Prime capacities
-----------------------------------------------------------------------------------------

/-- Odd trial division that answers true saw no divisor among the numbers from `d` of the same
parity as `d` whose square is at most `n`. -/
theorem oddTrial_true {n d : Nat} (h : oddTrial n d = .ok true)
    : ∀ k, d ≤ k → k % 2 = d % 2 → k * k ≤ n → ¬ k ∣ n := by
  fun_induction oddTrial n d with
  | case1 d big => simp at h
  | case2 d fits small divides => simp at h
  | case3 d fits small notDivides ih =>
      intro k above parity square divides
      by_cases same : k = d
      · subst same
        exact notDivides (Nat.mod_eq_zero_of_dvd divides)
      · exact ih h k (by omega) (by omega) square divides
  | case4 d fits large =>
      intro k above _ square _
      have : d * d ≤ k * k := Nat.mul_le_mul above above
      omega

theorem isPrime_true {n : Nat} (h : isPrime n = .ok true) : n.Prime := by
  unfold isPrime at h
  split at h
  · simp at h
  · split at h
    · simp only [Except.ok.injEq, decide_eq_true_eq] at h
      subst h
      exact Nat.prime_two
    · rename_i small odd
      -- an odd composite has an odd prime factor whose square is at most it
      by_contra composite
      have minFac_sq := Nat.minFac_sq_le_self (by omega) composite
      have minFac_prime := Nat.minFac_prime (show n ≠ 1 by omega)
      have minFac_odd : n.minFac % 2 = 1 := by
        rcases minFac_prime.eq_two_or_odd with two | odd
        · have := Nat.minFac_dvd n
          rw [two] at this
          omega
        · exact odd
      have := minFac_prime.two_le
      exact oddTrial_true h n.minFac (by omega) (by omega)
        (by rw [← Nat.pow_two]; exact minFac_sq) (Nat.minFac_dvd n)

theorem nextOddPrime_spec {n c : Nat} (h : nextOddPrime n = .ok c) : c.Prime ∧ n ≤ c := by
  fun_induction nextOddPrime n with
  | case1 n e failed => simp at h
  | case2 n prime =>
      simp only [Except.ok.injEq] at h
      subst h
      exact ⟨isPrime_true prime, le_refl _⟩
  | case3 n composite far => simp at h
  | case4 n composite near ih =>
      obtain ⟨prime, above⟩ := ih h
      exact ⟨prime, by omega⟩

theorem nextPrime_spec {n c : Nat} (h : nextPrime n = .ok c) : c.Prime ∧ n ≤ c := by
  unfold nextPrime at h
  split at h
  · simp only [Except.ok.injEq] at h
    subst h
    exact ⟨Nat.prime_two, by omega⟩
  · split at h
    · obtain ⟨prime, above⟩ := nextOddPrime_spec h
      exact ⟨prime, by omega⟩
    · exact nextOddPrime_spec h

/-- Every capacity a table is given is a prime of at least seven. -/
theorem capacityFor_spec {m c : Nat} {lf : Float} (h : capacityFor m lf = .ok c)
    : c.Prime ∧ minCapacity ≤ c := by
  unfold capacityFor at h
  dsimp only at h
  split at h
  · simp at h
  · obtain ⟨prime, above⟩ := nextPrime_spec h
    exact ⟨prime, (le_max_left _ _).trans above⟩

-----------------------------------------------------------------------------------------
-- Walks cover a prime table
-----------------------------------------------------------------------------------------

theorem walk_eq {size step i : Nat} (hi : i < size) (n : Nat)
    : walk size step i n = (i + n * step) % size := by
  induction n generalizing i with
  | zero => simp [walk, Nat.mod_eq_of_lt hi]
  | succ n ih =>
      rw [walk, ih (Nat.mod_lt _ (by omega)), Nat.mod_add_mod, Nat.succ_mul]
      congr 1
      omega

/-- Two walks of fewer than `p` steps around a prime number `p` of slots, by a step that is no
multiple of it, that end at one slot took the same number of steps: their difference times the
step would be a multiple of the prime. -/
theorem walk_inj {p step i : Nat} (prime : p.Prime) (pos : 0 < step) (lt : step < p) (hi : i < p)
    {a b : Nat} (ha : a < p) (hb : b < p) (same : walk p step i a = walk p step i b) : a = b := by
  have coprime : p.gcd step = 1 :=
    (Nat.Prime.coprime_iff_not_dvd prime).mpr (Nat.not_dvd_of_pos_of_lt pos lt)
  rw [walk_eq hi, walk_eq hi] at same
  have cancelled : a ≡ b [MOD p] :=
    Nat.ModEq.cancel_right_of_coprime coprime (Nat.ModEq.add_left_cancel' i same)
  rwa [Nat.ModEq, Nat.mod_eq_of_lt ha, Nat.mod_eq_of_lt hb] at cancelled

/-- A walk around a prime number of slots, by a step that is no multiple of it, visits every
slot within that many steps. -/
theorem walk_covers {p step i : Nat} (prime : p.Prime) (pos : 0 < step) (lt : step < p)
    (hi : i < p) {j : Nat} (hj : j < p) : ∃ n < p, walk p step i n = j := by
  obtain ⟨n, hn, at_n⟩ := Finset.surj_on_of_inj_on_of_card_le
    (fun n _ => walk p step i n) (fun n _ => Finset.mem_range.mpr (walk_lt hi n))
    (fun a b ha hb same =>
      walk_inj prime pos lt hi (Finset.mem_range.mp ha) (Finset.mem_range.mp hb) same)
    le_rfl j (Finset.mem_range.mpr hj)
  exact ⟨n, Finset.mem_range.mp hn, at_n.symm⟩

theorem home_lt (h : UInt64) {cap : Nat} (pos : 0 < cap) : OpenTable.home h cap < cap :=
  Nat.mod_lt _ pos

theorem stride_pos (h : UInt64) (cap : Nat) : 0 < OpenTable.stride h cap := by
  simp only [OpenTable.stride]
  omega

theorem stride_lt (h : UInt64) {cap : Nat} (big : 3 ≤ cap) : OpenTable.stride h cap < cap := by
  have := Nat.mod_lt h.toNat (show 0 < cap - 2 by omega)
  simp only [OpenTable.stride]
  omega

variable {κ : Type} [TableKey κ]

/-- In a prime table of at least three slots, a key's walk from its home slot visits every
slot. -/
theorem keyWalk_covers {slots : Array (Slot κ)} (prime : slots.size.Prime) (big : 3 ≤ slots.size)
    (key : κ) {j : Nat} (hj : j < slots.size) : ∃ n < slots.size, keyWalk slots key n = j :=
  walk_covers prime (stride_pos _ _) (stride_lt _ big) (home_lt _ (by omega)) hj

-----------------------------------------------------------------------------------------
-- Probes and placements that fail
-----------------------------------------------------------------------------------------

section Failed

variable {slots : Array (Slot κ)} {step : Nat}

omit [TableKey κ] in
/-- A table with fewer entries than slots has a slot without an entry. -/
theorem exists_not_full {t : OpenTable κ} (room : t.toList.length < t.capacity)
    : ∃ j : Nat, ∃ x : Slot κ, t.slots[j]? = some x ∧ x.isFull = false := by
  by_contra all_full
  push Not at all_full
  have all : t.toList.length = t.slots.toList.length := by
    unfold OpenTable.toList
    rw [List.filterMap_length_eq_length]
    intro x mem
    obtain ⟨j, hj, at_j⟩ := List.getElem_of_mem mem
    have full := all_full j x (by rw [Array.getElem?_eq_getElem (by simpa using hj)]; simpa using at_j)
    cases x <;> simp_all [Slot.isFull]
  exact absurd all (by rw [Array.length_toList]; exact Nat.ne_of_lt room)

variable [DecidableEq κ] {key : κ}

omit [TableKey κ] in
/-- An insertion probe that answers nothing walked over full slots only, none holding the key. -/
theorem probeFrom_none : ∀ {s i : Nat} {firstRemoved : Option Nat},
    OpenTable.probeFrom slots key step s i firstRemoved = none →
      firstRemoved = none ∧ ∀ n < s, ∃ k v, slots[walk slots.size step i n]? = some (.full k v) := by
  intro s
  induction s with
  | zero =>
      intro i fr h
      cases fr <;> simp [OpenTable.probeFrom] at h
      exact ⟨rfl, fun n hn => absurd hn (Nat.not_lt_zero n)⟩
  | succ s ih =>
      intro i fr h
      unfold OpenTable.probeFrom at h
      split at h
      · simp at h
      · simp at h
      · rename_i k v at_i
        split at h
        · simp at h
        · obtain ⟨none_before, full⟩ := ih h
          refine ⟨none_before, fun n hn => ?_⟩
          cases n with
          | zero => exact ⟨k, v, at_i⟩
          | succ n => exact full n (by omega)
      · obtain ⟨remembered, -⟩ := ih h
        cases fr <;> simp at remembered

omit [TableKey κ] [DecidableEq κ] in
/-- A search for a free slot that answers nothing walked over slots that are not free. -/
theorem freeFrom_none : ∀ {s i : Nat}, OpenTable.freeFrom slots step s i = none →
    ∀ n < s, ∀ x, slots[walk slots.size step i n]? = some x → x.isFree = false := by
  intro s
  induction s with
  | zero => intro i _ n hn; exact absurd hn (Nat.not_lt_zero n)
  | succ s ih =>
      intro i h n hn x at_n
      unfold OpenTable.freeFrom at h
      split at h
      · simp at h
      · rename_i not_free
        cases n with
        | zero =>
            simp only [walk] at at_n
            cases x <;> simp_all [Slot.isFree]
        | succ n => exact ih h n (by omega) x at_n

end Failed

-----------------------------------------------------------------------------------------
-- Room for every insertion
-----------------------------------------------------------------------------------------

/-- Free slots of a slot array. -/
def freeCount (slots : Array (Slot κ)) : Nat := slots.toList.countP Slot.isFree

namespace OpenTable

variable [DecidableEq κ] {t : OpenTable κ}

/-- An insertion probe into a prime table of at least three slots with fewer entries than slots
answers a slot. -/
theorem probe_succeeds (prime : t.capacity.Prime) (big : 3 ≤ t.capacity)
    (room : t.toList.length < t.capacity) (key : κ) : ∃ p, t.probe key = .ok p := by
  unfold probe
  dsimp only
  split
  · exact ⟨_, rfl⟩
  · rename_i failed
    obtain ⟨-, full⟩ := probeFrom_none failed
    obtain ⟨j, x, at_j, not_full⟩ := exists_not_full room
    obtain ⟨n, hn, walked⟩ := keyWalk_covers prime big key (lt_size_of_getElem? at_j)
    obtain ⟨k, v, at_n⟩ := full n hn
    simp only [keyWalk] at walked
    rw [capacity] at at_n
    rw [walked, at_j, Option.some.injEq] at at_n
    simp [at_n, Slot.isFull] at not_full

omit [DecidableEq κ] in
/-- A placement into a prime slot array of at least three slots with a free slot succeeds, and
takes exactly one free slot. -/
theorem place_succeeds {slots : Array (Slot κ)} (prime : slots.size.Prime) (big : 3 ≤ slots.size)
    (free : 0 < freeCount slots) (key : κ) (value : Int64)
    : ∃ slots', place slots key value = .ok slots' ∧ slots'.size = slots.size ∧
        freeCount slots' + 1 = freeCount slots := by
  unfold place
  dsimp only
  split
  · rename_i i found
    obtain ⟨n, hn, at_n, at_i, -⟩ := freeFrom_some (Nat.mod_lt _ (by omega)) found
    have hi := lt_size_of_getElem? at_i
    refine ⟨_, rfl, Array.size_setIfInBounds, ?_⟩
    have hi' : i < slots.toList.length := by simpa using hi
    have at_i' : slots.toList[i] = Slot.free := by
      simpa [Array.getElem?_eq_getElem hi] using at_i
    have count := List.countP_set (p := Slot.isFree) (a := Slot.full key value) hi'
    rw [at_i'] at count
    simp only [freeCount] at free ⊢
    simp only [Array.set!_eq_setIfInBounds, Array.toList_setIfInBounds, count]
    simp only [Slot.isFree, if_true, if_false, Bool.false_eq_true]
    omega
  · rename_i failed
    exfalso
    obtain ⟨x, mem, isFree⟩ := List.countP_pos_iff.mp free
    obtain ⟨j, hj, at_j⟩ := List.getElem_of_mem mem
    have hj' : j < slots.size := by simpa using hj
    obtain ⟨n, hn, walked⟩ := keyWalk_covers prime big key hj'
    simp only [keyWalk] at walked
    have := freeFrom_none failed n hn x (by
      rw [walked, Array.getElem?_eq_getElem hj']
      simpa using at_j)
    simp_all

omit [DecidableEq κ] in
/-- Placing entries one after another into a prime slot array with more free slots than entries
succeeds. -/
theorem foldlM_place_succeeds : ∀ {entries : List (κ × Int64)} {slots : Array (Slot κ)},
    slots.size.Prime → 3 ≤ slots.size → entries.length < freeCount slots →
      ∃ slots', entries.foldlM (fun s e => place s e.1 e.2) slots = .ok slots' ∧
        slots'.size = slots.size := by
  intro entries
  induction entries with
  | nil => intro slots _ _ _; exact ⟨slots, rfl, rfl⟩
  | cons e rest ih =>
      intro slots prime big room
      obtain ⟨slots₁, placed, size₁, free₁⟩ :=
        place_succeeds prime big (by simp at room; omega) e.1 e.2
      obtain ⟨slots', rest_placed, size'⟩ :=
        ih (size₁ ▸ prime) (size₁ ▸ big) (by simp at room; omega)
      exact ⟨slots', by rw [List.foldlM_cons]; simp [placed, bind, Except.bind, rest_placed],
        size'.trans size₁⟩

/-- Key-store bytes of the live entries. -/
def liveBytes (t : OpenTable κ) : Nat := (t.toList.map fun (k, _) => TableKey.storedSize k).sum

omit [DecidableEq κ] in
/-- A rebuild into a prime capacity of at least three slots, whose slot array is addressable
and which exceeds the entry count, succeeds when the live keys fit the key store: the rebuilt
table has `cap` slots, the fill limit of `cap`, no removed slots and a key store of the live
keys only. -/
theorem rehash_succeeds {cap : Nat} (prime : cap.Prime) (big : 3 ≤ cap)
    (allocatable : cap * slotWidth < signedLimit) (room : t.toList.length < cap)
    (bytes : t.liveBytes ≤ storeLimit)
    : ∃ slots : Array (Slot κ), slots.size = cap ∧
        t.rehash cap = .ok
          { t with slots := slots, maxFill := Table.maxFill cap t.loadFactor, removed := 0,
                   storeBytes := t.liveBytes, deadBytes := 0 } := by
  have allocated := @allocate_of_fits κ cap allocatable
  have fresh : freeCount (Array.replicate cap (Slot.free : Slot κ)) = cap := by
    simp [freeCount, List.countP_replicate, Slot.isFree]
  have fresh_room : t.toList.length < freeCount (Array.replicate cap (Slot.free : Slot κ)) := by
    rw [fresh]
    exact room
  obtain ⟨slots, placed, size⟩ := foldlM_place_succeeds (by simpa using prime) (by simpa using big)
    fresh_room
  rw [Array.size_replicate] at size
  refine ⟨slots, size, ?_⟩
  unfold rehash
  simp only [allocated, bind, Except.bind]
  split
  · rename_i exceeded
    exact absurd exceeded (Nat.not_lt.mpr bytes)
  · simp only [placed]
    rfl

end OpenTable

end MetricRegistry.Table
