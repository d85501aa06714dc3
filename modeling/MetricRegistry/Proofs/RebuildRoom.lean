import MetricRegistry.Proofs.LoadFactor
import MetricRegistry.Proofs.Representation

/-! Rebuilds always have room and probe sequences list every slot (`probeSequence_perm`); an
insertion probe, in contrast, answers only while some slot is not full
(`probes_cover_and_rebuilds_have_room`). -/

namespace MetricRegistry.Table

/-- The probe sequence of any hash in a table of prime capacity `p ≥ 3` lists every slot once. -/
theorem probeSequence_perm {p : Nat} (prime : p.Prime) (big : 3 ≤ p) (h : UInt64)
    : ((List.range p).map fun n => (OpenTable.home h p + n * OpenTable.stride h p) % p).Perm
        (List.range p) := by
  have hi := home_lt h (show 0 < p by omega)
  have walks : ((List.range p).map fun n => (OpenTable.home h p + n * OpenTable.stride h p) % p) =
      (List.range p).map (walk p (OpenTable.stride h p) (OpenTable.home h p)) :=
    List.map_congr_left (fun n _ => (walk_eq hi n).symm)
  have nodup : ((List.range p).map (walk p (OpenTable.stride h p) (OpenTable.home h p))).Nodup :=
    List.Nodup.map_on (fun a ha b hb same => walk_inj prime (stride_pos h p) (stride_lt h big) hi
      (List.mem_range.mp ha) (List.mem_range.mp hb) same) List.nodup_range
  rw [walks, List.perm_ext_iff_of_nodup nodup List.nodup_range]
  intro j
  simp only [List.mem_map, List.mem_range]
  constructor
  · rintro ⟨n, -, rfl⟩
    exact walk_lt hi n
  · intro hj
    exact walk_covers prime (stride_pos h p) (stride_lt h big) hi hj

namespace OpenTable

variable {κ : Type} [TableKey κ] [DecidableEq κ] {t : OpenTable κ}

omit [TableKey κ] [DecidableEq κ] in
/-- A new table was given a load factor strictly between zero and one. -/
theorem create_unit {expected : Nat} {lf : Float} (h : create expected lf = .ok t)
    : 0.0 < lf ∧ lf < 1.0 := by
  unfold create at h
  simp only [bind, Except.bind] at h
  split at h
  · simp at h
  · rename_i checked
    simpa using checked

omit [DecidableEq κ] in
/-- A rebuild into a prime capacity of at least three slots above the entry count places every
entry, when the live keys fit the key store; it fails only as making its slot array fails. -/
theorem rehash_placed {cap : Nat} (prime : cap.Prime) (big : 3 ≤ cap)
    (room : t.toList.length < cap) (bytes : t.liveBytes ≤ storeLimit)
    : (∃ t', t.rehash cap = .ok t') ∨
        ∃ e, (allocate cap : Except StoreError (Array (Slot κ))) = .error e ∧
          t.rehash cap = .error e := by
  cases allocated : (allocate cap : Except StoreError (Array (Slot κ))) with
  | error e => exact .inr ⟨e, rfl, by simp [rehash, allocated, bind, Except.bind]⟩
  | ok slots =>
      obtain ⟨_, -, rebuilt⟩ := rehash_succeeds prime big (allocate_addressable allocated) room bytes
      exact .inl ⟨_, rebuilt⟩

/-- How settling a table may go: it keeps the table, stops at a capacity the sizing cannot
compute, or rebuilds into a prime capacity above the entry count, a rebuild that places every
entry unless its slot array cannot be made. -/
def SettlesWithRoom (t : OpenTable κ) : Prop :=
  t.settle = .ok t ∨ (∃ e, t.settle = .error (.overflow e)) ∨
    ∃ cap, cap.Prime ∧ t.toList.length < cap ∧ t.settle = t.rehash cap ∧
      ((∃ t', t.rehash cap = .ok t') ∨
        ∃ e, (allocate cap : Except StoreError (Array (Slot κ))) = .error e ∧
          t.rehash cap = .error e)

omit [DecidableEq κ] in
/-- A counted table whose live keys fit the key store, at a load factor strictly between zero and
one, settles with room. A growth asks for the capacity of one entry more than the table holds,
or of twice its entries, which exceeds the entry count; a rebuild in place keeps a capacity
above the fill limit, which the entries are within. -/
theorem Counted.settlesWithRoom (hc : t.Counted) (bytes : t.liveBytes ≤ storeLimit)
    (pos : 0.0 < t.loadFactor) (below : t.loadFactor < 1.0) : t.SettlesWithRoom := by
  have listed := hc.len_eq
  by_cases overfull : t.len + t.removed > t.maxFill
  · obtain ⟨n, above, le, chosen⟩ := growth_count t
    have small : n < wordLimit := by
      have twice := hc.twice_len_lt
      have limit : 2 ≤ wordLimit := by
        unfold wordLimit
        omega
      omega
    have settled : t.settle = ((capacityFor n t.loadFactor).mapError StoreError.overflow >>=
        t.rehash) := by
      rw [OpenTable.settle, if_pos overfull, chosen]
    cases computed : capacityFor n t.loadFactor with
    | error e => exact .inr (.inl ⟨e, by rw [settled, computed]; rfl⟩)
    | ok cap =>
        obtain ⟨prime, least⟩ := capacityFor_spec computed
        have room : t.toList.length < cap := by
          have := lt_capacityFor pos below small computed
          omega
        have big : 3 ≤ cap := by
          simp only [minCapacity] at least
          omega
        exact .inr (.inr ⟨cap, prime, room, by rw [settled, computed]; rfl,
          rehash_placed prime big room bytes⟩)
  · have room : t.toList.length < t.capacity := by
      have := hc.sized.fill
      omega
    have usable := hc.sized.capacity
    by_cases dead : t.deadBytes > deadBytesFloor ∧ t.deadBytes > t.storeBytes - t.deadBytes
    · exact .inr (.inr ⟨t.capacity, usable.prime, room,
        by rw [OpenTable.settle, if_neg overfull, if_pos dead],
        rehash_placed usable.prime usable.three_le room bytes⟩)
    · exact .inl (by rw [OpenTable.settle, if_neg overfull, if_neg dead]; rfl)

/-- The table an insertion writes into the vacant slot its probe answered, before settling it,
settles with room: it is counted, its live keys fit the key store, and it keeps the load
factor. -/
theorem Represented.written_settlesWithRoom (h : t.Represented) (pos : 0.0 < t.loadFactor)
    (below : t.loadFactor < 1.0) {key : κ} {value : Int64} {i storeBytes : Nat}
    (probed : t.probe key = .ok (.vacant i)) (stored : t.storeKey key = .ok storeBytes)
    : (t.written i key value storeBytes).SettlesWithRoom := by
  have first : StepBound t (t.written i key value storeBytes) ∧ _ :=
    h.toCounted.settle_written probed (by rfl) (by rfl) (by rfl) (by rfl) (by rfl)
  have counted := first.1.counted
  have accounted : (t.written i key value storeBytes).Accounted :=
    h.toAccounted.written h.sound probed stored
  have bytes : (t.written i key value storeBytes).liveBytes ≤ storeLimit := by
    have := accounted.store_eq
    have := accounted.store_le
    omega
  exact counted.settlesWithRoom bytes pos below

end OpenTable

/-- Probe sequences cover the table, and rebuilds have room. For every prime `p ≥ 7` and every
hash, the first `p` slots of the probe sequence are all `p` slots, each once. For every table a
run reaches from a new one, whatever the operations and whether each succeeds or fails, an
insertion probe answers while some slot is not full; and the table an insertion writes settles
by keeping itself, by failing to compute a capacity, or by a rebuild into a prime capacity above
its entry count that places every entry unless its slot array is refused. A probe can fail: once
refused growths have filled every slot, an insertion of a new key finds no vacant slot. -/
theorem probes_cover_and_rebuilds_have_room {κ : Type} [TableKey κ] [DecidableEq κ]
    : (∀ p, p.Prime → 7 ≤ p → ∀ h : UInt64,
        ((List.range p).map fun n => (OpenTable.home h p + n * OpenTable.stride h p) % p).Perm
          (List.range p)) ∧
      ∀ (expected : Nat) (lf : Float) (ops : List (TableOp κ)),
        match (OpenTable.create expected lf : Except StoreError (OpenTable κ)) with
        | .ok t =>
          (∀ key, (t.afterAll ops).toList.length < (t.afterAll ops).capacity →
            ∃ p, (t.afterAll ops).probe key = .ok p) ∧
          ∀ key value i storeBytes, (t.afterAll ops).probe key = .ok (.vacant i) →
            (t.afterAll ops).storeKey key = .ok storeBytes →
            ((t.afterAll ops).written i key value storeBytes).SettlesWithRoom
        | .error _ => True := by
  refine ⟨fun p prime big h => probeSequence_perm prime (by omega) h, fun expected lf ops => ?_⟩
  split
  · rename_i t created
    have run := (OpenTable.create_represented created).afterAll ops
    have loadFactor : (t.afterAll ops).loadFactor = lf :=
      ((OpenTable.create_grown created).afterAll ops).loadFactor.trans
        (OpenTable.create_refines created).2.1
    obtain ⟨pos, below⟩ := OpenTable.create_unit created
    rw [← loadFactor] at pos below
    exact ⟨fun key room => OpenTable.probe_succeeds run.sized.capacity.prime
      run.sized.capacity.three_le room key,
      fun key value i storeBytes probed stored =>
        run.written_settlesWithRoom pos below probed stored⟩
  · trivial

/-- Three insertions of new keys, which fill a table of seven slots to its limit at load factor
`0.5`. -/
def threeKeys : List (TableOp String) := [.insert "a" 1, .insert "b" 2, .insert "c" 3]

/-- Probes cover a table of seven slots. After `threeKeys` a fourth key probes to a vacant slot,
and the table writing it there leaves, past its fill limit, settles with room. -/
theorem probes_cover_and_rebuilds_have_room_sample
    : (∀ h : UInt64, ((List.range 7).map fun n =>
          (OpenTable.home h 7 + n * OpenTable.stride h 7) % 7).Perm (List.range 7)) ∧
      ∃ t, (OpenTable.create 0 0.5 : Except StoreError (OpenTable String)) = .ok t ∧
        (t.afterAll threeKeys).toList.length < (t.afterAll threeKeys).capacity ∧
        (∃ p, (t.afterAll threeKeys).probe "d" = .ok p) ∧
        (t.afterAll threeKeys).probe "d" = .ok (.vacant 5) ∧
        (t.afterAll threeKeys).storeKey "d" = .ok 4 ∧
        ((t.afterAll threeKeys).written 5 "d" 4 4).SettlesWithRoom := by
  obtain ⟨cover, run⟩ := @probes_cover_and_rebuilds_have_room String _ _
  have facts : ((OpenTable.create 0 0.5 : Except StoreError (OpenTable String)).map fun t =>
      (decide ((t.afterAll threeKeys).toList.length < (t.afterAll threeKeys).capacity),
        (t.afterAll threeKeys).probe "d", (t.afterAll threeKeys).storeKey "d")) =
      .ok (true, .ok (.vacant 5), .ok 4) := by
    decide +kernel
  obtain ⟨t, created, facts⟩ := except_map_eq_ok facts
  simp only [Prod.mk.injEq, decide_eq_true_eq] at facts
  obtain ⟨room, probed, stored⟩ := facts
  have settles := run 0 0.5 threeKeys
  rw [created] at settles
  obtain ⟨answers, rebuilds⟩ := settles
  exact ⟨cover 7 (by decide) le_rfl, t, created, room, answers "d" room, probed, stored,
    rebuilds "d" 4 5 4 probed stored⟩

end MetricRegistry.Table
