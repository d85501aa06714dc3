import MetricRegistry.Proofs.Opening

/-! What a consistent store answers: its caches hold exactly the entries of the live records, so
lookups by name and key, locations and `get` answer from the live records alone. -/

namespace MetricRegistry.Log

open Disk

/-- The identity that record `i` holds when the record is live: it reads, its flag does not mark
it deleted, and it decodes. -/
def IdentityLog.liveRecord (l : IdentityLog) (d : Disk) (i : Nat) : Option Identity :=
  match l.read d i with
  | .ok bytes => if Record.isTombstoned bytes then none else (Record.decode bytes).toOption
  | .error _ => none

/-- In a log of records the codec wrote, the live records are those not deleted. -/
theorem Stored.liveRecord_iff {d : Disk} {l : IdentityLog} {rs : List Identity}
    (h : Stored d l (rs.map Record.stored)) (canonical : ∀ r ∈ rs, Record.Canonical r)
    (i : Nat) (r : Identity)
    : l.liveRecord d i = some r ↔ Store.LiveAt rs i r := by
  cases hi : rs[i]? with
  | none =>
      have past : (rs.map Record.stored).length ≤ i := by
        simpa using List.getElem?_eq_none_iff.mp hi
      obtain ⟨e, range⟩ := h.reads.recordRange_error past
      have unread : l.read d i = .error e := by
        simp [IdentityLog.read, range, bind, Except.bind]
      simp [IdentityLog.liveRecord, unread, Store.LiveAt, hi]
  | some x =>
      have hk : (rs.map Record.stored)[i]? = some (Record.stored x) := by simp [hi]
      have decoded := Record.decode_stored (canonical x (List.mem_of_getElem? hi))
      simp only [IdentityLog.liveRecord, h.reads.read_eq hk, Record.isTombstoned_stored, decoded,
        Store.LiveAt, hi, Option.some.injEq]
      cases dead : x.tombstoned with
      | true =>
          simp only [if_true, reduceCtorEq, false_iff, not_and]
          intro same
          rw [← same, dead]
          simp
      | false =>
          simp only [Bool.false_eq_true, if_false, Except.toOption, Option.some.injEq]
          exact ⟨fun same => ⟨same, same ▸ dead⟩, And.left⟩

end MetricRegistry.Log

namespace MetricRegistry.Store

open Disk Log Table Record


/-- The identity that record `i` of the store's log holds when the record is live. -/
def liveRecord (st : Store) (i : Nat) : Option Identity := st.log.liveRecord st.disk i

/-- The caches of `st` hold exactly the entries of its live records, and no two live records
share an id, a name or an opaque key. -/
structure Coherent (st : Store) : Prop where
  names : ∀ n g, st.caches.names.get n = some g ↔
    ∃ i r, st.liveRecord i = some r ∧ r.name = some n ∧ r.globalId = g
  keys : ∀ k g, st.caches.opaqueKeys.get k = some g ↔
    ∃ i r, st.liveRecord i = some r ∧ r.opaqueKey = some k ∧ r.globalId = g
  locations : ∀ g v, st.caches.locations.get g = some v ↔
    ∃ i r, st.liveRecord i = some r ∧ r.globalId = g ∧ v = Int64.ofNat i
  ids : ∀ {i j r r'}, st.liveRecord i = some r → st.liveRecord j = some r' →
    r.globalId = r'.globalId → i = j
  names_apart : ∀ {i j r r' n}, st.liveRecord i = some r → st.liveRecord j = some r' →
    r.name = some n → r'.name = some n → i = j
  keys_apart : ∀ {i j r r' k}, st.liveRecord i = some r → st.liveRecord j = some r' →
    r.opaqueKey = some k → r'.opaqueKey = some k → i = j

/-- The store's lookups answer from its live records: a name or an opaque key gives the id of
the live record carrying it, an id gives the index of its live record, and `get` never fails and
gives that record. -/
structure LookupsAgree (st : Store) : Prop where
  lookupName : ∀ n g, st.lookupName n = some g ↔
    ∃ i r, st.liveRecord i = some r ∧ r.name = some n ∧ r.globalId = g
  lookupKey : ∀ k g, st.lookupKey k = some g ↔
    ∃ i r, st.liveRecord i = some r ∧ r.opaqueKey = some k ∧ r.globalId = g
  locationOf : ∀ g i, st.locationOf g = some i ↔
    ∃ r, st.liveRecord i = some r ∧ r.globalId = g
  get : ∀ g, ∃ found, st.get g = .ok found ∧
    ∀ r, found = some r ↔ ∃ i, st.liveRecord i = some r ∧ r.globalId = g

section Consistent

variable {st : Store} {rs : List Identity}

theorem Consistent.liveRecord_iff (hc : st.Consistent rs) (i : Nat) (r : Identity)
    : st.liveRecord i = some r ↔ LiveAt rs i r :=
  hc.indexed.stored.liveRecord_iff hc.indexed.canonical i r

/-- A consistent store is coherent: its caches answer for its live records, which are apart. -/
theorem Consistent.coherent (hc : st.Consistent rs) : st.Coherent := by
  have live := hc.liveRecord_iff
  have indexed : Indexed rs st.caches := hc.indexed.indexed
  have distinct := hc.indexed.distinct
  refine ⟨fun n g => ?_, fun k g => ?_, fun g v => ?_, fun hi hj same => ?_,
    fun hi hj named named' => ?_, fun hi hj keyed keyed' => ?_⟩
  · rw [indexed.names n g]
    simp only [live, nameEntry, Option.map_eq_some_iff, Prod.mk.injEq]
    constructor
    · rintro ⟨i, r, alive, n', named, rfl, rfl⟩
      exact ⟨i, r, alive, named, rfl⟩
    · rintro ⟨i, r, alive, named, rfl⟩
      exact ⟨i, r, alive, n, named, rfl, rfl⟩
  · rw [indexed.keys k g]
    simp only [live, keyEntry, Option.map_eq_some_iff, Prod.mk.injEq]
    constructor
    · rintro ⟨i, r, alive, k', keyed, rfl, rfl⟩
      exact ⟨i, r, alive, keyed, rfl⟩
    · rintro ⟨i, r, alive, keyed, rfl⟩
      exact ⟨i, r, alive, k, keyed, rfl, rfl⟩
  · rw [indexed.locations g v]
    simp only [live, locationEntry, Option.some.injEq, Prod.mk.injEq]
    constructor
    · rintro ⟨i, r, alive, id, rfl⟩
      exact ⟨i, r, alive, id, rfl⟩
    · rintro ⟨i, r, alive, id, rfl⟩
      exact ⟨i, r, alive, id, rfl⟩
  · rw [live] at hi hj
    exact distinct.ids.apart hi hj (by rw [locationEntry, same]) rfl
  · rw [live] at hi hj
    exact distinct.names.apart hi hj (by rw [nameEntry, named]; rfl)
      (by rw [nameEntry, named']; rfl)
  · rw [live] at hi hj
    exact distinct.keys.apart hi hj (by rw [keyEntry, keyed]; rfl)
      (by rw [keyEntry, keyed']; rfl)

/-- A live record's name is never empty: the store keeps only non-empty names. -/
theorem Consistent.name_ne_empty (hc : st.Consistent rs) {i : Nat} {r : Identity}
    (alive : st.liveRecord i = some r) : r.name ≠ some "" := fun empty => by
  have kept := (hc.indexed.canonical r
    (List.mem_of_getElem? ((hc.liveRecord_iff i r).mp alive).1)).name
  rw [empty] at kept
  simp [Identity.keepName] at kept

/-- A live record's opaque key is never empty. -/
theorem Consistent.key_ne_empty (hc : st.Consistent rs) {i : Nat} {r : Identity}
    (alive : st.liveRecord i = some r) {k : ByteArray} (keyed : r.opaqueKey = some k)
    : k.size ≠ 0 := fun empty => by
  have kept := (hc.indexed.canonical r
    (List.mem_of_getElem? ((hc.liveRecord_iff i r).mp alive).1)).key
  rw [keyed] at kept
  simp [Identity.keepKey, empty] at kept

theorem Consistent.index_small (hc : st.Consistent rs) {i : Nat} {r : Identity}
    (alive : st.liveRecord i = some r) : (Int64.ofNat i).toUInt64.toNat = i :=
  toNat_toUInt64_ofNat
    (Nat.lt_trans ((hc.liveRecord_iff i r).mp alive).lt_length hc.indexed.short)

/-- The record an id's location holds is the id's live record. -/
theorem Consistent.get_located (hc : st.Consistent rs) {g : Int64} {i : Nat} {r : Identity}
    (alive : st.liveRecord i = some r) (id : r.globalId = g)
    : st.get g = .ok (some r) := by
  have located := ((hc.coherent).locations g (Int64.ofNat i)).mpr ⟨i, r, alive, id, rfl⟩
  have liveAt := (hc.liveRecord_iff i r).mp alive
  have hk : (rs.map Record.stored)[i]? = some (Record.stored r) := by simp [liveAt.1]
  have read : st.log.read st.disk i = .ok (Record.stored r) := hc.indexed.stored.reads.read_eq hk
  have decoded := decode_stored (hc.indexed.canonical r (List.mem_of_getElem? liveAt.1))
  simp only [Store.get, located, hc.index_small alive, read, decoded, bind, Except.bind, pure,
    Except.pure, liveAt.2, id, bne_self_eq_false, Bool.or_self, Bool.false_eq_true, if_false]

/-- A consistent store's lookups answer from its live records. -/
theorem Consistent.lookupsAgree (hc : st.Consistent rs) : st.LookupsAgree := by
  have coherent := hc.coherent
  refine ⟨fun n g => ?_, fun k g => ?_, fun g i => ?_, fun g => ?_⟩
  · unfold Store.lookupName
    by_cases empty : n.isEmpty
    · simp only [empty, if_true, reduceCtorEq, false_iff, not_exists, not_and]
      intro i r alive named _
      exact hc.name_ne_empty alive (by rw [named, String.isEmpty_iff.mp empty])
    · rw [if_neg empty]
      exact coherent.names n g
  · unfold Store.lookupKey
    by_cases empty : k.size = 0
    · simp only [empty, if_true, reduceCtorEq, false_iff, not_exists, not_and]
      intro i r alive keyed _
      exact hc.key_ne_empty alive keyed empty
    · rw [if_neg empty]
      exact coherent.keys k g
  · unfold Store.locationOf
    simp only [Option.map_eq_some_iff]
    constructor
    · rintro ⟨v, located, rfl⟩
      obtain ⟨j, r, alive, id, rfl⟩ := (coherent.locations g v).mp located
      exact ⟨r, by rw [hc.index_small alive]; exact alive, id⟩
    · rintro ⟨r, alive, id⟩
      exact ⟨Int64.ofNat i, (coherent.locations g _).mpr ⟨i, r, alive, id, rfl⟩,
        hc.index_small alive⟩
  · by_cases known : ∃ i r, st.liveRecord i = some r ∧ r.globalId = g
    · obtain ⟨i, r, alive, id⟩ := known
      refine ⟨some r, hc.get_located alive id, fun r' => ⟨?_, ?_⟩⟩
      · intro found
        cases found
        exact ⟨i, alive, id⟩
      · rintro ⟨j, alive', id'⟩
        obtain rfl := coherent.ids alive alive' (id.trans id'.symm)
        rw [alive] at alive'
        exact alive'
    · have absent : st.caches.locations.get g = none := by
        cases located : st.caches.locations.get g with
        | none => rfl
        | some v =>
            obtain ⟨i, r, alive, id, -⟩ := (coherent.locations g v).mp located
            exact absurd ⟨i, r, alive, id⟩ known
      refine ⟨none, by simp [Store.get, absent, pure, Except.pure], fun r => ⟨?_, ?_⟩⟩
      · intro found
        cases found
      · rintro ⟨i, alive, id⟩
        exact absurd ⟨i, r, alive, id⟩ known

end Consistent

-----------------------------------------------------------------------------------------
-- Stores with the same live records
-----------------------------------------------------------------------------------------

/-- Two lists of records whose live records are the same identities have the same live records
with any property. -/
theorem exists_live_congr {rs rs' : List Identity}
    (same : ∀ r, (∃ i, LiveAt rs' i r) ↔ ∃ i, LiveAt rs i r) (P : Identity → Prop)
    : (∃ i r, LiveAt rs' i r ∧ P r) ↔ ∃ i r, LiveAt rs i r ∧ P r := by
  constructor
  · rintro ⟨i, r, live, holds⟩
    obtain ⟨j, live'⟩ := (same r).mp ⟨i, live⟩
    exact ⟨j, r, live', holds⟩
  · rintro ⟨i, r, live, holds⟩
    obtain ⟨j, live'⟩ := (same r).mpr ⟨i, live⟩
    exact ⟨j, r, live', holds⟩

section Same

variable {st st' : Store} {rs rs' : List Identity}

/-- Two consistent stores whose live records are the same identities answer a lookup by name
alike, wherever their records lie. -/
theorem Consistent.lookupName_eq (hc : st.Consistent rs) (hc' : st'.Consistent rs')
    (same : ∀ r, (∃ i, LiveAt rs' i r) ↔ ∃ i, LiveAt rs i r) (n : String)
    : st'.lookupName n = st.lookupName n := by
  refine Option.ext fun g => ?_
  simp only [hc'.lookupsAgree.lookupName, hc.lookupsAgree.lookupName,
    hc'.liveRecord_iff, hc.liveRecord_iff]
  exact exists_live_congr same fun r => r.name = some n ∧ r.globalId = g

/-- Two consistent stores whose live records are the same identities answer a lookup by opaque
key alike. -/
theorem Consistent.lookupKey_eq (hc : st.Consistent rs) (hc' : st'.Consistent rs')
    (same : ∀ r, (∃ i, LiveAt rs' i r) ↔ ∃ i, LiveAt rs i r) (k : ByteArray)
    : st'.lookupKey k = st.lookupKey k := by
  refine Option.ext fun g => ?_
  simp only [hc'.lookupsAgree.lookupKey, hc.lookupsAgree.lookupKey,
    hc'.liveRecord_iff, hc.liveRecord_iff]
  exact exists_live_congr same fun r => r.opaqueKey = some k ∧ r.globalId = g

/-- Two consistent stores whose live records are the same identities give every id the same
record. -/
theorem Consistent.get_eq (hc : st.Consistent rs) (hc' : st'.Consistent rs')
    (same : ∀ r, (∃ i, LiveAt rs' i r) ↔ ∃ i, LiveAt rs i r) (g : Int64)
    : st'.get g = st.get g := by
  obtain ⟨found, got, spec⟩ := hc.lookupsAgree.get g
  obtain ⟨found', got', spec'⟩ := hc'.lookupsAgree.get g
  rw [got, got', Except.ok.injEq]
  refine Option.ext fun r => ?_
  simp only [spec, spec', hc.liveRecord_iff, hc'.liveRecord_iff,
    exists_and_right, same r]

end Same


end MetricRegistry.Store
