import MetricRegistry.Proofs.Table
import MetricRegistry.Record.Identity

/-! What it means for the three caches to index a list of records (`Answers`, `Unique`), and how
appending or deleting a record acts on both through one put or one guarded removal. -/

namespace MetricRegistry.Store

open Table

-----------------------------------------------------------------------------------------
-- Live records
-----------------------------------------------------------------------------------------

/-- Record `i` of `rs` is `r`, and `r` is not deleted. -/
def LiveAt (rs : List Identity) (i : Nat) (r : Identity) : Prop :=
  rs[i]? = some r ∧ r.tombstoned = false

theorem LiveAt.lt_length {rs : List Identity} {i : Nat} {r : Identity} (h : LiveAt rs i r)
    : i < rs.length :=
  (List.getElem?_eq_some_iff.mp h.1).1

theorem liveAt_append {rs : List Identity} {x r : Identity} {i : Nat}
    : LiveAt (rs ++ [x]) i r ↔ LiveAt rs i r ∨ (i = rs.length ∧ r = x ∧ x.tombstoned = false) := by
  unfold LiveAt
  rw [List.getElem?_append]
  by_cases inside : i < rs.length
  · simp only [inside, if_true]
    constructor
    · exact .inl
    · rintro (live | ⟨same, -⟩)
      · exact live
      · omega
  · simp only [inside, if_false, List.getElem?_singleton]
    have notHere : rs[i]? = none := List.getElem?_eq_none (Nat.le_of_not_lt inside)
    by_cases last : i - rs.length = 0
    · simp only [last, if_true, Option.some.injEq, notHere, reduceCtorEq, false_and, false_or]
      constructor
      · rintro ⟨rfl, live⟩
        exact ⟨by omega, rfl, live⟩
      · rintro ⟨-, rfl, live⟩
        exact ⟨rfl, live⟩
    · simp only [last, if_false, reduceCtorEq, false_and, notHere, false_or, false_iff, not_and]
      intro same
      omega

theorem LiveAt.append_right {rs : List Identity} {i : Nat} {r : Identity} (h : LiveAt rs i r)
    (more : List Identity) : LiveAt (rs ++ more) i r :=
  ⟨by rw [List.getElem?_append_left h.lt_length]; exact h.1, h.2⟩

theorem liveAt_append_length {rs more : List Identity} {x : Identity}
    (alive : x.tombstoned = false) : LiveAt (rs ++ x :: more) rs.length x :=
  ⟨by simp, alive⟩

theorem liveAt_retire {rs : List Identity} {k : Nat} {x : Identity} (hk : rs[k]? = some x)
    {i : Nat} {r : Identity}
    : LiveAt (rs.set k { x with tombstoned := true }) i r ↔ LiveAt rs i r ∧ i ≠ k := by
  unfold LiveAt
  rw [List.getElem?_set]
  have inside := (List.getElem?_eq_some_iff.mp hk).1
  by_cases here : k = i
  · subst here
    simp only [inside, if_true, Option.some.injEq, ne_eq, not_true_eq_false, and_false,
      iff_false, not_and]
    rintro rfl
    simp
  · simp only [here, if_false, ne_eq, Ne.symm here, not_false_eq_true, and_true]

-----------------------------------------------------------------------------------------
-- A cache answering for live records
-----------------------------------------------------------------------------------------

/-- No two live records of `rs` give an entry under the same key. -/
structure Unique {κ : Type} (rs : List Identity) (entry : Nat → Identity → Option (κ × Int64)) :
    Prop where
  apart : ∀ {i j : Nat} {r r' : Identity} {k : κ} {v v' : Int64}, LiveAt rs i r →
    LiveAt rs j r' → entry i r = some (k, v) → entry j r' = some (k, v') → i = j

section Answers

variable {κ : Type} [DecidableEq κ] [TableKey κ]
variable {c c' : Cache κ} {rs : List Identity} {entry : Nat → Identity → Option (κ × Int64)}

/-- `c` answers for the live records of `rs` through `entry`: it maps `k` to `v` exactly when
some live record gives the entry `(k, v)`. -/
def Answers (c : Cache κ) (rs : List Identity) (entry : Nat → Identity → Option (κ × Int64)) :
    Prop :=
  ∀ k v, c.get k = some v ↔ ∃ i r, LiveAt rs i r ∧ entry i r = some (k, v)

/-- An empty cache answers for records of which none is live. -/
theorem answers_empty (empty : ∀ k, c.get k = none) (dead : ∀ i r, ¬ LiveAt rs i r)
    : Answers c rs entry := fun k v => by
  simp only [empty, reduceCtorEq, false_iff, not_exists, not_and]
  exact fun i r live => absurd live (dead i r)

theorem Answers.get_of_live (h : Answers c rs entry) {i : Nat} {r : Identity} {k : κ} {v : Int64}
    (live : LiveAt rs i r) (he : entry i r = some (k, v)) : c.get k = some v :=
  (h k v).mpr ⟨i, r, live, he⟩

/-- A key the cache does not hold is given by no live record. -/
theorem Answers.absent (h : Answers c rs entry) {k : κ} (none : c.get k = none) {i : Nat}
    {r : Identity} {v : Int64} (live : LiveAt rs i r) : entry i r ≠ some (k, v) := fun he => by
  rw [h.get_of_live live he] at none
  cases none

/-- Appending a record that is deleted, or that gives no entry, changes nothing to answer. -/
theorem Answers.append_quiet (h : Answers c rs entry) {x : Identity}
    (quiet : x.tombstoned = true ∨ entry rs.length x = none) : Answers c (rs ++ [x]) entry :=
  fun k v => by
    rw [h k v]
    simp only [liveAt_append]
    constructor
    · rintro ⟨i, r, live, he⟩
      exact ⟨i, r, .inl live, he⟩
    · rintro ⟨i, r, live | ⟨rfl, rfl, alive⟩, he⟩
      · exact ⟨i, r, live, he⟩
      · rcases quiet with dead | none
        · simp [alive] at dead
        · simp [none] at he

/-- Appending a live record whose entry's key no live record gives is answered by putting that
entry into the cache. -/
theorem Answers.append_put (h : Answers c rs entry) (hs : c.Sound) {x : Identity} {k : κ}
    {v : Int64} (alive : x.tombstoned = false) (he : entry rs.length x = some (k, v))
    (fresh : ∀ i r v', LiveAt rs i r → entry i r ≠ some (k, v')) {prev : Option Int64}
    (put : c.put k v = .ok prev c') : Answers c' (rs ++ [x]) entry := fun k' v' => by
  rw [(Cache.put_ok hs put).2.2 k']
  simp only [liveAt_append]
  by_cases same : k' = k
  · subst same
    simp only [if_true, Option.some.injEq]
    constructor
    · rintro rfl
      exact ⟨rs.length, x, .inr ⟨rfl, rfl, alive⟩, he⟩
    · rintro ⟨i, r, live | ⟨rfl, rfl, -⟩, he'⟩
      · exact absurd he' (fresh i r v' live)
      · rw [he] at he'
        simpa using he'
  · rw [if_neg same, h k' v']
    constructor
    · rintro ⟨i, r, live, he'⟩
      exact ⟨i, r, .inl live, he'⟩
    · rintro ⟨i, r, live | ⟨rfl, rfl, -⟩, he'⟩
      · exact ⟨i, r, live, he'⟩
      · rw [he] at he'
        simp only [Option.some.injEq, Prod.mk.injEq] at he'
        exact absurd he'.1.symm same

/-- Deleting a live record is answered by removing its entry while it still maps to the
record's value; the guard holds, since the cache answers for that record. -/
theorem Answers.retire (h : Answers c rs entry) (hs : c.Sound) (unique : Unique rs entry)
    {i : Nat} {x : Identity} {k : κ} {v : Int64} (live : LiveAt rs i x)
    (he : entry i x = some (k, v))
    : Answers (c.removeIf k v).2 (rs.set i { x with tombstoned := true }) entry := fun k' v' => by
  rw [(Cache.removeIf_spec hs v).2 k', h.get_of_live live he]
  simp only [and_true, liveAt_retire live.1]
  by_cases same : k' = k
  · subst same
    simp only [if_true, reduceCtorEq, false_iff, not_exists, not_and]
    intro j r live' he'
    exact live'.2 (unique.apart live'.1 live he' he)
  · rw [if_neg same, h k' v']
    constructor
    · rintro ⟨j, r, live', he'⟩
      refine ⟨j, r, ⟨live', fun here => ?_⟩, he'⟩
      subst here
      obtain rfl : r = x := Option.some.inj (live'.1.symm.trans live.1)
      rw [he] at he'
      simp only [Option.some.injEq, Prod.mk.injEq] at he'
      exact same he'.1.symm
    · rintro ⟨j, r, ⟨live', -⟩, he'⟩
      exact ⟨j, r, live', he'⟩

/-- `c'` is `c` with the entry `e` put in, when there is one. -/
def PutsEntry (c : Cache κ) : Option (κ × Int64) → Cache κ → Prop
  | none, c' => c' = c
  | some (k, v), c' => ∃ prev, c.put k v = .ok prev c'

/-- `c` with the entry `e` removed while it still holds, when there is one. -/
def dropEntry (c : Cache κ) : Option (κ × Int64) → Cache κ
  | none => c
  | some (k, v) => (c.removeIf k v).2

theorem PutsEntry.sound {e : Option (κ × Int64)} (hs : c.Sound) (h : PutsEntry c e c')
    : c'.Sound := by
  cases e with
  | none => exact (show c' = c from h) ▸ hs
  | some kv =>
      obtain ⟨_, put⟩ := h
      exact (Cache.put_ok hs put).1

theorem sound_dropEntry (hs : c.Sound) (e : Option (κ × Int64)) : (dropEntry c e).Sound := by
  cases e with
  | none => exact hs
  | some kv => exact (Cache.removeIf_spec hs kv.2).1

/-- Deleting a record that gives no entry changes nothing to answer. -/
theorem Answers.retire_quiet (h : Answers c rs entry) {i : Nat} {x : Identity}
    (hx : rs[i]? = some x) (he : entry i x = none)
    : Answers c (rs.set i { x with tombstoned := true }) entry := fun k v => by
  rw [h k v]
  simp only [liveAt_retire hx]
  constructor
  · rintro ⟨j, r, live, he'⟩
    refine ⟨j, r, ⟨live, fun here => ?_⟩, he'⟩
    subst here
    rw [live.1] at hx
    cases hx
    simp [he] at he'
  · rintro ⟨j, r, ⟨live, -⟩, he'⟩
    exact ⟨j, r, live, he'⟩

/-- Appending a live record is answered by putting its entry in, provided no live record gives
an entry under that key yet. -/
theorem Answers.append (h : Answers c rs entry) (hs : c.Sound) {x : Identity}
    (alive : x.tombstoned = false)
    (fresh : ∀ k v, entry rs.length x = some (k, v) → ∀ i r v', LiveAt rs i r →
      entry i r ≠ some (k, v'))
    (puts : PutsEntry c (entry rs.length x) c') : Answers c' (rs ++ [x]) entry := by
  cases he : entry rs.length x with
  | none =>
      rw [he] at puts
      exact (show c' = c from puts) ▸ Answers.append_quiet h (.inr he)
  | some kv =>
      rw [he] at puts
      obtain ⟨_, put⟩ := puts
      exact Answers.append_put h hs alive he (fresh kv.1 kv.2 he) put

/-- Deleting a live record is answered by dropping its entry. -/
theorem Answers.retire_entry (h : Answers c rs entry) (hs : c.Sound) (unique : Unique rs entry)
    {i : Nat} {x : Identity} (live : LiveAt rs i x)
    : Answers (dropEntry c (entry i x)) (rs.set i { x with tombstoned := true }) entry := by
  cases he : entry i x with
  | none => exact Answers.retire_quiet h live.1 he
  | some kv => exact Answers.retire h hs unique live he

end Answers

section Unique

variable {κ : Type} {rs : List Identity} {entry : Nat → Identity → Option (κ × Int64)}

theorem Unique.append (h : Unique rs entry) {x : Identity}
    (fresh : ∀ k v, entry rs.length x = some (k, v) → ∀ i r v', LiveAt rs i r →
      entry i r ≠ some (k, v'))
    : Unique (rs ++ [x]) entry := by
  refine ⟨fun {i j r r' k v v'} live live' he he' => ?_⟩
  rw [liveAt_append] at live live'
  rcases live with live | ⟨rfl, rfl, -⟩ <;> rcases live' with live' | ⟨rfl, rfl, -⟩
  · exact h.apart live live' he he'
  · exact absurd he (fresh k v' he' i r v live)
  · exact absurd he' (fresh k v he j r' v' live')
  · rfl

/-- In a list whose live records give distinct keys, a live record gives no key that a live
record before it gives. -/
theorem Unique.fresh_of_prefix {pre more : List Identity} {x : Identity}
    (h : Unique (pre ++ x :: more) entry) (alive : x.tombstoned = false)
    : ∀ k v, entry pre.length x = some (k, v) → ∀ i r v', LiveAt pre i r →
        entry i r ≠ some (k, v') := by
  intro k v he i r v' live same
  have := h.apart (live.append_right (x :: more)) (liveAt_append_length alive) same he
  exact Nat.lt_irrefl _ (this ▸ live.lt_length)

theorem Unique.retire (h : Unique rs entry) {i : Nat} {x : Identity} (hx : rs[i]? = some x)
    : Unique (rs.set i { x with tombstoned := true }) entry := by
  refine ⟨fun {j j' r r' k v v'} live live' he he' => ?_⟩
  rw [liveAt_retire hx] at live live'
  exact h.apart live.1 live'.1 he he'

end Unique

-----------------------------------------------------------------------------------------
-- The three caches of a store
-----------------------------------------------------------------------------------------

/-- The name cache's entry for a record: its name, to its id. -/
def nameEntry (_ : Nat) (r : Identity) : Option (String × Int64) := r.name.map (·, r.globalId)

/-- The opaque-key cache's entry for a record: its key, to its id. -/
def keyEntry (_ : Nat) (r : Identity) : Option (ByteArray × Int64) :=
  r.opaqueKey.map (·, r.globalId)

/-- The location cache's entry for record `i`: its id, to `i`. -/
def locationEntry (i : Nat) (r : Identity) : Option (Int64 × Int64) :=
  some (r.globalId, Int64.ofNat i)

/-- The caches answer for exactly the live records of `rs`: a name or an opaque key maps to the
id of the live record that carries it, and an id to the index of its live record. -/
structure Indexed (rs : List Identity) (c : CacheSet) : Prop where
  names : Answers c.names rs nameEntry
  keys : Answers c.opaqueKeys rs keyEntry
  locations : Answers c.locations rs locationEntry

/-- No two live records share an id, a name or an opaque key. -/
structure Distinct (rs : List Identity) : Prop where
  ids : Unique rs locationEntry
  names : Unique rs nameEntry
  keys : Unique rs keyEntry

theorem Unique.ids {rs : List Identity} (h : Unique rs locationEntry) {i j : Nat}
    {r r' : Identity} (live : LiveAt rs i r) (live' : LiveAt rs j r')
    (same : r.globalId = r'.globalId) : i = j :=
  h.apart live live' rfl (by rw [locationEntry, same])

theorem toNat_toUInt64_ofNat {i : Nat} (small : i < 2 ^ 63)
    : (Int64.ofNat i).toUInt64.toNat = i := by
  simp only [Int64.toUInt64_ofNat', UInt64.toNat_ofNat']
  omega

/-- A location cache that answers for records fewer than `2 ^ 63` keeps their ids apart: two
live records with one id would be at one location. -/
theorem Answers.unique_ids {c : Cache Int64} {rs : List Identity}
    (h : Answers c rs locationEntry) (short : rs.length < 2 ^ 63) : Unique rs locationEntry := by
  refine ⟨fun {i j r r' g v v'} live live' he he' => ?_⟩
  simp only [locationEntry, Option.some.injEq, Prod.mk.injEq] at he he'
  obtain ⟨rfl, rfl⟩ := he
  obtain ⟨same, rfl⟩ := he'
  have atI := h.get_of_live live rfl
  have atJ := h.get_of_live live' (by rw [locationEntry, same])
  rw [atI, Option.some.injEq] at atJ
  have := congrArg (fun v : Int64 => v.toUInt64.toNat) atJ
  simp only [toNat_toUInt64_ofNat (Nat.lt_trans live.lt_length short),
    toNat_toUInt64_ofNat (Nat.lt_trans live'.lt_length short)] at this
  exact this

/-- A key cache whose entries map to ids keeps its keys apart once ids are apart: two live
records under one key map to one id. -/
theorem Answers.unique_of_ids {κ : Type} [DecidableEq κ] [TableKey κ] {c : Cache κ}
    {rs : List Identity} {entry : Nat → Identity → Option (κ × Int64)}
    (h : Answers c rs entry) (ids : Unique rs locationEntry)
    (toId : ∀ i r k v, entry i r = some (k, v) → v = r.globalId) : Unique rs entry := by
  refine ⟨fun {i j r r' k v v'} live live' he he' => ?_⟩
  have atI := h.get_of_live live he
  rw [h.get_of_live live' he', Option.some.injEq] at atI
  exact ids.ids live live' (by rw [← toId i r k v he, ← toId j r' k v' he', atI])

theorem nameEntry_id {i : Nat} {r : Identity} {n : String} {v : Int64}
    (h : nameEntry i r = some (n, v)) : v = r.globalId := by
  simp only [nameEntry, Option.map_eq_some_iff, Prod.mk.injEq] at h
  obtain ⟨_, -, -, rfl⟩ := h
  rfl

theorem keyEntry_id {i : Nat} {r : Identity} {k : ByteArray} {v : Int64}
    (h : keyEntry i r = some (k, v)) : v = r.globalId := by
  simp only [keyEntry, Option.map_eq_some_iff, Prod.mk.injEq] at h
  obtain ⟨_, -, -, rfl⟩ := h
  rfl

/-- Caches that index fewer than `2 ^ 63` records keep their live records apart. -/
theorem Indexed.distinct {rs : List Identity} {c : CacheSet} (h : Indexed rs c)
    (short : rs.length < 2 ^ 63) : Distinct rs :=
  have ids := h.locations.unique_ids short
  ⟨ids, h.names.unique_of_ids ids fun _ _ _ _ => nameEntry_id,
    h.keys.unique_of_ids ids fun _ _ _ _ => keyEntry_id⟩

end MetricRegistry.Store
