import MetricRegistry.Proofs.Reopen
import MetricRegistry.Proofs.Repair
import MetricRegistry.Proofs.LeastPrime

/-! Opening a store replays its log whatever the records hold: caches answer the last value each key
was given and the id mark passes every id, or opening fails with the configuration's error, the
caches' creation or a refusal of capacity (`open_replays_records`). -/

namespace MetricRegistry

/-- The errors of a table that cannot take an entry: a slot array or key store that would leave
its addressable size, or word arithmetic that overflows while sizing the next capacity. -/
def StoreError.IsRefusal : StoreError → Prop
  | .capacityExceeded _ | .overflow _ => True
  | _ => False

theorem except_bind_eq_error {ε α β : Type} {x : Except ε α} {f : α → Except ε β} {e : ε}
    (h : (x >>= f) = .error e) : x = .error e ∨ ∃ a, x = .ok a ∧ f a = .error e := by
  cases x with
  | error err =>
      simp only [bind, Except.bind, Except.error.injEq] at h
      exact Or.inl (h ▸ rfl)
  | ok a => exact Or.inr ⟨a, rfl, h⟩

theorem error_of_bind {ε σ α β : Type} {x : EStateM ε σ α} {f : α → EStateM ε σ β}
    {s s'' : σ} {e : ε} (h : (x >>= f) s = .error e s'')
    : x s = .error e s'' ∨ ∃ a s', x s = .ok a s' ∧ f a s' = .error e s'' := by
  simp only [bind, EStateM.bind] at h
  split at h
  · rename_i a s' first
    exact Or.inr ⟨a, s', first, h⟩
  · rename_i err s' first
    cases h
    exact Or.inl first

/-- A run that failed with `e₀` meets any claim on its successes, and a claim on its failures
that `e₀` meets. -/
theorem outcomes_of_error {ε σ α : Type} {r : EStateM.Result ε σ α} {e₀ : ε} {s₀ : σ}
    {P : α → Prop} {Q : ε → Prop} (h : r = .error e₀ s₀) (q : Q e₀)
    : (∀ a s, r = .ok a s → P a) ∧ ∀ e s, r = .error e s → Q e := by
  subst h
  refine ⟨fun _ _ ok => ?_, fun _ _ fail => ?_⟩
  · cases ok
  · cases fail
    exact q

/-- A run that succeeded with `a₀` meets a claim on its successes that `a₀` meets, and any
claim on its failures. -/
theorem outcomes_of_ok {ε σ α : Type} {r : EStateM.Result ε σ α} {a₀ : α} {s₀ : σ}
    {P : α → Prop} {Q : ε → Prop} (h : r = .ok a₀ s₀) (p : P a₀)
    : (∀ a s, r = .ok a s → P a) ∧ ∀ e s, r = .error e s → Q e := by
  subst h
  refine ⟨fun _ _ ok => ?_, fun _ _ fail => ?_⟩
  · cases ok
    exact p
  · cases fail

-----------------------------------------------------------------------------------------
-- Tables refuse entries only for capacity
-----------------------------------------------------------------------------------------

namespace Table.OpenTable

variable {κ : Type} [TableKey κ] {e : StoreError}

theorem place_refusal {slots : Array (Slot κ)} {key : κ} {value : Int64}
    (h : place slots key value = .error e) : e.IsRefusal := by
  unfold place at h
  dsimp only at h
  split at h
  · simp at h
  · simp only [Except.error.injEq] at h
    rw [← h]
    trivial

theorem foldlM_place_refusal : ∀ {entries : List (κ × Int64)} {slots : Array (Slot κ)},
    entries.foldlM (fun s e => place s e.1 e.2) slots = .error e → e.IsRefusal := by
  intro entries
  induction entries with
  | nil => intro slots h; simp [pure, Except.pure] at h
  | cons entry rest ih =>
      intro slots h
      rw [List.foldlM_cons] at h
      rcases except_bind_eq_error h with placed | ⟨slots₁, -, rest_placed⟩
      · exact place_refusal placed
      · exact ih rest_placed

omit [TableKey κ] in
theorem allocate_refusal {cap : Nat}
    (h : (allocate cap : Except StoreError (Array (Slot κ))) = .error e)
    : e.IsRefusal := by
  unfold allocate at h
  split_ifs at h
  · simp only [Except.error.injEq] at h
    rw [← h]
    trivial
  · simp only [Except.error.injEq] at h
    rw [← h]
    trivial

omit [TableKey κ] in
/-- A table whose capacity needs a slot array past the word range is refused when it is made. -/
theorem create_refused {expected cap : Nat} {lf : Float} (pos : 0.0 < lf) (below : lf < 1.0)
    (sized : capacityFor expected lf = .ok cap) (wide : wordLimit ≤ cap * slotWidth)
    : (create expected lf : Except StoreError (OpenTable κ)) =
        .error (.capacityExceeded s!"hash table capacity {cap}") := by
  simp [create, allocate, pos, below, sized, wide, bind, Except.bind, Except.mapError]

theorem rehash_refusal {t : OpenTable κ} {cap : Nat} (h : t.rehash cap = .error e)
    : e.IsRefusal := by
  unfold rehash at h
  dsimp only at h
  rcases except_bind_eq_error h with refused | ⟨fresh, -, h⟩
  · exact allocate_refusal refused
  split at h
  · simp only [throw, throwThe, MonadExceptOf.throw, bind, Except.bind, Except.error.injEq] at h
    rw [← h]
    trivial
  · rcases except_bind_eq_error h with refused | ⟨slots, -, done⟩
    · exact foldlM_place_refusal refused
    · simp [pure, Except.pure] at done

theorem storeKey_refusal {t : OpenTable κ} {key : κ} (h : t.storeKey key = .error e)
    : e.IsRefusal := by
  unfold storeKey at h
  dsimp only at h
  split_ifs at h <;> simp only [Except.error.injEq] at h <;> rw [← h] <;> trivial

theorem settle_refusal {t : OpenTable κ} (h : t.settle = .error e) : e.IsRefusal := by
  unfold settle at h
  split at h
  · rcases except_bind_eq_error h with refused | ⟨target, -, rebuilt⟩
    · cases computed : (if t.removed * 2 ≥ t.len + t.removed
          then capacityFor (t.len + 1) t.loadFactor
          else capacityFor (t.len * 2) t.loadFactor) with
      | error o =>
          rw [computed] at refused
          simp only [Except.mapError, Except.error.injEq] at refused
          rw [← refused]
          trivial
      | ok c =>
          rw [computed] at refused
          simp [Except.mapError] at refused
    · exact rehash_refusal rebuilt
  · split at h
    · exact rehash_refusal h
    · simp [pure, Except.pure] at h

theorem occupy_refusal {t t' : OpenTable κ} {i : Nat} {key : κ} {value : Int64}
    (h : t.occupy i key value = .error e t') : e.IsRefusal := by
  unfold occupy at h
  split at h
  · rename_i err stored
    simp only [EStateM.Result.error.injEq] at h
    exact h.1 ▸ storeKey_refusal stored
  · dsimp only at h
    split at h
    · simp at h
    · rename_i err settled
      simp only [EStateM.Result.error.injEq] at h
      exact h.1 ▸ settle_refusal settled

variable [DecidableEq κ]

theorem probe_refusal {t : OpenTable κ} {key : κ} (h : t.probe key = .error e) : e.IsRefusal := by
  unfold probe at h
  dsimp only at h
  split at h
  · simp at h
  · simp only [Except.error.injEq] at h
    rw [← h]
    trivial

theorem insert_refusal {t t' : OpenTable κ} {key : κ} {value : Int64}
    (h : t.insert key value = .error e t') : e.IsRefusal := by
  unfold insert at h
  split at h
  · rename_i err probed
    simp only [EStateM.Result.error.injEq] at h
    exact h.1 ▸ probe_refusal probed
  · simp at h
  · split at h
    · simp at h
    · rename_i err t₁ occupied
      simp only [EStateM.Result.error.injEq] at h
      exact h.1 ▸ occupy_refusal occupied

end Table.OpenTable

-----------------------------------------------------------------------------------------
-- A run of insertions into a cache
-----------------------------------------------------------------------------------------

namespace Table

/-- What a run of insertions leaves under `k`, from `prior`: the value of the last entry for `k`,
or `prior` when no entry has that key. -/
def lastValue {κ : Type} [DecidableEq κ] (prior : Option Int64) (entries : List (κ × Int64))
    (k : κ) : Option Int64 :=
  entries.foldl (fun found e => if e.1 = k then some e.2 else found) prior

namespace Cache

variable {κ : Type} [DecidableEq κ] [TableKey κ] {c c' : Cache κ} {e : StoreError}

theorem put_refusal {key : κ} {value : Int64} (h : c.put key value = .error e c')
    : e.IsRefusal := by
  unfold put at h
  split at h
  · simp at h
  · rename_i err t inserted
    simp only [EStateM.Result.error.injEq] at h
    exact h.1 ▸ OpenTable.insert_refusal inserted

theorem putAll_refusal : ∀ {entries : List (κ × Int64)} {c c' : Cache κ},
    c.putAll entries = .error e c' → e.IsRefusal := by
  intro entries
  induction entries with
  | nil => intro c c' h; simp [putAll] at h
  | cons entry rest ih =>
      intro c c' h
      obtain ⟨k, v⟩ := entry
      unfold putAll at h
      split at h
      · exact ih h
      · rename_i err c₁ refused
        simp only [EStateM.Result.error.injEq] at h
        exact h.1 ▸ put_refusal refused

/-- A run of insertions into a sound cache that succeeds leaves it sound, answering for each key
the value of the last entry for it, or what it answered before. -/
theorem putAll_get : ∀ {entries : List (κ × Int64)} {c c' : Cache κ}, c.Sound →
    c.putAll entries = .ok () c' →
      c'.Sound ∧ ∀ k, c'.get k = lastValue (c.get k) entries k := by
  intro entries
  induction entries with
  | nil =>
      intro c c' hs h
      simp only [putAll, EStateM.Result.ok.injEq, true_and] at h
      subst h
      exact ⟨hs, fun k => rfl⟩
  | cons entry rest ih =>
      intro c c' hs h
      obtain ⟨k₀, v₀⟩ := entry
      unfold putAll at h
      split at h
      · rename_i prev c₁ put
        obtain ⟨hs₁, -, get₁⟩ := put_ok hs put
        obtain ⟨hs', get'⟩ := ih hs₁ h
        refine ⟨hs', fun k => ?_⟩
        rw [get', get₁]
        by_cases same : k = k₀
        · subst same
          simp [lastValue]
        · simp [lastValue, same, Ne.symm same]
      · simp at h

/-- A run of insertions over two lists is the run over the first, then over the second from
where the first left the cache. -/
theorem putAll_append : ∀ (xs ys : List (κ × Int64)) (c : Cache κ),
    c.putAll (xs ++ ys) = match c.putAll xs with
      | .ok () c₁ => c₁.putAll ys
      | .error e c₁ => .error e c₁ := by
  intro xs
  induction xs with
  | nil => intro ys c; rfl
  | cons entry rest ih =>
      intro ys c
      obtain ⟨k, v⟩ := entry
      simp only [List.cons_append, putAll]
      split
      · exact ih ys _
      · rfl

theorem putAll_append_ok {xs ys : List (κ × Int64)} {c₁ : Cache κ}
    (h : c.putAll xs = .ok () c₁)
    : c.putAll (xs ++ ys) = c₁.putAll ys := by
  rw [putAll_append, h]

theorem putAll_append_error {xs ys : List (κ × Int64)} {c₁ : Cache κ}
    (h : c.putAll xs = .error e c₁) : c.putAll (xs ++ ys) = .error e c₁ := by
  rw [putAll_append, h]

end Cache

/-- Making the caches fails as the name cache's table does when that table is refused. -/
theorem CacheSet.create_of_names_refused {names keys locations : Sizing} {e : StoreError}
    (refused : (OpenTable.create names.initialCapacity names.loadFactor :
      Except StoreError (OpenTable String)) = .error e)
    : CacheSet.create names keys locations = .error e := by
  simp only [CacheSet.create, Cache.create, refused, bind, Except.bind]

end Table

-----------------------------------------------------------------------------------------
-- Raising the id mark
-----------------------------------------------------------------------------------------

namespace Log

/-- Raising the id mark of a log whose index file is open succeeds, and leaves a mark at least
the floor and at least the mark before. -/
theorem raiseNextId_raises {d : Disk} {l : IdentityLog} (v : l.index.Valid d) (floor : Int64)
    : ∃ t, raiseNextId floor ⟨d, l⟩ = .ok () t ∧ floor ≤ t.log.header.nextId ∧
        l.header.nextId ≤ t.log.header.nextId := by
  by_cases up : floor > l.header.nextId
  · obtain ⟨r, d', written, -⟩ := @writeIndex_ok d
      { l with header := { l.header with nextId := floor } }
      ({ l.header with nextId := floor } : Header).encode v 0
      (by rw [Header.size_encode]; decide)
    refine ⟨⟨d', { l with header := { l.header with nextId := floor }, index := r }⟩, ?_,
      Int64.le_refl floor, Int64.le_of_lt up⟩
    simp only [raiseNextId, writeHeader, bind, EStateM.bind, get, getThe, MonadStateOf.get,
      EStateM.get, if_pos up, set, EStateM.set, written, sync, pure, EStateM.pure]
  · exact ⟨_, raiseNextId_below up, Int64.not_lt.mp up, Int64.le_refl _⟩

end Log

-----------------------------------------------------------------------------------------
-- Replaying any records
-----------------------------------------------------------------------------------------

namespace Store

open Disk Log Table Record

/-- The identity replay indexes from a record's bytes: one that is not deleted and decodes. -/
def indexable (bytes : ByteArray) : Option Identity :=
  if Record.isTombstoned bytes then none else (Record.decode bytes).toOption

/-- The entries replaying the record `p` puts into the cache that `entry` describes. -/
def recordEntries {κ : Type} (entry : Nat → Identity → Option (κ × Int64))
    (p : Nat × ByteArray) : List (κ × Int64) :=
  ((indexable p.2).bind (entry p.1)).toList

/-- The entries replaying `records` puts into the cache that `entry` describes, in order. -/
def replayEntries {κ : Type} (entry : Nat → Identity → Option (κ × Int64))
    (records : List (Nat × ByteArray)) : List (κ × Int64) :=
  records.flatMap (recordEntries entry)

@[simp] theorem replayEntries_append {κ : Type} (entry : Nat → Identity → Option (κ × Int64))
    (xs ys : List (Nat × ByteArray))
    : replayEntries entry (xs ++ ys) = replayEntries entry xs ++ replayEntries entry ys :=
  List.flatMap_append

/-- A live record that decodes puts its own entry into each cache. -/
theorem replayEntries_indexed {i : Nat} {bytes : ByteArray} {r : Identity}
    (live : Record.isTombstoned bytes = false) (decoded : Record.decode bytes = .ok r)
    {κ : Type} (entry : Nat → Identity → Option (κ × Int64))
    : replayEntries entry [(i, bytes)] = (entry i r).toList := by
  simp [replayEntries, recordEntries, indexable, live, decoded, Except.toOption]

/-- Caches `c'` are the caches `c` after each takes the entries replaying `records` puts in it. -/
structure Replayed (records : List (Nat × ByteArray)) (c c' : CacheSet) : Prop where
  names : c.names.putAll (replayEntries nameEntry records) = .ok () c'.names
  opaqueKeys : c.opaqueKeys.putAll (replayEntries keyEntry records) = .ok () c'.opaqueKeys
  locations : c.locations.putAll (replayEntries locationEntry records) = .ok () c'.locations

/-- One of the caches `c` refuses, with `e`, the entries replaying `records` puts in it. -/
def Refused (records : List (Nat × ByteArray)) (c : CacheSet) (e : StoreError) : Prop :=
  (∃ c', c.names.putAll (replayEntries nameEntry records) = .error e c') ∨
  (∃ c', c.opaqueKeys.putAll (replayEntries keyEntry records) = .error e c') ∨
  (∃ c', c.locations.putAll (replayEntries locationEntry records) = .error e c')

section Runs

variable {xs ys : List (Nat × ByteArray)} {c c₁ c₂ : CacheSet} {e : StoreError}

theorem Replayed.nil (c : CacheSet) : Replayed [] c c := ⟨rfl, rfl, rfl⟩

/-- A record replay skips, deleted or undecodable, puts nothing in. -/
theorem Replayed.skipped {i : Nat} {bytes : ByteArray} (c : CacheSet)
    (skipped : indexable bytes = none) : Replayed [(i, bytes)] c c := by
  have empty : ∀ {κ : Type} (entry : Nat → Identity → Option (κ × Int64)),
      replayEntries entry [(i, bytes)] = [] := by
    intro κ entry
    simp [replayEntries, recordEntries, skipped]
  exact ⟨by rw [empty]; rfl, by rw [empty]; rfl, by rw [empty]; rfl⟩

theorem Replayed.append (h : Replayed xs c c₁) (h' : Replayed ys c₁ c₂)
    : Replayed (xs ++ ys) c c₂ where
  names := by rw [replayEntries_append, Cache.putAll_append_ok h.names]; exact h'.names
  opaqueKeys := by
    rw [replayEntries_append, Cache.putAll_append_ok h.opaqueKeys]; exact h'.opaqueKeys
  locations := by
    rw [replayEntries_append, Cache.putAll_append_ok h.locations]; exact h'.locations

theorem Refused.append_left (h : Refused xs c e) : Refused (xs ++ ys) c e := by
  simp only [Refused, replayEntries_append]
  rcases h with ⟨c', refused⟩ | ⟨c', refused⟩ | ⟨c', refused⟩
  · exact Or.inl ⟨c', Cache.putAll_append_error refused⟩
  · exact Or.inr (Or.inl ⟨c', Cache.putAll_append_error refused⟩)
  · exact Or.inr (Or.inr ⟨c', Cache.putAll_append_error refused⟩)

theorem Refused.append_right (h : Replayed xs c c₁) (h' : Refused ys c₁ e)
    : Refused (xs ++ ys) c e := by
  simp only [Refused, replayEntries_append]
  rw [Cache.putAll_append_ok h.names, Cache.putAll_append_ok h.opaqueKeys,
    Cache.putAll_append_ok h.locations]
  exact h'

/-- New caches that took the entries of a replay answer for every key the value of its last
entry. -/
theorem Replayed.fresh_get {names keys locations : Sizing} {caches : CacheSet}
    (created : CacheSet.create names keys locations = .ok caches) (h : Replayed xs caches c)
    : (∀ n, c.names.get n = lastValue none (replayEntries nameEntry xs) n) ∧
      (∀ k, c.opaqueKeys.get k = lastValue none (replayEntries keyEntry xs) k) ∧
      ∀ g, c.locations.get g = lastValue none (replayEntries locationEntry xs) g := by
  obtain ⟨sound, noName, noKey, noLocation⟩ := CacheSet.create_ok created
  refine ⟨fun n => ?_, fun k => ?_, fun g => ?_⟩
  · rw [(Cache.putAll_get sound.names h.names).2 n, noName n]
  · rw [(Cache.putAll_get sound.opaqueKeys h.opaqueKeys).2 k, noKey k]
  · rw [(Cache.putAll_get sound.locations h.locations).2 g, noLocation g]

/-- A cache set whose caches refuse `e` refuses it as one of the error kinds of capacity. -/
theorem Refused.refusal (h : Refused xs c e) : e.IsRefusal := by
  rcases h with ⟨c', refused⟩ | ⟨c', refused⟩ | ⟨c', refused⟩ <;>
    exact Cache.putAll_refusal refused

end Runs

/-- The largest id a summary holds is at least `g`. -/
def ReplaySummary.Covers (s : ReplaySummary) (g : Int64) : Prop :=
  ∃ m, s.maxGlobalId = some m ∧ g ≤ m

namespace ReplaySummary

variable {s : ReplaySummary} {g : Int64}

theorem covers_see (s : ReplaySummary) (g : Int64) : (s.see g).Covers g := by
  unfold see
  cases s.maxGlobalId with
  | none => exact ⟨g, rfl, Int64.le_refl g⟩
  | some m =>
      refine ⟨_, rfl, ?_⟩
      dsimp only
      by_cases above : g > m
      · rw [if_pos above]; exact Int64.le_refl g
      · rw [if_neg above]; exact Int64.not_lt.mp above

theorem Covers.see (h : s.Covers g) (g' : Int64) : (s.see g').Covers g := by
  obtain ⟨m, held, le⟩ := h
  refine ⟨_, by rw [ReplaySummary.see, held], ?_⟩
  dsimp only
  by_cases above : g' > m
  · rw [if_pos above]
    exact Int64.le_trans le (Int64.le_of_lt above)
  · rw [if_neg above]
    exact le

/-- Noting the id of a record with a complete header keeps what the summary covered and covers
that id. -/
theorem covers_noted (s : ReplaySummary) (bytes : ByteArray)
    : let noted := match Record.globalId? bytes with
        | some g => s.see g
        | none => s
      (∀ g, s.Covers g → noted.Covers g) ∧
        ∀ g, Record.globalId? bytes = some g → noted.Covers g := by
  intro noted
  cases held : Record.globalId? bytes with
  | none => exact ⟨fun _ covered => by simpa [noted, held] using covered, fun _ h => by cases h⟩
  | some g' =>
      refine ⟨fun g covered => ?_, fun g same => ?_⟩
      · simpa [noted, held] using covered.see g'
      · cases same
        simpa [noted, held] using covers_see s g'

end ReplaySummary

/-- What replaying `records` from `s` with `summary`, when it succeeds as `t` with `result`,
leaves: the same files and log, caches that took the records' entries, and a largest id at least
every id `summary` covered and every id of a record with a complete header. -/
structure Replays (records : List (Nat × ByteArray)) (summary : ReplaySummary) (s : IndexedLog)
    (result : ReplaySummary) (t : IndexedLog) : Prop where
  disk : t.disk = s.disk
  log : t.log = s.log
  caches : Replayed records s.caches t.caches
  keeps : ∀ g, summary.Covers g → result.Covers g
  notes : ∀ p ∈ records, ∀ g, Record.globalId? p.2 = some g → result.Covers g

theorem Replays.append {xs ys : List (Nat × ByteArray)} {summary mid result : ReplaySummary}
    {s s₁ t : IndexedLog} (h : Replays xs summary s mid s₁) (h' : Replays ys mid s₁ result t)
    : Replays (xs ++ ys) summary s result t where
  disk := h'.disk.trans h.disk
  log := h'.log.trans h.log
  caches := h.caches.append h'.caches
  keeps g covered := h'.keeps g (h.keeps g covered)
  notes p mem g held := by
    rcases List.mem_append.mp mem with early | late
    · exact h'.keeps g (h.notes p early g held)
    · exact h'.notes p late g held

/-- The id after an id is monotone: the largest id is its own successor. -/
theorem followingId_mono {g m : Int64} (le : g ≤ m) : followingId g ≤ followingId m := by
  have top := Int64.toInt_le m
  simp only [Int64.toInt_maxValue] at top
  by_cases below : m < maxId
  · have low : g < maxId := Int64.lt_of_le_of_lt le below
    rw [Int64.le_iff_toInt_le, toInt_followingId low, toInt_followingId below]
    rw [Int64.le_iff_toInt_le] at le
    omega
  · have same : m = maxId := by
      rw [Int64.lt_iff_toInt_lt, toInt_maxId] at below
      apply Int64.toInt_inj.mp
      rw [toInt_maxId]
      omega
    have fixed : followingId maxId = maxId := rfl
    rw [same, fixed]
    by_cases low : g < maxId
    · exact Int64.not_lt.mp (followingId_le low)
    · have atTop : g = maxId := by
        have := Int64.toInt_le g
        simp only [Int64.toInt_maxValue] at this
        rw [Int64.lt_iff_toInt_lt, toInt_maxId] at low
        apply Int64.toInt_inj.mp
        rw [toInt_maxId]
        omega
      rw [atTop, fixed]
      exact Int64.le_refl _

theorem PutsEntry.putAll_toList {κ : Type} [DecidableEq κ] [TableKey κ] {c c' : Cache κ}
    {x : Option (κ × Int64)} (h : PutsEntry c x c') : c.putAll x.toList = .ok () c' := by
  cases x with
  | none =>
      cases h
      rfl
  | some kv =>
      obtain ⟨prev, put⟩ := h
      simp only [Option.toList, Cache.putAll, put]

namespace IndexedLog

variable {s s' : IndexedLog} {e : StoreError}

theorem putInto_error {κ : Type} [DecidableEq κ] [TableKey κ] {cache : CacheSet → Cache κ}
    {update : CacheSet → Cache κ → CacheSet} {key : κ} {value : Int64}
    (h : putInto cache update key value s = .error e s')
    : ∃ c, (cache s.caches).putAll [(key, value)] = .error e c := by
  unfold putInto at h
  split at h
  · cases h
  · rename_i err c refused
    cases h
    exact ⟨c, by simp only [Cache.putAll, refused]⟩

/-- Pointing the keys at an identity fails only where the name's or the key's cache refuses its
entry. -/
theorem indexKeys_error {g : Int64} {name : Option String} {key : Option ByteArray}
    (h : indexKeys g name key s = .error e s')
    : (∃ c, s.caches.names.putAll (name.map (·, g)).toList = .error e c) ∨
      (∃ c, s.caches.opaqueKeys.putAll (key.map (·, g)).toList = .error e c) := by
  have keyed : ∀ {t : IndexedLog}, indexKeys g none key t = .error e s' →
      t.caches.opaqueKeys = s.caches.opaqueKeys →
      ∃ c, s.caches.opaqueKeys.putAll (key.map (·, g)).toList = .error e c := by
    intro t ht same
    unfold indexKeys at ht
    cases key with
    | none => cases ht
    | some k => rw [← same]; exact putInto_error ht
  unfold indexKeys at h
  cases name with
  | none => exact Or.inr (keyed h rfl)
  | some n =>
      rcases error_of_bind h with refused | ⟨_, s₁, named, rest⟩
      · exact Or.inl (putInto_error refused)
      · obtain ⟨names, -, rfl⟩ := putInto_ok named
        exact Or.inr (keyed rest rfl)

/-- Replaying one record, whatever its bytes, notes its id when its header is complete and
indexes it when it is live and decodes; it fails only where a cache refuses the record's
entry. -/
theorem replayRecord_outcome (summary : ReplaySummary) (i : Nat) (bytes : ByteArray)
    (s : IndexedLog)
    : match replayRecord summary (i, bytes) s with
      | .ok result t => Replays [(i, bytes)] summary s result t
      | .error e _ => Refused [(i, bytes)] s.caches e := by
  obtain ⟨keeps, notes⟩ := ReplaySummary.covers_noted summary bytes
  have notes' : ∀ {result : ReplaySummary},
      (∀ g, Record.globalId? bytes = some g → result.Covers g) →
      ∀ p ∈ [(i, bytes)], ∀ g, Record.globalId? p.2 = some g → result.Covers g := by
    intro result covered p mem g held
    rw [List.mem_singleton.mp mem] at held
    exact covered g held
  unfold replayRecord
  dsimp only
  cases dead : Record.isTombstoned bytes with
  | true =>
      simp only [if_true, pure, EStateM.pure]
      exact ⟨rfl, rfl, Replayed.skipped s.caches (by simp [indexable, dead]), keeps,
        notes' notes⟩
  | false =>
      simp only [Bool.false_eq_true, if_false]
      cases decoded : Record.decode bytes with
      | error err =>
          simp only [pure, EStateM.pure]
          exact ⟨rfl, rfl, Replayed.skipped s.caches
            (by simp [indexable, dead, decoded, Except.toOption]), keeps, notes' notes⟩
      | ok r =>
          have entries := @replayEntries_indexed i bytes r dead decoded
          simp only [bind, EStateM.bind]
          cases located : putLocation r.globalId (Int64.ofNat i) s with
          | error err s₁ =>
              obtain ⟨c, refused⟩ := putInto_error located
              exact Or.inr (Or.inr ⟨c, by rw [entries]; exact refused⟩)
          | ok u s₁ =>
              obtain ⟨locations, putLoc, rfl⟩ := putLocation_ok located
              dsimp only
              cases keyed : indexKeys r.globalId r.name r.opaqueKey
                  { s with caches := { s.caches with locations } } with
              | error err s₂ =>
                  rcases indexKeys_error keyed with ⟨c, refused⟩ | ⟨c, refused⟩
                  · exact Or.inl ⟨c, by rw [entries]; exact refused⟩
                  · exact Or.inr (Or.inl ⟨c, by rw [entries]; exact refused⟩)
              | ok u' s₂ =>
                  obtain ⟨names, opaqueKeys, putName, putKey, rfl⟩ := indexKeys_ok keyed
                  simp only [pure, EStateM.pure]
                  exact ⟨rfl, rfl,
                    ⟨by rw [entries]; exact putName.putAll_toList,
                      by rw [entries]; exact putKey.putAll_toList,
                      by rw [entries]; exact putLoc.putAll_toList⟩, keeps, notes' notes⟩

/-- Replaying records in order, whatever their bytes, succeeds with every cache taking the
entries of the records it indexes, or fails where a cache refuses one. -/
theorem foldlM_replayRecord_outcome : ∀ (records : List (Nat × ByteArray))
    (summary : ReplaySummary) (s : IndexedLog),
    match records.foldlM replayRecord summary s with
    | .ok result t => Replays records summary s result t
    | .error e _ => Refused records s.caches e := by
  intro records
  induction records with
  | nil =>
      intro summary s
      show Replays [] summary s summary s
      exact ⟨rfl, rfl, Replayed.nil _, fun _ covered => covered, fun _ mem => by cases mem⟩
  | cons p rest ih =>
      intro summary s
      obtain ⟨i, bytes⟩ := p
      have first := replayRecord_outcome summary i bytes s
      rw [List.foldlM_cons]
      simp only [bind, EStateM.bind]
      cases replayed : replayRecord summary (i, bytes) s with
      | error e s₁ =>
          rw [replayed] at first
          exact first.append_left
      | ok mid s₁ =>
          rw [replayed] at first
          have next := ih mid s₁
          dsimp only
          cases more : rest.foldlM replayRecord mid s₁ with
          | error e s₂ =>
              rw [more] at next
              exact Refused.append_right first.caches next
          | ok result t =>
              rw [more] at next
              exact first.append next

/-- Loading a log whose index file is open replays every record it reads, whatever their bytes.
It succeeds with caches that took the entries of the records they index and an id mark past
every id of a record with a complete header, at least the mark it had; or it fails where a cache
refuses an entry. -/
theorem load_outcome (valid : s.log.index.Valid s.disk)
    : match load s with
      | .ok () t => Replayed (s.log.records s.disk) s.caches t.caches ∧
          (∀ p ∈ s.log.records s.disk, ∀ g, Record.globalId? p.2 = some g →
            followingId g ≤ t.log.header.nextId) ∧
          s.log.header.nextId ≤ t.log.header.nextId
      | .error e _ => Refused (s.log.records s.disk) s.caches e := by
  have replayed := foldlM_replayRecord_outcome (s.log.records s.disk) {} s
  unfold load replay
  simp only [bind, EStateM.bind, get, getThe, MonadStateOf.get, EStateM.get]
  cases ran : (s.log.records s.disk).foldlM replayRecord {} s with
  | error e t =>
      rw [ran] at replayed
      exact replayed
  | ok summary t =>
      rw [ran] at replayed
      dsimp only
      cases top : summary.maxGlobalId with
      | none =>
          -- no record has a complete header, so no id is noted and the mark stays
          refine ⟨replayed.caches, fun p mem g held => ?_,
            by rw [replayed.log]; exact Int64.le_refl _⟩
          obtain ⟨m, noted, -⟩ := replayed.notes p mem g held
          rw [top] at noted
          cases noted
      | some m =>
          obtain ⟨t', raised, above, kept⟩ := Log.raiseNextId_raises valid (followingId m)
          have raised' : raiseNextId (followingId m) ⟨t.disk, t.log⟩ = .ok () t' := by
            rw [replayed.disk, replayed.log]
            exact raised
          dsimp only
          rw [withLog_of_ok raised']
          refine ⟨replayed.caches, fun p mem g held => ?_, kept⟩
          obtain ⟨m', noted, le⟩ := replayed.notes p mem g held
          rw [top] at noted
          cases noted
          exact Int64.le_trans (followingId_mono le) above

end IndexedLog

/-- Opening under a configuration that fails its check fails with the check's error. -/
theorem open_invalid {config : Config} {d : Disk} {e : StoreError}
    (invalid : config.validate = .error e) : Store.open config d = .error e d := by
  simp only [Store.open, bind, EStateM.bind, Log.liftExcept, invalid, throw, throwThe,
    MonadExceptOf.throw, EStateM.throw]

/-- Opening whose caches cannot be made fails with that error, once the log has opened. -/
theorem open_uncreated {config : Config} {d d1 d2 : Disk} {log : IdentityLog}
    {e : StoreError} (valid : config.validate = .ok ())
    (recovered : recoverInterrupted config.dataDir config.logOptions d = .ok () d1)
    (opened : IdentityLog.openIn config.dataDir config.logOptions d1 = .ok log d2)
    (uncreated : CacheSet.create config.nameCache config.opaqueCache config.locationCache =
      .error e)
    : Store.open config d = .error e d2 := by
  simp only [Store.open, bind, EStateM.bind, Log.liftExcept, valid, recovered, opened,
    uncreated, pure, EStateM.pure, throw, throwThe, MonadExceptOf.throw, EStateM.throw]

/-- Opening a store on any log files that opening accepts replays their records, whatever they
hold. On a data directory where no compaction was left, whose index file starts with a header
that reads, the log opens on records that each read back as they are. Opening the store that
succeeds leaves each cache answering for every key the value of the last record that indexes
it, among those that are not deleted and decode, and an id mark past the id of every record
with a complete header and at least the mark the log had. Opening that fails does so with the
configuration's error, with the error of making the caches, or with a refusal of capacity where
one of the new caches cannot take the entries the replay puts in it. -/
theorem open_replays_records {config : Config} {d : Disk} {iI iD : Nat}
    (chain : Disk.DirChain d (components config.dataDir))
    (absent : d.node? (components config.dataDir ++ [compactDir]) = none)
    (index : d.node? (components config.dataDir ++ [indexFile]) = some (.file iI))
    (data : d.node? (components config.dataDir ++ [dataFile]) = some (.file iD))
    (apart : iI ≠ iD) (hI : iI < d.contents.size) (hD : iD < d.contents.size)
    (long : Log.headerSize ≤ (d.bytesOf iI).size) {h : Header}
    (header : Header.decode ((d.bytesOf iI).extract 0 Log.headerSize) = .ok h)
    : ∃ l d₁, IdentityLog.openIn config.dataDir config.logOptions d = .ok l d₁ ∧
        (∀ p ∈ l.records d₁, l.read d₁ p.1 = .ok p.2) ∧
        (∀ st d', Store.open config d = .ok st d' →
          (∀ n, st.caches.names.get n =
            lastValue none (replayEntries nameEntry (l.records d₁)) n) ∧
          (∀ k, st.caches.opaqueKeys.get k =
            lastValue none (replayEntries keyEntry (l.records d₁)) k) ∧
          (∀ g, st.caches.locations.get g =
            lastValue none (replayEntries locationEntry (l.records d₁)) g) ∧
          (∀ p ∈ l.records d₁, ∀ g, Record.globalId? p.2 = some g →
            followingId g ≤ st.log.nextId) ∧
          l.nextId ≤ st.log.nextId) ∧
        ∀ e d', Store.open config d = .error e d' →
          config.validate = .error e ∨
          (config.validate = .ok () ∧
            CacheSet.create config.nameCache config.opaqueCache config.locationCache = .error e) ∨
          (e.IsRefusal ∧ ∃ caches,
            CacheSet.create config.nameCache config.opaqueCache config.locationCache =
              .ok caches ∧ Refused (l.records d₁) caches e) := by
  obtain ⟨kept, d₁, longest, opened, files, -⟩ :=
    @openIn_loaded d config.dataDir config.logOptions iI iD chain index data apart hI hD long h
      header
  have repaired := @repaired_foundLog d₁ config.dataDir config.logOptions iI iD _ _ h kept longest
    (files.size ▸ hD) files.data
  generalize found : foundLog d₁ config.dataDir config.logOptions iI iD _ kept = l
    at opened repaired
  have validI : l.index.Valid d₁ := by
    rw [← found]
    exact Region.valid_opened (files.size ▸ hI)
  refine ⟨l, d₁, opened, fun p mem => (repaired.records p mem).1, ?_⟩
  have recovered : recoverInterrupted config.dataDir config.logOptions d = .ok () d :=
    recoverInterrupted_idle chain absent
  cases valid : config.validate with
  | error err => exact outcomes_of_error (Store.open_invalid valid) (Or.inl rfl)
  | ok u =>
      cases u
      cases created : CacheSet.create config.nameCache config.opaqueCache config.locationCache with
      | error err =>
          exact outcomes_of_error (Store.open_uncreated valid recovered opened created)
            (Or.inr (Or.inl ⟨rfl, rfl⟩))
      | ok caches =>
          have opening := Store.open_loaded valid recovered opened created
          have loaded := @IndexedLog.load_outcome ⟨d₁, l, caches⟩ validI
          cases ran : IndexedLog.load ⟨d₁, l, caches⟩ with
          | error e t =>
              simp only [ran] at loaded opening
              exact outcomes_of_error opening
                (Or.inr (Or.inr ⟨loaded.refusal, caches, rfl, loaded⟩))
          | ok u t =>
              simp only [ran] at loaded opening
              obtain ⟨replayed, past, raised⟩ := loaded
              obtain ⟨names, keys, locations⟩ := replayed.fresh_get created
              exact outcomes_of_ok opening ⟨names, keys, locations, past, raised⟩

/-- A store opened on `ids`, whose index header counts a record its files do not hold, replays
the records of the repaired log. -/
theorem open_replays_records_stale
    : ∃ l d₁, IdentityLog.openIn "ids" ({ dataDir := "ids" } : Config).logOptions Log.staleIds =
          .ok l d₁ ∧
        (∀ p ∈ l.records d₁, l.read d₁ p.1 = .ok p.2) ∧
        (∀ st d', Store.open { dataDir := "ids" } Log.staleIds = .ok st d' →
          (∀ n, st.caches.names.get n =
            lastValue none (replayEntries nameEntry (l.records d₁)) n) ∧
          (∀ k, st.caches.opaqueKeys.get k =
            lastValue none (replayEntries keyEntry (l.records d₁)) k) ∧
          (∀ g, st.caches.locations.get g =
            lastValue none (replayEntries locationEntry (l.records d₁)) g) ∧
          (∀ p ∈ l.records d₁, ∀ g, Record.globalId? p.2 = some g →
            followingId g ≤ st.log.nextId) ∧
          l.nextId ≤ st.log.nextId) ∧
        ∀ e d', Store.open { dataDir := "ids" } Log.staleIds = .error e d' →
          ({ dataDir := "ids" } : Config).validate = .error e ∨
          (({ dataDir := "ids" } : Config).validate = .ok () ∧
            CacheSet.create {} {} {} = .error e) ∨
          (e.IsRefusal ∧ ∃ caches, CacheSet.create {} {} {} = .ok caches ∧
            Refused (l.records d₁) caches e) := by
  have bytes : Log.staleIds.bytesOf 0 =
      ({ Header.fresh with recordCount := 1, dataEnd := 29 } : Header).encode := rfl
  have chain : Disk.DirChain Log.staleIds (components "ids") := by
    unfold Disk.DirChain
    decide
  refine @open_replays_records { dataDir := "ids" } Log.staleIds 0 1 chain (by decide) (by decide)
    (by decide) (by decide) (by decide) (by decide)
    (Nat.le_of_eq (by rw [bytes, Header.size_encode]))
    { Header.fresh with recordCount := 1, dataEnd := 29 } ?_
  rw [bytes, ← Header.size_encode, ByteArray.extract_zero_size]
  exact Header.decode_encode ⟨by decide, by decide, by decide⟩

/-- A store whose name cache is sized for `2^60` entries does not open on `ids`, although its
configuration passes the check, every cache's capacity computation returns and the log opens:
the name cache's capacity needs a slot array past the word range. -/
theorem open_refuses_oversized_cache
    : ({ dataDir := "ids", nameCache := { initialCapacity := 2 ^ 60 } } : Config).validate =
          .ok () ∧
        (∃ c, capacityFor (2 ^ 60) 0.5 = .ok c) ∧ capacityFor 1024 0.5 = .ok 2053 ∧
        (∃ l d₁, IdentityLog.openIn "ids" {} Log.staleIds = .ok l d₁) ∧
        ∃ detail d', Store.open { dataDir := "ids", nameCache := { initialCapacity := 2 ^ 60 } }
          Log.staleIds = .error (.capacityExceeded detail) d' := by
  have valid : ({ dataDir := "ids", nameCache := { initialCapacity := 2 ^ 60 } } : Config).validate
      = .ok () := by
    decide
  have quotient : ceilQuotient (2 ^ 60) 0.5 = 2 ^ 61 := by decide +kernel
  obtain ⟨c, sized⟩ := @capacityFor_ok_of_small (2 ^ 60) 0.5 (by rw [quotient]; decide)
  -- the capacity is a prime past the quotient, so its slots need more than a word of bytes
  have above : 2 ^ 61 + 1 ≤ c := by
    have least := (capacityFor_eq_ok_iff.mp sized).2.1
    rw [quotient] at least
    exact (le_max_right _ _).trans least.1.2
  have wide : wordLimit ≤ c * slotWidth := by
    unfold wordLimit slotWidth
    omega
  obtain ⟨l, d₁, opened, -, -⟩ := Log.openIn_repairs_stale
  have chain : Disk.DirChain Log.staleIds (components "ids") := by
    unfold Disk.DirChain
    decide
  have uncreated : CacheSet.create { initialCapacity := 2 ^ 60 } {} {} =
      .error (.capacityExceeded s!"hash table capacity {c}") :=
    CacheSet.create_of_names_refused (OpenTable.create_refused (by decide) (by decide) sized wide)
  exact ⟨valid, ⟨c, sized⟩, by decide +kernel, ⟨l, d₁, opened⟩, _, d₁,
    Store.open_uncreated valid (recoverInterrupted_idle chain (by decide)) opened uncreated⟩

end Store

end MetricRegistry
