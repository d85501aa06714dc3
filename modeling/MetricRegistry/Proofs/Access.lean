import MetricRegistry.Proofs.LogSession

/-! Logs read through a mapping and through positioned reads are alike (`Alike`): every call
answers alike on them and keeps them alike, so two sessions that make the same calls with any
accesses end with the same records (`logSession_access_alike`). -/

namespace MetricRegistry.Log

open Disk

-----------------------------------------------------------------------------------------
-- Alike logs
-----------------------------------------------------------------------------------------

/-- Two logs alike: stored with the same records, under the same header, in the same
directory. -/
structure Alike (s t : LogState) : Prop where
  stored : ∃ recs, Stored s.disk s.log recs ∧ Stored t.disk t.log recs
  header : s.log.header = t.log.header
  dir : s.log.dir = t.log.dir

/-- Two outcomes of one operation on alike logs are alike: the same answer and alike logs
after, or the same error. -/
inductive OutcomesAlike {α : Type} :
    EStateM.Result StoreError LogState α → EStateM.Result StoreError LogState α → Prop
  | ok {a : α} {s t : LogState} : Alike s t → OutcomesAlike (.ok a s) (.ok a t)
  | error {e : StoreError} {s t : LogState} : OutcomesAlike (.error e s) (.error e t)

namespace Alike

variable {s t : LogState}

theorem size (h : Alike s t) : s.log.size = t.log.size := by
  obtain ⟨recs, left, right⟩ := h.stored
  rw [left.reads.size_eq, right.reads.size_eq]

theorem read (h : Alike s t) (i : Nat) : s.log.read s.disk i = t.log.read t.disk i := by
  obtain ⟨recs, left, right⟩ := h.stored
  exact right.reads.read_congr left.reads i

theorem tombstones (h : Alike s t) : s.log.tombstones = t.log.tombstones := by
  obtain ⟨recs, left, right⟩ := h.stored
  rw [left.reads.tombstones, right.reads.tombstones]

theorem recordRange (h : Alike s t) (i : Nat) : s.log.recordRange i = t.log.recordRange i := by
  obtain ⟨recs, left, right⟩ := h.stored
  cases hk : recs[i]? with
  | some r => rw [left.reads.recordRange_eq hk, right.reads.recordRange_eq hk]
  | none =>
      have past : recs.length ≤ i := List.getElem?_eq_none_iff.mp hk
      have count : s.log.offsets.size = t.log.offsets.size :=
        left.reads.size_eq.trans right.reads.size_eq.symm
      simp only [IdentityLog.recordRange, left.reads.getElem?_offsets_none past,
        right.reads.getElem?_offsets_none past, count]

/-- Two logs stored with the same records under the same header in one directory are alike. -/
theorem of_stored {d d' : Disk} {l l' : IdentityLog} {recs : List ByteArray}
    (left : Stored d l recs) (right : Stored d' l' recs) (header : l.header = l'.header)
    (dir : l.dir = l'.dir) : Alike ⟨d, l⟩ ⟨d', l'⟩ :=
  ⟨⟨recs, left, right⟩, header, dir⟩

end Alike

-----------------------------------------------------------------------------------------
-- Calls refused before they change anything
-----------------------------------------------------------------------------------------

/-- An append of an empty record, or of one that would carry the data end past the word range,
is refused with an error that the record and the header decide, and changes nothing. -/
theorem append_refused {s : LogState} {bytes : ByteArray}
    (refused : ¬ (0 < bytes.size ∧ s.log.header.dataEnd + bytes.size < Table.wordLimit))
    : append bytes s =
        .error (if bytes.size = 0 then .corruptRecord "empty record" else .overflow .add) s := by
  apply append_of_refused
  by_cases empty : bytes.size = 0
  · simp [IdentityLog.checkAppend, empty]
  · have overflow : s.log.header.dataEnd + bytes.size ≥ Table.wordLimit := by omega
    simp [IdentityLog.checkAppend, empty, overflow]

/-- A deletion of a record the log cannot range is refused with that error, changing
nothing. -/
theorem tombstone_unranged {s : LogState} {k : Nat} {e : StoreError}
    (refused : s.log.recordRange k = .error e) : tombstone k s = .error e s := by
  simp only [tombstone, bind, EStateM.bind, get, getThe, MonadStateOf.get, EStateM.get,
    liftExcept, refused, throw, throwThe, MonadExceptOf.throw, EStateM.throw]

-----------------------------------------------------------------------------------------
-- Every call keeps logs alike
-----------------------------------------------------------------------------------------

namespace Alike

variable {s t : LogState}

theorem readAt (h : Alike s t) (i : Nat) : OutcomesAlike (readAt i s) (readAt i t) := by
  have same := h.read i
  simp only [Log.readAt, bind, EStateM.bind, get, getThe, MonadStateOf.get, EStateM.get,
    liftExcept, same]
  cases t.log.read t.disk i with
  | ok bytes => exact .ok h
  | error e => exact .error

theorem append (h : Alike s t) (bytes : ByteArray)
    : OutcomesAlike (append bytes s) (append bytes t) := by
  obtain ⟨d, l⟩ := s
  obtain ⟨d', l'⟩ := t
  obtain ⟨⟨recs, left, right⟩, header, dir⟩ := h
  by_cases accepted : 0 < bytes.size ∧ l.header.dataEnd + bytes.size < Table.wordLimit
  · obtain ⟨d1, l1, run, stored1, header1, same1, -⟩ := left.append accepted.1 accepted.2
    obtain ⟨d1', l1', run', stored1', header1', same1', -⟩ :=
      right.append accepted.1 (header ▸ accepted.2)
    rw [run, run']
    exact .ok (.of_stored stored1 stored1' (by rw [header1, header1', header])
      (by rw [same1.dir, same1'.dir, dir]))
  · have accepted' : ¬ (0 < bytes.size ∧ l'.header.dataEnd + bytes.size < Table.wordLimit) :=
      header ▸ accepted
    rw [append_refused (s := ⟨d, l⟩) accepted, append_refused (s := ⟨d', l'⟩) accepted']
    exact .error

theorem tombstone (h : Alike s t) (k : Nat) : OutcomesAlike (tombstone k s) (tombstone k t) := by
  have ranged := h.recordRange k
  obtain ⟨d, l⟩ := s
  obtain ⟨d', l'⟩ := t
  obtain ⟨⟨recs, left, right⟩, header, dir⟩ := h
  cases hk : recs[k]? with
  | none =>
      obtain ⟨e, refused⟩ := left.reads.recordRange_error (List.getElem?_eq_none_iff.mp hk)
      rw [tombstone_unranged (s := ⟨d, l⟩) refused,
        tombstone_unranged (s := ⟨d', l'⟩) (ranged ▸ refused)]
      exact .error
  | some r =>
      cases dead : Record.isTombstoned r with
      | true =>
          rw [tombstone_deleted left.reads hk dead, tombstone_deleted right.reads hk dead]
          exact .ok (.of_stored left right header dir)
      | false =>
          obtain ⟨d1, l1, run, stored1, header1, same1, -⟩ := left.tombstone hk dead
          obtain ⟨d1', l1', run', stored1', header1', same1', -⟩ := right.tombstone hk dead
          rw [run, run']
          exact .ok (.of_stored stored1 stored1' (by rw [header1, header1', header])
            (by rw [same1.dir, same1'.dir, dir]))

theorem raiseNextId (h : Alike s t) (floor : Int64)
    : OutcomesAlike (raiseNextId floor s) (raiseNextId floor t) := by
  obtain ⟨d, l⟩ := s
  obtain ⟨d', l'⟩ := t
  obtain ⟨⟨recs, left, right⟩, header, dir⟩ := h
  obtain ⟨d1, l1, run, stored1, header1, same1, -⟩ := left.raiseNextId floor
  obtain ⟨d1', l1', run', stored1', header1', same1', -⟩ := right.raiseNextId floor
  rw [run, run']
  exact .ok (.of_stored stored1 stored1' (by rw [header1, header1', header])
    (by rw [same1.dir, same1'.dir, dir]))

theorem recreate (h : Alike s t) : OutcomesAlike (recreate s) (recreate t) := by
  obtain ⟨d, l⟩ := s
  obtain ⟨d', l'⟩ := t
  obtain ⟨⟨recs, left, right⟩, header, dir⟩ := h
  obtain ⟨d1, l1, run, stored1, header1, dir1, -⟩ := recreate_spec left
  obtain ⟨d1', l1', run', stored1', header1', dir1', -⟩ := recreate_spec right
  have mark : l.nextId = l'.nextId := by rw [IdentityLog.nextId, IdentityLog.nextId, header]
  rw [run, run']
  exact .ok (.of_stored stored1 stored1' (by rw [header1, header1', mark])
    (by rw [dir1, dir1', dir]))

/-- Alike logs opened again, each with its own options, open alike. -/
theorem reopen (h : Alike s t) (options options' : Options)
    : ∃ l d l' d', IdentityLog.openIn s.log.dir options s.disk = .ok l d ∧
        IdentityLog.openIn t.log.dir options' t.disk = .ok l' d' ∧ Alike ⟨d, l⟩ ⟨d', l'⟩ := by
  obtain ⟨⟨recs, left, right⟩, header, dir⟩ := h
  obtain ⟨l1, d1, run, stored1, header1, -, -, dir1, -⟩ := openIn_stored left options
  obtain ⟨l1', d1', run', stored1', header1', -, -, dir1', -⟩ := openIn_stored right options'
  exact ⟨l1, d1, l1', d1', run, run', .of_stored stored1 stored1'
    (by rw [header1, header1', header]) (by rw [dir1, dir1', dir])⟩

end Alike

-----------------------------------------------------------------------------------------
-- Sessions with either access
-----------------------------------------------------------------------------------------

/-- The same call, up to the options a reopening takes. -/
inductive LogCall.Twin : LogCall → LogCall → Prop
  | same (c : LogCall) : Twin c c
  | reopen (options options' : Options) : Twin (.reopen options) (.reopen options')

/-- Outcomes alike either both succeed, with the same answer and alike logs, or both fail with
the same error. -/
theorem OutcomesAlike.shape {α : Type} {x y : EStateM.Result StoreError LogState α}
    (h : OutcomesAlike x y)
    : (∃ a s' t', x = .ok a s' ∧ y = .ok a t' ∧ Alike s' t') ∨
        ∃ e s' t', x = .error e s' ∧ y = .error e t' := by
  cases h with
  | ok alike => exact .inl ⟨_, _, _, rfl, rfl, alike⟩
  | error => exact .inr ⟨_, _, _, rfl, rfl⟩

/-- A call and its twin on alike logs both succeed, leaving alike logs, or both fail. -/
theorem Alike.call {s t : LogState} (h : Alike s t) {c c' : LogCall} (twin : LogCall.Twin c c')
    : Option.Rel Alike (s.call c) (t.call c') := by
  cases twin with
  | same c =>
      cases c with
      | append bytes =>
          rcases (h.append bytes).shape with ⟨_, s', t', hs, ht, alike⟩ | ⟨_, _, _, hs, ht⟩
          · simpa only [LogState.call, hs, ht] using .some alike
          · simpa only [LogState.call, hs, ht] using .none
      | tombstone k =>
          rcases (h.tombstone k).shape with ⟨_, s', t', hs, ht, alike⟩ | ⟨_, _, _, hs, ht⟩
          · simpa only [LogState.call, hs, ht] using .some alike
          · simpa only [LogState.call, hs, ht] using .none
      | raiseNextId floor =>
          rcases (h.raiseNextId floor).shape with ⟨_, s', t', hs, ht, alike⟩ | ⟨_, _, _, hs, ht⟩
          · simpa only [LogState.call, hs, ht] using .some alike
          · simpa only [LogState.call, hs, ht] using .none
      | recreate =>
          rcases h.recreate.shape with ⟨_, s', t', hs, ht, alike⟩ | ⟨_, _, _, hs, ht⟩
          · simpa only [LogState.call, hs, ht] using .some alike
          · simpa only [LogState.call, hs, ht] using .none
      | reopen options =>
          obtain ⟨l, d, l', d', run, run', alike⟩ := h.reopen options options
          simpa only [LogState.call, run, run'] using .some alike
  | reopen options options' =>
      obtain ⟨l, d, l', d', run, run', alike⟩ := h.reopen options options'
      simpa only [LogState.call, run, run'] using .some alike

/-- Twin calls, one after another, on alike logs both succeed, leaving alike logs, or both
fail. -/
theorem Alike.calls {cs cs' : List LogCall} (twins : List.Forall₂ LogCall.Twin cs cs')
    : ∀ {s t : LogState}, Alike s t → Option.Rel Alike (s.calls cs) (t.calls cs') := by
  -- by induction on the pairs of calls, the first call carrying the logs to the rest
  induction twins with
  | nil => exact fun h => .some h
  | @cons c c' rest rest' twin _ ih =>
      intro s t h
      have step := h.call twin
      simp only [LogState.calls]
      cases hs : s.call c <;> cases ht : t.call c' <;> rw [hs, ht] at step <;> cases step
      · exact .none
      · rename_i alike
        exact ih alike

/-- Two sessions in a directory that the file system holds alone, making the same calls and
opening the log each time with whatever options, access included, both succeed or both fail;
and then their logs have as many records, read the same bytes at every index (a read past the
last record failing alike), have as many deleted records under the same data end and id mark,
and answer every further append, read, deletion, raise of the id mark and fresh start alike. -/
theorem logSession_access_alike (dir : String) (options options' : Options)
    (cs cs' : List LogCall) (twins : List.Forall₂ LogCall.Twin cs cs')
    : match logSession dir options cs, logSession dir options' cs' with
      | some s, some t => s.log.size = t.log.size ∧
          (∀ i, s.log.read s.disk i = t.log.read t.disk i) ∧
          s.log.tombstones = t.log.tombstones ∧ s.log.dataLen = t.log.dataLen ∧
          s.log.nextId = t.log.nextId ∧
          (∀ bytes, OutcomesAlike (append bytes s) (append bytes t)) ∧
          (∀ i, OutcomesAlike (readAt i s) (readAt i t)) ∧
          (∀ k, OutcomesAlike (tombstone k s) (tombstone k t)) ∧
          (∀ floor, OutcomesAlike (raiseNextId floor s) (raiseNextId floor t)) ∧
          OutcomesAlike (recreate s) (recreate t)
      | none, none => True
      | _, _ => False := by
  obtain ⟨l0, d0, opened, stored0, header0, home, -⟩ := openIn_withDir dir options
  obtain ⟨l0', d0', opened', stored0', header0', home', -⟩ := openIn_withDir dir options'
  have start : Alike ⟨d0, l0⟩ ⟨d0', l0'⟩ :=
    .of_stored stored0 stored0' (by rw [header0, header0']) (by rw [home, home'])
  have run := start.calls twins
  unfold logSession
  rw [opened, opened']
  dsimp only
  cases hs : LogState.calls ⟨d0, l0⟩ cs <;> cases ht : LogState.calls ⟨d0', l0'⟩ cs' <;>
    rw [hs, ht] at run <;> cases run
  · trivial
  · rename_i s t alike
    exact ⟨alike.size, alike.read, alike.tombstones,
      by simp only [IdentityLog.dataLen, alike.header],
      by simp only [IdentityLog.nextId, alike.header], alike.append, alike.readAt, alike.tombstone,
      alike.raiseNextId, alike.recreate⟩

theorem logSession_access_alike_sample
    : List.Forall₂ LogCall.Twin [.append ⟨#[1, 29]⟩, .reopen { access := .mapped }, .tombstone 0]
        [.append ⟨#[1, 29]⟩, .reopen { access := .file }, .tombstone 0] ∧
      match logSession "/srv/ids" { access := .file }
          [.append ⟨#[1, 29]⟩, .reopen { access := .mapped }, .tombstone 0],
        logSession "/srv/ids" { access := .mapped }
          [.append ⟨#[1, 29]⟩, .reopen { access := .file }, .tombstone 0] with
      | some s, some t => s.log.size = t.log.size ∧
          (∀ i, s.log.read s.disk i = t.log.read t.disk i) ∧
          s.log.tombstones = t.log.tombstones ∧ s.log.dataLen = t.log.dataLen ∧
          s.log.nextId = t.log.nextId ∧
          (∀ bytes, OutcomesAlike (append bytes s) (append bytes t)) ∧
          (∀ i, OutcomesAlike (readAt i s) (readAt i t)) ∧
          (∀ k, OutcomesAlike (tombstone k s) (tombstone k t)) ∧
          (∀ floor, OutcomesAlike (raiseNextId floor s) (raiseNextId floor t)) ∧
          OutcomesAlike (recreate s) (recreate t)
      | none, none => True
      | _, _ => False :=
  have twins : List.Forall₂ LogCall.Twin
      [.append ⟨#[1, 29]⟩, .reopen { access := .mapped }, .tombstone 0]
      [.append ⟨#[1, 29]⟩, .reopen { access := .file }, .tombstone 0] :=
    .cons (.same _) (.cons (.reopen _ _) (.cons (.same _) .nil))
  ⟨twins, logSession_access_alike _ _ _ _ _ twins⟩

end MetricRegistry.Log
