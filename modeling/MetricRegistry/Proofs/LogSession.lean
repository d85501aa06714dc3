import MetricRegistry.Proofs.LogFiles

/-! Sessions on a log in a fresh directory: every log a session leaves is stored there
(`Stored.calls`), so dropped and opened again it has the same records, deletions, data end and
id mark (`logSession_reopen`). -/

namespace MetricRegistry.Log

open Disk

/-- A call a client makes on an open log. -/
inductive LogCall where
  | append (bytes : ByteArray)
  | tombstone (index : Nat)
  | raiseNextId (floor : Int64)
  | recreate
  | reopen (options : Options)

namespace LogState

/-- The file system and log a call leaves when it succeeds; none when it fails. Reopening drops
the log and opens its directory again with the given options. -/
def call : LogCall → LogState → Option LogState
  | .append bytes, s =>
    match Log.append bytes s with
    | .ok _ s' => some s'
    | .error _ _ => none
  | .tombstone i, s =>
    match Log.tombstone i s with
    | .ok _ s' => some s'
    | .error _ _ => none
  | .raiseNextId floor, s =>
    match Log.raiseNextId floor s with
    | .ok _ s' => some s'
    | .error _ _ => none
  | .recreate, s =>
    match Log.recreate s with
    | .ok _ s' => some s'
    | .error _ _ => none
  | .reopen options, s =>
    match IdentityLog.openIn s.log.dir options s.disk with
    | .ok l d => some ⟨d, l⟩
    | .error _ _ => none

/-- What the calls leave, made in order while each succeeds. -/
def calls : LogState → List LogCall → Option LogState
  | s, [] => some s
  | s, c :: rest => (s.call c).bind (calls · rest)

end LogState

/-- What a session leaves: a log opened in a directory that the file system holds alone, then
the calls. -/
@[irreducible] def logSession (dir : String) (options : Options) (cs : List LogCall)
    : Option LogState :=
  match IdentityLog.openIn dir options (Disk.withDir dir) with
  | .ok l d => LogState.calls ⟨d, l⟩ cs
  | .error _ _ => none

section Stored

variable {d : Disk} {l : IdentityLog} {recs : List ByteArray}

/-- Two logs that read the same records answer every read alike, a read past the last record
included. -/
theorem Reads.read_congr {d' : Disk} {l' : IdentityLog} (h : Reads d l recs)
    (h' : Reads d' l' recs) (i : Nat) : l'.read d' i = l.read d i := by
  cases hk : recs[i]? with
  | some r => rw [h.read_eq hk, h'.read_eq hk]
  | none =>
      have past : recs.length ≤ i := List.getElem?_eq_none_iff.mp hk
      have count : l'.offsets.size = l.offsets.size := h'.size_eq.trans h.size_eq.symm
      simp only [IdentityLog.read, IdentityLog.recordRange, h.getElem?_offsets_none past,
        h'.getElem?_offsets_none past, count, bind, Except.bind]

/-- Deleting a record past the last one fails. -/
theorem Reads.tombstone_past (h : Reads d l recs) {k : Nat} (past : recs.length ≤ k)
    : ∃ e, Log.tombstone k ⟨d, l⟩ = .error e ⟨d, l⟩ := by
  obtain ⟨e, refused⟩ := h.recordRange_error past
  refine ⟨e, ?_⟩
  simp only [tombstone, bind, EStateM.bind, get, getThe, MonadStateOf.get, EStateM.get,
    liftExcept, refused, throw, throwThe, MonadExceptOf.throw, EStateM.throw]

/-- A deletion that succeeds on a stored log leaves a stored log with the same files. -/
theorem Stored.tombstone_ok (h : Stored d l recs) {k : Nat} {b : Bool} {s' : LogState}
    (run : Log.tombstone k ⟨d, l⟩ = .ok b s')
    : (∃ recs', Stored s'.disk s'.log recs') ∧ s'.log.dir = l.dir := by
  cases hk : recs[k]? with
  | none =>
      obtain ⟨e, refused⟩ := h.reads.tombstone_past (List.getElem?_eq_none_iff.mp hk)
      rw [refused] at run
      cases run
  | some r =>
      cases dead : Record.isTombstoned r with
      | true =>
          rw [tombstone_deleted h.reads hk dead] at run
          cases run
          exact ⟨⟨recs, h⟩, rfl⟩
      | false =>
          obtain ⟨d', l', done, stored', -, same, -⟩ := h.tombstone hk dead
          rw [done] at run
          cases run
          exact ⟨⟨_, stored'⟩, same.dir⟩

/-- A call that succeeds on a stored log leaves a stored log in the same directory. -/
theorem Stored.call (h : Stored d l recs) {c : LogCall} {s' : LogState}
    (run : LogState.call c ⟨d, l⟩ = some s')
    : (∃ recs', Stored s'.disk s'.log recs') ∧ s'.log.dir = l.dir := by
  cases c with
  | append bytes =>
      simp only [LogState.call] at run
      split at run
      · rename_i i s1 appended
        cases run
        obtain ⟨nonempty, fits⟩ := append_fits appended
        obtain ⟨d', l', done, stored', -, same, -⟩ := h.append nonempty fits
        rw [done] at appended
        cases appended
        exact ⟨⟨_, stored'⟩, same.dir⟩
      · cases run
  | tombstone k =>
      simp only [LogState.call] at run
      split at run
      · rename_i b s1 deleted
        cases run
        exact h.tombstone_ok deleted
      · cases run
  | raiseNextId floor =>
      simp only [LogState.call] at run
      split at run
      · rename_i u s1 raised
        cases run
        obtain ⟨d', l', done, stored', -, same, -⟩ := h.raiseNextId floor
        rw [done] at raised
        cases raised
        exact ⟨⟨_, stored'⟩, same.dir⟩
      · cases run
  | recreate =>
      simp only [LogState.call] at run
      split at run
      · rename_i u s1 recreated
        cases run
        obtain ⟨d', l', done, stored', -, dir', -⟩ := recreate_spec h
        rw [done] at recreated
        cases recreated
        exact ⟨⟨_, stored'⟩, dir'⟩
      · cases run
  | reopen options =>
      simp only [LogState.call] at run
      split at run
      · rename_i l1 d1 reopened
        cases run
        obtain ⟨l', d', done, stored', -, -, -, dir', -⟩ := openIn_stored h options
        rw [done] at reopened
        cases reopened
        exact ⟨⟨_, stored'⟩, dir'⟩
      · cases run

/-- Calls that succeed, one after another, on a stored log leave a stored log in the same
directory. -/
theorem Stored.calls
    : ∀ {cs : List LogCall} {d : Disk} {l : IdentityLog} {recs : List ByteArray} {s' : LogState},
      Stored d l recs → LogState.calls ⟨d, l⟩ cs = some s' →
        (∃ recs', Stored s'.disk s'.log recs') ∧ s'.log.dir = l.dir := by
  intro cs
  induction cs with
  | nil =>
      intro d l recs s' h run
      cases run
      exact ⟨⟨recs, h⟩, rfl⟩
  | cons c rest ih =>
      intro d l recs s' h run
      simp only [LogState.calls] at run
      cases called : LogState.call c ⟨d, l⟩ with
      | none => simp [called] at run
      | some s1 =>
          simp only [called, Option.bind_some] at run
          obtain ⟨⟨recs1, stored1⟩, dir1⟩ := h.call called
          obtain ⟨stored', dir'⟩ := ih stored1 run
          exact ⟨stored', dir'.trans dir1⟩

end Stored

/-- A log that a session leaves, in a directory that the file system held alone, dropped and
opened again there with any options, opens with as many records, the same bytes from every read
(a read past the last record failing alike), and as many deleted records under the same data end
and id mark: every append that succeeded is still there. The session may itself have reopened
the log, so this holds from the files of any log a session left. -/
theorem logSession_reopen (dir : String) (options : Options) (cs : List LogCall)
    (options' : Options)
    : match logSession dir options cs with
      | some s => ∃ l d, IdentityLog.openIn dir options' s.disk = .ok l d ∧
          l.size = s.log.size ∧ (∀ i, l.read d i = s.log.read s.disk i) ∧
          l.tombstones = s.log.tombstones ∧ l.dataLen = s.log.dataLen ∧
          l.nextId = s.log.nextId
      | none => True := by
  cases reached : logSession dir options cs with
  | none => trivial
  | some s =>
      unfold logSession at reached
      obtain ⟨l0, d0, opened, stored0, -, home, -⟩ := openIn_withDir dir options
      rw [opened] at reached
      obtain ⟨⟨recs, stored⟩, dir'⟩ := stored0.calls reached
      obtain ⟨l, d, reopened, stored', header, offsets, tombstones, -⟩ :=
        openIn_stored stored options'
      rw [dir', home] at reopened
      refine ⟨l, d, reopened, ?_, stored.reads.read_congr stored'.reads, tombstones, ?_, ?_⟩
      · simp only [IdentityLog.size, offsets]
      · simp only [IdentityLog.dataLen, header]
      · simp only [IdentityLog.nextId, header]

/-- Two appends, a deletion of the first record and a reopening, on a log that writes its files
directly. -/
def twoRecordCalls : List LogCall :=
  [.append (Record.encodeUnchecked (Identity.create 1 0 (some "cpu") none)),
    .append (Record.encodeUnchecked (Identity.create 2 0 (some "mem") none)), .tombstone 0,
    .reopen { access := .file }]

theorem twoRecordCalls_reached
    : (logSession "ids" { access := .file } twoRecordCalls).isSome = true := by
  decide +kernel

/-- The session of `twoRecordCalls` reaches a log, and opening its files again with the default
options finds that log. -/
theorem logSession_reopen_sample
    : ∃ s, logSession "ids" { access := .file } twoRecordCalls = some s ∧
      ∃ l d, IdentityLog.openIn "ids" {} s.disk = .ok l d ∧
        l.size = s.log.size ∧ (∀ i, l.read d i = s.log.read s.disk i) ∧
        l.tombstones = s.log.tombstones ∧ l.dataLen = s.log.dataLen ∧
        l.nextId = s.log.nextId := by
  obtain ⟨s, reached⟩ := Option.isSome_iff_exists.mp twoRecordCalls_reached
  have reopened := logSession_reopen "ids" { access := .file } twoRecordCalls {}
  rw [reached] at reopened
  exact ⟨s, reached, reopened⟩

end MetricRegistry.Log
