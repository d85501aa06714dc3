import MetricRegistry.Proofs.LogSession
import MetricRegistry.Proofs.Session

/-! The count of deleted records, kept with three different tests by append, deletion and open,
agrees with a recount of the whole log on every log and store a session reaches
(`session_deletedCount`). -/

namespace MetricRegistry.Log

open Disk

/-- Bytes that read as a deleted record: shorter than a record header, or not flagged live. -/
def ReadsDeleted (bytes : ByteArray) : Prop :=
  bytes.size < Record.headerSize ∨ bytes[0]? ≠ some Record.flagLive

instance (bytes : ByteArray) : Decidable (ReadsDeleted bytes) :=
  inferInstanceAs (Decidable (_ ∨ _))

/-- The deletion test of an append is the one the recount makes. -/
theorem isTombstoned_iff (bytes : ByteArray)
    : Record.isTombstoned bytes = true ↔ ReadsDeleted bytes := by
  unfold Record.isTombstoned ReadsDeleted
  by_cases short : bytes.size < Record.headerSize
  · simp [short]
  · have long : 0 < bytes.size := by simp only [Record.headerSize] at short; omega
    have first : bytes[0]? = some bytes[0] := getElem?_pos bytes 0 long
    simp [short, first]

/-- A record reads as live when it is at least a header long and flagged live. -/
theorem isTombstoned_eq_false_iff (bytes : ByteArray)
    : Record.isTombstoned bytes = false ↔
        Record.headerSize ≤ bytes.size ∧ bytes[0]? = some Record.flagLive := by
  rw [← Bool.not_eq_true, isTombstoned_iff]
  simp only [ReadsDeleted, not_or, Nat.not_lt, ne_eq, Decidable.not_not]

namespace IdentityLog

/-- The indices of the records that read as deleted. -/
def deletedIndices (l : IdentityLog) (d : Disk) : List Nat :=
  (List.range l.size).filter fun i =>
    match l.read d i with
    | .ok bytes => decide (ReadsDeleted bytes)
    | .error _ => false

end IdentityLog

/-- A log's count of deleted records and its deletion, as a recount sees them: every record
reads, the count is the number of records that read as deleted, and deleting a record answers
`true` exactly when it reads as live (at least a header long, flagged live), and then writes the
deleted flag over its first byte and counts it, and nothing else. A record that reads as deleted
is answered `false` and left alone. -/
structure CountsDeleted (s : LogState) : Prop where
  reads : ∀ i, i < s.log.size → ∃ bytes, s.log.read s.disk i = .ok bytes
  count : s.log.tombstones = (s.log.deletedIndices s.disk).length
  clears : ∀ i s', tombstone i s = .ok true s' ↔
    ∃ bytes start stop inode, s.log.read s.disk i = .ok bytes ∧
      Record.headerSize ≤ bytes.size ∧ bytes[0]? = some Record.flagLive ∧
      s.log.recordRange i = .ok (start, stop) ∧ s.log.data.inode = some inode ∧
      s' = ⟨s.disk.modifyBytes inode (Bytes.overwrite · start ⟨#[Record.flagDeleted]⟩),
        { s.log with tombstones := s.log.tombstones + 1 }⟩
  keeps : ∀ i bytes, s.log.read s.disk i = .ok bytes → ReadsDeleted bytes →
    tombstone i s = .ok false s

namespace Reads

variable {d : Disk} {l : IdentityLog} {recs : List ByteArray}

theorem read_past (h : Reads d l recs) {k : Nat} (past : recs.length ≤ k)
    : ∃ e, l.read d k = .error e := by
  obtain ⟨e, refused⟩ := h.recordRange_error past
  exact ⟨e, by simp only [IdentityLog.read, refused, bind, Except.bind]⟩

/-- A record that reads at all is one of the records. -/
theorem record_of_read (h : Reads d l recs) {k : Nat} {bytes : ByteArray}
    (read : l.read d k = .ok bytes) : recs[k]? = some bytes := by
  cases hk : recs[k]? with
  | none =>
      obtain ⟨e, refused⟩ := h.read_past (List.getElem?_eq_none_iff.mp hk)
      rw [refused] at read
      cases read
  | some r =>
      rw [h.read_eq hk] at read
      cases read
      rfl

/-- The recount finds the records whose bytes the log holds as deleted. -/
theorem deletedIndices_length (h : Reads d l recs)
    : (l.deletedIndices d).length = (recs.filter Record.isTombstoned).length := by
  have whole : recs = (List.range recs.length).map fun k => recs.getD k ByteArray.empty := by
    apply List.ext_getElem?
    intro k
    by_cases hk : k < recs.length
    · simp [List.getElem?_range hk, List.getD_eq_getElem?_getD, List.getElem?_eq_getElem hk]
    · simp [hk]
  rw [IdentityLog.deletedIndices, h.size_eq, ← List.countP_eq_length_filter,
    ← List.countP_eq_length_filter]
  conv => rhs; rw [whole]
  rw [List.countP_map]
  apply List.countP_congr
  intro k hk
  have lt := List.mem_range.mp hk
  have at_k : recs[k]? = some recs[k] := List.getElem?_eq_getElem lt
  simp only [h.read_eq at_k, Function.comp, List.getD_eq_getElem?_getD, at_k, Option.getD_some,
    decide_eq_true_eq, ← isTombstoned_iff]

/-- A deletion that answers `true` found a record that reads as live, wrote the deleted flag over
its first byte and counted it. -/
theorem tombstone_true (h : Reads d l recs) {i : Nat} {s' : LogState}
    (deleted : tombstone i ⟨d, l⟩ = .ok true s')
    : ∃ bytes start stop inode, l.read d i = .ok bytes ∧
        Record.headerSize ≤ bytes.size ∧ bytes[0]? = some Record.flagLive ∧
        l.recordRange i = .ok (start, stop) ∧ l.data.inode = some inode ∧
        s' = ⟨d.modifyBytes inode (Bytes.overwrite · start ⟨#[Record.flagDeleted]⟩),
          { l with tombstones := l.tombstones + 1 }⟩ := by
  cases hk : recs[i]? with
  | none =>
      obtain ⟨e, refused⟩ := h.tombstone_past (List.getElem?_eq_none_iff.mp hk)
      rw [refused] at deleted
      cases deleted
  | some r =>
      cases live : Record.isTombstoned r with
      | true =>
          rw [tombstone_deleted h hk live] at deleted
          cases deleted
      | false =>
          obtain ⟨inode, hi⟩ := Option.isSome_iff_exists.mp (Region.isSome_inode h.data)
          rw [tombstone_exact h hk live hi] at deleted
          cases deleted
          obtain ⟨long, flagged⟩ := (isTombstoned_eq_false_iff r).mp live
          exact ⟨r, _, _, inode, h.read_eq hk, long, flagged, h.recordRange_eq hk, hi, rfl⟩

/-- Every log that reads its records counts its deleted ones as a recount does, and deletes
exactly the live ones, one flag byte each. -/
theorem countsDeleted (h : Reads d l recs) : CountsDeleted ⟨d, l⟩ where
  reads i lt := by
    obtain ⟨r, hr⟩ : ∃ r, recs[i]? = some r :=
      ⟨_, List.getElem?_eq_getElem (by rw [← h.size_eq]; exact lt)⟩
    exact ⟨r, h.read_eq hr⟩
  count := by rw [h.tombstones, h.deletedIndices_length]
  clears i s' := by
    refine ⟨h.tombstone_true, ?_⟩
    rintro ⟨bytes, start, stop, inode, read, long, flagged, range, hi, rfl⟩
    have hk := h.record_of_read read
    rw [h.recordRange_eq hk] at range
    cases range
    exact tombstone_exact h hk ((isTombstoned_eq_false_iff bytes).mpr ⟨long, flagged⟩) hi
  keeps i bytes read dead := by
    have hk := h.record_of_read read
    exact tombstone_deleted h hk ((isTombstoned_iff bytes).mpr dead)

end Reads

/-- Every log a session reaches, from a directory that the file system held alone, counts its
deleted records as a recount does and deletes exactly its live records, one flag byte each. -/
theorem logSession_countsDeleted (dir : String) (options : Options) (cs : List LogCall)
    : match logSession dir options cs with
      | some s => CountsDeleted s
      | none => True := by
  cases reached : logSession dir options cs with
  | none => trivial
  | some s =>
      unfold logSession at reached
      obtain ⟨l0, d0, opened, stored0, -⟩ := openIn_withDir dir options
      rw [opened] at reached
      obtain ⟨⟨recs, stored⟩, -⟩ := stored0.calls reached
      exact stored.reads.countsDeleted

end MetricRegistry.Log

namespace MetricRegistry.Store

open Log

/-- The statistics of every store a session of fewer than `2 ^ 62` calls reaches report as
deleted exactly the records of its log that read as deleted. -/
theorem session_deletedCount (config : Config) (cs : List Call) (few : cs.length < 2 ^ 62)
    : match session config cs with
      | some st => st.stats.deletedCount = (st.log.deletedIndices st.disk).length
      | none => True := by
  cases reached : session config cs with
  | none => trivial
  | some st =>
      obtain ⟨rs, hc, -⟩ := session_consistent few reached
      exact hc.indexed.stored.reads.countsDeleted.count

/-- The count of deleted records agrees with a recount. Every log that a session reaches from a
directory its file system held alone — appends of any bytes, deletions, raises of the id mark,
fresh starts and reopenings with either access, in any order — counts exactly the records whose
bytes are shorter than a record header or not flagged live; deleting a record answers `true`
exactly when it is at least a header long and flagged live, and then writes the deleted flag
over that one byte and counts it. So the deleted count in the statistics of every store a
session reaches is the number of its log's deleted records. -/
theorem deleted_count_recounts
    : (∀ dir options cs, match logSession dir options cs with
        | some s => CountsDeleted s
        | none => True) ∧
      ∀ config cs, cs.length < 2 ^ 62 → match session config cs with
        | some st => st.stats.deletedCount = (st.log.deletedIndices st.disk).length
        | none => True :=
  ⟨logSession_countsDeleted, session_deletedCount⟩

theorem deleted_count_recounts_sample
    : [Call.resolve 0 (some "cpu") none, .delete 1, .reopen .file].length < 2 ^ 62 ∧
      match session { dataDir := "/srv/ids" } [.resolve 0 (some "cpu") none, .delete 1,
          .reopen .file] with
      | some st => st.stats.deletedCount = (st.log.deletedIndices st.disk).length
      | none => True :=
  ⟨by decide, deleted_count_recounts.2 _ _ (by decide)⟩

end MetricRegistry.Store
