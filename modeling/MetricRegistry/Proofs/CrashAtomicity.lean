import MetricRegistry.Proofs.LogSession

/-! Appending survives a crash whole or not at all: the record and its offset land past what the
files commit, and the header commits both, so a kill after any of the three writes opens as the
log before or after the append (`append_crash_atomic`). -/

-----------------------------------------------------------------------------------------
-- What a log reads depends on a prefix of its files
-----------------------------------------------------------------------------------------

namespace MetricRegistry.Disk

/-- `f'` holds the first `n` bytes of `f`, and maybe others after them. -/
structure SamePrefix (f f' : ByteArray) (n : Nat) : Prop where
  size : n ≤ f'.size
  bytes : ∀ j, j < n → f'[j]? = f[j]?

namespace SamePrefix

variable {f f' : ByteArray} {n : Nat}

theorem extract (p : SamePrefix f f' n) {start stop : Nat} (inside : stop ≤ n)
    : f'.extract start stop = f.extract start stop := by
  apply Bytes.ext_getElem?
  intro j
  rw [Bytes.getElem?_extract, Bytes.getElem?_extract]
  split
  · exact p.bytes _ (by omega)
  · rfl

theorem readLE (p : SamePrefix f f' n) {pos width : Nat} (inside : pos + width ≤ n)
    : Bytes.readLE f' pos width = Bytes.readLE f pos width :=
  Bytes.readLE_congr fun j _ => p.bytes _ (by omega)

end SamePrefix

/-- A write at or past byte `n` of a file at least that long keeps its first `n` bytes. -/
theorem Patched.samePrefix {f f' patch : ByteArray} {pos n : Nat} (p : Patched f f' pos patch)
    (before : n ≤ pos) (long : n ≤ f.size) : SamePrefix f f' n :=
  ⟨Nat.le_trans long p.keepsSize, fun j lt => p.outside j (by omega) (.inl (by omega))⟩

end MetricRegistry.Disk

namespace MetricRegistry.Log

open Disk

/-- A log reads the same records from a data file that keeps its bytes below the data end, under
the same offsets, data end and deleted count: what lies past the data end is never read. -/
theorem Reads.keep {d d' : Disk} {l l' : IdentityLog} {recs : List ByteArray}
    (h : Reads d l recs) (data : l'.data.Valid d')
    (kept : SamePrefix (l.data.bytes d) (l'.data.bytes d') l.header.dataEnd)
    (offsets : l'.offsets = l.offsets) (dataEnd : l'.header.dataEnd = l.header.dataEnd)
    (tombstones : l'.tombstones = l.tombstones) : Reads d' l' recs where
  offsets := offsets ▸ h.offsets
  dataEnd := dataEnd ▸ h.dataEnd
  nonempty := h.nonempty
  data := data
  within := dataEnd ▸ kept.size
  bytes := fun hk j hj => by
    rw [kept.bytes _ (by have := h.end_le hk; omega)]
    exact h.bytes hk j hj
  tombstones := tombstones ▸ h.tombstones

/-- The index reads back the same from a file that keeps its header and counted slots: what lies
past the last counted slot is never read. -/
theorem Persisted.keep {d d' : Disk} {l l' : IdentityLog} (h : Persisted d l)
    (index : l'.index.Valid d') (distinct : l'.index.inode ≠ l'.data.inode)
    (kept : SamePrefix (l.index.bytes d) (l'.index.bytes d')
      (IdentityLog.offsetSlot l.offsets.size))
    (header : l'.header = l.header) (offsets : l'.offsets = l.offsets) : Persisted d' l' where
  index := index
  distinct := distinct
  header := by
    rw [kept.extract (by simp only [IdentityLog.offsetSlot]; omega), header]
    exact h.header
  count := by rw [header, offsets]; exact h.count
  slots := by
    rw [offsets]
    refine ⟨fun hk => ?_, kept.size⟩
    have counted := (Array.getElem?_eq_some_iff.mp hk).1
    rw [kept.readLE (by simp only [IdentityLog.offsetSlot]; omega)]
    exact h.slots.read hk

-----------------------------------------------------------------------------------------
-- A crash inside an append
-----------------------------------------------------------------------------------------

/-- The file system a process leaves when it is killed inside an append of `bytes`, once the first
`k` of its writes are made; an append refused before it writes makes none. -/
def appendKilled (bytes : ByteArray) (k : Nat) (s : LogState) : Disk :=
  let killed : LogM Unit := do
    liftExcept (s.log.checkAppend bytes)
    runWrites ((s.log.appendWrites bytes).take k)
  match killed s with
  | .ok _ s' => s'.disk
  | .error _ s' => s'.disk

section Killed

variable {s s' : LogState} {bytes : ByteArray} {k : Nat}

theorem appendKilled_refused {e : StoreError} (refused : s.log.checkAppend bytes = .error e)
    : appendKilled bytes k s = s.disk := by
  simp only [appendKilled, bind, EStateM.bind, liftExcept, refused, throw, throwThe,
    MonadExceptOf.throw, EStateM.throw]

theorem appendKilled_of_runWrites (checked : s.log.checkAppend bytes = .ok ())
    (wrote : runWrites ((s.log.appendWrites bytes).take k) s = .ok () s')
    : appendKilled bytes k s = s'.disk := by
  simp only [appendKilled, bind, EStateM.bind, liftExcept, checked, pure, EStateM.pure, wrote]

/-- Killed once every write is made, an append leaves the files a finished append leaves: what
follows the header write changes only the log in memory. -/
theorem appendKilled_of_append {i : Nat} (whole : (s.log.appendWrites bytes).length ≤ k)
    (done : append bytes s = .ok i s') : appendKilled bytes k s = s'.disk := by
  cases checked : s.log.checkAppend bytes with
  | error e =>
      rw [append_of_refused checked] at done
      cases done
  | ok u =>
      cases wrote : runWrites (s.log.appendWrites bytes) s with
      | error e s3 =>
          simp only [append, bind, EStateM.bind, get, getThe, MonadStateOf.get, EStateM.get,
            liftExcept, checked, pure, EStateM.pure, wrote] at done
          cases done
      | ok u3 s3 =>
          rw [append_of_runWrites checked wrote] at done
          cases done
          rw [← List.take_of_length_le whole] at wrote
          rw [appendKilled_of_runWrites checked wrote]

end Killed

-----------------------------------------------------------------------------------------
-- Logs a client cannot tell apart
-----------------------------------------------------------------------------------------

/-- The log `l'` on `d'` answers as `l` on `d` does: as many records, the same bytes from every
read (a read past the last record failing alike), as many deleted records, and the same data end
and id mark. -/
structure SameView (l : IdentityLog) (d : Disk) (l' : IdentityLog) (d' : Disk) : Prop where
  size : l'.size = l.size
  read : ∀ i, l'.read d' i = l.read d i
  tombstones : l'.tombstones = l.tombstones
  dataLen : l'.dataLen = l.dataLen
  nextId : l'.nextId = l.nextId

/-- What opening again the files of `s` that a crash inside an append of `bytes` left, after `k`
of its writes, finds as `l` on `d`: the log after the append once every write is made and the
append succeeded, and otherwise the log before it. -/
inductive Recovered (s : LogState) (bytes : ByteArray) (k : Nat) (l : IdentityLog) (d : Disk)
    : Prop
  | after {s' : LogState} : append bytes s = .ok s.log.size s' →
      (s.log.appendWrites bytes).length ≤ k → SameView s'.log s'.disk l d →
      Recovered s bytes k l d
  | before : (k < (s.log.appendWrites bytes).length ∨ ∃ e, append bytes s = .error e s) →
      SameView s.log s.disk l d → Recovered s bytes k l d

section Stored

variable {d : Disk} {l : IdentityLog} {recs : List ByteArray}

/-- Two logs that read the same records under the same id mark answer alike. -/
theorem SameView.of_reads {d' : Disk} {l' : IdentityLog} (h : Reads d l recs)
    (h' : Reads d' l' recs) (nextId : l'.header.nextId = l.header.nextId) : SameView l d l' d' where
  size := h'.size_eq.trans h.size_eq.symm
  read := h.read_congr h'
  tombstones := h'.tombstones.trans h.tombstones.symm
  dataLen := h'.dataEnd.trans h.dataEnd.symm
  nextId := nextId

/-- Files that store the records of `l` under its header open as a log that answers as `l`. -/
theorem reopen_sameView (h : Reads d l recs) {d1 : Disk} {l1 : IdentityLog}
    (stored : Stored d1 l1 recs) (header : l1.header = l.header) (options : Options)
    : ∃ l' d', IdentityLog.openIn l1.dir options d1 = .ok l' d' ∧ SameView l d l' d' := by
  obtain ⟨l', d', opened, stored', header', -⟩ := openIn_stored stored options
  exact ⟨l', d', opened, SameView.of_reads h stored'.reads (by rw [header', header])⟩

/-- A write into the data file from the data end on leaves a stored log stored as it was. -/
theorem Stored.wrote_past_data {patch : ByteArray} {r : Region} {d' : Disk} (h : Stored d l recs)
    (w : Region.Wrote l.data d l.header.dataEnd patch r d')
    : Stored d' { l with data := r } recs := by
  have index := w.keeps h.persisted.index h.persisted.distinct
  have distinct : l.index.inode ≠ r.inode := by
    rw [w.inode]
    exact h.persisted.distinct
  exact ⟨h.reads.keep w.valid (w.patched.samePrefix (Nat.le_refl _) h.reads.within) rfl rfl rfl,
    h.persisted.transfer index.1 distinct index.2 rfl rfl,
    h.placed.transfer ⟨rfl, rfl, w.inode, rfl⟩ w.nodes⟩

/-- A write into the index from past the counted slots on leaves a stored log stored as it
was. -/
theorem Stored.wrote_past_slots {patch : ByteArray} {r : Region} {d' : Disk} (h : Stored d l recs)
    (w : Region.Wrote l.index d (IdentityLog.offsetSlot l.size) patch r d')
    : Stored d' { l with index := r } recs := by
  have data := w.keeps h.reads.data h.persisted.distinct.symm
  have distinct : r.inode ≠ l.data.inode := by
    rw [w.inode]
    exact h.persisted.distinct
  exact ⟨h.reads.transfer data.1 data.2 rfl rfl rfl,
    h.persisted.keep w.valid distinct
      (w.patched.samePrefix (Nat.le_refl _) h.persisted.slots.fit) rfl rfl,
    h.placed.transfer ⟨rfl, rfl, rfl, w.inode⟩ w.nodes⟩

/-- Before the header is written, the files of a stored log still store it: the record lies past
the data end, and its offset past the counted slots. -/
theorem Stored.killed_uncommitted (h : Stored d l recs) {bytes : ByteArray}
    (checked : l.checkAppend bytes = .ok ()) {k : Nat} (early : k < (l.appendWrites bytes).length)
    : ∃ l1, Stored (appendKilled bytes k ⟨d, l⟩) l1 recs ∧ l1.header = l.header ∧
        l1.dir = l.dir := by
  obtain ⟨nonempty, -⟩ := IdentityLog.checkAppend_eq_ok_iff.mp checked
  obtain ⟨r1, d1, hw1, w1⟩ := writeData_ok h.reads.data l.header.dataEnd nonempty
  have stored1 := h.wrote_past_data w1
  obtain ⟨r2, d2, hw2, w2⟩ := @writeIndex_ok d1 { l with data := r1 }
    (Bytes.encodeLE 8 l.header.dataEnd) stored1.persisted.index (IdentityLog.offsetSlot l.size)
    (by rw [Bytes.size_encodeLE]; decide)
  have stored2 := stored1.wrote_past_slots w2
  have wrote1 : runWrites [.data l.header.dataEnd bytes] ⟨d, l⟩ =
      .ok () ⟨d1, { l with data := r1 }⟩ := by
    simp only [runWrites, LogWrite.run, bind, EStateM.bind, hw1, pure, EStateM.pure]
  have wrote2 : runWrites [.data l.header.dataEnd bytes,
      .index (IdentityLog.offsetSlot l.size) (Bytes.encodeLE 8 l.header.dataEnd)] ⟨d, l⟩ =
        .ok () ⟨d2, { l with data := r1, index := r2 }⟩ := by
    simp only [runWrites, LogWrite.run, bind, EStateM.bind, hw1, hw2, pure, EStateM.pure]
  -- a crash comes after none, one or two of the three writes
  have three : k < 3 := early
  rcases (show k = 0 ∨ k = 1 ∨ k = 2 by omega) with rfl | rfl | rfl
  · have killed := @appendKilled_of_runWrites ⟨d, l⟩ ⟨d, l⟩ bytes 0 checked rfl
    rw [killed]
    exact ⟨l, h, rfl, rfl⟩
  · have killed := @appendKilled_of_runWrites ⟨d, l⟩ _ bytes 1 checked wrote1
    rw [killed]
    exact ⟨_, stored1, rfl, rfl⟩
  · have killed := @appendKilled_of_runWrites ⟨d, l⟩ _ bytes 2 checked wrote2
    rw [killed]
    exact ⟨_, stored2, rfl, rfl⟩

/-- Once the header is written, the files store the log one record longer: the log a finished
append leaves. -/
theorem Stored.killed_committed (h : Stored d l recs) {bytes : ByteArray}
    (checked : l.checkAppend bytes = .ok ()) {k : Nat} (whole : (l.appendWrites bytes).length ≤ k)
    : ∃ s', Log.append bytes ⟨d, l⟩ = .ok l.size s' ∧
        appendKilled bytes k ⟨d, l⟩ = s'.disk ∧ Stored s'.disk s'.log (recs ++ [bytes]) ∧
        s'.log.dir = l.dir := by
  obtain ⟨nonempty, fits⟩ := IdentityLog.checkAppend_eq_ok_iff.mp checked
  obtain ⟨d', l', run, stored', -, same, -⟩ := h.append nonempty fits
  rw [← h.reads.size_eq] at run
  exact ⟨⟨d', l'⟩, run, appendKilled_of_append whole run, stored', same.dir⟩

/-- A stored log whose process is killed inside an append, after any number of its writes, opens
again as the log after the append once every write is made and the append succeeded, and as the
log before it otherwise. -/
theorem Stored.appendKilled_reopens (h : Stored d l recs) (bytes : ByteArray) (k : Nat)
    (options : Options)
    : ∃ l' d', IdentityLog.openIn l.dir options (appendKilled bytes k ⟨d, l⟩) = .ok l' d' ∧
        Recovered ⟨d, l⟩ bytes k l' d' := by
  cases checked : l.checkAppend bytes with
  | error e =>
      have killed : appendKilled bytes k ⟨d, l⟩ = d := appendKilled_refused checked
      obtain ⟨l', d', opened, same⟩ := reopen_sameView h.reads h rfl options
      rw [killed]
      exact ⟨l', d', opened, .before (.inr ⟨e, append_of_refused checked⟩) same⟩
  | ok u =>
      by_cases whole : (l.appendWrites bytes).length ≤ k
      · obtain ⟨s', run, killed, stored', dir⟩ := h.killed_committed checked whole
        obtain ⟨l', d', opened, same⟩ := reopen_sameView stored'.reads stored' rfl options
        rw [killed, ← dir]
        exact ⟨l', d', opened, .after run whole same⟩
      · obtain ⟨l1, stored1, header1, dir1⟩ :=
          h.killed_uncommitted checked (Nat.lt_of_not_le whole)
        obtain ⟨l', d', opened, same⟩ := reopen_sameView h.reads stored1 header1 options
        rw [dir1] at opened
        exact ⟨l', d', opened, .before (.inl (Nat.lt_of_not_le whole)) same⟩

end Stored

/-- Appending is atomic across a crash, with the header as the commit point. Take the log that a
session leaves in a directory the file system held alone, and kill the process inside an append of
any bytes after any number of its writes. Opening the directory again, with any options, finds the
log after the append when every write was made and the append succeeded, and the log before it
otherwise: as many records, the same bytes from every read, as many deleted records, and the same
data end and id mark. -/
theorem append_crash_atomic (dir : String) (options : Options) (cs : List LogCall)
    (bytes : ByteArray) (k : Nat) (options' : Options)
    : match logSession dir options cs with
      | some s => ∃ l d,
          IdentityLog.openIn s.log.dir options' (appendKilled bytes k s) = .ok l d ∧
            Recovered s bytes k l d
      | none => True := by
  cases reached : logSession dir options cs with
  | none => trivial
  | some s =>
      unfold logSession at reached
      obtain ⟨l0, d0, opened, stored0, -⟩ := openIn_withDir dir options
      rw [opened] at reached
      obtain ⟨⟨recs, stored⟩, -⟩ := stored0.calls reached
      exact stored.appendKilled_reopens bytes k options'

/-- A third append killed after 12 of its writes, on the log of `twoRecordCalls`, reopens with or
without the record. -/
theorem append_crash_atomic_sample
    : ∃ s, logSession "ids" { access := .file } twoRecordCalls = some s ∧
      ∃ l d, IdentityLog.openIn s.log.dir {}
          (appendKilled (Record.encodeUnchecked (Identity.create 3 0 (some "disk") none)) 12 s) =
            .ok l d ∧
        Recovered s (Record.encodeUnchecked (Identity.create 3 0 (some "disk") none)) 12 l d := by
  obtain ⟨s, reached⟩ := Option.isSome_iff_exists.mp twoRecordCalls_reached
  have recovered := append_crash_atomic "ids" { access := .file } twoRecordCalls
    (Record.encodeUnchecked (Identity.create 3 0 (some "disk") none)) 12 {}
  rw [reached] at recovered
  exact ⟨s, reached, recovered⟩

end MetricRegistry.Log
