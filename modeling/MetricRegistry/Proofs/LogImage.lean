import MetricRegistry.Proofs.Disk
import MetricRegistry.Proofs.Header
import MetricRegistry.Proofs.Record
import MetricRegistry.Log.Basic

/-! What an open log holds as a list of records (`Reads`) and what its index persists
(`Persisted`); appending, deleting and raising the id mark keep both. -/

namespace MetricRegistry.Log

open Disk

-----------------------------------------------------------------------------------------
-- Records back to back
-----------------------------------------------------------------------------------------

/-- Where record `k` starts when `recs` lie back to back from offset 0. -/
def offsetOf (recs : List ByteArray) (k : Nat) : Nat := ((recs.take k).map ByteArray.size).sum

theorem offsetOf_zero (recs : List ByteArray) : offsetOf recs 0 = 0 := by simp [offsetOf]

theorem offsetOf_succ {recs : List ByteArray} {k : Nat} {r : ByteArray} (hk : recs[k]? = some r)
    : offsetOf recs (k + 1) = offsetOf recs k + r.size := by
  simp [offsetOf, List.take_add_one, hk]

theorem offsetOf_append_left {recs more : List ByteArray} {k : Nat} (hk : k ≤ recs.length)
    : offsetOf (recs ++ more) k = offsetOf recs k := by
  simp [offsetOf, List.take_append_of_le_length hk]

theorem offsetOf_mono (recs : List ByteArray) {k k' : Nat} (le : k ≤ k')
    : offsetOf recs k ≤ offsetOf recs k' := by
  obtain ⟨m, rfl⟩ := Nat.exists_eq_add_of_le le
  simp only [offsetOf, List.take_add, List.map_append, List.sum_append]
  omega

/-- Records of at least `m` bytes each start far apart: record `k` starts at `m * k` or later. -/
theorem mul_le_offsetOf {recs : List ByteArray} {m : Nat} (big : ∀ r ∈ recs, m ≤ r.size) {k : Nat}
    (hk : k ≤ recs.length) : m * k ≤ offsetOf recs k := by
  induction k with
  | zero => exact Nat.zero_le _
  | succ k ih =>
      obtain ⟨r, hr⟩ := Option.isSome_iff_exists.mp (by
        rw [List.getElem?_eq_getElem (by omega)]; rfl : (recs[k]?).isSome)
      rw [offsetOf_succ hr, Nat.mul_succ]
      have := big r (List.mem_of_getElem? hr)
      have := ih (by omega)
      omega

-----------------------------------------------------------------------------------------
-- Offset slots
-----------------------------------------------------------------------------------------

/-- The index bytes `b` hold `offsets`, one per 8-byte slot after the header. -/
structure SlotsHold (b : ByteArray) (offsets : Array Nat) : Prop where
  read : ∀ {k v : Nat}, offsets[k]? = some v → Bytes.readLE b (IdentityLog.offsetSlot k) 8 = v
  fit : IdentityLog.offsetSlot offsets.size ≤ b.size

namespace SlotsHold

variable {b b' : ByteArray} {offsets : Array Nat}

theorem slot_end_le (h : SlotsHold b offsets) {k : Nat} (hk : k < offsets.size)
    : IdentityLog.offsetSlot k + 8 ≤ b.size := by
  have := h.fit
  simp only [IdentityLog.offsetSlot, headerSize] at this ⊢
  omega

/-- Writing the next offset into its slot keeps the others. -/
theorem push (h : SlotsHold b offsets) {v : Nat} (hv : v < 2 ^ 64)
    (p : Patched b b' (IdentityLog.offsetSlot offsets.size) (Bytes.encodeLE 8 v))
    : SlotsHold b' (offsets.push v) := by
  have width := Bytes.size_encodeLE 8 v
  constructor
  · intro k w hk
    rw [Array.getElem?_push] at hk
    split at hk
    · rename_i last
      cases hk
      subst last
      rw [p.readLE_inside (Nat.le_refl _) (by omega), Nat.sub_self, Bytes.readLE_encodeLE]
      exact Nat.mod_eq_of_lt hv
    · have lt : k < offsets.size := (Array.getElem?_eq_some_iff.mp hk).1
      rw [p.readLE_outside (h.slot_end_le lt) (Or.inl (by simp only [IdentityLog.offsetSlot]; omega))]
      exact h.read hk
  · have := p.covers
    simp only [Array.size_push, IdentityLog.offsetSlot] at this ⊢
    omega

/-- Rewriting the header keeps every slot. -/
theorem patchHeader (h : SlotsHold b offsets) {patch : ByteArray} (p : Patched b b' 0 patch)
    (small : patch.size ≤ headerSize) : SlotsHold b' offsets := by
  constructor
  · intro k v hk
    have lt : k < offsets.size := (Array.getElem?_eq_some_iff.mp hk).1
    rw [p.readLE_outside (h.slot_end_le lt) (Or.inr (by simp only [IdentityLog.offsetSlot, headerSize] at small ⊢; omega))]
    exact h.read hk
  · exact Nat.le_trans h.fit p.keepsSize

end SlotsHold

-----------------------------------------------------------------------------------------
-- The two invariants
-----------------------------------------------------------------------------------------

/-- The log `l` on the file system `d` answers the records `recs`: its offsets are where they
lie back to back from 0, its data end is where they stop, the data file holds their bytes there,
and its count of deleted records is theirs. -/
structure Reads (d : Disk) (l : IdentityLog) (recs : List ByteArray) : Prop where
  offsets : l.offsets.toList = (List.range recs.length).map (offsetOf recs)
  dataEnd : l.header.dataEnd = offsetOf recs recs.length
  nonempty : ∀ r ∈ recs, 0 < r.size
  data : l.data.Valid d
  within : l.header.dataEnd ≤ (l.data.bytes d).size
  bytes : ∀ {k : Nat} {r : ByteArray}, recs[k]? = some r →
    ∀ j, j < r.size → (l.data.bytes d)[offsetOf recs k + j]? = r[j]?
  tombstones : l.tombstones = (recs.filter Record.isTombstoned).length

/-- The index file of `l` holds its header, followed by its offsets, which is what opening the
log reads back. -/
structure Persisted (d : Disk) (l : IdentityLog) : Prop where
  index : l.index.Valid d
  distinct : l.index.inode ≠ l.data.inode
  header : Header.decode ((l.index.bytes d).extract 0 headerSize) = .ok l.header
  count : l.header.recordCount = l.offsets.size
  slots : SlotsHold (l.index.bytes d) l.offsets

namespace Reads

variable {d : Disk} {l : IdentityLog} {recs : List ByteArray}

theorem size_eq (h : Reads d l recs) : l.size = recs.length := by
  rw [IdentityLog.size, ← Array.length_toList, h.offsets, List.length_map, List.length_range]

theorem getElem?_offsets (h : Reads d l recs) {k : Nat} (hk : k < recs.length)
    : l.offsets[k]? = some (offsetOf recs k) := by
  rw [← Array.getElem?_toList, h.offsets, List.getElem?_map, List.getElem?_range hk]
  rfl

theorem getElem?_offsets_none (h : Reads d l recs) {k : Nat} (hk : recs.length ≤ k)
    : l.offsets[k]? = none := by
  rw [← Array.getElem?_toList, h.offsets, List.getElem?_map, List.getElem?_eq_none (by simpa)]
  rfl

/-- Record `k` spans from its offset to the next one, or to the data end for the last. -/
theorem recordRange_eq (h : Reads d l recs) {k : Nat} {r : ByteArray} (hk : recs[k]? = some r)
    : l.recordRange k = .ok (offsetOf recs k, offsetOf recs k + r.size) := by
  have lt := (List.getElem?_eq_some_iff.mp hk).1
  rw [IdentityLog.recordRange, h.getElem?_offsets lt, ← offsetOf_succ hk]
  by_cases last : k + 1 < recs.length
  · rw [h.getElem?_offsets last]
    rfl
  · rw [h.getElem?_offsets_none (by omega), Option.getD_none, h.dataEnd,
      show k + 1 = recs.length by omega]

theorem recordRange_error (h : Reads d l recs) {k : Nat} (hk : recs.length ≤ k)
    : ∃ e, l.recordRange k = .error e := by
  rw [IdentityLog.recordRange, h.getElem?_offsets_none hk]
  exact ⟨_, rfl⟩

/-- Record `k`'s bytes are in the data file from its offset. -/
theorem extract_eq (h : Reads d l recs) {k : Nat} {r : ByteArray} (hk : recs[k]? = some r)
    : (l.data.bytes d).extract (offsetOf recs k) (offsetOf recs k + r.size) = r := by
  apply Bytes.ext_getElem?
  intro j
  rw [Bytes.getElem?_extract]
  split
  · exact h.bytes hk j (by omega)
  · rw [getElem?_neg r j (by omega)]

theorem end_le (h : Reads d l recs) {k : Nat} {r : ByteArray} (hk : recs[k]? = some r)
    : offsetOf recs k + r.size ≤ l.header.dataEnd := by
  have lt := (List.getElem?_eq_some_iff.mp hk).1
  rw [← offsetOf_succ hk, h.dataEnd]
  exact offsetOf_mono recs (by omega)

/-- Reading record `k` answers its bytes. -/
theorem read_eq (h : Reads d l recs) {k : Nat} {r : ByteArray} (hk : recs[k]? = some r)
    : l.read d k = .ok r := by
  have fits : offsetOf recs k + r.size ≤ (l.data.bytes d).size :=
    Nat.le_trans (h.end_le hk) h.within
  simp only [IdentityLog.read, h.recordRange_eq hk, bind, Except.bind, Nat.add_sub_cancel_left,
    Region.read_of_valid h.data fits, h.extract_eq hk, Except.mapError]

/-- The log's record listing is the records with their indices. -/
theorem records_eq (h : Reads d l recs) : l.records d = recs.zipIdx.map fun (r, k) => (k, r) := by
  apply List.ext_getElem?
  intro k
  simp only [IdentityLog.records, List.getElem?_map, List.getElem?_zipIdx, h.size_eq]
  by_cases hk : k < recs.length
  · obtain ⟨r, hr⟩ : ∃ r, recs[k]? = some r := ⟨_, List.getElem?_eq_getElem hk⟩
    simp [List.getElem?_range hk, hr, h.read_eq hr]
  · simp [hk]

end Reads

namespace Reads

variable {d d' : Disk} {l l' : IdentityLog} {recs : List ByteArray}

/-- A log reads the same records on another file system where its data file holds the same
bytes, under the same offsets, data end and deleted count. -/
theorem transfer (h : Reads d l recs) (data : l'.data.Valid d')
    (bytes : l'.data.bytes d' = l.data.bytes d) (offsets : l'.offsets = l.offsets)
    (dataEnd : l'.header.dataEnd = l.header.dataEnd) (tombstones : l'.tombstones = l.tombstones)
    : Reads d' l' recs where
  offsets := offsets ▸ h.offsets
  dataEnd := dataEnd ▸ h.dataEnd
  nonempty := h.nonempty
  data := data
  within := by rw [dataEnd, bytes]; exact h.within
  bytes := by rw [bytes]; exact h.bytes
  tombstones := tombstones ▸ h.tombstones

end Reads

namespace Persisted

variable {d d' : Disk} {l l' : IdentityLog}

/-- The index is read the same on another file system where it holds the same bytes. -/
theorem transfer (h : Persisted d l) (index : l'.index.Valid d')
    (distinct : l'.index.inode ≠ l'.data.inode) (bytes : l'.index.bytes d' = l.index.bytes d)
    (header : l'.header = l.header) (offsets : l'.offsets = l.offsets) : Persisted d' l' where
  index := index
  distinct := distinct
  header := by rw [bytes, header]; exact h.header
  count := by rw [header, offsets]; exact h.count
  slots := by rw [bytes, offsets]; exact h.slots

/-- Writing a new header over the old one, with the same record count, keeps the index read
back as the log holds it. -/
theorem rewriteHeader (h : Persisted d l) {h' : Header} (fits : h'.Fits)
    (index : l'.index.Valid d') (distinct : l'.index.inode ≠ l'.data.inode)
    (head : Patched (l.index.bytes d) (l'.index.bytes d') 0 h'.encode) (header : l'.header = h')
    (offsets : l'.offsets = l.offsets) (count : h'.recordCount = l.header.recordCount)
    : Persisted d' l' where
  index := index
  distinct := distinct
  header := by
    have whole := head.extract_patch
    rw [Header.size_encode, Nat.zero_add] at whole
    rw [whole, header, Header.decode_encode fits]
  count := by rw [header, offsets, count, h.count]
  slots := by
    rw [offsets]
    exact h.slots.patchHeader head (Nat.le_of_eq (Header.size_encode h'))

end Persisted

-----------------------------------------------------------------------------------------
-- Writing through the log's files
-----------------------------------------------------------------------------------------

section Writes

variable {d : Disk} {l : IdentityLog} {bytes : ByteArray}

/-- Writing through the data file of an open log patches that file and nothing else. -/
theorem writeData_ok (v : l.data.Valid d) (pos : Nat) (nonempty : 0 < bytes.size)
    : ∃ r d', writeData pos bytes ⟨d, l⟩ = .ok () ⟨d', { l with data := r }⟩ ∧
        Region.Wrote l.data d pos bytes r d' := by
  obtain ⟨r, d', hw, w⟩ := Region.write_of_valid v pos nonempty
  refine ⟨r, d', ?_, w⟩
  simp only [writeData, liftIo, hw, bind, EStateM.bind, get, getThe, MonadStateOf.get,
    EStateM.get, set, EStateM.set, pure, EStateM.pure]

/-- Writing through the index file of an open log patches that file and nothing else. -/
theorem writeIndex_ok (v : l.index.Valid d) (pos : Nat) (nonempty : 0 < bytes.size)
    : ∃ r d', writeIndex pos bytes ⟨d, l⟩ = .ok () ⟨d', { l with index := r }⟩ ∧
        Region.Wrote l.index d pos bytes r d' := by
  obtain ⟨r, d', hw, w⟩ := Region.write_of_valid v pos nonempty
  refine ⟨r, d', ?_, w⟩
  simp only [writeIndex, liftIo, hw, bind, EStateM.bind, get, getThe, MonadStateOf.get,
    EStateM.get, set, EStateM.set, pure, EStateM.pure]

end Writes

@[simp] theorem Header.appended_recordCount (h : Header) (bytes : ByteArray)
    : (h.appended bytes).recordCount = h.recordCount + 1 := rfl

@[simp] theorem Header.appended_dataEnd (h : Header) (bytes : ByteArray)
    : (h.appended bytes).dataEnd = h.dataEnd + bytes.size := rfl

@[simp] theorem Header.appended_version (h : Header) (bytes : ByteArray)
    : (h.appended bytes).version = h.version := rfl

/-- An append passes its check exactly when the record is not empty and keeps the data end
inside the word range. -/
theorem IdentityLog.checkAppend_eq_ok_iff {l : IdentityLog} {bytes : ByteArray}
    : l.checkAppend bytes = .ok () ↔
        0 < bytes.size ∧ l.header.dataEnd + bytes.size < Table.wordLimit := by
  by_cases empty : bytes.size = 0
  · simp [IdentityLog.checkAppend, empty]
  · by_cases overflow : l.header.dataEnd + bytes.size ≥ Table.wordLimit
    · simp only [IdentityLog.checkAppend, empty, overflow, if_true, if_false]
      simp only [reduceCtorEq, false_iff, not_and, Nat.not_lt]
      exact fun _ => overflow
    · simp only [IdentityLog.checkAppend, empty, overflow, if_false, true_iff]
      omega

/-- An append that its check refuses fails with the check's error, changing nothing. -/
theorem append_of_refused {s : LogState} {bytes : ByteArray} {e : StoreError}
    (refused : s.log.checkAppend bytes = .error e) : append bytes s = .error e s := by
  simp only [append, bind, EStateM.bind, get, getThe, MonadStateOf.get, EStateM.get,
    liftExcept, refused, throw, throwThe, MonadExceptOf.throw, EStateM.throw]

/-- An append that passes its check makes its writes, then takes the record into the log:
the appended header, the record's offset at the old data end, and its deletion counted. -/
theorem append_of_runWrites {s s' : LogState} {bytes : ByteArray}
    (checked : s.log.checkAppend bytes = .ok ())
    (wrote : runWrites (s.log.appendWrites bytes) s = .ok () s')
    : append bytes s = .ok s.log.size ⟨s'.disk, { s'.log with
        header := s.log.header.appended bytes, offsets := s'.log.offsets.push s.log.header.dataEnd,
        tombstones := s'.log.tombstones + if Record.isTombstoned bytes then 1 else 0 }⟩ := by
  simp only [append, bind, EStateM.bind, get, getThe, MonadStateOf.get, EStateM.get,
    liftExcept, checked, pure, EStateM.pure, wrote, modify, modifyGet, MonadStateOf.modifyGet,
    EStateM.modifyGet, sync]

-----------------------------------------------------------------------------------------
-- Appending
-----------------------------------------------------------------------------------------

/-- The records with one more at the end lie where they lay, the new one from the old end. -/
theorem offsetOf_concat (recs : List ByteArray) (bytes : ByteArray) {k : Nat}
    (hk : k ≤ recs.length) : offsetOf (recs ++ [bytes]) k = offsetOf recs k :=
  offsetOf_append_left hk

theorem offsetOf_concat_end (recs : List ByteArray) (bytes : ByteArray)
    : offsetOf (recs ++ [bytes]) (recs.length + 1) = offsetOf recs recs.length + bytes.size := by
  rw [@offsetOf_succ (recs ++ [bytes]) recs.length bytes (by simp),
    offsetOf_concat recs bytes (Nat.le_refl _)]

namespace Reads

variable {d d' : Disk} {l l' : IdentityLog} {recs : List ByteArray} {bytes : ByteArray}

/-- A log that took `bytes` at its data end, with the offset, data end and deleted count
advanced to match, reads one record more. -/
theorem append (h : Reads d l recs) (nonempty : 0 < bytes.size) (valid : l'.data.Valid d')
    (patched : Patched (l.data.bytes d) (l'.data.bytes d') l.header.dataEnd bytes)
    (offsets : l'.offsets = l.offsets.push l.header.dataEnd)
    (dataEnd : l'.header.dataEnd = l.header.dataEnd + bytes.size)
    (tombstones : l'.tombstones = l.tombstones + if Record.isTombstoned bytes then 1 else 0)
    : Reads d' l' (recs ++ [bytes]) where
  offsets := by
    rw [offsets, Array.toList_push, h.offsets, List.length_append, List.length_singleton,
      List.range_succ, List.map_append, h.dataEnd]
    simp only [List.map_singleton, ← offsetOf_concat recs bytes (Nat.le_refl _)]
    congr 1
    exact List.map_congr_left fun k hk =>
      (offsetOf_concat recs bytes (Nat.le_of_lt (List.mem_range.mp hk))).symm
  dataEnd := by
    rw [dataEnd, List.length_append, List.length_singleton, offsetOf_concat_end, h.dataEnd]
  nonempty := by
    intro r hr
    rcases List.mem_append.mp hr with old | new
    · exact h.nonempty r old
    · rw [List.mem_singleton.mp new]
      exact nonempty
  data := valid
  within := by
    rw [dataEnd]
    exact patched.covers
  bytes := by
    intro k r hk j hj
    rw [List.getElem?_append] at hk
    split at hk
    · rename_i old
      rw [offsetOf_concat recs bytes (Nat.le_of_lt old)]
      have inside : offsetOf recs k + j < offsetOf recs k + r.size := by omega
      have before := h.end_le hk
      rw [patched.outside _ (by have := h.within; omega) (Or.inl (by omega))]
      exact h.bytes hk j hj
    · rename_i past
      have last : k = recs.length := by
        have := (List.getElem?_eq_some_iff.mp hk).1
        simp at this
        omega
      subst last
      simp only [Nat.sub_self, List.getElem?_singleton, if_true, Option.some.injEq] at hk
      subst hk
      rw [offsetOf_concat recs bytes (Nat.le_refl _), ← h.dataEnd,
        patched.inside _ (by omega) (by omega), Nat.add_sub_cancel_left]
  tombstones := by
    rw [tombstones, h.tombstones, List.filter_append, List.length_append]
    by_cases deleted : Record.isTombstoned bytes <;> simp [deleted]

end Reads

namespace Persisted

variable {d d' : Disk} {l l' : IdentityLog}

/-- After the next offset and then a new header are written to the index, the log with that
offset pushed and that header is persisted. -/
theorem append (h : Persisted d l) {mid : ByteArray} {v : Nat} (hv : v < 2 ^ 64) {h' : Header}
    (fits : h'.Fits) (valid : l'.index.Valid d') (distinct : l'.index.inode ≠ l'.data.inode)
    (slot : Patched (l.index.bytes d) mid (IdentityLog.offsetSlot l.offsets.size)
      (Bytes.encodeLE 8 v))
    (head : Patched mid (l'.index.bytes d') 0 h'.encode)
    (header : l'.header = h') (offsets : l'.offsets = l.offsets.push v)
    (count : h'.recordCount = l.header.recordCount + 1) : Persisted d' l' where
  index := valid
  distinct := distinct
  header := by
    have whole := head.extract_patch
    rw [Header.size_encode, Nat.zero_add] at whole
    rw [whole, header, Header.decode_encode fits]
  count := by rw [header, offsets, count, h.count, Array.size_push]
  slots := by
    rw [offsets]
    exact (h.slots.push hv slot).patchHeader head (Nat.le_of_eq (Header.size_encode h'))

end Persisted

/-- `d'` differs from `d` at most in the bytes of the two files behind `l`: the same names and
the same inodes, every other inode unchanged. -/
structure Confined (l : IdentityLog) (d d' : Disk) : Prop where
  nodes : d'.nodes = d.nodes
  size : d'.contents.size = d.contents.size
  others : ∀ j, l.data.inode ≠ some j → l.index.inode ≠ some j → d'.bytesOf j = d.bytesOf j

/-- `l'` is `l` on the same two files. -/
structure SameFiles (l l' : IdentityLog) : Prop where
  dir : l'.dir = l.dir
  options : l'.options = l.options
  data : l'.data.inode = l.data.inode
  index : l'.index.inode = l.index.inode

/-- Appending a record to a log that reads `recs` and is persisted succeeds with the next
index, and leaves a persisted log that reads one record more under the advanced header, on the
same two files, with no other file touched. -/
theorem append_spec {d : Disk} {l : IdentityLog} {recs : List ByteArray} {bytes : ByteArray}
    (hr : Reads d l recs) (hp : Persisted d l) (nonempty : 0 < bytes.size)
    (fits : l.header.dataEnd + bytes.size < Table.wordLimit)
    : ∃ d' l', append bytes ⟨d, l⟩ = .ok recs.length ⟨d', l'⟩ ∧ Reads d' l' (recs ++ [bytes]) ∧
        Persisted d' l' ∧ l'.header = l.header.appended bytes ∧ SameFiles l l' ∧
        Confined l d d' := by
  obtain ⟨r1, d1, hw1, w1⟩ := writeData_ok hr.data l.header.dataEnd nonempty
  have index1 := w1.keeps hp.index hp.distinct
  obtain ⟨r2, d2, hw2, w2⟩ := @writeIndex_ok d1 { l with data := r1 } (Bytes.encodeLE 8 l.header.dataEnd) index1.1
    (IdentityLog.offsetSlot l.size) (by rw [Bytes.size_encodeLE]; decide)
  obtain ⟨r3, d3, hw3, w3⟩ := @writeIndex_ok d2 { l with data := r1, index := r2 }
    (l.header.appended bytes).encode w2.valid 0
    (by rw [Header.size_encode (l.header.appended bytes)]; decide)
  have wrote : runWrites (l.appendWrites bytes) ⟨d, l⟩ =
      .ok () ⟨d3, { l with data := r1, index := r3 }⟩ := by
    simp only [IdentityLog.appendWrites, runWrites, LogWrite.run, bind, EStateM.bind, hw1, hw2,
      hw3, pure, EStateM.pure]
  have run : append bytes ⟨d, l⟩ = .ok recs.length
      ⟨d3, { l with data := r1, index := r3, header := l.header.appended bytes,
                    offsets := l.offsets.push l.header.dataEnd,
                    tombstones := l.tombstones + if Record.isTombstoned bytes then 1 else 0 }⟩ := by
    rw [← hr.size_eq]
    exact append_of_runWrites (IdentityLog.checkAppend_eq_ok_iff.mpr ⟨nonempty, fits⟩) wrote
  have index2 : r2.inode = l.index.inode := w2.inode
  have index3 : r3.inode = l.index.inode := w3.inode.trans index2
  have apart : r1.inode ≠ l.index.inode := by rw [w1.inode]; exact hp.distinct.symm
  have data2 := w2.keeps w1.valid apart
  have data3 := w3.keeps data2.1 (by rw [index2]; exact apart)
  have header : (l.header.appended bytes).Fits := by
    have below : 1 * recs.length ≤ offsetOf recs recs.length :=
      mul_le_offsetOf hr.nonempty (Nat.le_refl recs.length)
    have count : l.header.recordCount = recs.length := by
      rw [hp.count, ← IdentityLog.size, hr.size_eq]
    have fitsBefore := Header.fits_of_decode hp.header
    refine ⟨fitsBefore.version, ?_, ?_⟩
    · simp only [Header.appended_recordCount, count, ← hr.dataEnd] at below ⊢
      simp only [Table.wordLimit] at fits
      omega
    · simpa [Table.wordLimit] using fits
  refine ⟨d3, _, run, ?_, ?_, rfl, ⟨rfl, rfl, w1.inode, index3⟩, ?_⟩
  · refine hr.append nonempty data3.1 ?_ rfl rfl rfl
    rw [data3.2, data2.2]
    exact w1.patched
  · refine hp.append (by simp only [Table.wordLimit] at fits; omega) header w3.valid
      (by rw [index3, w1.inode]; exact hp.distinct) ?_ w3.patched rfl rfl rfl
    rw [← index1.2]
    exact w2.patched
  · refine ⟨by rw [w3.nodes, w2.nodes, w1.nodes], by rw [w3.size, w2.size, w1.size],
      fun j notData notIndex => ?_⟩
    rw [w3.others j (by rw [index2]; exact notIndex), w2.others j notIndex,
      w1.others j notData]

-----------------------------------------------------------------------------------------
-- Deleting in place
-----------------------------------------------------------------------------------------

theorem offsetOf_congr {recs recs' : List ByteArray}
    (sizes : recs.map ByteArray.size = recs'.map ByteArray.size) : offsetOf recs = offsetOf recs' := by
  funext k
  rw [offsetOf, offsetOf, List.map_take, List.map_take, sizes]

theorem map_size_set {recs : List ByteArray} {k : Nat} {r r' : ByteArray} (hk : recs[k]? = some r)
    (same : r'.size = r.size) : (recs.set k r').map ByteArray.size = recs.map ByteArray.size := by
  apply List.ext_getElem?
  intro i
  rw [List.getElem?_map, List.getElem?_set, List.getElem?_map]
  by_cases here : k = i
  · subst here
    obtain ⟨lt, at_k⟩ := List.getElem?_eq_some_iff.mp hk
    simp [same, lt, at_k]
  · rw [if_neg here]

/-- A record stays in place when another one is set to bytes of the same length. -/
theorem offsetOf_set {recs : List ByteArray} {k : Nat} {r r' : ByteArray} (hk : recs[k]? = some r)
    (same : r'.size = r.size) : offsetOf (recs.set k r') = offsetOf recs :=
  offsetOf_congr (map_size_set hk same)

/-- Records lie apart: a byte of record `k'` is before record `k` or past its end. -/
theorem offsetOf_apart {recs : List ByteArray} {k k' : Nat} {r r' : ByteArray} (hk : recs[k]? = some r) (hk' : recs[k']? = some r')
    (ne : k' ≠ k) {j : Nat} (hj : j < r'.size)
    : offsetOf recs k' + j < offsetOf recs k ∨ offsetOf recs k + r.size ≤ offsetOf recs k' + j := by
  rcases Nat.lt_or_gt_of_ne ne with before | after
  · left
    have := offsetOf_mono recs (Nat.succ_le_of_lt before)
    rw [offsetOf_succ hk'] at this
    omega
  · right
    have := offsetOf_mono recs (Nat.succ_le_of_lt after)
    rw [offsetOf_succ hk] at this
    omega

namespace Reads

variable {d d' : Disk} {l l' : IdentityLog} {recs : List ByteArray} {k : Nat} {r : ByteArray}

/-- A log whose live record `k` had its flag byte cleared, and one more deleted record
counted, reads that record deleted. -/
theorem clearFlag (h : Reads d l recs) (hk : recs[k]? = some r)
    (live : Record.isTombstoned r = false) (valid : l'.data.Valid d')
    (patched : Patched (l.data.bytes d) (l'.data.bytes d') (offsetOf recs k)
      ⟨#[Record.flagDeleted]⟩)
    (offsets : l'.offsets = l.offsets) (dataEnd : l'.header.dataEnd = l.header.dataEnd)
    (tombstones : l'.tombstones = l.tombstones + 1)
    : Reads d' l' (recs.set k (Bytes.overwrite r 0 ⟨#[Record.flagDeleted]⟩)) := by
  have nonempty : 0 < r.size := h.nonempty r (List.mem_of_getElem? hk)
  have same := Bytes.size_overwrite_head nonempty Record.flagDeleted
  have lt : k < recs.length := (List.getElem?_eq_some_iff.mp hk).1
  refine ⟨?_, ?_, ?_, valid, ?_, ?_, ?_⟩
  · rw [offsetOf_set hk same, List.length_set, offsets, h.offsets]
  · rw [offsetOf_set hk same, List.length_set, dataEnd, h.dataEnd]
  · intro x hx
    rcases List.mem_or_eq_of_mem_set hx with old | new
    · exact h.nonempty x old
    · rw [new, same]
      exact nonempty
  · rw [dataEnd]
    exact Nat.le_trans h.within patched.keepsSize
  · intro k' x hx j hj
    rw [offsetOf_set hk same]
    rw [List.getElem?_set] at hx
    by_cases here : k = k'
    · subst here
      simp only [lt, if_true, Option.some.injEq] at hx
      subst hx
      rw [Bytes.getElem?_overwrite_head nonempty]
      by_cases first : j = 0
      · subst first
        rw [Nat.add_zero, patched.inside _ (Nat.le_refl _) (by simp), Nat.sub_self, if_pos rfl]
        rfl
      · rw [if_neg first, patched.outside _ (by have := h.end_le hk; have := h.within; omega)
          (Or.inr (by simp; omega))]
        exact h.bytes hk j (by omega)
    · rw [if_neg here] at hx
      have away := offsetOf_apart hk hx (Ne.symm here) hj
      rw [patched.outside _ (by have := h.end_le hx; have := h.within; omega)
        (by simp; omega)]
      exact h.bytes hx j hj
  · have deleted : Record.isTombstoned (Bytes.overwrite r 0 ⟨#[Record.flagDeleted]⟩) = true := by
      simp [Record.isTombstoned, Bytes.getElem?_overwrite_head nonempty, Record.flagDeleted,
        Record.flagLive]
    obtain ⟨_, at_k⟩ := List.getElem?_eq_some_iff.mp hk
    rw [tombstones, h.tombstones, ← List.countP_eq_length_filter, ← List.countP_eq_length_filter,
      List.countP_set lt, at_k, live, deleted]
    simp

end Reads

section Tombstone

variable {d : Disk} {l : IdentityLog} {recs : List ByteArray} {k : Nat} {r : ByteArray}

/-- The first byte of record `k` reads as the record's flag. -/
theorem Reads.readFlag (h : Reads d l recs) (hk : recs[k]? = some r)
    : ∃ flag : ByteArray, l.data.read d (offsetOf recs k) 1 = .ok flag ∧ flag[0]? = r[0]? := by
  have nonempty : 0 < r.size := h.nonempty r (List.mem_of_getElem? hk)
  have fits : offsetOf recs k + 1 ≤ (l.data.bytes d).size := by
    have := h.end_le hk
    have := h.within
    omega
  refine ⟨_, Region.read_of_valid h.data fits, ?_⟩
  rw [Bytes.getElem?_extract, if_pos (by omega), Nat.add_zero]
  exact h.bytes hk 0 nonempty

/-- Deleting a record that already reads as deleted changes nothing. -/
theorem tombstone_deleted (h : Reads d l recs) (hk : recs[k]? = some r)
    (deleted : Record.isTombstoned r = true) : tombstone k ⟨d, l⟩ = .ok false ⟨d, l⟩ := by
  obtain ⟨flag, hread, hflag⟩ := h.readFlag hk
  simp only [tombstone, bind, EStateM.bind, get, getThe, MonadStateOf.get, EStateM.get,
    liftExcept, h.recordRange_eq hk, pure, EStateM.pure, Nat.add_sub_cancel_left, liftIo, hread]
  by_cases short : r.size < Record.headerSize
  · rw [if_pos short]
    rfl
  · have flagged : (r[0]?.getD 0 != Record.flagLive) = true := by
      simpa [Record.isTombstoned, short] using deleted
    rw [if_neg short]
    simp only [EStateM.bind, EStateM.pure, hflag, flagged, if_true]

/-- Deleting a live record writes one byte in place: the data file, on the inode the log reaches
it through, gets the deleted flag at the record's offset; the log keeps its files and offsets
and counts one more deleted record. -/
theorem tombstone_exact (h : Reads d l recs) (hk : recs[k]? = some r)
    (live : Record.isTombstoned r = false) {i : Nat} (hi : l.data.inode = some i)
    : tombstone k ⟨d, l⟩ = .ok true
        ⟨d.modifyBytes i (Bytes.overwrite · (offsetOf recs k) ⟨#[Record.flagDeleted]⟩),
         { l with tombstones := l.tombstones + 1 }⟩ := by
  obtain ⟨flag, hread, hflag⟩ := h.readFlag hk
  have long : ¬ r.size < Record.headerSize := by
    simp only [Record.isTombstoned, Bool.or_eq_false_iff, decide_eq_false_iff_not] at live
    exact live.1
  have unflagged : (r[0]?.getD 0 != Record.flagLive) = false := by
    simp only [Record.isTombstoned, Bool.or_eq_false_iff] at live
    exact live.2
  -- the flag byte lies inside the record, so inside the file: the region is not grown
  have inside : offsetOf recs k + 1 ≤ (l.data.bytes d).size := by
    have := h.end_le hk
    have := h.within
    have := h.nonempty r (List.mem_of_getElem? hk)
    omega
  have hw := Region.write_inside h.data hi (by decide : 0 < (⟨#[Record.flagDeleted]⟩ : ByteArray).size)
    inside
  simp only [tombstone, bind, EStateM.bind, get, getThe, MonadStateOf.get, EStateM.get,
    liftExcept, h.recordRange_eq hk, pure, EStateM.pure, Nat.add_sub_cancel_left, liftIo, hread,
    if_neg long, hflag, unflagged, Bool.false_eq_true, if_false, writeData, hw, set, EStateM.set,
    modify, modifyGet, MonadStateOf.modifyGet, EStateM.modifyGet, sync]

/-- Deleting a live record clears its flag byte in the data file, counts one more deleted
record, and keeps the index. -/
theorem tombstone_live (h : Reads d l recs) (hp : Persisted d l) (hk : recs[k]? = some r)
    (live : Record.isTombstoned r = false)
    : ∃ d' l', tombstone k ⟨d, l⟩ = .ok true ⟨d', l'⟩ ∧
        Reads d' l' (recs.set k (Bytes.overwrite r 0 ⟨#[Record.flagDeleted]⟩)) ∧
        Persisted d' l' ∧ l'.header = l.header ∧ l'.offsets = l.offsets ∧ SameFiles l l' ∧
        Confined l d d' := by
  obtain ⟨r1, d1, hw, w⟩ := Region.write_of_valid h.data (offsetOf recs k)
    (by decide : 0 < (⟨#[Record.flagDeleted]⟩ : ByteArray).size)
  obtain ⟨i, hi⟩ := Option.isSome_iff_exists.mp (Region.isSome_inode h.data)
  have inside : offsetOf recs k + (⟨#[Record.flagDeleted]⟩ : ByteArray).size ≤
      (l.data.bytes d).size := by
    have := h.end_le hk
    have := h.within
    have := h.nonempty r (List.mem_of_getElem? hk)
    simp only [Bytes.size_mk, List.size_toArray, List.length_singleton]
    omega
  rw [Region.write_inside h.data hi (by decide) inside, Except.ok.injEq, Prod.mk.injEq] at hw
  obtain ⟨rfl, rfl⟩ := hw
  have index1 := w.keeps hp.index hp.distinct
  refine ⟨_, _, tombstone_exact h hk live hi, h.clearFlag hk live w.valid w.patched rfl rfl rfl,
    hp.transfer index1.1 hp.distinct index1.2 rfl rfl, rfl, rfl,
    ⟨rfl, rfl, rfl, rfl⟩, ⟨w.nodes, w.size, fun j notData _ => w.others j notData⟩⟩

end Tombstone

-----------------------------------------------------------------------------------------
-- Reading and raising the id mark
-----------------------------------------------------------------------------------------

section Mark

variable {d : Disk} {l : IdentityLog} {recs : List ByteArray}

theorem readAt_eq (h : Reads d l recs) {k : Nat} {r : ByteArray} (hk : recs[k]? = some r)
    : readAt k ⟨d, l⟩ = .ok r ⟨d, l⟩ := by
  simp only [readAt, bind, EStateM.bind, get, getThe, MonadStateOf.get, EStateM.get, liftExcept,
    h.read_eq hk, pure, EStateM.pure]

/-- Raising the id mark to `floor` leaves the larger of the two, writes the header when it
changed, and keeps the records and the persisted index. -/
theorem raiseNextId_spec (h : Reads d l recs) (hp : Persisted d l) (floor : Int64)
    : ∃ d' l', raiseNextId floor ⟨d, l⟩ = .ok () ⟨d', l'⟩ ∧ Reads d' l' recs ∧ Persisted d' l' ∧
        l'.header = { l.header with
                      nextId := if floor > l.header.nextId then floor else l.header.nextId } ∧
        l'.offsets = l.offsets ∧ l'.tombstones = l.tombstones ∧ SameFiles l l' ∧
        Confined l d d' := by
  by_cases up : floor > l.header.nextId
  · obtain ⟨r, d', hw, w⟩ := @writeIndex_ok d { l with header := { l.header with nextId := floor } }
      ({ l.header with nextId := floor } : Header).encode hp.index 0
      (by rw [Header.size_encode]; decide)
    have run : raiseNextId floor ⟨d, l⟩ =
        .ok () ⟨d', { l with header := { l.header with nextId := floor }, index := r }⟩ := by
      simp only [raiseNextId, writeHeader, bind, EStateM.bind, get, getThe, MonadStateOf.get,
        EStateM.get, if_pos up, set, EStateM.set, hw, sync, pure, EStateM.pure]
    have data1 := w.keeps h.data (Ne.symm hp.distinct)
    have fits := Header.fits_of_decode hp.header
    have raised : ({ l.header with nextId := floor } : Header).Fits :=
      ⟨fits.version, fits.recordCount, fits.dataEnd⟩
    refine ⟨d', _, run, h.transfer data1.1 data1.2 rfl rfl rfl,
      hp.rewriteHeader raised w.valid
        (by rw [w.inode]; exact hp.distinct) w.patched rfl rfl rfl,
      by simp [up], rfl, rfl, ⟨rfl, rfl, rfl, w.inode⟩,
      ⟨w.nodes, w.size, fun j _ notIndex => w.others j notIndex⟩⟩
  · refine ⟨d, l, ?_, h, hp, by simp [up], rfl, rfl, ⟨rfl, rfl, rfl, rfl⟩,
      ⟨rfl, rfl, fun _ _ _ => rfl⟩⟩
    simp only [raiseNextId, bind, EStateM.bind, get, getThe, MonadStateOf.get, EStateM.get,
      if_neg up, pure, EStateM.pure]

end Mark

end MetricRegistry.Log
