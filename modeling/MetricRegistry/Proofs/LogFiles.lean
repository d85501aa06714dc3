import MetricRegistry.Proofs.LogImage

/-! Where a log lives (`Placed`, `Stored`), how a new log is made on two new inodes, and how opening
a stored log's directory finds the same records under the same header. -/

namespace MetricRegistry.Log

open Disk

-----------------------------------------------------------------------------------------
-- Placed and stored logs
-----------------------------------------------------------------------------------------

theorem plain_indexFile : PlainName indexFile := ⟨by decide, by decide, by decide⟩

theorem plain_dataFile : PlainName dataFile := ⟨by decide, by decide, by decide⟩

/-- The directory of `l` is there on `d`, and its index and data files are named in it. -/
structure Placed (d : Disk) (l : IdentityLog) : Prop where
  chain : Disk.DirChain d (components l.dir)
  index : ∃ i, l.index.inode = some i ∧
    d.node? (components l.dir ++ [indexFile]) = some (.file i)
  data : ∃ i, l.data.inode = some i ∧ d.node? (components l.dir ++ [dataFile]) = some (.file i)

/-- The log `l` sits in its directory on `d`, persisted, and reads `recs`. -/
structure Stored (d : Disk) (l : IdentityLog) (recs : List ByteArray) : Prop where
  reads : Reads d l recs
  persisted : Persisted d l
  placed : Placed d l

theorem DirChain.keep {d d' : Disk} {P : List String} (chain : Disk.DirChain d P)
    (same : ∀ q ∈ Disk.prefixes P, d'.node? q = d.node? q) : Disk.DirChain d' P :=
  fun q hq => (same q hq).trans (chain q hq)

/-- A log stays placed when it keeps its files and no name changes. -/
theorem Placed.transfer {d d' : Disk} {l l' : IdentityLog} (h : Placed d l)
    (same : SameFiles l l') (nodes : d'.nodes = d.nodes) : Placed d' l' where
  chain := same.dir ▸ DirChain.keep h.chain fun q _ => Disk.node?_congr nodes q
  index := by
    obtain ⟨i, inode, named⟩ := h.index
    exact ⟨i, same.index ▸ inode, by rw [same.dir, Disk.node?_congr nodes]; exact named⟩
  data := by
    obtain ⟨i, inode, named⟩ := h.data
    exact ⟨i, same.data ▸ inode, by rw [same.dir, Disk.node?_congr nodes]; exact named⟩

/-- A file named in a directory is no prefix of the directory. -/
theorem child_not_mem_prefixes (P : List String) (name : String)
    : P ++ [name] ∉ Disk.prefixes P := fun mem => by
  have := Disk.length_le_of_mem_prefixes mem
  simp only [List.length_append, List.length_singleton] at this
  omega

theorem child_ne_child {P : List String} {a b : String} (ne : a ≠ b) : P ++ [a] ≠ P ++ [b] :=
  fun same => ne (List.singleton_inj.mp (List.append_cancel_left same))

theorem indexFile_ne_dataFile : indexFile ≠ dataFile := by decide

-----------------------------------------------------------------------------------------
-- Making a log
-----------------------------------------------------------------------------------------

/-- Making a log in a directory whose path holds no file, where neither of its files is named
yet, gives an empty stored log under the fresh header on two new inodes, and leaves every other
inode and name as it was. -/
theorem create_spec {d : Disk} {dir : String} (options : Options)
    (noFile : ∀ q ∈ Disk.prefixes (components dir), ∀ i, d.node? q ≠ some (.file i))
    (noIndex : d.node? (components dir ++ [indexFile]) = none)
    (noData : d.node? (components dir ++ [dataFile]) = none)
    : ∃ l d', IdentityLog.create dir options d = .ok l d' ∧ Stored d' l [] ∧
        l.header = .fresh ∧ l.dir = dir ∧ l.options = options ∧
        d.contents.size ≤ d'.contents.size ∧
        (∀ j, j < d.contents.size → d'.bytesOf j = d.bytesOf j) ∧
        (∀ i, l.index.inode = some i ∨ l.data.inode = some i → d.contents.size ≤ i) ∧
        (∀ q, q ∉ Disk.prefixes (components dir) → q ≠ components dir ++ [indexFile] →
          q ≠ components dir ++ [dataFile] → d'.node? q = d.node? q) := by
  obtain ⟨d1, made, chain1, contents1, others1⟩ := Disk.createDirAll_ok noFile
  have absentIndex : d1.node? (components dir ++ [indexFile]) = none := by
    rw [others1 _ (child_not_mem_prefixes _ _), noIndex]
  obtain ⟨ri, d2, openIndex, validI, inodeI, size2, nodes2, bytes2⟩ :=
    @Region.openAt_new d1 (components dir) (join dir indexFile) indexFile options.access true
      indexReserve chain1 (components_join dir plain_indexFile) absentIndex
  have chain2 : Disk.DirChain d2 (components dir) := DirChain.keep chain1 fun q hq => by
    rw [nodes2 q (Disk.ne_nil_of_mem_prefixes hq),
      if_neg (fun eq => child_not_mem_prefixes _ _ (eq ▸ hq))]
  have absentData : d2.node? (components dir ++ [dataFile]) = none := by
    rw [nodes2 _ (by simp), if_neg (child_ne_child (Ne.symm indexFile_ne_dataFile)),
      others1 _ (child_not_mem_prefixes _ _), noData]
  obtain ⟨rd, d3, openData, validD, inodeD, size3, nodes3, bytes3⟩ :=
    @Region.openAt_new d2 (components dir) (join dir dataFile) dataFile options.access true
      dataReserve chain2 (components_join dir plain_dataFile) absentData
  have index3 : ri.Valid d3 := Region.valid_of_same validI (by omega) fun i hi => by
    rw [inodeI] at hi
    cases hi
    exact bytes3 _ (by omega)
  obtain ⟨r4, d4, wrote, w⟩ := @writeIndex_ok d3
    { dir, options, data := rd, index := ri, header := .fresh, offsets := #[], tombstones := 0 }
    Header.fresh.encode index3 0 (by rw [Header.size_encode]; decide)
  have run : IdentityLog.create dir options d =
      .ok { dir, options, data := rd, index := r4, header := .fresh, offsets := #[],
            tombstones := 0 } d4 := by
    simp only [IdentityLog.create, bind, EStateM.bind, get, getThe, MonadStateOf.get,
      EStateM.get, liftIo, made, openIndex, openData, set, EStateM.set, onLog, writeHeader, wrote,
      sync, pure, EStateM.pure]
  have index4 : r4.inode = some d1.contents.size := w.inode.trans inodeI
  have apart : rd.inode ≠ ri.inode := by rw [inodeD, inodeI, size2]; simp
  have data4 := w.keeps validD apart
  have named : ∀ q, q ≠ [] → d4.node? q =
      if q = components dir ++ [dataFile] then some (.file d2.contents.size)
      else if q = components dir ++ [indexFile] then some (.file d1.contents.size)
      else d1.node? q := fun q hq => by
    rw [Disk.node?_congr w.nodes, nodes3 q hq, nodes2 q hq]
  have fits : Header.fresh.Fits := ⟨Nat.le_refl _, by decide, by decide⟩
  have covers := w.patched.covers
  rw [Header.size_encode] at covers
  refine ⟨_, d4, run, ⟨?_, ?_, ?_⟩, rfl, rfl, rfl, ?_, fun j hj => ?_, fun i hi => ?_,
    fun q notPrefix notIndex notData => ?_⟩
  · refine ⟨rfl, rfl, by simp, data4.1, Nat.zero_le _, fun hk => by simp at hk, rfl⟩
  · refine ⟨w.valid, by rw [index4, inodeD, size2]; simp, ?_, rfl, ⟨fun hk => by simp at hk, ?_⟩⟩
    · have whole := w.patched.extract_patch
      rw [Header.size_encode, Nat.zero_add] at whole
      rw [whole, Header.decode_encode fits]
    · simpa [IdentityLog.offsetSlot] using covers
  · have chain4 : Disk.DirChain d4 (components dir) := DirChain.keep chain1 fun q hq => by
      have notData : q ≠ components dir ++ [dataFile] := fun eq =>
        child_not_mem_prefixes _ _ (eq ▸ hq)
      have notIndex : q ≠ components dir ++ [indexFile] := fun eq =>
        child_not_mem_prefixes _ _ (eq ▸ hq)
      rw [named q (Disk.ne_nil_of_mem_prefixes hq), if_neg notData, if_neg notIndex]
    refine ⟨chain4, ⟨_, index4, ?_⟩, ⟨_, inodeD, ?_⟩⟩
    · rw [named _ (by simp), if_neg (child_ne_child indexFile_ne_dataFile), if_pos rfl]
    · rw [named _ (by simp), if_pos rfl]
  · have := w.size
    have : d1.contents.size = d.contents.size := by rw [contents1]
    omega
  · have below : j < d1.contents.size := by rw [contents1]; exact hj
    rw [w.others j (by rw [inodeI]; simp only [ne_eq, Option.some.injEq]; omega),
      bytes3 j (by omega), bytes2 j below]
    simp only [Disk.bytesOf, contents1]
  · have sized : d1.contents.size = d.contents.size := by rw [contents1]
    rcases hi with hi | hi
    · have := index4.symm.trans hi
      simp only [Option.some.injEq] at this
      omega
    · have := inodeD.symm.trans hi
      simp only [Option.some.injEq] at this
      omega
  · by_cases root : q = []
    · subst root
      rfl
    · rw [named q root, if_neg notData, if_neg notIndex, others1 q notPrefix]

/-- Opening a directory that holds no log makes an empty one there. -/
theorem openIn_fresh {d : Disk} {dir : String} (options : Options)
    (chain : Disk.DirChain d (components dir))
    (noIndex : d.node? (components dir ++ [indexFile]) = none)
    (noData : d.node? (components dir ++ [dataFile]) = none)
    : IdentityLog.openIn dir options d = IdentityLog.create dir options d := by
  simp only [IdentityLog.openIn, bind, EStateM.bind, get, getThe, MonadStateOf.get, EStateM.get,
    liftIo, Disk.createDirAll_chain chain, set, EStateM.set, pure, EStateM.pure,
    Disk.lengthOrZero_absent chain (components_join dir plain_indexFile) noIndex,
    Disk.lengthOrZero_absent chain (components_join dir plain_dataFile) noData]
  rfl

/-- Opening a log in a directory that the file system holds alone gives an empty stored log
there. -/
theorem openIn_withDir (dir : String) (options : Options)
    : ∃ l d, IdentityLog.openIn dir options (Disk.withDir dir) = .ok l d ∧ Stored d l [] ∧
        l.header = .fresh ∧ l.dir = dir ∧
        ∀ q, q ≠ components dir ++ [indexFile] → q ≠ components dir ++ [dataFile] →
          d.node? q = (Disk.withDir dir).node? q := by
  obtain ⟨chain, -, unnamed⟩ := withDir_spec dir
  have child (name : String) : (Disk.withDir dir).node? (components dir ++ [name]) = none :=
    unnamed _ (by simp) (child_not_mem_prefixes _ name)
  have noFile : ∀ q ∈ Disk.prefixes (components dir), ∀ i,
      (Disk.withDir dir).node? q ≠ some (.file i) := fun q hq i => by
    rw [chain q hq]
    simp
  obtain ⟨l, d, made, stored, header, home, -, -, -, -, others⟩ :=
    create_spec options noFile (child indexFile) (child dataFile)
  refine ⟨l, d, (openIn_fresh options chain (child indexFile) (child dataFile)).trans made,
    stored, header, home, fun q notIndex notData => ?_⟩
  have chain' : Disk.DirChain d (components dir) := home ▸ stored.placed.chain
  by_cases onPath : q ∈ Disk.prefixes (components dir)
  · rw [chain q onPath, chain' q onPath]
  · exact others q onPath notIndex notData

-----------------------------------------------------------------------------------------
-- Changing a stored log
-----------------------------------------------------------------------------------------

/-- An append that succeeds had a non-empty record that fits below the word limit. -/
theorem append_fits {bytes : ByteArray} {s s' : LogState} {i : Nat}
    (h : append bytes s = .ok i s')
    : 0 < bytes.size ∧ s.log.header.dataEnd + bytes.size < Table.wordLimit := by
  cases checked : s.log.checkAppend bytes with
  | error e =>
      rw [append_of_refused checked] at h
      cases h
  | ok u => exact IdentityLog.checkAppend_eq_ok_iff.mp checked

/-- A floor at or below the id mark changes nothing. -/
theorem raiseNextId_below {d : Disk} {l : IdentityLog} {floor : Int64}
    (below : ¬ floor > l.header.nextId) : raiseNextId floor ⟨d, l⟩ = .ok () ⟨d, l⟩ := by
  simp only [raiseNextId, bind, EStateM.bind, get, getThe, MonadStateOf.get, EStateM.get, below,
    if_false, pure, EStateM.pure]

namespace Stored

variable {d : Disk} {l : IdentityLog} {recs : List ByteArray}

/-- Appending to a stored log keeps it stored, one record longer. -/
theorem append (h : Stored d l recs) {bytes : ByteArray} (nonempty : 0 < bytes.size)
    (fits : l.header.dataEnd + bytes.size < Table.wordLimit)
    : ∃ d' l', Log.append bytes ⟨d, l⟩ = .ok recs.length ⟨d', l'⟩ ∧
        Stored d' l' (recs ++ [bytes]) ∧ l'.header = l.header.appended bytes ∧ SameFiles l l' ∧
        Confined l d d' := by
  obtain ⟨d', l', run, reads, persisted, header, same, confined⟩ :=
    append_spec h.reads h.persisted nonempty fits
  exact ⟨d', l', run, ⟨reads, persisted, h.placed.transfer same confined.nodes⟩, header, same,
    confined⟩

/-- Deleting a live record of a stored log keeps it stored, with the record's flag cleared. -/
theorem tombstone (h : Stored d l recs) {k : Nat} {r : ByteArray} (hk : recs[k]? = some r)
    (live : Record.isTombstoned r = false)
    : ∃ d' l', Log.tombstone k ⟨d, l⟩ = .ok true ⟨d', l'⟩ ∧
        Stored d' l' (recs.set k (Bytes.overwrite r 0 ⟨#[Record.flagDeleted]⟩)) ∧
        l'.header = l.header ∧ SameFiles l l' ∧ Confined l d d' := by
  obtain ⟨d', l', run, reads, persisted, header, -, same, confined⟩ :=
    tombstone_live h.reads h.persisted hk live
  exact ⟨d', l', run, ⟨reads, persisted, h.placed.transfer same confined.nodes⟩, header, same,
    confined⟩

/-- Raising the id mark of a stored log keeps it stored. -/
theorem raiseNextId (h : Stored d l recs) (floor : Int64)
    : ∃ d' l', Log.raiseNextId floor ⟨d, l⟩ = .ok () ⟨d', l'⟩ ∧ Stored d' l' recs ∧
        l'.header = { l.header with
                      nextId := if floor > l.header.nextId then floor else l.header.nextId } ∧
        SameFiles l l' ∧ Confined l d d' := by
  obtain ⟨d', l', run, reads, persisted, header, -, -, same, confined⟩ :=
    raiseNextId_spec h.reads h.persisted floor
  exact ⟨d', l', run, ⟨reads, persisted, h.placed.transfer same confined.nodes⟩, header, same,
    confined⟩

end Stored

-----------------------------------------------------------------------------------------
-- Finding a log again
-----------------------------------------------------------------------------------------

theorem readLE_extract (b : ByteArray) {start stop pos width : Nat}
    (h : start + pos + width ≤ stop) : Bytes.readLE (b.extract start stop) pos width =
      Bytes.readLE b (start + pos) width :=
  Bytes.readLE_congr fun j _ => by
    rw [Bytes.getElem?_extract, if_pos (by omega), Nat.add_assoc]

namespace Reads

variable {d d' : Disk} {l l' : IdentityLog} {recs : List ByteArray}

/-- A log reads the same records from a data file that only grew. -/
theorem grow (h : Reads d l recs) (data : l'.data.Valid d')
    (grown : Grown (l.data.bytes d) (l'.data.bytes d')) (offsets : l'.offsets = l.offsets)
    (dataEnd : l'.header.dataEnd = l.header.dataEnd) (tombstones : l'.tombstones = l.tombstones)
    : Reads d' l' recs where
  offsets := offsets ▸ h.offsets
  dataEnd := dataEnd ▸ h.dataEnd
  nonempty := h.nonempty
  data := data
  within := by rw [dataEnd]; exact Nat.le_trans h.within grown.size
  bytes := fun hk j hj => by
    rw [grown.bytes _ (by have := h.end_le hk; have := h.within; omega)]
    exact h.bytes hk j hj
  tombstones := tombstones ▸ h.tombstones

/-- Record `k` starts before record `k + 1`. -/
theorem offsetOf_lt_succ (h : Reads d l recs) {k : Nat} (hk : k < recs.length)
    : offsetOf recs k < offsetOf recs (k + 1) := by
  obtain ⟨r, hr⟩ : ∃ r, recs[k]? = some r := ⟨_, List.getElem?_eq_getElem hk⟩
  rw [offsetOf_succ hr]
  have := h.nonempty r (List.mem_of_getElem? hr)
  omega

/-- Record `k` starts before the data end. -/
theorem offsetOf_lt_dataEnd (h : Reads d l recs) {k : Nat} (hk : k < recs.length)
    : offsetOf recs k < l.header.dataEnd := by
  rw [h.dataEnd]
  exact Nat.lt_of_lt_of_le (h.offsetOf_lt_succ hk) (offsetOf_mono recs hk)

/-- Whether the log reads record `k` as deleted is whether its bytes say so. -/
theorem isTombstoned_eq (h : Reads d l recs) {k : Nat} {r : ByteArray} (hk : recs[k]? = some r)
    : l.isTombstoned d k = Record.isTombstoned r := by
  obtain ⟨flag, hread, hflag⟩ := h.readFlag hk
  simp only [IdentityLog.isTombstoned, h.recordRange_eq hk, Nat.add_sub_cancel_left, hread,
    hflag, Record.isTombstoned]
  by_cases short : r.size < Record.headerSize <;> simp [short]

/-- Counting the records the log reads as deleted gives the deleted records, whatever count the
log keeps. -/
theorem count_isTombstoned (h : Reads d l recs) {l0 : IdentityLog}
    (same : { l0 with tombstones := l.tombstones } = l)
    : ((List.range l0.size).filter (l0.isTombstoned d)).length =
      (recs.filter Record.isTombstoned).length := by
  have size : l0.size = l.size := by rw [← same]; rfl
  have deleted : l0.isTombstoned d = l.isTombstoned d := by rw [← same]; rfl
  have whole : recs = (List.range recs.length).map fun k => recs.getD k ByteArray.empty := by
    apply List.ext_getElem?
    intro k
    by_cases hk : k < recs.length
    · simp [List.getElem?_range hk, List.getD_eq_getElem?_getD, List.getElem?_eq_getElem hk]
    · simp [hk]
  rw [size, deleted, ← List.countP_eq_length_filter, ← List.countP_eq_length_filter, h.size_eq]
  conv => rhs; rw [whole]
  rw [List.countP_map]
  apply List.countP_congr
  intro k hk
  have lt := List.mem_range.mp hk
  rw [h.isTombstoned_eq (List.getElem?_eq_getElem lt)]
  simp [List.getD_eq_getElem?_getD, List.getElem?_eq_getElem lt]

end Reads

/-- The index read back from a file that only grew is the same. -/
theorem Persisted.grow {d d' : Disk} {l l' : IdentityLog} (h : Persisted d l)
    (index : l'.index.Valid d') (distinct : l'.index.inode ≠ l'.data.inode)
    (grown : Grown (l.index.bytes d) (l'.index.bytes d')) (header : l'.header = l.header)
    (offsets : l'.offsets = l.offsets) : Persisted d' l' where
  index := index
  distinct := distinct
  header := by
    rw [grown.extract (by have := h.slots.fit; simp [IdentityLog.offsetSlot] at this; omega),
      header]
    exact h.header
  count := by rw [header, offsets]; exact h.count
  slots := by
    rw [offsets]
    refine ⟨fun hk => ?_, Nat.le_trans h.slots.fit grown.size⟩
    rw [grown.readLE (h.slots.slot_end_le (Array.getElem?_eq_some_iff.mp hk).1)]
    exact h.slots.read hk

/-- Offsets stored in order, rising strictly from 0 and all below the data end, are all kept. -/
theorem validPrefix_all {raw : ByteArray} {dataEnd : Nat} {offsets : List Nat}
    (stored : ∀ {k v}, offsets[k]? = some v → Bytes.readLE raw (8 * k) 8 = v)
    (first : ∀ {v}, offsets[0]? = some v → v = 0)
    (rising : ∀ {k v w}, offsets[k]? = some v → offsets[k + 1]? = some w → v < w)
    (below : ∀ v ∈ offsets, v < dataEnd)
    : validPrefix raw dataEnd offsets.length 0 #[] = offsets.toArray := by
  -- the kept offsets so far are the first `i`; each step keeps the next one
  suffices step : ∀ m i, i + m = offsets.length →
      validPrefix raw dataEnd m i (offsets.take i).toArray = offsets.toArray from
    step offsets.length 0 (Nat.zero_add _)
  intro m
  induction m with
  | zero =>
      intro i hi
      rw [validPrefix, List.take_of_length_le (by omega)]
  | succ m ih =>
      intro i hi
      have lt : i < offsets.length := by omega
      have here : offsets[i]? = some offsets[i] := List.getElem?_eq_getElem lt
      have next : (offsets.take i).toArray.push offsets[i] = (offsets.take (i + 1)).toArray := by
        rw [List.take_add_one, here]
        simp
      have small := below _ (List.getElem_mem lt)
      rw [validPrefix, stored here, if_pos, next]
      · exact ih (i + 1) (by omega)
      · cases i with
        | zero =>
            have zero := first here
            simpa using ⟨zero, small⟩
        | succ j =>
            have before : offsets[j]? = some offsets[j] := List.getElem?_eq_getElem (by omega)
            simp [List.getLast?_take, before, rising before here, small]

theorem Region.bytes_of_inode {r : Region} {d : Disk} {i : Nat} (hi : r.inode = some i)
    : r.bytes d = d.bytesOf i := by
  cases r with
  | mapped j len => cases hi; rfl
  | positioned j => cases hi; rfl
  | closed => cases hi

theorem Region.lt_of_valid {r : Region} {d : Disk} {i : Nat} (v : r.Valid d)
    (hi : r.inode = some i) : i < d.contents.size := by
  cases r with
  | mapped j len => cases hi; exact v.1
  | positioned j => cases hi; exact v
  | closed => cases hi

/-- The inodes of a stored log are on the file system. -/
theorem Stored.inode_lt {d : Disk} {l : IdentityLog} {recs : List ByteArray} (h : Stored d l recs)
    {i : Nat} (hi : l.index.inode = some i ∨ l.data.inode = some i) : i < d.contents.size := by
  rcases hi with index | data
  · exact Region.lt_of_valid h.persisted.index index
  · exact Region.lt_of_valid h.reads.data data

/-- The offset slots of an index, read back from bytes grown from it, give the log's offsets
again: each slot holds its offset, the first is zero, they rise, and they stay below the data
end. -/
theorem Reads.validPrefix_slots {d : Disk} {l : IdentityLog} {recs : List ByteArray}
    (reads : Reads d l recs) {b raw : ByteArray} (slots : SlotsHold b l.offsets)
    (grown : Grown b raw)
    : validPrefix (raw.extract headerSize (headerSize + l.offsets.size * 8)) l.header.dataEnd
        l.offsets.size 0 #[] = l.offsets := by
  have fit := slots.fit
  simp only [IdentityLog.offsetSlot] at fit
  have all := @validPrefix_all (raw.extract headerSize (headerSize + l.offsets.size * 8))
    l.header.dataEnd l.offsets.toList
  simp only [Array.length_toList, Array.toArray_toList] at all
  refine all (fun {k v} hk => ?_) (fun {v} hk => ?_) (fun {k v w} hk hk' => ?_) (fun v hv => ?_)
  · have lt : k < l.offsets.size := by
      have := (List.getElem?_eq_some_iff.mp hk).1
      simpa using this
    rw [readLE_extract _ (by omega), grown.readLE (by simp only [headerSize] at fit ⊢; omega),
      show headerSize + 8 * k = IdentityLog.offsetSlot k by
        simp [IdentityLog.offsetSlot, Nat.mul_comm]]
    exact slots.read (by rwa [Array.getElem?_toList] at hk)
  · rw [reads.offsets, List.getElem?_map] at hk
    obtain ⟨k, hk0, rfl⟩ := Option.map_eq_some_iff.mp hk
    rw [List.getElem?_range (by simpa using (List.getElem?_eq_some_iff.mp hk0).1)] at hk0
    cases hk0
    exact offsetOf_zero recs
  · rw [reads.offsets, List.getElem?_map] at hk hk'
    obtain ⟨a, ha, rfl⟩ := Option.map_eq_some_iff.mp hk
    obtain ⟨b, hb, rfl⟩ := Option.map_eq_some_iff.mp hk'
    have lt : k + 1 < recs.length := by simpa using (List.getElem?_eq_some_iff.mp hb).1
    rw [List.getElem?_range (by omega)] at ha
    rw [List.getElem?_range lt] at hb
    cases ha
    cases hb
    exact reads.offsetOf_lt_succ (by omega)
  · rw [reads.offsets] at hv
    obtain ⟨k, hk, rfl⟩ := List.mem_map.mp hv
    exact reads.offsetOf_lt_dataEnd (List.mem_range.mp hk)

/-- Opening the directory of a stored log finds it again: the same header, offsets and deleted
count on the same two inodes, which a mapping may have grown; no name and no other inode
changes. -/
theorem openIn_stored {d : Disk} {l : IdentityLog} {recs : List ByteArray}
    (h : Stored d l recs) (options : Options)
    : ∃ l' d', IdentityLog.openIn l.dir options d = .ok l' d' ∧ Stored d' l' recs ∧
        l'.header = l.header ∧ l'.offsets = l.offsets ∧ l'.tombstones = l.tombstones ∧
        l'.dir = l.dir ∧ l'.options = options ∧ l'.index.inode = l.index.inode ∧
        l'.data.inode = l.data.inode ∧ d'.nodes = d.nodes ∧
        d'.contents.size = d.contents.size ∧
        (∀ j, l.index.inode ≠ some j → l.data.inode ≠ some j → d'.bytesOf j = d.bytesOf j) := by
  obtain ⟨reads, persisted, placed⟩ := h
  obtain ⟨iI, inodeI, namedI⟩ := placed.index
  obtain ⟨iD, inodeD, namedD⟩ := placed.data
  have indexBytes := @Region.bytes_of_inode l.index d iI inodeI
  have dataBytes := @Region.bytes_of_inode l.data d iD inodeD
  have ltI := Region.lt_of_valid persisted.index inodeI
  have ltD := Region.lt_of_valid reads.data inodeD
  have apart : iI ≠ iD := fun same => persisted.distinct (by rw [inodeI, inodeD, same])
  have fit := persisted.slots.fit
  simp only [IdentityLog.offsetSlot] at fit
  rw [indexBytes] at fit
  have long : headerSize ≤ (d.bytesOf iI).size := by omega
  obtain ⟨ri, d2, openIndex, validI, inodeRI, nodes2, size2, others2, grownI⟩ :=
    @Region.openAt_file d (components l.dir) (join l.dir indexFile) indexFile options.access
      indexReserve iI placed.chain (components_join l.dir plain_indexFile) namedI ltI
  obtain ⟨rd, d3, openData, validD, inodeRD, nodes3, size3, others3, grownD⟩ :=
    @Region.openAt_file d2 (components l.dir) (join l.dir dataFile) dataFile options.access
      dataReserve iD (DirChain.keep placed.chain fun q _ => Disk.node?_congr nodes2 q)
      (components_join l.dir plain_dataFile) (by rw [Disk.node?_congr nodes2]; exact namedD)
      (by omega)
  have index3 : ri.Valid d3 := Region.valid_of_same validI (by omega) fun i hi => by
    rw [inodeRI] at hi
    cases hi
    exact others3 _ apart
  have riBytes : ri.bytes d3 = ri.bytes d2 := Region.bytes_of_same fun i hi => by
    rw [inodeRI] at hi
    cases hi
    exact others3 _ apart
  have grownI3 : Grown (d.bytesOf iI) (ri.bytes d3) := riBytes ▸ grownI
  have grownD3 : Grown (d.bytesOf iD) (rd.bytes d3) := by
    rw [Region.bytes_of_inode inodeRD] at grownD ⊢
    rw [← others2 iD (Ne.symm apart)]
    exact grownD
  have sizeI := grownI3.size
  have sizeD := grownD3.size
  have within := reads.within
  rw [dataBytes] at within
  have lenI : d.lengthOrZero (join l.dir indexFile) = .ok (d.bytesOf iI).size :=
    Disk.lengthOrZero_file placed.chain (components_join l.dir plain_indexFile) namedI
  have rawHeader : ri.read d3 0 headerSize = .ok ((d.bytesOf iI).extract 0 headerSize) := by
    rw [Region.read_of_valid index3 (by omega), Nat.zero_add, grownI3.extract long]
  have header : Header.decode ((d.bytesOf iI).extract 0 headerSize) = .ok l.header := by
    rw [← indexBytes]
    exact persisted.header
  have count : min l.header.recordCount (((ri.bytes d3).size - headerSize) / 8) =
      l.offsets.size := by
    rw [persisted.count]
    simp only [headerSize] at fit ⊢
    omega
  have dataEnd : min l.header.dataEnd (rd.bytes d3).size = l.header.dataEnd := by omega
  have rawSlots : ri.read d3 headerSize (l.offsets.size * 8) =
      .ok ((ri.bytes d3).extract headerSize (headerSize + l.offsets.size * 8)) :=
    Region.read_of_valid index3 (by simp only [headerSize] at fit ⊢; omega)
  have grownIndex : Grown (l.index.bytes d) (ri.bytes d3) := by
    rw [indexBytes]
    exact grownI3
  have offsetsKept := reads.validPrefix_slots persisted.slots grownIndex
  have dirOk : d.createDirAll l.dir = .ok d := Disk.createDirAll_chain placed.chain
  have nonzero : ¬ (d.bytesOf iI).size = 0 := by simp only [headerSize] at long; omega
  have notShort : ¬ (d.bytesOf iI).size < headerSize := by omega
  have kept : (l.offsets.size != l.header.recordCount ||
      l.header.dataEnd != l.header.dataEnd) = false := by simp [persisted.count]
  simp only [IdentityLog.openIn, bind, EStateM.bind, get, getThe, MonadStateOf.get,
    EStateM.get, liftIo, dirOk, set, EStateM.set, lenI, nonzero, if_false, notShort, openIndex,
    openData, rawHeader, liftExcept, header, onLog, loadOffsets, Region.length_of_valid index3,
    Region.length_of_valid validD, count, dataEnd, rawSlots, offsetsKept, kept,
    countTombstones, modify, modifyGet, MonadStateOf.modifyGet, EStateM.modifyGet, pure,
    EStateM.pure, Bool.false_eq_true, EStateM.Result.ok.injEq]
  have headerSame : ({ l.header with recordCount := l.offsets.size,
                                     dataEnd := l.header.dataEnd } : Header) = l.header := by
    rw [← persisted.count]
  have readsAgain : Reads d3 { dir := l.dir, options, data := rd, index := ri, header := l.header,
                               offsets := l.offsets, tombstones := l.tombstones } recs :=
    reads.grow validD (by rw [← dataBytes] at grownD3; exact grownD3) rfl rfl rfl
  refine ⟨_, d3, ⟨rfl, rfl⟩, ?_⟩
  simp only [headerSame]
  rw [readsAgain.count_isTombstoned rfl, ← reads.tombstones]
  have sameNodes : ∀ q, d3.node? q = d.node? q := fun q => by
    rw [Disk.node?_congr nodes3, Disk.node?_congr nodes2]
  refine ⟨⟨readsAgain, ?_, ?_⟩, trivial, trivial, rfl, trivial, trivial, by rw [inodeRI, inodeI],
    by rw [inodeRD, inodeD], by rw [nodes3, nodes2], by rw [size3, size2],
    fun j notI notD => ?_⟩
  · exact persisted.grow index3 (by rw [inodeRI, inodeRD]; simpa using apart) grownIndex rfl rfl
  · exact ⟨DirChain.keep placed.chain fun q _ => sameNodes q,
      ⟨iI, inodeRI, by rw [sameNodes]; exact namedI⟩, ⟨iD, inodeRD, by rw [sameNodes]; exact namedD⟩⟩
  · rw [others3 j (fun e => notD (by rw [inodeD, e])), others2 j (fun e => notI (by rw [inodeI, e]))]

-----------------------------------------------------------------------------------------
-- Starting a log afresh
-----------------------------------------------------------------------------------------

/-- Dropping a name keeps a directory chain that does not pass through it. -/
theorem DirChain.unlink {d : Disk} {P : List String} (chain : Disk.DirChain d P) (name : String)
    : Disk.DirChain { d with nodes := d.nodes.filter (·.1 != P ++ [name]) } P := fun q hq => by
  have notFile : q ≠ P ++ [name] := fun eq => child_not_mem_prefixes P name (eq ▸ hq)
  rw [Disk.node?_unlink (Disk.ne_nil_of_mem_prefixes hq), if_neg notFile]
  exact chain q hq

/-- Starting a stored log afresh removes its two files and makes an empty log in their place on
two new inodes, keeping the id mark; every other inode and name stays. -/
theorem recreate_spec {d : Disk} {l : IdentityLog} {recs : List ByteArray} (h : Stored d l recs)
    : ∃ d' l', recreate ⟨d, l⟩ = .ok () ⟨d', l'⟩ ∧ Stored d' l' [] ∧
        l'.header = { Header.fresh with
                      nextId := if l.nextId > Header.fresh.nextId then l.nextId
                                else Header.fresh.nextId } ∧
        l'.dir = l.dir ∧ l'.options = l.options ∧ d.contents.size ≤ d'.contents.size ∧
        (∀ j, j < d.contents.size → d'.bytesOf j = d.bytesOf j) ∧
        (∀ i, l'.index.inode = some i ∨ l'.data.inode = some i → d.contents.size ≤ i) ∧
        (∀ q, q ≠ components l.dir ++ [indexFile] → q ≠ components l.dir ++ [dataFile] →
          d'.node? q = d.node? q) := by
  obtain ⟨iI, inodeI, namedI⟩ := h.placed.index
  obtain ⟨iD, inodeD, namedD⟩ := h.placed.data
  have chain := h.placed.chain
  have dataGone := Disk.removeFileIfExists_file chain (components_join l.dir plain_dataFile) namedD
  have chain1 := DirChain.unlink chain dataFile
  have named1 : ({ d with nodes := d.nodes.filter (·.1 != components l.dir ++ [dataFile]) } : Disk).node?
      (components l.dir ++ [indexFile]) = some (.file iI) := by
    rw [Disk.node?_unlink (by simp), if_neg (child_ne_child indexFile_ne_dataFile)]
    exact namedI
  have indexGone := Disk.removeFileIfExists_file chain1 (components_join l.dir plain_indexFile)
    named1
  have chain2 := DirChain.unlink chain1 indexFile
  obtain ⟨l0, d3, created, stored0, header0, dir0, options0, size3, bytes3, fresh3, names3⟩ :=
    create_spec l.options (fun q hq i => by rw [chain2 q hq]; simp)
      (by rw [Disk.node?_unlink (by simp), if_pos rfl])
      (by rw [Disk.node?_unlink (by simp), if_neg (child_ne_child (Ne.symm indexFile_ne_dataFile)),
        Disk.node?_unlink (by simp), if_pos rfl])
  obtain ⟨d4, l1, raised, reads1, persisted1, header1, -, -, same1, confined1⟩ :=
    raiseNextId_spec stored0.reads stored0.persisted l.nextId
  have created' : IdentityLog.create l.dir l.options
      ⟨(d.nodes.filter (·.1 != components l.dir ++ [dataFile])).filter
        (·.1 != components l.dir ++ [indexFile]), d.contents⟩ = .ok l0 d3 := created
  have run : recreate ⟨d, l⟩ = .ok () ⟨d4, l1⟩ := by
    simp only [recreate, bind, EStateM.bind, get, getThe, MonadStateOf.get, EStateM.get, modify,
      modifyGet, MonadStateOf.modifyGet, EStateM.modifyGet, removeIfExists, liftIo,
      IdentityLog.dataPath, IdentityLog.indexPath, dataGone, indexGone, set, EStateM.set, onDisk,
      created', raised, sync, pure, EStateM.pure]
  refine ⟨d4, l1, run, ⟨reads1, persisted1, stored0.placed.transfer same1 confined1.nodes⟩,
    by rw [header1, header0], same1.dir.trans dir0, same1.options.trans options0,
    by rw [confined1.size]; exact size3, fun j hj => ?bytes, fun i => ?fresh, fun q hq1 hq2 => ?names⟩
  case bytes =>
    have old : ∀ i, l0.index.inode = some i ∨ l0.data.inode = some i → j ≠ i :=
      fun i hi => Nat.ne_of_lt (Nat.lt_of_lt_of_le hj (fresh3 i hi))
    rw [confined1.others j (fun hi => old j (.inr hi) rfl) (fun hi => old j (.inl hi) rfl)]
    exact bytes3 j hj
  case fresh =>
    rw [same1.index, same1.data]
    exact fresh3 i
  case names =>
    rw [Disk.node?_congr confined1.nodes]
    by_cases onPath : q ∈ Disk.prefixes (components l.dir)
    · rw [chain q onPath]
      exact (dir0 ▸ stored0.placed.chain) q onPath
    · by_cases root : q = []
      · subst root
        rfl
      · rw [names3 q (dir0 ▸ onPath) (dir0 ▸ hq1) (dir0 ▸ hq2), Disk.node?_unlink root,
          if_neg hq1, Disk.node?_unlink root, if_neg hq2]

/-- Destroying a stored log that is alone in its directory removes its two files and the
directory; no other name and no inode changes. -/
theorem destroy_spec {d : Disk} {l : IdentityLog} {recs : List ByteArray} (h : Stored d l recs)
    (nonroot : components l.dir ≠ [])
    (alone : ∀ q, components l.dir <+: q → q ≠ components l.dir →
      q ≠ components l.dir ++ [indexFile] → q ≠ components l.dir ++ [dataFile] → d.node? q = none)
    : ∃ d', destroy ⟨d, l⟩ = .ok () ⟨d', l.close⟩ ∧ d'.contents = d.contents ∧
        (∀ q, components l.dir <+: q → d'.node? q = none) ∧
        (∀ q, ¬ components l.dir <+: q → d'.node? q = d.node? q) := by
  obtain ⟨iI, -, namedI⟩ := h.placed.index
  obtain ⟨iD, -, namedD⟩ := h.placed.data
  have chain := h.placed.chain
  have dataGone := Disk.removeFileIfExists_file chain (components_join l.dir plain_dataFile) namedD
  have chain1 := DirChain.unlink chain dataFile
  have named1 : ({ d with nodes := d.nodes.filter (·.1 != components l.dir ++ [dataFile]) } : Disk).node?
      (components l.dir ++ [indexFile]) = some (.file iI) := by
    rw [Disk.node?_unlink (by simp), if_neg (child_ne_child indexFile_ne_dataFile)]
    exact namedI
  have indexGone := Disk.removeFileIfExists_file chain1 (components_join l.dir plain_indexFile)
    named1
  have chain2 := DirChain.unlink chain1 indexFile
  obtain ⟨P, name, split⟩ := (List.eq_nil_or_concat (components l.dir)).resolve_left nonroot
  rw [List.concat_eq_append] at split
  have unlinked : ∀ q, q ≠ [] →
      Disk.node? ⟨(d.nodes.filter (·.1 != components l.dir ++ [dataFile])).filter
        (·.1 != components l.dir ++ [indexFile]), d.contents⟩ q =
        if q = components l.dir ++ [indexFile] ∨ q = components l.dir ++ [dataFile] then none
        else d.node? q := fun q hq => by
    simp only [Disk.node?, List.isEmpty_iff, hq, if_false, Disk.lookup_filter_ne]
    by_cases isIndex : q = components l.dir ++ [indexFile]
    · simp [isIndex]
    · by_cases isData : q = components l.dir ++ [dataFile] <;> simp [isIndex, isData]
  have parent : Disk.DirChain ⟨(d.nodes.filter (·.1 != components l.dir ++ [dataFile])).filter
      (·.1 != components l.dir ++ [indexFile]), d.contents⟩ P := fun q hq =>
    chain2 q (by rw [split, Disk.prefixes_concat]; exact List.mem_append_left _ hq)
  have dirGone : Disk.removeDir ⟨(d.nodes.filter (·.1 != components l.dir ++ [dataFile])).filter
      (·.1 != components l.dir ++ [indexFile]), d.contents⟩ l.dir =
      .ok ⟨((d.nodes.filter (·.1 != components l.dir ++ [dataFile])).filter
        (·.1 != components l.dir ++ [indexFile])).filter (·.1 != P ++ [name]), d.contents⟩ :=
    Disk.removeDir_empty parent split (split ▸ Disk.node?_of_chain chain2) fun q longer under => by
      have hq : q ≠ [] := List.ne_nil_of_length_pos (Nat.lt_of_le_of_lt (Nat.zero_le _) longer)
      rw [unlinked q hq]
      split
      · rfl
      · rename_i named
        rw [← split] at longer under
        exact alone q (List.prefix_iff_eq_take.mpr under.symm)
          (fun same => by rw [same] at longer; omega) (fun e => named (.inl e)) fun e => named (.inr e)
  have unlinkedDir : ∀ q, q ≠ [] →
      Disk.node? ⟨((d.nodes.filter (·.1 != components l.dir ++ [dataFile])).filter
        (·.1 != components l.dir ++ [indexFile])).filter (·.1 != P ++ [name]), d.contents⟩ q =
        if q = P ++ [name] then none
        else Disk.node? ⟨(d.nodes.filter (·.1 != components l.dir ++ [dataFile])).filter
          (·.1 != components l.dir ++ [indexFile]), d.contents⟩ q := fun q hq => by
    simp only [Disk.node?, List.isEmpty_iff, hq, if_false, Disk.lookup_filter_ne]
  refine ⟨⟨((d.nodes.filter (·.1 != components l.dir ++ [dataFile])).filter
      (·.1 != components l.dir ++ [indexFile])).filter (·.1 != P ++ [name]), d.contents⟩,
    ?run, rfl, fun q under => ?gone, fun q apart => ?kept⟩
  case run =>
    simp only [destroy, bind, EStateM.bind, get, getThe, MonadStateOf.get, EStateM.get, modify,
      modifyGet, MonadStateOf.modifyGet, EStateM.modifyGet, removeIfExists, liftIo,
      IdentityLog.dataPath, IdentityLog.indexPath, dataGone, indexGone, set, EStateM.set, dirGone,
      pure, EStateM.pure]
  case gone =>
    have hq : q ≠ [] := fun nil => nonroot (List.prefix_nil.mp (nil ▸ under))
    rw [unlinkedDir q hq, ← split, unlinked q hq]
    by_cases self : q = components l.dir
    · rw [if_pos self]
    · rw [if_neg self]
      split
      · rfl
      · rename_i named
        simp only [not_or] at named
        exact alone q under self named.1 named.2
  case kept =>
    by_cases root : q = []
    · subst root
      rfl
    · have notDir : q ≠ components l.dir := fun same => apart (same ▸ List.prefix_refl q)
      have notFile : ∀ x, q ≠ components l.dir ++ [x] := fun x same =>
        apart (same ▸ List.prefix_append _ _)
      rw [unlinkedDir q root, ← split, if_neg notDir, unlinked q root,
        if_neg (not_or.mpr ⟨notFile indexFile, notFile dataFile⟩)]

-----------------------------------------------------------------------------------------
-- Logs beside other files
-----------------------------------------------------------------------------------------

/-- A stored log stays stored on a file system with no fewer inodes that keeps the bytes of its
two inodes and the names along its directory and of its two files. -/
theorem Stored.frame {d d' : Disk} {l : IdentityLog} {recs : List ByteArray} (h : Stored d l recs)
    (size : d.contents.size ≤ d'.contents.size)
    (bytes : ∀ i, l.index.inode = some i ∨ l.data.inode = some i → d'.bytesOf i = d.bytesOf i)
    (names : ∀ q, q ∈ Disk.prefixes (components l.dir) ∨ q = components l.dir ++ [indexFile] ∨
      q = components l.dir ++ [dataFile] → d'.node? q = d.node? q)
    : Stored d' l recs where
  reads := h.reads.transfer
    (Region.valid_of_same h.reads.data size fun i hi => bytes i (.inr hi))
    (Region.bytes_of_same fun i hi => bytes i (.inr hi)) rfl rfl rfl
  persisted := h.persisted.transfer
    (Region.valid_of_same h.persisted.index size fun i hi => bytes i (.inl hi))
    h.persisted.distinct (Region.bytes_of_same fun i hi => bytes i (.inl hi)) rfl rfl
  placed := by
    obtain ⟨iI, inodeI, namedI⟩ := h.placed.index
    obtain ⟨iD, inodeD, namedD⟩ := h.placed.data
    exact ⟨DirChain.keep h.placed.chain fun q hq => names q (.inl hq),
      ⟨iI, inodeI, (names _ (.inr (.inl rfl))).trans namedI⟩,
      ⟨iD, inodeD, (names _ (.inr (.inr rfl))).trans namedD⟩⟩

/-- Two steps that each touch only a log's own inodes, the second on the same files, touch only
those. -/
theorem Confined.trans {l l' : IdentityLog} {d1 d2 d3 : Disk} (h12 : Confined l d1 d2)
    (same : SameFiles l l') (h23 : Confined l' d2 d3) : Confined l d1 d3 where
  nodes := h23.nodes.trans h12.nodes
  size := h23.size.trans h12.size
  others := fun j data index =>
    (h23.others j (same.data ▸ data) (same.index ▸ index)).trans (h12.others j data index)

theorem SameFiles.trans {l1 l2 l3 : IdentityLog} (h12 : SameFiles l1 l2) (h23 : SameFiles l2 l3)
    : SameFiles l1 l3 :=
  ⟨h23.dir.trans h12.dir, h23.options.trans h12.options, h23.data.trans h12.data,
    h23.index.trans h12.index⟩

theorem SameFiles.refl (l : IdentityLog) : SameFiles l l := ⟨rfl, rfl, rfl, rfl⟩

theorem Confined.refl (l : IdentityLog) (d : Disk) : Confined l d d := ⟨rfl, rfl, fun _ _ _ => rfl⟩

end MetricRegistry.Log
