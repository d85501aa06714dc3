import MetricRegistry.Proofs.LogFiles

/-! Opening repairs what it finds: it keeps the longest valid run of stored offsets, cuts the
header to match, and opening the files it leaves again finds the same log and writes nothing. -/

namespace MetricRegistry.Disk

variable {d : Disk} {i : Nat} {f g : ByteArray → ByteArray}
theorem modifyBytes_congr (same : f (d.bytesOf i) = g (d.bytesOf i))
    : d.modifyBytes i f = d.modifyBytes i g := by
  simp only [modifyBytes, Disk.mk.injEq, true_and]
  apply Array.ext_getElem?
  intro j
  rw [Array.getElem?_modify, Array.getElem?_modify]
  by_cases here : i = j
  · subst here
    rw [if_pos rfl, if_pos rfl]
    cases h : d.contents[i]? with
    | none => rfl
    | some b =>
        simp only [bytesOf, h, Option.getD_some] at same
        rw [Option.map_some, Option.map_some, same]
  · rw [if_neg here, if_neg here]

theorem modifyBytes_of_fixed (fixed : f (d.bytesOf i) = d.bytesOf i) : d.modifyBytes i f = d := by
  simp only [modifyBytes]
  congr 1
  apply Array.ext_getElem?
  intro j
  rw [Array.getElem?_modify]
  by_cases here : i = j
  · subst here
    rw [if_pos rfl]
    cases h : d.contents[i]? with
    | none => rfl
    | some b =>
        simp only [bytesOf, h, Option.getD_some] at fixed
        rw [Option.map_some, fixed]
  · rw [if_neg here]

end MetricRegistry.Disk

namespace MetricRegistry.Log

open Disk

-----------------------------------------------------------------------------------------
-- The longest kept run
-----------------------------------------------------------------------------------------

/-- The offset stored in slot `k` of the index bytes `idx`. -/
def storedOffset (idx : ByteArray) (k : Nat) : Nat := Bytes.readLE idx (IdentityLog.offsetSlot k) 8

/-- The first `n` values of `offset` are a run opening keeps: no more than `cap` of them, the
first at 0, each above the one before, all below `dataEnd`. -/
structure KeptRun (offset : Nat → Nat) (cap dataEnd n : Nat) : Prop where
  capped : n ≤ cap
  first : 0 < n → offset 0 = 0
  rising : ∀ k, k + 1 < n → offset k < offset (k + 1)
  below : ∀ k, k < n → offset k < dataEnd

/-- `offsets` are the values of `offset` in the longest run opening keeps. -/
structure LongestRun (offset : Nat → Nat) (cap dataEnd : Nat) (offsets : List Nat) : Prop where
  stored : offsets = (List.range offsets.length).map (offset)
  kept : KeptRun offset cap dataEnd offsets.length
  longest : ∀ n, KeptRun offset cap dataEnd n → n ≤ offsets.length

section Runs

variable {offset : Nat → Nat} {cap dataEnd : Nat}

theorem KeptRun.zero : KeptRun offset cap dataEnd 0 :=
  ⟨Nat.zero_le _, fun h => absurd h (Nat.lt_irrefl 0), fun _ h => absurd h (by omega),
    fun _ h => absurd h (by omega)⟩

/-- A shorter run of a kept run is kept. -/
theorem KeptRun.shorter {n m : Nat} (h : KeptRun offset cap dataEnd n) (le : m ≤ n)
    : KeptRun offset cap dataEnd m :=
  ⟨Nat.le_trans le h.capped, fun pos => h.first (by omega), fun k hk => h.rising k (by omega),
    fun k hk => h.below k (by omega)⟩

/-- A kept run grows by one offset when that offset starts at 0 or rises above the one before,
and lies below the data end. -/
theorem KeptRun.extend {i : Nat} (h : KeptRun offset cap dataEnd i) (room : i < cap)
    (start : i = 0 → offset 0 = 0)
    (rises : ∀ j, i = j + 1 → offset j < offset i)
    (below : offset i < dataEnd) : KeptRun offset cap dataEnd (i + 1) where
  capped := room
  first := fun _ => by
    cases i with
    | zero => exact start rfl
    | succ j => exact h.first (by omega)
  rising := fun k hk => by
    by_cases last : k + 1 = i
    · subst last
      exact rises k rfl
    · exact h.rising k (by omega)
  below := fun k hk => by
    by_cases last : k = i
    · subst last
      exact below
    · exact h.below k (by omega)

/-- A run of `cap` kept offsets is the longest. -/
theorem LongestRun.of_cap (h : KeptRun offset cap dataEnd cap)
    : LongestRun offset cap dataEnd ((List.range cap).map (offset)) where
  stored := by rw [List.length_map, List.length_range]
  kept := by rw [List.length_map, List.length_range]; exact h
  longest := fun n hn => by rw [List.length_map, List.length_range]; exact hn.capped

/-- A kept run that cannot grow by one is the longest. -/
theorem LongestRun.of_stuck {i : Nat} (h : KeptRun offset cap dataEnd i)
    (stuck : ¬ KeptRun offset cap dataEnd (i + 1))
    : LongestRun offset cap dataEnd ((List.range i).map (offset)) where
  stored := by rw [List.length_map, List.length_range]
  kept := by rw [List.length_map, List.length_range]; exact h
  longest := fun n hn => by
    rw [List.length_map, List.length_range]
    exact Nat.le_of_not_lt fun more => stuck (hn.shorter more)

/-- There is one longest run. -/
theorem LongestRun.unique {xs ys : List Nat} (hx : LongestRun offset cap dataEnd xs)
    (hy : LongestRun offset cap dataEnd ys) : xs = ys := by
  have same : xs.length = ys.length :=
    Nat.le_antisymm (hy.longest _ hx.kept) (hx.longest _ hy.kept)
  rw [hx.stored, hy.stored, same]

end Runs

/-- The offset slots read from the bytes opening reads past the header. -/
theorem readLE_slots (idx : ByteArray) {cap i : Nat} (lt : i < cap)
    : Bytes.readLE (idx.extract headerSize (headerSize + cap * 8)) (8 * i) 8 =
      storedOffset idx i := by
  rw [readLE_extract _ (by omega), storedOffset, IdentityLog.offsetSlot, Nat.mul_comm]

/-- Keeping the stored offsets keeps the longest run. -/
theorem validPrefix_longest (idx : ByteArray) (cap dataEnd : Nat)
    : LongestRun (storedOffset idx) cap dataEnd
        (validPrefix (idx.extract headerSize (headerSize + cap * 8)) dataEnd cap 0 #[]).toList := by
  -- the first `i` stored offsets are kept so far; each step keeps the next one or stops
  suffices step : ∀ m i, i + m = cap → KeptRun (storedOffset idx) cap dataEnd i →
      LongestRun (storedOffset idx) cap dataEnd
        (validPrefix (idx.extract headerSize (headerSize + cap * 8)) dataEnd m i
          ((List.range i).map (storedOffset idx)).toArray).toList from
    step cap 0 (Nat.zero_add _) KeptRun.zero
  intro m
  induction m with
  | zero =>
      intro i hi kept
      obtain rfl : i = cap := by omega
      rw [validPrefix, List.toList_toArray]
      exact LongestRun.of_cap kept
  | succ m ih =>
      intro i hi kept
      have read := readLE_slots idx (show i < cap by omega)
      by_cases next : KeptRun (storedOffset idx) cap dataEnd (i + 1)
      · have pushed : ((List.range i).map (storedOffset idx)).toArray.push (storedOffset idx i) =
            ((List.range (i + 1)).map (storedOffset idx)).toArray := by
          simp [List.range_succ]
        have below := next.below i (Nat.lt_succ_self i)
        simp only [validPrefix, read, List.back?_toArray, List.getLast?_map, List.getLast?_range]
        rw [if_pos, pushed]
        · exact ih (i + 1) (by omega) next
        · cases i with
          | zero => simpa using ⟨next.first (Nat.succ_pos 0), below⟩
          | succ j => simpa using ⟨next.rising j (Nat.lt_succ_self _), below⟩
      · simp only [validPrefix, read, List.back?_toArray, List.getLast?_map, List.getLast?_range]
        rw [if_neg, List.toList_toArray]
        · exact LongestRun.of_stuck kept next
        · intro pass
          apply next
          cases i with
          | zero =>
              simp only [if_true, Option.map_none, Bool.and_eq_true, beq_iff_eq,
                decide_eq_true_eq] at pass
              exact kept.extend (by omega) (fun _ => pass.1) (fun j h => absurd h (by omega)) pass.2
          | succ j =>
              simp only [Nat.add_one_ne_zero, if_false, Nat.add_sub_cancel, Option.map_some,
                Bool.and_eq_true, decide_eq_true_eq] at pass
              refine kept.extend (by omega) (fun h => absurd h (by omega)) (fun k hk => ?_) pass.2
              obtain rfl : j = k := by omega
              exact pass.1

-----------------------------------------------------------------------------------------
-- Opening a file
-----------------------------------------------------------------------------------------

/-- A file's bytes as an open log finds them: a mapping first extends a file shorter than its
reserve with zeros, positioned access takes the file as it is. -/
def Access.reserved : Access → Nat → ByteArray → ByteArray
  | .mapped, reserve, bytes => if bytes.size < reserve then Bytes.resize bytes reserve else bytes
  | .file, _, bytes => bytes

/-- The region opening gives on inode `i` holding `len` bytes. -/
def Region.opened : Access → Nat → Nat → Region
  | .mapped, i, len => .mapped i len
  | .file, i, _ => .positioned i

namespace Access

variable {a : Access} {reserve : Nat} {b : ByteArray}

/-- A file extended once is not extended again. -/
theorem reserved_reserved : a.reserved reserve (a.reserved reserve b) = a.reserved reserve b := by
  cases a with
  | mapped =>
      by_cases short : b.size < reserve
      · simp [reserved, short, Bytes.size_resize]
      · simp [reserved, short]
  | file => rfl

/-- Extending a file keeps its bytes. -/
theorem grown_reserved : Grown b (a.reserved reserve b) := by
  cases a with
  | mapped =>
      by_cases short : b.size < reserve
      · simp only [reserved, if_pos short]
        exact grown_resize (Nat.le_of_lt short)
      · simp only [reserved, if_neg short]
        exact Grown.refl b
  | file => exact Grown.refl b

end Access

namespace Region

variable {a : Access} {i len : Nat} {d : Disk}

@[simp] theorem inode_opened : (Region.opened a i len).inode = some i := by
  cases a <;> rfl

@[simp] theorem bytes_opened : (Region.opened a i len).bytes d = d.bytesOf i := by
  cases a <;> rfl

theorem valid_opened (hi : i < d.contents.size)
    : (Region.opened a i (d.bytesOf i).size).Valid d := by
  cases a with
  | mapped => exact ⟨hi, rfl⟩
  | file => exact hi

/-- Opening a file that is there for the log gives the region of its inode, and extends the
file as `Access.reserved` says. -/
theorem openAt_reserved {P : List String} {path name : String} {access : Access}
    {reserve : Nat} (chain : Disk.DirChain d P) (comps : components path = P ++ [name])
    (file : d.node? (P ++ [name]) = some (.file i)) (hi : i < d.contents.size)
    : openAt d path access false reserve =
        .ok (Region.opened access i (access.reserved reserve (d.bytesOf i)).size,
          d.modifyBytes i (access.reserved reserve)) := by
  have opened := Disk.openFile_file chain comps file true false
  simp only [Bool.false_eq_true, if_false] at opened
  cases access with
  | file =>
      rw [Disk.modifyBytes_of_fixed rfl]
      simp only [openAt, opened, bind, Except.bind, pure, Except.pure, Region.opened]
  | mapped =>
      by_cases short : (d.bytesOf i).size < reserve
      · have resized : d.modifyBytes i (Access.mapped.reserved reserve) = d.setLen i reserve :=
          Disk.modifyBytes_congr (by simp [Access.reserved, short])
        simp only [openAt, opened, bind, Except.bind, pure, Except.pure, if_pos short, resized,
          Region.opened, Access.reserved, Bytes.size_resize]
        rw [Disk.setLen, Disk.bytesOf_modifyBytes_self hi, Bytes.size_resize]
      · rw [Disk.modifyBytes_of_fixed (by simp [Access.reserved, short])]
        simp only [openAt, opened, bind, Except.bind, pure, Except.pure, if_neg short,
          Region.opened, Access.reserved]

end Region

/-- Loading the offsets keeps the longest run of stored offsets and cuts the header's count and
data end to it; the header goes back to the index exactly when that changed it. -/
theorem loadOffsets_longest {d : Disk} {l : IdentityLog} {iI : Nat} (index : l.index.Valid d)
    (data : l.data.Valid d) (hI : l.index.inode = some iI)
    (long : headerSize ≤ (l.index.bytes d).size)
    : ∃ kept : Array Nat, LongestRun (storedOffset (l.index.bytes d))
          (min l.header.recordCount (((l.index.bytes d).size - headerSize) / 8))
          (min l.header.dataEnd (l.data.bytes d).size) kept.toList ∧
        loadOffsets ⟨d, l⟩ = .ok ()
          ⟨if kept.size = l.header.recordCount ∧
                min l.header.dataEnd (l.data.bytes d).size = l.header.dataEnd then d
            else d.modifyBytes iI (Bytes.overwrite · 0
              { l.header with recordCount := kept.size,
                              dataEnd := min l.header.dataEnd (l.data.bytes d).size }.encode),
           { l with offsets := kept,
                    header := { l.header with recordCount := kept.size,
                                              dataEnd := min l.header.dataEnd (l.data.bytes d).size } }⟩ := by
  have slots : headerSize + min l.header.recordCount (((l.index.bytes d).size - headerSize) / 8) * 8
      ≤ (l.index.bytes d).size := by
    have := Nat.div_mul_le_self ((l.index.bytes d).size - headerSize) 8
    have := Nat.min_le_right l.header.recordCount (((l.index.bytes d).size - headerSize) / 8)
    have := Nat.mul_le_mul_right 8 this
    omega
  refine ⟨_, validPrefix_longest _ _ _, ?_⟩
  simp only [loadOffsets, bind, EStateM.bind, get, getThe, MonadStateOf.get, EStateM.get, liftIo,
    Region.length_of_valid index, Region.length_of_valid data, Region.read_of_valid index slots,
    set, EStateM.set, pure, EStateM.pure]
  generalize validPrefix _ _ _ _ _ = kept
  generalize min l.header.dataEnd (l.data.bytes d).size = dataEnd
  by_cases same : kept.size = l.header.recordCount ∧ dataEnd = l.header.dataEnd
  · have kept : (kept.size != l.header.recordCount || dataEnd != l.header.dataEnd) = false := by
      simp [same.1, same.2]
    rw [if_pos same, kept]
    rfl
  · have repaired : (kept.size != l.header.recordCount || dataEnd != l.header.dataEnd) = true := by
      rw [Classical.not_and_iff_not_or_not] at same
      simpa using same
    have write : l.index.write d 0
        ({ l.header with recordCount := kept.size, dataEnd := dataEnd } : Header).encode =
        .ok (l.index, d.modifyBytes iI (Bytes.overwrite · 0
          ({ l.header with recordCount := kept.size, dataEnd := dataEnd } : Header).encode)) :=
      Region.write_inside index hI (by rw [Header.size_encode]; decide)
        (by rw [Header.size_encode]; omega)
    rw [if_neg same, repaired, if_pos rfl]
    simp only [writeHeader, writeIndex, bind, EStateM.bind, get, getThe, MonadStateOf.get,
      EStateM.get, liftIo, write, set, EStateM.set, pure, EStateM.pure]

/-- Opening a directory where both files are there, the index starting with a header that reads
as `h`, opens both files as `Access.reserved` extends them and loads the log from them. -/
theorem openIn_of_load {d : Disk} {dir : String} {options : Options} {iI iD : Nat}
    (chain : Disk.DirChain d (components dir))
    (index : d.node? (components dir ++ [indexFile]) = some (.file iI))
    (data : d.node? (components dir ++ [dataFile]) = some (.file iD))
    (apart : iI ≠ iD) (hI : iI < d.contents.size) (hD : iD < d.contents.size)
    (long : headerSize ≤ (d.bytesOf iI).size) {h : Header}
    (header : Header.decode ((d.bytesOf iI).extract 0 headerSize) = .ok h) {s : LogState}
    (loaded : (do loadOffsets; countTombstones : LogM Unit)
      ⟨(d.modifyBytes iI (options.access.reserved indexReserve)).modifyBytes iD
          (options.access.reserved dataReserve),
        { dir, options, header := h, offsets := #[], tombstones := 0,
          index := Region.opened options.access iI
            (options.access.reserved indexReserve (d.bytesOf iI)).size,
          data := Region.opened options.access iD
            (options.access.reserved dataReserve (d.bytesOf iD)).size }⟩ = .ok () s)
    : IdentityLog.openIn dir options d = .ok s.log s.disk := by
  have nodes2 : (d.modifyBytes iI (options.access.reserved indexReserve)).nodes = d.nodes := rfl
  have openData := @Region.openAt_reserved _ _ _ (join dir dataFile) dataFile options.access
    dataReserve (DirChain.keep chain fun q _ => Disk.node?_congr nodes2 q)
    (components_join dir plain_dataFile) (by rw [Disk.node?_congr nodes2]; exact data)
    (by rw [Disk.size_modifyBytes]; exact hD)
  rw [Disk.bytesOf_modifyBytes_other (Ne.symm apart)] at openData
  have bytesI : ((d.modifyBytes iI (options.access.reserved indexReserve)).modifyBytes iD
      (options.access.reserved dataReserve)).bytesOf iI =
      options.access.reserved indexReserve (d.bytesOf iI) := by
    rw [Disk.bytesOf_modifyBytes_other apart, Disk.bytesOf_modifyBytes_self hI]
  have grown : Grown (d.bytesOf iI) (options.access.reserved indexReserve (d.bytesOf iI)) :=
    Access.grown_reserved
  have validI : (Region.opened options.access iI
      (options.access.reserved indexReserve (d.bytesOf iI)).size).Valid
      ((d.modifyBytes iI (options.access.reserved indexReserve)).modifyBytes iD
        (options.access.reserved dataReserve)) := by
    rw [← bytesI]
    exact Region.valid_opened (by simpa using hI)
  have rawHeader : (Region.opened options.access iI
      (options.access.reserved indexReserve (d.bytesOf iI)).size).read
      ((d.modifyBytes iI (options.access.reserved indexReserve)).modifyBytes iD
        (options.access.reserved dataReserve)) 0 headerSize =
      .ok ((d.bytesOf iI).extract 0 headerSize) := by
    rw [Region.read_of_valid validI
        (by rw [Region.bytes_opened, bytesI]; have := grown.size; omega),
      Region.bytes_opened, bytesI, Nat.zero_add, grown.extract long]
  have nonzero : ¬ (d.bytesOf iI).size = 0 := by simp only [headerSize] at long; omega
  have notShort : ¬ (d.bytesOf iI).size < headerSize := by omega
  simp only [bind, EStateM.bind] at loaded
  simp only [IdentityLog.openIn, bind, EStateM.bind, get, getThe, MonadStateOf.get, EStateM.get,
    liftIo, Disk.createDirAll_chain chain, set, EStateM.set,
    Disk.lengthOrZero_file chain (components_join dir plain_indexFile) index, nonzero, if_false,
    notShort, Region.openAt_reserved chain (components_join dir plain_indexFile) index hI,
    openData, rawHeader, liftExcept, header, onLog, loaded, pure, EStateM.pure]

/-- The log opening builds in `dir` on inodes `iI` and `iD` of `d`, with header `h` and offsets
`offsets`, its deleted records counted off the files. -/
def foundLog (d : Disk) (dir : String) (options : Options) (iI iD : Nat) (h : Header)
    (offsets : Array Nat) : IdentityLog :=
  let l : IdentityLog :=
    { dir, options, header := h, offsets := offsets, tombstones := 0,
      index := Region.opened options.access iI (d.bytesOf iI).size,
      data := Region.opened options.access iD (d.bytesOf iD).size }
  { l with tombstones := ((List.range l.size).filter (l.isTombstoned d)).length }

/-- Writing a header over the first bytes of an index keeps its length. -/
theorem size_overwrite_header {idx : ByteArray} (long : headerSize ≤ idx.size) (h : Header)
    : (Bytes.overwrite idx 0 h.encode).size = idx.size := by
  rw [Bytes.size_overwrite, Header.size_encode]
  omega

/-- Writing a header over the first bytes of an index keeps every byte past the header. -/
theorem getElem?_overwrite_header (idx : ByteArray) (h : Header) {j : Nat} (past : headerSize ≤ j)
    : (Bytes.overwrite idx 0 h.encode)[j]? = idx[j]? := by
  rw [Bytes.getElem?_overwrite, Header.size_encode, if_neg (by omega)]
  by_cases inside : j < idx.size
  · rw [if_pos inside]
  · rw [if_neg inside, if_neg (by omega), getElem?_neg idx j inside]

/-- A header written over the first bytes of an index is what they then hold. -/
theorem extract_overwrite_header (idx : ByteArray) (h : Header)
    : (Bytes.overwrite idx 0 h.encode).extract 0 headerSize = h.encode := by
  apply Bytes.ext_getElem?
  intro j
  rw [Bytes.getElem?_extract, Bytes.getElem?_overwrite, Header.size_encode, Nat.zero_add]
  by_cases inside : j < headerSize
  · rw [if_pos inside, if_pos ⟨Nat.zero_le j, inside⟩, Nat.sub_zero]
  · rw [if_neg inside, getElem?_neg h.encode j (by rw [Header.size_encode]; exact inside)]

/-- The files opening leaves as `d'` of `d`: no name and no inode count changes, the data file
is `dat`, and the index file has the length of `idx` and its bytes past the header, with a header
that reads as `h`. -/
structure Reopens (d d' : Disk) (iI iD : Nat) (idx dat : ByteArray) (h : Header) : Prop where
  nodes : d'.nodes = d.nodes
  size : d'.contents.size = d.contents.size
  data : d'.bytesOf iD = dat
  indexSize : (d'.bytesOf iI).size = idx.size
  slots : ∀ j, headerSize ≤ j → (d'.bytesOf iI)[j]? = idx[j]?
  header : Header.decode ((d'.bytesOf iI).extract 0 headerSize) = .ok h

namespace Reopens

variable {d opened : Disk} {iI iD : Nat} {idx dat : ByteArray}

/-- Files that opening only extended reopen with the header read from them. -/
theorem extended (nodes : opened.nodes = d.nodes) (size : opened.contents.size = d.contents.size)
    (bytesI : opened.bytesOf iI = idx) (bytesD : opened.bytesOf iD = dat) {h : Header}
    (header : Header.decode (idx.extract 0 headerSize) = .ok h)
    : Reopens d opened iI iD idx dat h :=
  ⟨nodes, size, bytesD, by rw [bytesI], fun j _ => by rw [bytesI], by rw [bytesI]; exact header⟩

/-- Files over whose index opening wrote a header reopen with that header, the slots past it as
they were. -/
theorem rewritten (nodes : opened.nodes = d.nodes) (size : opened.contents.size = d.contents.size)
    (bytesI : opened.bytesOf iI = idx) (bytesD : opened.bytesOf iD = dat) (apart : iI ≠ iD)
    (inodeI : iI < opened.contents.size) (long : headerSize ≤ idx.size) {cut : Header}
    (fits : cut.Fits)
    : Reopens d (opened.modifyBytes iI (Bytes.overwrite · 0 cut.encode)) iI iD idx dat cut where
  nodes := nodes
  size := by rw [Disk.size_modifyBytes, size]
  data := by rw [Disk.bytesOf_modifyBytes_other (Ne.symm apart), bytesD]
  indexSize := by rw [Disk.bytesOf_modifyBytes_self inodeI, bytesI, size_overwrite_header long]
  slots := fun j past => by
    rw [Disk.bytesOf_modifyBytes_self inodeI, bytesI, getElem?_overwrite_header idx cut past]
  header := by
    rw [Disk.bytesOf_modifyBytes_self inodeI, bytesI, extract_overwrite_header idx cut]
    exact Header.decode_encode fits

end Reopens

/-- Opening a directory where both files are there, the index starting with a header that reads
as `h`, keeps the longest run of stored offsets and cuts the header to it. It extends the files
as `Access.reserved` says and writes the cut header back, unless it is the header read. -/
theorem openIn_loaded {d : Disk} {dir : String} {options : Options} {iI iD : Nat}
    (chain : Disk.DirChain d (components dir))
    (index : d.node? (components dir ++ [indexFile]) = some (.file iI))
    (data : d.node? (components dir ++ [dataFile]) = some (.file iD))
    (apart : iI ≠ iD) (hI : iI < d.contents.size) (hD : iD < d.contents.size)
    (long : headerSize ≤ (d.bytesOf iI).size) {h : Header}
    (header : Header.decode ((d.bytesOf iI).extract 0 headerSize) = .ok h)
    : let idx := options.access.reserved indexReserve (d.bytesOf iI)
      let dat := options.access.reserved dataReserve (d.bytesOf iD)
      ∃ (kept : Array Nat) (d' : Disk),
        LongestRun (storedOffset idx) (min h.recordCount ((idx.size - headerSize) / 8))
          (min h.dataEnd dat.size) kept.toList ∧
        let cut : Header := { h with recordCount := kept.size, dataEnd := min h.dataEnd dat.size }
        IdentityLog.openIn dir options d = .ok (foundLog d' dir options iI iD cut kept) d' ∧
        Reopens d d' iI iD idx dat cut ∧
        (cut = h → d' = (d.modifyBytes iI (options.access.reserved indexReserve)).modifyBytes iD
          (options.access.reserved dataReserve)) := by
  intro idx dat
  let opened := (d.modifyBytes iI (options.access.reserved indexReserve)).modifyBytes iD
    (options.access.reserved dataReserve)
  have bytesI : opened.bytesOf iI = idx := by
    rw [Disk.bytesOf_modifyBytes_other apart, Disk.bytesOf_modifyBytes_self hI]
  have bytesD : opened.bytesOf iD = dat := by
    rw [Disk.bytesOf_modifyBytes_self (by simpa using hD),
      Disk.bytesOf_modifyBytes_other (Ne.symm apart)]
  have validI : (Region.opened options.access iI idx.size).Valid opened := by
    rw [← bytesI]
    exact Region.valid_opened (by simpa [opened] using hI)
  have validD : (Region.opened options.access iD dat.size).Valid opened := by
    rw [← bytesD]
    exact Region.valid_opened (by simpa [opened] using hD)
  have grown : Grown (d.bytesOf iI) idx := Access.grown_reserved
  have longIdx : headerSize ≤ idx.size := Nat.le_trans long grown.size
  obtain ⟨kept, longest, load⟩ := @loadOffsets_longest opened
    { dir, options, header := h, offsets := #[], tombstones := 0,
      index := Region.opened options.access iI idx.size,
      data := Region.opened options.access iD dat.size } iI validI validD Region.inode_opened
    (by simp only [Region.bytes_opened, bytesI]; exact longIdx)
  simp only [Region.bytes_opened, bytesI, bytesD] at longest load
  let cut : Header := { h with recordCount := kept.size, dataEnd := min h.dataEnd dat.size }
  have fits : cut.Fits := by
    have fitsH := Header.fits_of_decode header
    have capped := longest.kept.capped
    rw [Array.length_toList] at capped
    exact ⟨fitsH.version, by have := fitsH.recordCount; simp only [cut]; omega,
      by have := fitsH.dataEnd; simp only [cut]; omega⟩
  have reopens : Reopens d (if kept.size = h.recordCount ∧ min h.dataEnd dat.size = h.dataEnd
      then opened else opened.modifyBytes iI (Bytes.overwrite · 0 cut.encode))
      iI iD idx dat cut := by
    have nodes : opened.nodes = d.nodes := rfl
    have size : opened.contents.size = d.contents.size := by simp [opened]
    by_cases same : kept.size = h.recordCount ∧ min h.dataEnd dat.size = h.dataEnd
    · have uncut : cut = h := by simp only [cut, same.1, same.2]
      rw [if_pos same, uncut]
      exact Reopens.extended nodes size bytesI bytesD (by rw [grown.extract long]; exact header)
    · rw [if_neg same]
      exact Reopens.rewritten nodes size bytesI bytesD apart (by rw [size]; exact hI) longIdx fits
  refine ⟨kept, _, longest, ?_, reopens, fun uncut => ?_⟩
  · refine @openIn_of_load d dir options iI iD chain index data apart hI hD long h header
      ⟨_, foundLog _ dir options iI iD cut kept⟩ ?_
    simp only [idx, dat, opened] at load
    rw [foundLog, reopens.indexSize, reopens.data]
    simp only [bind, EStateM.bind, load, countTombstones, modify, modifyGet,
      MonadStateOf.modifyGet, EStateM.modifyGet]
    rfl
  · have same : kept.size = h.recordCount ∧ min h.dataEnd dat.size = h.dataEnd :=
      ⟨congrArg Header.recordCount uncut, congrArg Header.dataEnd uncut⟩
    simp only [if_pos same, opened]

/-- Every offset slot reads the same from two indexes that agree past their headers. -/
theorem storedOffset_congr {idx idx' : ByteArray}
    (same : ∀ j, headerSize ≤ j → idx'[j]? = idx[j]?)
    : storedOffset idx' = storedOffset idx :=
  funext fun k => Bytes.readLE_congr fun j _ => same _ (by simp [IdentityLog.offsetSlot]; omega)

/-- A file as long as one opening extended is extended already. -/
theorem Access.reserved_of_size {a : Access} {reserve : Nat} {b b' : ByteArray}
    (size : b'.size = (a.reserved reserve b).size) : a.reserved reserve b' = b' := by
  cases a with
  | mapped =>
      by_cases short : b.size < reserve
      · simp only [reserved, if_pos short, Bytes.size_resize] at size
        simp [reserved, size]
      · simp only [reserved, if_neg short] at size
        simp only [reserved, size, if_neg short]
  | file => rfl

-----------------------------------------------------------------------------------------
-- What the kept records read
-----------------------------------------------------------------------------------------

/-- Every record of a log whose offsets are a kept run, bounded by the log's data end, spans a
nonempty range that ends by the data end. -/
theorem recordRange_of_kept {l : IdentityLog} {offset : Nat → Nat} {cap : Nat}
    (run : KeptRun offset cap l.header.dataEnd l.size)
    (stored : l.offsets.toList = (List.range l.size).map offset) {i : Nat} (lt : i < l.size)
    : ∃ start stop, l.recordRange i = .ok (start, stop) ∧ start < stop ∧
        stop ≤ l.header.dataEnd := by
  have slot : ∀ k, k < l.size → l.offsets[k]? = some (offset k) := fun k hk => by
    rw [← Array.getElem?_toList, stored, List.getElem?_map, List.getElem?_range hk]
    rfl
  by_cases last : i + 1 < l.size
  · refine ⟨_, _, ?_, run.rising i last, Nat.le_of_lt (run.below _ last)⟩
    rw [IdentityLog.recordRange, slot i lt, slot (i + 1) last]
    rfl
  · have beyond : l.offsets[i + 1]? = none :=
      Array.getElem?_eq_none (by simp only [IdentityLog.size] at last; omega)
    refine ⟨_, _, ?_, run.below i lt, Nat.le_refl _⟩
    rw [IdentityLog.recordRange, slot i lt, beyond]
    rfl

/-- A record whose range lies inside the data file reads as those bytes. -/
theorem read_of_recordRange {l : IdentityLog} {d : Disk} {i start stop : Nat}
    (valid : l.data.Valid d) (range : l.recordRange i = .ok (start, stop)) (le : start ≤ stop)
    (within : stop ≤ (l.data.bytes d).size)
    : l.read d i = .ok ((l.data.bytes d).extract start stop) := by
  have read := Region.read_of_valid valid (show start + (stop - start) ≤ _ by omega)
  rw [Nat.add_sub_cancel' le] at read
  simp only [IdentityLog.read, range, bind, Except.bind, read]
  rfl

/-- A log whose every record reads as nonempty bytes lists each record as what it reads. -/
theorem records_of_reads {l : IdentityLog} {d : Disk}
    (reads : ∀ i, i < l.size → ∃ bytes, l.read d i = .ok bytes ∧ 0 < bytes.size)
    : ∀ p ∈ l.records d, l.read d p.1 = .ok p.2 ∧ 0 < p.2.size := by
  intro p mem
  obtain ⟨i, lt, rfl⟩ := List.mem_map.mp mem
  obtain ⟨bytes, read, nonempty⟩ := reads i (List.mem_range.mp lt)
  simp only [read, true_and]
  exact nonempty

/-- What opening makes of index bytes `idx` and data bytes `dat` whose header reads as `h`, with
the files left as `d`. The offsets are the longest run opening keeps: within the header's count
and the index's slots, from 0, rising, and below `min h.dataEnd dat.size`. The header is cut to
that run and that data end. Every record spans a nonempty range inside the data file and reads
as it, so listing the records never falls back to an empty one. -/
structure Repaired (idx dat : ByteArray) (h : Header) (d : Disk) (l : IdentityLog) : Prop where
  offsets : LongestRun (storedOffset idx) (min h.recordCount ((idx.size - headerSize) / 8))
    (min h.dataEnd dat.size) l.offsets.toList
  header : l.header = { h with recordCount := l.size, dataEnd := min h.dataEnd dat.size }
  ranges : ∀ i, i < l.size → ∃ start stop, l.recordRange i = .ok (start, stop) ∧
    start < stop ∧ stop ≤ dat.size ∧ l.read d i = .ok (dat.extract start stop)
  records : ∀ p ∈ l.records d, l.read d p.1 = .ok p.2 ∧ 0 < p.2.size

/-- The log opening builds on the longest kept run is repaired. -/
theorem repaired_foundLog {d : Disk} {dir : String} {options : Options} {iI iD : Nat}
    {idx dat : ByteArray} {h : Header} {kept : Array Nat}
    (longest : LongestRun (storedOffset idx) (min h.recordCount ((idx.size - headerSize) / 8))
      (min h.dataEnd dat.size) kept.toList)
    (hD : iD < d.contents.size) (bytesD : d.bytesOf iD = dat)
    : Repaired idx dat h d (foundLog d dir options iI iD
        { h with recordCount := kept.size, dataEnd := min h.dataEnd dat.size } kept) := by
  set l := foundLog d dir options iI iD
    { h with recordCount := kept.size, dataEnd := min h.dataEnd dat.size } kept
  have size : l.size = kept.size := rfl
  have valid : l.data.Valid d := Region.valid_opened hD
  have dataBytes : l.data.bytes d = dat := by rw [← bytesD]; exact Region.bytes_opened
  have run : KeptRun (storedOffset idx) (min h.recordCount ((idx.size - headerSize) / 8))
      l.header.dataEnd l.size := by
    rw [size, ← Array.length_toList]
    exact longest.kept
  have stored : l.offsets.toList = (List.range l.size).map (storedOffset idx) := by
    rw [size, ← Array.length_toList]
    exact longest.stored
  have ranges : ∀ i, i < l.size → ∃ start stop, l.recordRange i = .ok (start, stop) ∧
      start < stop ∧ stop ≤ dat.size ∧ l.read d i = .ok (dat.extract start stop) := by
    intro i lt
    obtain ⟨start, stop, range, rises, below⟩ := recordRange_of_kept run stored lt
    have inside : stop ≤ dat.size := Nat.le_trans below (Nat.min_le_right _ _)
    refine ⟨start, stop, range, rises, inside, ?_⟩
    rw [read_of_recordRange valid range (Nat.le_of_lt rises) (by rw [dataBytes]; exact inside),
      dataBytes]
  refine ⟨longest, rfl, ranges, records_of_reads fun i lt => ?_⟩
  obtain ⟨start, stop, -, rises, inside, read⟩ := ranges i lt
  exact ⟨_, read, by simp only [ByteArray.size_extract]; omega⟩

-----------------------------------------------------------------------------------------
-- Opening again
-----------------------------------------------------------------------------------------

/-- Opening a directory whose files opening has extended already, whose header counts exactly
a kept run of the stored offsets that fits the index, and whose data end lies inside the data
file, finds that run under that header again and changes nothing. -/
theorem openIn_settled {d : Disk} {dir : String} {options : Options} {iI iD : Nat}
    (chain : Disk.DirChain d (components dir))
    (index : d.node? (components dir ++ [indexFile]) = some (.file iI))
    (data : d.node? (components dir ++ [dataFile]) = some (.file iD))
    (apart : iI ≠ iD) (hI : iI < d.contents.size) (hD : iD < d.contents.size)
    (long : headerSize ≤ (d.bytesOf iI).size) {h : Header}
    (header : Header.decode ((d.bytesOf iI).extract 0 headerSize) = .ok h)
    (fixedI : options.access.reserved indexReserve (d.bytesOf iI) = d.bytesOf iI)
    (fixedD : options.access.reserved dataReserve (d.bytesOf iD) = d.bytesOf iD)
    {kept : Array Nat} (run : KeptRun (storedOffset (d.bytesOf iI)) kept.size h.dataEnd kept.size)
    (stored : kept.toList = (List.range kept.size).map (storedOffset (d.bytesOf iI)))
    (count : h.recordCount = kept.size) (slots : headerSize + kept.size * 8 ≤ (d.bytesOf iI).size)
    (within : h.dataEnd ≤ (d.bytesOf iD).size)
    : IdentityLog.openIn dir options d = .ok (foundLog d dir options iI iD h kept) d := by
  obtain ⟨again, d', longest, opened, -, unchanged⟩ :=
    @openIn_loaded d dir options iI iD chain index data apart hI hD long h header
  simp only [fixedI, fixedD] at longest opened unchanged
  -- the count and the data end are inside the files, so no clamp cuts them
  have cap : min h.recordCount (((d.bytesOf iI).size - headerSize) / 8) = kept.size := by
    rw [count]
    exact Nat.min_eq_left ((Nat.le_div_iff_mul_le (by decide)).mpr (by omega))
  have dataEnd : min h.dataEnd (d.bytesOf iD).size = h.dataEnd := Nat.min_eq_left within
  rw [cap, dataEnd] at longest
  have same : again = kept := by
    have whole : LongestRun (storedOffset (d.bytesOf iI)) kept.size h.dataEnd kept.toList := by
      rw [stored]
      exact LongestRun.of_cap run
    exact Array.toList_inj.mp (longest.unique whole)
  subst same
  have uncut : ({ h with recordCount := again.size, dataEnd := h.dataEnd } : Header) = h := by
    rw [← count]
  rw [dataEnd, uncut] at opened
  rw [dataEnd] at unchanged
  rw [unchanged uncut, Disk.modifyBytes_of_fixed fixedI, Disk.modifyBytes_of_fixed fixedD] at opened
  exact opened

/-- Opening repairs any files whose index starts with a header that reads, and settles them.
The index and data bytes are as opening finds them, a mapping having extended them to their
reserve. Opening keeps exactly the longest run of stored offsets that starts at 0, rises
strictly, stays below the smaller of the header's data end and the data file's length, and fits
both the header's count and the index file. It cuts the header's count and data end to that run
and that bound, every record it keeps spans a nonempty range of the data file and reads back,
and opening the files it leaves once more gives the same log and writes nothing. -/
theorem openIn_repairs {d : Disk} {dir : String} {options : Options} {iI iD : Nat}
    (chain : Disk.DirChain d (components dir))
    (index : d.node? (components dir ++ [indexFile]) = some (.file iI))
    (data : d.node? (components dir ++ [dataFile]) = some (.file iD))
    (apart : iI ≠ iD) (hI : iI < d.contents.size) (hD : iD < d.contents.size)
    (long : headerSize ≤ (d.bytesOf iI).size) {h : Header}
    (header : Header.decode ((d.bytesOf iI).extract 0 headerSize) = .ok h)
    : ∃ l d', IdentityLog.openIn dir options d = .ok l d' ∧
        Repaired (options.access.reserved indexReserve (d.bytesOf iI))
          (options.access.reserved dataReserve (d.bytesOf iD)) h d' l ∧
        IdentityLog.openIn dir options d' = .ok l d' := by
  obtain ⟨kept, d', longest, opened, files, -⟩ :=
    @openIn_loaded d dir options iI iD chain index data apart hI hD long h header
  refine ⟨_, d', opened, repaired_foundLog longest (files.size ▸ hD) files.data, ?_⟩
  have sameNodes : ∀ q, d'.node? q = d.node? q := Disk.node?_congr files.nodes
  have offsets := storedOffset_congr files.slots
  have capped := longest.kept.capped
  rw [Array.length_toList] at capped
  have fits : kept.size ≤ ((options.access.reserved indexReserve (d.bytesOf iI)).size -
      headerSize) / 8 := Nat.le_trans capped (Nat.min_le_right _ _)
  have slots : headerSize + kept.size * 8 ≤ (d'.bytesOf iI).size := by
    rw [files.indexSize]
    have := (Nat.le_div_iff_mul_le (by decide)).mp fits
    have grown : Grown (d.bytesOf iI) (options.access.reserved indexReserve (d.bytesOf iI)) :=
      Access.grown_reserved
    have := grown.size
    omega
  refine openIn_settled (DirChain.keep chain fun q _ => sameNodes q)
    (by rw [sameNodes]; exact index) (by rw [sameNodes]; exact data) apart (files.size ▸ hI)
    (files.size ▸ hD) (by omega) files.header
    (Access.reserved_of_size files.indexSize)
    (by rw [files.data]; exact Access.reserved_reserved) ?_ ?_ rfl slots
    (by rw [files.data]; exact Nat.min_le_right _ _)
  · rw [offsets]
    exact ⟨Nat.le_refl _, fun pos => longest.kept.first (by simpa using pos),
      fun k hk => longest.kept.rising k (by simpa using hk),
      fun k hk => longest.kept.below k (by simpa using hk)⟩
  · rw [offsets]
    simpa using longest.stored

/-- The directory `ids` whose index header counts one record of 29 bytes that neither the index
nor the empty data file holds. -/
def staleIds : Disk :=
  { nodes := [(["ids"], .dir), (["ids", indexFile], .file 0), (["ids", dataFile], .file 1)],
    contents := #[({ Header.fresh with recordCount := 1, dataEnd := 29 } : Header).encode,
      ByteArray.empty] }

/-- Opening `ids` repairs its stale header and settles. -/
theorem openIn_repairs_stale
    : ∃ l d', IdentityLog.openIn "ids" {} staleIds = .ok l d' ∧
        Repaired (Access.mapped.reserved indexReserve (staleIds.bytesOf 0))
          (Access.mapped.reserved dataReserve (staleIds.bytesOf 1))
          { Header.fresh with recordCount := 1, dataEnd := 29 } d' l ∧
        IdentityLog.openIn "ids" {} d' = .ok l d' := by
  have bytes : staleIds.bytesOf 0 =
      ({ Header.fresh with recordCount := 1, dataEnd := 29 } : Header).encode := rfl
  have chain : Disk.DirChain staleIds (components "ids") := by
    unfold Disk.DirChain
    decide
  refine openIn_repairs chain (by decide) (by decide) (by decide) (by decide) (by decide)
    (Nat.le_of_eq (by rw [bytes, Header.size_encode])) ?_
  rw [bytes, ← Header.size_encode, ByteArray.extract_zero_size]
  exact Header.decode_encode ⟨by decide, by decide, by decide⟩

end MetricRegistry.Log
