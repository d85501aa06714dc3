import MetricRegistry.Proofs.Bytes
import MetricRegistry.Log.Region

/-! The file system as the log reaches it: joined paths, chains of directories, and writes and
length changes described byte by byte on one inode. -/

namespace MetricRegistry.Disk

-----------------------------------------------------------------------------------------
-- Paths
-----------------------------------------------------------------------------------------

/-- A name that is one path component: no separator, neither empty nor `.`. -/
structure PlainName (name : String) : Prop where
  noSeparator : '/' ∉ name.toList
  nonempty : name ≠ ""
  notDot : name ≠ "."

theorem components_empty : components "" = [] := by decide

theorem components_plain {name : String} (plain : PlainName name) : components name = [name] := by
  have whole : name.toList.splitOn '/' = [name.toList] :=
    List.splitOnP_eq_singleton fun x mem => by
      simp only [beq_eq_false_iff_ne, ne_eq]
      rintro rfl
      exact plain.noSeparator mem
  simp [components, whole, String.ofList_toList, plain.nonempty, plain.notDot]

/-- Joining a plain name adds one component. -/
theorem components_join (dir : String) {name : String} (plain : PlainName name)
    : components (join dir name) = components dir ++ [name] := by
  have whole : name.toList.splitOn '/' = [name.toList] :=
    List.splitOnP_eq_singleton fun x mem => by
      simp only [beq_eq_false_iff_ne, ne_eq]
      rintro rfl
      exact plain.noSeparator mem
  have keep : ((name.toList.splitOn '/').map String.ofList).filter
      (fun c => c != "" && c != ".") = [name] := by
    simp [whole, String.ofList_toList, plain.nonempty, plain.notDot]
  unfold join
  split
  · rename_i empty
    rw [String.isEmpty_iff.mp empty, components_empty, components_plain plain]
    rfl
  · split
    · rename_i _ last
      obtain ⟨front, front_eq⟩ := List.getLast?_eq_some_iff.mp last
      have joined : (dir ++ name).toList = front ++ '/' :: name.toList := by
        rw [String.toList_append, front_eq, List.append_assoc, List.singleton_append]
      have dirSplit : dir.toList.splitOn '/' = front.splitOn '/' ++ [[]] := by
        rw [front_eq, List.splitOn_append_cons_self]
        rfl
      simp only [components, joined, dirSplit, List.splitOn_append_cons_self, List.map_append,
        List.filter_append]
      rw [keep]
      simp
    · have slash : "/".toList = ['/'] := by decide
      simp only [components, String.toList_append, List.append_assoc, slash, List.singleton_append,
        List.splitOn_append_cons_self, List.map_append, List.filter_append]
      rw [keep]

-----------------------------------------------------------------------------------------
-- Directory chains
-----------------------------------------------------------------------------------------


/-- The non-empty prefixes of a component list, shortest first: every directory a path passes
through, the path itself last. -/
def prefixes (p : List String) : List (List String) :=
  (List.range p.length).map fun i => p.take (i + 1)

theorem prefixes_nil : prefixes [] = [] := rfl

theorem prefixes_concat (p : List String) (x : String)
    : prefixes (p ++ [x]) = prefixes p ++ [p ++ [x]] := by
  simp only [prefixes, List.length_append, List.length_singleton, List.range_succ, List.map_append,
    List.map_singleton]
  congr 1
  · exact List.map_congr_left fun i hi =>
      List.take_append_of_le_length (by have := List.mem_range.mp hi; omega)
  · rw [show p.length + 1 = (p ++ [x]).length by simp, List.take_length]

theorem ancestors_concat (p : List String) (x : String) : ancestors (p ++ [x]) = prefixes p := by
  simp only [ancestors, prefixes, List.length_append, List.length_singleton, Nat.add_sub_cancel]
  exact List.map_congr_left fun i hi =>
    List.take_append_of_le_length (by have := List.mem_range.mp hi; omega)

/-- A path of non-empty prefixes: its ancestors, then itself. -/
theorem ancestors_append_self {p : List String} (ne : p ≠ [])
    : ancestors p ++ [p] = prefixes p := by
  obtain ⟨front, x, rfl⟩ := List.eq_nil_or_concat p |>.resolve_left ne
  rw [List.concat_eq_append, ancestors_concat, prefixes_concat]

/-- Every directory on the way to `p`, and `p` itself, is a directory. -/
def DirChain (d : Disk) (p : List String) : Prop := ∀ q ∈ prefixes p, d.node? q = some .dir

variable {d : Disk}

/-- A path whose ancestors are all directories resolves to its node. -/
theorem resolve_of_dirs {p : List String} (dirs : ∀ q ∈ ancestors p, d.node? q = some .dir)
    : d.resolve p = .ok (d.node? p) := by
  unfold resolve
  generalize ancestors p = chain at dirs ⊢
  induction chain with
  | nil => rfl
  | cons a rest ih =>
      simp only [List.forIn_cons, dirs a List.mem_cons_self]
      exact ih fun q hq => dirs q (List.mem_cons_of_mem a hq)

theorem lookup_filter_ne (nodes : List (List String × Node)) (p q : List String)
    : (nodes.filter (·.1 != p)).lookup q = if q = p then none else nodes.lookup q := by
  induction nodes with
  | nil => simp
  | cons e rest ih =>
      obtain ⟨k, v⟩ := e
      by_cases kp : k = p
      · subst kp
        by_cases qk : q = k
        · simp [qk] at ih ⊢
          exact ih
        · simp [List.lookup_cons, qk, ih, beq_eq_false_iff_ne.mpr qk]
      · by_cases qk : q = k
        · subst qk
          simp [kp]
        · simp [List.lookup_cons, kp, ih, beq_eq_false_iff_ne.mpr qk]

theorem node?_setNode {p q : List String} (n : Node) (hq : q ≠ [])
    : (d.setNode p n).node? q = if q = p then some n else d.node? q := by
  simp only [node?, setNode, List.isEmpty_iff, hq, if_false]
  by_cases qp : q = p
  · simp [qp]
  · simp [List.lookup_cons, qp, lookup_filter_ne, beq_eq_false_iff_ne.mpr qp]

theorem node?_congr {d' : Disk} (same : d'.nodes = d.nodes) (q : List String)
    : d'.node? q = d.node? q := by
  simp only [node?, same]

theorem node?_unlink {p q : List String} (hq : q ≠ [])
    : ({ d with nodes := d.nodes.filter (·.1 != p) } : Disk).node? q =
        if q = p then none else d.node? q := by
  simp only [node?, List.isEmpty_iff, hq, if_false, lookup_filter_ne]

theorem ne_nil_of_mem_prefixes {p q : List String} (hq : q ∈ prefixes p) : q ≠ [] := by
  obtain ⟨i, hi, rfl⟩ := List.mem_map.mp hq
  have := List.mem_range.mp hi
  cases p with
  | nil => simp at this
  | cons x rest => simp

theorem length_le_of_mem_prefixes {p q : List String} (hq : q ∈ prefixes p) : q.length ≤ p.length := by
  obtain ⟨i, hi, rfl⟩ := List.mem_map.mp hq
  simp only [List.length_take]
  omega

theorem node?_of_chain {p : List String} (chain : DirChain d p) : d.node? p = some .dir := by
  cases p with
  | nil => rfl
  | cons x rest =>
      apply chain
      rw [← ancestors_append_self (List.cons_ne_nil x rest)]
      exact List.mem_append_right _ (List.mem_singleton_self _)

/-- Making directories that are all there already changes nothing. -/
theorem createDirChain_dirs {ps : List (List String)} (dirs : ∀ q ∈ ps, d.node? q = some .dir)
    : d.createDirChain ps = .ok d := by
  induction ps with
  | nil => rfl
  | cons p rest ih =>
      simp only [createDirChain, dirs p List.mem_cons_self]
      exact ih fun q hq => dirs q (List.mem_cons_of_mem p hq)

theorem createDirChain_append {xs ys : List (List String)} {d1 : Disk}
    (h : d.createDirChain xs = .ok d1) : d.createDirChain (xs ++ ys) = d1.createDirChain ys := by
  induction xs generalizing d with
  | nil => cases h; rfl
  | cons p rest ih =>
      simp only [createDirChain, List.cons_append] at h ⊢
      cases hp : d.node? p with
      | none =>
          rw [hp] at h
          simp only at h ⊢
          cases hc : d.createDir p with
          | error e => rw [hc] at h; cases h
          | ok d2 =>
              rw [hc] at h
              exact ih h
      | some n =>
          cases n with
          | dir => rw [hp] at h; exact ih h
          | file i => rw [hp] at h; cases h

/-- Making one directory whose parent chain is there adds it and nothing else. -/
theorem createDir_child {p : List String} {x : String} (chain : DirChain d p)
    (absent : d.node? (p ++ [x]) = none)
    : d.createDir (p ++ [x]) = .ok (d.setNode (p ++ [x]) .dir) := by
  have resolved : d.resolve (p ++ [x]) = .ok none := by
    rw [resolve_of_dirs (by rw [ancestors_concat]; exact chain), absent]
  simp only [createDir, bind, Except.bind, resolved, List.dropLast_concat, node?_of_chain chain,
    pure, Except.pure]

/-- Making the directories of `p` succeeds where none of them is a file; afterwards they are all
directories, and nothing else changed. -/
theorem createDirChain_prefixes {p : List String}
    (noFile : ∀ q ∈ prefixes p, ∀ i, d.node? q ≠ some (.file i))
    : ∃ d', d.createDirChain (prefixes p) = .ok d' ∧ DirChain d' p ∧ d'.contents = d.contents ∧
        ∀ q, q ∉ prefixes p → d'.node? q = d.node? q := by
  induction p using List.reverseRecOn with
  | nil => exact ⟨d, rfl, fun q hq => by simp [prefixes] at hq, rfl, fun _ _ => rfl⟩
  | append_singleton front x ih =>
      rw [prefixes_concat] at noFile ⊢
      obtain ⟨d1, made, chain, contents, others⟩ :=
        ih fun q hq => noFile q (List.mem_append_left _ hq)
      rw [createDirChain_append made]
      have fresh : front ++ [x] ∉ prefixes front := fun mem => by
        have := length_le_of_mem_prefixes mem
        simp only [List.length_append, List.length_singleton] at this
        omega
      have kept := others (front ++ [x]) fresh
      have noFileHere := noFile (front ++ [x]) (List.mem_append_right _ (List.mem_singleton_self _))
      have outside : ∀ q, q ∉ prefixes front ++ [front ++ [x]] → q ≠ front ++ [x] ∧
          q ∉ prefixes front := fun q hq => ⟨fun eq => hq (by simp [eq]),
            fun mem => hq (List.mem_append_left _ mem)⟩
      cases here : d1.node? (front ++ [x]) with
      | none =>
          refine ⟨d1.setNode (front ++ [x]) .dir, ?_, fun q hq => ?_, contents, fun q hq => ?_⟩
          · simp only [createDirChain, here, createDir_child chain here, bind, Except.bind]
          · have nonempty := ne_nil_of_mem_prefixes hq
            rw [prefixes_concat] at hq
            rw [node?_setNode _ nonempty]
            split
            · rfl
            · rcases List.mem_append.mp hq with old | last
              · exact chain q old
              · rename_i ne
                exact absurd (List.mem_singleton.mp last) ne
          · obtain ⟨ne, notOld⟩ := outside q hq
            by_cases root : q = []
            · subst root
              rfl
            · rw [node?_setNode _ root, if_neg ne, others q notOld]
      | some n =>
          cases n with
          | dir =>
              refine ⟨d1, by simp only [createDirChain, here], fun q hq => ?_, contents,
                fun q hq => others q (outside q hq).2⟩
              rw [prefixes_concat] at hq
              rcases List.mem_append.mp hq with old | last
              · exact chain q old
              · rw [List.mem_singleton.mp last, here]
          | file i => exact absurd (kept ▸ here) (noFileHere i)

theorem prefixes_components_eq (path : String)
    : ancestors (components path) ++
        (if (components path).isEmpty then [] else [components path]) =
      prefixes (components path) := by
  by_cases empty : components path = []
  · rw [empty]
    rfl
  · rw [if_neg (by simpa using empty), ancestors_append_self empty]

/-- Making a directory and its ancestors succeeds where none of them is a file; afterwards they
are all directories, and nothing else changed. -/
theorem createDirAll_ok {path : String}
    (noFile : ∀ q ∈ prefixes (components path), ∀ i, d.node? q ≠ some (.file i))
    : ∃ d', d.createDirAll path = .ok d' ∧ DirChain d' (components path) ∧
        d'.contents = d.contents ∧
        ∀ q, q ∉ prefixes (components path) → d'.node? q = d.node? q := by
  rw [createDirAll, prefixes_components_eq]
  exact createDirChain_prefixes noFile

/-- Making a directory that is there with its ancestors changes nothing. -/
theorem createDirAll_chain {path : String} (chain : DirChain d (components path))
    : d.createDirAll path = .ok d := by
  rw [createDirAll, prefixes_components_eq]
  exact createDirChain_dirs chain


/-- A file system made of one directory holds that directory's chain and nothing else, and no
inode yet. -/
theorem withDir_spec (dir : String)
    : Disk.DirChain (Disk.withDir dir) (components dir) ∧ (Disk.withDir dir).contents = #[] ∧
        ∀ q, q ≠ [] → q ∉ Disk.prefixes (components dir) → (Disk.withDir dir).node? q = none := by
  have empty : ∀ q, q ≠ [] → ({} : Disk).node? q = none := fun q hq => by
    simp [Disk.node?, hq]
  obtain ⟨d, made, chain, contents, others⟩ := @Disk.createDirAll_ok {} dir
    fun q hq i => by rw [empty q (Disk.ne_nil_of_mem_prefixes hq)]; simp
  simp only [Disk.withDir, made]
  exact ⟨chain, contents, fun q hq out => (others q out).trans (empty q hq)⟩

-----------------------------------------------------------------------------------------
-- Files in a directory
-----------------------------------------------------------------------------------------


variable {d : Disk}

variable {P : List String} {path name : String}

/-- A file that is not there yet, in a directory that is, is made as a new empty inode. -/
theorem openFile_new (chain : DirChain d P) (comps : components path = P ++ [name])
    (absent : d.node? (P ++ [name]) = none) (truncate : Bool)
    : d.openFile path true truncate =
        .ok (d.contents.size, { d.setNode (P ++ [name]) (.file d.contents.size) with
                                contents := d.contents.push ByteArray.empty }) := by
  have resolved : d.resolve (P ++ [name]) = .ok none := by
    rw [resolve_of_dirs (by rw [ancestors_concat]; exact chain), absent]
  simp only [openFile, comps, bind, Except.bind, resolved, List.dropLast_concat,
    node?_of_chain chain, Bool.not_true, Bool.false_eq_true, if_false, pure, Except.pure]

/-- A file that is there is opened on its inode, emptied when asked. -/
theorem openFile_file {i : Nat} (chain : DirChain d P) (comps : components path = P ++ [name])
    (file : d.node? (P ++ [name]) = some (.file i)) (create truncate : Bool)
    : d.openFile path create truncate =
        .ok (i, if truncate then { d with contents := d.contents.set! i ByteArray.empty } else d) := by
  have resolved : d.resolve (P ++ [name]) = .ok (some (.file i)) := by
    rw [resolve_of_dirs (by rw [ancestors_concat]; exact chain), file]
  cases truncate <;>
    simp only [openFile, comps, bind, Except.bind, resolved, pure, Except.pure, if_true,
      if_false, Bool.false_eq_true]

/-- Resolving a name in a directory that is there finds what the name names. -/
theorem resolve_child (chain : DirChain d P) (x : String)
    : d.resolve (P ++ [x]) = .ok (d.node? (P ++ [x])) :=
  resolve_of_dirs (by rw [ancestors_concat]; exact chain)

/-- Removing a file's name drops that name only. -/
theorem removeFile_file {i : Nat} (chain : DirChain d P) (comps : components path = P ++ [name])
    (file : d.node? (P ++ [name]) = some (.file i))
    : d.removeFile path = .ok { d with nodes := d.nodes.filter (·.1 != P ++ [name]) } := by
  simp only [removeFile, comps, bind, Except.bind, resolve_child chain, file, pure, Except.pure]

theorem removeFileIfExists_file {i : Nat} (chain : DirChain d P)
    (comps : components path = P ++ [name]) (file : d.node? (P ++ [name]) = some (.file i))
    : d.removeFileIfExists path = .ok { d with nodes := d.nodes.filter (·.1 != P ++ [name]) } := by
  simp only [removeFileIfExists, removeFile_file chain comps file]

theorem removeFileIfExists_absent (chain : DirChain d P) (comps : components path = P ++ [name])
    (absent : d.node? (P ++ [name]) = none) : d.removeFileIfExists path = .ok d := by
  simp only [removeFileIfExists, removeFile, comps, bind, Except.bind, resolve_child chain, absent]
  rfl

theorem exists_of_node {n : Node} (chain : DirChain d P) (comps : components path = P ++ [name])
    (there : d.node? (P ++ [name]) = some n) : d.exists_ path = true := by
  simp only [exists_, stat, comps, bind, Except.bind, resolve_child chain, there, pure,
    Except.pure]

theorem exists_absent (chain : DirChain d P) (comps : components path = P ++ [name])
    (absent : d.node? (P ++ [name]) = none) : d.exists_ path = false := by
  simp only [exists_, stat, comps, bind, Except.bind, resolve_child chain, absent]
  rfl

theorem lengthOrZero_file {i : Nat} (chain : DirChain d P) (comps : components path = P ++ [name])
    (file : d.node? (P ++ [name]) = some (.file i)) : d.lengthOrZero path = .ok (d.bytesOf i).size := by
  simp only [lengthOrZero, length, stat, comps, bind, Except.bind, resolve_child chain, file, pure,
    Except.pure]

theorem lengthOrZero_absent (chain : DirChain d P) (comps : components path = P ++ [name])
    (absent : d.node? (P ++ [name]) = none) : d.lengthOrZero path = .ok 0 := by
  simp only [lengthOrZero, length, stat, comps, bind, Except.bind, resolve_child chain, absent]
  rfl

/-- Writing an empty file where there is none makes it, as a new inode. -/
theorem writeFile_new (chain : DirChain d P) (comps : components path = P ++ [name])
    (absent : d.node? (P ++ [name]) = none)
    : d.writeFile path ByteArray.empty =
        .ok { d.setNode (P ++ [name]) (.file d.contents.size) with
              contents := d.contents.push ByteArray.empty } := by
  simp only [writeFile, openFile_new chain comps absent, bind, Except.bind, pure, Except.pure]
  rfl

/-- Removing a directory removes every name below it. -/
theorem removeDirAll_dir (chain : DirChain d P) (comps : components path = P ++ [name])
    (dir : d.node? (P ++ [name]) = some .dir)
    : d.removeDirAll path = .ok { d with nodes := d.nodes.filter fun (q, _) =>
        !(q.length ≥ (P ++ [name]).length && q.take (P ++ [name]).length == P ++ [name]) } := by
  simp only [removeDirAll, comps, bind, Except.bind, resolve_child chain, dir, pure, Except.pure]

theorem lookup_ne_none {nodes : List (List String × Node)} {q : List String}
    (mem : q ∈ nodes.map (·.1)) : nodes.lookup q ≠ none := by
  induction nodes with
  | nil => simp at mem
  | cons e rest ih =>
      obtain ⟨k, v⟩ := e
      by_cases qk : q = k
      · simp [qk]
      · have later : q ∈ rest.map (·.1) := by simpa [qk] using mem
        simpa [List.lookup_cons, beq_eq_false_iff_ne.mpr qk] using ih later

/-- A directory with nothing below it is removed, and only its name goes. -/
theorem removeDir_empty (chain : DirChain d P) (comps : components path = P ++ [name])
    (dir : d.node? (P ++ [name]) = some .dir)
    (empty : ∀ q, (P ++ [name]).length < q.length → q.take (P ++ [name]).length = P ++ [name] →
      d.node? q = none)
    : d.removeDir path = .ok { d with nodes := d.nodes.filter (·.1 != P ++ [name]) } := by
  have nothingBelow : d.below (P ++ [name]) = [] := by
    rw [below, List.filter_eq_nil_iff]
    intro q mem
    simp only [Bool.and_eq_true, decide_eq_true_eq, beq_iff_eq, not_and]
    intro longer under
    have none := empty q longer under
    simp only [node?, List.isEmpty_iff, List.ne_nil_of_length_pos (Nat.lt_of_le_of_lt
      (Nat.zero_le _) longer), if_false] at none
    exact lookup_ne_none mem none
  have named : (P ++ [name]).isEmpty = false := by simp
  simp only [removeDir, comps, bind, Except.bind, resolve_child chain, dir, nothingBelow, named,
    List.isEmpty_nil, Bool.not_true, Bool.false_eq_true, if_false, pure, Except.pure]


-----------------------------------------------------------------------------------------
-- One inode at a time
-----------------------------------------------------------------------------------------


variable {d : Disk} {i j : Nat} {f : ByteArray → ByteArray}

theorem bytesOf_modifyBytes_self (hi : i < d.contents.size)
    : (d.modifyBytes i f).bytesOf i = f (d.bytesOf i) := by
  simp [modifyBytes, bytesOf, Array.getElem?_modify, Array.getElem?_eq_getElem hi]

theorem bytesOf_modifyBytes_other (h : j ≠ i) : (d.modifyBytes i f).bytesOf j = d.bytesOf j := by
  simp [modifyBytes, bytesOf, Array.getElem?_modify, Ne.symm h]

@[simp] theorem size_modifyBytes : (d.modifyBytes i f).contents.size = d.contents.size :=
  Array.size_modify

@[simp] theorem nodes_modifyBytes : (d.modifyBytes i f).nodes = d.nodes := rfl


/-- `f'` is `f` with `patch` written at `pos`: the patch is in place, every other byte of `f`
is where it was, and nothing was cut. -/
structure Patched (f f' : ByteArray) (pos : Nat) (patch : ByteArray) : Prop where
  keepsSize : f.size ≤ f'.size
  covers : pos + patch.size ≤ f'.size
  inside : ∀ j, pos ≤ j → j < pos + patch.size → f'[j]? = patch[j - pos]?
  outside : ∀ j, j < f.size → (j < pos ∨ pos + patch.size ≤ j) → f'[j]? = f[j]?

theorem patched_overwrite (f : ByteArray) (pos : Nat) (patch : ByteArray)
    : Patched f (Bytes.overwrite f pos patch) pos patch := by
  refine ⟨?_, ?_, fun j lo hi => ?_, fun j hj away => ?_⟩
  · rw [Bytes.size_overwrite]; omega
  · rw [Bytes.size_overwrite]; omega
  · rw [Bytes.getElem?_overwrite, if_pos ⟨lo, hi⟩]
  · rw [Bytes.getElem?_overwrite, if_neg (by omega), if_pos hj]

/-- A file first grown with zeros and then written is patched the same way. -/
theorem patched_resize_overwrite {f : ByteArray} {len pos : Nat} {patch : ByteArray}
    (grows : f.size ≤ len) : Patched f (Bytes.overwrite (Bytes.resize f len) pos patch) pos patch := by
  have grown := patched_overwrite (Bytes.resize f len) pos patch
  refine ⟨?_, grown.covers, grown.inside, fun j hj away => ?_⟩
  · have := grown.keepsSize
    rw [Bytes.size_resize] at this
    omega
  · rw [grown.outside j (by rw [Bytes.size_resize]; omega) away, Bytes.getElem?_resize,
      if_pos (by omega), getElem?_pos f j hj, Option.getD_some]

/-- `f'` is `f` grown: every byte of `f` is where it was. -/
structure Grown (f f' : ByteArray) : Prop where
  size : f.size ≤ f'.size
  bytes : ∀ j, j < f.size → f'[j]? = f[j]?

theorem Grown.refl (f : ByteArray) : Grown f f := ⟨Nat.le_refl _, fun _ _ => rfl⟩

theorem Grown.extract {f f' : ByteArray} (g : Grown f f') {start stop : Nat} (h : stop ≤ f.size)
    : f'.extract start stop = f.extract start stop := by
  apply Bytes.ext_getElem?
  intro j
  rw [Bytes.getElem?_extract, Bytes.getElem?_extract]
  split
  · exact g.bytes _ (by omega)
  · rfl

theorem Grown.readLE {f f' : ByteArray} (g : Grown f f') {pos width : Nat}
    (h : pos + width ≤ f.size) : Bytes.readLE f' pos width = Bytes.readLE f pos width :=
  Bytes.readLE_congr fun j _ => g.bytes _ (by omega)

theorem grown_resize {f : ByteArray} {len : Nat} (le : f.size ≤ len) : Grown f (Bytes.resize f len) :=
  ⟨by rw [Bytes.size_resize]; exact le, fun j hj => by
    rw [Bytes.getElem?_resize, if_pos (by omega), getElem?_pos f j hj, Option.getD_some]⟩

namespace Patched

variable {f f' patch : ByteArray} {pos : Nat}

/-- A word away from the patch reads as before. -/
theorem readLE_outside (p : Patched f f' pos patch) {at_ width : Nat} (inFile : at_ + width ≤ f.size)
    (away : at_ + width ≤ pos ∨ pos + patch.size ≤ at_)
    : Bytes.readLE f' at_ width = Bytes.readLE f at_ width :=
  Bytes.readLE_congr fun j _ => p.outside _ (by omega) (by omega)

/-- A word inside the patch reads from the patch. -/
theorem readLE_inside (p : Patched f f' pos patch) {at_ width : Nat} (lo : pos ≤ at_)
    (hi : at_ + width ≤ pos + patch.size)
    : Bytes.readLE f' at_ width = Bytes.readLE patch (at_ - pos) width :=
  Bytes.readLE_congr fun j _ => by
    rw [p.inside _ (by omega) (by omega)]
    congr 1
    omega

/-- The patched range reads back as the patch. -/
theorem extract_patch (p : Patched f f' pos patch) : f'.extract pos (pos + patch.size) = patch := by
  apply Bytes.ext_getElem?
  intro j
  rw [Bytes.getElem?_extract]
  split
  · rw [p.inside _ (by omega) (by omega), Nat.add_sub_cancel_left]
  · rw [getElem?_neg patch j (by omega)]

end Patched

end MetricRegistry.Disk

namespace MetricRegistry.Log.Region

open Disk

-----------------------------------------------------------------------------------------
-- Log regions
-----------------------------------------------------------------------------------------

/-- The inode a region reaches; none for a closed one. -/
def inode : Region → Option Nat
  | .mapped i _ => some i
  | .positioned i => some i
  | .closed => none

/-- An open region on an existing inode, a mapping exactly as long as its file. -/
def Valid (r : Region) (d : Disk) : Prop :=
  match r with
  | .mapped i len => i < d.contents.size ∧ (d.bytesOf i).size = len
  | .positioned i => i < d.contents.size
  | .closed => False

/-- The bytes of the file behind a region. -/
def bytes (r : Region) (d : Disk) : ByteArray :=
  match r with
  | .mapped i _ | .positioned i => d.bytesOf i
  | .closed => ByteArray.empty

variable {r : Region} {d : Disk}

/-- An open region reaches an inode. -/
theorem isSome_inode (v : r.Valid d) : r.inode.isSome := by
  cases r with
  | mapped i len => rfl
  | positioned i => rfl
  | closed => exact absurd v id

theorem length_of_valid (v : r.Valid d) : r.length d = .ok (r.bytes d).size := by
  cases r with
  | mapped i len => simp only [length, bytes, v.2]
  | positioned i => rfl
  | closed => exact absurd v id

/-- Reading inside the file answers the file's bytes. -/
theorem read_of_valid (v : r.Valid d) {pos len : Nat} (within : pos + len ≤ (r.bytes d).size)
    : r.read d pos len = .ok ((r.bytes d).extract pos (pos + len)) := by
  cases r with
  | mapped i mapLen =>
      simp only [bytes] at within ⊢
      have exact : ((d.bytesOf i).extract pos (pos + len)).size = len := by
        rw [ByteArray.size_extract]
        omega
      rw [read, if_neg (by rw [← v.2]; omega)]
      congr 1
      apply Bytes.ext_getElem?
      intro j
      rw [Bytes.getElem?_resize]
      split
      · rw [getElem?_pos _ j (by omega), Option.getD_some]
      · rw [getElem?_neg _ j (by omega)]
  | positioned i =>
      simp only [bytes] at within ⊢
      rw [read, if_neg (by omega)]
  | closed => exact absurd v id

/-- A region stays open, and reads the same bytes, on a file system with no fewer inodes whose
inode behind it is unchanged. -/
theorem valid_of_same {d' : Disk} (v : r.Valid d) (size : d.contents.size ≤ d'.contents.size)
    (same : ∀ i, r.inode = some i → d'.bytesOf i = d.bytesOf i) : r.Valid d' := by
  cases r with
  | mapped i len => exact ⟨Nat.lt_of_lt_of_le v.1 size, (same i rfl).symm ▸ v.2⟩
  | positioned i => exact Nat.lt_of_lt_of_le (v : i < d.contents.size) size
  | closed => exact absurd v id

theorem bytes_of_same {d' : Disk} (same : ∀ i, r.inode = some i → d'.bytesOf i = d.bytesOf i)
    : r.bytes d' = r.bytes d := by
  cases r with
  | mapped i len => exact same i rfl
  | positioned i => exact same i rfl
  | closed => rfl

theorem writeAt_eq_modify {d : Disk} {i pos : Nat} {patch : ByteArray} (nonempty : 0 < patch.size)
    : d.writeAt i pos patch = d.modifyBytes i fun b => Bytes.overwrite b pos patch := by
  rw [Disk.writeAt, if_neg (by omega)]

/-- `r'` on `d'` is the region `r` on `d` after `patch` was written at `pos`: still open on the
same inode, with no name and no other inode changed, and its file patched. -/
structure Wrote (r : Region) (d : Disk) (pos : Nat) (patch : ByteArray) (r' : Region) (d' : Disk)
    : Prop where
  valid : r'.Valid d'
  inode : r'.inode = r.inode
  nodes : d'.nodes = d.nodes
  size : d'.contents.size = d.contents.size
  others : ∀ j, r.inode ≠ some j → d'.bytesOf j = d.bytesOf j
  patched : Patched (r.bytes d) (r'.bytes d') pos patch

/-- A write through an open region succeeds, stays on its inode, changes no name and no other
inode, and patches the file. -/
theorem write_of_valid (v : r.Valid d) (pos : Nat) {patch : ByteArray} (nonempty : 0 < patch.size)
    : ∃ r' d', r.write d pos patch = .ok (r', d') ∧ Wrote r d pos patch r' d' := by
  cases r with
  | mapped i len =>
      obtain ⟨hi, hlen⟩ := v
      by_cases past : pos + patch.size > len
      · refine ⟨.mapped i (max (pos + patch.size) (2 * len)),
          (d.setLen i (max (pos + patch.size) (2 * len))).writeAt i pos patch,
          by rw [write, if_pos past], ⟨⟨by simp [Disk.setLen, writeAt_eq_modify nonempty, hi], ?_⟩,
          rfl, by simp [Disk.setLen, writeAt_eq_modify nonempty],
          by simp [Disk.setLen, writeAt_eq_modify nonempty], fun j ne => ?_, ?_⟩⟩
        · rw [writeAt_eq_modify nonempty, Disk.bytesOf_modifyBytes_self (by simp [Disk.setLen, hi]),
            Disk.setLen, Disk.bytesOf_modifyBytes_self hi, Bytes.size_overwrite, Bytes.size_resize]
          omega
        · have ji : j ≠ i := fun same => ne (by rw [same]; rfl)
          rw [writeAt_eq_modify nonempty, Disk.bytesOf_modifyBytes_other ji, Disk.setLen,
            Disk.bytesOf_modifyBytes_other ji]
        · simp only [bytes]
          rw [writeAt_eq_modify nonempty, Disk.bytesOf_modifyBytes_self (by simp [Disk.setLen, hi]),
            Disk.setLen, Disk.bytesOf_modifyBytes_self hi]
          exact patched_resize_overwrite (by omega)
      · refine ⟨.mapped i len, d.writeAt i pos patch, by rw [write, if_neg past],
          ⟨⟨by simp [writeAt_eq_modify nonempty, hi], ?_⟩, rfl, by simp [writeAt_eq_modify nonempty],
          by simp [writeAt_eq_modify nonempty], fun j ne => ?_, ?_⟩⟩
        · rw [writeAt_eq_modify nonempty, Disk.bytesOf_modifyBytes_self hi, Bytes.size_overwrite]
          omega
        · have ji : j ≠ i := fun same => ne (by rw [same]; rfl)
          rw [writeAt_eq_modify nonempty, Disk.bytesOf_modifyBytes_other ji]
        · simp only [bytes]
          rw [writeAt_eq_modify nonempty, Disk.bytesOf_modifyBytes_self hi]
          exact patched_overwrite _ _ _
  | positioned i =>
      refine ⟨.positioned i, d.writeAt i pos patch, rfl,
        ⟨by simp [Valid, writeAt_eq_modify nonempty]; exact v, rfl,
        by simp [writeAt_eq_modify nonempty], by simp [writeAt_eq_modify nonempty],
        fun j ne => ?_, ?_⟩⟩
      · have ji : j ≠ i := fun same => ne (by rw [same]; rfl)
        rw [writeAt_eq_modify nonempty, Disk.bytesOf_modifyBytes_other ji]
      · simp only [bytes]
        rw [writeAt_eq_modify nonempty, Disk.bytesOf_modifyBytes_self v]
        exact patched_overwrite _ _ _
  | closed => exact absurd v id

/-- A write that ends inside the file keeps the region as it is and overwrites the file in
place: a mapping that already covers the bytes is not grown. -/
theorem write_inside {i pos : Nat} {patch : ByteArray} (v : r.Valid d) (hi : r.inode = some i)
    (nonempty : 0 < patch.size) (inside : pos + patch.size ≤ (r.bytes d).size)
    : r.write d pos patch = .ok (r, d.modifyBytes i fun b => Bytes.overwrite b pos patch) := by
  cases r with
  | mapped j len =>
      cases hi
      have covered : ¬ pos + patch.size > len := by
        simp only [bytes] at inside
        rw [← v.2]
        omega
      rw [write, if_neg covered, writeAt_eq_modify nonempty]
  | positioned j =>
      cases hi
      rw [write, writeAt_eq_modify nonempty]
  | closed => cases hi

/-- Opening a file for the log gives an open region on its inode, which a mapping may have grown
with zeros; no name and no other inode changes. -/
theorem openAt_ok {d d1 : Disk} {path : String} {access : Access} {truncate : Bool} {reserve i : Nat}
    (opened : d.openFile path true truncate = .ok (i, d1)) (hi : i < d1.contents.size)
    : ∃ r d2, openAt d path access truncate reserve = .ok (r, d2) ∧ r.Valid d2 ∧
        r.inode = some i ∧ d2.nodes = d1.nodes ∧ d2.contents.size = d1.contents.size ∧
        (∀ j, j ≠ i → d2.bytesOf j = d1.bytesOf j) ∧ Grown (d1.bytesOf i) (r.bytes d2) := by
  cases access with
  | file =>
      refine ⟨.positioned i, d1, ?_, hi, rfl, rfl, rfl, fun _ _ => rfl, Grown.refl _⟩
      simp only [openAt, opened, bind, Except.bind, pure, Except.pure]
  | mapped =>
      by_cases short : (d1.bytesOf i).size < reserve
      · refine ⟨.mapped i reserve, d1.setLen i reserve, ?_, ⟨by simp [Disk.setLen, hi], ?_⟩, rfl,
          rfl, by simp [Disk.setLen], fun j ne => Disk.bytesOf_modifyBytes_other ne, ?_⟩
        · simp only [openAt, opened, bind, Except.bind, pure, Except.pure, if_pos short,
            Disk.setLen, Disk.bytesOf_modifyBytes_self hi, Bytes.size_resize]
        · rw [Disk.setLen, Disk.bytesOf_modifyBytes_self hi, Bytes.size_resize]
        · simp only [bytes]
          rw [Disk.setLen, Disk.bytesOf_modifyBytes_self hi]
          exact grown_resize (Nat.le_of_lt short)
      · refine ⟨.mapped i (d1.bytesOf i).size, d1, ?_, ⟨hi, rfl⟩, rfl, rfl, rfl, fun _ _ => rfl,
          Grown.refl _⟩
        simp only [openAt, opened, bind, Except.bind, pure, Except.pure, if_neg short]

/-- Opening a file that is not there yet makes a new inode at the end, named in its directory,
and leaves every other inode and name as it was. -/
theorem openAt_new {d : Disk} {P : List String} {path name : String} {access : Access}
    {truncate : Bool} {reserve : Nat} (chain : Disk.DirChain d P)
    (comps : components path = P ++ [name]) (absent : d.node? (P ++ [name]) = none)
    : ∃ r d', openAt d path access truncate reserve = .ok (r, d') ∧ r.Valid d' ∧
        r.inode = some d.contents.size ∧ d'.contents.size = d.contents.size + 1 ∧
        (∀ q, q ≠ [] → d'.node? q =
          if q = P ++ [name] then some (.file d.contents.size) else d.node? q) ∧
        (∀ j, j < d.contents.size → d'.bytesOf j = d.bytesOf j) := by
  have opened := Disk.openFile_new chain comps absent truncate
  obtain ⟨r, d', ok, valid, inode, nodes, size, others, -⟩ :=
    @openAt_ok d _ path access truncate reserve d.contents.size opened (by simp)
  refine ⟨r, d', ok, valid, inode, by rw [size]; simp, fun q hq => ?_, fun j hj => ?_⟩
  · rw [Disk.node?_congr nodes, ← Disk.node?_setNode _ hq]
    rfl
  · rw [others j (by omega)]
    simp [Disk.bytesOf, Array.getElem?_push, Nat.ne_of_lt hj]

/-- Opening a file that is there, without emptying it, reaches its inode; a mapping may grow it
with zeros. No name and no other inode changes. -/
theorem openAt_file {d : Disk} {P : List String} {path name : String} {access : Access}
    {reserve i : Nat} (chain : Disk.DirChain d P) (comps : components path = P ++ [name])
    (file : d.node? (P ++ [name]) = some (.file i)) (hi : i < d.contents.size)
    : ∃ r d', openAt d path access false reserve = .ok (r, d') ∧ r.Valid d' ∧ r.inode = some i ∧
        d'.nodes = d.nodes ∧ d'.contents.size = d.contents.size ∧
        (∀ j, j ≠ i → d'.bytesOf j = d.bytesOf j) ∧ Grown (d.bytesOf i) (r.bytes d') := by
  have opened := Disk.openFile_file chain comps file true false
  simp only [Bool.false_eq_true, if_false] at opened
  exact openAt_ok opened hi

/-- A region on another inode stays open and reads the same bytes across a write. -/
theorem Wrote.keeps {pos : Nat} {patch : ByteArray} {r' q : Region} {d' : Disk}
    (w : Wrote r d pos patch r' d') (v : q.Valid d) (apart : q.inode ≠ r.inode)
    : q.Valid d' ∧ q.bytes d' = q.bytes d := by
  have same : ∀ i, q.inode = some i → d'.bytesOf i = d.bytesOf i :=
    fun i hi => w.others i (by rw [← hi]; exact apart.symm)
  exact ⟨valid_of_same v (Nat.le_of_eq w.size.symm) same, bytes_of_same same⟩

end MetricRegistry.Log.Region
