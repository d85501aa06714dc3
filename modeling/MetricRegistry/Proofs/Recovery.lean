import MetricRegistry.Proofs.Interrupted
import MetricRegistry.Proofs.Reopen

/-! Recovering after a killed compaction: every state a recovery passes through is `Recoverable`,
a whole recovery leaves the log whole, and the open that follows loads the live records back
under the same id mark (`Recoverable.open_outcome`). -/

namespace MetricRegistry.Store

open Disk Log Record Swapping

/-- A handle on no file: what a compaction or a recovery holds for a log before it opens it. -/
def unopened (dir : String) (options : Options) : IdentityLog :=
  { dir, options, data := .closed, index := .closed, header := .fresh, offsets := #[],
    tombstones := 0 }

namespace Swapping

/-- Opens or makes a log with `m` and holds it on `side`. -/
def hold (side : Side) (m : DiskM IdentityLog) : Step := do
  let l ← onFiles m
  modify fun s => s.update side ⟨s.disk, l⟩

/-- Replaces the file system by what `f` makes of it, failing as `f` does. -/
def change (f : Disk → Except IoError Disk) : Step :=
  onFiles do set (← liftIo (f (← get)))

/-- Removes the marker from the compaction directory `dir`. -/
def unmark (dir : String) : Step := change (·.removeFile (join dir swapMarker))

/-- Removes the directory `dir` and everything under it. -/
def removeAll (dir : String) : Step := change (·.removeDirAll dir)

section Inversions

variable {s s' : Swapping} {dir : String} {options : Options}

theorem change_ok {f : Disk → Except IoError Disk} {d : Disk} (h : f s.disk = .ok d)
    : change f s = .ok () { s with disk := d } := by
  simp only [change, onFiles, bind, EStateM.bind, get, getThe, MonadStateOf.get, EStateM.get,
    liftIo, h, pure, EStateM.pure, set, EStateM.set]

theorem change_inv {f : Disk → Except IoError Disk} (h : change f s = .ok () s')
    : f s.disk = .ok s'.disk ∧ s' = { s with disk := s'.disk } := by
  obtain ⟨ran, hs⟩ := onFiles_inv h
  refine ⟨?_, hs⟩
  cases made : f s.disk with
  | error e =>
      simp [bind, EStateM.bind, get, getThe, MonadStateOf.get, EStateM.get, liftIo, made, throw,
        throwThe, MonadExceptOf.throw, EStateM.throw] at ran
  | ok d =>
      simp only [bind, EStateM.bind, get, getThe, MonadStateOf.get, EStateM.get, liftIo, made, pure,
        EStateM.pure, set, EStateM.set, EStateM.Result.ok.injEq] at ran
      rw [ran.2]

theorem hold_ok {side : Side} {m : DiskM IdentityLog} {l : IdentityLog} {d : Disk}
    (h : m s.disk = .ok l d) : hold side m s = .ok () (s.update side ⟨d, l⟩) := by
  simp only [hold, bind, EStateM.bind, onFiles_ok h, modify, modifyGet, MonadStateOf.modifyGet,
    EStateM.modifyGet]
  cases side <;> rfl

theorem hold_inv {side : Side} {m : DiskM IdentityLog} (h : hold side m s = .ok () s')
    : m s.disk = .ok (s'.logOn side) s'.disk ∧ s' = s.update side ⟨s'.disk, s'.logOn side⟩ := by
  simp only [hold, bind, EStateM.bind] at h
  split at h
  · rename_i l s1 opened
    obtain ⟨opened, hs1⟩ := onFiles_inv opened
    simp only [modify, modifyGet, MonadStateOf.modifyGet, EStateM.modifyGet,
      EStateM.Result.ok.injEq] at h
    rw [← h.2, update_disk, logOn_update]
    refine ⟨opened, ?_⟩
    rw [hs1]
    cases side <;> rfl
  · cases h

end Inversions

end Swapping

-----------------------------------------------------------------------------------------
-- Making a log over files that may be there
-----------------------------------------------------------------------------------------

/-- What a path where a log file belongs holds for the log to be made there again: nothing, or a
file on an inode of the file system. -/
def FileSlot (d : Disk) (p : List String) : Prop :=
  d.node? p = none ∨ ∃ i, d.node? p = some (.file i) ∧ i < d.contents.size

/-- Opening a log file afresh where there is nothing or a file makes it on a new inode, or empties
the file on its own; no other name and no other inode changes. -/
theorem openAt_slot {d : Disk} {P : List String} {path name : String} {access : Access}
    {reserve : Nat} (chain : Disk.DirChain d P) (comps : components path = P ++ [name])
    (slot : FileSlot d (P ++ [name]))
    : ∃ r d' i, Region.openAt d path access true reserve = .ok (r, d') ∧ r.Valid d' ∧
        r.inode = some i ∧ (d.node? (P ++ [name]) = some (.file i) ∨ i = d.contents.size) ∧
        d.contents.size ≤ d'.contents.size ∧ i < d'.contents.size ∧
        (∀ q, q ≠ [] → d'.node? q = if q = P ++ [name] then some (.file i) else d.node? q) ∧
        (∀ j, j < d.contents.size → j ≠ i → d'.bytesOf j = d.bytesOf j) := by
  rcases slot with absent | ⟨i, file, lt⟩
  · obtain ⟨r, d', opened, valid, inode, size, names, bytes⟩ :=
      @Region.openAt_new d P path name access true reserve chain comps absent
    exact ⟨r, d', d.contents.size, opened, valid, inode, .inr rfl, by omega, by omega, names,
      fun j hj _ => bytes j hj⟩
  · have opened := Disk.openFile_file chain comps file true true
    simp only [if_true] at opened
    obtain ⟨r, d', ok, valid, inode, nodes, size, others, -⟩ :=
      @Region.openAt_ok d _ path access true reserve i opened (by simp [lt])
    have sized : d'.contents.size = d.contents.size := by rw [size]; simp
    refine ⟨r, d', i, ok, valid, inode, .inl file, by omega, by omega, fun q _ => ?_,
      fun j _ ne => ?_⟩
    · rw [Disk.node?_congr nodes]
      split
      · rename_i same
        rw [same]
        exact file
      · rfl
    · rw [others j ne]
      simp [Disk.bytesOf, Array.set!_eq_setIfInBounds, Ne.symm ne]

/-- Making a log in a directory that is there, over files of its names that may be there on two
inodes, gives an empty stored log under the fresh header; its inodes are the files' own or new
ones, and every other inode and every name but its two files' stays. -/
theorem create_over {d : Disk} {dir : String} (options : Options)
    (chain : Disk.DirChain d (components dir))
    (index : FileSlot d (components dir ++ [indexFile]))
    (data : FileSlot d (components dir ++ [dataFile]))
    (apart : ∀ i, d.node? (components dir ++ [indexFile]) = some (.file i) →
      d.node? (components dir ++ [dataFile]) ≠ some (.file i))
    : ∃ l d', IdentityLog.create dir options d = .ok l d' ∧ Stored d' l [] ∧
        l.header = .fresh ∧ l.dir = dir ∧ l.options = options ∧
        d.contents.size ≤ d'.contents.size ∧
        (∀ j, j < d.contents.size → l.index.inode ≠ some j → l.data.inode ≠ some j →
          d'.bytesOf j = d.bytesOf j) ∧
        (∀ i, l.index.inode = some i ∨ l.data.inode = some i → d.contents.size ≤ i ∨
          d.node? (components dir ++ [indexFile]) = some (.file i) ∨
          d.node? (components dir ++ [dataFile]) = some (.file i)) ∧
        (∀ q, q ≠ components dir ++ [indexFile] → q ≠ components dir ++ [dataFile] →
          d'.node? q = d.node? q) := by
  obtain ⟨ri, d2, iI, openIndex, validI, inodeI, slotI, size2, ltI, nodes2, bytes2⟩ :=
    @openAt_slot d (components dir) (join dir indexFile) indexFile options.access indexReserve
      chain (components_join dir plain_indexFile) index
  have chain2 : Disk.DirChain d2 (components dir) := DirChain.keep chain fun q hq => by
    rw [nodes2 q (Disk.ne_nil_of_mem_prefixes hq),
      if_neg (fun eq => child_not_mem_prefixes _ _ (eq ▸ hq))]
  have dataSame : d2.node? (components dir ++ [dataFile]) = d.node? (components dir ++ [dataFile]) := by
    rw [nodes2 _ (by simp), if_neg (child_ne_child (Ne.symm indexFile_ne_dataFile))]
  have data2 : FileSlot d2 (components dir ++ [dataFile]) := by
    rw [FileSlot, dataSame]
    rcases data with absent | ⟨i, file, lt⟩
    · exact .inl absent
    · exact .inr ⟨i, file, by omega⟩
  obtain ⟨rd, d3, iD, openData, validD, inodeD, slotD, size3, ltD, nodes3, bytes3⟩ :=
    @openAt_slot d2 (components dir) (join dir dataFile) dataFile options.access dataReserve
      chain2 (components_join dir plain_dataFile) data2
  rw [dataSame] at slotD
  -- the two files end on different inodes: a new one is past every old one
  have apartID : iD ≠ iI := by
    rcases slotD with fileD | newD
    · have ltD0 : iD < d.contents.size := by
        rcases data with absent | ⟨j, file, lt⟩
        · rw [absent] at fileD
          cases fileD
        · rw [file] at fileD
          cases fileD
          exact lt
      rcases slotI with fileI | newI
      · exact fun same => apart iI fileI (same ▸ fileD)
      · omega
    · omega
  have index3 : ri.Valid d3 := Region.valid_of_same validI (by omega) fun i hi => by
    rw [inodeI] at hi
    cases hi
    exact bytes3 _ ltI (Ne.symm apartID)
  obtain ⟨r4, d4, wrote, w⟩ := @writeIndex_ok d3
    { dir, options, data := rd, index := ri, header := .fresh, offsets := #[], tombstones := 0 }
    Header.fresh.encode index3 0 (by rw [Header.size_encode]; decide)
  have run : IdentityLog.create dir options d =
      .ok { dir, options, data := rd, index := r4, header := .fresh, offsets := #[],
            tombstones := 0 } d4 := by
    simp only [IdentityLog.create, bind, EStateM.bind, get, getThe, MonadStateOf.get,
      EStateM.get, liftIo, Disk.createDirAll_chain chain, openIndex, openData, set, EStateM.set,
      onLog, writeHeader, wrote, sync, pure, EStateM.pure]
  have index4 : r4.inode = some iI := w.inode.trans inodeI
  have apart3 : rd.inode ≠ ri.inode := by rw [inodeD, inodeI]; simpa using apartID
  have data4 := w.keeps validD apart3
  have named : ∀ q, q ≠ [] → d4.node? q =
      if q = components dir ++ [dataFile] then some (.file iD)
      else if q = components dir ++ [indexFile] then some (.file iI)
      else d.node? q := fun q hq => by
    rw [Disk.node?_congr w.nodes, nodes3 q hq, nodes2 q hq]
  have fits : Header.fresh.Fits := ⟨Nat.le_refl _, by decide, by decide⟩
  have covers := w.patched.covers
  rw [Header.size_encode] at covers
  refine ⟨_, d4, run, ⟨?_, ?_, ?_⟩, rfl, rfl, rfl, by have := w.size; omega, fun j hj notI notD => ?_,
    fun i hi => ?_, fun q notIndex notData => ?_⟩
  · refine ⟨rfl, rfl, by simp, data4.1, Nat.zero_le _, fun hk => by simp at hk, rfl⟩
  · refine ⟨w.valid, by rw [index4, inodeD]; simpa using Ne.symm apartID, ?_, rfl,
      ⟨fun hk => by simp at hk, ?_⟩⟩
    · have whole := w.patched.extract_patch
      rw [Header.size_encode, Nat.zero_add] at whole
      rw [whole, Header.decode_encode fits]
    · simpa [IdentityLog.offsetSlot] using covers
  · have chain4 : Disk.DirChain d4 (components dir) := DirChain.keep chain fun q hq => by
      have notData : q ≠ components dir ++ [dataFile] := fun eq =>
        child_not_mem_prefixes _ _ (eq ▸ hq)
      have notIndex : q ≠ components dir ++ [indexFile] := fun eq =>
        child_not_mem_prefixes _ _ (eq ▸ hq)
      rw [named q (Disk.ne_nil_of_mem_prefixes hq), if_neg notData, if_neg notIndex]
    refine ⟨chain4, ⟨_, index4, ?_⟩, ⟨_, inodeD, ?_⟩⟩
    · rw [named _ (by simp), if_neg (child_ne_child indexFile_ne_dataFile), if_pos rfl]
    · rw [named _ (by simp), if_pos rfl]
  · have ne4 : j ≠ iI := fun same => notI (by rw [index4, same])
    have neD : j ≠ iD := fun same => notD (by rw [inodeD, same])
    rw [w.others j (by rw [inodeI]; simpa using Ne.symm ne4), bytes3 j (by omega) neD, bytes2 j hj ne4]
  · rcases hi with hi | hi
    · have same := index4.symm.trans hi
      simp only [Option.some.injEq] at same
      subst same
      rcases slotI with fileI | newI
      · exact .inr (.inl fileI)
      · exact .inl (by omega)
    · have same := inodeD.symm.trans hi
      simp only [Option.some.injEq] at same
      subst same
      rcases slotD with fileD | newD
      · exact .inr (.inr fileD)
      · exact .inl (by omega)
  · by_cases root : q = []
    · subst root
      rfl
    · rw [named q root, if_neg notData, if_neg notIndex]

-----------------------------------------------------------------------------------------
-- The steps of a recovery
-----------------------------------------------------------------------------------------

/-- The appends of a copy back: one for each record of the temporary log, onto the log. -/
def appendBack : PhaseSteps := fun s =>
  (s.temp.records s.disk).map fun x => onSide .main (append x.2 >>= fun _ => pure ())

/-- The end of a copy back: the log's id mark raised to the temporary log's. -/
def raiseBack : PhaseSteps := fun s => [onSide .main (raiseNextId s.temp.nextId >>= fun _ => sync)]

/-- The phases that copy the temporary log back onto the log, as `copyBack` does. -/
def copyBackPhases : List PhaseSteps := [appendBack, raiseBack]

/-- The phase that discards the temporary log of the compaction directory `dir`: the marker goes
first, then the temporary log. -/
def discardPhase (dir : String) : PhaseSteps := fun _ => [unmark dir, onSide .temp destroy]

/-- The phases of a recovery of the data directory `dataDir` from the file system `d`: none
without a compaction directory, its removal without a marker in it, and otherwise the temporary
log opened and the log made anew, the records copied back, and the temporary log discarded. -/
def recoveryPhases (dataDir : String) (options : Options) (d : Disk) : List PhaseSteps :=
  let dir := join dataDir compactDir
  if !d.exists_ dir then []
  else if !d.exists_ (join dir swapMarker) then [fun _ => [removeAll dir]]
  else (fun _ => [hold .temp (IdentityLog.openIn dir options), hold .main (IdentityLog.create dataDir options)]) ::
    (copyBackPhases ++ [discardPhase dir])

/-- The state a recovery starts in: the file system, and no log open yet. -/
def recoveryStart (dataDir : String) (options : Options) (d : Disk) : Swapping :=
  ⟨d, unopened dataDir options, unopened (join dataDir compactDir) options⟩

/-- The file systems a recovery of `dataDir` from `d` passes through, one after each of its
steps: a process killed during the recovery leaves one of them. -/
def recoveryDisks (dataDir : String) (options : Options) (d : Disk) : List Disk :=
  (phaseStates (recoveryPhases dataDir options d) (recoveryStart dataDir options d)).map (·.disk)

section Faithful

variable {s s' : Swapping}

theorem runSteps_nil_inv (h : runSteps [] s = .ok () s') : s' = s := by
  simp only [runSteps, pure, EStateM.pure, EStateM.Result.ok.injEq] at h
  exact h.2.symm

theorem runPhases_nil_inv (h : runPhases [] s = .ok () s') : s' = s := by
  simp only [runPhases, pure, EStateM.pure, EStateM.Result.ok.injEq] at h
  exact h.2.symm

/-- Copying back through the phases is `copyBack`: it leaves the file system and the log that
`copyBack` leaves, and the temporary log's handle as it was. -/
theorem copyBack_of_phases (h : runPhases copyBackPhases s = .ok () s')
    : copyBack s.temp ⟨s.disk, s.log⟩ = .ok () ⟨s'.disk, s'.log⟩ ∧ s'.temp = s.temp := by
  obtain ⟨s1, looped, rest⟩ := runPhases_cons_inv h
  obtain ⟨s2, raised, done⟩ := runPhases_cons_inv rest
  obtain rfl := runPhases_nil_inv done
  rw [appendBack, runSteps_map_onSide] at looped
  obtain ⟨looped, hs1⟩ := onSide_inv looped
  rw [raiseBack] at raised
  obtain ⟨s3, raised, done⟩ := runSteps_cons_inv raised
  obtain rfl := runSteps_nil_inv done
  obtain ⟨raised, hs3⟩ := onSide_inv raised
  have temp1 : s1.temp = s.temp := by rw [hs1]; rfl
  have temp3 : s'.temp = s1.temp := by rw [hs3]; rfl
  refine ⟨?_, temp3.trans temp1⟩
  rw [temp1] at raised
  simp only [bind, logOn] at looped raised
  unfold copyBack
  simp only [bind, EStateM.bind, get, getThe, MonadStateOf.get, EStateM.get, looped]
  exact raised

/-- Discarding through the phase removes the marker and then destroys the temporary log. -/
theorem discard_of_phase {dir : String} (h : runSteps (discardPhase dir s) s = .ok () s')
    : ∃ d1, s.disk.removeFile (join dir swapMarker) = .ok d1 ∧
        destroy ⟨d1, s.temp⟩ = .ok () ⟨s'.disk, s'.temp⟩ := by
  obtain ⟨s1, unmarked, rest⟩ := runSteps_cons_inv h
  obtain ⟨s2, destroyed, done⟩ := runSteps_cons_inv rest
  obtain rfl := runSteps_nil_inv done
  obtain ⟨removed, hs1⟩ := change_inv unmarked
  obtain ⟨destroyed, -⟩ := onSide_inv destroyed
  have temp1 : s1.temp = s.temp := by rw [hs1]
  simp only [logOn] at destroyed
  rw [temp1] at destroyed
  exact ⟨s1.disk, removed, destroyed⟩

/-- A recovery through the phases is `recoverInterrupted`: when every step succeeds, so does the
recovery, leaving the file system the last step left. -/
theorem recoverInterrupted_of_phases {dataDir : String} {options : Options} {d : Disk}
    (h : runPhases (recoveryPhases dataDir options d) (recoveryStart dataDir options d) = .ok () s')
    : recoverInterrupted dataDir options d = .ok () s'.disk := by
  simp only [recoveryPhases] at h
  split at h
  · rename_i absent
    obtain rfl := runPhases_nil_inv h
    simp only [Bool.not_eq_eq_eq_not, Bool.not_true] at absent
    simp only [recoverInterrupted, bind, EStateM.bind, get, getThe, MonadStateOf.get, EStateM.get,
      absent]
    rfl
  · rename_i present
    simp only [Bool.not_eq_true', Bool.not_eq_false] at present
    split at h
    · rename_i unmarked
      simp only [Bool.not_eq_eq_eq_not, Bool.not_true] at unmarked
      obtain ⟨s1, ran, done⟩ := runPhases_cons_inv h
      obtain rfl := runPhases_nil_inv done
      obtain ⟨s2, removed, done⟩ := runSteps_cons_inv ran
      obtain rfl := runSteps_nil_inv done
      obtain ⟨removed, -⟩ := change_inv removed
      simp only [recoverInterrupted, bind, EStateM.bind, get, getThe, MonadStateOf.get, EStateM.get,
        present, unmarked, liftIo, Bool.not_true, Bool.not_false, Bool.false_eq_true, ↓reduceIte]
      simp only [recoveryStart] at removed
      simp only [removed, set, EStateM.set, pure, EStateM.pure]
    · rename_i marked
      simp only [Bool.not_eq_true', Bool.not_eq_false] at marked
      obtain ⟨s1, opened, rest⟩ := runPhases_cons_inv h
      obtain ⟨s2, copied, rest⟩ := runPhases_append_inv rest
      obtain ⟨s3, discarded, done⟩ := runPhases_cons_inv rest
      obtain rfl := runPhases_nil_inv done
      obtain ⟨s4, openedT, rest⟩ := runSteps_cons_inv opened
      obtain ⟨s5, made, done⟩ := runSteps_cons_inv rest
      obtain rfl := runSteps_nil_inv done
      obtain ⟨openedT, -⟩ := hold_inv openedT
      obtain ⟨made, hs1⟩ := hold_inv made
      have temp1 : s1.temp = s4.temp := by rw [hs1]; rfl
      obtain ⟨copied, temp2⟩ := copyBack_of_phases copied
      obtain ⟨d6, removed, destroyed⟩ := discard_of_phase discarded
      rw [temp2, temp1] at destroyed
      rw [temp1] at copied
      simp only [logOn] at openedT made
      simp only [recoveryStart] at openedT
      simp only [recoverInterrupted, bind, EStateM.bind, get, getThe, MonadStateOf.get, EStateM.get,
        present, marked, Bool.not_true, Bool.false_eq_true, ↓reduceIte, openedT, made, onLog, copied,
        liftIo, removed, set, EStateM.set, destroyed, pure, EStateM.pure]

end Faithful

-----------------------------------------------------------------------------------------
-- File systems a recovery brings back
-----------------------------------------------------------------------------------------

/-- Records that an open loads under the id mark `N`: records the codec wrote, apart, with ids
below the mark, which is past the first id. -/
structure Openable (rs : List Identity) (N : Int64) : Prop where
  canonical : ∀ r ∈ rs, Canonical r
  distinct : Distinct rs
  fresh : ∀ r ∈ rs, r.globalId < N
  started : ¬ Header.fresh.nextId > N

theorem Openable.live {rs : List Identity} {N : Int64} (h : Openable rs N)
    : Openable (liveRecords rs) N where
  canonical r mem := h.canonical r (mem_liveRecords.mp mem).1
  distinct := h.distinct.sublist (liveRecords_sublist rs)
  fresh r mem := h.fresh r (mem_liveRecords.mp mem).1
  started := h.started

/-- The log `l` of `dataDir` is whole on `d`: stored with records `rs'` that an open loads under
the mark `N`, whose live records are those of `rs`. -/
structure Whole (d : Disk) (dataDir : String) (rs : List Identity) (N : Int64) (l : IdentityLog)
    (rs' : List Identity) : Prop where
  stored : Stored d l (rs'.map stored)
  home : l.dir = dataDir
  nextId : l.nextId = N
  kept : liveRecords rs' = liveRecords rs
  openable : Openable rs' N

/-- Nothing is left under the compaction directory of `dataDir`. -/
def Cleared (d : Disk) (dataDir : String) : Prop :=
  ∀ q, compactPath dataDir <+: q → d.node? q = none

/-- The temporary log `t` is complete on `d`: it holds the live records of `rs` under the mark
`N`, and its marker says so, alone with it in the compaction directory of `dataDir`. -/
structure Complete (d : Disk) (dataDir : String) (rs : List Identity) (N : Int64) (t : IdentityLog)
    : Prop where
  stored : Stored d t ((liveRecords rs).map stored)
  home : t.dir = join dataDir compactDir
  nextId : t.nextId = N
  marker : ∃ m, d.node? (compactPath dataDir ++ [swapMarker]) = some (.file m)
  alone : ∀ q, compactPath dataDir <+: q → q ≠ compactPath dataDir →
    q ≠ compactPath dataDir ++ [indexFile] → q ≠ compactPath dataDir ++ [dataFile] →
    q ≠ compactPath dataDir ++ [swapMarker] → d.node? q = none

/-- The log of `dataDir` can be made again on `d` without touching the temporary log `t`: its
directory is there, each of its two files is absent or a file, on two inodes, neither of them
`t`'s. -/
structure Remakeable (d : Disk) (dataDir : String) (t : IdentityLog) : Prop where
  chain : Disk.DirChain d (components dataDir)
  index : FileSlot d (components dataDir ++ [indexFile])
  data : FileSlot d (components dataDir ++ [dataFile])
  apart : ∀ i, d.node? (components dataDir ++ [indexFile]) = some (.file i) →
    d.node? (components dataDir ++ [dataFile]) ≠ some (.file i)
  others : ∀ i, d.node? (components dataDir ++ [indexFile]) = some (.file i) ∨
    d.node? (components dataDir ++ [dataFile]) = some (.file i) →
    t.index.inode ≠ some i ∧ t.data.inode ≠ some i

/-- The file systems from which a recovery of `dataDir` brings back a log holding the live records
of `rs` under the id mark `N`. -/
inductive Recoverable (dataDir : String) (rs : List Identity) (N : Int64) (d : Disk) : Prop
  /-- The log is whole and no marker says a copy is complete: the compaction directory, when it
  is there, is removed. -/
  | unmarked {l : IdentityLog} {rs' : List Identity} : Whole d dataDir rs N l rs' →
      (d.node? (compactPath dataDir) = some .dir ∧
        d.node? (compactPath dataDir ++ [swapMarker]) = none) ∨ Cleared d dataDir →
      Recoverable dataDir rs N d
  /-- The copy is complete and marked: the log is made again from it. -/
  | marked {t : IdentityLog} : Complete d dataDir rs N t → Openable (liveRecords rs) N →
      Remakeable d dataDir t → Recoverable dataDir rs N d

/-- What a whole recovery of `dataDir` leaves: the log whole and nothing under the compaction
directory. -/
def Restored (d : Disk) (dataDir : String) (rs : List Identity) (N : Int64) : Prop :=
  ∃ l rs', Whole d dataDir rs N l rs' ∧ Cleared d dataDir

theorem Restored.recoverable {d : Disk} {dataDir : String} {rs : List Identity} {N : Int64}
    (h : Restored d dataDir rs N) : Recoverable dataDir rs N d := by
  obtain ⟨l, rs', whole, cleared⟩ := h
  exact .unmarked whole (.inr cleared)

/-- A run that has restored the log has no phase left. -/
theorem restored_done {dataDir : String} {rs : List Identity} {N : Int64}
    : PhaseChain (fun s => Recoverable dataDir rs N s.disk) []
        (fun s => Restored s.disk dataDir rs N) (fun s => Restored s.disk dataDir rs N) :=
  .nil fun _ restored => ⟨restored.recoverable, restored⟩

/-- A state of a run that makes the log of `dataDir` again from the complete temporary log: the
log is held, stored with `recs`, on inodes apart from the temporary log's. -/
structure Remaking (dataDir : String) (rs : List Identity) (N : Int64) (recs : List ByteArray)
    (s : Swapping) : Prop where
  main : Stored s.disk s.log recs
  home : s.log.dir = dataDir
  copy : Complete s.disk dataDir rs N s.temp
  apart : ∀ i, s.log.index.inode = some i ∨ s.log.data.inode = some i →
    s.temp.index.inode ≠ some i ∧ s.temp.data.inode ≠ some i

section Frames

variable {d d' : Disk} {dataDir : String} {rs : List Identity} {N : Int64}

/-- Inodes apart, seen from the other log. -/
theorem inodes_apart_symm {l t : IdentityLog}
    (h : ∀ i, l.index.inode = some i ∨ l.data.inode = some i →
      t.index.inode ≠ some i ∧ t.data.inode ≠ some i)
    {i : Nat} (hi : t.index.inode = some i ∨ t.data.inode = some i)
    : l.index.inode ≠ some i ∧ l.data.inode ≠ some i := by
  constructor
  · intro own
    rcases hi with mine | mine
    · exact (h i (.inl own)).1 mine
    · exact (h i (.inl own)).2 mine
  · intro own
    rcases hi with mine | mine
    · exact (h i (.inr own)).1 mine
    · exact (h i (.inr own)).2 mine

theorem FileSlot.transfer {p : List String} (h : FileSlot d p) (nodes : d'.nodes = d.nodes)
    (size : d.contents.size ≤ d'.contents.size) : FileSlot d' p := by
  rw [FileSlot, Disk.node?_congr nodes]
  rcases h with absent | ⟨i, file, lt⟩
  · exact .inl absent
  · exact .inr ⟨i, file, Nat.lt_of_lt_of_le lt size⟩

theorem Remakeable.transfer {t t' : IdentityLog} (h : Remakeable d dataDir t)
    (nodes : d'.nodes = d.nodes) (size : d.contents.size ≤ d'.contents.size)
    (index : t'.index.inode = t.index.inode) (data : t'.data.inode = t.data.inode)
    : Remakeable d' dataDir t' where
  chain := DirChain.keep h.chain fun q _ => Disk.node?_congr nodes q
  index := h.index.transfer nodes size
  data := h.data.transfer nodes size
  apart i := by
    rw [Disk.node?_congr nodes, Disk.node?_congr nodes]
    exact h.apart i
  others i named := by
    rw [Disk.node?_congr nodes, Disk.node?_congr nodes] at named
    rw [index, data]
    exact h.others i named

theorem Whole.frame {l : IdentityLog} {rs' : List Identity} (h : Whole d dataDir rs N l rs')
    (kept : InodesKept d d') (same : SameOutside (compactPath dataDir) d d')
    : Whole d' dataDir rs N l rs' :=
  { h with stored := stored_outside h.stored kept (by rw [h.home]; exact same) }

/-- A complete temporary log stays complete when its inodes keep their bytes and no name under
the data directory changes but the log's two files. -/
theorem Complete.frame {t : IdentityLog} (h : Complete d dataDir rs N t)
    (size : d.contents.size ≤ d'.contents.size)
    (bytes : ∀ i, t.index.inode = some i ∨ t.data.inode = some i → d'.bytesOf i = d.bytesOf i)
    (names : ∀ q, q ≠ components dataDir ++ [indexFile] → q ≠ components dataDir ++ [dataFile] →
      d'.node? q = d.node? q)
    : Complete d' dataDir rs N t := by
  have comps : components t.dir = compactPath dataDir := by rw [h.home, components_compactDir]
  have under (q : List String) (hq : compactPath dataDir <+: q) : d'.node? q = d.node? q :=
    names q ((under_child hq).2.2 indexFile (by decide)) ((under_child hq).2.2 dataFile (by decide))
  refine ⟨h.stored.frame size bytes fun q own => ?_, h.home, h.nextId, ?_, fun q hq ne i j k => ?_⟩
  · rw [comps] at own
    exact names q (ne_copy_names own indexFile (by decide)) (ne_copy_names own dataFile (by decide))
  · rw [under _ (List.prefix_append _ _)]
    exact h.marker
  · rw [under q hq]
    exact h.alone q hq ne i j k

/-- While the log is being made again its directory is there and its two files are files on two
inodes apart from the temporary log's: it can be made again once more. -/
theorem Remaking.remakeable {recs : List ByteArray} {s : Swapping}
    (h : Remaking dataDir rs N recs s) : Remakeable s.disk dataDir s.temp := by
  obtain ⟨iI, inodeI, namedI⟩ := h.main.placed.index
  obtain ⟨iD, inodeD, namedD⟩ := h.main.placed.data
  rw [h.home] at namedI namedD
  refine ⟨h.home ▸ h.main.placed.chain, .inr ⟨iI, namedI, h.main.inode_lt (.inl inodeI)⟩,
    .inr ⟨iD, namedD, h.main.inode_lt (.inr inodeD)⟩, fun i fileI fileD => ?_,
    fun i named => ?_⟩
  · rw [namedI] at fileI
    rw [namedD] at fileD
    cases fileI
    cases fileD
    exact h.main.persisted.distinct (by rw [inodeI, inodeD])
  · rcases named with file | file
    · rw [namedI] at file
      cases file
      exact h.apart iI (.inl inodeI)
    · rw [namedD] at file
      cases file
      exact h.apart iD (.inr inodeD)

theorem Remaking.recoverable {recs : List ByteArray} {s : Swapping}
    (h : Remaking dataDir rs N recs s) (openable : Openable (liveRecords rs) N)
    : Recoverable dataDir rs N s.disk :=
  .marked h.copy openable h.remakeable

/-- A step on the log that keeps its files and touches only their bytes keeps the run making it
again. -/
theorem Remaking.confined {recs recs' : List ByteArray} {s : Swapping} {l' : IdentityLog}
    (h : Remaking dataDir rs N recs s) (stored : Stored d' l' recs') (same : SameFiles s.log l')
    (confined : Confined s.log s.disk d') : Remaking dataDir rs N recs' (s.update .main ⟨d', l'⟩) where
  main := stored
  home := same.dir.trans h.home
  copy := h.copy.frame (Nat.le_of_eq confined.size.symm)
    (fun i hi => by
      obtain ⟨index, data⟩ := inodes_apart_symm h.apart hi
      exact confined.others i data index)
    fun q _ _ => Disk.node?_congr confined.nodes q
  apart i hi := by
    rw [update_main_log, same.index, same.data] at hi
    exact h.apart i hi

end Frames

-----------------------------------------------------------------------------------------
-- Each phase of a recovery
-----------------------------------------------------------------------------------------

section Phases

variable {dataDir : String} {rs : List Identity} {N : Int64}

/-- A step for each record a stored log reads is a step for each record it was stored with. -/
theorem records_steps {d : Disk} {t : IdentityLog} {kept : List Identity}
    (h : Reads d t (kept.map stored)) (f : ByteArray → Step)
    : (t.records d).map (fun x => f x.2) = kept.map fun r => f (stored r) := by
  rw [h.records_eq, List.zipIdx_map, List.map_map, List.map_map]
  conv_rhs => rw [← List.zipIdx_map_fst 0 kept, List.map_map]
  rfl

/-- The names of a log in a compaction directory are not its marker. -/
theorem ne_marker {dir : String} {q : List String}
    (own : q ∈ Disk.prefixes (compactPath dir) ∨ q = compactPath dir ++ [indexFile] ∨
      q = compactPath dir ++ [dataFile])
    : q ≠ compactPath dir ++ [swapMarker] := by
  rcases own with onPath | rfl | rfl
  · rintro rfl
    have := Disk.length_le_of_mem_prefixes onPath
    simp at this
  · exact child_ne_child (by decide)
  · exact child_ne_child (by decide)

/-- Unlinking a name drops that name only: the root stays whatever is unlinked. -/
theorem node?_unlink_other {d : Disk} {p q : List String} (ne : q ≠ p)
    : ({ d with nodes := d.nodes.filter (·.1 != p) } : Disk).node? q = d.node? q := by
  by_cases root : q = []
  · subst root
    rfl
  · rw [Disk.node?_unlink root, if_neg ne]

/-- Removing the marker of a complete temporary log drops that name only. -/
theorem Complete.unmark {d : Disk} {t : IdentityLog} (h : Complete d dataDir rs N t)
    : ∃ d', d.removeFile (join (join dataDir compactDir) swapMarker) = .ok d' ∧
        d'.contents = d.contents ∧ d'.node? (compactPath dataDir ++ [swapMarker]) = none ∧
        ∀ q, q ≠ compactPath dataDir ++ [swapMarker] → d'.node? q = d.node? q := by
  have comps : components t.dir = compactPath dataDir := by rw [h.home, components_compactDir]
  obtain ⟨m, marker⟩ := h.marker
  have removed := Disk.removeFile_file (comps ▸ h.stored.placed.chain)
    (by rw [components_join _ plain_swapMarker, components_compactDir]) marker
  refine ⟨_, removed, rfl, ?_, fun q ne => node?_unlink_other ne⟩
  rw [Disk.node?_unlink (by simp), if_pos rfl]

/-- Appending the next live record to the log being made again keeps the run making it, with the
id mark still at most `N`. -/
theorem Remaking.append {pre : List Identity} {s : Swapping}
    (h : Remaking dataDir rs N (pre.map stored) s) (below : ¬ s.log.header.nextId > N)
    (openable : Openable (liveRecords rs) N) {r : Identity} (sub : pre ++ [r] <+: liveRecords rs)
    : ∃ s', onSide .main (append (stored r) >>= fun _ => pure ()) s = .ok () s' ∧
        Remaking dataDir rs N ((pre ++ [r]).map stored) s' ∧ ¬ s'.log.header.nextId > N := by
  have mem : r ∈ liveRecords rs := sub.subset (by simp)
  have fits : s.log.header.dataEnd + (stored r).size < Table.wordLimit := by
    have room := (Header.fits_of_decode h.copy.stored.persisted.header).dataEnd
    rw [h.copy.stored.reads.dataEnd, offsetOf_length] at room
    rw [h.main.reads.dataEnd, offsetOf_length]
    have total := size_sum_le sub.sublist
    simp only [List.map_append, List.map_singleton, List.sum_append, List.sum_singleton] at total
    unfold Table.wordLimit
    omega
  obtain ⟨d', l', ran, stored', header', same, confined⟩ :=
    h.main.append (by rw [size_stored, encodedLen, Record.headerSize]; omega) fits
  refine ⟨s.update .main ⟨d', l'⟩, onSide_ok ?_,
    h.confined (by simpa using stored') same confined, ?_⟩
  · simp only [logOn, bind, EStateM.bind, ran, pure, EStateM.pure]
  · rw [update_main_log, header']
    exact nextId_appended_le below (openable.fresh r mem)

/-- Raising the id mark of the log being made again to `floor`, and syncing it, keeps the run
making it. -/
theorem Remaking.raise {recs : List ByteArray} {s : Swapping} (h : Remaking dataDir rs N recs s)
    (floor : Int64)
    : ∃ s', onSide .main (raiseNextId floor >>= fun _ => sync) s = .ok () s' ∧
        Remaking dataDir rs N recs s' ∧
        s'.log.header.nextId = if floor > s.log.header.nextId then floor else s.log.header.nextId := by
  obtain ⟨d', l', raised, stored', header', same, confined⟩ := h.main.raiseNextId floor
  refine ⟨s.update .main ⟨d', l'⟩, onSide_ok ?_, h.confined stored' same confined, ?_⟩
  · simp only [logOn, bind, EStateM.bind, raised, sync, pure, EStateM.pure]
  · rw [update_main_log, header']

/-- Making the log again over its old files, beside a complete temporary log whose inodes are none
of theirs, starts the run that makes it again: the log is empty, under the fresh header. -/
theorem Remakeable.remake (options : Options) {s : Swapping}
    (complete : Complete s.disk dataDir rs N s.temp) (openable : Openable (liveRecords rs) N)
    (remakeable : Remakeable s.disk dataDir s.temp)
    : ∃ s', hold .main (IdentityLog.create dataDir options) s = .ok () s' ∧
        Remaking dataDir rs N [] s' ∧ ¬ s'.log.header.nextId > N := by
  obtain ⟨l, d', made, stored', header', dir', -, size', bytes', inodes', names'⟩ :=
    create_over options remakeable.chain remakeable.index remakeable.data remakeable.apart
  have apart : ∀ i, l.index.inode = some i ∨ l.data.inode = some i →
      s.temp.index.inode ≠ some i ∧ s.temp.data.inode ≠ some i := fun i hi => by
    rcases inodes' i hi with new | named
    · exact ⟨fun own => by have := complete.stored.inode_lt (.inl own); omega,
        fun own => by have := complete.stored.inode_lt (.inr own); omega⟩
    · exact remakeable.others i named
  have bytes : ∀ i, s.temp.index.inode = some i ∨ s.temp.data.inode = some i →
      d'.bytesOf i = s.disk.bytesOf i := fun i hi => by
    obtain ⟨index, data⟩ := inodes_apart_symm apart hi
    exact bytes' i (complete.stored.inode_lt hi) index data
  refine ⟨s.update .main ⟨d', l⟩, hold_ok made,
    ⟨stored', dir', complete.frame size' bytes names', apart⟩, ?_⟩
  rw [update_main_log, header']
  exact openable.started

/-- Opening the complete temporary log and making the log again over its old files leaves both
held, the log empty on inodes apart from the copy's; every state on the way is recoverable. -/
theorem remake_spec (options : Options) {d : Disk} {t : IdentityLog}
    (complete : Complete d dataDir rs N t) (openable : Openable (liveRecords rs) N)
    (remakeable : Remakeable d dataDir t)
    : PhaseSpec (fun _ => [hold .temp (IdentityLog.openIn (join dataDir compactDir) options),
          hold .main (IdentityLog.create dataDir options)])
        (fun s => s.disk = d) (fun s => Recoverable dataDir rs N s.disk)
        (fun s => Remaking dataDir rs N [] s ∧ ¬ s.log.header.nextId > N) := by
  intro s start
  obtain ⟨t', d1, opened, stored1, header1, -, -, dir1, -, index1, data1, nodes1, size1, -⟩ :=
    openIn_stored complete.stored options
  rw [complete.home, ← start] at opened
  have complete1 : Complete d1 dataDir rs N t' :=
    ⟨stored1, dir1.trans complete.home, by rw [IdentityLog.nextId, header1]; exact complete.nextId,
      by rw [Disk.node?_congr nodes1]; exact complete.marker,
      fun q hq ne i j k => by rw [Disk.node?_congr nodes1]; exact complete.alone q hq ne i j k⟩
  have remakeable1 : Remakeable d1 dataDir t' :=
    remakeable.transfer nodes1 (Nat.le_of_eq size1.symm) index1 data1
  have ran1 : hold .temp (IdentityLog.openIn (join dataDir compactDir) options) s =
      .ok () (s.update .temp ⟨d1, t'⟩) := hold_ok opened
  obtain ⟨s2, ran2, remaking, below⟩ :=
    @Remakeable.remake dataDir rs N options (s.update .temp ⟨d1, t'⟩) complete1 openable remakeable1
  rw [stepStates_cons_ok ran1, stepStates_cons_ok ran2, runSteps_cons_ok ran1,
    runSteps_cons_ok ran2]
  refine ⟨fun u mem => ?_, _, rfl, remaking, below⟩
  simp only [stepStates, List.mem_cons, List.not_mem_nil, or_false] at mem
  rcases mem with rfl | rfl | rfl
  · rw [start]
    exact .marked complete openable remakeable
  · exact .marked complete1 openable remakeable1
  · exact remaking.recoverable openable

theorem appendBack_spec (openable : Openable (liveRecords rs) N)
    : PhaseSpec appendBack (fun s => Remaking dataDir rs N [] s ∧ ¬ s.log.header.nextId > N)
        (fun s => Recoverable dataDir rs N s.disk)
        (fun s => Remaking dataDir rs N ((liveRecords rs).map stored) s ∧
          ¬ s.log.header.nextId > N) := by
  intro s ⟨remaking, below⟩
  have steps : appendBack s =
      (liveRecords rs).map fun r => onSide .main (append (stored r) >>= fun _ => pure ()) :=
    records_steps remaking.copy.stored.reads fun bytes => onSide .main (append bytes >>= fun _ => pure ())
  rw [steps]
  obtain ⟨states, s', ran, done⟩ := runSteps_map (liveRecords rs) _
    (fun pre t => Remaking dataDir rs N (pre.map stored) t ∧ ¬ t.log.header.nextId > N)
    (fun pre r rest whole t held => held.1.append held.2 openable ⟨rest, by simpa using whole⟩)
    ⟨remaking, below⟩
  refine ⟨fun t mem => ?_, s', ran, done⟩
  obtain ⟨pre, -, held, -⟩ := states t mem
  exact held.recoverable openable

theorem raiseBack_spec (openable : Openable (liveRecords rs) N)
    : PhaseSpec raiseBack
        (fun s => Remaking dataDir rs N ((liveRecords rs).map stored) s ∧ ¬ s.log.header.nextId > N)
        (fun s => Recoverable dataDir rs N s.disk)
        (fun s => Remaking dataDir rs N ((liveRecords rs).map stored) s ∧ s.log.nextId = N) := by
  intro s ⟨remaking, below⟩
  obtain ⟨s', ran, remaking', raised⟩ := remaking.raise s.temp.nextId
  rw [raiseBack, stepStates_cons_ok ran, runSteps_cons_ok ran]
  refine ⟨fun t mem => ?_, _, rfl, remaking', ?_⟩
  · simp only [stepStates, List.mem_cons, List.not_mem_nil, or_false] at mem
    rcases mem with rfl | rfl
    · exact remaking.recoverable openable
    · exact remaking'.recoverable openable
  · rw [IdentityLog.nextId, raised, remaking.copy.nextId]
    exact raised_to_bound below

/-- Copying back passes only through recoverable file systems and leaves the log holding the live
records under the mark `N`. -/
theorem copyBack_chain (openable : Openable (liveRecords rs) N)
    : PhaseChain (fun s => Recoverable dataDir rs N s.disk) copyBackPhases
        (fun s => Remaking dataDir rs N [] s ∧ ¬ s.log.header.nextId > N)
        (fun s => Remaking dataDir rs N ((liveRecords rs).map stored) s ∧ s.log.nextId = N) :=
  .cons (appendBack_spec openable) (.cons (raiseBack_spec openable)
    (.nil fun _ done => ⟨done.1.recoverable openable, done⟩))

/-- Discarding the temporary log once the log holds its records leaves the log whole and nothing
under the compaction directory; in between, the marker is gone and the log is whole already. -/
theorem discard_spec (openable : Openable (liveRecords rs) N)
    : PhaseSpec (discardPhase (join dataDir compactDir))
        (fun s => Remaking dataDir rs N ((liveRecords rs).map stored) s ∧ s.log.nextId = N)
        (fun s => Recoverable dataDir rs N s.disk) (fun s => Restored s.disk dataDir rs N) := by
  intro s ⟨remaking, nextId⟩
  have copy := remaking.copy
  have comps : components s.temp.dir = compactPath dataDir := by
    rw [copy.home, components_compactDir]
  obtain ⟨d1, removed, contents1, unmarked1, others1⟩ := copy.unmark
  have whole : Whole s.disk dataDir rs N s.log (liveRecords rs) :=
    ⟨remaking.main, remaking.home, nextId, liveRecords_liveRecords rs, openable⟩
  have whole1 := whole.frame (InodesKept.of_contents contents1)
    fun q out => others1 q fun same => out (same ▸ List.prefix_append _ _)
  have temp1 : Stored d1 s.temp ((liveRecords rs).map stored) :=
    copy.stored.frame (Nat.le_of_eq (by rw [contents1])) (fun i _ => by simp [Disk.bytesOf, contents1])
      fun q own => others1 q (ne_marker (comps ▸ own))
  have dir1 : d1.node? (compactPath dataDir) = some .dir := by
    rw [others1 _ fun same => by simpa using congrArg List.length same]
    exact Disk.node?_of_chain (comps ▸ copy.stored.placed.chain)
  obtain ⟨d2, destroyed, contents2, gone2, others2⟩ := destroy_spec temp1
    (by rw [comps, compactPath]; simp)
    (fun q under ne noIndex noData => by
      rw [comps] at under ne noIndex noData
      by_cases marker : q = compactPath dataDir ++ [swapMarker]
      · rw [marker]
        exact unmarked1
      · rw [others1 q marker]
        exact copy.alone q under ne noIndex noData marker)
  have cleared2 : Cleared d2 dataDir := fun q under => gone2 q (comps ▸ under)
  have whole2 := whole1.frame (InodesKept.of_contents contents2) fun q out => others2 q (comps ▸ out)
  have ran1 : unmark (join dataDir compactDir) s = .ok () { s with disk := d1 } := change_ok removed
  have ran2 : onSide .temp destroy { s with disk := d1 } =
      .ok () ({ s with disk := d1 }.update .temp ⟨d2, s.temp.close⟩) := onSide_ok destroyed
  rw [discardPhase, stepStates_cons_ok ran1, stepStates_cons_ok ran2, runSteps_cons_ok ran1,
    runSteps_cons_ok ran2]
  refine ⟨fun u mem => ?_, _, rfl, s.log, liveRecords rs, whole2, cleared2⟩
  simp only [stepStates, List.mem_cons, List.not_mem_nil, or_false] at mem
  rcases mem with rfl | rfl | rfl
  · exact remaking.recoverable openable
  · exact .unmarked whole1 (.inl ⟨dir1, unmarked1⟩)
  · exact .unmarked whole2 (.inr cleared2)

end Phases

-----------------------------------------------------------------------------------------
-- A whole recovery
-----------------------------------------------------------------------------------------

theorem lookup_filter_keep (nodes : List (List String × Disk.Node)) (p : List String → Bool)
    (q : List String)
    : (nodes.filter fun x => p x.1).lookup q = if p q then nodes.lookup q else none := by
  induction nodes with
  | nil => simp
  | cons e rest ih =>
      obtain ⟨k, v⟩ := e
      by_cases qk : q = k
      · subst qk
        by_cases pq : p q <;> simp [pq, ih]
      · by_cases pk : p k <;> simp [List.lookup_cons, pk, ih, beq_eq_false_iff_ne.mpr qk]

/-- The test a directory removal makes of each name is whether the directory is a prefix of it. -/
theorem under_test (T q : List String)
    : (!(decide (q.length ≥ T.length) && q.take T.length == T)) = false ↔ T <+: q := by
  simp only [ge_iff_le, Bool.not_eq_false', Bool.and_eq_true, decide_eq_true_eq, beq_iff_eq,
    List.prefix_iff_eq_take]
  constructor
  · rintro ⟨-, h⟩
    exact h.symm
  · intro h
    refine ⟨?_, h.symm⟩
    have := congrArg List.length h
    simp only [List.length_take] at this
    omega

/-- Removing a directory with all it holds drops every name under it and no other, and keeps
every inode. -/
theorem removeDirAll_under {d : Disk} {P : List String} {path name : String}
    (chain : Disk.DirChain d P) (comps : components path = P ++ [name])
    (dir : d.node? (P ++ [name]) = some .dir)
    : ∃ d', d.removeDirAll path = .ok d' ∧ d'.contents = d.contents ∧
        ∀ q, d'.node? q = if P ++ [name] <+: q then none else d.node? q := by
  refine ⟨_, Disk.removeDirAll_dir chain comps dir, rfl, fun q => ?_⟩
  by_cases root : q = []
  · subst root
    have : ¬ P ++ [name] <+: [] := fun under => by simpa using under.length_le
    simp [Disk.node?, this]
  · simp only [Disk.node?, List.isEmpty_iff, root, if_false]
    rw [lookup_filter_keep d.nodes
      (fun q => !(decide (q.length ≥ (P ++ [name]).length) && q.take (P ++ [name]).length == P ++ [name]))]
    by_cases under : P ++ [name] <+: q
    · rw [if_pos under, if_neg (by rw [(under_test _ q).mpr under]; decide)]
    · rw [if_neg under, if_pos]
      cases test : (!(decide (q.length ≥ (P ++ [name]).length) && q.take (P ++ [name]).length == P ++ [name]))
      · exact absurd ((under_test _ q).mp test) under
      · rfl

section Whole

variable {d : Disk} {dataDir : String} {rs : List Identity} {N : Int64} {options : Options}

/-- The compaction directory of a whole log, with the directories on its way, is a chain of
directories when it is there. -/
theorem chain_compactPath (chain : Disk.DirChain d (components dataDir))
    (dir : d.node? (compactPath dataDir) = some .dir) : Disk.DirChain d (compactPath dataDir) :=
  fun q hq => by
    rcases mem_prefixes_compactPath.mp hq with onPath | rfl
    · exact chain q onPath
    · exact dir

theorem Whole.chain {l : IdentityLog} {rs' : List Identity} (h : Whole d dataDir rs N l rs')
    : Disk.DirChain d (components dataDir) := h.home ▸ h.stored.placed.chain

/-- Removing a leftover compaction directory leaves the log whole and nothing under it. -/
theorem Whole.removeAll {l : IdentityLog} {rs' : List Identity} (h : Whole d dataDir rs N l rs')
    (dir : d.node? (compactPath dataDir) = some .dir)
    : ∃ d', d.removeDirAll (join dataDir compactDir) = .ok d' ∧ Whole d' dataDir rs N l rs' ∧
        Cleared d' dataDir := by
  obtain ⟨d', removed, contents, names⟩ :=
    removeDirAll_under h.chain (components_join dataDir plain_compactDir) dir
  refine ⟨d', removed, h.frame (InodesKept.of_contents contents) fun q out => ?_, fun q under => ?_⟩
  · rw [names q, if_neg (show ¬ components dataDir ++ [compactDir] <+: q from out)]
  · rw [names q, if_pos (show components dataDir ++ [compactDir] <+: q from under)]

/-- Where no compaction directory is left, a recovery has nothing to do. -/
theorem recoveryPhases_cleared (chain : Disk.DirChain d (components dataDir))
    (cleared : Cleared d dataDir) : recoveryPhases dataDir options d = [] := by
  simp only [recoveryPhases, Disk.exists_absent chain (components_join dataDir plain_compactDir)
    (cleared _ (List.prefix_refl _)), Bool.not_false, if_true]

/-- Where the compaction directory holds no marker, a recovery removes it. -/
theorem recoveryPhases_unmarked (chain : Disk.DirChain d (components dataDir))
    (dir : d.node? (compactPath dataDir) = some .dir)
    (noMarker : d.node? (compactPath dataDir ++ [swapMarker]) = none)
    : recoveryPhases dataDir options d = [fun _ => [removeAll (join dataDir compactDir)]] := by
  have comps := components_join (join dataDir compactDir) plain_swapMarker
  rw [components_compactDir] at comps
  simp only [recoveryPhases, Disk.exists_of_node chain (components_join dataDir plain_compactDir) dir,
    Disk.exists_absent (chain_compactPath chain dir) comps noMarker, Bool.not_true,
    Bool.not_false, Bool.false_eq_true, if_false, if_true]

/-- Where the compaction directory holds a marker, a recovery makes the log again from the copy. -/
theorem recoveryPhases_marked {t : IdentityLog} (complete : Complete d dataDir rs N t)
    (chain : Disk.DirChain d (components dataDir))
    : recoveryPhases dataDir options d =
        (fun _ => [hold .temp (IdentityLog.openIn (join dataDir compactDir) options),
          hold .main (IdentityLog.create dataDir options)]) ::
        (copyBackPhases ++ [discardPhase (join dataDir compactDir)]) := by
  have chainC : Disk.DirChain d (compactPath dataDir) := by
    rw [← components_compactDir, ← complete.home]
    exact complete.stored.placed.chain
  have comps := components_join (join dataDir compactDir) plain_swapMarker
  rw [components_compactDir] at comps
  obtain ⟨m, marker⟩ := complete.marker
  simp only [recoveryPhases,
    Disk.exists_of_node chain (components_join dataDir plain_compactDir) (Disk.node?_of_chain chainC),
    Disk.exists_of_node chainC comps marker, Bool.not_true, Bool.false_eq_true, if_false]

/-- From a recoverable file system, a recovery passes only through recoverable ones and ends with
the log whole and nothing under the compaction directory. -/
theorem recovery_chain (h : Recoverable dataDir rs N d) (options : Options)
    : PhaseChain (fun s => Recoverable dataDir rs N s.disk) (recoveryPhases dataDir options d)
        (fun s => s.disk = d) (fun s => Restored s.disk dataDir rs N) := by
  cases h with
  | unmarked whole leftover =>
      rcases leftover with ⟨dir, noMarker⟩ | cleared
      · rw [recoveryPhases_unmarked whole.chain dir noMarker]
        obtain ⟨d', removed, whole', cleared'⟩ := whole.removeAll dir
        refine .cons (fun s start => ?_) restored_done
        · have ran : removeAll (join dataDir compactDir) s = .ok () { s with disk := d' } :=
            change_ok (by rw [start]; exact removed)
          rw [stepStates_cons_ok ran, runSteps_cons_ok ran]
          refine ⟨fun u mem => ?_, _, rfl, _, _, whole', cleared'⟩
          simp only [stepStates, List.mem_cons, List.not_mem_nil, or_false] at mem
          rcases mem with rfl | rfl
          · rw [start]
            exact .unmarked whole (.inl ⟨dir, noMarker⟩)
          · exact .unmarked whole' (.inr cleared')
      · rw [recoveryPhases_cleared whole.chain cleared]
        exact .nil fun s start => by
          rw [start]
          exact ⟨.unmarked whole (.inr cleared), _, _, whole, cleared⟩
  | marked complete openable remakeable =>
      rw [recoveryPhases_marked complete remakeable.chain]
      exact .cons (remake_spec options complete openable remakeable)
        ((copyBack_chain openable).append (.cons (discard_spec openable)
          restored_done))

/-- A recovery of a recoverable file system passes only through recoverable ones, and succeeds,
leaving the log whole and nothing under the compaction directory. -/
theorem Recoverable.recover (h : Recoverable dataDir rs N d) (options : Options)
    : (∀ d' ∈ recoveryDisks dataDir options d, Recoverable dataDir rs N d') ∧
        ∃ d', recoverInterrupted dataDir options d = .ok () d' ∧ Restored d' dataDir rs N := by
  obtain ⟨states, s', ran, restored⟩ :=
    (recovery_chain h options).run (rfl : (recoveryStart dataDir options d).disk = d)
  refine ⟨fun d' mem => ?_, s'.disk, recoverInterrupted_of_phases ran, restored⟩
  obtain ⟨t, passed, rfl⟩ := List.mem_map.mp mem
  exact states t passed

end Whole

-----------------------------------------------------------------------------------------
-- Recoveries that are killed, and the open that follows
-----------------------------------------------------------------------------------------

/-- The file systems that recoveries of `dataDir`, each killed after some of its steps, leave one
after another. -/
inductive KilledRecoveries (dataDir : String) (options : Options) : Disk → Disk → Prop
  | refl (d : Disk) : KilledRecoveries dataDir options d d
  | killed {d d' d'' : Disk} : d' ∈ recoveryDisks dataDir options d →
      KilledRecoveries dataDir options d' d'' → KilledRecoveries dataDir options d d''

section Open

variable {d d' : Disk} {dataDir : String} {rs : List Identity} {N : Int64} {options : Options}

/-- A recovery killed at any step, any number of times, leaves a recoverable file system. -/
theorem Recoverable.killed (h : Recoverable dataDir rs N d)
    (runs : KilledRecoveries dataDir options d d') : Recoverable dataDir rs N d' := by
  induction runs with
  | refl => exact h
  | killed left _ ih => exact ih ((h.recover options).1 _ left)

/-- An open whose recovery brought back the log of `rs` but failed in filling the fresh caches:
the log had opened on records whose live ones are those of `rs`, under the id mark `N`, and
loading it into new caches of the configured sizes failed. -/
def LoadFailed (config : Config) (rs : List Identity) (N : Int64) (e : StoreError) : Prop :=
  ∃ s s' rs', Stored s.disk s.log (rs'.map stored) ∧ liveRecords rs' = liveRecords rs ∧
    s.log.nextId = N ∧
    Table.CacheSet.create config.nameCache config.opaqueCache config.locationCache = .ok s.caches ∧
    IndexedLog.load s = .error e s'

/-- Opening the data directory of a recoverable file system, under a valid configuration whose
caches can be made, gives a store consistent with records whose live ones are those of `rs`,
under the id mark `N`; or it fails in filling the fresh caches from the log. -/
theorem Recoverable.open_outcome (config : Config) (h : Recoverable config.dataDir rs N d)
    (valid : config.validate = .ok ()) {caches : Table.CacheSet}
    (created : Table.CacheSet.create config.nameCache config.opaqueCache config.locationCache =
      .ok caches)
    : (∃ st d', Store.open config d = .ok st d' ∧ ∃ rs', st.Consistent rs' ∧
        liveRecords rs' = liveRecords rs ∧ st.log.nextId = N ∧ st.config = config) ∨
      ∃ e d', Store.open config d = .error e d' ∧ LoadFailed config rs N e := by
  obtain ⟨-, d1, recovered, l, rs', whole, cleared⟩ := h.recover config.logOptions
  obtain ⟨l', d2, opened, stored', header', -, -, dir', -, -, -, nodes', -, -⟩ :=
    openIn_stored whole.stored config.logOptions
  rw [whole.home] at opened
  have nextId' : l'.nextId = N := by
    rw [IdentityLog.nextId, header']
    exact whole.nextId
  rw [Store.open_loaded valid recovered opened created]
  cases loaded : IndexedLog.load ⟨d2, l', caches⟩ with
  | ok u t =>
      obtain ⟨sound, blank⟩ := indexed_create created
      obtain ⟨consistent, disk, logEq⟩ :=
        @IndexedLog.load_ok ⟨d2, l', caches⟩ t rs' stored' whole.openable.canonical
          whole.openable.distinct (fun r mem => nextId' ▸ whole.openable.fresh r mem) sound blank
          () loaded
      have logNextId : t.log.nextId = N := by rw [logEq]; exact nextId'
      refine .inl ⟨_, _, rfl, rs', ⟨consistent, ?_, fun q under => ?_, ?_⟩, whole.kept,
        logNextId, rfl⟩
      · show t.log.dir = config.dataDir
        rw [logEq, dir', whole.home]
      · show t.disk.node? q = none
        rw [disk, Disk.node?_congr nodes']
        exact cleared q under
      · show ¬ Header.fresh.nextId > t.log.nextId
        rw [logNextId]
        exact whole.openable.started
  | error e t => exact .inr ⟨e, _, rfl, ⟨d2, l', caches⟩, t, rs', stored', whole.kept, nextId',
      created, loaded⟩

end Open

end MetricRegistry.Store
