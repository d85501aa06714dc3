import MetricRegistry.Proofs.Recovery

/-! A compaction killed at any step: every state its phases pass through is `Recoverable`, so
after a kill and any number of killed recoveries, opening the store brings back the live
records, the id mark and every lookup (`session_compaction_crash_safe`). -/

namespace MetricRegistry.Store

open Disk Log Record Swapping

namespace Swapping

/-- Writes the empty marker in the compaction directory `dir`. -/
def mark (dir : String) : Step := change (·.writeFile (join dir swapMarker) ByteArray.empty)

end Swapping

-----------------------------------------------------------------------------------------
-- The steps of a compaction
-----------------------------------------------------------------------------------------

/-- The phases that copy the live records of the log `l` to a temporary log in `dir`, as
`rewriteLive` makes them: the temporary log made, each record copied, its id mark raised, and
the marker written. -/
def rewritePhases (l : IdentityLog) (dir : String) : List PhaseSteps :=
  [fun _ => [hold .temp (IdentityLog.create dir { l.options with syncMode := .never })],
   fun s => (l.records s.disk).map fun x => onSide .temp (keepLive x.2 >>= fun _ => pure ()),
   fun _ => [onSide .temp (raiseNextId l.nextId >>= fun _ => sync), mark dir]]

/-- The steps of `recreate` on the log `l`: each of its files removed, the log made again, and its
id mark raised back. -/
def recreatePhase (l : IdentityLog) : PhaseSteps := fun _ =>
  [onSide .main (modify (fun s => { s with log := s.log.close }) >>= fun _ => removeIfExists l.dataPath),
   onSide .main (removeIfExists l.indexPath),
   hold .main (IdentityLog.create l.dir l.options),
   onSide .main (raiseNextId l.nextId >>= fun _ => sync)]

/-- The phases of a compaction of the log `l`: the copy out, the log made again, the copy back and
the temporary log discarded. -/
def compactionPhases (l : IdentityLog) : List PhaseSteps :=
  rewritePhases l (join l.dir compactDir) ++
    recreatePhase l :: (copyBackPhases ++ [discardPhase (join l.dir compactDir)])

/-- The state a compaction of the store `st` starts in: its file system and log, and no temporary
log open yet. -/
def compactionStart (st : Store) : Swapping :=
  ⟨st.disk, st.log, unopened (join st.log.dir compactDir) { st.log.options with syncMode := .never }⟩

/-- The file systems a compaction of `st` passes through, one after each of its steps: a process
killed during the compaction leaves one of them. -/
def compactionDisks (st : Store) : List Disk :=
  (phaseStates (compactionPhases st.log) (compactionStart st)).map (·.disk)

section Faithful

variable {s s' : Swapping}

theorem mark_inv {dir : String} (h : mark dir s = .ok () s')
    : s.disk.writeFile (join dir swapMarker) ByteArray.empty = .ok s'.disk ∧ s'.temp = s.temp ∧
        s'.log = s.log := by
  obtain ⟨wrote, hs⟩ := change_inv h
  refine ⟨wrote, ?_, ?_⟩ <;> rw [hs]

/-- Copying out through the phases is `rewriteLive`: it gives the temporary log the phases end
with, on the file system they leave, and keeps the log's handle. -/
theorem rewriteLive_of_phases {l : IdentityLog} {dir : String}
    (h : runPhases (rewritePhases l dir) s = .ok () s')
    : rewriteLive l dir s.disk = .ok s'.temp s'.disk ∧ s'.log = s.log := by
  obtain ⟨s1, made, rest⟩ := runPhases_cons_inv h
  obtain ⟨s2, looped, rest⟩ := runPhases_cons_inv rest
  obtain ⟨s3, ended, done⟩ := runPhases_cons_inv rest
  obtain rfl := runPhases_nil_inv done
  obtain ⟨s4, made, done⟩ := runSteps_cons_inv made
  obtain rfl := runSteps_nil_inv done
  obtain ⟨made, hs1⟩ := hold_inv made
  rw [runSteps_map_onSide] at looped
  obtain ⟨looped, hs2⟩ := onSide_inv looped
  obtain ⟨s5, raised, rest⟩ := runSteps_cons_inv ended
  obtain ⟨s6, marked, done⟩ := runSteps_cons_inv rest
  obtain rfl := runSteps_nil_inv done
  obtain ⟨raised, hs5⟩ := onSide_inv raised
  obtain ⟨wrote, temp6, log6⟩ := mark_inv marked
  have log1 : s1.log = s.log := by rw [hs1]; rfl
  have log2 : s2.log = s1.log := by rw [hs2]; rfl
  have log5 : s5.log = s2.log := by rw [hs5]; rfl
  refine ⟨?_, log6.trans (log5.trans (log2.trans log1))⟩
  simp only [logOn] at made looped raised
  simp only [bind, EStateM.bind] at raised
  have looped' : forIn (l.records s1.disk) PUnit.unit
      (fun x _ => EStateM.bind (keepLive x.2) fun _ => pure (ForInStep.yield PUnit.unit))
      ⟨s1.disk, s1.temp⟩ = .ok () ⟨s2.disk, s2.temp⟩ := looped
  rw [temp6]
  unfold rewriteLive
  simp only [bind, EStateM.bind, made, get, getThe, MonadStateOf.get, EStateM.get, onLog]
  rw [looped']
  dsimp only
  rw [raised]
  simp only [liftIo, wrote, set, EStateM.set, pure, EStateM.pure]

/-- Making the log again through the phase is `recreate` on the log it starts with; the
temporary log's handle is kept. -/
theorem recreate_of_phase {l : IdentityLog} (start : s.log = l)
    (h : runSteps (recreatePhase l s) s = .ok () s')
    : recreate ⟨s.disk, l⟩ = .ok () ⟨s'.disk, s'.log⟩ ∧ s'.temp = s.temp := by
  obtain ⟨s1, closed, rest⟩ := runSteps_cons_inv h
  obtain ⟨s2, removed, rest⟩ := runSteps_cons_inv rest
  obtain ⟨s3, made, rest⟩ := runSteps_cons_inv rest
  obtain ⟨s4, raised, done⟩ := runSteps_cons_inv rest
  obtain rfl := runSteps_nil_inv done
  obtain ⟨closed, hs1⟩ := onSide_inv closed
  obtain ⟨removed, hs2⟩ := onSide_inv removed
  obtain ⟨made, hs3⟩ := hold_inv made
  obtain ⟨raised, hs4⟩ := onSide_inv raised
  have temp : s'.temp = s.temp := by
    rw [hs4, update_main_temp, hs3, update_main_temp, hs2, update_main_temp, hs1, update_main_temp]
  refine ⟨?_, temp⟩
  simp only [logOn, start] at closed removed made raised
  simp only [bind, EStateM.bind, modify, modifyGet, MonadStateOf.modifyGet, EStateM.modifyGet]
    at closed
  unfold recreate
  simp only [bind, EStateM.bind, get, getThe, MonadStateOf.get, EStateM.get, modify, modifyGet,
    MonadStateOf.modifyGet, EStateM.modifyGet, closed, removed, onDisk, made]
  exact raised

/-- A compaction through the phases is the real one: when every step succeeds, the live records
are copied out by `rewriteLive` and the copy is put in place by `swap`, which leaves the file
system the last step left. -/
theorem compaction_faithful {st : Store}
    (h : runPhases (compactionPhases st.log) (compactionStart st) = .ok () s')
    : ∃ temp d1 st3, rewriteLive st.log (join st.log.dir compactDir) st.disk = .ok temp d1 ∧
        Store.swap temp (join st.log.dir compactDir) (st.onDisk fun _ => d1) = .ok () st3 ∧
        st3.disk = s'.disk := by
  obtain ⟨s3, rewritten, rest⟩ := runPhases_append_inv h
  obtain ⟨s4, recreated, rest⟩ := runPhases_cons_inv rest
  obtain ⟨s5, copied, rest⟩ := runPhases_append_inv rest
  obtain ⟨s6, discarded, done⟩ := runPhases_cons_inv rest
  obtain rfl := runPhases_nil_inv done
  obtain ⟨rewritten, log3⟩ := rewriteLive_of_phases rewritten
  obtain ⟨recreated, temp4⟩ := recreate_of_phase log3 recreated
  obtain ⟨copied, temp5⟩ := copyBack_of_phases copied
  obtain ⟨d6, removed, destroyed⟩ := discard_of_phase discarded
  rw [temp4] at copied
  rw [temp5, temp4] at destroyed
  refine ⟨s3.temp, s3.disk, _, rewritten, Store.swap_ok recreated copied, ?_⟩
  simp only [Store.disk, discardTemp, removed, onLog, destroyed]

end Faithful

-----------------------------------------------------------------------------------------
-- Every state of a compaction is recoverable
-----------------------------------------------------------------------------------------

/-- A state of a compaction of the log `l`, whole with the records `rs`, that is copying the live
ones among `pre` out: the log is held and whole, and the temporary log, on inodes apart from the
log's, holds the live records of `pre` under a mark at most `l`'s, alone with no marker in the
compaction directory. -/
structure Copying (l : IdentityLog) (rs pre : List Identity) (s : Swapping) : Prop where
  whole : Whole s.disk l.dir rs l.nextId l rs
  held : s.log = l
  copy : Stored s.disk s.temp ((liveRecords pre).map stored)
  home : s.temp.dir = join l.dir compactDir
  below : ¬ s.temp.header.nextId > l.nextId
  alone : ∀ q, compactPath l.dir <+: q → q ≠ compactPath l.dir →
    q ≠ compactPath l.dir ++ [indexFile] → q ≠ compactPath l.dir ++ [dataFile] → s.disk.node? q = none
  apart : ∀ i, s.temp.index.inode = some i ∨ s.temp.data.inode = some i →
    l.data.inode ≠ some i ∧ l.index.inode ≠ some i

section Compaction

variable {l : IdentityLog} {rs : List Identity}

theorem Copying.recoverable {pre : List Identity} {s : Swapping} (h : Copying l rs pre s)
    : Recoverable l.dir rs l.nextId s.disk := by
  have chain : Disk.DirChain s.disk (compactPath l.dir) := by
    rw [← components_compactDir, ← h.home]
    exact h.copy.placed.chain
  exact .unmarked h.whole (.inl ⟨Disk.node?_of_chain chain,
    h.alone _ (List.prefix_append _ _) (fun same => by simpa using congrArg List.length same)
      (child_ne_child (by decide)) (child_ne_child (by decide))⟩)

/-- An inode of the log is neither of the copy's. -/
theorem Copying.log_apart {pre : List Identity} {s : Swapping} (h : Copying l rs pre s) {i : Nat}
    (hi : l.index.inode = some i ∨ l.data.inode = some i)
    : s.temp.index.inode ≠ some i ∧ s.temp.data.inode ≠ some i :=
  inodes_apart_symm (fun j hj => (h.apart j hj).symm) hi

/-- A step on the temporary log that keeps its files and touches only their bytes keeps the log
whole and the copy alone. -/
theorem Copying.confined {pre pre' : List Identity} {s : Swapping} {d' : Disk} {t' : IdentityLog}
    (h : Copying l rs pre s) (copy : Stored d' t' ((liveRecords pre').map stored))
    (below : ¬ t'.header.nextId > l.nextId) (same : SameFiles s.temp t')
    (confined : Confined s.temp s.disk d') : Copying l rs pre' (s.update .temp ⟨d', t'⟩) := by
  -- the log's inodes are none of the copy's, so the step leaves their bytes
  have kept : ∀ i, l.index.inode = some i ∨ l.data.inode = some i → d'.bytesOf i = s.disk.bytesOf i := by
    intro i hi
    obtain ⟨index, data⟩ := h.log_apart hi
    exact confined.others i data index
  refine ⟨⟨h.whole.stored.frame (Nat.le_of_eq confined.size.symm) kept
      fun q _ => Disk.node?_congr confined.nodes q, h.whole.home, h.whole.nextId, h.whole.kept,
      h.whole.openable⟩, h.held, copy, same.dir.trans h.home, below, fun q under ne i j => ?_,
    fun i hi => ?_⟩
  · show d'.node? q = none
    rw [Disk.node?_congr confined.nodes]
    exact h.alone q under ne i j
  · rw [update_temp_temp, same.index, same.data] at hi
    exact h.apart i hi

/-- Copying the next record out keeps the compaction copying, one record further. -/
theorem Copying.keep {pre : List Identity} {s : Swapping} (h : Copying l rs pre s) {r : Identity}
    (sub : pre ++ [r] <+: rs)
    : ∃ s', onSide .temp (keepLive (stored r) >>= fun _ => pure ()) s = .ok () s' ∧
        Copying l rs (pre ++ [r]) s' := by
  have mem : r ∈ rs := sub.subset (by simp)
  have fits : s.temp.header.dataEnd + (stored r).size < Table.wordLimit := by
    rw [h.copy.reads.dataEnd, offsetOf_length]
    have room := (Header.fits_of_decode h.whole.stored.persisted.header).dataEnd
    rw [h.whole.stored.reads.dataEnd, offsetOf_length] at room
    have total := size_sum_le
      (((liveRecords_sublist pre).append (List.Sublist.refl [r])).trans sub.sublist)
    simp only [List.map_append, List.map_singleton, List.sum_append, List.sum_singleton] at total
    unfold Table.wordLimit
    omega
  obtain ⟨d', t', ran, stored', header', same, confined⟩ :=
    keepLive_stored h.copy (h.whole.openable.canonical r mem) fits
  refine ⟨s.update .temp ⟨d', t'⟩, onSide_ok ?_,
    h.confined (by simpa [liveRecords_append] using stored') ?_ same confined⟩
  · simp only [logOn, bind, EStateM.bind, ran, pure, EStateM.pure]
  · rcases header' with kept | appended
    · rw [kept]
      exact h.below
    · rw [appended]
      exact nextId_appended_le h.below (h.whole.openable.fresh r mem)

/-- Making the temporary log beside a whole log, in an empty compaction directory, starts the
copy. -/
theorem makeTemp_spec {d : Disk} (whole : Whole d l.dir rs l.nextId l rs)
    (cleared : Cleared d l.dir)
    : PhaseSpec (fun _ => [hold .temp (IdentityLog.create (join l.dir compactDir)
          { l.options with syncMode := .never })])
        (fun s => s.disk = d ∧ s.log = l) (fun s => Recoverable l.dir rs l.nextId s.disk)
        (Copying l rs []) := by
  intro s ⟨start, held⟩
  obtain ⟨temp, d', made, stored0, header0, dir0, kept, same, alone, inodes⟩ :=
    create_beside whole.stored cleared { l.options with syncMode := .never }
  rw [← start] at made
  have ran : hold .temp (IdentityLog.create (join l.dir compactDir)
      { l.options with syncMode := .never }) s = .ok () (s.update .temp ⟨d', temp⟩) := hold_ok made
  have apart : ∀ i, temp.index.inode = some i ∨ temp.data.inode = some i →
      l.data.inode ≠ some i ∧ l.index.inode ≠ some i := fun i hi => by
    have new := inodes i hi
    refine ⟨fun own => ?_, fun own => ?_⟩
    · have := whole.stored.inode_lt (.inr own)
      omega
    · have := whole.stored.inode_lt (.inl own)
      omega
  have copying : Copying l rs [] (s.update .temp ⟨d', temp⟩) :=
    ⟨whole.frame kept same, by rw [update_temp_log, held], by simpa [liveRecords] using stored0,
      dir0, by rw [update_temp_temp, header0]; exact whole.openable.started, alone, apart⟩
  rw [stepStates_cons_ok ran, runSteps_cons_ok ran]
  refine ⟨fun u mem => ?_, _, rfl, copying⟩
  simp only [stepStates, List.mem_cons, List.not_mem_nil, or_false] at mem
  rcases mem with rfl | rfl
  · rw [start]
    exact .unmarked whole (.inr cleared)
  · exact copying.recoverable

/-- Copying each record out, one step each, passes only through recoverable file systems and ends
with every live record copied. -/
theorem copyOut_spec
    : PhaseSpec (fun s => (l.records s.disk).map fun x =>
          onSide .temp (keepLive x.2 >>= fun _ => pure ()))
        (Copying l rs []) (fun s => Recoverable l.dir rs l.nextId s.disk) (Copying l rs rs) := by
  intro s copying
  have steps : (l.records s.disk).map (fun x => onSide .temp (keepLive x.2 >>= fun _ => pure ())) =
      rs.map fun r => onSide .temp (keepLive (stored r) >>= fun _ => pure ()) :=
    records_steps copying.whole.stored.reads fun bytes => onSide .temp (keepLive bytes >>= fun _ => pure ())
  dsimp only
  rw [steps]
  obtain ⟨states, s', ran, done⟩ := runSteps_map rs _ (fun pre t => Copying l rs pre t)
    (fun pre r rest whole t held => held.keep ⟨rest, by simpa using whole⟩) copying
  refine ⟨fun t mem => ?_, s', ran, done⟩
  obtain ⟨pre, -, held⟩ := states t mem
  exact held.recoverable

/-- Raising the copy's id mark to the log's and writing the marker makes the copy complete: the
log is then made again from it. -/
theorem markCopy_spec
    : PhaseSpec (fun _ => [onSide .temp (raiseNextId l.nextId >>= fun _ => sync),
          mark (join l.dir compactDir)])
        (Copying l rs rs) (fun s => Recoverable l.dir rs l.nextId s.disk)
        (fun s => Remaking l.dir rs l.nextId (rs.map stored) s ∧ s.log = l) := by
  intro s copying
  obtain ⟨d1, t1, raised, stored1, header1, same1, confined1⟩ := copying.copy.raiseNextId l.nextId
  have nextId1 : t1.header.nextId = l.nextId := by
    rw [header1]
    exact raised_to_bound copying.below
  have copying1 : Copying l rs rs (s.update .temp ⟨d1, t1⟩) :=
    copying.confined stored1 (by rw [nextId1]; exact fun above => Int64.lt_irrefl above) same1
      confined1
  have ran1 : onSide .temp (raiseNextId l.nextId >>= fun _ => sync) s =
      .ok () (s.update .temp ⟨d1, t1⟩) :=
    onSide_ok (by simp only [logOn, bind, EStateM.bind, raised, sync, pure, EStateM.pure])
  have comps : components t1.dir = compactPath l.dir := by
    rw [← components_compactDir]
    exact congrArg components copying1.home
  have chain1 : Disk.DirChain d1 (components (join l.dir compactDir)) := by
    rw [components_compactDir, ← comps]
    exact copying1.copy.placed.chain
  have absent1 : d1.node? (components (join l.dir compactDir) ++ [swapMarker]) = none := by
    rw [components_compactDir]
    exact copying1.alone _ (List.prefix_append _ _)
      (fun same => by simpa using congrArg List.length same) (child_ne_child (by decide))
      (child_ne_child (by decide))
  obtain ⟨d2, wrote, marker2, kept2, names2⟩ := writeFile_marker chain1 absent1
  rw [components_compactDir] at marker2 names2
  have ran2 : mark (join l.dir compactDir) (s.update .temp ⟨d1, t1⟩) =
      .ok () { s.update .temp ⟨d1, t1⟩ with disk := d2 } := change_ok wrote
  have complete : Complete d2 l.dir rs l.nextId t1 :=
    ⟨stored1.frame kept2.size (fun i hi => kept2.bytes i (stored1.inode_lt hi))
        fun q own => names2 q (ne_marker (comps ▸ own)),
      copying1.home, nextId1, marker2,
      fun q under ne i j k => by rw [names2 q k]; exact copying1.alone q under ne i j⟩
  have remaking : Remaking l.dir rs l.nextId (rs.map stored) { s.update .temp ⟨d1, t1⟩ with disk := d2 } := by
    refine ⟨?_, by rw [copying1.held], complete, fun i hi => ?_⟩
    · show Stored d2 (s.update .temp ⟨d1, t1⟩).log (rs.map stored)
      rw [copying1.held]
      exact (copying1.whole.frame kept2 fun q out => names2 q fun same =>
        out (by rw [same]; exact List.prefix_append _ _)).stored
    · rw [show (s.update .temp ⟨d1, t1⟩).log = l from copying1.held] at hi
      exact copying1.log_apart hi
  rw [stepStates_cons_ok ran1, stepStates_cons_ok ran2, runSteps_cons_ok ran1,
    runSteps_cons_ok ran2]
  refine ⟨fun u mem => ?_, _, rfl, remaking, copying1.held⟩
  simp only [stepStates, List.mem_cons, List.not_mem_nil, or_false] at mem
  rcases mem with rfl | rfl | rfl
  · exact copying.recoverable
  · exact copying1.recoverable
  · exact remaking.recoverable copying.whole.openable.live

/-- Removing a file of the log beside a complete temporary log on other inodes drops that name
only: the copy stays complete and the log can still be made again. -/
theorem Remakeable.remove {d : Disk} {dataDir : String} {N : Int64} {t : IdentityLog}
    (complete : Complete d dataDir rs N t) (remakeable : Remakeable d dataDir t) {name : String}
    (file : name = indexFile ∨ name = dataFile) {i : Nat}
    (named : d.node? (components dataDir ++ [name]) = some (.file i))
    : ∃ d', d.removeFileIfExists (join dataDir name) = .ok d' ∧ Complete d' dataDir rs N t ∧
        Remakeable d' dataDir t ∧ ∀ q, q ≠ components dataDir ++ [name] → d'.node? q = d.node? q := by
  have comps : components (join dataDir name) = components dataDir ++ [name] := by
    rcases file with rfl | rfl
    · exact components_join dataDir plain_indexFile
    · exact components_join dataDir plain_dataFile
  have removed := Disk.removeFileIfExists_file remakeable.chain comps named
  have unlinked : ∀ q, q ≠ [] → ({ d with nodes := d.nodes.filter (·.1 != components dataDir ++ [name]) } :
      Disk).node? q = if q = components dataDir ++ [name] then none else d.node? q :=
    fun q hq => Disk.node?_unlink hq
  have others : ∀ q, q ≠ components dataDir ++ [name] →
      ({ d with nodes := d.nodes.filter (·.1 != components dataDir ++ [name]) } : Disk).node? q =
        d.node? q := fun q ne => node?_unlink_other ne
  have back : ∀ q n, ({ d with nodes := d.nodes.filter (·.1 != components dataDir ++ [name]) } :
      Disk).node? q = some n → d.node? q = some n := fun q n there => by
    by_cases ne : q = components dataDir ++ [name]
    · rw [unlinked q (by rw [ne]; simp), if_pos ne] at there
      cases there
    · rw [others q ne] at there
      exact there
  have slot : ∀ x, FileSlot d (components dataDir ++ [x]) →
      FileSlot { d with nodes := d.nodes.filter (·.1 != components dataDir ++ [name]) }
        (components dataDir ++ [x]) := fun x held => by
    rw [FileSlot, unlinked _ (by simp)]
    split
    · exact .inl rfl
    · exact held
  refine ⟨_, removed, complete.frame (Nat.le_refl _) (fun _ _ => rfl) fun q notI notD => ?_,
    ⟨DirChain.unlink remakeable.chain name, slot _ remakeable.index, slot _ remakeable.data,
      fun i fileI fileD => remakeable.apart i (back _ _ fileI) (back _ _ fileD),
      fun i there => remakeable.others i (there.imp (back _ _) (back _ _))⟩, others⟩
  rcases file with rfl | rfl
  · exact others q notI
  · exact others q notD

/-- Making the log again, a file removal, the re-creation and the mark raised back, one step
each, passes only through recoverable file systems and leaves the log empty under the mark. -/
theorem recreate_spec (openable : Openable (liveRecords rs) l.nextId)
    : PhaseSpec (recreatePhase l)
        (fun s => Remaking l.dir rs l.nextId (rs.map stored) s ∧ s.log = l)
        (fun s => Recoverable l.dir rs l.nextId s.disk)
        (fun s => Remaking l.dir rs l.nextId [] s ∧ ¬ s.log.header.nextId > l.nextId) := by
  intro s ⟨remaking, held⟩
  obtain ⟨iI, -, namedI⟩ := remaking.main.placed.index
  obtain ⟨iD, -, namedD⟩ := remaking.main.placed.data
  rw [held] at namedI namedD
  obtain ⟨d1, removedD, complete1, remakeable1, others1⟩ :=
    Remakeable.remove remaking.copy remaking.remakeable (.inr rfl) namedD
  have namedI1 : d1.node? (components l.dir ++ [indexFile]) = some (.file iI) := by
    rw [others1 _ (child_ne_child indexFile_ne_dataFile)]
    exact namedI
  obtain ⟨d2, removedI, complete2, remakeable2, -⟩ :=
    Remakeable.remove complete1 remakeable1 (.inl rfl) namedI1
  have ran1 : onSide .main (modify (fun s => { s with log := s.log.close }) >>= fun _ =>
      removeIfExists l.dataPath) s = .ok () (s.update .main ⟨d1, l.close⟩) :=
    onSide_ok (by
      simp only [logOn, held, bind, EStateM.bind, modify, modifyGet, MonadStateOf.modifyGet,
        EStateM.modifyGet, removeIfExists, get, getThe, MonadStateOf.get, EStateM.get, liftIo,
        IdentityLog.dataPath, removedD, set, EStateM.set, pure, EStateM.pure])
  have ran2 : onSide .main (removeIfExists l.indexPath) (s.update .main ⟨d1, l.close⟩) =
      .ok () (s.update .main ⟨d2, l.close⟩) := by
    rw [← update_update s .main ⟨d1, l.close⟩]
    exact onSide_ok (by
      simp only [logOn, update_main_log, update_disk, removeIfExists, bind, EStateM.bind, get,
        getThe, MonadStateOf.get, EStateM.get, liftIo, IdentityLog.indexPath, removedI, set,
        EStateM.set, pure, EStateM.pure])
  obtain ⟨s3, ran3, remaking3, below3⟩ :=
    @Remakeable.remake l.dir rs l.nextId l.options (s.update .main ⟨d2, l.close⟩) complete2
      openable remakeable2
  obtain ⟨s4, ran4, remaking4, raised4⟩ := remaking3.raise l.nextId
  have below4 : ¬ s4.log.header.nextId > l.nextId := by
    rw [raised4, raised_to_bound below3]
    exact fun above => Int64.lt_irrefl above
  rw [recreatePhase]
  dsimp only
  rw [stepStates_cons_ok ran1, stepStates_cons_ok ran2, stepStates_cons_ok ran3,
    stepStates_cons_ok ran4, runSteps_cons_ok ran1, runSteps_cons_ok ran2, runSteps_cons_ok ran3,
    runSteps_cons_ok ran4]
  refine ⟨fun u mem => ?_, _, rfl, remaking4, below4⟩
  simp only [stepStates, List.mem_cons, List.not_mem_nil, or_false] at mem
  rcases mem with rfl | rfl | rfl | rfl | rfl
  · exact remaking.recoverable openable
  · exact .marked complete1 openable remakeable1
  · exact .marked complete2 openable remakeable2
  · exact remaking3.recoverable openable
  · exact remaking4.recoverable openable

/-- From a whole log with nothing in its compaction directory, a compaction passes only through
recoverable file systems and ends with the log whole and nothing under that directory. -/
theorem compaction_chain {d : Disk} (whole : Whole d l.dir rs l.nextId l rs)
    (cleared : Cleared d l.dir)
    : PhaseChain (fun s => Recoverable l.dir rs l.nextId s.disk) (compactionPhases l)
        (fun s => s.disk = d ∧ s.log = l) (fun s => Restored s.disk l.dir rs l.nextId) := by
  have openable := whole.openable.live
  have copiedOut : PhaseChain (fun s => Recoverable l.dir rs l.nextId s.disk)
      (rewritePhases l (join l.dir compactDir)) (fun s => s.disk = d ∧ s.log = l)
      (fun s => Remaking l.dir rs l.nextId (rs.map stored) s ∧ s.log = l) :=
    .cons (makeTemp_spec whole cleared) (.cons copyOut_spec (.cons markCopy_spec
      (.nil fun _ done => ⟨done.1.recoverable openable, done⟩)))
  exact copiedOut.append (.cons (recreate_spec openable) ((copyBack_chain openable).append
    (.cons (discard_spec openable) restored_done)))

end Compaction

-----------------------------------------------------------------------------------------
-- Opening a store after its compaction was killed
-----------------------------------------------------------------------------------------


variable {st st' : Store} {rs rs' : List Identity}

/-- Every state a compaction of a consistent store passes through is recoverable to its live
records under its id mark, and the compaction, run in full, succeeds. -/
theorem Consistent.compaction_recoverable (hc : st.Consistent rs)
    : (∀ d ∈ compactionDisks st, Recoverable st.config.dataDir rs st.log.nextId d) ∧
        ∃ s', runPhases (compactionPhases st.log) (compactionStart st) = .ok () s' := by
  have whole : Whole st.disk st.log.dir rs st.log.nextId st.log rs :=
    ⟨hc.indexed.stored, rfl, rfl, rfl,
      ⟨hc.indexed.canonical, hc.indexed.distinct, hc.indexed.fresh, hc.started⟩⟩
  have cleared : Cleared st.disk st.log.dir := fun q under =>
    hc.idle q (by rw [compactPath, hc.home] at under; exact under)
  obtain ⟨states, s', ran, -⟩ := (compaction_chain whole cleared).run
    (⟨rfl, rfl⟩ : (compactionStart st).disk = st.disk ∧ (compactionStart st).log = st.log)
  refine ⟨fun d mem => ?_, s', ran⟩
  obtain ⟨t, passed, rfl⟩ := List.mem_map.mp mem
  rw [← hc.home]
  exact states t passed

/-- What opening the data directory again keeps of a store `st` whose log held `rs`: a store
consistent with records whose live ones are those of `rs`, under the same id mark, answering
every lookup by name or opaque key and every `get` as `st` does. -/
structure Survives (st : Store) (rs : List Identity) (st' : Store) : Prop where
  consistent : ∃ rs', st'.Consistent rs' ∧ liveRecords rs' = liveRecords rs
  nextId : st'.log.nextId = st.log.nextId
  lookupName : ∀ n, st'.lookupName n = st.lookupName n
  lookupKey : ∀ k, st'.lookupKey k = st.lookupKey k
  get : ∀ g, st'.get g = st.get g

/-- A consistent store whose records have the live ones of `st`'s, under the same id mark,
answers as `st` does. -/
theorem Consistent.survives (hc : st.Consistent rs) (hc' : st'.Consistent rs')
    (kept : liveRecords rs' = liveRecords rs) (nextId : st'.log.nextId = st.log.nextId)
    : Survives st rs st' := by
  have same : ∀ r, (∃ i, LiveAt rs' i r) ↔ ∃ i, LiveAt rs i r := fun r => by
    rw [exists_liveAt_iff, exists_liveAt_iff, kept]
  exact ⟨⟨rs', hc', kept⟩, nextId, hc.lookupName_eq hc' same, hc.lookupKey_eq hc' same,
    hc.get_eq hc' same⟩

/-- Killing a compaction of a consistent store of a valid configuration after any of its steps,
then any number of recoveries each after any of its steps, and opening the data directory again
with either log access, gives a store that keeps the live records, the id mark and every answer;
or the opening fails in filling the fresh caches from the log. -/
theorem Consistent.compaction_killed (hc : st.Consistent rs) (valid : st.config.validate = .ok ())
    {caches : Table.CacheSet}
    (created : Table.CacheSet.create st.config.nameCache st.config.opaqueCache
      st.config.locationCache = .ok caches)
    (access : Access) {d d' : Disk} (killed : d ∈ compactionDisks st)
    (runs : KilledRecoveries st.config.dataDir (Config.logOptions { st.config with access }) d d')
    : (∃ st' d'', Store.open { st.config with access } d' = .ok st' d'' ∧ Survives st rs st') ∨
      ∃ e d'', Store.open { st.config with access } d' = .error e d'' ∧
        LoadFailed { st.config with access } rs st.log.nextId e := by
  have recoverable := (hc.compaction_recoverable.1 d killed).killed runs
  rcases Recoverable.open_outcome { st.config with access } recoverable
      ((Config.validate_access st.config access).trans valid) created with
    ⟨st', d'', opened, rs', hc', kept, nextId, -⟩ | failed
  · exact .inl ⟨st', d'', opened, hc.survives hc' kept nextId⟩
  · exact .inr failed


/-- Take any store a session of fewer than `2 ^ 62` calls reaches, and kill a compaction of it
after any of its steps, each write or removal made whole or not at all; the compaction's steps,
run in full, are the real compaction's, `rewriteLive` then `swap`. Killing then any number of
recoveries, each after any of its steps, and opening the data directory again with either log
access gives a store with the same live records under the same id mark, answering every lookup
by name or opaque key and every `get` as before the compaction; or the opening fails in filling
the fresh caches from the log, which opened on those records. -/
theorem session_compaction_crash_safe (config : Config) (cs : List Call) (few : cs.length < 2 ^ 62)
    (access : Access)
    : match session config cs with
      | some st => ∃ rs, st.Consistent rs ∧
          (∃ s', runPhases (compactionPhases st.log) (compactionStart st) = .ok () s' ∧
            ∃ temp d1 st3, rewriteLive st.log (join st.log.dir compactDir) st.disk = .ok temp d1 ∧
              Store.swap temp (join st.log.dir compactDir) (st.onDisk fun _ => d1) = .ok () st3 ∧
              st3.disk = s'.disk) ∧
          ∀ d ∈ compactionDisks st, ∀ d',
            KilledRecoveries st.config.dataDir (Config.logOptions { st.config with access }) d d' →
            (∃ st' d'', Store.open { st.config with access } d' = .ok st' d'' ∧
                Store.Survives st rs st') ∨
              ∃ e d'', Store.open { st.config with access } d' = .error e d'' ∧
                LoadFailed { st.config with access } rs st.log.nextId e
      | none => True := by
  cases reached : session config cs with
  | none => trivial
  | some st =>
      obtain ⟨rs, hc, -⟩ := session_consistent few reached
      obtain ⟨valid, caches, created⟩ := session_sized few reached
      obtain ⟨-, s', ran⟩ := hc.compaction_recoverable
      exact ⟨rs, hc, ⟨s', ran, compaction_faithful ran⟩,
        fun d killed d' runs => hc.compaction_killed valid created access killed runs⟩

theorem session_compaction_crash_safe_sample
    : [Call.resolve 0 (some "cpu") none, .resolve 0 none (some ⟨#[1]⟩), .delete 1].length <
        2 ^ 62 ∧
      match session { dataDir := "/srv/ids" }
          [.resolve 0 (some "cpu") none, .resolve 0 none (some ⟨#[1]⟩), .delete 1] with
      | some st => ∃ rs, st.Consistent rs ∧
          (∃ s', runPhases (compactionPhases st.log) (compactionStart st) = .ok () s' ∧
            ∃ temp d1 st3, rewriteLive st.log (join st.log.dir compactDir) st.disk = .ok temp d1 ∧
              Store.swap temp (join st.log.dir compactDir) (st.onDisk fun _ => d1) = .ok () st3 ∧
              st3.disk = s'.disk) ∧
          ∀ d ∈ compactionDisks st, ∀ d',
            KilledRecoveries st.config.dataDir (Config.logOptions { st.config with access := .file })
              d d' →
            (∃ st' d'', Store.open { st.config with access := .file } d' = .ok st' d'' ∧
                Store.Survives st rs st') ∨
              ∃ e d'', Store.open { st.config with access := .file } d' = .error e d'' ∧
                LoadFailed { st.config with access := .file } rs st.log.nextId e
      | none => True :=
  ⟨by decide, session_compaction_crash_safe _ _ (by decide) .file⟩

end MetricRegistry.Store
