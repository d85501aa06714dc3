import MetricRegistry.Log.Header
import MetricRegistry.Log.Region
import MetricRegistry.Record.Codec

/-! The identity log: records back to back in `identity.data`, and in `identity.index` a header
and one offset per record. An append writes the record, its offset, then the header, which
commits it; opening keeps the longest valid run of offsets and writes back a changed header. -/

namespace MetricRegistry.Log

open Disk

/-- When the log forces its writes to disk. -/
inductive SyncMode where
  | everyWrite
  | batched
  | never
  deriving DecidableEq, Repr

/-- The name a sync mode is written with. -/
def SyncMode.name : SyncMode → String
  | .everyWrite => "every_write"
  | .batched => "batched"
  | .never => "none"

/-- The sync mode a name is written for. -/
def SyncMode.ofName? : String → Option SyncMode
  | "every_write" => some .everyWrite
  | "batched" => some .batched
  | "none" => some .never
  | _ => none

/-- How a log is opened. -/
structure Options where
  access : Access := .mapped
  syncMode : SyncMode := .batched
  syncThreshold : Nat := 65536
  deriving Repr

/-- Name of the data file. -/
def dataFile : String := "identity.data"

/-- Name of the index file. -/
def indexFile : String := "identity.index"

/-- Bytes a mapped data file is extended to first. -/
def dataReserve : Nat := 65536

/-- Bytes a mapped index file is extended to first: room for 1024 offsets. -/
def indexReserve : Nat := headerSize + 1024 * 8

/-- An open log. -/
structure IdentityLog where
  dir : String
  options : Options
  data : Region
  index : Region
  header : Header
  offsets : Array Nat
  /-- Records that read as deleted: too short, or flagged so. -/
  tombstones : Nat

/-- A file system with an open log on it. -/
structure LogState where
  disk : Disk
  log : IdentityLog

/-- Operations on a log and its file system. -/
abbrev LogM := EStateM StoreError LogState

/-- Operations on a file system alone. -/
abbrev DiskM := EStateM StoreError Disk

namespace IdentityLog

/-- Number of records, live and deleted. -/
def size (l : IdentityLog) : Nat := l.offsets.size

/-- The log holds no record. -/
def isEmpty (l : IdentityLog) : Bool := l.offsets.isEmpty

/-- Bytes of committed record data. -/
def dataLen (l : IdentityLog) : Nat := l.header.dataEnd

/-- The smallest id the log has never handed out. -/
def nextId (l : IdentityLog) : Int64 := l.header.nextId

/-- Path of the data file. -/
def dataPath (l : IdentityLog) : String := join l.dir dataFile

/-- Path of the index file. -/
def indexPath (l : IdentityLog) : String := join l.dir indexFile

/-- Where the offset of record `i` is stored. -/
def offsetSlot (i : Nat) : Nat := headerSize + i * 8

/-- Byte range of record `i`. -/
def recordRange (l : IdentityLog) (i : Nat) : Except StoreError (Nat × Nat) :=
  match l.offsets[i]? with
  | none =>
    let n := l.offsets.size
    .error (.invalidLog s!"Record index {i} out of range ({n} records)")
  | some start => .ok (start, (l.offsets[i + 1]?).getD l.header.dataEnd)

/-- A copy of the bytes of record `i`. -/
def read (l : IdentityLog) (d : Disk) (i : Nat) : Except StoreError ByteArray := do
  let (start, stop) ← l.recordRange i
  (l.data.read d start (stop - start)).mapError .logIo

/-- Whether record `i` reads as deleted: out of range, shorter than a record header, unreadable,
or flagged so. -/
def isTombstoned (l : IdentityLog) (d : Disk) (i : Nat) : Bool :=
  match l.recordRange i with
  | .error _ => true
  | .ok (start, stop) =>
    if stop - start < Record.headerSize then true
    else match l.data.read d start 1 with
      | .ok flag => flag[0]?.getD 0 != Record.flagLive
      | .error _ => true

/-- Every record in order with its index; an unreadable one comes back empty. -/
def records (l : IdentityLog) (d : Disk) : List (Nat × ByteArray) :=
  (List.range l.size).map fun i =>
    match l.read d i with
    | .ok bytes => (i, bytes)
    | .error _ => (i, ByteArray.empty)

/-- The log with its files let go of and its offsets forgotten. -/
def close (l : IdentityLog) : IdentityLog :=
  { l with data := .closed, index := .closed, offsets := #[] }

end IdentityLog

/-- Runs a file-system step, failing as a log I/O error. -/
def liftIo {σ α : Type} (e : Except IoError α) : EStateM StoreError σ α :=
  match e with
  | .ok a => pure a
  | .error err => throw (.logIo err)

/-- Runs a step that may fail, keeping the state. -/
def liftExcept {σ α : Type} (e : Except StoreError α) : EStateM StoreError σ α :=
  match e with
  | .ok a => pure a
  | .error err => throw err

/-- Writes through the data file. -/
def writeData (pos : Nat) (bytes : ByteArray) : LogM Unit := do
  let s ← get
  let (r, d) ← liftIo (s.log.data.write s.disk pos bytes)
  set { s with disk := d, log := { s.log with data := r } }

/-- Writes through the index file. -/
def writeIndex (pos : Nat) (bytes : ByteArray) : LogM Unit := do
  let s ← get
  let (r, d) ← liftIo (s.log.index.write s.disk pos bytes)
  set { s with disk := d, log := { s.log with index := r } }

/-- Writes the header as the log holds it. -/
def writeHeader : LogM Unit := do
  writeIndex 0 (← get).log.header.encode

/-- Forces pending writes to disk; nothing to do in a model without a cache. -/
def sync : LogM Unit := pure ()

/-- Keeps the stored offsets that start at 0, rise strictly and stay below `dataEnd`. -/
def validPrefix (raw : ByteArray) (dataEnd : Nat) : Nat → Nat → Array Nat → Array Nat
  | 0, _, acc => acc
  | n + 1, i, acc =>
    let offset := Bytes.readLE raw (8 * i) 8
    let rising := match acc.back? with
      | none => offset == 0
      | some prev => decide (offset > prev)
    if rising && decide (offset < dataEnd) then validPrefix raw dataEnd n (i + 1) (acc.push offset) else acc

/-- Reads the committed offsets, dropping those that point outside the data, and writes the
header back if that changed it. -/
def loadOffsets : LogM Unit := do
  let s ← get
  let l := s.log
  let indexLen ← liftIo (l.index.length s.disk)
  let dataLen ← liftIo (l.data.length s.disk)
  let available := (indexLen - headerSize) / 8
  let count := min l.header.recordCount available
  let dataEnd := min l.header.dataEnd dataLen
  let raw ← liftIo (l.index.read s.disk headerSize (count * 8))
  let offsets := validPrefix raw dataEnd count 0 #[]
  let repaired := offsets.size != l.header.recordCount || dataEnd != l.header.dataEnd
  set { s with log := { l with offsets, header := { l.header with recordCount := offsets.size,
                                                                   dataEnd } } }
  if repaired then writeHeader

/-- Counts the records that read as deleted. -/
def countTombstones : LogM Unit :=
  modify fun s =>
    { s with log := { s.log with
        tombstones := ((List.range s.log.size).filter (s.log.isTombstoned s.disk)).length } }

/-- Runs a log operation on a file system. -/
def onLog {α : Type} (l : IdentityLog) (m : LogM α) : EStateM StoreError Disk (α × IdentityLog) :=
  fun d => match m ⟨d, l⟩ with
    | .ok a s => .ok (a, s.log) s.disk
    | .error e s => .error e s.disk

namespace IdentityLog

/-- Makes an empty log in `dir`, discarding any files there. -/
def create (dir : String) (options : Options) : DiskM IdentityLog := do
  let d ← get
  let d ← liftIo (d.createDirAll dir)
  let (index, d) ← liftIo (Region.openAt d (join dir indexFile) options.access true indexReserve)
  let (data, d) ← liftIo (Region.openAt d (join dir dataFile) options.access true dataReserve)
  set d
  let log : IdentityLog := { dir, options, data, index, header := .fresh, offsets := #[],
                             tombstones := 0 }
  let ((), log) ← onLog log (do writeHeader; sync)
  pure log

/-- Opens the log in `dir`, making it when there is none. -/
def openIn (dir : String) (options : Options) : DiskM IdentityLog := do
  let d ← liftIo ((← get).createDirAll dir)
  set d
  let indexPath := join dir indexFile
  let dataPath := join dir dataFile
  let indexLen ← liftIo (d.lengthOrZero indexPath)
  if indexLen = 0 then
    if (← liftIo (d.lengthOrZero dataPath)) > 0 then
      throw (.invalidLog s!"{dataPath} has data but {indexFile} is missing")
    create dir options
  else
    if indexLen < headerSize then
      throw (.invalidLog s!"{indexPath} is {indexLen} bytes, shorter than its header")
    let (index, d) ← liftIo (Region.openAt d indexPath options.access false indexReserve)
    set d
    let (data, d) ← liftIo (Region.openAt d dataPath options.access false dataReserve)
    set d
    let raw ← liftIo (index.read d 0 headerSize)
    let header ← liftExcept (Header.decode raw)
    let log : IdentityLog := { dir, options, data, index, header, offsets := #[], tombstones := 0 }
    let ((), log) ← onLog log (do loadOffsets; countTombstones)
    pure log

end IdentityLog

/-- The id after `g`; the largest id is its own successor. -/
def followingId (g : Int64) : Int64 := if g = Int64.ofInt (2 ^ 63 - 1) then g else g + 1

/-- The header once `bytes` is appended: one more record, the data end past them, and the id
high-water mark raised past the record's id when its header is complete. -/
def Header.appended (h : Header) (bytes : ByteArray) : Header :=
  let nextId := match Record.globalId? bytes with
    | some g =>
      let raised := followingId g
      if raised > h.nextId then raised else h.nextId
    | none => h.nextId
  { h with recordCount := h.recordCount + 1, dataEnd := h.dataEnd + bytes.size, nextId }

/-- One positioned write to one of the log's two files: a step that a crash does not cut. -/
inductive LogWrite where
  | data (pos : Nat) (bytes : ByteArray)
  | index (pos : Nat) (bytes : ByteArray)

/-- Makes one write. -/
def LogWrite.run : LogWrite → LogM Unit
  | .data pos bytes => writeData pos bytes
  | .index pos bytes => writeIndex pos bytes

/-- Makes the writes in order, stopping at the first that fails. -/
def runWrites : List LogWrite → LogM Unit
  | [] => pure ()
  | w :: ws => do
    w.run
    runWrites ws

namespace IdentityLog

/-- Refuses an empty record, and one that would carry the data end past the 64-bit word: the
data end is such a word, and a write past it panics first. -/
def checkAppend (l : IdentityLog) (bytes : ByteArray) : Except StoreError Unit :=
  if bytes.size = 0 then .error (.corruptRecord "empty record")
  else if l.header.dataEnd + bytes.size ≥ Table.wordLimit then .error (.overflow .add)
  else .ok ()

/-- The writes that append `bytes`: the record at the data end, its offset into the next slot,
and last the header that counts it, which commits the append. -/
def appendWrites (l : IdentityLog) (bytes : ByteArray) : List LogWrite :=
  [.data l.header.dataEnd bytes, .index (offsetSlot l.size) (Bytes.encodeLE 8 l.header.dataEnd),
    .index 0 (l.header.appended bytes).encode]

end IdentityLog

/-- Appends one record's bytes; answers its index. A data end that would leave the 64-bit word
range is refused before anything is written. -/
def append (bytes : ByteArray) : LogM Nat := do
  let l := (← get).log
  liftExcept (l.checkAppend bytes)
  runWrites (l.appendWrites bytes)
  let deleted := if Record.isTombstoned bytes then 1 else 0
  modify fun s =>
    { s with log := { s.log with header := l.header.appended bytes,
                                 offsets := s.log.offsets.push l.header.dataEnd,
                                 tombstones := s.log.tombstones + deleted } }
  sync
  pure l.size

/-- The bytes of record `i`. -/
def readAt (i : Nat) : LogM ByteArray := do
  let s ← get
  liftExcept (s.log.read s.disk i)

/-- Marks record `i` deleted in place; answers false when it is too short or already deleted. -/
def tombstone (i : Nat) : LogM Bool := do
  let s ← get
  let (start, stop) ← liftExcept (s.log.recordRange i)
  if stop - start < Record.headerSize then return false
  let flag ← liftIo (s.log.data.read s.disk start 1)
  if flag[0]?.getD 0 != Record.flagLive then return false
  writeData start ⟨#[Record.flagDeleted]⟩
  modify fun s => { s with log := { s.log with tombstones := s.log.tombstones + 1 } }
  sync
  pure true

/-- Raises the id high-water mark to at least `floor`. -/
def raiseNextId (floor : Int64) : LogM Unit := do
  let s ← get
  if floor > s.log.header.nextId then
    set { s with log := { s.log with header := { s.log.header with nextId := floor } } }
    writeHeader
    sync

/-- Runs a file-system operation beside the log. -/
def onDisk {α : Type} (m : DiskM α) : LogM α := fun s =>
  match m s.disk with
  | .ok a d => .ok a { s with disk := d }
  | .error e d => .error e { s with disk := d }

/-- Removes a file of the log; a missing one is fine. -/
def removeIfExists (path : String) : LogM Unit := do
  let s ← get
  let d ← liftIo (s.disk.removeFileIfExists path)
  set { s with disk := d }

/-- Closes the log, removes both files, and starts an empty log that keeps the id high-water
mark. On a failure the log stays closed. -/
def recreate : LogM Unit := do
  let l := (← get).log
  modify fun s => { s with log := s.log.close }
  removeIfExists l.dataPath
  removeIfExists l.indexPath
  let fresh ← onDisk (IdentityLog.create l.dir l.options)
  modify fun s => { s with log := fresh }
  raiseNextId l.nextId
  sync

/-- Closes the log, removes both files and, when it is left empty, the directory. -/
def destroy : LogM Unit := do
  let l := (← get).log
  modify fun s => { s with log := s.log.close }
  removeIfExists l.dataPath
  removeIfExists l.indexPath
  modify fun s => match s.disk.removeDir l.dir with
    | .ok d => { s with disk := d }
    | .error _ => s

end MetricRegistry.Log
