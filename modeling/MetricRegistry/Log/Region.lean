import MetricRegistry.Disk.Basic

/-! One file of the log as the log reaches it: mapped into memory with a length of its own, read
and written by position, or let go of. -/

namespace MetricRegistry.Log

/-- How the log reaches its files. -/
inductive Access where
  /-- Memory-mapped, grown by mapping again. -/
  | mapped
  /-- Positioned reads and writes through the file handle. -/
  | file
  deriving DecidableEq, Repr

/-- The name a log access is written with. -/
def Access.name : Access → String
  | .mapped => "mapped"
  | .file => "file"

/-- The log access a name is written for. -/
def Access.ofName? : String → Option Access
  | "mapped" => some .mapped
  | "file" => some .file
  | _ => none

/-- One backing file. -/
inductive Region where
  | mapped (inode len : Nat)
  | positioned (inode : Nat)
  | closed
  deriving DecidableEq, Repr

namespace Region

open Disk

/-- Opens `path` for the log, making it if needed and emptying it when `truncate`; a mapping
first extends the file to `reserve` bytes. -/
def openAt (d : Disk) (path : String) (access : Access) (truncate : Bool) (reserve : Nat) :
    Except IoError (Region × Disk) := do
  let (i, d) ← d.openFile path true truncate
  match access with
  | .file => pure (.positioned i, d)
  | .mapped =>
    let d := if (d.bytesOf i).size < reserve then d.setLen i reserve else d
    pure (.mapped i (d.bytesOf i).size, d)

/-- The length the log sees: the mapping's, or the file's. -/
def length (r : Region) (d : Disk) : Except IoError Nat :=
  match r with
  | .mapped _ len => .ok len
  | .positioned i => .ok (d.bytesOf i).size
  | .closed => .error .closed

/-- `len` bytes from `pos`. -/
def read (r : Region) (d : Disk) (pos len : Nat) : Except IoError ByteArray :=
  match r with
  | .mapped i mapLen =>
    if pos + len > mapLen then .error .pastMapEnd
    else .ok (Bytes.resize ((d.bytesOf i).extract pos (pos + len)) len)
  | .positioned i =>
    if len > 0 ∧ pos + len > (d.bytesOf i).size then .error .shortRead
    else .ok ((d.bytesOf i).extract pos (pos + len))
  | .closed => .error .closed

/-- Writes `bytes` from `pos`, growing a mapping or a file as needed. -/
def write (r : Region) (d : Disk) (pos : Nat) (bytes : ByteArray) :
    Except IoError (Region × Disk) :=
  match r with
  | .mapped i mapLen =>
    let stop := pos + bytes.size
    if stop > mapLen then
      let grown := max stop (2 * mapLen)
      .ok (.mapped i grown, (d.setLen i grown).writeAt i pos bytes)
    else .ok (r, d.writeAt i pos bytes)
  | .positioned i => .ok (r, d.writeAt i pos bytes)
  | .closed => .error .closed

end Region

end MetricRegistry.Log
