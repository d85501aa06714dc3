import MetricRegistry.Disk.Error
import MetricRegistry.Bytes.Word

/-! A file system as a value: paths name directories and files, and a file is a numbered inode
whose contents outlive its name. Calls fail as the operating system's do. -/

namespace MetricRegistry.Disk

/-- What a path names. -/
inductive Node where
  | dir
  | file (inode : Nat)
  deriving DecidableEq, Repr

end MetricRegistry.Disk

namespace MetricRegistry

/-- A file system: the named nodes, and the contents of every file ever created by inode. -/
structure Disk where
  nodes : List (List String × Disk.Node) := []
  contents : Array ByteArray := #[]

end MetricRegistry

namespace MetricRegistry.Disk

/-- The reported length of a directory. -/
def dirLength : Nat := 4096

/-- The components of a path text. -/
def components (path : String) : List String :=
  ((path.toList.splitOn '/').map String.ofList).filter fun c => c != "" && c != "."

/-- `dir` joined with `name`, one separator between them. -/
def join (dir name : String) : String :=
  if dir.isEmpty then name
  else if dir.toList.getLast? = some '/' then dir ++ name
  else dir ++ "/" ++ name


/-- The node at exactly these components. -/
def node? (d : Disk) (p : List String) : Option Node :=
  if p.isEmpty then some .dir else d.nodes.lookup p

/-- The proper prefixes of a component list, shortest first, the root excluded. -/
def ancestors (p : List String) : List (List String) :=
  (List.range (p.length - 1)).map fun i => p.take (i + 1)

/-- Follows a path: every ancestor must be a directory. Answers the node, if any. -/
def resolve (d : Disk) (p : List String) : Except IoError (Option Node) := do
  for a in ancestors p do
    match d.node? a with
    | none => throw .notFound
    | some (.file _) => throw .notADirectory
    | some .dir => pure ()
  pure (d.node? p)

/-- The node a path names. -/
def stat (d : Disk) (path : String) : Except IoError Node := do
  match ← d.resolve (components path) with
  | some n => pure n
  | none => throw .notFound

/-- Whether a path names anything, failures counting as no. -/
def exists_ (d : Disk) (path : String) : Bool :=
  match d.stat path with
  | .ok _ => true
  | .error _ => false

/-- Whether a path names a directory. -/
def isDir (d : Disk) (path : String) : Bool :=
  match d.stat path with
  | .ok .dir => true
  | _ => false

/-- The contents of an inode. -/
def bytesOf (d : Disk) (inode : Nat) : ByteArray := d.contents[inode]?.getD ByteArray.empty

/-- The length of what a path names. -/
def length (d : Disk) (path : String) : Except IoError Nat := do
  match ← d.stat path with
  | .dir => pure dirLength
  | .file i => pure (d.bytesOf i).size

/-- The length of what a path names, zero when nothing is there. -/
def lengthOrZero (d : Disk) (path : String) : Except IoError Nat :=
  match d.length path with
  | .error .notFound => .ok 0
  | other => other

/-- Names a node, replacing what the path named before. -/
def setNode (d : Disk) (p : List String) (n : Node) : Disk :=
  { d with nodes := (p, n) :: d.nodes.filter (·.1 != p) }

/-- Makes one directory; its parent must exist. -/
def createDir (d : Disk) (p : List String) : Except IoError Disk := do
  match ← d.resolve p with
  | some _ => throw .alreadyExists
  | none =>
    match d.node? p.dropLast with
    | none => throw .notFound
    | some (.file _) => throw .notADirectory
    | some .dir => pure (d.setNode p .dir)

/-- Makes a directory and its missing ancestors, the components given shortest first. -/
def createDirChain (d : Disk) : List (List String) → Except IoError Disk
  | [] => .ok d
  | p :: rest =>
    match d.node? p with
    | some .dir => createDirChain d rest
    | some (.file _) => .error (if rest.isEmpty then .alreadyExists else .notADirectory)
    | none => do createDirChain (← d.createDir p) rest

/-- Makes a directory and its missing ancestors; a path that is already a directory is fine. -/
def createDirAll (d : Disk) (path : String) : Except IoError Disk :=
  let p := components path
  createDirChain d (ancestors p ++ (if p.isEmpty then [] else [p]))

/-- Opens a file for reading and writing, making it when `create` and emptying it when
`truncate`; answers its inode. -/
def openFile (d : Disk) (path : String) (create truncate : Bool) : Except IoError (Nat × Disk) := do
  let p := components path
  match ← d.resolve p with
  | some .dir => throw .isADirectory
  | some (.file i) =>
    if truncate then pure (i, { d with contents := d.contents.set! i ByteArray.empty })
    else pure (i, d)
  | none =>
    if !create then throw .notFound
    match d.node? p.dropLast with
    | some .dir =>
      let i := d.contents.size
      pure (i, { (d.setNode p (.file i)) with contents := d.contents.push ByteArray.empty })
    | some (.file _) => throw .notADirectory
    | none => throw .notFound

/-- Applies `f` to the contents of an inode. -/
def modifyBytes (d : Disk) (inode : Nat) (f : ByteArray → ByteArray) : Disk :=
  { d with contents := d.contents.modify inode f }

/-- Writes `bytes` into an inode from `pos` on, growing it with zeros where needed. -/
def writeAt (d : Disk) (inode pos : Nat) (bytes : ByteArray) : Disk :=
  if bytes.size = 0 then d else d.modifyBytes inode fun b => Bytes.overwrite b pos bytes

/-- Cuts or grows an inode to `len` bytes. -/
def setLen (d : Disk) (inode len : Nat) : Disk :=
  d.modifyBytes inode fun b => Bytes.resize b len

/-- Replaces the contents of a file, making it if needed. -/
def writeFile (d : Disk) (path : String) (bytes : ByteArray) : Except IoError Disk := do
  let (i, d) ← d.openFile path true true
  pure (d.writeAt i 0 bytes)

/-- Writes `bytes` into an existing file from `pos` on. -/
def patchFile (d : Disk) (path : String) (pos : Nat) (bytes : ByteArray) : Except IoError Disk := do
  let (i, d) ← d.openFile path false false
  pure (d.writeAt i pos bytes)

/-- Cuts or grows an existing file to `len` bytes. -/
def truncateFile (d : Disk) (path : String) (len : Nat) : Except IoError Disk := do
  let (i, d) ← d.openFile path false false
  pure (d.setLen i len)

/-- Replaces the contents of a file, making it and its missing directories if needed. -/
def writeFileAll (d : Disk) (path : String) (bytes : ByteArray) : Except IoError Disk := do
  let d ← d.createDirAll ("/".intercalate (components path).dropLast)
  d.writeFile path bytes

/-- The contents of a file. -/
def fileBytes (d : Disk) (path : String) : Except IoError ByteArray := do
  match ← d.stat path with
  | .dir => throw .isADirectory
  | .file i => pure (d.bytesOf i)

/-- The contents of a file read as UTF-8 text. -/
def fileText (d : Disk) (path : String) : Except IoError String := do
  match String.fromUTF8? (← d.fileBytes path) with
  | some text => pure text
  | none => throw .invalidData

/-- Removes a file's name. -/
def removeFile (d : Disk) (path : String) : Except IoError Disk := do
  let p := components path
  match ← d.resolve p with
  | none => throw .notFound
  | some .dir => throw .isADirectory
  | some (.file _) => pure { d with nodes := d.nodes.filter (·.1 != p) }

/-- Removes a file's name; a missing one is fine. -/
def removeFileIfExists (d : Disk) (path : String) : Except IoError Disk :=
  match d.removeFile path with
  | .error .notFound => .ok d
  | other => other

/-- The names strictly below a directory. -/
def below (d : Disk) (p : List String) : List (List String) :=
  (d.nodes.map (·.1)).filter fun q => q.length > p.length && q.take p.length == p

/-- Removes an empty directory. -/
def removeDir (d : Disk) (path : String) : Except IoError Disk := do
  let p := components path
  match ← d.resolve p with
  | none => throw .notFound
  | some (.file _) => throw .notADirectory
  | some .dir =>
    if p.isEmpty then throw .directoryNotEmpty
    if !(d.below p).isEmpty then throw .directoryNotEmpty
    pure { d with nodes := d.nodes.filter (·.1 != p) }

/-- Removes a directory and everything below it. -/
def removeDirAll (d : Disk) (path : String) : Except IoError Disk := do
  let p := components path
  match ← d.resolve p with
  | none => throw .notFound
  | some (.file _) => throw .notADirectory
  | some .dir =>
    pure { d with nodes := d.nodes.filter fun (q, _) => !(q.length ≥ p.length && q.take p.length == p) }


/-- A file system holding only the directory `root` and its ancestors. -/
def withDir (root : String) : Disk :=
  match (({} : Disk).createDirAll root) with
  | .ok d => d
  | .error _ => {}

end MetricRegistry.Disk
