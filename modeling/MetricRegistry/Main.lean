import MetricRegistry.Cli.Run
import Std.Time.DateTime.Timestamp

/-! The client's command line over the real files: the store directory is loaded into a file
system value, the command runs on it, and every file it changed is written back. -/

namespace MetricRegistry.Cli

/-- The files of a store directory that a command may read or write: the log's two files, and
those of a compaction's temporary log with its marker. -/
def storePaths (dir : String) : List String :=
  let compact := Disk.join dir Store.compactDir
  [Log.indexFile, Log.dataFile].map (Disk.join dir) ++
    [Log.indexFile, Log.dataFile, Store.swapMarker].map (Disk.join compact)

/-- The store directory of a command line, when it names one. -/
def storeDir? (args : List String) : Option String :=
  match parseArgs args with
  | .ok inv => inv.dataDir
  | .error _ => none

end MetricRegistry.Cli

open MetricRegistry

/-- A file system holding the files among `paths` that can be read. -/
def loadFiles (paths : List String) : IO Disk :=
  paths.foldlM (fun d (path : String) => do
    try
      let bytes ← IO.FS.readBinFile path
      pure ((d.writeFileAll path bytes).toOption.getD d)
    catch _ => pure d) {}

/-- Writes back the files among `paths` that `d` holds, and removes the others. -/
def storeFiles (paths : List String) (d : Disk) : IO Unit := do
  for path in paths do
    match d.fileBytes path with
    | .ok bytes =>
      IO.FS.createDirAll ("/".intercalate ((path.splitOn "/").dropLast))
      IO.FS.writeBinFile path bytes
    | .error _ =>
      try IO.FS.removeFile path catch _ => pure ()

def main (args : List String) : IO UInt32 := do
  let now := (← Std.Time.Timestamp.now).toMillisecondsSinceUnixEpoch.val
  let paths := ((Cli.storeDir? args).map Cli.storePaths).getD []
  let (out, d) := Cli.run args (Int64.ofInt now) (← loadFiles paths)
  storeFiles paths d
  IO.print out.stdout
  IO.eprint out.stderr
  pure (UInt32.ofNat out.code)
