import MetricRegistry.Core.Instances

/-!
Failures of file-system calls, each with the text the operating system gives for it.
-/

namespace MetricRegistry.Disk

/-- Why a file-system call failed. -/
inductive IoError where
  /-- A path component does not exist. -/
  | notFound
  /-- The path already names something. -/
  | alreadyExists
  /-- A path component that must be a directory is a file. -/
  | notADirectory
  /-- The call needs a file but the path names a directory. -/
  | isADirectory
  /-- The directory still holds entries. -/
  | directoryNotEmpty
  /-- A read wanted more bytes than the file holds from its position. -/
  | shortRead
  /-- A read of mapped bytes reached past the end of the mapping. -/
  | pastMapEnd
  /-- The log let go of its files. -/
  | closed
  /-- A file read as text is not UTF-8. -/
  | invalidData
  deriving DecidableEq, Repr

/-- The text of an I/O failure. -/
def IoError.message : IoError → String
  | .notFound => "No such file or directory (os error 2)"
  | .alreadyExists => "File exists (os error 17)"
  | .notADirectory => "Not a directory (os error 20)"
  | .isADirectory => "Is a directory (os error 21)"
  | .directoryNotEmpty => "Directory not empty (os error 39)"
  | .shortRead => "failed to fill whole buffer"
  | .pastMapEnd => "read past end of log file"
  | .closed => "log file is closed"
  | .invalidData => "stream did not contain valid UTF-8"

end MetricRegistry.Disk
