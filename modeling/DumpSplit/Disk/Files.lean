/-
  Reading and writing files of a disk.
-/
import DumpSplit.Disk.Resolve

namespace DumpSplit

/-- Why a file was not written: it could not be opened, and nothing has changed, or
    it was emptied and then took the first `taken` bytes only. -/
inductive WriteFault
  | opening (cause : Cause)
  | filling (taken : Nat) (cause : Cause)
  deriving DecidableEq

def WriteFault.cause : WriteFault → Cause
  | opening cause | filling _ cause => cause

namespace Disk

/-- What a path leads to. -/
def find (disk : Disk) (path : Path) : Except Cause Node := do
  match disk.node? (← disk.resolve path) with
  | none => throw .noEntry
  | some .directory => return .directory
  | some node => if path.endsInSeparator then throw .notDirectory else return node

/-- Whether a path leads to a directory. -/
def isDirectory (disk : Disk) (path : Path) : Except Cause Bool := do
  return (← disk.find path) = .directory

/-- The bytes of the file to which a path leads. -/
def read (disk : Disk) (path : Path) : Except Cause ByteArray := do
  match ← disk.find path with
  | .directory => throw .isDirectory
  | .file content => return content
  | .sink => return .empty
  | .full => throw (.system "Cannot allocate memory (os error 12)")

/-- The place of the file that a path opens for writing.  It need not exist, but its
    directory must. -/
def openFile (disk : Disk) (path : Path) : Except Cause Place := do
  let place ← disk.resolve path
  if path.endsInSeparator || disk.node? place = some .directory then throw .isDirectory
  return place

/-- How much of what is written to `place` is taken, if not all. -/
def limit? (disk : Disk) (place : Place) : Option Limit :=
  match disk.node? place with
  | some .sink => none
  | some .full => some { size := 0, cause := .noSpace }
  | _ => disk.limitAt? place

/-- The disk on which the file at `place` holds `content`.  Devices keep nothing. -/
def keep (disk : Disk) (place : Place) (content : ByteArray) : Disk :=
  match disk.node? place with
  | some .sink | some .full => disk
  | _ => disk.set place (.file content)

/-- Replaces what the file at `path` holds, or makes it.  A file that takes less than
    `content` is left with the first bytes of it. -/
def write (disk : Disk) (path : Path) (content : ByteArray) : Disk × Except WriteFault Unit :=
  match disk.openFile path with
  | .error cause => (disk, .error (.opening cause))
  | .ok place =>
    match (disk.limit? place).filter (·.size < content.size) with
    | none => (disk.keep place content, .ok ())
    | some limit =>
      (disk.keep place (content.extract 0 limit.size), .error (.filling limit.size limit.cause))

end Disk

end DumpSplit
