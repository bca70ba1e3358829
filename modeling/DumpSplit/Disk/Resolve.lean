/-
  Where paths lead.  A path is walked name by name: every place on the way must be
  a directory, and only the last one may hold nothing.
-/
import DumpSplit.Disk.Basic

namespace DumpSplit.Disk

/-- The most bytes that a name may have. -/
def longestName : Nat := 255

/-- The least number of bytes that is too long for a path. -/
def pathLimit : Nat := 4096

/-- The place that `name` denotes in the directory at `dir`. -/
def step (dir : Place) (name : List UInt8) : Except Cause Place :=
  if name = [0x2E] then .ok dir
  else if name = [0x2E, 0x2E] then .ok dir.dropLast
  else if longestName < name.length then .error .nameTooLong
  else .ok (dir ++ [name])

/-- Refuses places that are no directory. -/
def expectDirectory (disk : Disk) (place : Place) : Except Cause Unit :=
  match disk.node? place with
  | none => .error .noEntry
  | some .directory => .ok ()
  | some _ => .error .notDirectory

/-- The place to which names lead from the directory at `dir`. -/
def walk (disk : Disk) (dir : Place) : List (List UInt8) → Except Cause Place
  | [] => .ok dir
  | [name] => step dir name
  | name :: rest => do
    let next ← step dir name
    disk.expectDirectory next
    disk.walk next rest

/-- The place to which a path leads; there need be nothing there yet. -/
def resolve (disk : Disk) (path : Path) : Except Cause Place :=
  if 0 ∈ path.bytes then .error .zeroByte
  else if path.bytes = [] then .error .noEntry
  else if pathLimit ≤ path.bytes.length then .error .nameTooLong
  else disk.walk (if path.isAbsolute then [] else disk.current) path.names

end DumpSplit.Disk
