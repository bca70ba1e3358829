/-
  Setting up disks by hand, and telling how one differs from another.
-/
import DumpSplit.Disk.Resolve

namespace DumpSplit.Disk

/-- Makes what the last of the names denotes a file with `content?`, or a directory,
    and all that is missing on the way directories. -/
def arrangeFrom (disk : Disk) (dir : Place) (content? : Option ByteArray) :
    List (List UInt8) → Disk
  | [] => disk
  | name :: rest =>
    match step dir name with
    | .error _ => disk
    | .ok place =>
      match disk.node? place, rest, content? with
      | some .directory, [], some _ => disk
      | _, [], some content => disk.set place (.file content)
      | none, rest, _ => (disk.set place .directory).arrangeFrom place content? rest
      | some _, rest, _ => disk.arrangeFrom place content? rest

/-- Puts a file or, without content, a directory at the end of `path`. -/
def arrange (disk : Disk) (path : Path) (content? : Option ByteArray) : Disk :=
  disk.arrangeFrom (if path.isAbsolute then [] else disk.current) content? path.names

/-- Takes away what is at the end of `path` and everything in it. -/
def clear (disk : Disk) (path : Path) : Disk :=
  match disk.resolve path with
  | .error _ => disk
  | .ok gone => { disk with nodes := disk.nodes.filter fun place _ => !gone.isPrefixOf place }

/-- The path to `place` from the current directory, if it lies in it. -/
def relative? (disk : Disk) (place : Place) : Option Path :=
  if disk.current.isPrefixOf place && place ≠ disk.current then
    some ⟨[Path.separator].intercalate (place.drop disk.current.length)⟩
  else none

/-- The paths in the current directory whose nodes differ between two disks, with
    what is there now, in the order of their bytes. -/
def changes (before after : Disk) : List (Path × Option Node) :=
  let differing := (before.places ++ after.places).filter fun place =>
    before.node? place ≠ after.node? place
  let shown := differing.filterMap fun place =>
    (after.relative? place).map fun path => (path, after.node? place)
  let sorted := shown.mergeSort fun a b => a.1.bytes ≤ b.1.bytes
  sorted.eraseDupsBy (·.1 == ·.1)

end DumpSplit.Disk
