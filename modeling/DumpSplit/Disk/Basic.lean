/-
  Disks: a tree of directories and files as a finite map from places to what is
  there.  There are no links, and a disk is determined by what is at its places and
  how much may come there.
-/
import DumpSplit.Cause
import DumpSplit.Path
import Std.Data.ExtTreeMap

namespace DumpSplit

/-- A place on a disk: the names that lead there from the root. -/
abbrev Place := List (List UInt8)

-- other libraries compare bytes by instances of their own
instance (priority := 2000) decEqContent : DecidableEq ByteArray := ByteArray.instDecidableEq

/-- What is at a place. -/
inductive Node
  | directory
  | file (content : ByteArray)
  /-- a device that takes all bytes and gives none back -/
  | sink
  /-- a device that takes no bytes and gives them without end -/
  | full
  deriving DecidableEq

/-- How many bytes a file takes, and what is told when it is to take more. -/
structure Limit where
  size : Nat
  cause : Cause
  deriving DecidableEq

/-- The contents of all places, the place from which relative paths start, and how much
    the files at some of the places take. -/
structure Disk where
  nodes : Std.ExtTreeMap Place Node
  current : Place
  limits : Std.ExtTreeMap Place Limit

namespace Disk

/-- What is at `place`.  The root is a directory on every disk. -/
def node? (disk : Disk) (place : Place) : Option Node :=
  if place = [] then some .directory else disk.nodes[place]?

/-- How much a file at `place` takes, if not any number of bytes. -/
def limitAt? (disk : Disk) (place : Place) : Option Limit := disk.limits[place]?

/-- The places that hold something, the root apart. -/
def places (disk : Disk) : List Place := disk.nodes.keys

/-- The disk with `node` at `place`. -/
def set (disk : Disk) (place : Place) (node : Node) : Disk :=
  { disk with nodes := disk.nodes.insert place node }

/-- The place of the names on `path`, from the root. -/
def placeOf (path : String) : Place := (Path.ofString path).names

/-- The empty directory `work`, from which relative paths start, beside the
    devices. -/
def fresh : Disk where
  nodes := .ofList [(placeOf "dev", Node.directory), (placeOf "dev/full", Node.full),
    (placeOf "dev/null", Node.sink), (placeOf "work", Node.directory)]
  current := placeOf "work"
  limits := ∅

end Disk

end DumpSplit
