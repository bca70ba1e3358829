/-
  The two shards, the routes of a record to them, and the names of their files.
-/
import DumpSplit.Path

namespace DumpSplit

/-- One of the two halves that every dump is split into. -/
inductive Shard
  | one
  | two
  deriving DecidableEq

namespace Shard

/-- The shards in order. -/
def all : List Shard := [one, two]

def number : Shard → Nat
  | one => 1
  | two => 2

def name : Shard → String
  | one => "shard1"
  | two => "shard2"

/-- The number of a shard in words. -/
def word : Shard → String
  | one => "one"
  | two => "two"

def other : Shard → Shard
  | one => two
  | two => one

end Shard

/-- Where a record goes. -/
inductive Route
  | only (shard : Shard)
  | both
  deriving DecidableEq

/-- Whether a record on this route reaches `shard`. -/
def Route.reaches : Route → Shard → Bool
  | only s, shard => s == shard
  | both, _ => true

/-! ## Names of shard files -/

/-- A file name cut at its last dot, if it has one. -/
def splitExtension? (name : List Char) : Option (List Char × List Char) :=
  match name.reverse.span (· != '.') with
  | (_, []) => none
  | (extension, _ :: stem) => some (stem.reverse, extension.reverse)

/-- The name of the file for `shard` beside the file `name`: marked before the
    last dot, or at the end where no dot follows a first character. -/
def Shard.fileName (shard : Shard) (name : String) : String :=
  match splitExtension? name.toList with
  | none | some ([], _) => name ++ "_" ++ shard.name
  | some (stem, extension) =>
    String.ofList stem ++ "_" ++ shard.name ++ "." ++ String.ofList extension

/-- The path of the file for `shard` beside the file `name` of `dir`. -/
def Shard.path (shard : Shard) (dir : Path) (name : String) : Path :=
  dir.join (.ofString (shard.fileName name))

end DumpSplit
