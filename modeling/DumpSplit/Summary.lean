/-
  Summaries: what was split into which files, as values and as JSON files.
-/
import DumpSplit.Job
import DumpSplit.Json.Pieces
import DumpSplit.KeySets

namespace DumpSplit

/-- What became of the dump of one table. -/
structure TableResult where
  table : Table
  source : Path
  output : Shard → Path
  /-- the number of records in the dump -/
  records : Nat
  /-- the number of records on each shard -/
  count : Shard → Nat

/-- What became of the dumps, and how many users each shard has. -/
structure Summary where
  tables : List TableResult
  users : Shard → Nat

/-- A path as a JSON string, if it is text. -/
def Path.toJson (path : Path) : Json :=
  match path.text? with
  | some text => .string text
  | none => .unwritable

/-- The field with a number for each shard whose names end in `ending`. -/
def Shard.numbers (ending : String) (count : Shard → Nat) : List (String × Json) :=
  all.map fun shard => (shard.name ++ ending, .whole (count shard))

def TableResult.toJson (result : TableResult) : Json :=
  .object ([("table", .string result.table.name), ("source", result.source.toJson),
    ("outputs", .array (Shard.all.map fun shard => (result.output shard).toJson)),
    ("records", .whole result.records)] ++ Shard.numbers "_records" result.count)

namespace Summary

/-- The summary of tables that were split, by the keys of the users. -/
def ofTables (tables : List TableResult) (users : KeySets) : Summary where
  tables
  users shard := (users.of shard).size

def toJson (summary : Summary) : Json :=
  .object (("tables", .array (summary.tables.map (·.toJson))) ::
    Shard.numbers "_users" summary.users)

/-- The number of bytes that are held back on their way to a file. -/
def blockSize : Nat := 8192

/-- How many bytes go to the file before all pieces of the given sizes are there, if `held`
    bytes are held back at first.  They go out where the next piece does not fit beside them,
    and a piece that fills a block goes out with them. -/
def sentAhead (held : Nat) : List Nat → Nat
  | [] => 0
  | size :: rest =>
    if blockSize ≤ size then held + size + sentAhead 0 rest
    else if blockSize < held + size then held + sentAhead size rest
    else sentAhead (held + size) rest

/-- Writes a summary to the file at `path`.  If a path in it is no text, the file ends
    before that path.  That a file does not take all of it is noticed where the bytes go out:
    on the way, or at the end. -/
def save (summary : Summary) (path : Path) : Job Failure Unit :=
  let written := summary.toJson.pretty 0
  .write path written.text.toUTF8 fun
    | .error (.opening cause) => .fail (.io path cause)
    | .error (.filling taken cause) =>
      if taken < sentAhead 0 summary.toJson.pieceSizes then .fail (.json (.file cause))
      else if written.whole then .fail (.io path cause)
      else .fail (.json .unwritablePath)
    | .ok () => if written.whole then .done () else .fail (.json .unwritablePath)

end Summary

end DumpSplit
