/-
  The three dumps of a directory, and splitting them: first the users, then the
  articles, then the read events, which go where their users went.
-/
import DumpSplit.Config
import DumpSplit.Split
import DumpSplit.Summary

namespace DumpSplit

/-! ## Parts of a stage -/

/-- Finds the records in the lines of `source`. -/
def Dump.find (source : Path) (lines : List String) : Job Failure Dump :=
  match Dump.ofLines lines with
  | .error flaw => .fail (.malformed source flaw)
  | .ok dump =>
    .report (.scannedRegions source dump.preamble.length dump.records.length dump.suffix.length)
      (.done dump)

/-- Splits a dump by a rule.  The warnings for the records before the first one that is
    refused are reported all the same. -/
def Rule.apply (rule : Rule) (dump : Dump) (source : Path) : Job Failure Split := do
  .tellAll ((rule.routing dump source).warnings source)
  .ofExcept (rule.split dump source)

/-- Writes what `shard` gets to the file at `path`. -/
def Split.write (split : Split) (table : Table) (shard : Shard) (path : Path) :
    Job Failure Unit := do
  Job.writeLines path (split.lines shard)
  if split.count shard = 0 then .tell (.shardEmpty table shard)

/-! ## Stages -/

/-- A directory with its three dumps. -/
structure DumpSet where
  dir : Path
  config : Config

namespace DumpSet

/-- The dumps of a directory, which has to exist. -/
def open? (dir : Path) (config : Config) : Job Failure DumpSet :=
  .inspect dir fun
    | .ok true => .done { dir, config }
    | .ok false => .fail (.io dir .noDirectoryOfDumps)
    | .error cause => .fail (.io dir cause)

/-- The dump of a table. -/
def source (dumps : DumpSet) (table : Table) : Path :=
  dumps.dir.join (.ofString (dumps.config.fileName table))

/-- The file of a shard of a table. -/
def output (dumps : DumpSet) (table : Table) (shard : Shard) : Path :=
  shard.path dumps.dir (dumps.config.fileName table)

/-- Splits the dump of a table by a rule.  Nothing is written before every record has
    its route. -/
def splitTable (dumps : DumpSet) (table : Table) (rule : Rule) :
    Job Failure (TableResult × KeySets) := do
  let source := dumps.source table
  .tell (.shardingTable table source)
  let dump ← Dump.find source (← Job.readLines source)
  let split ← rule.apply dump source
  split.write table .one (dumps.output table .one)
  split.write table .two (dumps.output table .two)
  .tell (.tableSharded table split.size (split.count .one) (split.count .two))
  let result : TableResult :=
    { table, source, output := dumps.output table, records := split.size, count := split.count }
  return (result, split.keys)

/-- Splits the users by their regions. -/
def splitUsers (dumps : DumpSet) : Job Failure (TableResult × KeySets) :=
  dumps.splitTable .user .byRegion

/-- Splits the articles by their categories. -/
def splitArticles (dumps : DumpSet) : Job Failure (TableResult × KeySets) :=
  dumps.splitTable .article .byCategory

/-- Splits the read events by the keys of the users. -/
def splitReads (dumps : DumpSet) (users : KeySets) : Job Failure (TableResult × KeySets) :=
  dumps.splitTable .userRead (.byUser users)

/-- Splits all three dumps. -/
def splitAll (dumps : DumpSet) : Job Failure Summary := do
  let (users, keys) ← dumps.splitUsers
  let (articles, _) ← dumps.splitArticles
  let (reads, _) ← dumps.splitReads keys
  return .ofTables [users, articles, reads] keys

end DumpSet

end DumpSplit
