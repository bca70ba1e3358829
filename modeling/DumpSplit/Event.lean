/-
  Events: what is reported while dumps are split, and the line of the log for
  each.
-/
import DumpSplit.Path
import DumpSplit.Table
import DumpSplit.Text.Quoted

namespace DumpSplit

/-- How much an event matters, the least first. -/
inductive Level
  | debug
  | info
  | warn
  deriving DecidableEq

namespace Level

def rank : Level → Nat
  | debug => 0
  | info => 1
  | warn => 2

instance : LE Level := ⟨fun a b => a.rank ≤ b.rank⟩

instance (a b : Level) : Decidable (a ≤ b) := inferInstanceAs (Decidable (a.rank ≤ b.rank))

def name : Level → String
  | debug => "DEBUG"
  | info => "INFO"
  | warn => "WARN"

/-- The name in five columns, at the right. -/
def column : Level → String
  | debug => "DEBUG"
  | info => " INFO"
  | warn => " WARN"

end Level

/-- Something worth a line in the log. -/
inductive Event
  /-- the dump of a table is about to be read -/
  | shardingTable (table : Table) (source : Path)
  /-- the records of a dump were found; the sizes of its parts -/
  | scannedRegions (source : Path) (preamble records suffix : Nat)
  /-- a record goes to `shard` alone, but `other` holds a record with its key -/
  | keyAlreadyRouted (source : Path) (line : Nat) (key : String) (shard other : Shard)
  /-- the file of a shard holds no record -/
  | shardEmpty (table : Table) (shard : Shard)
  /-- both files of a table are written; the numbers of records -/
  | tableSharded (table : Table) (records one two : Nat)
  /-- the files of a table, told when everything is done -/
  | wroteShards (table : Table) (output : Shard → Path)
  /-- the summary is written -/
  | savedSummary (path : Path)

/-- A value in a line of the log. -/
inductive Detail
  | number (n : Nat)
  | plain (text : String)
  | quoted (text : String)

/-- How a detail is shown. -/
def Detail.display : Detail → String
  | number n => toString n
  | plain text => text
  | quoted text => Text.quoted text

namespace Event

def level : Event → Level
  | scannedRegions .. => .debug
  | shardingTable .. | tableSharded .. | wroteShards .. | savedSummary .. => .info
  | keyAlreadyRouted .. | shardEmpty .. => .warn

/-- The part of the program that reports the event, as named in the log. -/
def origin : Event → String
  | shardingTable .. | shardEmpty .. | tableSharded .. => "sharding::pipeline"
  | scannedRegions .. => "sharding::region"
  | keyAlreadyRouted .. => "sharding::partition"
  | wroteShards .. | savedSummary .. => "make_shard"

def message : Event → String
  | shardingTable .. => "sharding table"
  | scannedRegions .. => "scanned regions"
  | keyAlreadyRouted .. => "key already routed to the other shard"
  | shardEmpty .. => "shard received no records"
  | tableSharded .. => "table sharded"
  | wroteShards .. => "wrote shards"
  | savedSummary .. => "saved summary"

/-- The details of an event under their names, in the order of the log. -/
def details : Event → List (String × Detail)
  | shardingTable table source => [("table", .plain table.name), ("source", .plain source.display)]
  | scannedRegions source preamble records suffix =>
    [("source", .plain source.display), ("preamble", .number preamble),
      ("records", .number records), ("suffix", .number suffix)]
  | keyAlreadyRouted source line key shard other =>
    [("source", .plain source.display), ("line", .number line), ("key", .quoted key),
      ("shard", .plain shard.name), ("other", .plain other.name)]
  | shardEmpty table shard => [("table", .plain table.name), ("shard", .plain shard.name)]
  | tableSharded table records one two =>
    [("table", .plain table.name), ("records", .number records), ("shard1", .number one),
      ("shard2", .number two)]
  | wroteShards table output =>
    ("table", .plain table.name) ::
      Shard.all.map fun shard => (shard.name, .plain (output shard).display)
  | savedSummary path => [("path", .plain path.display)]

/-- The line of the log for an event, without a time. -/
def line (event : Event) : String :=
  event.level.column ++ " " ++ event.origin ++ ": " ++ event.message ++
    String.join (event.details.map fun (name, detail) => " " ++ name ++ "=" ++ detail.display)

end Event

end DumpSplit
