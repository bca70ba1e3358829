/-
  Dealing out the records of a dump one by one.  What each shard has got grows line by line,
  with its count and its keys beside it, and a warning is reported where its record is dealt.
-/
import DumpSplit.Job
import DumpSplit.Split

namespace DumpSplit

/-- What the shards have got so far. -/
@[ext]
structure Deal where
  lines : Shard → List String := fun _ => []
  count : Shard → Nat := fun _ => 0
  keys : KeySets := {}
  records : Nat := 0

namespace Deal

/-- Every shard gets lines of the frame. -/
def frame (deal : Deal) (lines : List String) : Deal :=
  { deal with lines := fun shard => deal.lines shard ++ lines }

/-- One shard gets the line of a record. -/
def give (line key : String) (deal : Deal) (shard : Shard) : Deal :=
  { deal with
    lines := fun other => if other = shard then deal.lines other ++ [line] else deal.lines other
    count := fun other => if other = shard then deal.count other + 1 else deal.count other
    keys := deal.keys.add (.only shard) key }

/-- The shards of its route get a record. -/
def add (deal : Deal) (r : Routed) : Deal :=
  let dealt := (Shard.all.filter r.route.reaches).foldl (give r.line r.key) deal
  { dealt with records := dealt.records + 1 }

end Deal

/-- Deals out the record on a line of `source`. -/
def Rule.dealRecord (rule : Rule) (source : Path) (deal : Deal) (record : String × Nat) :
    Job Failure Deal := do
  let routed ← .ofExcept (rule.answer { source, line := record.2 } record.1)
  .tellAll (Routing.warning? source deal.keys routed).toList
  return deal.add routed

/-- Deals out the records of a dump, in its frame. -/
def Rule.deal (rule : Rule) (dump : Dump) (source : Path) : Job Failure Deal := do
  let records := dump.records.zipIdx (dump.lineNumber 0)
  let dealt ← records.foldlM (rule.dealRecord source) (Deal.frame {} dump.preamble)
  return dealt.frame dump.suffix

end DumpSplit
