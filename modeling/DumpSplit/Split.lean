/-
  Splits: the records of a dump, each with the route that a rule gives it.  What the
  shards get, their counts and their keys are all read off the routed records.
-/
import DumpSplit.Event
import DumpSplit.Rule

namespace DumpSplit

/-! ## Routing records -/

/-- A record with its line of the file, its key and its route. -/
structure Routed where
  line : String
  number : Nat
  key : String
  route : Route
  deriving DecidableEq

/-- The records of a dump up to the first one that is refused, and why it is. -/
structure Routing where
  routed : List Routed
  refusal? : Option Failure

/-- Routes the record on `line`.  The key is looked for only in a record that has a
    route. -/
def Rule.answer (rule : Rule) (position : Position) (line : String) :
    Except Failure Routed := do
  let record := Record.ofLine line
  let route ← rule.route record position
  let key ← record.field position ⟨rule.keyIndex, "key"⟩
  return { line, number := position.line, key, route }

/-- Routes records that begin on line `number`; `done` holds those before them, the
    last one first. -/
def Rule.routeFrom (rule : Rule) (source : Path) (done : List Routed) (number : Nat) :
    List String → Routing
  | [] => { routed := done.reverse, refusal? := none }
  | line :: rest =>
    match rule.answer { source, line := number } line with
    | .ok routed => rule.routeFrom source (routed :: done) (number + 1) rest
    | .error failure => { routed := done.reverse, refusal? := some failure }

/-- Routes the records of a dump. -/
def Rule.routing (rule : Rule) (dump : Dump) (source : Path) : Routing :=
  rule.routeFrom source [] (dump.lineNumber 0) dump.records

/-! ## Keys -/

namespace Routing

/-- The keys that records carry to each shard. -/
def keysOf (routed : List Routed) : KeySets :=
  routed.foldl (fun keys r => keys.add r.route r.key) {}

/-- The warning due for a record after others with the keys `seen`: it goes to one
    shard only, and the other one has its key. -/
def warning? (source : Path) (seen : KeySets) (r : Routed) : Option Event :=
  match r.route with
  | .both => none
  | .only shard =>
    if (seen.of shard.other).contains r.key then
      some (.keyAlreadyRouted source r.number r.key shard shard.other)
    else none

/-- The warnings due for the routed records, in their order. -/
def warnings (source : Path) (routing : Routing) : List Event :=
  (routing.routed.foldl step ({}, [])).2.reverse
where
  step : KeySets × List Event → Routed → KeySets × List Event
    | (seen, found), r => (seen.add r.route r.key, (warning? source seen r).toList ++ found)

end Routing

/-! ## What the shards get -/

/-- A dump of which every record has a route. -/
structure Split where
  preamble : List String
  routed : List Routed
  suffix : List String

/-- Splits a dump by a rule, if the rule refuses none of its records. -/
def Rule.split (rule : Rule) (dump : Dump) (source : Path) : Except Failure Split :=
  let routing := rule.routing dump source
  match routing.refusal? with
  | some failure => .error failure
  | none => .ok { preamble := dump.preamble, routed := routing.routed, suffix := dump.suffix }

namespace Split

/-- The records that go to `shard`. -/
def recordsOf (split : Split) (shard : Shard) : List String :=
  (split.routed.filter (·.route.reaches shard)).map (·.line)

/-- The lines for `shard`: its records in the frame of the dump. -/
def lines (split : Split) (shard : Shard) : List String :=
  split.preamble ++ split.recordsOf shard ++ split.suffix

/-- The number of records in the dump. -/
def size (split : Split) : Nat := split.routed.length

/-- The number of records that go to `shard`. -/
def count (split : Split) (shard : Shard) : Nat :=
  split.routed.countP (·.route.reaches shard)

/-- The keys of the records that go to each shard. -/
def keys (split : Split) : KeySets := Routing.keysOf split.routed

end Split

end DumpSplit
