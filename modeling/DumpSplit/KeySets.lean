/-
  The keys of the records that went to each shard.  Keys are field values as they
  stand in the dump, quotes included.
-/
import DumpSplit.Shard
import Std.Data.ExtTreeSet

namespace DumpSplit

/-- A set of keys, ordered by code points. -/
abbrev Keys := Std.ExtTreeSet String

/-- A set of keys for each shard. -/
structure KeySets where
  one : Keys := ∅
  two : Keys := ∅
  deriving DecidableEq

namespace KeySets

/-- The keys of one shard. -/
def of (keys : KeySets) : Shard → Keys
  | .one => keys.one
  | .two => keys.two

/-- `keys` with one more key on every shard of `route`. -/
def add (keys : KeySets) (route : Route) (key : String) : KeySets where
  one := if route.reaches .one then keys.one.insert key else keys.one
  two := if route.reaches .two then keys.two.insert key else keys.two

/-- The shard that holds `key`, the first one if both do. -/
def holder? (keys : KeySets) (key : String) : Option Shard :=
  Shard.all.find? fun shard => (keys.of shard).contains key

/-- The keys that both shards hold. -/
def shared (keys : KeySets) : Keys := keys.one ∩ keys.two

end KeySets

end DumpSplit
