/-
  Rules: which shards a record goes to.  A rule sees one record at a time, and its
  position for diagnostics; it may refuse a record.
-/
import DumpSplit.Dump
import DumpSplit.KeySets
import DumpSplit.Table

namespace DumpSplit

/-- How the records of a table are routed, and which field is their key. -/
structure Rule where
  keyIndex : Nat
  route : Record → Position → Except Failure Route

/-- The field of `record` in `column`. -/
def Record.field (record : Record) (position : Position) (column : Column) :
    Except Failure String :=
  match record.fields[column.index]? with
  | some value => .ok value
  | none => .error (.malformed position.source
      (.missingField position.line record.fields.length column))

namespace Rule

/-- Users go to the shard of their region. -/
def byRegion : Rule where
  keyIndex := userUid.index
  route record position := do
    let region ← record.field position userRegion
    match Shard.all.find? (·.region == region) with
    | some shard => return .only shard
    | none => throw (.unrecognizedRegion position (← record.field position userUid) region)

/-- Articles go to the first shard, those of the shared category to both. -/
def byCategory : Rule where
  keyIndex := articleAid.index
  route record position := do
    let category ← record.field position articleCategory
    return if category = sharedCategory then .both else .only .one

/-- Read events go where the keys of the users say their user is. -/
def byUser (users : KeySets) : Rule where
  keyIndex := readUid.index
  route record position := do
    let uid ← record.field position readUid
    match users.holder? uid with
    | some shard => return .only shard
    | none => throw (.unassignedKey position uid)

/-- Records go to the first shard whose list holds their value in `column`, and
    to both if there is none. -/
def byValue (keyIndex : Nat) (column : Column) (values : Shard → List String) : Rule where
  keyIndex
  route record position := do
    let value ← record.field position column
    match Shard.all.find? fun shard => (values shard).contains value with
    | some shard => return .only shard
    | none => return .both

end Rule

end DumpSplit
