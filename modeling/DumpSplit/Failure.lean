/-
  Failures: why a step did not succeed, and the text that says so.
-/
import DumpSplit.Cause
import DumpSplit.Json.Basic
import DumpSplit.Path
import DumpSplit.Record

namespace DumpSplit

/-- Why a dump cannot be split.  Lines are counted from one. -/
inductive Flaw
  /-- no line opens the records -/
  | noMarker
  /-- the records after the line `marker` never end -/
  | unterminated (marker : Nat)
  /-- the record on `line` has `fields` fields, too few for `column` -/
  | missingField (line fields : Nat) (column : Column)
  deriving DecidableEq

def Flaw.message : Flaw → String
  | noMarker => "no line starts with `" ++ Format.marker ++ "`"
  | unterminated marker =>
    "records after line " ++ toString marker ++ " are never terminated by `" ++
      Format.terminator.toString ++ "`"
  | missingField line fields column =>
    "line " ++ toString line ++ ": record has " ++ toString fields ++ " fields, `" ++
      column.name ++ "` expected at index " ++ toString column.index

/-- Why a value was not read from JSON or not written as JSON. -/
inductive JsonFault
  /-- `found` is not of the kind `expected` -/
  | wrongKind (found : Json) (expected : String)
  /-- an array of `length` items, which are too many -/
  | tooLong (length : Nat)
  /-- a path that is not text -/
  | unwritablePath
  /-- the file took only a part of the text -/
  | file (cause : Cause)

def JsonFault.message : JsonFault → String
  | wrongKind found expected => "invalid type: " ++ found.describe ++ ", expected " ++ expected
  | tooLong length =>
    "invalid length " ++ toString length ++ ", expected fewer elements in array"
  | unwritablePath => "path contains invalid UTF-8 characters"
  | file cause => cause.message

/-- A line of a file, counted from one. -/
structure Position where
  source : Path
  line : Nat
  deriving DecidableEq

/-- How the position of a record is shown. -/
def Position.display (position : Position) : String :=
  position.source.display ++ ":" ++ toString position.line

/-- Why a step did not succeed. -/
inductive Failure
  /-- the file system refused `path` -/
  | io (path : Path) (cause : Cause)
  /-- `source` is no dump of the expected form -/
  | malformed (source : Path) (flaw : Flaw)
  /-- a user is in a region that no shard is for -/
  | unrecognizedRegion (position : Position) (uid region : String)
  /-- a read event names a user that no shard holds -/
  | unassignedKey (position : Position) (uid : String)
  /-- the file at `path` is no configuration, in the words of the reader of such files -/
  | config (path : Path) (words : String)
  /-- a value was not read from JSON or not written as JSON -/
  | json (fault : JsonFault)

namespace Failure

def message : Failure → String
  | io path cause => "IO error on " ++ path.display ++ ": " ++ cause.message
  | malformed source flaw => "malformed input " ++ source.display ++ ": " ++ flaw.message
  | unrecognizedRegion position uid region =>
    position.display ++ ": user " ++ uid ++ " has unrecognized region " ++ region
  | unassignedKey position uid =>
    position.display ++ ": user " ++ uid ++ " is not assigned to any shard"
  | config path words => "invalid config " ++ path.display ++ ": " ++ words
  | json fault => "JSON serialization error: " ++ fault.message

/-- The text of what lies behind a failure, where there is more to tell. -/
def reason? : Failure → Option String
  | io _ cause => some cause.message
  | config _ words => some words
  | json fault => some fault.message
  | malformed .. | unrecognizedRegion .. | unassignedKey .. => none

end Failure

end DumpSplit
