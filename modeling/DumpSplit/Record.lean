/-
  Records: the lines of a dump that are split, as sequences of fields.
-/
import DumpSplit.Format

namespace DumpSplit

/-- Cuts a text at every delimiter, the leftmost first.  `field` is what has
    been read of the current field, its last character first. -/
def cutFields (field : List Char) : List Char → List (List Char)
  | [] => [field.reverse]
  | ',' :: ' ' :: rest => field.reverse :: cutFields [] rest
  | c :: rest => cutFields (c :: field) rest

/-- A record by position.  Fields keep their quotes, and the last one whatever
    ends the line. -/
structure Record where
  fields : List String

namespace Record

/-- The record on `line`. -/
def ofLine (line : String) : Record :=
  ⟨(cutFields [] line.toList).map String.ofList⟩

/-- The line that holds `record`. -/
def toLine (record : Record) : String :=
  Format.delimiter.intercalate record.fields

end Record

/-- A position in a record, and what is found there. -/
structure Column where
  index : Nat
  name : String
  deriving DecidableEq

end DumpSplit
