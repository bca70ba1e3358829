/-
  Dumps: the lines of a table's file, as the records and what frames them.
-/
import DumpSplit.Failure
import DumpSplit.Text.Blank

namespace DumpSplit

/-- The lines of a dump.  The preamble ends with the line that opens the
    records, and the last record is the first line that closes them. -/
structure Dump where
  preamble : List String
  records : List String
  suffix : List String
  deriving DecidableEq

/-- Cuts `items` after the first one with the property `p`, if there is one. -/
def cutAfter? {α : Type} (p : α → Bool) (items : List α) : Option (List α × List α) :=
  match items.span (!p ·) with
  | (_, []) => none
  | (before, last :: rest) => some (before ++ [last], rest)

namespace Dump

/-- Whether the records follow after `line`. -/
def opens (line : String) : Bool :=
  Format.marker.toList.isPrefixOf line.toList

/-- Whether the records end with `line`. -/
def closes (line : String) : Bool :=
  Text.lastVisible? line == some Format.terminator

/-- The dump that consists of `lines`.  The line that opens the records never
    closes them. -/
def ofLines (lines : List String) : Except Flaw Dump :=
  match cutAfter? opens lines with
  | none => .error .noMarker
  | some (preamble, rest) =>
    match cutAfter? closes rest with
    | none => .error (.unterminated preamble.length)
    | some (records, suffix) => .ok { preamble, records, suffix }

/-- All lines of a dump. -/
def lines (dump : Dump) : List String :=
  dump.preamble ++ dump.records ++ dump.suffix

/-- The line of the file on which the record at `index` stands. -/
def lineNumber (dump : Dump) (index : Nat) : Nat :=
  dump.preamble.length + index + 1

end Dump

end DumpSplit
