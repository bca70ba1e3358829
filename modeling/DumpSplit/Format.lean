/-
  The texts by which a dump is read: what opens the statement whose rows are
  split, what ends it, and what stands between the fields of a row.
-/
namespace DumpSplit.Format

/-- The start of the line after which the records follow. -/
def marker : String := "INSERT INTO"

/-- The last visible character of the last record. -/
def terminator : Char := ';'

/-- What stands between two fields of a record. -/
def delimiter : String := ", "

end DumpSplit.Format
