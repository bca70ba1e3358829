/-
  The written form of a JSON value piece by piece, as the pieces go out one after the
  other.  Put together they are the text of `pretty`.
-/
import DumpSplit.Json.Pretty

namespace DumpSplit.Json

/-- The pieces of a JSON string: its quotes, its escapes, and the runs of characters that
    stand for themselves. -/
def stringPieces (text : String) : List (Option String) :=
  let runs := text.toList.splitBy fun c d => isPlain c && isPlain d
  some "\"" :: (runs.map fun run => some (String.join (run.map escapedChar))) ++ [some "\""]

/-- The blanks of a level. -/
def indent (level : Nat) : List (Option String) := List.replicate level (some "  ")

mutual

/-- The pieces of a value that stands on `level`.  A value without a written form is a
    piece that is missing. -/
def pieces (level : Nat) : Json → List (Option String)
  | null => [some "null"]
  | bool value => [some (if value then "true" else "false")]
  | whole value => [some (toString value)]
  | decimal digits places => [some (decimalText digits places)]
  | string text => stringPieces text
  | array [] => [some "[", some "]"]
  | array (item :: rest) =>
    some "[" :: some "\n" :: indent (level + 1) ++ pieces (level + 1) item ++
      itemPieces (level + 1) rest ++ some "\n" :: indent level ++ [some "]"]
  | object [] => [some "\x7b", some "\x7d"]
  | object ((key, value) :: rest) =>
    some "\x7b" :: some "\n" :: indent (level + 1) ++ stringPieces key ++ some ": " ::
      pieces (level + 1) value ++ fieldPieces (level + 1) rest ++
      some "\n" :: indent level ++ [some "\x7d"]
  | unwritable => [none]

/-- The pieces of the items of an array after its first one. -/
def itemPieces (level : Nat) : List Json → List (Option String)
  | [] => []
  | item :: rest =>
    some ",\n" :: indent level ++ pieces level item ++ itemPieces level rest

/-- The pieces of the fields of an object after its first one. -/
def fieldPieces (level : Nat) : List (String × Json) → List (Option String)
  | [] => []
  | (key, value) :: rest =>
    some ",\n" :: indent level ++ stringPieces key ++ some ": " :: pieces level value ++
      fieldPieces level rest

end

/-- The sizes of the pieces that go out, up to the first one that is missing. -/
def pieceSizes (json : Json) : List Nat :=
  ((json.pieces 0).takeWhile Option.isSome).filterMap (·.map String.utf8ByteSize)

end DumpSplit.Json
