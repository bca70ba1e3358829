/-
  Paths: bytes as the file system takes them.  A path need not be text; it is
  shown lossily and nothing in it is normalized.
-/
import DumpSplit.Text.Lossy

namespace DumpSplit

/-- A path of a file or directory. -/
structure Path where
  bytes : List UInt8
  deriving DecidableEq

namespace Path

/-- The byte `/` between the names of a path. -/
def separator : UInt8 := 0x2F

/-- The path written as `text`. -/
def ofString (text : String) : Path := ⟨text.toByteArray.data.toList⟩

/-- The text of a path that is valid UTF-8. -/
def text? (path : Path) : Option String := String.fromUTF8? ⟨path.bytes.toArray⟩

/-- A path as it stands in messages. -/
def display (path : Path) : String := Text.lossy path.bytes

/-- Whether a path starts at the root. -/
def isAbsolute (path : Path) : Bool := path.bytes.head? == some separator

/-- `name` as seen from `dir`: an absolute name stands alone, the empty
    directory adds nothing, and a separator is put between unless `dir` ends in
    one. -/
def join (dir name : Path) : Path :=
  if name.isAbsolute then name
  else match dir.bytes.getLast? with
    | none => name
    | some last =>
      if last = separator then ⟨dir.bytes ++ name.bytes⟩
      else ⟨dir.bytes ++ separator :: name.bytes⟩

/-! ## Names of a path -/

/-- Cuts `bytes` at every separator.  `part` is what has been read of the current
    part, its last byte first. -/
def cutParts (part : List UInt8) : List UInt8 → List (List UInt8)
  | [] => [part.reverse]
  | b :: rest =>
    if b = separator then part.reverse :: cutParts [] rest else cutParts (b :: part) rest

/-- The names on a path.  Separators at its ends or in a row make no names. -/
def names (path : Path) : List (List UInt8) :=
  (cutParts [] path.bytes).filter (· ≠ [])

/-- Whether a path ends in a separator, so that it can only lead to a directory. -/
def endsInSeparator (path : Path) : Bool := path.bytes.getLast? == some separator

end Path

end DumpSplit
