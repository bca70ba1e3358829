/-
  The text of block scalars: lines that are indented alike, kept as they are or
  folded, after a header.
-/
import DumpSplit.Yaml.Grid

namespace DumpSplit.Yaml

/-- What becomes of the breaks at the end of a block scalar. -/
inductive Chomping
  | strip
  | clip
  | keep

/-- The header of a block scalar: what it says about the end, and by how much its
    lines are indented, where it says so. -/
structure BlockHeader where
  chomping : Chomping := .clip
  increment? : Option Nat := none

/-- The sign for what becomes of the breaks at the end. -/
def chomping? (c : Char) : Option Chomping :=
  if c == '+' then some .keep else if c == '-' then some .strip else none

/-- Reads the header of a block scalar up to the end of its line.  Sign and digit
    may come in either order; the digit must not be zero. -/
def blockHeader? (cells : List Cell) : Option (BlockHeader × List Cell) := do
  let sign? (cells : List Cell) : Option Chomping := cells.head?.bind (chomping? ·.char)
  let digit? (cells : List Cell) : Option Nat :=
    cells.head?.bind fun cell => if cell.char.isDigit then hexValue? cell.char else none
  let (header, rest) : BlockHeader × List Cell :=
    match sign? cells, digit? cells with
    | some chomping, _ =>
      match digit? (cells.drop 1) with
      | some digit => ({ chomping, increment? := some digit }, cells.drop 2)
      | none => ({ chomping }, cells.drop 1)
    | none, some digit =>
      match sign? (cells.drop 1) with
      | some chomping => ({ chomping, increment? := some digit }, cells.drop 2)
      | none => ({ increment? := some digit }, cells.drop 1)
    | none, none => ({}, cells)
  guard (header.increment? ≠ some 0)
  return (header, ← skipLineEnd? rest)

/-- Reads indentation and empty lines before a line of a block scalar.  Where the
    column `indent?` of the scalar is not yet known, it becomes that of the deepest
    of these lines, but at least `least`.  `breaks` are the breaks read, the last one
    first.  A tab is refused where indentation is expected. -/
def readIndent (least : Nat) (indent? : Option Nat) (deepest : Nat) (breaks : List Char) :
    List Cell → Option (Nat × List Char × List Cell)
  | [] => some (indent?.getD (max deepest least), breaks, [])
  | cell :: rest =>
    let before := indent?.all (cell.column < ·)
    if before && cell.char == ' ' then
      readIndent least indent? (max deepest (cell.column + 1)) breaks rest
    else if before && cell.char == '\t' then none
    else if isBreak cell.char then readIndent least indent? deepest (cell.char :: breaks) rest
    else some (indent?.getD (max deepest least), breaks, cell :: rest)

/-- A block scalar while it is read: its text so far and the breaks after its last
    line, each with the last character first, and whether that line began with a
    blank. -/
structure BlockText where
  done : List Char := []
  ending : List Char := []
  empties : List Char := []
  afterBlank : Bool := false

/-- The text of a block scalar with one more line, which ends with the break
    `ending`, if any, and with the empty lines `empties`. -/
def BlockText.addLine (folded : Bool) (block : BlockText) (line ending empties : List Char) :
    BlockText :=
  let startsBlank := line.head?.any isBlank
  let joint :=
    if folded && block.ending == ['\n'] && !block.afterBlank && !startsBlank then
      if block.empties.isEmpty then [' '] else []
    else block.ending
  { done := line.reverse ++ (block.empties ++ (joint ++ block.done)), ending, empties,
    afterBlank := startsBlank }

/-- The whole text of a block scalar after its last line. -/
def BlockText.chomp (block : BlockText) : Chomping → List Char
  | .strip => block.done.reverse
  | .clip => (block.ending ++ block.done).reverse
  | .keep => (block.empties ++ (block.ending ++ block.done)).reverse

/-- Reads the lines of a block scalar that begin in the column `indent`. -/
def readBlock (folded : Bool) (indent : Nat) (block : BlockText) :
    Nat → List Cell → Option (BlockText × List Cell)
  | 0, _ => none
  | _ + 1, [] => some (block, [])
  | fuel + 1, cell :: rest =>
    if cell.column ≠ indent then some (block, cell :: rest)
    else
      let line := leading (!isBreak ·) (cell :: rest)
      let after := (cell :: rest).drop line.length
      let ending := (after.take 1).map (·.char)
      match readIndent indent (some indent) 0 [] (after.drop 1) with
      | none => none
      | some (_, empties, rest) =>
        readBlock folded indent (block.addLine folded line ending empties) fuel rest

/-- The block scalar of which the indicator has been read, in a collection whose
    content begins in the column `least`. -/
def block? (folded : Bool) (least : Nat) (cells : List Cell) :
    Option (List Char × List Cell) := do
  let (header, rest) ← blockHeader? cells
  let indent? := header.increment?.map fun increment => (least - 1) + increment
  let (indent, empties, rest) ← readIndent (max least 1) indent? 0 [] rest
  let (block, rest) ← readBlock folded indent { empties } (rest.length + 1) rest
  return (block.chomp header.chomping, rest)

end DumpSplit.Yaml
