/-
  YAML texts on the grid of their lines and columns.  Indentation is part of the
  grammar, so every character is read together with its place.
-/
namespace DumpSplit.Yaml

/-! ## Characters -/

/-- Whether `c` may stand in a YAML text at all. -/
def isAdmissible (c : Char) : Bool :=
  c == '\t' || c == '\n' || c == '\r' || (' ' ≤ c && c ≤ '~') || c == '\u0085' ||
    ('\u00a0' ≤ c && c ≤ '\ufffd') || 0x10000 ≤ c.toNat

/-- Whether `c` is a space or a tab. -/
def isBlank (c : Char) : Bool := c == ' ' || c == '\t'

/-- Whether `c` ends a line on the grid. -/
def isBreak (c : Char) : Bool := c == '\n' || c == '\u2028' || c == '\u2029'

/-- Whether `c` may stand in the name of an anchor, a handle or a directive. -/
def isWord (c : Char) : Bool := c.isAlphanum || c == '_' || c == '-'

/-- The value of a hexadecimal digit. -/
def hexValue? (c : Char) : Option Nat :=
  if c.isDigit then some (c.toNat - '0'.toNat)
  else if 'a' ≤ c && c ≤ 'f' then some (c.toNat - 'a'.toNat + 10)
  else if 'A' ≤ c && c ≤ 'F' then some (c.toNat - 'A'.toNat + 10)
  else none

/-- The number that hexadecimal digits write. -/
def hexNumber? (digits : List Char) : Option Nat :=
  digits.foldlM (fun value c => (hexValue? c).map (value * 16 + ·)) 0

/-! ## Cells -/

/-- A character at its place.  All three numbers count from zero; `index` counts
    the characters of the text before it. -/
structure Cell where
  char : Char
  index : Nat
  line : Nat
  column : Nat

/-- Lays out characters from a place on; `done` holds the cells before it, the last
    one first.  Carriage returns and next-line characters become line feeds, and a
    carriage return makes one cell with the line feed after it. -/
def layoutFrom (done : List Cell) (index line column : Nat) : List Char → List Cell
  | [] => done.reverse
  | '\r' :: '\n' :: rest =>
    layoutFrom ({ char := '\n', index, line, column } :: done) (index + 2) (line + 1) 0 rest
  | c :: rest =>
    if c == '\n' || c == '\r' || c == '\u0085' then
      layoutFrom ({ char := '\n', index, line, column } :: done) (index + 1) (line + 1) 0 rest
    else if isBreak c then
      layoutFrom ({ char := c, index, line, column } :: done) (index + 1) (line + 1) 0 rest
    else
      layoutFrom ({ char := c, index, line, column } :: done) (index + 1) line (column + 1) rest

/-- The cells of a text without inadmissible characters. -/
def layout? (text : String) : Option (List Cell) :=
  if text.toList.all isAdmissible then some (layoutFrom [] 0 0 0 text.toList) else none

/-! ## Looking ahead -/

/-- Whether the first of the cells, if any, has the property `p`. -/
def ahead (p : Char → Bool) : List Cell → Bool
  | [] => false
  | cell :: _ => p cell.char

/-- Whether a word would end before the cells: at a blank, a break or the end. -/
def endsWord : List Cell → Bool
  | [] => true
  | cell :: _ => isBlank cell.char || isBreak cell.char

/-- Whether a line ends before the cells. -/
def endsLine : List Cell → Bool
  | [] => true
  | cell :: _ => isBreak cell.char

/-- Whether three times `c` stands at the start of a line, apart from what follows. -/
def marksWith (c : Char) : List Cell → Bool
  | a :: b :: d :: rest =>
    a.column == 0 && a.char == c && b.char == c && d.char == c && endsWord rest
  | _ => false

/-- Whether the cells begin with a mark between documents. -/
def marksDocument (cells : List Cell) : Bool := marksWith '-' cells || marksWith '.' cells

/-- The cells from the first one on that is no blank. -/
def skipBlanks (cells : List Cell) : List Cell := cells.dropWhile (isBlank ·.char)

/-- What follows the rest of a line, if that is blank or a comment. -/
def skipLineEnd? (cells : List Cell) : Option (List Cell) :=
  let cells := skipBlanks cells
  let cells := if ahead (· == '#') cells then cells.dropWhile (!isBreak ·.char) else cells
  if endsLine cells then some (cells.drop 1) else none

/-- The characters at the start of the cells that have the property `p`. -/
def leading (p : Char → Bool) (cells : List Cell) : List Char :=
  (cells.takeWhile (p ·.char)).map (·.char)

end DumpSplit.Yaml
