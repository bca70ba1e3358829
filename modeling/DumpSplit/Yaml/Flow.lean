/-
  The text of plain and quoted scalars.  Both are runs of characters with gaps
  between them; a gap within a line is kept, and one across lines is folded.
-/
import DumpSplit.Yaml.Grid

namespace DumpSplit.Yaml

/-! ## Gaps -/

/-- Blanks and breaks between two runs of a scalar, each list with its last
    character first. -/
structure Gap where
  /-- the blanks, while no line has ended -/
  blanks : List Char := []
  /-- whether a line has ended -/
  broken : Bool := false
  /-- the first break, unless it was escaped -/
  first : List Char := []
  /-- the breaks after it -/
  more : List Char := []

/-- What a gap stands for, its last character first: a single line feed for a
    blank, and otherwise for nothing where more breaks follow. -/
def Gap.folded (gap : Gap) : List Char :=
  if gap.broken then
    if gap.first = ['\n'] then
      if gap.more.isEmpty then [' '] else gap.more
    else gap.more ++ gap.first
  else gap.blanks

/-- Reads on in a gap.  A tab is refused at the start of a line, left of the column
    `least`. -/
def readGap (least : Nat) (gap : Gap) : List Cell → Option (Gap × List Cell)
  | [] => some (gap, [])
  | cell :: rest =>
    if isBlank cell.char then
      if gap.broken then
        if cell.char == '\t' && cell.column < least then none else readGap least gap rest
      else readGap least { gap with blanks := cell.char :: gap.blanks } rest
    else if isBreak cell.char then
      if gap.broken then readGap least { gap with more := cell.char :: gap.more } rest
      else readGap least { broken := true, first := [cell.char] } rest
    else some (gap, cell :: rest)

/-! ## Plain scalars -/

/-- Whether `c` ends a plain scalar inside brackets. -/
def isFlowIndicator (c : Char) : Bool :=
  c == ',' || c == '[' || c == ']' || c == '{' || c == '}'

/-- Reads the rest of a run of a plain scalar; `done` is what precedes it, the last
    character first.  The run ends at a colon before a gap and, inside brackets, at
    a flow indicator; there a colon directly before one is refused. -/
def readRun (inFlow : Bool) (done : List Char) : List Cell → Option (List Char × List Cell)
  | [] => some (done, [])
  | cell :: rest =>
    if isBlank cell.char || isBreak cell.char then some (done, cell :: rest)
    else if cell.char == ':' then
      if inFlow && ahead (fun c => isFlowIndicator c || c == '?') rest then none
      else if endsWord rest then some (done, cell :: rest)
      else readRun inFlow (cell.char :: done) rest
    else if inFlow && isFlowIndicator cell.char then some (done, cell :: rest)
    else readRun inFlow (cell.char :: done) rest

/-- A scalar as read: its text, whether a line has ended after it, and what
    follows. -/
structure Scanned where
  text : List Char
  broken : Bool
  rest : List Cell

/-- Reads on in a plain scalar after the text `done` and a gap.  It goes on with the
    lines that are indented to the column `least`, up to a comment or a mark between
    documents; inside brackets every line counts as indented. -/
def readPlain (inFlow : Bool) (least : Nat) (done : List Char) (gap : Gap) :
    Nat → List Cell → Option Scanned
  | 0, _ => none
  | fuel + 1, cells =>
    if marksDocument cells || ahead (· == '#') cells then
      some { text := done.reverse, broken := gap.broken, rest := cells }
    else
      match readRun inFlow [] cells with
      | none => none
      | some ([], rest) => some { text := done.reverse, broken := gap.broken, rest }
      | some (run, rest) =>
        let done := run ++ gap.folded ++ done
        if ahead (fun c => isBlank c || isBreak c) rest then
          match readGap least {} rest with
          | none => none
          | some (gap, []) => some { text := done.reverse, broken := gap.broken, rest := [] }
          | some (gap, cell :: rest) =>
            if !inFlow && cell.column < least then
              some { text := done.reverse, broken := gap.broken, rest := cell :: rest }
            else readPlain inFlow least done gap fuel (cell :: rest)
        else some { text := done.reverse, broken := false, rest }

/-- The plain scalar at the start of the cells. -/
def plain? (inFlow : Bool) (least : Nat) (cells : List Cell) : Option Scanned :=
  readPlain inFlow least [] {} (cells.length + 1) cells

/-! ## Quoted scalars -/

/-- The character that a letter after a backslash stands for. -/
def escapedLetter? : Char → Option Char
  | '0' => some '\x00'
  | 'a' => some '\x07'
  | 'b' => some '\x08'
  | 't' | '\t' => some '\t'
  | 'n' => some '\n'
  | 'v' => some '\x0b'
  | 'f' => some '\x0c'
  | 'r' => some '\r'
  | 'e' => some '\x1b'
  | ' ' => some ' '
  | '"' => some '"'
  | '/' => some '/'
  | '\\' => some '\\'
  | 'N' => some '\u0085'
  | '_' => some '\u00a0'
  | 'L' => some '\u2028'
  | 'P' => some '\u2029'
  | _ => none

/-- How many hexadecimal digits follow a letter after a backslash. -/
def escapedDigits? : Char → Option Nat
  | 'x' => some 2
  | 'u' => some 4
  | 'U' => some 8
  | _ => none

/-- What the cells after a backslash stand for, and how many of them it takes. -/
def escape? (cells : List Cell) : Option (Char × Nat) :=
  match cells with
  | [] => none
  | cell :: rest =>
    match escapedLetter? cell.char, escapedDigits? cell.char with
    | some c, _ => some (c, 1)
    | none, none => none
    | none, some count =>
      let digits := rest.take count
      match hexNumber? (digits.map (·.char)) with
      | none => none
      | some code =>
        if h : digits.length = count ∧ code.isValidChar then
          some (Char.ofNatAux code h.2, count + 1)
        else none

/-- Reads the rest of a run of a scalar in single quotes; two quotes stand for one. -/
def readSingleRun (done : List Char) : List Cell → List Char × List Cell
  | [] => (done, [])
  | [cell] =>
    if isBlank cell.char || isBreak cell.char || cell.char == '\'' then (done, [cell])
    else (cell.char :: done, [])
  | cell :: next :: rest =>
    if isBlank cell.char || isBreak cell.char then (done, cell :: next :: rest)
    else if cell.char == '\'' then
      if next.char == '\'' then readSingleRun ('\'' :: done) rest
      else (done, cell :: next :: rest)
    else readSingleRun (cell.char :: done) (next :: rest)

/-- Reads the rest of a run of a scalar in double quotes, and whether it ends with an
    escaped break. -/
def readDoubleRun (done : List Char) (cells : List Cell) :
    Option (List Char × Bool × List Cell) :=
  match cells with
  | [] => some (done, false, [])
  | cell :: rest =>
    if isBlank cell.char || isBreak cell.char || cell.char == '"' then
      some (done, false, cell :: rest)
    else if cell.char == '\\' then
      if ahead isBreak rest then some (done, true, rest.drop 1)
      else
        match escape? rest with
        | none => none
        | some (c, count) => readDoubleRun (c :: done) (rest.drop count)
    else readDoubleRun (cell.char :: done) rest
termination_by cells.length

/-- Reads on in a quoted scalar after the text `done`.  No mark between documents may
    stand in it, and it has to be closed. -/
def readQuoted (double : Bool) (done : List Char) : Nat → List Cell → Option Scanned
  | 0, _ => none
  | fuel + 1, cells =>
    if marksDocument cells then none
    else
      let run := if double then readDoubleRun done cells
        else let (done, rest) := readSingleRun done cells
          some (done, false, rest)
      match run with
      | none | some (_, _, []) => none
      | some (done, escaped, cell :: rest) =>
        if cell.char == (if double then '"' else '\'') then
          some { text := done.reverse, broken := false, rest }
        else
          match readGap 0 { broken := escaped } (cell :: rest) with
          | none => none
          | some (gap, rest) => readQuoted double (gap.folded ++ done) fuel rest

/-- The quoted scalar of which the opening quote has been read. -/
def quoted? (double : Bool) (cells : List Cell) : Option Scanned :=
  readQuoted double [] (cells.length + 1) cells

end DumpSplit.Yaml
