/-
  The tokens of a YAML text.  A node may turn out to be a key only at the colon after
  it, so the place of its first token is kept as a candidate, and the tokens that say
  so are put in there later.
-/
import DumpSplit.Yaml.Block
import DumpSplit.Yaml.Flow
import DumpSplit.Yaml.Property

namespace DumpSplit.Yaml

/-- A place where a key may have begun: the number of tokens before it, and its first
    cell.  It is required if nothing else may begin there. -/
structure Candidate where
  before : Nat
  cell : Cell
  required : Bool

/-- The most characters by which a colon may follow the start of its key. -/
def longestKey : Nat := 1024

/-- Whether a key that began at the candidate can no longer end before `cell`: keys
    are short and stand on one line. -/
def Candidate.isStale (candidate : Candidate) (cell : Cell) : Bool :=
  candidate.cell.line < cell.line || candidate.cell.index + longestKey < cell.index

/-- A text of which some tokens have been read. -/
structure Reading where
  cells : List Cell
  /-- the tokens so far, the last one first -/
  tokens : List Token := []
  /-- the columns of the open block collections, the innermost first -/
  columns : List Nat := []
  /-- whether a key may begin here -/
  keyAllowed : Bool := true
  /-- where the innermost key may have begun -/
  key? : Option Candidate := none
  /-- the same for what is around each open flow collection, the innermost first -/
  outer : List (Option Candidate) := []

namespace Reading

/-! ## Parts of a step -/

/-- Whether a flow collection is open; indentation does not count inside one. -/
def inFlow (r : Reading) : Bool := !r.outer.isEmpty

/-- The least column of what lies inside the innermost block collection. -/
def least (r : Reading) : Nat :=
  match r.columns with
  | [] => 0
  | column :: _ => column + 1

/-- Adds a token. -/
def emit (r : Reading) (token : Token) : Reading :=
  { r with tokens := token :: r.tokens }

/-- Puts a token in after the first `before` ones. -/
def insert (r : Reading) (before : Nat) (token : Token) : Reading :=
  let later := r.tokens.length - before
  { r with tokens := r.tokens.take later ++ token :: r.tokens.drop later }

/-- Opens a block collection in `column`, after the first `before` tokens, unless one
    is open there. -/
def openBlock (r : Reading) (column before : Nat) (start : Token) : Reading :=
  if !r.inFlow && r.least ≤ column then
    { r.insert before start with columns := column :: r.columns }
  else r

/-- Closes the block collections right of `column`; `columns` are the open ones. -/
def closeBlocksFrom (r : Reading) (column : Nat) : List Nat → Reading
  | [] => { r with columns := [] }
  | top :: rest =>
    if column < top then (r.emit .blockEnd).closeBlocksFrom column rest
    else { r with columns := top :: rest }

/-- Closes the block collections right of `column`. -/
def closeBlocks (r : Reading) (column : Nat) : Reading :=
  if r.inFlow then r else r.closeBlocksFrom column r.columns

/-- Closes all block collections. -/
def closeAll (r : Reading) : Reading :=
  if r.inFlow then r
  else { r with tokens := r.columns.map (fun _ => Token.blockEnd) ++ r.tokens, columns := [] }

/-- Gives up the candidate for the innermost key, unless it is required. -/
def dropKey? (r : Reading) : Option Reading :=
  if r.key?.any (·.required) then none else some { r with key? := none }

/-- Makes `cell` the candidate for a key, where one may begin. -/
def saveKey? (r : Reading) (cell : Cell) : Option Reading :=
  if r.keyAllowed then do
    let r ← r.dropKey?
    let required := !r.inFlow && r.least == cell.column + 1
    return { r with key? := some { before := r.tokens.length, cell, required } }
  else some r

/-- Gives up the candidates that are stale at `cell`. -/
def dropStale? (r : Reading) (cell : Cell) : Option Reading :=
  let stale (key? : Option Candidate) : Bool := key?.any (·.isStale cell)
  if (r.key? :: r.outer).any fun key? => stale key? && key?.any (·.required) then none
  else
    let kept (key? : Option Candidate) : Option Candidate := if stale key? then none else key?
    some { r with key? := kept r.key?, outer := r.outer.map kept }

/-- What follows blanks, breaks and comments, and whether a key may begin there.
    Where one may, tabs are no blanks. -/
def skipGap (inFlow keyAllowed inComment : Bool) : List Cell → Bool × List Cell
  | [] => (keyAllowed, [])
  | cell :: rest =>
    if isBreak cell.char then skipGap inFlow (keyAllowed || !inFlow) false rest
    else if inComment || cell.char == '#' then skipGap inFlow keyAllowed true rest
    else if cell.char == ' ' || (cell.char == '\t' && (inFlow || !keyAllowed)) then
      skipGap inFlow keyAllowed false rest
    else (keyAllowed, cell :: rest)

/-! ## Tokens -/

/-- Reads a directive. -/
def readDirective? (r : Reading) (rest : List Cell) : Option Reading := do
  let r ← r.closeAll.dropKey?
  let (token, rest) ← directive? rest
  return { r.emit token with cells := rest, keyAllowed := false }

/-- Reads a mark between documents. -/
def readMark? (r : Reading) (token : Token) : Option Reading := do
  let r ← r.closeAll.dropKey?
  return { r.emit token with cells := r.cells.drop 3, keyAllowed := false }

/-- Reads the opening bracket of a flow collection. -/
def readOpening? (r : Reading) (cell : Cell) (rest : List Cell) (token : Token) :
    Option Reading := do
  let r ← r.saveKey? cell
  return { r.emit token with
    cells := rest, keyAllowed := true, key? := none, outer := r.key? :: r.outer }

/-- Reads the closing bracket of a flow collection. -/
def readClosing? (r : Reading) (rest : List Cell) (token : Token) : Option Reading := do
  let r ← r.dropKey?
  return { r.emit token with
    cells := rest, keyAllowed := false, key? := r.outer.head?.join, outer := r.outer.tail }

/-- Reads the comma between entries of a flow collection. -/
def readComma? (r : Reading) (rest : List Cell) : Option Reading := do
  let r ← r.dropKey?
  return { r.emit .flowEntry with cells := rest, keyAllowed := true }

/-- Reads the dash before an entry of a block sequence. -/
def readDash? (r : Reading) (cell : Cell) (rest : List Cell) : Option Reading := do
  guard (r.inFlow || r.keyAllowed)
  let r ← (r.openBlock cell.column r.tokens.length .blockSequenceStart).dropKey?
  return { r.emit .blockEntry with cells := rest, keyAllowed := true }

/-- Reads the question mark before a key. -/
def readQuestion? (r : Reading) (cell : Cell) (rest : List Cell) : Option Reading := do
  guard (r.inFlow || r.keyAllowed)
  let r ← (r.openBlock cell.column r.tokens.length .blockMappingStart).dropKey?
  return { r.emit .key with cells := rest, keyAllowed := !r.inFlow }

/-- Reads the colon before a value.  If a key may have begun before it, one has. -/
def readColon? (r : Reading) (cell : Cell) (rest : List Cell) : Option Reading :=
  match r.key? with
  | some key =>
    let r := (r.insert key.before .key).openBlock key.cell.column key.before .blockMappingStart
    some { r.emit .value with cells := rest, keyAllowed := false, key? := none }
  | none => do
    guard (r.inFlow || r.keyAllowed)
    let r := r.openBlock cell.column r.tokens.length .blockMappingStart
    return { r.emit .value with cells := rest, keyAllowed := !r.inFlow }

/-- Reads an anchor or alias. -/
def readAnchor? (r : Reading) (cell : Cell) (rest : List Cell) (token : String → Token) :
    Option Reading := do
  let r ← r.saveKey? cell
  let (name, rest) ← anchorName? rest
  return { r.emit (token name) with cells := rest, keyAllowed := false }

/-- Reads a tag. -/
def readTag? (r : Reading) (cell : Cell) (rest : List Cell) : Option Reading := do
  let r ← r.saveKey? cell
  let (handle, rest) ← tagHandle? r.inFlow cell rest
  return { r.emit (.tag handle) with cells := rest, keyAllowed := false }

/-- Reads a block scalar. -/
def readBlockScalar? (r : Reading) (rest : List Cell) (folded : Bool) : Option Reading := do
  let r ← r.dropKey?
  let (text, rest) ← block? folded r.least rest
  return { r.emit (.scalar (String.ofList text) false) with cells := rest, keyAllowed := true }

/-- Reads a quoted scalar. -/
def readQuotedScalar? (r : Reading) (cell : Cell) (rest : List Cell) (double : Bool) :
    Option Reading := do
  let r ← r.saveKey? cell
  let scanned ← quoted? double rest
  return { r.emit (.scalar (String.ofList scanned.text) false) with
    cells := scanned.rest, keyAllowed := false }

/-- Reads a plain scalar.  A key may begin after one that ended with its line. -/
def readPlainScalar? (r : Reading) (cell : Cell) : Option Reading := do
  let r ← r.saveKey? cell
  let scanned ← plain? r.inFlow r.least r.cells
  return { r.emit (.scalar (String.ofList scanned.text) true) with
    cells := scanned.rest, keyAllowed := scanned.broken }

/-- Whether a plain scalar may begin with `cell`, which no other token begins with. -/
def startsPlain (inFlow : Bool) (cell : Cell) (rest : List Cell) : Bool :=
  !(isBlank cell.char || isBreak cell.char ||
      ['-', '?', ':', ',', '[', ']', '{', '}', '#', '&', '*', '!', '|', '>', '\'', '"', '%', '@',
        '\x60'].contains cell.char) ||
    (cell.char == '-' && !ahead isBlank rest) ||
    (!inFlow && (cell.char == '?' || cell.char == ':') && !endsWord rest)

/-- Reads the token that begins with `cell`, and the ones implied by it. -/
def readToken? (r : Reading) (cell : Cell) (rest : List Cell) : Option Reading :=
  if cell.column == 0 && cell.char == '%' then r.readDirective? rest
  else if marksWith '-' r.cells then r.readMark? .documentStart
  else if marksWith '.' r.cells then r.readMark? .documentEnd
  else if cell.char == '[' then r.readOpening? cell rest .flowSequenceStart
  else if cell.char == '{' then r.readOpening? cell rest .flowMappingStart
  else if cell.char == ']' then r.readClosing? rest .flowSequenceEnd
  else if cell.char == '}' then r.readClosing? rest .flowMappingEnd
  else if cell.char == ',' then r.readComma? rest
  else if cell.char == '-' && endsWord rest then r.readDash? cell rest
  else if cell.char == '?' && (r.inFlow || endsWord rest) then r.readQuestion? cell rest
  else if cell.char == ':' && (r.inFlow || endsWord rest) then r.readColon? cell rest
  else if cell.char == '*' then r.readAnchor? cell rest .alias
  else if cell.char == '&' then r.readAnchor? cell rest .anchor
  else if cell.char == '!' then r.readTag? cell rest
  else if cell.char == '|' && !r.inFlow then r.readBlockScalar? rest false
  else if cell.char == '>' && !r.inFlow then r.readBlockScalar? rest true
  else if cell.char == '\'' then r.readQuotedScalar? cell rest false
  else if cell.char == '"' then r.readQuotedScalar? cell rest true
  else if startsPlain r.inFlow cell rest then r.readPlainScalar? cell
  else none

/-- Reads all tokens that are left. -/
def readAll? : Nat → Reading → Option (List Token)
  | 0, _ => none
  | fuel + 1, r =>
    let (keyAllowed, cells) := skipGap r.inFlow r.keyAllowed false r.cells
    let r := { r with keyAllowed, cells }
    match cells with
    | [] => r.closeAll.dropKey?.map (·.tokens.reverse)
    | cell :: rest => do
      let r ← r.dropStale? cell
      let r ← (r.closeBlocks cell.column).readToken? cell rest
      r.readAll? fuel

end Reading

/-- The tokens of a text, which may begin with a byte order mark. -/
def tokens? (text : String) : Option (List Token) := do
  let cells ← layout? text
  let cells := if ahead (· == '\ufeff') cells then cells.drop 1 else cells
  Reading.readAll? (cells.length + 1) { cells }

end DumpSplit.Yaml
