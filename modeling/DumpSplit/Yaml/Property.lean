/-
  What is said about nodes and documents in their own notation: anchors and aliases,
  tags, and the directives before a document.
-/
import DumpSplit.Yaml.Grid
import DumpSplit.Yaml.Token

namespace DumpSplit.Yaml

/-! ## Anchors -/

/-- The name of an anchor or alias of which the indicator has been read. -/
def anchorName? (cells : List Cell) : Option (String × List Cell) :=
  let name := leading isWord cells
  let rest := cells.drop name.length
  let ends := endsWord rest ||
    ahead (['?', ':', ',', ']', '}', '%', '@', '\x60'].contains ·) rest
  if name ≠ [] && ends then some (String.ofList name, rest) else none

/-! ## Tags -/

/-- Whether `c` may stand in a tag; `inBrackets` admits flow indicators. -/
def isUriChar (inBrackets : Bool) (c : Char) : Bool :=
  isWord c ||
    [';', '/', '?', ':', '@', '&', '=', '+', '$', '.', '!', '~', '*', '\'', '(', ')'].contains c ||
    (inBrackets && (c == ',' || c == '[' || c == ']'))

/-- How many bytes follow the first byte of a character. -/
def followers? (byte : Nat) : Option Nat :=
  if byte < 0x80 then some 0
  else if byte / 0x20 = 6 then some 1
  else if byte / 0x10 = 14 then some 2
  else if byte / 0x08 = 30 then some 3
  else none

/-- Reads the rest of a tag, of which `size` characters precede.  Bytes in
    hexadecimal after percent signs have to come in whole characters, of which `owed`
    bytes are still to follow. -/
def readUri (inBrackets : Bool) (owed size : Nat) : List Cell → Option (Nat × List Cell)
  | [] => if owed = 0 then some (size, []) else none
  | cell :: rest =>
    if cell.char == '%' then
      match rest with
      | high :: low :: rest =>
        match hexNumber? [high.char, low.char] with
        | none => none
        | some byte =>
          if owed = 0 then
            match followers? byte with
            | none => none
            | some owed => readUri inBrackets owed (size + 1) rest
          else if byte / 0x40 = 2 then readUri inBrackets (owed - 1) size rest
          else none
      | _ => none
    else if owed ≠ 0 then none
    else if isUriChar inBrackets cell.char then readUri inBrackets 0 (size + 1) rest
    else some (size, cell :: rest)

/-- The part of a tag up to its second exclamation mark, or before what cannot be
    part of a handle. -/
def handle? (cells : List Cell) : Option (String × List Cell) :=
  match cells with
  | [] => none
  | cell :: rest =>
    if cell.char ≠ '!' then none
    else
      let name := leading isWord rest
      let after := rest.drop name.length
      if ahead (· == '!') after then some (String.ofList ('!' :: name ++ ['!']), after.drop 1)
      else some (String.ofList ('!' :: name), after)

/-- Whether a handle stands between two exclamation marks, and so has to be
    declared. -/
def isClosed (handle : String) : Bool :=
  1 < handle.length && handle.toList.getLast? == some '!'

/-- The handle of the tag of which the exclamation mark has been read. -/
def tagHandle? (inFlow : Bool) (mark : Cell) (cells : List Cell) :
    Option (String × List Cell) := do
  let (handle, rest) ←
    if ahead (· == '<') cells then do
      let (size, rest) ← readUri true 0 0 (cells.drop 1)
      guard (size ≠ 0 && ahead (· == '>') rest)
      pure ("", rest.drop 1)
    else do
      let (handle, rest) ← handle? (mark :: cells)
      if isClosed handle then do
        let (size, rest) ← readUri false 0 0 rest
        guard (size ≠ 0)
        pure (handle, rest)
      else do
        let (_, rest) ← readUri false 0 0 rest
        pure ("", rest)
  guard (endsWord rest || (inFlow && ahead (· == ',') rest))
  return (handle, rest)

/-! ## Directives -/

/-- A number of at most nine digits. -/
def versionNumber? (cells : List Cell) : Option (Nat × List Cell) :=
  let digits := leading Char.isDigit cells
  if digits = [] || 9 < digits.length then none
  else some (digits.foldl (fun value c => value * 10 + (c.toNat - '0'.toNat)) 0,
    cells.drop digits.length)

/-- The directive of which the percent sign has been read, up to the end of its
    line. -/
def directive? (cells : List Cell) : Option (Token × List Cell) := do
  let name := leading isWord cells
  let rest := cells.drop name.length
  guard (endsWord rest)
  let (token, rest) ←
    if String.ofList name = "YAML" then do
      let (major, rest) ← versionNumber? (skipBlanks rest)
      guard (ahead (· == '.') rest)
      let (minor, rest) ← versionNumber? (rest.drop 1)
      pure (Token.version major minor, rest)
    else if String.ofList name = "TAG" then do
      let (handle, rest) ← handle? (skipBlanks rest)
      guard (isClosed handle || handle = "!")
      guard (ahead isBlank rest)
      let (size, rest) ← readUri true 0 0 (skipBlanks rest)
      guard (size ≠ 0 && endsWord rest)
      pure (Token.tagHandle handle, rest)
    else none
  return (token, ← skipLineEnd? rest)

end DumpSplit.Yaml
