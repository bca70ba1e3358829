/-
  The value of a JSON text.  Every reader takes the characters that are left and tells
  what it has read and what is left after it.
-/
import DumpSplit.Json.Basic
import DumpSplit.Yaml.Grid

namespace DumpSplit.Json

/-- Whether `c` may stand between the parts of a value. -/
def isSpace (c : Char) : Bool := c == ' ' || c == '\n' || c == '\r' || c == '\t'

def skipSpace (chars : List Char) : List Char := chars.dropWhile isSpace

/-! ## Strings -/

/-- The character that a letter after a backslash stands for. -/
def escapedLetter? : Char → Option Char
  | '"' => some '"'
  | '\\' => some '\\'
  | '/' => some '/'
  | 'b' => some '\x08'
  | 'f' => some '\x0c'
  | 'n' => some '\n'
  | 'r' => some '\r'
  | 't' => some '\t'
  | _ => none

/-- Reads the four digits of a code unit. -/
def readUnit? : List Char → Option (Nat × List Char)
  | a :: b :: c :: d :: rest => (Yaml.hexNumber? [a, b, c, d]).map (·, rest)
  | _ => none

/-- Reads what follows the backslash of an escape.  A character above the others takes
    two code units, each with its own backslash. -/
def readEscape? : List Char → Option (Char × List Char)
  | 'u' :: rest => do
    let (unit, rest) ← readUnit? rest
    if unit.isValidChar then return (Char.ofNat unit, rest)
    match rest with
    | '\\' :: 'u' :: rest =>
      let (low, rest) ← readUnit? rest
      guard (unit < 0xDC00 && 0xDC00 ≤ low && low < 0xE000)
      return (Char.ofNat (0x10000 + (unit - 0xD800) * 0x400 + (low - 0xDC00)), rest)
    | _ => none
  | letter :: rest => (escapedLetter? letter).map (·, rest)
  | [] => none

/-- Reads the characters of a string and the quote at its end. -/
def readChars? : Nat → List Char → Option (List Char × List Char)
  | 0, _ | _ + 1, [] => none
  | _ + 1, '"' :: rest => some ([], rest)
  | fuel + 1, '\\' :: rest => do
    let (c, rest) ← readEscape? rest
    let (text, rest) ← readChars? fuel rest
    return (c :: text, rest)
  | fuel + 1, c :: rest =>
    if c < ' ' then none
    else (readChars? fuel rest).map fun (text, rest) => (c :: text, rest)

/-- Reads a string from behind its first quote. -/
def readString? (chars : List Char) : Option (String × List Char) :=
  (readChars? (chars.length + 1) chars).map fun (text, rest) => (String.ofList text, rest)

/-! ## Numbers -/

/-- Reads a minus sign, if there is one, as the factor that it stands for. -/
def readSign : List Char → Int × List Char
  | '-' :: rest => (-1, rest)
  | rest => (1, rest)

/-- Reads a digit and those after it. -/
def readDigits? (chars : List Char) : Option (List Char × List Char) :=
  let (digits, rest) := chars.span Char.isDigit
  if digits = [] then none else some (digits, rest)

/-- Reads the digits behind a point, if there is one. -/
def readFraction? : List Char → Option (List Char × List Char)
  | '.' :: rest => readDigits? rest
  | rest => some ([], rest)

/-- Reads the power of ten by which a number is multiplied, if it says one. -/
def readExponent? : List Char → Option (Option Int × List Char)
  | 'e' :: rest | 'E' :: rest => do
    let (sign, rest) := match rest with
      | '+' :: rest => (1, rest)
      | rest => readSign rest
    let (digits, rest) ← readDigits? rest
    return (some (sign * Nat.ofDigitChars 10 digits 0), rest)
  | rest => some (none, rest)

/-- The number `digits * 10 ^ power`, as a decimal. -/
def scaled (digits : Int) (power : Int) : Json :=
  .decimal (digits * Nat.pow 10 power.toNat) (-power).toNat

/-- Reads a number.  Only a single digit before the point can be zero. -/
def readNumber? (chars : List Char) : Option (Json × List Char) := do
  let (sign, chars) := readSign chars
  let (digits, rest) ← readDigits? chars
  guard (digits = ['0'] || digits.head? ≠ some '0')
  let (fraction, rest) ← readFraction? rest
  let (exponent?, rest) ← readExponent? rest
  let number := sign * Nat.ofDigitChars 10 (digits ++ fraction) 0
  match exponent? with
  | none => return (if fraction = [] then .whole number else .decimal number fraction.length, rest)
  | some exponent => return (scaled number (exponent - fraction.length), rest)

/-! ## Values -/

/-- Reads a string and the colon after it. -/
def readKey? (chars : List Char) : Option (String × List Char) :=
  match skipSpace chars with
  | '"' :: rest => do
    let (key, rest) ← readString? rest
    match skipSpace rest with
    | ':' :: rest => return (key, rest)
    | _ => none
  | _ => none

/- The fuel of each reader bounds the number of readers that may be open inside it, for
   which the number of characters is enough. -/
mutual

/-- Reads a value. -/
def readValue? : Nat → List Char → Option (Json × List Char)
  | 0, _ => none
  | fuel + 1, chars =>
    match skipSpace chars with
    | 'n' :: 'u' :: 'l' :: 'l' :: rest => some (.null, rest)
    | 't' :: 'r' :: 'u' :: 'e' :: rest => some (.bool true, rest)
    | 'f' :: 'a' :: 'l' :: 's' :: 'e' :: rest => some (.bool false, rest)
    | '"' :: rest => (readString? rest).map fun (text, rest) => (.string text, rest)
    | '[' :: rest =>
      match skipSpace rest with
      | ']' :: rest => some (.array [], rest)
      | rest => do
        let (item, rest) ← readValue? fuel rest
        let (items, rest) ← readItems? fuel rest
        return (.array (item :: items), rest)
    | '\x7b' :: rest =>
      match skipSpace rest with
      | '\x7d' :: rest => some (.object [], rest)
      | rest => do
        let (key, rest) ← readKey? rest
        let (value, rest) ← readValue? fuel rest
        let (fields, rest) ← readFields? fuel rest
        return (.object ((key, value) :: fields), rest)
    | rest => readNumber? rest

/-- Reads the items of an array after its first one, and its end. -/
def readItems? : Nat → List Char → Option (List Json × List Char)
  | 0, _ => none
  | fuel + 1, chars =>
    match skipSpace chars with
    | ']' :: rest => some ([], rest)
    | ',' :: rest => do
      let (item, rest) ← readValue? fuel rest
      let (items, rest) ← readItems? fuel rest
      return (item :: items, rest)
    | _ => none

/-- Reads the fields of an object after its first one, and its end. -/
def readFields? : Nat → List Char → Option (List (String × Json) × List Char)
  | 0, _ => none
  | fuel + 1, chars =>
    match skipSpace chars with
    | '\x7d' :: rest => some ([], rest)
    | ',' :: rest => do
      let (key, rest) ← readKey? rest
      let (value, rest) ← readValue? fuel rest
      let (fields, rest) ← readFields? fuel rest
      return ((key, value) :: fields, rest)
    | _ => none

end

/-- The value of a text that is nothing but a value. -/
def ofText? (text : String) : Option Json := do
  let (value, rest) ← readValue? (text.length + 1) text.toList
  guard (skipSpace rest).isEmpty
  return value

end DumpSplit.Json
