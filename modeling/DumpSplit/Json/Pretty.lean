/-
  The written form of a JSON value: one item or field to a line, two blanks for
  each level, and no line feed at the end.  Writing goes from left to right and
  ends at the first value that has no written form; what precedes it stays.
-/
import DumpSplit.Json.Basic

namespace DumpSplit.Json

/-! ## Strings -/

/-- How `c` stands in a JSON string: quotes, backslashes and controls are
    escaped, by a letter where there is one. -/
def escapedChar (c : Char) : String :=
  match c with
  | '"' => "\\\""
  | '\\' => "\\\\"
  | '\n' => "\\n"
  | '\r' => "\\r"
  | '\t' => "\\t"
  | '\x08' => "\\b"
  | '\x0c' => "\\f"
  | c =>
    if c < '\x10' then "\\u000" ++ Text.hexDigits c.toNat
    else if c < ' ' then "\\u00" ++ Text.hexDigits c.toNat
    else c.toString

/-- Whether `c` stands in a string as it is. -/
def isPlain (c : Char) : Bool := !(decide (c < ' ') || c == '"' || c == '\\')

/-- `text` as a JSON string. -/
def stringForm (text : String) : String :=
  "\"" ++ String.join (text.toList.map escapedChar) ++ "\""

/-! ## Values -/

/-- What has been written, and whether that is all there was to write. -/
structure Written where
  text : String
  whole : Bool := true
  deriving DecidableEq

/-- Writes on, unless writing has ended. -/
def Written.andThen (first second : Written) : Written :=
  if first.whole then { second with text := first.text ++ second.text } else first

instance : Append Written := ⟨Written.andThen⟩

@[simp] theorem Written.whole_append (first second : Written) :
    (first ++ second).whole = (first.whole && second.whole) := by
  cases h : first.whole <;> simp [HAppend.hAppend, Append.append, andThen, h]

theorem Written.text_append {first : Written} (h : first.whole = true) (second : Written) :
    (first ++ second).text = first.text ++ second.text := by
  simp [HAppend.hAppend, Append.append, andThen, h]

theorem Written.append_assoc (a b c : Written) : a ++ b ++ c = a ++ (b ++ c) := by
  obtain ⟨text, _ | _⟩ := a
  · rfl
  · obtain ⟨text', _ | _⟩ := b
    · rfl
    · exact congrArg (mk · c.whole) String.append_assoc

theorem Written.empty_append (written : Written) :
    ({ text := "" } ++ written : Written) = written :=
  congrArg (mk · written.whole) String.empty_append

theorem Written.mk_append_mk (s t : String) :
    ({ text := s } ++ { text := t } : Written) = { text := s ++ t } :=
  rfl

theorem Written.mk_append_mk_append (s t : String) (written : Written) :
    ({ text := s } ++ ({ text := t } ++ written) : Written) = { text := s ++ t } ++ written := by
  rw [← append_assoc, mk_append_mk]

/-- A line feed and the blanks of a level. -/
def newLine (level : Nat) : Written :=
  { text := String.ofList ('\n' :: List.replicate (2 * level) ' ') }

mutual

/-- The written form of a value that stands on `level`. -/
def pretty (level : Nat) : Json → Written
  | null => { text := "null" }
  | bool value => { text := if value then "true" else "false" }
  | whole value => { text := toString value }
  | decimal digits places => { text := decimalText digits places }
  | string text => { text := stringForm text }
  | array [] => { text := "[]" }
  | array (item :: rest) =>
    { text := "[" } ++ newLine (level + 1) ++ pretty (level + 1) item ++
      prettyItems (level + 1) rest ++ newLine level ++ { text := "]" }
  | object [] => { text := "\x7b\x7d" }
  | object ((key, value) :: rest) =>
    { text := "\x7b" } ++ newLine (level + 1) ++ { text := stringForm key ++ ": " } ++
      pretty (level + 1) value ++ prettyFields (level + 1) rest ++
      newLine level ++ { text := "\x7d" }
  | unwritable => { text := "", whole := false }

/-- The items of an array after its first one. -/
def prettyItems (level : Nat) : List Json → Written
  | [] => { text := "" }
  | item :: rest =>
    { text := "," } ++ newLine level ++ pretty level item ++ prettyItems level rest

/-- The fields of an object after its first one. -/
def prettyFields (level : Nat) : List (String × Json) → Written
  | [] => { text := "" }
  | (key, value) :: rest =>
    { text := "," } ++ newLine level ++ { text := stringForm key ++ ": " } ++
      pretty level value ++ prettyFields level rest

end

end DumpSplit.Json
