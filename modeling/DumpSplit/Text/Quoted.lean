/-
  Texts in quotes, for diagnostics: whatever the text holds, its quoted form is
  one line in which every character can be told.
-/
import DumpSplit.Text.Shapeless

namespace DumpSplit.Text

/-- The lower-case hexadecimal digits of `n`, without leading zeros. -/
def hexDigits (n : Nat) : String :=
  String.ofList (Nat.toDigits 16 n)

/-- How `c` stands inside quotes: quotes and backslashes after a backslash, the
    usual controls by their letter, other shapeless characters by their code
    point in braces, and everything else as it is. -/
def quotedChar (c : Char) : String :=
  match c with
  | '"' => "\\\""
  | '\\' => "\\\\"
  | '\n' => "\\n"
  | '\r' => "\\r"
  | '\t' => "\\t"
  | '\x00' => "\\0"
  | c => if isShapeless c then "\\u\x7b" ++ hexDigits c.toNat ++ "\x7d" else c.toString

/-- `text` in double quotes. -/
def quoted (text : String) : String :=
  "\"" ++ String.join (text.toList.map quotedChar) ++ "\""

end DumpSplit.Text
