/-
  Blank characters: the property White_Space of the character database, and the
  last character of a text that is not blank.
-/
namespace DumpSplit.Text

/-- The characters with the property White_Space. -/
def isBlank (c : Char) : Bool :=
  ('\t' ≤ c && c ≤ '\r') || c == ' ' || c == '\u0085' || c == '\u00a0' || c == '\u1680' ||
    ('\u2000' ≤ c && c ≤ '\u200a') || c == '\u2028' || c == '\u2029' || c == '\u202f' ||
    c == '\u205f' || c == '\u3000'

/-- The last character of `text` before the blanks at its end, if any. -/
def lastVisible? (text : String) : Option Char :=
  (text.toList.reverse.dropWhile isBlank).head?

end DumpSplit.Text
