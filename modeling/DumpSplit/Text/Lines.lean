/-
  Lines of a text.  A line runs up to its line feed and keeps it, so that
  joining the lines gives the text back; only the last line may lack one.
-/
namespace DumpSplit.Text

/-- The lines of `text`, each with its line feed.  The empty text has none, and
    a carriage return is an ordinary character. -/
def lines (text : String) : List String :=
  (text.toList.splitBy fun c _ => c != '\n').map String.ofList

end DumpSplit.Text
