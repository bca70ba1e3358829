/-
  Tokens of YAML texts.
-/
namespace DumpSplit.Yaml

/-- What the structure of a text is read from.  The ends of block collections, and
    the starts that indentation implies, are tokens of their own; the end of the text
    is none. -/
inductive Token
  | version (major minor : Nat)
  | tagHandle (handle : String)
  | documentStart
  | documentEnd
  | blockSequenceStart
  | blockMappingStart
  | blockEnd
  | blockEntry
  | flowSequenceStart
  | flowSequenceEnd
  | flowMappingStart
  | flowMappingEnd
  | flowEntry
  | key
  | value
  | alias (name : String)
  | anchor (name : String)
  /-- a tag with its handle, which is empty where no declaration is needed -/
  | tag (handle : String)
  | scalar (text : String) (plain : Bool)
  deriving DecidableEq

end DumpSplit.Yaml
