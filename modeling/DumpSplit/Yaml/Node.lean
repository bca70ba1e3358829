/-
  The document of a YAML text, as a tree of nodes.

  Anchors are numbered when they are met: an anchor gets as its number how many
  names are known before it.  A name that is used again gets a new number without
  adding a name, so a later anchor may get the same number and take its place.  An
  alias stands for the last node with the number that its name has where it stands.
-/
import DumpSplit.Yaml.Tokens

namespace DumpSplit.Yaml

/-- A node of a document. -/
inductive Node
  /-- the node of the anchor with the number `anchor` -/
  | alias (anchor : Nat)
  | scalar (text : String) (plain : Bool)
  | sequence (items : List Node)
  | mapping (entries : List (Node × Node))

/-- The plain scalar without text, which stands where a node is left out. -/
def Node.absent : Node := .scalar "" true

/-- The anchors met so far. -/
structure Anchors where
  /-- the names with their numbers, the last use first -/
  numbers : List (String × Nat) := []
  /-- the number of different names -/
  names : Nat := 0
  /-- the texts of the anchored scalars by number, the last anchor first; other
      nodes have none -/
  texts : List (Nat × Option String) := []

/-- Adds an anchor for a scalar with a text, or for another node. -/
def Anchors.add (anchors : Anchors) (name : String) (text? : Option String) : Anchors where
  numbers := (name, anchors.names) :: anchors.numbers
  names := if (anchors.numbers.lookup name).isSome then anchors.names else anchors.names + 1
  texts := (anchors.names, text?) :: anchors.texts

/-- The text of a scalar, or of the scalar that an alias stands for. -/
def Anchors.text? (anchors : Anchors) : Node → Option String
  | .scalar text _ => some text
  | .alias number => (anchors.texts.lookup number).join
  | .sequence _ | .mapping _ => none

/-! ## Reading nodes -/

/-- The tokens that are left, and what is known where they stand. -/
structure Rest where
  tokens : List Token
  /-- the tag handles declared for the document -/
  handles : List String
  anchors : Anchors := {}

namespace Rest

/-- The same with `tokens` left. -/
def moveTo (rest : Rest) (tokens : List Token) : Rest := { rest with tokens }

/-- Whether the next token is one of `tokens`. -/
def sees (rest : Rest) (tokens : List Token) : Bool :=
  rest.tokens.head?.any tokens.contains

/-- Notes the anchor of a node, if it has one. -/
def note (rest : Rest) (anchor? : Option String) (text? : Option String) : Rest :=
  match anchor? with
  | some name => { rest with anchors := rest.anchors.add name text? }
  | none => rest

/-- The anchor and the handle of the tag before a node, in either order. -/
def properties (rest : Rest) : Option String × Option String × Rest :=
  match rest.tokens with
  | .anchor name :: .tag handle :: more | .tag handle :: .anchor name :: more =>
    (some name, some handle, rest.moveTo more)
  | .anchor name :: more => (some name, none, rest.moveTo more)
  | .tag handle :: more => (none, some handle, rest.moveTo more)
  | _ => (none, none, rest)

/-- Where a node may stand. -/
inductive Context
  /-- inside brackets -/
  | flow
  /-- where a block collection may begin -/
  | block
  /-- where also the entries of a block sequence may follow that is not indented -/
  | blockEntry
  deriving DecidableEq

/- Every reader takes as fuel the number of readers that may be open inside it.  Each
   one leaves a token behind before it opens another of its kind, so four times the
   number of tokens is enough. -/
mutual

/-- Reads a node. -/
def node? (context : Context) : Nat → Rest → Option (Node × Rest)
  | 0, _ => none
  | fuel + 1, rest =>
    match rest.tokens with
    | .alias name :: more => do
      let number ← rest.anchors.numbers.lookup name
      return (.alias number, rest.moveTo more)
    | _ =>
      let (anchor?, handle?, rest) := rest.properties
      if handle?.all fun handle => handle = "" || rest.handles.contains handle then
        match rest.tokens with
        | .scalar text plain :: more =>
          some (.scalar text plain, (rest.note anchor? (some text)).moveTo more)
        | .flowSequenceStart :: more =>
          (flowItems? true fuel ((rest.note anchor? none).moveTo more)).map fun (items, rest) =>
            (.sequence items, rest)
        | .flowMappingStart :: more =>
          (flowEntries? true fuel ((rest.note anchor? none).moveTo more)).map fun (entries, rest) =>
            (.mapping entries, rest)
        | token :: more =>
          if token = .blockSequenceStart && context ≠ .flow then
            (blockItems? fuel ((rest.note anchor? none).moveTo more)).map fun (items, rest) =>
              (.sequence items, rest)
          else if token = .blockMappingStart && context ≠ .flow then
            (blockEntries? fuel ((rest.note anchor? none).moveTo more)).map fun (entries, rest) =>
              (.mapping entries, rest)
          else if token = .blockEntry && context = .blockEntry then
            (looseItems? fuel (rest.note anchor? none)).map fun (items, rest) =>
              (.sequence items, rest)
          else if anchor?.isSome || handle?.isSome then
            some (.absent, rest.note anchor? (some ""))
          else none
        | [] =>
          if anchor?.isSome || handle?.isSome then some (.absent, rest.note anchor? (some ""))
          else none
      else none

/-- Reads a node unless the next token is one of `ends`, which leave it out. -/
def nodeUnless? (context : Context) (ends : List Token) : Nat → Rest → Option (Node × Rest)
  | 0, _ => none
  | fuel + 1, rest => if rest.sees ends then some (.absent, rest) else node? context fuel rest

/-- Reads the entries of an indented block sequence and its end. -/
def blockItems? : Nat → Rest → Option (List Node × Rest)
  | 0, _ => none
  | fuel + 1, rest =>
    match rest.tokens with
    | .blockEntry :: more => do
      let (item, rest) ← nodeUnless? .block [.blockEntry, .blockEnd] fuel (rest.moveTo more)
      let (items, rest) ← blockItems? fuel rest
      return (item :: items, rest)
    | .blockEnd :: more => some ([], rest.moveTo more)
    | _ => none

/-- Reads the entries of a block sequence that is not indented. -/
def looseItems? : Nat → Rest → Option (List Node × Rest)
  | 0, _ => none
  | fuel + 1, rest =>
    match rest.tokens with
    | .blockEntry :: more => do
      let (item, rest) ←
        nodeUnless? .block [.blockEntry, .key, .value, .blockEnd] fuel (rest.moveTo more)
      let (items, rest) ← looseItems? fuel rest
      return (item :: items, rest)
    | _ => some ([], rest)

/-- Reads the entries of a block mapping and its end. -/
def blockEntries? : Nat → Rest → Option (List (Node × Node) × Rest)
  | 0, _ => none
  | fuel + 1, rest =>
    match rest.tokens with
    | .key :: more => do
      let (key, rest) ←
        nodeUnless? .blockEntry [.key, .value, .blockEnd] fuel (rest.moveTo more)
      let (value, rest) ← value? .blockEntry [.key, .value, .blockEnd] fuel rest
      let (entries, rest) ← blockEntries? fuel rest
      return ((key, value) :: entries, rest)
    | .blockEnd :: more => some ([], rest.moveTo more)
    | _ => none

/-- Reads the value of an entry, which one of `ends` leaves out. -/
def value? (context : Context) (ends : List Token) : Nat → Rest → Option (Node × Rest)
  | 0, _ => none
  | fuel + 1, rest =>
    match rest.tokens with
    | .value :: more => nodeUnless? context ends fuel (rest.moveTo more)
    | _ => some (.absent, rest)

/-- Reads the items of a flow sequence and its end.  A single entry of a mapping may
    stand as an item; where its key is left out, the token that shows it is lost. -/
def flowItems? (first : Bool) : Nat → Rest → Option (List Node × Rest)
  | 0, _ => none
  | fuel + 1, rest => do
    if rest.sees [.flowSequenceEnd] then return ([], rest.moveTo rest.tokens.tail)
    guard (first || rest.sees [.flowEntry])
    let rest := if first then rest else rest.moveTo rest.tokens.tail
    match rest.tokens with
    | .key :: more => do
      let rest := rest.moveTo more
      let (key, rest) ←
        if rest.sees [.value, .flowEntry, .flowSequenceEnd] then
          some (Node.absent, rest.moveTo rest.tokens.tail)
        else node? .flow fuel rest
      let (value, rest) ← value? .flow [.flowEntry, .flowSequenceEnd] fuel rest
      let (items, rest) ← flowItems? false fuel rest
      return (.mapping [(key, value)] :: items, rest)
    | .flowSequenceEnd :: more => some ([], rest.moveTo more)
    | _ => do
      let (item, rest) ← node? .flow fuel rest
      let (items, rest) ← flowItems? false fuel rest
      return (item :: items, rest)

/-- Reads the entries of a flow mapping and its end. -/
def flowEntries? (first : Bool) : Nat → Rest → Option (List (Node × Node) × Rest)
  | 0, _ => none
  | fuel + 1, rest => do
    if rest.sees [.flowMappingEnd] then return ([], rest.moveTo rest.tokens.tail)
    guard (first || rest.sees [.flowEntry])
    let rest := if first then rest else rest.moveTo rest.tokens.tail
    match rest.tokens with
    | .key :: more => do
      let (key, rest) ←
        nodeUnless? .flow [.value, .flowEntry, .flowMappingEnd] fuel (rest.moveTo more)
      let (value, rest) ← value? .flow [.flowEntry, .flowMappingEnd] fuel rest
      let (entries, rest) ← flowEntries? false fuel rest
      return ((key, value) :: entries, rest)
    | .flowMappingEnd :: more => some ([], rest.moveTo more)
    | _ => do
      let (key, rest) ← node? .flow fuel rest
      let (entries, rest) ← flowEntries? false fuel rest
      return ((key, .absent) :: entries, rest)

end

end Rest

/-! ## Documents -/

/-- Reads the directives before a document: the version at most once, and each handle
    at most once. -/
def directives? (version : Bool) (handles : List String) :
    List Token → Option (List String × List Token)
  | .version major minor :: rest =>
    if !version && major = 1 && (minor = 1 || minor = 2) then directives? true handles rest
    else none
  | .tagHandle handle :: rest =>
    if handles.contains handle then none else directives? version (handle :: handles) rest
  | rest => some (handles, rest)

/-- A document: its root, and the anchors in it. -/
structure Document where
  root : Node
  anchors : Anchors

/-- The only document that the tokens make, if they make any.  A document without
    directives needs no mark before it. -/
def document? (tokens : List Token) : Option (Option Document) :=
  match tokens with
  | [] => some none
  | first :: _ => do
    let declared : Bool := match first with
      | .version .. | .tagHandle _ | .documentStart => true
      | _ => false
    let (handles, tokens) ← if declared then directives? false [] tokens else some ([], tokens)
    guard (!declared || tokens.head? = some .documentStart)
    let start : Rest :=
      { tokens := if declared then tokens.tail else tokens, handles := "!" :: "!!" :: handles }
    let empty : Bool := declared && match start.tokens with
      | [] | .version .. :: _ | .tagHandle _ :: _ | .documentStart :: _ | .documentEnd :: _ => true
      | _ => false
    let (root, rest) ← if empty then some (Node.absent, start)
      else start.node? .block (4 * start.tokens.length + 4)
    guard (rest.tokens.all (· = .documentEnd))
    return some { root, anchors := rest.anchors }

/-- The document of a text that holds at most one. -/
def documentOf? (text : String) : Option (Option Document) := do document? (← tokens? text)

end DumpSplit.Yaml
