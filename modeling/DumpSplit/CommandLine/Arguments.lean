/-
  Command lines: which arguments are understood, and what is said about the others.

  Arguments are read from left to right.  An option that takes a value waits for it; it
  takes effect, and is checked, only when another option comes or the line ends.  An
  argument that is not understood is told at once.
-/
import DumpSplit.Path

namespace DumpSplit.CommandLine

/-! ## Options -/

/-- The options of the program. -/
inductive Switch
  | source
  | config
  | summary
  | verbose
  | quiet
  | help
  | version
  deriving DecidableEq

namespace Switch

def all : List Switch := [source, config, summary, verbose, quiet, help, version]

/-- The name after two dashes. -/
def long : Switch → String
  | source => "source"
  | config => "config"
  | summary => "summary"
  | verbose => "verbose"
  | quiet => "quiet"
  | help => "help"
  | version => "version"

/-- The letter after one dash. -/
def short? : Switch → Option Char
  | source => some 's'
  | config => some 'c'
  | summary => none
  | verbose => some 'v'
  | quiet => some 'q'
  | help => some 'h'
  | version => some 'V'

/-- Whether the option takes a value. -/
def takesValue : Switch → Bool
  | source | config | summary => true
  | verbose | quiet | help | version => false

/-- The option as it is named in messages. -/
def display : Switch → String
  | source => "--source <SOURCE>"
  | config => "--config <CONFIG>"
  | summary => "--summary <SUMMARY>"
  | verbose => "--verbose..."
  | quiet => "--quiet"
  | help => "--help"
  | version => "--version"

end Switch

/-- What is wrong with a command line. -/
inductive Misuse
  | valueMissing (switch : Switch)
  | valueUnexpected (value : Path) (switch : Switch)
  | unexpected (argument : String)
  | repeated (switch : Switch)
  | conflict (first second : Switch)
  | sourceMissing

def Misuse.message : Misuse → String
  | valueMissing switch =>
    "a value is required for '" ++ switch.display ++ "' but none was supplied"
  | valueUnexpected value switch =>
    "unexpected value '" ++ value.display ++ "' for '" ++ switch.display ++
      "' found; no more were expected"
  | unexpected argument => "unexpected argument '" ++ argument ++ "' found"
  | repeated switch => "the argument '" ++ switch.display ++ "' cannot be used multiple times"
  | conflict first second =>
    "the argument '" ++ first.display ++ "' cannot be used with '" ++ second.display ++ "'"
  | sourceMissing => "the following required arguments were not provided:"

/-- Why no run follows from a command line. -/
inductive Stop
  | help
  | version
  | misuse (misuse : Misuse)

/-! ## Requests -/

/-- How much of the log is shown. -/
inductive Verbosity
  | quiet
  /-- the option for more was given so many times -/
  | verbose (times : Nat)
  deriving DecidableEq

/-- A run that is asked for. -/
structure Request where
  source : Path
  config? : Option Path
  summary? : Option Path
  verbosity : Verbosity

/-- A command line of which a part has been read. -/
structure Reading where
  /-- the values that took effect -/
  values : List (Switch × Path) := []
  /-- the flags that took effect, the last one first -/
  flags : List Switch := []
  /-- the option that waits, with its value if that has been read -/
  waiting? : Option (Switch × Option Path) := none

namespace Reading

/-- Lets a value take effect.  Values must not be empty. -/
def setValue (r : Reading) (switch : Switch) (value : Path) : Except Stop Reading :=
  if (r.values.lookup switch).isSome then throw (.misuse (.repeated switch))
  else if value.bytes = [] then throw (.misuse (.valueMissing switch))
  else return { r with values := (switch, value) :: r.values }

/-- Lets the option that waits take effect. -/
def settle (r : Reading) : Except Stop Reading :=
  match r.waiting? with
  | none => return r
  | some (switch, none) => throw (.misuse (.valueMissing switch))
  | some (switch, some value) => { r with waiting? := none }.setValue switch value

/-- Reads an option with the value that is attached to it. -/
def giveValue (r : Reading) (switch : Switch) (value : Path) : Except Stop Reading := do
  (← r.settle).setValue switch value

/-- Reads an option that waits for its value. -/
def await (r : Reading) (switch : Switch) : Except Stop Reading :=
  return { ← r.settle with waiting? := some (switch, none) }

/-- Reads a flag.  Only the one for more may be repeated. -/
def setFlag (r : Reading) (switch : Switch) : Except Stop Reading := do
  let r ← r.settle
  match switch with
  | .help => throw .help
  | .version => throw .version
  | _ =>
    if switch ≠ .verbose && r.flags.contains switch then throw (.misuse (.repeated switch))
    return { r with flags := switch :: r.flags }

/-- Reads an argument that is no option, which can only be a value. -/
def readWord (r : Reading) (word : Path) : Except Stop Reading :=
  match r.waiting? with
  | some (switch, none) => return { r with waiting? := some (switch, some word) }
  | _ => throw (.misuse (.unexpected word.display))

/-! ## Long options -/

/-- The byte `=` before an attached value. -/
def equals : UInt8 := 0x3D

/-- Reads an option by its name, with what follows the name. -/
def readLong (r : Reading) (name : List UInt8) (value? : Option Path) : Except Stop Reading :=
  match Switch.all.find? fun switch => (Path.ofString switch.long).bytes == name with
  | none => throw (.misuse (.unexpected ("--" ++ Path.display ⟨name⟩)))
  | some switch =>
    match switch.takesValue, value? with
    | true, some value => r.giveValue switch value
    | true, none => r.await switch
    | false, some value => throw (.misuse (.valueUnexpected value switch))
    | false, none => r.setFlag switch

/-! ## Short options -/

/-- The longest part of `bytes` that is text, of at most `size` bytes, and the rest. -/
def textUpTo (bytes : List UInt8) : Nat → List Char × List UInt8
  | 0 => ([], bytes)
  | size + 1 =>
    match Path.text? ⟨bytes.take (size + 1)⟩ with
    | some text => (text.toList, bytes.drop (size + 1))
    | none => textUpTo bytes size

/-- Reads letters of options, and the bytes after them that are no text.  The first
    option that takes a value takes all that follows its letter, after an optional
    equals sign. -/
def readLetters (r : Reading) (beyond : List UInt8) : List Char → Except Stop Reading
  | [] =>
    if beyond = [] then return r
    else throw (.misuse (.unexpected ("-" ++ Path.display ⟨beyond⟩)))
  | letter :: letters =>
    match Switch.all.find? (·.short? == some letter) with
    | none => throw (.misuse (.unexpected ("-" ++ letter.toString)))
    | some switch =>
      if switch.takesValue then
        let value := (Path.ofString (String.ofList letters)).bytes ++ beyond
        if value = [] then r.await switch
        else if value.head? = some equals then r.giveValue switch ⟨value.tail⟩
        else r.giveValue switch ⟨value⟩
      else do (← r.setFlag switch).readLetters beyond letters

/-! ## Whole command lines -/

/-- The byte `-` before options. -/
def dash : UInt8 := 0x2D

/-- Reads an argument. -/
def readArgument (r : Reading) (argument : Path) : Except Stop Reading :=
  match argument.bytes with
  | first :: second :: rest =>
    if first ≠ dash then r.readWord argument
    else if second = dash then
      match rest.span (· != equals) with
      | (name, []) => r.readLong name none
      | (name, _ :: value) => r.readLong name (some ⟨value⟩)
    else
      let (letters, beyond) := textUpTo (second :: rest) (rest.length + 1)
      r.readLetters beyond letters
  | _ => r.readWord argument

/-- Reads arguments.  After two dashes alone, none is understood. -/
def readArguments (r : Reading) : List Path → Except Stop Reading
  | [] => r.settle
  | argument :: rest =>
    if argument.bytes = [dash, dash] then
      match rest with
      | [] => r.settle
      | word :: _ => throw (.misuse (.unexpected word.display))
    else do (← r.readArgument argument).readArguments rest

/-- The run that is asked for.  Silence and verbosity exclude each other; the one that
    was given first is named first, where repeated verbosity counts from its last
    time. -/
def request (r : Reading) : Except Stop Request :=
  match r.flags with
  | last :: _ =>
    if r.flags.contains .quiet && r.flags.contains .verbose then
      if last = .quiet then throw (.misuse (.conflict .verbose .quiet))
      else throw (.misuse (.conflict .quiet .verbose))
    else complete r
  | [] => complete r
where
  complete (r : Reading) : Except Stop Request :=
    match r.values.lookup .source with
    | none => throw (.misuse .sourceMissing)
    | some source =>
      return {
        source
        config? := r.values.lookup .config
        summary? := r.values.lookup .summary
        verbosity := if r.flags.contains .quiet then .quiet else .verbose (r.flags.count .verbose) }

end Reading

/-- What the arguments ask for. -/
def parse (arguments : List Path) : Except Stop Request := do
  (← Reading.readArguments {} arguments).request

end DumpSplit.CommandLine
