/-
  Configurations: the names of the three dumps in their directory.  They are read
  from YAML files and from JSON values; what is not set there keeps its default.
-/
import DumpSplit.Job
import DumpSplit.Yaml.Node

namespace DumpSplit

/-- The file name of each table's dump. -/
structure Config where
  fileName : Table → String

/-- The file name of a table's dump where none is configured. -/
def Table.defaultFileName (table : Table) : String := table.name ++ ".sql"

/-- The key under which a table's file name is configured. -/
def Table.setting (table : Table) : String := table.name ++ "_file"

namespace Config

/-- The configuration with the given file names, and the default for other tables. -/
def overlay (settings : List (Table × String)) : Config where
  fileName table := (settings.lookup table).getD table.defaultFileName

/-- The configuration with nothing set. -/
def default : Config where
  fileName := Table.defaultFileName

/-- Whether nothing differs from the default. -/
def isDefault (config : Config) : Bool :=
  Table.all.all fun table => config.fileName table == table.defaultFileName

/-! ## From YAML -/

/-- The table whose file name is configured under `key`, if any. -/
def tableOf? (key : String) : Option Table := Table.all.find? (·.setting == key)

/-- The settings among the entries of a mapping.  Keys have to be scalars; what stands
    under a key that is no setting does not matter, a setting has to be a scalar, and
    none may be repeated. -/
def settings? (anchors : Yaml.Anchors) : List (Yaml.Node × Yaml.Node) →
    Option (List (Table × String))
  | [] => some []
  | (key, value) :: rest => do
    match tableOf? (← anchors.text? key) with
    | none => settings? anchors rest
    | some table => do
      let name ← anchors.text? value
      let settings ← settings? anchors rest
      if (settings.lookup table).isSome then none else some ((table, name) :: settings)

/-- The configuration that a YAML text describes: a mapping, or nothing at all. -/
def ofYaml? (text : String) : Option Config := do
  match ← Yaml.documentOf? text with
  | none => return default
  | some document =>
    match document.root with
    | .scalar "" true => return default
    | .mapping entries => return overlay (← settings? document.anchors entries)
    | _ => none

/-- What a reader of YAML says of a text that describes no configuration. -/
abbrev Wording := String → String

/-- Loads the configuration at `path`. -/
def load (wording : Wording) (path : Path) : Job Failure Config := do
  let text ← Job.readText path
  match ofYaml? text with
  | some config => return config
  | none => .fail (.config path (wording text))

/-! ## From JSON -/

/-- A file name given by a JSON value, which has to be a string. -/
def nameOfJson : Json → Except JsonFault String
  | .string text => .ok text
  | other => .error (.wrongKind other "a string")

/-- The setting of a table that is given by a JSON value. -/
def settingOfJson : Table × Json → Except JsonFault (Table × String)
  | (table, value) => return (table, ← nameOfJson value)

/-- The configuration that a JSON value describes.  The fields of an object are looked
    at in the order of their names, and the items of an array stand for the tables in
    order. -/
def ofJson : Json → Except JsonFault Config
  | .object fields => do
    let found := [.article, .user, .userRead].filterMap fun table =>
      (Json.field? fields table.setting).map ((table, ·))
    return overlay (← found.mapM settingOfJson)
  | .array items => do
    let settings ← (Table.all.zip items).mapM settingOfJson
    if Table.all.length < items.length then throw (.tooLong items.length)
    return overlay settings
  | other => .error (.wrongKind other "struct ShardConfig")

end Config

end DumpSplit
