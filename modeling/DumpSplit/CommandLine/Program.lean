/-
  The program behind a command line: what it does, what it logs, and how it ends.
-/
import DumpSplit.CommandLine.Arguments
import DumpSplit.DumpSet

namespace DumpSplit.CommandLine

/-! ## The job -/

/-- What a run was about to do when it failed. -/
inductive Purpose
  | loadConfig (path : Path)
  | openSource (dir : Path)
  | split (dir : Path)
  | saveSummary (path : Path)

def Purpose.message : Purpose → String
  | loadConfig path => "Failed to load config " ++ path.display
  | openSource dir => "Invalid source directory " ++ dir.display
  | split dir => "Failed to shard " ++ dir.display
  | saveSummary path => "Failed to save summary " ++ path.display

/-- A failure, and what it has thwarted. -/
structure Setback where
  purpose : Purpose
  failure : Failure

/-- A job in pursuit of a purpose. -/
def toward {α : Type} (purpose : Purpose) (job : Job Failure α) : Job Setback α :=
  job.mapFailure fun failure => { purpose, failure }

/-- The configuration that a run is to use. -/
def Request.config (wording : Config.Wording) (request : Request) : Job Setback Config :=
  match request.config? with
  | some path => toward (.loadConfig path) (Config.load wording path)
  | none => return .default

/-- Saves the summary of a run where that is asked for. -/
def Request.keepSummary (request : Request) (summary : Summary) : Job Setback Unit :=
  match request.summary? with
  | some path => do
    toward (.saveSummary path) (summary.save path)
    .tell (.savedSummary path)
  | none => return

/-- Does what a request asks for. -/
def Request.job (wording : Config.Wording) (request : Request) : Job Setback Unit := do
  let config ← request.config wording
  let dumps ← toward (.openSource request.source) (DumpSet.open? request.source config)
  let summary ← toward (.split request.source) dumps.splitAll
  .tellAll (summary.tables.map fun table => .wroteShards table.table table.output)
  request.keepSummary summary

/-! ## Texts -/

/-- Whether an event is shown. -/
def Verbosity.shows (verbosity : Verbosity) (event : Event) : Bool :=
  match verbosity with
  | quiet => decide (Level.warn ≤ event.level)
  | verbose 0 => decide (Level.info ≤ event.level)
  | verbose _ => true

/-- `text` with every line after the first one moved to the right by `margin`. -/
def indented (margin text : String) : String :=
  String.join (text.toList.map fun c => if c == '\n' then "\n" ++ margin else c.toString)

/-- The text about a failure.  What lies behind it gets a line of its own, and then the
    lines are numbered. -/
def Setback.message (setback : Setback) : String :=
  "Error: " ++ setback.purpose.message ++ "\n\nCaused by:\n" ++
    match setback.failure.reason? with
    | none => "    " ++ indented "    " setback.failure.message ++ "\n"
    | some reason =>
      "    0: " ++ indented "       " setback.failure.message ++ "\n" ++
      "    1: " ++ indented "       " reason ++ "\n"

/-- The text about a misuse. -/
def Misuse.report (misuse : Misuse) : String :=
  "error: " ++ misuse.message ++ "\n\nFor more information, try '--help'.\n"

/-- The name and number of the program. -/
def versionText : String := "make_shard 0.1.0\n"

/-- The description of the program and its options. -/
def helpText : String := String.join [
  "Split the user, article and user_read dumps into two shards\n",
  "\n",
  "Usage: make-shard [OPTIONS] --source <SOURCE>\n",
  "\n",
  "Options:\n",
  "  -s, --source <SOURCE>    Directory holding user.sql, article.sql and user_read.sql; ",
  "shards are written next to them\n",
  "  -c, --config <CONFIG>    YAML file overriding the input file names\n",
  "      --summary <SUMMARY>  Write a JSON summary of the run to this path\n",
  "  -v, --verbose...         More logging (-v debug, -vv trace)\n",
  "  -q, --quiet              Only log warnings and errors\n",
  "  -h, --help               Print help\n",
  "  -V, --version            Print version\n"]

/-! ## The end -/

/-- How the program ends: its exit code and what it has printed. -/
structure Ending where
  code : Nat
  stdout : String := ""
  stderr : String := ""

/-- How the program ends without a run. -/
def Stop.ending : Stop → Ending
  | help => { code := 0, stdout := helpText }
  | version => { code := 0, stdout := versionText }
  | misuse wrong => { code := 2, stderr := wrong.report }

/-- How a run ends. -/
def Request.ending (request : Request) (outcome : Job.Outcome Setback Unit) : Ending :=
  let log := String.join
    ((outcome.events.filter request.verbosity.shows).map fun event => event.line ++ "\n")
  match outcome.result with
  | .ok () => { code := 0, stderr := log }
  | .error setback => { code := 1, stderr := log ++ setback.message }

/-- Runs the program on `disk`. -/
def execute (wording : Config.Wording) (disk : Disk) (arguments : List Path) : Disk × Ending :=
  match parse arguments with
  | .error stop => (disk, stop.ending)
  | .ok request =>
    let outcome := (request.job wording).run disk
    (outcome.disk, request.ending outcome)

end DumpSplit.CommandLine
