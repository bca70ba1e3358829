/-
  Jobs: programs that work on files, report events and may fail.

  A job is the tree of what it does next, so it can be run on a disk held in memory
  as well as on the files of the system.  `run` is the first of these: it tells the
  disk after the job, the events in order, and the result.  By `run_andThen` jobs in
  a row run one after the other.
-/
import DumpSplit.Disk.Files
import DumpSplit.Event
import DumpSplit.Failure
import DumpSplit.Text.Lines

namespace DumpSplit

/-- A program that ends with a value or a failure. -/
inductive Job (ε α : Type) where
  | done (value : α)
  | fail (failure : ε)
  | report (event : Event) (next : Job ε α)
  /-- asks whether a path leads to a directory -/
  | inspect (path : Path) (next : Except Cause Bool → Job ε α)
  | read (path : Path) (next : Except Cause ByteArray → Job ε α)
  | write (path : Path) (content : ByteArray) (next : Except WriteFault Unit → Job ε α)

namespace Job

variable {ε ε' α β : Type}

/-- Goes on with `f` where a job ends with a value. -/
def andThen (f : α → Job ε β) : Job ε α → Job ε β
  | done value => f value
  | fail failure => fail failure
  | report event next => report event (next.andThen f)
  | inspect path next => inspect path fun answer => (next answer).andThen f
  | read path next => read path fun answer => (next answer).andThen f
  | write path content next => write path content fun answer => (next answer).andThen f

instance : Monad (Job ε) where
  pure := done
  bind job f := job.andThen f

/-- The job with every failure `e` told as `f e`. -/
def mapFailure (f : ε → ε') : Job ε α → Job ε' α
  | done value => done value
  | fail failure => fail (f failure)
  | report event next => report event (next.mapFailure f)
  | inspect path next => inspect path fun answer => (next answer).mapFailure f
  | read path next => read path fun answer => (next answer).mapFailure f
  | write path content next => write path content fun answer => (next answer).mapFailure f

/-- Ends with a value or a failure that is known. -/
def ofExcept : Except ε α → Job ε α
  | .ok value => done value
  | .error failure => fail failure

/-- Reports an event. -/
def tell (event : Event) : Job ε Unit := report event (done ())

/-- Reports events in order. -/
def tellAll (events : List Event) : Job ε Unit := events.foldr report (done ())

/-! ## Running a job on a disk -/

/-- What comes of a job. -/
structure Outcome (ε α : Type) where
  disk : Disk
  events : List Event
  result : Except ε α

/-- What comes of going on where an outcome has a value, on the disk that it leaves. -/
def Outcome.andThen (next : Disk → α → Outcome ε β) : Outcome ε α → Outcome ε β
  | { disk, events, result := .error failure } => { disk, events, result := .error failure }
  | { disk, events, result := .ok value } =>
    let outcome := next disk value
    { outcome with events := events ++ outcome.events }

/-- Runs a job on `disk`. -/
def run (disk : Disk) : Job ε α → Outcome ε α
  | done value => { disk, events := [], result := .ok value }
  | fail failure => { disk, events := [], result := .error failure }
  | report event next =>
    let outcome := next.run disk
    { outcome with events := event :: outcome.events }
  | inspect path next => (next (disk.isDirectory path)).run disk
  | read path next => (next (disk.read path)).run disk
  | write path content next =>
    let (disk, answer) := disk.write path content
    (next answer).run disk

/-- A job that goes on with another does what the first one does, and then, if that
    ended with a value, what the second one does. -/
theorem run_andThen (f : α → Job ε β) (job : Job ε α) (disk : Disk) :
    (job.andThen f).run disk = (job.run disk).andThen fun disk value => (f value).run disk := by
  induction job generalizing disk with
  | done | fail => rfl
  | report event next ih =>
    simp only [andThen, run, ih]
    match next.run disk with
    | { result := .error _, .. } | { result := .ok _, .. } => rfl
  | inspect path next ih | read path next ih | write path content next ih =>
    simp only [andThen, run, ih]

theorem run_ofExcept (answer : Except ε α) (disk : Disk) :
    (ofExcept answer).run disk = { disk, events := [], result := answer } := by
  cases answer <;> rfl

theorem run_tellAll (events : List Event) (disk : Disk) :
    (tellAll events : Job ε Unit).run disk = { disk, events, result := .ok () } := by
  induction events with
  | nil => rfl
  | cons event events ih => simp only [tellAll, List.foldr_cons, run] at *; rw [ih]

/-! ## Files -/

/-- The text of the file at `path`. -/
def readText (path : Path) : Job Failure String :=
  read path fun
    | .error cause => fail (.io path cause)
    | .ok content =>
      match String.fromUTF8? content with
      | some text => done text
      | none => fail (.io path .notText)

/-- The lines of the file at `path`. -/
def readLines (path : Path) : Job Failure (List String) := return Text.lines (← readText path)

/-- Makes the file at `path` consist of `lines`, one directly after the other. -/
def writeLines (path : Path) (lines : List String) : Job Failure Unit :=
  write path (String.join lines).toUTF8 fun
    | .ok () => done ()
    | .error fault => fail (.io path fault.cause)

end Job

end DumpSplit
