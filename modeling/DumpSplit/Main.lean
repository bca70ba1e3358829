/-
  The program on the files of the system.  It reads and writes what the job of its
  command line asks for, and prints the log as it goes.
-/
import DumpSplit.CommandLine.Program

namespace DumpSplit

/-- A cause by the number that the system has for it, or else in its words. -/
def Cause.ofCode (code : UInt32) (words : String) : Cause :=
  match code.toNat with
  | 2 => noEntry
  | 20 => notDirectory
  | 21 => isDirectory
  | 28 => noSpace
  | 36 => nameTooLong
  | number => system (words ++ " (os error " ++ toString number ++ ")")

/-- The cause behind an error of the system. -/
def Cause.ofError : IO.Error → Cause
  | .alreadyExists _ code words | .inappropriateType _ code words
  | .noFileOrDirectory _ code words | .interrupted _ code words
  | .invalidArgument _ code words | .permissionDenied _ code words
  | .resourceExhausted _ code words | .noSuchThing _ code words
  | .hardwareFault code words | .illegalOperation code words | .otherError code words
  | .protocolError code words | .resourceBusy code words | .resourceVanished code words
  | .timeExpired code words | .unsatisfiedConstraints code words
  | .unsupportedOperation code words => ofCode code words
  | .unexpectedEof => system "unexpected end of file"
  | .userError words => system words

/-- Does something with the name of a file, if the path is one: it must be text and hold
    no zero byte. -/
def withName {α : Type} (path : Path) (action : String → IO α) : IO (Except Cause α) := do
  if path.bytes.contains 0 then return .error .zeroByte
  match path.text? with
  | none => return .error .noEntry
  | some name =>
    try return .ok (← action name)
    catch error => return .error (.ofError error)

/-- Whether what has a name is a directory. -/
def isDirectory (name : String) : IO Bool := do (← IO.FS.realPath name).isDir

/-- What the file with a name holds. -/
def readFile (name : String) : IO ByteArray := do (← IO.FS.Handle.mk name .read).readBinToEnd

/-- Replaces what the file at `path` holds. -/
def writeFile (path : Path) (content : ByteArray) : IO (Except WriteFault Unit) := do
  match ← withName path fun name => IO.FS.Handle.mk name .write with
  | .error cause => return .error (.opening cause)
  | .ok file =>
    try
      file.write content
      file.flush
      return .ok ()
    catch error =>
      let taken ← withName path fun name => do (← IO.FS.realPath name).metadata
      let size := match taken with
        | .ok metadata => metadata.byteSize.toNat
        | .error _ => 0
      return .error (.filling size (.ofError error))

/-- The words for a file that is no configuration. -/
def wording : Config.Wording := fun _ => "no mapping of names of files"

/-- Does a job on the files of the system, and `log` with every event. -/
def Job.perform {ε α : Type} (log : Event → IO Unit) : Job ε α → IO (Except ε α)
  | done value => return .ok value
  | fail failure => return .error failure
  | report event next => do
    log event
    next.perform log
  | inspect path next => do (next (← withName path isDirectory)).perform log
  | read path next => do (next (← withName path readFile)).perform log
  | write path content next => do (next (← writeFile path content)).perform log

/-- Prints the events of a run that are shown. -/
def CommandLine.Request.log (request : CommandLine.Request) (event : Event) : IO Unit := do
  if request.verbosity.shows event then IO.eprintln event.line

end DumpSplit

open DumpSplit CommandLine in
/-- Runs the program on its arguments. -/
def main (arguments : List String) : IO UInt32 := do
  match parse (arguments.map .ofString) with
  | .error stop =>
    let ending := stop.ending
    IO.print ending.stdout
    IO.eprint ending.stderr
    return UInt32.ofNat ending.code
  | .ok request =>
    match ← (request.job wording).perform request.log with
    | .ok () => return 0
    | .error setback =>
      IO.eprint setback.message
      return 1
