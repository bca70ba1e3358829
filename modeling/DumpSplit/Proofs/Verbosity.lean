/-
  Verbosity: the flags for less and for more of the log change what is shown of it, and
  nothing else.  In front of a command line they are read first, and the steps of reading
  what follows go as they would without them.
-/
import DumpSplit.CommandLine.Program
import DumpSplit.Disk.Arrange
import Mathlib.Tactic.SplitIfs

namespace DumpSplit.CommandLine

/-! ## Flags in front of a command line -/

namespace Reading

/-- Neither less nor more of the log has been asked for. -/
def IsPlain (r : Reading) : Prop := .quiet ∉ r.flags ∧ .verbose ∉ r.flags

/-- The reading, had the flags `before` come first. -/
def behind (r : Reading) (before : List Switch) : Reading := { r with flags := r.flags ++ before }

/-- A step of reading that goes as it would without the flags `before`, unless it reads one of
    that kind. -/
def Carries (before : List Switch) (step : Reading → Except Stop Reading) : Prop :=
  ∀ r r', step r = .ok r' → r'.IsPlain →
    r.IsPlain ∧ step (r.behind before) = .ok (r'.behind before)

variable {before : List Switch}

theorem carries_pure : Carries before pure := by
  intro r r' h hplain
  cases h
  exact ⟨hplain, rfl⟩

theorem carries_throw (stop : Stop) : Carries before fun _ => throw stop := nofun

theorem Carries.bind {first second : Reading → Except Stop Reading} (hfirst : Carries before first)
    (hsecond : Carries before second) : Carries before fun r => first r >>= second := by
  intro r r' h hplain
  dsimp only at h ⊢
  rcases hstep : first r with stop | between
  · rw [hstep] at h
    cases h
  · rw [hstep] at h
    obtain ⟨hbetween, hrest⟩ := hsecond between r' h hplain
    obtain ⟨hstart, hnext⟩ := hfirst r between hstep hbetween
    refine ⟨hstart, ?_⟩
    rw [hnext]
    exact hrest

theorem carries_setValue (switch : Switch) (value : Path) :
    Carries before (·.setValue switch value) := by
  intro r r' h hplain
  simp only [setValue] at h
  split_ifs at h with hgiven hempty
  cases h
  refine ⟨hplain, ?_⟩
  simp only [setValue, behind, if_neg hgiven, if_neg hempty]
  rfl

theorem carries_settle : Carries before settle := by
  rintro ⟨values, flags, _ | ⟨switch, _ | value⟩⟩ r' h hplain
  · cases h; exact ⟨hplain, rfl⟩
  · cases h
  · exact carries_setValue switch value _ r' h hplain

theorem carries_giveValue (switch : Switch) (value : Path) :
    Carries before (·.giveValue switch value) :=
  carries_settle.bind (carries_setValue switch value)

theorem carries_await (switch : Switch) : Carries before (·.await switch) := by
  refine carries_settle.bind fun r r' h hplain => ?_
  cases h
  exact ⟨hplain, rfl⟩

theorem carries_readWord (word : Path) : Carries before (·.readWord word) := by
  rintro ⟨values, flags, _ | ⟨switch, _ | value⟩⟩ r' h hplain
  · cases h
  · cases h; exact ⟨hplain, rfl⟩
  · cases h

/-- A flag takes effect when the option that waits has done so. -/
def addFlag (r : Reading) (switch : Switch) : Except Stop Reading :=
  match switch with
  | .help => throw .help
  | .version => throw .version
  | _ => do
    if switch ≠ .verbose && r.flags.contains switch then throw (.misuse (.repeated switch))
    return { r with flags := switch :: r.flags }

theorem addFlag_eq_ok_iff {r r' : Reading} {switch : Switch} :
    r.addFlag switch = .ok r' ↔ switch ≠ .help ∧ switch ≠ .version ∧
      (switch ∈ r.flags → switch = .verbose) ∧ r' = { r with flags := switch :: r.flags } := by
  by_cases hmem : switch ∈ r.flags <;> cases switch <;>
    simp [addFlag, hmem, throw, throwThe, MonadExceptOf.throw, pure, Except.pure, bind,
      Except.bind, eq_comm]

theorem carries_setFlag (hbefore : ∀ switch ∈ before, switch = .quiet ∨ switch = .verbose)
    (switch : Switch) : Carries before (·.setFlag switch) := by
  refine carries_settle.bind (?_ : Carries before (·.addFlag switch))
  rintro r r' h ⟨hquiet, hverbose⟩
  obtain ⟨hhelp, hversion, hrepeated, rfl⟩ := addFlag_eq_ok_iff.1 h
  have hnot : switch ∉ before := by
    intro hmem
    rcases hbefore switch hmem with rfl | rfl
    · exact hquiet List.mem_cons_self
    · exact hverbose List.mem_cons_self
  refine ⟨⟨fun hmem => hquiet (.tail _ hmem), fun hmem => hverbose (.tail _ hmem)⟩, ?_⟩
  refine addFlag_eq_ok_iff.2 ⟨hhelp, hversion, fun hmem => hrepeated ?_, rfl⟩
  exact (List.mem_append.1 hmem).resolve_right hnot

variable (hbefore : ∀ switch ∈ before, switch = .quiet ∨ switch = .verbose)
include hbefore

theorem carries_readLong (name : List UInt8) (value? : Option Path) :
    Carries before (·.readLong name value?) := by
  unfold readLong
  rcases Switch.all.find? _ with _ | switch
  · exact carries_throw _
  dsimp only
  cases switch.takesValue <;> cases value?
  · exact carries_setFlag hbefore switch
  · exact carries_throw _
  · exact carries_await switch
  · exact carries_giveValue switch _

theorem carries_readLetters (beyond : List UInt8) (letters : List Char) :
    Carries before (·.readLetters beyond letters) := by
  induction letters with
  | nil =>
    unfold readLetters
    split_ifs
    · exact carries_pure
    · exact carries_throw _
  | cons letter letters ih =>
    unfold readLetters
    rcases Switch.all.find? _ with _ | switch
    · exact carries_throw _
    dsimp only
    split_ifs
    · exact carries_await switch
    · exact carries_giveValue switch _
    · exact carries_giveValue switch _
    · exact (carries_setFlag hbefore switch).bind ih

theorem carries_readArgument (argument : Path) : Carries before (·.readArgument argument) := by
  unfold readArgument
  split
  · split_ifs
    · exact carries_readWord argument
    · split
      · exact carries_readLong hbefore _ none
      · exact carries_readLong hbefore _ (some _)
    · exact carries_readLetters hbefore _ _
  · exact carries_readWord argument

/-- Reading goes on as it would without flags in front. -/
theorem carries_readArguments (arguments : List Path) :
    Carries before (·.readArguments arguments) := by
  induction arguments with
  | nil => exact carries_settle
  | cons argument rest ih =>
    unfold readArguments
    split_ifs
    · cases rest with
      | nil => exact carries_settle
      | cons word _ => exact carries_throw _
    · exact (carries_readArgument hbefore argument).bind ih

theorem readArguments_behind {r r' : Reading} {arguments : List Path}
    (h : r.readArguments arguments = .ok r') (hplain : r'.IsPlain) :
    (r.behind before).readArguments arguments = .ok (r'.behind before) :=
  (carries_readArguments hbefore arguments r r' h hplain).2

omit hbefore

theorem complete_eq_ok_iff {r : Reading} {req : Request} :
    request.complete r = .ok req ↔ r.values.lookup .source = some req.source ∧
      req.config? = r.values.lookup .config ∧ req.summary? = r.values.lookup .summary ∧
      req.verbosity =
        if .quiet ∈ r.flags then .quiet else .verbose (r.flags.count .verbose) := by
  obtain ⟨source, config?, summary?, verbosity⟩ := req
  unfold request.complete
  cases r.values.lookup .source <;>
    simp [throw, throwThe, MonadExceptOf.throw, pure, Except.pure, eq_comm]

theorem request_eq_ok_iff {r : Reading} {req : Request} :
    r.request = .ok req ↔
      ¬ (.quiet ∈ r.flags ∧ .verbose ∈ r.flags) ∧ request.complete r = .ok req := by
  unfold request
  rcases hflags : r.flags with _ | ⟨last, rest⟩
  · simp
  · dsimp only
    split_ifs <;> simp_all

theorem isPlain_iff {r : Reading} : r.IsPlain ↔
    (if .quiet ∈ r.flags then .quiet else .verbose (r.flags.count .verbose)) =
      Verbosity.verbose 0 := by
  unfold IsPlain
  split_ifs with hquiet
  · simp [hquiet]
  · simp [hquiet, List.count_eq_zero]

/-- A flag alone is read by its letter. -/
theorem readArgument_eq_setFlag {argument : Path} {switch : Switch} (byte : UInt8) (letter : Char)
    (hbytes : argument.bytes = [dash, byte]) (hbyte : byte ≠ dash)
    (hletter : textUpTo [byte] 1 = ([letter], []))
    (hfind : Switch.all.find? (·.short? == some letter) = some switch)
    (htakes : switch.takesValue = false) (r : Reading) :
    r.readArgument argument = r.setFlag switch := by
  unfold readArgument
  rw [hbytes]
  dsimp only [List.length_nil]
  rw [if_neg (fun h => h rfl), if_neg hbyte, hletter]
  dsimp only
  rw [readLetters, hfind]
  dsimp only
  rw [htakes, if_neg Bool.false_ne_true]
  cases r.setFlag switch <;> rfl

end Reading

/-- The argument of the flag for less of the log. -/
def quietFlag : Path := .ofString "-q"

/-- The argument of the flag for more of the log. -/
def verboseFlag : Path := .ofString "-v"

namespace Reading

theorem readArgument_quietFlag (r : Reading) : r.readArgument quietFlag = r.setFlag .quiet := by
  refine readArgument_eq_setFlag 0x71 'q' ?_ ?_ ?_ ?_ ?_ r
  iterate 5 decide +kernel

theorem readArgument_verboseFlag (r : Reading) :
    r.readArgument verboseFlag = r.setFlag .verbose := by
  refine readArgument_eq_setFlag 0x76 'v' ?_ ?_ ?_ ?_ ?_ r
  iterate 5 decide +kernel

theorem readArguments_cons {argument : Path} (h : argument.bytes ≠ [dash, dash]) (r : Reading)
    (rest : List Path) : r.readArguments (argument :: rest) =
      r.readArgument argument >>= (·.readArguments rest) := by
  rw [readArguments.eq_def]
  exact if_neg h

theorem readArguments_quietFlag (arguments : List Path) :
    readArguments {} (quietFlag :: arguments) =
      readArguments (behind {} [.quiet]) arguments := by
  rw [readArguments_cons (by decide +kernel), readArgument_quietFlag]
  rfl

theorem readArguments_verboseFlag (arguments : List Path) (n times : Nat) :
    readArguments (behind {} (List.replicate times .verbose))
        (List.replicate n verboseFlag ++ arguments) =
      readArguments (behind {} (List.replicate (n + times) .verbose)) arguments := by
  induction n generalizing times with
  | zero => rw [Nat.zero_add]; rfl
  | succ n ih =>
    rw [List.replicate_succ, List.cons_append, readArguments_cons (by decide +kernel),
      readArgument_verboseFlag, Nat.succ_add_eq_add_succ, ← ih]
    rfl

end Reading

variable {arguments : List Path} {request : Request}

/-- What is asked for by a command line without flags, with the verbosity of those in front. -/
theorem request_behind (h : parse arguments = .ok request) (hplain : request.verbosity = .verbose 0)
    {before : List Switch} (hbefore : ∀ switch ∈ before, switch = .quiet ∨ switch = .verbose)
    (hboth : ¬ (.quiet ∈ before ∧ .verbose ∈ before)) :
    (do (← Reading.readArguments (Reading.behind {} before) arguments).request) = Except.ok
      { request with
        verbosity := if .quiet ∈ before then .quiet else .verbose (before.count .verbose) } := by
  rw [parse] at h
  rcases hread : Reading.readArguments {} arguments with stop | r
  · rw [hread] at h
    cases h
  rw [hread] at h
  obtain ⟨hflags, hcomplete⟩ := Reading.request_eq_ok_iff.1 h
  obtain ⟨hsource, hconfig, hsummary, hverbosity⟩ := Reading.complete_eq_ok_iff.1 hcomplete
  have hr : r.IsPlain := Reading.isPlain_iff.2 (hverbosity.symm.trans hplain)
  rw [Reading.readArguments_behind hbefore hread hr]
  refine Reading.request_eq_ok_iff.2 ⟨?_, Reading.complete_eq_ok_iff.2
    ⟨hsource, hconfig, hsummary, ?_⟩⟩
  · simpa [Reading.behind, hr.1, hr.2] using hboth
  · simp [Reading.behind, hr.1, List.count_eq_zero_of_not_mem hr.2]

theorem parse_quietFlag (h : parse arguments = .ok request)
    (hplain : request.verbosity = .verbose 0) :
    parse (quietFlag :: arguments) = .ok { request with verbosity := .quiet } := by
  rw [parse, Reading.readArguments_quietFlag]
  exact request_behind h hplain (by simp) (by simp)

theorem parse_verboseFlag (h : parse arguments = .ok request)
    (hplain : request.verbosity = .verbose 0) (n : Nat) :
    parse (List.replicate n verboseFlag ++ arguments) =
      .ok { request with verbosity := .verbose n } := by
  have hflags : ∀ switch ∈ List.replicate n Switch.verbose, switch = .verbose :=
    fun _ => List.eq_of_mem_replicate
  have hquiet : .quiet ∉ List.replicate n Switch.verbose := fun hmem => nomatch hflags _ hmem
  have hrequest := request_behind h hplain (fun switch hmem => .inr (hflags switch hmem))
    fun hboth => hquiet hboth.1
  rw [if_neg hquiet, List.count_replicate_self] at hrequest
  rw [← hrequest]
  exact congrArg (· >>= Reading.request) (Reading.readArguments_verboseFlag arguments n 0)

/-! ## What is shown -/

/-- The lines of the log for events. -/
def logText (events : List Event) : String :=
  String.join (events.map fun event => event.line ++ "\n")

/-- The text with which a run ends. -/
def errorText : Except Setback Unit → String
  | .ok () => ""
  | .error setback => setback.message

theorem Request.stderr_ending (request : Request) (outcome : Job.Outcome Setback Unit) :
    (request.ending outcome).stderr =
      logText (outcome.events.filter request.verbosity.shows) ++ errorText outcome.result := by
  unfold ending
  rcases outcome.result with setback | _
  · rfl
  · exact (String.append_empty).symm

/-- Verbosity has a say in nothing but what is shown of the log. -/
theorem Request.ending_verbosity (request : Request) (verbosity : Verbosity)
    (outcome : Job.Outcome Setback Unit) :
    { request with verbosity }.ending outcome =
      { request.ending outcome with
        stderr :=
          logText (outcome.events.filter verbosity.shows) ++ errorText outcome.result } := by
  rw [← stderr_ending { request with verbosity }]
  unfold ending
  rcases outcome.result with setback | _ <;> rfl

theorem Request.job_verbosity (wording : Config.Wording) (request : Request)
    (verbosity : Verbosity) : { request with verbosity }.job wording = request.job wording := rfl

namespace Verbosity

theorem filter_shows_plain (events : List Event) :
    events.filter (verbose 0).shows = events.filter (·.level ≠ .debug) := by
  refine List.filter_congr fun event _ => ?_
  cases hlevel : event.level <;> simp [shows, hlevel] <;> decide

theorem filter_shows_verbose (events : List Event) (n : Nat) :
    events.filter (verbose (n + 1)).shows = events :=
  List.filter_eq_self.2 fun _ _ => rfl

theorem filter_shows_quiet (events : List Event) :
    events.filter quiet.shows = (events.filter (·.level ≠ .debug)).filter (·.level ≠ .info) := by
  rw [List.filter_filter]
  refine List.filter_congr fun event _ => ?_
  cases hlevel : event.level <;> simp [shows, hlevel] <;> decide

end Verbosity

/-- A run reports `events` and ends with the text `error`; without flags for it, those below
    `info` are not shown.  Flags in front show more of the events or less, and change nothing
    else of how the program ends, and nothing on the disk that it leaves. -/
structure FiltersLog (wording : Config.Wording) (disk : Disk) (arguments : List Path)
    (events : List Event) (error : String) : Prop where
  plain : (execute wording disk arguments).2.stderr =
    logText (events.filter (·.level ≠ .debug)) ++ error
  verbose : ∀ n, execute wording disk (List.replicate (n + 1) verboseFlag ++ arguments) =
    ((execute wording disk arguments).1,
      { (execute wording disk arguments).2 with stderr := logText events ++ error })
  quiet : execute wording disk (quietFlag :: arguments) =
    ((execute wording disk arguments).1,
      { (execute wording disk arguments).2 with
        stderr := logText ((events.filter (·.level ≠ .debug)).filter (·.level ≠ .info)) ++ error })

theorem execute_of_parse (wording : Config.Wording) (disk : Disk) {verbosity : Verbosity}
    {arguments' : List Path} (h : parse arguments = .ok request)
    (h' : parse arguments' = .ok { request with verbosity }) :
    execute wording disk arguments' =
      ((execute wording disk arguments).1,
        { (execute wording disk arguments).2 with
          stderr := logText (((request.job wording).run disk).events.filter verbosity.shows) ++
            errorText ((request.job wording).run disk).result }) := by
  rw [execute, h', execute, h]
  dsimp only
  rw [request.job_verbosity, request.ending_verbosity]

/-- **Verbosity only filters the log** of a run. -/
theorem execute_filtersLog (wording : Config.Wording) (disk : Disk) (arguments : List Path)
    (request : Request) (h : parse arguments = .ok request) (hplain : request.verbosity = .verbose 0) :
    FiltersLog wording disk arguments ((request.job wording).run disk).events
      (errorText ((request.job wording).run disk).result) where
  plain := by
    rw [execute, h, ← Verbosity.filter_shows_plain, ← hplain]
    exact request.stderr_ending _
  verbose n := by
    rw [execute_of_parse wording disk h (parse_verboseFlag h hplain (n + 1)),
      Verbosity.filter_shows_verbose]
  quiet := by
    rw [execute_of_parse wording disk h (parse_quietFlag h hplain), Verbosity.filter_shows_quiet]

/-- A run that splits the users and fails for want of articles. -/
theorem execute_filtersLog_users :
    let disk := Disk.fresh.arrange (.ofString "user.sql")
      (some "INSERT INTO u\n, , u, , , , , , , , \"Beijing\", ;\n".toUTF8)
    let arguments := ["--source", "."].map Path.ofString
    let wording : Config.Wording := fun _ => "no mapping"
    ∃ request, parse arguments = .ok request ∧ request.verbosity = .verbose 0 ∧
      FiltersLog wording disk arguments ((request.job wording).run disk).events
        (errorText ((request.job wording).run disk).result) := by
  intro disk arguments wording
  have hverbosity : (parse arguments).toOption.map (·.verbosity) = some (.verbose 0) := by
    decide +kernel
  rcases hparse : parse arguments with stop | request
  · rw [hparse] at hverbosity
    cases hverbosity
  · rw [hparse] at hverbosity
    have hplain := Option.some.inj hverbosity
    exact ⟨request, rfl, hplain, execute_filtersLog wording disk arguments request hparse hplain⟩

end DumpSplit.CommandLine
