/-
  Endings: a request loads its configuration, opens its directory, splits the dumps and keeps
  the summary.  It stops at the first of these that fails, and nothing after that is done.
-/
import DumpSplit.CommandLine.Program
import DumpSplit.Proofs.Cuts
import DumpSplit.Proofs.Sources

namespace DumpSplit

/-! ## Parts of a request -/

theorem Config.writesOnly_load (wording : Config.Wording) (path : Path) {paths : Set Path} :
    (Config.load wording path).WritesOnly paths := by
  refine .bind (Job.writesOnly_readText path) fun text => ?_
  split <;> trivial

theorem Summary.writesOnly_save (summary : Summary) {path : Path} {paths : Set Path}
    (h : path ∈ paths) : (summary.save path).WritesOnly paths := by
  refine ⟨h, fun answer => ?_⟩
  rcases answer with (cause | ⟨taken, cause⟩) | _
  · trivial
  · dsimp only; split_ifs <;> trivial
  · dsimp only; split_ifs <;> trivial

/-- A run that saves a summary writes all of it. -/
theorem Summary.run_save_eq_ok_iff {summary : Summary} {disk after : Disk} {path : Path}
    {events : List Event} :
    (summary.save path).run disk = { disk := after, events, result := .ok () } ↔
      (∀ told ∈ summary.paths, told.IsText) ∧
        disk.write path (summary.toJson.pretty 0).text.toUTF8 = (after, .ok ()) ∧ events = [] := by
  rw [← whole_pretty_toJson_iff]
  simp only [save, Job.run]
  rcases disk.write path (summary.toJson.pretty 0).text.toUTF8 with ⟨after', fault | _⟩
  · refine iff_of_false ?_ (by simp)
    rcases fault with cause | ⟨taken, cause⟩
    · simp [Job.run]
    · dsimp only; split_ifs <;> simp [Job.run]
  · dsimp only
    split_ifs with hwhole
    · simp [Job.run, hwhole, eq_comm]
    · simp [Job.run, hwhole]

/-- A summary can be saved at `path`: its paths are text, and the file opens and takes it. -/
def Summary.CanSave (summary : Summary) (disk : Disk) (path : Path) : Prop :=
  (∀ told ∈ summary.paths, told.IsText) ∧ ∃ place, disk.openFile path = .ok place ∧
    disk.Takes place (summary.toJson.pretty 0).text.toUTF8.size

theorem Summary.canSave_iff {summary : Summary} {disk : Disk} {path : Path} :
    summary.CanSave disk path ↔ ((summary.save path).run disk).result = .ok () := by
  constructor
  · rintro ⟨htext, place, hopen, htakes⟩
    have hwrite := Disk.write_eq_ok_iff.2 ⟨place, hopen, htakes, rfl⟩
    rw [run_save_eq_ok_iff.2 ⟨htext, hwrite, rfl⟩]
  · intro h
    rcases hrun : (summary.save path).run disk with ⟨after, events, result⟩
    rw [hrun] at h
    obtain rfl : result = .ok () := h
    obtain ⟨htext, hwrite, -⟩ := run_save_eq_ok_iff.1 hrun
    obtain ⟨place, hopen, htakes, -⟩ := Disk.write_eq_ok_iff.1 hwrite
    exact ⟨htext, place, hopen, htakes⟩

/-- What is saved of a summary is never empty. -/
theorem Summary.size_text_ne_zero (summary : Summary) :
    (summary.toJson.pretty 0).text.toUTF8.size ≠ 0 := by
  rw [String.toUTF8_eq_toByteArray, String.size_toByteArray, ne_eq, String.utf8ByteSize_eq_zero_iff]
  simp only [toJson, Json.pretty, Json.Written.append_assoc]
  rw [Json.Written.text_append rfl, ← String.toList_inj, String.toList_append]
  exact List.cons_ne_nil _ _

/-- The summary of what all stages have told. -/
def Summary.ofTold (told : Table → Told) : Summary :=
  .ofTables (Table.all.map fun table => (told table).result) (told .user).keys

theorem Disk.isDirectory_eq_ok_iff {disk : Disk} {path : Path} :
    disk.isDirectory path = .ok true ↔ disk.find path = .ok .directory := by
  simp only [isDirectory, bind, Except.bind]
  cases disk.find path <;> simp [pure, Except.pure]

theorem DumpSet.run_open?_of_directory {disk : Disk} {dir : Path}
    (h : disk.find dir = .ok .directory) (config : Config) :
    (DumpSet.open? dir config).run disk =
      { disk, events := [], result := .ok { dir, config } } := by
  rw [DumpSet.open?, Job.run, Disk.isDirectory_eq_ok_iff.2 h]
  rfl

theorem DumpSet.run_open?_of_no_directory {disk : Disk} {dir : Path}
    (h : disk.find dir ≠ .ok .directory) (config : Config) : ∃ failure,
    (DumpSet.open? dir config).run disk = { disk, events := [], result := .error failure } := by
  rw [DumpSet.open?, Job.run]
  rcases hdir : disk.isDirectory dir with cause | _ | _
  · exact ⟨_, rfl⟩
  · exact ⟨_, rfl⟩
  · exact absurd (Disk.isDirectory_eq_ok_iff.1 hdir) h

namespace CommandLine

variable {α : Type} {purpose : Purpose} {job : Job Failure α} {disk after : Disk}
  {events : List Event}

theorem run_toward_eq_ok {value : α}
    (h : job.run disk = { disk := after, events, result := .ok value }) :
    (toward purpose job).run disk = { disk := after, events, result := .ok value } := by
  rw [toward, Job.run_mapFailure, h]
  rfl

theorem run_toward_eq_error {failure : Failure}
    (h : job.run disk = { disk := after, events, result := .error failure }) :
    (toward purpose job).run disk =
      { disk := after, events, result := .error { purpose, failure } } := by
  rw [toward, Job.run_mapFailure, h]
  rfl

namespace Request

variable {wording : Config.Wording} {request : Request} {config : Config} {summary : Summary}

/-- The configuration that a request is to use is there on `disk`. -/
def Loads (request : Request) (wording : Config.Wording) (disk : Disk) (config : Config) : Prop :=
  match request.config? with
  | some path => ((Config.load wording path).run disk).result = .ok config
  | none => config = .default

/-- The directory of a request is there on `disk`. -/
def Opens (request : Request) (disk : Disk) : Prop := disk.find request.source = .ok .directory

/-- The dumps of a request. -/
def dumps (request : Request) (config : Config) : DumpSet := { dir := request.source, config }

/-- A summary can be saved on `disk` where that is asked for. -/
def Saves (request : Request) (disk : Disk) (summary : Summary) : Prop :=
  ∀ path, request.summary? = some path → summary.CanSave disk path

/-- The place of the summary, where one is asked for. -/
def summaryPlaces (request : Request) (disk : Disk) : Set Place :=
  {place | ∃ path, request.summary? = some path ∧ disk.resolve path = .ok place}

theorem run_config_disk (wording : Config.Wording) (request : Request) (disk : Disk) :
    ((request.config wording).run disk).disk = disk := by
  refine Job.WritesOnly.disk_eq ?_ disk
  unfold Request.config
  split
  · exact (Config.writesOnly_load _ _).mapFailure _
  · trivial

theorem loads_iff : request.Loads wording disk config ↔
    ((request.config wording).run disk).result = .ok config := by
  unfold Loads Request.config
  cases request.config? with
  | none => simp [pure, Job.run, eq_comm]
  | some path =>
    dsimp only
    rw [toward, Job.run_mapFailure]
    cases ((Config.load wording path).run disk).result <;> simp [Except.mapError]

theorem Loads.unique {config' : Config} (h : request.Loads wording disk config)
    (h' : request.Loads wording disk config') : config = config' :=
  Except.ok.inj ((loads_iff.1 h).symm.trans (loads_iff.1 h'))

theorem saves_iff : request.Saves disk summary ↔
    ((request.keepSummary summary).run disk).result = .ok () := by
  unfold Saves keepSummary
  cases request.summary? with
  | none => exact iff_of_true nofun rfl
  | some path =>
    simp only [Option.some.injEq, forall_eq', Summary.canSave_iff]
    rw [Job.run_bind, toward, Job.run_mapFailure]
    rcases (summary.save path).run disk with ⟨_, _, failure | _⟩
    · exact iff_of_false nofun nofun
    · exact iff_of_true rfl rfl

theorem keepSummary_sameButFiles (request : Request) (disk : Disk) (summary : Summary) :
    disk.SameButFiles (request.summaryPlaces disk)
      ((request.keepSummary summary).run disk).disk := by
  have hwrites : (request.keepSummary summary).WritesOnly
      {path | request.summary? = some path} := by
    unfold keepSummary
    split
    · rename_i path hpath
      exact .bind ((Summary.writesOnly_save summary hpath).mapFailure _) fun _ => trivial
    · trivial
  exact hwrites.sameButFiles disk

/-- A summary that was kept is the text at its path. -/
theorem read_keepSummary {path : Path} (hpath : request.summary? = some path)
    (hkept : ((request.keepSummary summary).run disk).result = .ok ())
    (hkeeps : disk.Keeps path) :
    ((request.keepSummary summary).run disk).disk.read path =
      .ok (summary.toJson.pretty 0).text.toUTF8 := by
  have hsaves := Summary.canSave_iff.1 (saves_iff.2 hkept path hpath)
  rcases hrun : (summary.save path).run disk with ⟨after, events, result⟩
  rw [hrun] at hsaves
  obtain rfl : result = .ok () := hsaves
  obtain ⟨-, hwrite, rfl⟩ := Summary.run_save_eq_ok_iff.1 hrun
  rw [keepSummary, hpath]
  dsimp only
  rw [Job.run_bind_of_ok (run_toward_eq_ok hrun)]
  exact Disk.read_write hwrite hkeeps summary.size_text_ne_zero

/-! ## Requests -/

/-- The ways in which a request can go on `disk`, with what each leaves and comes to. -/
inductive Goes (request : Request) (wording : Config.Wording) (disk : Disk) :
    Disk → Except Setback Unit → Prop
  | unloaded (setback : Setback) : (∀ config, ¬ request.Loads wording disk config) →
    request.Goes wording disk disk (.error setback)
  | unopened (setback : Setback) {config : Config} : request.Loads wording disk config →
    ¬ request.Opens disk → request.Goes wording disk disk (.error setback)
  | stopped (setback : Setback) {config : Config} {after : Disk} {events : List Event}
    {failure : Failure} : request.Loads wording disk config → request.Opens disk →
    (request.dumps config).splitAll.run disk =
      { disk := after, events, result := .error failure } →
    request.Goes wording disk after (.error setback)
  | finished {config : Config} {left : Disk} {events : List Event} {summary : Summary} :
    request.Loads wording disk config → request.Opens disk →
    (request.dumps config).splitAll.run disk =
      { disk := left, events, result := .ok summary } →
    request.Goes wording disk ((request.keepSummary summary).run left).disk
      ((request.keepSummary summary).run left).result

theorem run_job_goes (request : Request) (wording : Config.Wording) (disk : Disk) :
    request.Goes wording disk ((request.job wording).run disk).disk
      ((request.job wording).run disk).result := by
  have hconfig := request.run_config_disk wording disk
  rw [job]
  rcases hrun : (request.config wording).run disk with ⟨after, _, setback | config⟩
  · obtain rfl : after = disk := by rwa [hrun] at hconfig
    rw [Job.run_bind_of_error hrun]
    refine .unloaded setback fun config hloads => ?_
    cases (loads_iff.1 hloads).symm.trans (congrArg Job.Outcome.result hrun)
  obtain rfl : after = disk := by rwa [hrun] at hconfig
  have hloads : request.Loads wording after config :=
    loads_iff.2 (congrArg Job.Outcome.result hrun)
  rw [Job.run_bind_of_ok hrun]
  by_cases hopens : request.Opens after
  · have hopen : (DumpSet.open? request.source config).run after =
        { disk := after, events := [], result := .ok (request.dumps config) } :=
      DumpSet.run_open?_of_directory hopens config
    rw [Job.run_bind_of_ok (run_toward_eq_ok hopen)]
    rcases hsplit : (request.dumps config).splitAll.run after with ⟨left, _, failure | summary⟩
    · rw [Job.run_bind_of_error (run_toward_eq_error hsplit)]
      exact .stopped _ hloads hopens hsplit
    · rw [Job.run_bind_of_ok (run_toward_eq_ok hsplit), Job.run_bind_of_ok (Job.run_tellAll _ _)]
      exact .finished hloads hopens hsplit
  · obtain ⟨failure, hopen⟩ := DumpSet.run_open?_of_no_directory hopens config
    rw [Job.run_bind_of_error (run_toward_eq_error hopen)]
    exact .unopened _ hloads hopens

/-! ## What a request does -/

/-- A request comes to the end of its stages: its configuration and its directory are there,
    and all stages succeed and leave `left`. -/
structure Splits (request : Request) (wording : Config.Wording) (disk : Disk) (config : Config)
    (told : Table → Told) (left : Disk) : Prop where
  loads : request.Loads wording disk config
  opens : request.Opens disk
  runs : (request.dumps config).Runs told {} disk Table.all left

/-- A request comes to its stages, and one of them fails. -/
structure Stops (request : Request) (wording : Config.Wording) (disk : Disk) (config : Config) :
    Prop where
  loads : request.Loads wording disk config
  opens : request.Opens disk
  fails : ∀ told left, ¬ (request.dumps config).Runs told {} disk Table.all left

/-- What a request does to `disk`, of which it leaves `after`, and the code with which it ends. -/
structure Effects (request : Request) (wording : Config.Wording) (disk after : Disk) (code : Nat) :
    Prop where
  succeeds : code = 0 ↔ ∃ config told left,
    request.Splits wording disk config told left ∧ request.Saves left (.ofTold told)
  refused : (∀ config, ¬ request.Loads wording disk config) ∨ ¬ request.Opens disk → after = disk
  stopped : ∀ config, request.Stops wording disk config →
    after = ((request.dumps config).splitAll.run disk).disk
  unsummarized : ∀ config path, request.Stops wording disk config →
    request.summary? = some path →
    (∀ table, ∀ place ∈ (request.dumps config).outputPlaces table disk,
      disk.resolve path ≠ .ok place) →
    ∀ node, after.find path = .ok node ↔ disk.find path = .ok node
  finished : ∀ config told left, request.Splits wording disk config told left →
    left = ((request.dumps config).splitAll.run disk).disk ∧
      left.SameButFiles (request.summaryPlaces left) after
  saved : code = 0 → ∀ config told left path, request.Splits wording disk config told left →
    request.summary? = some path → disk.Keeps path →
    after.read path = .ok ((Summary.ofTold told).toJson.pretty 0).text.toUTF8

theorem Splits.run_splitAll {told : Table → Told} {left : Disk}
    (h : request.Splits wording disk config told left) : ∃ events,
    (request.dumps config).splitAll.run disk =
      { disk := left, events, result := .ok (.ofTold told) } :=
  ⟨_, DumpSet.run_splitAll_eq_ok_iff.2 ⟨told, h.runs, rfl, rfl⟩⟩

theorem Splits.eq_of_run {config' : Config} {told : Table → Told} {left left' : Disk}
    (h : request.Splits wording disk config' told left) (hloads : request.Loads wording disk config)
    (hrun : (request.dumps config).splitAll.run disk =
      { disk := left', events, result := .ok summary }) :
    left = left' ∧ .ofTold told = summary := by
  obtain rfl := h.loads.unique hloads
  obtain ⟨_, hrun'⟩ := h.run_splitAll
  obtain ⟨hleft, -, hsummary⟩ := Job.Outcome.mk.inj (hrun'.symm.trans hrun)
  exact ⟨hleft, Except.ok.inj hsummary⟩

section
variable {code : Nat}

/-- A request that never comes to the end of its stages does not end with the code 0, and keeps
    no summary. -/
theorem effects_of_not_splits (hcode : code ≠ 0)
    (hnever : ∀ config told left, ¬ request.Splits wording disk config told left)
    (hrefused : (∀ config, ¬ request.Loads wording disk config) ∨ ¬ request.Opens disk →
      after = disk)
    (hstopped : ∀ config, request.Stops wording disk config →
      after = ((request.dumps config).splitAll.run disk).disk) :
    request.Effects wording disk after code where
  succeeds := iff_of_false hcode fun ⟨config, told, left, hsplits, _⟩ =>
    hnever config told left hsplits
  refused := hrefused
  stopped := hstopped
  unsummarized config path hstops _ hapart node := by
    have hsame := ((request.dumps config).splitAll_sameButFiles disk).sameOutside
    rw [← hstopped config hstops] at hsame
    exact hsame.find_eq_ok_iff fun place hplace ⟨table, hmem⟩ => hapart table place hmem hplace
  finished config told left hsplits := absurd hsplits (hnever config told left)
  saved hzero := absurd hzero hcode

theorem effects_of_unloaded (hcode : code ≠ 0)
    (hnone : ∀ config, ¬ request.Loads wording disk config) :
    request.Effects wording disk disk code :=
  effects_of_not_splits hcode (fun config _ _ hsplits => hnone config hsplits.loads)
    (fun _ => rfl) fun config hstops => absurd hstops.loads (hnone config)

theorem effects_of_unopened (hcode : code ≠ 0) (hclosed : ¬ request.Opens disk) :
    request.Effects wording disk disk code :=
  effects_of_not_splits hcode (fun _ _ _ hsplits => hclosed hsplits.opens) (fun _ => rfl)
    fun _ hstops => absurd hstops.opens hclosed

theorem effects_of_stopped {failure : Failure} (hcode : code ≠ 0)
    (hloads : request.Loads wording disk config) (hopens : request.Opens disk)
    (hrun : (request.dumps config).splitAll.run disk =
      { disk := after, events, result := .error failure }) :
    request.Effects wording disk after code := by
  refine effects_of_not_splits hcode ?_ ?_ ?_
  · rintro config' told left hsplits
    obtain rfl := hsplits.loads.unique hloads
    obtain ⟨_, hrun'⟩ := hsplits.run_splitAll
    cases hrun.symm.trans hrun'
  · rintro (hnone | hclosed)
    · exact absurd hloads (hnone config)
    · exact absurd hopens hclosed
  · rintro config' hstops
    obtain rfl := hstops.loads.unique hloads
    rw [hrun]

/-- After the stages only the summary is left to be kept, and that decides the code. -/
theorem effects_of_finished {left : Disk} (hloads : request.Loads wording disk config)
    (hopens : request.Opens disk)
    (hrun : (request.dumps config).splitAll.run disk =
      { disk := left, events, result := .ok summary })
    (hcode : code = 0 ↔ ((request.keepSummary summary).run left).result = .ok ()) :
    request.Effects wording disk ((request.keepSummary summary).run left).disk code := by
  obtain ⟨told, hruns, -, hsummary⟩ := DumpSet.run_splitAll_eq_ok_iff.1 hrun
  change summary = .ofTold told at hsummary
  have hnever : ∀ config', ¬ request.Stops wording disk config' := by
    rintro config' hstops
    obtain rfl := hstops.loads.unique hloads
    exact hstops.fails told left hruns
  exact
    { succeeds := by
        rw [hcode, ← saves_iff]
        constructor
        · exact fun hsaves => ⟨config, told, left, ⟨hloads, hopens, hruns⟩, hsummary ▸ hsaves⟩
        · rintro ⟨config', told', left', hsplits, hsaves⟩
          obtain ⟨rfl, rfl⟩ := hsplits.eq_of_run hloads hrun
          exact hsaves
      refused := fun h => h.elim (absurd hloads <| · config) (absurd hopens)
      stopped := fun config' hstops => absurd hstops (hnever config')
      unsummarized := fun config' _ hstops => absurd hstops (hnever config')
      finished := by
        intro config' told' left' hsplits
        obtain ⟨rfl, -⟩ := hsplits.eq_of_run hloads hrun
        obtain rfl := hsplits.loads.unique hloads
        exact ⟨by rw [hrun], request.keepSummary_sameButFiles _ summary⟩
      saved := by
        intro hzero config' told' left' path hsplits hpath hkeeps
        obtain ⟨rfl, rfl⟩ := hsplits.eq_of_run hloads hrun
        have hsame := (request.dumps config).splitAll_sameButFiles disk
        rw [hrun] at hsame
        exact read_keepSummary hpath (hcode.1 hzero) (hsame.keeps_iff.2 hkeeps) }

theorem Goes.effects {result : Except Setback Unit} (h : request.Goes wording disk after result)
    (hcode : code = 0 ↔ result = .ok ()) : request.Effects wording disk after code := by
  cases h with
  | unloaded setback hnone => exact effects_of_unloaded (hcode.not.2 nofun) hnone
  | unopened setback hloads hclosed => exact effects_of_unopened (hcode.not.2 nofun) hclosed
  | stopped setback hloads hopens hrun =>
    exact effects_of_stopped (hcode.not.2 nofun) hloads hopens hrun
  | finished hloads hopens hrun => exact effects_of_finished hloads hopens hrun hcode

end

theorem ending_code_eq_zero_iff (request : Request) (outcome : Job.Outcome Setback Unit) :
    (request.ending outcome).code = 0 ↔ outcome.result = .ok () := by
  unfold ending
  rcases outcome.result with setback | _
  · exact iff_of_false nofun nofun
  · exact iff_of_true rfl rfl

end Request

/-- **What the program does** to a disk is told by `Effects`, for all arguments that ask for a
    run. -/
theorem execute_effects (wording : Config.Wording) (disk : Disk) (arguments : List Path)
    (request : Request) (h : parse arguments = .ok request) :
    request.Effects wording disk (execute wording disk arguments).1
      (execute wording disk arguments).2.code := by
  rw [execute, h]
  exact (request.run_job_goes wording disk).effects (request.ending_code_eq_zero_iff _)

/-- The dumps are split, and the summary of what was told is kept; but not where a directory is. -/
theorem execute_effects_summary :
    let disk := ((Disk.fresh.arrange (.ofString "user.sql")
      (some "INSERT INTO u\n, , u, , , , , , , , \"Beijing\", ;\n".toUTF8)).arrange
      (.ofString "article.sql") (some "INSERT INTO a\n, , a, , , ;".toUTF8)).arrange
      (.ofString "user_read.sql") (some "INSERT INTO r\n, , u, , ;".toUTF8)
    let wording : Config.Wording := fun _ => "no mapping"
    let kept := ["-s", ".", "--summary", "s.json"].map Path.ofString
    let lost := ["-s", ".", "--summary", ".."].map Path.ofString
    (∃ request, parse kept = .ok request ∧
      request.Effects wording disk (execute wording disk kept).1
        (execute wording disk kept).2.code ∧
      (execute wording disk kept).2.code = 0 ∧
      ∃ told : Table → Told, (execute wording disk kept).1.read (.ofString "s.json") =
        .ok ((Summary.ofTold told).toJson.pretty 0).text.toUTF8) ∧
    ∃ request, parse lost = .ok request ∧
      request.Effects wording disk (execute wording disk lost).1
        (execute wording disk lost).2.code ∧
      (execute wording disk lost).2.code = 1 := by
  intro disk wording kept lost
  constructor
  · have hsummary : (parse kept).toOption.map (·.summary?) = some (some (.ofString "s.json")) := by
      decide +kernel
    have hkeeps : disk.Keeps (.ofString "s.json") := by decide +kernel
    have hcode : (execute wording disk kept).2.code = 0 := by decide +kernel
    rcases hparse : parse kept with stop | request
    · rw [hparse] at hsummary
      cases hsummary
    · rw [hparse] at hsummary
      have heffects := execute_effects wording disk kept request hparse
      obtain ⟨config, told, left, hsplits, -⟩ := heffects.succeeds.1 hcode
      exact ⟨request, rfl, heffects, hcode, told,
        heffects.saved hcode config told left _ hsplits (Option.some.inj hsummary) hkeeps⟩
  · have hrequest : (parse lost).isOk := by decide +kernel
    rcases hparse : parse lost with stop | request
    · rw [hparse] at hrequest
      cases hrequest
    · exact ⟨request, rfl, execute_effects wording disk lost request hparse, by decide +kernel⟩

end CommandLine

end DumpSplit
