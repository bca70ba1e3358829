/-
  What comes of jobs that are put together: a job that ends with a value has done so in
  every part, and a job changes nothing but what its parts write to.
-/
import DumpSplit.Job
import DumpSplit.Proofs.Disks
import DumpSplit.Proofs.Lines

namespace DumpSplit

namespace Job

variable {ε ε' α β : Type} {disk after : Disk} {events : List Event}

/-! ## Runs of jobs in a row -/

theorem run_bind (job : Job ε α) (f : α → Job ε β) (disk : Disk) :
    (job >>= f).run disk = (job.run disk).andThen fun disk value => (f value).run disk :=
  run_andThen f job disk

theorem bind_assoc {γ : Type} (job : Job ε α) (f : α → Job ε β) (g : β → Job ε γ) :
    job >>= f >>= g = job >>= fun value => f value >>= g := by
  change (job.andThen f).andThen g = job.andThen fun value => (f value).andThen g
  induction job with
  | done | fail => rfl
  | report event next ih => rw [andThen, andThen, ih]; rfl
  | inspect path next ih | read path next ih | write path content next ih =>
    simp only [andThen, ih]

theorem run_bind_of_ok {job : Job ε α} {f : α → Job ε β} {a : α}
    (h : job.run disk = { disk := after, events, result := .ok a }) :
    (job >>= f).run disk =
      { (f a).run after with events := events ++ ((f a).run after).events } := by
  rw [run_bind, h]; rfl

theorem run_bind_of_error {job : Job ε α} {f : α → Job ε β} {failure : ε}
    (h : job.run disk = { disk := after, events, result := .error failure }) :
    (job >>= f).run disk = { disk := after, events, result := .error failure } := by
  rw [run_bind, h]; rfl

theorem run_bind_eq_ok_iff {job : Job ε α} {f : α → Job ε β} {value : β} :
    (job >>= f).run disk = { disk := after, events, result := .ok value } ↔
      ∃ between told a told', job.run disk = { disk := between, events := told, result := .ok a } ∧
        (f a).run between = { disk := after, events := told', result := .ok value } ∧
        events = told ++ told' := by
  rw [run_bind]
  rcases job.run disk with ⟨between, told, failure | a⟩
  · simp [Outcome.andThen]
  · simp only [Outcome.andThen, Outcome.mk.injEq]
    constructor
    · rintro ⟨rfl, rfl, hvalue⟩
      exact ⟨between, told, a, _, ⟨rfl, rfl, rfl⟩, by rw [← hvalue], rfl⟩
    · rintro ⟨_, _, _, _, ⟨rfl, rfl, h⟩, hrun, rfl⟩
      cases h
      simp [hrun]

/-- A job that goes on with another one fails in one of the two. -/
theorem run_bind_eq_error_iff {job : Job ε α} {f : α → Job ε β} {failure : ε} :
    (job >>= f).run disk = { disk := after, events, result := .error failure } ↔
      job.run disk = { disk := after, events, result := .error failure } ∨
      ∃ between told a told', job.run disk = { disk := between, events := told, result := .ok a } ∧
        (f a).run between = { disk := after, events := told', result := .error failure } ∧
        events = told ++ told' := by
  rw [run_bind]
  rcases job.run disk with ⟨between, told, failure | a⟩
  · simp [Outcome.andThen]
  · simp only [Outcome.andThen, Outcome.mk.injEq]
    constructor
    · rintro ⟨rfl, rfl, hvalue⟩
      exact .inr ⟨between, told, a, _, ⟨rfl, rfl, rfl⟩, by rw [← hvalue], rfl⟩
    · rintro (⟨-, -, h⟩ | ⟨_, _, _, _, ⟨rfl, rfl, h⟩, hrun, rfl⟩)
      · cases h
      · cases h
        simp [hrun]

theorem events_bind (job : Job ε α) (f : α → Job ε β) (disk : Disk) :
    ((job >>= f).run disk).events = (job.run disk).events ++
      match (job.run disk).result with
      | .error _ => []
      | .ok value => ((f value).run (job.run disk).disk).events := by
  rw [run_bind]
  rcases job.run disk with ⟨after, events, failure | value⟩
  · exact (List.append_nil _).symm
  · rfl

theorem run_mapFailure (f : ε → ε') (job : Job ε α) (disk : Disk) :
    (job.mapFailure f).run disk =
      { disk := (job.run disk).disk, events := (job.run disk).events,
        result := (job.run disk).result.mapError f } := by
  induction job generalizing disk with
  | done | fail => rfl
  | report event next ih => rw [mapFailure, run, ih]; rfl
  | inspect path next ih | read path next ih | write path content next ih => exact ih _ _

theorem run_pure_eq_ok_iff {a value : α} :
    (pure a : Job ε α).run disk = { disk := after, events, result := .ok value } ↔
      after = disk ∧ events = [] ∧ value = a := by
  change Outcome.mk disk [] (.ok a) = _ ↔ _
  simp only [Outcome.mk.injEq, Except.ok.injEq, eq_comm]

theorem run_tell_eq_ok_iff {event : Event} {u : Unit} :
    (tell event : Job ε Unit).run disk = { disk := after, events, result := .ok u } ↔
      after = disk ∧ events = [event] := by
  change Outcome.mk disk [event] (.ok ()) = _ ↔ _
  simp only [Outcome.mk.injEq, eq_comm, and_true]

theorem exists_run_eq_ok {job : Job ε α} (h : (job.run disk).result.isOk) :
    ∃ after events value, job.run disk = { disk := after, events, result := .ok value } := by
  rcases hrun : job.run disk with ⟨after, events, failure | value⟩
  · rw [hrun] at h; cases h
  · exact ⟨after, events, value, rfl⟩

theorem exists_run_eq_error {job : Job ε α} (h : (job.run disk).result.isOk = false) :
    ∃ after events failure,
      job.run disk = { disk := after, events, result := .error failure } := by
  rcases hrun : job.run disk with ⟨after, events, failure | value⟩
  · exact ⟨after, events, failure, rfl⟩
  · rw [hrun] at h; cases h

end Job

/-! ## Lines of files -/

theorem fromUTF8?_eq_some_iff {content : ByteArray} {text : String} :
    String.fromUTF8? content = some text ↔ content = text.toUTF8 := by
  unfold String.fromUTF8?
  split_ifs with h
  · rw [Option.some.injEq]
    constructor
    · rintro rfl; rfl
    · rintro rfl; rfl
  · simp only [false_iff]
    rintro rfl
    exact h text.isValidUTF8

namespace Job

variable {disk after : Disk} {events : List Event} {path : Path} {lines : List String}

theorem run_readText_eq_ok_iff {text : String} :
    (readText path).run disk = { disk := after, events, result := .ok text } ↔
      after = disk ∧ events = [] ∧ disk.read path = .ok text.toUTF8 := by
  simp only [readText, run]
  cases disk.read path with
  | error cause => simp [run]
  | ok content =>
    cases htext : String.fromUTF8? content with
    | none =>
      have : content ≠ text.toUTF8 := fun h => by simp [fromUTF8?_eq_some_iff.2 h] at htext
      simpa [htext, run] using fun _ _ => this
    | some text' =>
      simp only [htext, run]
      rw [fromUTF8?_eq_some_iff] at htext
      simp [htext, eq_comm, String.toByteArray_inj]

theorem run_readLines_eq_ok_iff :
    (readLines path).run disk = { disk := after, events, result := .ok lines } ↔
      after = disk ∧ events = [] ∧ Text.AreLines lines ∧
        disk.read path = .ok (String.join lines).toUTF8 := by
  simp only [readLines, run_bind_eq_ok_iff, run_pure_eq_ok_iff, run_readText_eq_ok_iff]
  constructor
  · rintro ⟨_, _, text, _, ⟨rfl, rfl, htext⟩, ⟨rfl, rfl, rfl⟩, rfl⟩
    exact ⟨rfl, rfl, Text.areLines_lines text, by rw [htext, Text.join_lines]⟩
  · rintro ⟨rfl, rfl, hlines, htext⟩
    exact ⟨_, _, _, _, ⟨rfl, rfl, htext⟩, ⟨rfl, rfl, (Text.lines_join_iff.2 hlines).symm⟩, rfl⟩

theorem events_readLines (path : Path) (disk : Disk) :
    ((readLines path).run disk).events = [] := by
  rw [readLines, readText, events_bind, run]
  rcases disk.read path with cause | content
  · rfl
  · rcases htext : String.fromUTF8? content with _ | text
    · simp [htext, run]
    · simp [htext, run, pure]

theorem run_writeLines_eq_ok_iff {u : Unit} :
    (writeLines path lines).run disk = { disk := after, events, result := .ok u } ↔
      disk.write path (String.join lines).toUTF8 = (after, .ok ()) ∧ events = [] := by
  simp only [writeLines, run]
  rcases disk.write path (String.join lines).toUTF8 with ⟨after', fault | u⟩ <;>
    simp [run, eq_comm]

end Job

namespace Disk

/-- Reading the file at `path` gives `lines`. -/
def HoldsLines (disk : Disk) (path : Path) (lines : List String) : Prop :=
  ((Job.readLines path).run disk).result = .ok lines

instance (disk : Disk) (path : Path) (lines : List String) :
    Decidable (disk.HoldsLines path lines) :=
  decidable_of_iff (((Job.readLines path).run disk).result.toOption = some lines) <| by
    unfold HoldsLines; cases ((Job.readLines path).run disk).result <;> simp [Except.toOption]

variable {disk after : Disk} {path : Path} {lines : List String}

theorem holdsLines_iff : disk.HoldsLines path lines ↔
    Text.AreLines lines ∧ disk.read path = .ok (String.join lines).toUTF8 := by
  have hrun : disk.HoldsLines path lines ↔ ∃ after events, (Job.readLines path).run disk =
      { disk := after, events, result := .ok lines } := by
    constructor
    · intro h; exact ⟨_, _, by rw [← h]⟩
    · rintro ⟨after, events, h⟩; rw [HoldsLines, h]
  simp only [hrun, Job.run_readLines_eq_ok_iff]
  simp

theorem HoldsLines.areLines (h : disk.HoldsLines path lines) : Text.AreLines lines :=
  (holdsLines_iff.1 h).1

/-- Lines that were written are read again. -/
theorem holdsLines_write (h : disk.write path (String.join lines).toUTF8 = (after, .ok ()))
    (hkeeps : disk.Keeps path) (hlines : Text.AreLines lines) (hnil : lines ≠ []) :
    after.HoldsLines path lines := by
  have hsize : (String.join lines).toUTF8.size ≠ 0 := fun hsize => by
    rw [String.toUTF8_eq_toByteArray, String.size_toByteArray,
      String.utf8ByteSize_eq_zero_iff] at hsize
    exact hnil (by rw [← Text.lines_join_iff.2 hlines, hsize]; rfl)
  exact holdsLines_iff.2 ⟨hlines, read_write h hkeeps hsize⟩

/-- Lines of a file outside the places where two disks differ. -/
theorem SameOutside.holdsLines_iff {places : Set Place} (h : SameOutside places disk after)
    (hplace : ∀ place, disk.resolve path = .ok place → place ∉ places) :
    after.HoldsLines path lines ↔ disk.HoldsLines path lines := by
  simp only [Disk.holdsLines_iff, h.read_eq_ok_iff hplace]

theorem run_readLines_eq_ok_iff_holdsLines {events : List Event} :
    (Job.readLines path).run disk = { disk := after, events, result := .ok lines } ↔
      after = disk ∧ events = [] ∧ disk.HoldsLines path lines := by
  rw [Job.run_readLines_eq_ok_iff, holdsLines_iff]

end Disk

/-! ## What a job changes -/

namespace Job

variable {ε ε' α β : Type} {paths : Set Path}

/-- A job that writes to `paths` only, whatever it is told. -/
def WritesOnly (paths : Set Path) : Job ε α → Prop
  | done _ | fail _ => True
  | report _ next => next.WritesOnly paths
  | inspect _ next => ∀ answer, (next answer).WritesOnly paths
  | read _ next => ∀ answer, (next answer).WritesOnly paths
  | write path _ next => path ∈ paths ∧ ∀ answer, (next answer).WritesOnly paths

theorem WritesOnly.bind {job : Job ε α} {f : α → Job ε β} (h : job.WritesOnly paths)
    (hf : ∀ value, (f value).WritesOnly paths) : (job >>= f).WritesOnly paths := by
  change (job.andThen f).WritesOnly paths
  induction job with
  | done value => exact hf value
  | fail => trivial
  | report event next ih => exact ih h
  | inspect path next ih | read path next ih => exact fun answer => ih answer (h answer)
  | write path content next ih => exact ⟨h.1, fun answer => ih answer (h.2 answer)⟩

theorem WritesOnly.mono {paths' : Set Path} {job : Job ε α} (h : job.WritesOnly paths)
    (hsub : ∀ path ∈ paths, path ∈ paths') : job.WritesOnly paths' := by
  induction job with
  | done | fail => trivial
  | report event next ih => exact ih h
  | inspect path next ih | read path next ih => exact fun answer => ih answer (h answer)
  | write path content next ih => exact ⟨hsub path h.1, fun answer => ih answer (h.2 answer)⟩

theorem WritesOnly.mapFailure {job : Job ε α} (h : job.WritesOnly paths) (f : ε → ε') :
    (job.mapFailure f).WritesOnly paths := by
  induction job with
  | done | fail => trivial
  | report event next ih => exact ih h
  | inspect path next ih | read path next ih => exact fun answer => ih answer (h answer)
  | write path content next ih => exact ⟨h.1, fun answer => ih answer (h.2 answer)⟩

theorem writesOnly_tell (event : Event) : (tell event : Job ε Unit).WritesOnly paths := trivial

theorem writesOnly_tellAll (events : List Event) :
    (tellAll events : Job ε Unit).WritesOnly paths := by
  induction events with
  | nil => trivial
  | cons event events ih => exact ih

theorem writesOnly_ofExcept (answer : Except ε α) : (ofExcept answer).WritesOnly paths := by
  cases answer <;> trivial

theorem writesOnly_readText (path : Path) : (readText path).WritesOnly paths := by
  rintro (cause | content)
  · trivial
  · dsimp only; split <;> trivial

theorem writesOnly_readLines (path : Path) : (readLines path).WritesOnly paths :=
  .bind (writesOnly_readText path) fun _ => trivial

theorem writesOnly_writeLines {path : Path} (h : path ∈ paths) (lines : List String) :
    (writeLines path lines).WritesOnly paths :=
  ⟨h, fun answer => by cases answer <;> trivial⟩

/-- A job changes files at the places of its paths at most, also when it fails. -/
theorem WritesOnly.sameButFiles {job : Job ε α} (h : job.WritesOnly paths) (disk : Disk) :
    disk.SameButFiles {place | ∃ path ∈ paths, disk.resolve path = .ok place}
      (job.run disk).disk := by
  induction job generalizing disk with
  | done | fail => exact .refl _ _
  | report event next ih => exact ih h disk
  | inspect path next ih | read path next ih => exact ih _ (h _) disk
  | write path content next ih =>
    have hwrite := disk.write_sameButFiles path content
    have hnext := ih (disk.write path content).2 (h.2 _) (disk.write path content).1
    simp only [hwrite.sameOutside.resolve_eq_ok_iff] at hnext
    refine Disk.SameButFiles.trans (hwrite.mono ?_) hnext
    exact fun place hplace => ⟨path, h.1, hplace⟩

/-- A job that writes nowhere leaves the disk as it is. -/
theorem WritesOnly.disk_eq {job : Job ε α} (h : job.WritesOnly ∅) (disk : Disk) :
    (job.run disk).disk = disk :=
  ((h.sameButFiles disk).mono fun _ ⟨_, hmem, _⟩ => hmem).eq_of_empty

/-! ## Where a run writes -/

/-- The paths to which the run of a job on `disk` writes, in order. -/
def written (disk : Disk) : Job ε α → List Path
  | done _ | fail _ => []
  | report _ next => next.written disk
  | inspect path next => (next (disk.isDirectory path)).written disk
  | read path next => (next (disk.read path)).written disk
  | write path content next =>
    let (after, answer) := disk.write path content
    path :: (next answer).written after

theorem written_bind_of_ok {job : Job ε α} {f : α → Job ε β} {after : Disk}
    {events : List Event} {a : α}
    (h : job.run disk = { disk := after, events, result := .ok a }) :
    (job >>= f).written disk = job.written disk ++ (f a).written after := by
  change (job.andThen f).written disk = _
  induction job generalizing disk events with
  | done value => cases h; rfl
  | fail failure => cases h
  | report event next ih =>
    rcases hnext : next.run disk with ⟨after', events', result⟩
    rw [run, hnext] at h
    cases h
    exact ih hnext
  | inspect path next ih | read path next ih => exact ih _ h
  | write path content next ih =>
    exact congrArg (path :: ·) (@ih _ (disk.write path content).1 _ h)

theorem WritesOnly.mem_of_mem_written {job : Job ε α} (h : job.WritesOnly paths) {disk : Disk}
    {path : Path} (hmem : path ∈ job.written disk) : path ∈ paths := by
  induction job generalizing disk with
  | done | fail => cases hmem
  | report event next ih => exact ih h hmem
  | inspect path next ih | read path next ih => exact ih _ (h _) hmem
  | write path content next ih =>
    rcases List.mem_cons.1 hmem with rfl | hmem
    · exact h.1
    · exact ih _ (h.2 _) hmem

end Job

end DumpSplit
