/-
  Stages that fail.  A failure that lies in the dump comes before anything is written, and
  one of writing has changed at most the two files of the table: the one that was not written
  may be left with a part of its lines.  A run that fails has done whole stages before the one
  that failed.
-/
import DumpSplit.Disk.Arrange
import DumpSplit.Proofs.Refusals

namespace DumpSplit

/-- A failure for what is in the file at `source`: it cannot be read, it is flawed, or one of
    its records is refused. -/
def Failure.LiesIn (source : Path) : Failure → Prop
  | io path _ | malformed path _ => path = source
  | unrecognizedRegion position .. | unassignedKey position .. => position.source = source
  | config .. | json _ => False

/-! ## Jobs that fail -/

namespace Job

variable {ε α β : Type} {p : ε → Prop} {disk after : Disk} {events : List Event}

/-- A job of which every failure has the property `p`, whatever it is told. -/
def FailsOnly (p : ε → Prop) : Job ε α → Prop
  | done _ => True
  | fail failure => p failure
  | report _ next => next.FailsOnly p
  | inspect _ next => ∀ answer, (next answer).FailsOnly p
  | read _ next => ∀ answer, (next answer).FailsOnly p
  | write _ _ next => ∀ answer, (next answer).FailsOnly p

theorem FailsOnly.bind {job : Job ε α} {f : α → Job ε β} (h : job.FailsOnly p)
    (hf : ∀ value, (f value).FailsOnly p) : (job >>= f).FailsOnly p := by
  change (job.andThen f).FailsOnly p
  induction job with
  | done value => exact hf value
  | fail failure => exact h
  | report event next ih => exact ih h
  | inspect path next ih | read path next ih | write path content next ih =>
    exact fun answer => ih answer (h answer)

theorem FailsOnly.of_run {job : Job ε α} (h : job.FailsOnly p) {failure : ε}
    (hrun : (job.run disk).result = .error failure) : p failure := by
  induction job generalizing disk with
  | done value => cases hrun
  | fail failure' => cases hrun; exact h
  | report event next ih => exact ih h hrun
  | inspect path next ih | read path next ih | write path content next ih =>
    exact ih _ (h _) hrun

theorem failsOnly_tellAll (events : List Event) : (tellAll events : Job ε Unit).FailsOnly p := by
  induction events with
  | nil => trivial
  | cons event events ih => exact ih

theorem failsOnly_readLines (path : Path) :
    (readLines path).FailsOnly (Failure.LiesIn path) := by
  refine .bind (fun answer => ?_) fun text => trivial
  rcases answer with cause | content
  · rfl
  · dsimp only; split <;> trivial

theorem run_writeLines_eq_error {path : Path} {lines : List String} {failure : Failure}
    (h : (writeLines path lines).run disk = { disk := after, events, result := .error failure }) :
    ∃ fault, disk.write path (String.join lines).toUTF8 = (after, .error fault) ∧
      failure = .io path fault.cause ∧ events = [] := by
  simp only [writeLines, run] at h
  rcases hwrite : disk.write path (String.join lines).toUTF8 with ⟨after', fault | _⟩
  · rw [hwrite] at h
    cases h
    exact ⟨fault, rfl, rfl, rfl⟩
  · rw [hwrite] at h
    cases h

end Job

/-! ## Rules that refuse records -/

/-- What is told of a record lies in its file. -/
theorem Failure.TellsOf.liesIn {record : Record} {position : Position} {failure : Failure}
    (h : failure.TellsOf record position) : failure.LiesIn position.source := by
  cases failure with
  | malformed source flaw => exact h.1
  | unrecognizedRegion place uid region | unassignedKey place uid =>
    exact congrArg Position.source h.1
  | io path cause | config path words | json fault => exact h.elim

namespace Rule

variable {rule : Rule} {source : Path} {failure : Failure}

/-- A rule of which every refusal lies in the file of the record. -/
def BlamesSource (rule : Rule) : Prop :=
  ∀ record position failure, rule.route record position = .error failure →
    failure.LiesIn position.source

theorem TellsOfRecords.blamesSource (hrule : rule.TellsOfRecords) : rule.BlamesSource :=
  fun record position failure h => (hrule record position failure h).liesIn

theorem split_eq_error (hrule : rule.BlamesSource) {dump : Dump}
    (h : rule.split dump source = .error failure) : failure.LiesIn source := by
  obtain ⟨record, -, hrefused⟩ := List.exists_of_findSome?_eq_some (split_eq_error_iff.1 h)
  rcases refusalAt?_cases hrefused with hroute | hkey
  · exact hrule _ _ _ hroute
  · exact (Record.field_tellsOf hkey).liesIn

end Rule

theorem Table.rule_blamesSource (users : KeySets) (table : Table) :
    (table.rule users).BlamesSource :=
  (table.rule_tellsOfRecords users).blamesSource

/-! ## Stages that fail -/

variable {disk after : Disk} {events : List Event} {table : Table} {rule : Rule}
  {split : Split} {failure : Failure}

theorem Split.run_write_eq_error {shard : Shard} {path : Path}
    (h : (split.write table shard path).run disk =
      { disk := after, events, result := .error failure }) :
    ∃ fault, disk.write path (String.join (split.lines shard)).toUTF8 = (after, .error fault) ∧
      failure = .io path fault.cause ∧ events = [] := by
  rcases Job.run_bind_eq_error_iff.1 h with hwrite | ⟨_, _, _, _, -, htell, -⟩
  · exact Job.run_writeLines_eq_error hwrite
  · split_ifs at htell <;> cases htell

namespace DumpSet

variable {dumps : DumpSet}

theorem findSplit_failsOnly (hrule : rule.BlamesSource) :
    (dumps.findSplit table rule).FailsOnly (Failure.LiesIn (dumps.source table)) := by
  refine .bind trivial fun _ => .bind (Job.failsOnly_readLines _) fun lines => ?_
  refine .bind ?_ fun dump => .bind (Job.failsOnly_tellAll _) fun _ => ?_
  · unfold Dump.find
    split
    · rfl
    · trivial
  · cases hsplit : rule.split dump (dumps.source table) with
    | ok split => trivial
    | error failure => exact Rule.split_eq_error hrule hsplit

/-- Writing fails at one of the files, the one of the first shard if that is not complete. -/
theorem run_writeSplit_eq_error
    (h : (dumps.writeSplit table split).run disk =
      { disk := after, events, result := .error failure }) :
    (∃ fault, failure = .io (dumps.output table .one) fault.cause ∧
      disk.write (dumps.output table .one) (String.join (split.lines .one)).toUTF8 =
        (after, .error fault) ∧ events = []) ∨
    ∃ between fault, failure = .io (dumps.output table .two) fault.cause ∧
      disk.write (dumps.output table .one) (String.join (split.lines .one)).toUTF8 =
        (between, .ok ()) ∧
      between.write (dumps.output table .two) (String.join (split.lines .two)).toUTF8 =
        (after, .error fault) ∧
      events = if split.count .one = 0 then [.shardEmpty table .one] else [] := by
  rcases Job.run_bind_eq_error_iff.1 h with hone | ⟨between, _, _, _, hone, hrest, rfl⟩
  · obtain ⟨fault, hwrite, hfailure, rfl⟩ := Split.run_write_eq_error hone
    exact .inl ⟨fault, hfailure, hwrite, rfl⟩
  obtain ⟨hwrite, rfl⟩ := Split.run_write_eq_ok_iff.1 hone
  rcases Job.run_bind_eq_error_iff.1 hrest with htwo | ⟨_, _, _, _, -, htold, -⟩
  · obtain ⟨fault, hwrite', hfailure, rfl⟩ := Split.run_write_eq_error htwo
    exact .inr ⟨between, fault, hfailure, hwrite, hwrite', List.append_nil _⟩
  · rcases Job.run_bind_eq_error_iff.1 htold with htell | ⟨_, _, _, _, -, hdone, -⟩
    · cases htell
    · cases hdone

/-- What a stage that fails leaves behind: all is as it was if the failure lies in its dump,
    and otherwise one of its files could not be written.  That file may be left with the first
    bytes of its lines; the one of the first shard is complete if it is the other's. -/
structure FailsCleanly (dumps : DumpSet) (table : Table) (rule : Rule) (disk after : Disk)
    (failure : Failure) : Prop where
  cause : failure.LiesIn (dumps.source table) ∨
    ∃ shard cause, failure = .io (dumps.output table shard) cause
  kept : failure.LiesIn (dumps.source table) → after = disk
  outside : disk.SameButFiles (dumps.outputPlaces table disk) after
  begun : ∀ cause, failure = .io (dumps.output table .one) cause →
    ∃ dump split, disk.HoldsDump (dumps.source table) dump ∧
      rule.split dump (dumps.source table) = .ok split ∧
      disk.LeavesPart (dumps.output table .one) (String.join (split.lines .one)).toUTF8 after
  complete : ∀ cause, failure = .io (dumps.output table .two) cause →
    ∃ dump split between, disk.HoldsDump (dumps.source table) dump ∧
      rule.split dump (dumps.source table) = .ok split ∧
      disk.write (dumps.output table .one) (String.join (split.lines .one)).toUTF8 =
        (between, .ok ()) ∧
      between.LeavesPart (dumps.output table .two) (String.join (split.lines .two)).toUTF8 after ∧
      (disk.Keeps (dumps.output table .one) →
        after.HoldsLines (dumps.output table .one) (split.lines .one))

/-- The file of a shard is not the one in which a failure lies. -/
theorem not_liesIn_of_output {shard : Shard} {cause : Cause}
    (h : failure = .io (dumps.output table shard) cause) :
    ¬ failure.LiesIn (dumps.source table) := by
  rintro hlies
  rw [h] at hlies
  exact shard.path_ne _ _ hlies

theorem splitTable_failsCleanly (hrule : rule.BlamesSource)
    (h : (dumps.splitTable table rule).run disk =
      { disk := after, events, result := .error failure }) :
    dumps.FailsCleanly table rule disk after failure := by
  have houtside := dumps.splitTable_sameButFiles table rule disk
  rw [h] at houtside
  rw [splitTable_eq_bind] at h
  rcases Job.run_bind_eq_error_iff.1 h with hfind | ⟨_, _, split, _, hfind, hwrite, -⟩
  · have hlies : failure.LiesIn (dumps.source table) :=
      (findSplit_failsOnly hrule).of_run (by rw [hfind])
    have hkept := (dumps.findSplit_writesOnly table rule).disk_eq disk
    rw [hfind] at hkept
    exact
      { cause := .inl hlies
        kept := fun _ => hkept
        outside := houtside
        begun := fun cause hcause => absurd hlies (not_liesIn_of_output hcause)
        complete := fun cause hcause => absurd hlies (not_liesIn_of_output hcause) }
  obtain ⟨rfl, dump, hdump, hsplit, -⟩ := run_findSplit_eq_ok_iff.1 hfind
  -- the paths of two shards differ, so that the failure tells which of the writes failed
  have hapart : ∀ {shard shard' cause cause'},
      failure = .io (dumps.output table shard) cause →
      failure = .io (dumps.output table shard') cause' → shard = shard' := fun hcause hcause' =>
    (Shard.path_inj rfl (Failure.io.inj (hcause.symm.trans hcause')).1).2
  rcases run_writeSplit_eq_error hwrite with
    ⟨fault, hcause, hone, -⟩ | ⟨between, fault, hcause, hone, htwo, -⟩
  · exact
      { cause := .inr ⟨_, _, hcause⟩
        kept := fun hlies => absurd hlies (not_liesIn_of_output hcause)
        outside := houtside
        begun := fun _ _ => ⟨dump, split, hdump, hsplit, Disk.leavesPart_of_write_eq_error hone⟩
        complete := fun _ hcause' => nomatch hapart hcause hcause' }
  · exact
      { cause := .inr ⟨_, _, hcause⟩
        kept := fun hlies => absurd hlies (not_liesIn_of_output hcause)
        outside := houtside
        begun := fun _ hcause' => nomatch hapart hcause hcause'
        complete := fun _ _ => ⟨dump, split, between, hdump, hsplit, hone,
          Disk.leavesPart_of_write_eq_error htwo, holdsLines_first hdump hsplit hone htwo⟩ }

/-! ## Runs that fail -/

variable {users keys : KeySets} {before : Disk}

theorem stage_failsCleanly
    (h : (dumps.stage users table).run disk =
      { disk := after, events, result := .error failure }) :
    dumps.FailsCleanly table (table.rule users) disk after failure := by
  rw [stage_eq] at h
  exact splitTable_failsCleanly (table.rule_blamesSource users) h

/-- The stage of `table` succeeds on `disk`: it leaves `after` and gives `keys`, and it has
    split its table. -/
structure Completes (dumps : DumpSet) (table : Table) (users : KeySets) (disk after : Disk)
    (keys : KeySets) : Prop where
  run : ∃ events result, (dumps.stage users table).run disk =
    { disk := after, events, result := .ok (result, keys) }
  hasSplit : ∃ dump split, dumps.HasSplit table (table.rule users) disk after dump split ∧
    keys = split.keys

theorem completes_of_run (table : Table) (users : KeySets) {result : TableResult}
    (h : (dumps.stage users table).run disk =
      { disk := after, events, result := .ok (result, keys) }) :
    dumps.Completes table users disk after keys := by
  refine ⟨⟨_, _, h⟩, ?_⟩
  rw [stage_eq] at h
  obtain ⟨dump, split, hsplit, hkeys, -⟩ := splitTable_hasSplit h
  exact ⟨dump, split, hsplit, hkeys⟩

/-- A run on `disk` comes to the stage of `table`, with the disk `before` and the keys `users`:
    the stages before that one have succeeded, each on the disk that the last one left. -/
inductive Begins (dumps : DumpSet) (disk : Disk) : Table → KeySets → Disk → Prop
  | user : dumps.Begins disk .user {} disk
  | article {disk₁ : Disk} {users : KeySets} :
    dumps.Completes .user {} disk disk₁ users → dumps.Begins disk .article users disk₁
  | userRead {disk₁ disk₂ : Disk} {users keys : KeySets} :
    dumps.Begins disk .article users disk₁ → dumps.Completes .article users disk₁ disk₂ keys →
      dumps.Begins disk .userRead users disk₂

/-- A run fails where it comes to a stage that fails, with what that stage leaves. -/
theorem run_splitAll_eq_error_iff :
    (∃ events, dumps.splitAll.run disk = { disk := after, events, result := .error failure }) ↔
      ∃ table users before told, dumps.Begins disk table users before ∧
        (dumps.stage users table).run before =
          { disk := after, events := told, result := .error failure } := by
  unfold splitAll
  constructor
  · rintro ⟨events, h⟩
    rcases Job.run_bind_eq_error_iff.1 h with husers | ⟨disk₁, _, ⟨_, keys⟩, _, husers, h, -⟩
    · exact ⟨.user, {}, disk, _, .user, husers⟩
    have harticle : dumps.Begins disk .article keys disk₁ :=
      .article (completes_of_run .user {} husers)
    rcases Job.run_bind_eq_error_iff.1 h with harticles | ⟨disk₂, _, ⟨_, _⟩, _, harticles, h, -⟩
    · exact ⟨.article, keys, disk₁, _, harticle, harticles⟩
    have hreads : dumps.Begins disk .userRead keys disk₂ :=
      .userRead harticle (completes_of_run .article keys harticles)
    rcases Job.run_bind_eq_error_iff.1 h with hfails | ⟨_, _, ⟨_, _⟩, _, -, h, -⟩
    · exact ⟨.userRead, keys, disk₂, _, hreads, hfails⟩
    · cases h
  · rintro ⟨table, users, before, told, hbegins, hfails⟩
    cases hbegins with
    | user => exact ⟨_, Job.run_bind_eq_error_iff.2 (.inl hfails)⟩
    | article husers =>
      obtain ⟨_, _, husers⟩ := husers.run
      exact ⟨_, Job.run_bind_eq_error_iff.2 (.inr ⟨_, _, _, _, husers,
        Job.run_bind_eq_error_iff.2 (.inl hfails), rfl⟩)⟩
    | userRead harticle harticles =>
      obtain ⟨_, _, harticles⟩ := harticles.run
      cases harticle with
      | article husers =>
        obtain ⟨_, _, husers⟩ := husers.run
        exact ⟨_, Job.run_bind_eq_error_iff.2 (.inr ⟨_, _, _, _, husers,
          Job.run_bind_eq_error_iff.2 (.inr ⟨_, _, _, _, harticles,
            Job.run_bind_eq_error_iff.2 (.inl hfails), rfl⟩), rfl⟩)⟩

/-- **Failures are clean.**  What a stage leaves behind that fails is told by `FailsCleanly`.
    A run that fails has done the stages before the one that failed, and left what that
    one leaves on the disk of the others, with its failure. -/
theorem stage_splitAll_failCleanly (dumps : DumpSet) :
    (∀ table users disk after events failure,
      (dumps.stage users table).run disk =
        { disk := after, events, result := .error failure } →
      dumps.FailsCleanly table (table.rule users) disk after failure) ∧
    ∀ disk after events failure,
      dumps.splitAll.run disk = { disk := after, events, result := .error failure } →
      ∃ table users before told, dumps.Begins disk table users before ∧
        (dumps.stage users table).run before =
          { disk := after, events := told, result := .error failure } ∧
        dumps.FailsCleanly table (table.rule users) before after failure := by
  refine ⟨fun _ _ _ _ _ _ => stage_failsCleanly, fun disk after events failure h => ?_⟩
  obtain ⟨table, users, before, told, hbegins, hfails⟩ := run_splitAll_eq_error_iff.1 ⟨events, h⟩
  exact ⟨table, users, before, told, hbegins, hfails, stage_failsCleanly hfails⟩

/-- A stage that can write no more than six bytes to the file of the second shard, and a run
    that fails in its last stage, at a read event of the unknown user `v`. -/
theorem stage_splitAll_failCleanly_unassigned :
    let disk := ((Disk.fresh.arrange (.ofString "user.sql")
      (some "INSERT INTO u\n, , u, , , , , , , , \"Beijing\", ;\n".toUTF8)).arrange
      (.ofString "article.sql") (some "INSERT INTO a\n, , a, , , ;".toUTF8)).arrange
      (.ofString "user_read.sql") (some "INSERT INTO r\n, , u, , ,\n, , v, , ;".toUTF8)
    let short : Disk := { disk with
      limits := .ofList [(Disk.placeOf "work/user_shard2.sql", Limit.mk 6 .noSpace)] }
    let dumps : DumpSet := { dir := .ofString ".", config := .default }
    (∃ after events failure,
      (dumps.stage {} .user).run short =
        { disk := after, events, result := .error failure } ∧
      dumps.FailsCleanly .user .byRegion short after failure ∧
      (after.read (dumps.output .user .one)).toOption =
        some "INSERT INTO u\n, , u, , , , , , , , \"Beijing\", ;\n".toUTF8 ∧
      (after.read (dumps.output .user .two)).toOption = some "INSERT".toUTF8) ∧
    ∃ after events failure table users before told,
      dumps.splitAll.run disk = { disk := after, events, result := .error failure } ∧
      dumps.Begins disk table users before ∧
      (dumps.stage users table).run before =
        { disk := after, events := told, result := .error failure } ∧
      dumps.FailsCleanly table (table.rule users) before after failure := by
  intro disk short dumps
  constructor
  · have hfails : ((dumps.stage {} .user).run short).result.isOk = false := by decide +kernel
    have hone : (((dumps.stage {} .user).run short).disk.read (dumps.output .user .one)).toOption =
        some "INSERT INTO u\n, , u, , , , , , , , \"Beijing\", ;\n".toUTF8 := by decide +kernel
    have htwo : (((dumps.stage {} .user).run short).disk.read (dumps.output .user .two)).toOption =
        some "INSERT".toUTF8 := by decide +kernel
    obtain ⟨after, events, failure, hrun⟩ := Job.exists_run_eq_error hfails
    rw [hrun] at hone htwo
    exact ⟨after, events, failure, hrun,
      (stage_splitAll_failCleanly dumps).1 .user {} short after events failure hrun, hone, htwo⟩
  · have hfails : (dumps.splitAll.run disk).result.isOk = false := by decide +kernel
    obtain ⟨after, events, failure, hrun⟩ := Job.exists_run_eq_error hfails
    obtain ⟨table, users, before, told, h⟩ :=
      (stage_splitAll_failCleanly dumps).2 disk after events failure hrun
    exact ⟨after, events, failure, table, users, before, told, hrun, h⟩

end DumpSet

end DumpSplit
