/-
  Running again: on the files that a run leaves, another one finds the same dumps and does
  the same once more, whatever the files of the shards were before.
-/
import DumpSplit.Proofs.Failures
import DumpSplit.Proofs.Separation

namespace DumpSplit

/-! ## Jobs that settle what they change -/

namespace Job

variable {ε α β : Type} {job : Job ε α} {f : α → Job ε β} {disk disk' : Disk}
  {kept places others : Set Place}

/-- What the run of a job on `disk` settles: it changes files at `places` only, and would have
    done the same, and come to the same files there, had other files been at places apart
    from those in `kept`.  If it fails, this goes for other files at `places` only. -/
structure Settles (job : Job ε α) (disk : Disk) (kept places : Set Place) : Prop where
  apart : ∀ place ∈ places, place ∉ kept
  changes : disk.SameButFiles places (job.run disk).disk
  again : ∀ others disk', (∀ place ∈ others, place ∉ kept) →
    ((job.run disk).result.isOk ∨ ∀ place ∈ others, place ∈ places) →
    disk.SameButFiles others disk' → ∃ after',
      job.run disk' = { job.run disk with disk := after' } ∧
        (job.run disk).disk.SameButFiles (others \ places) after'

/-- **What is settled stays** as it is when the job is run again. -/
theorem Settles.run_run (h : job.Settles disk kept places) :
    job.run (job.run disk).disk = job.run disk := by
  obtain ⟨after', hrun, hsame⟩ := h.again places _ h.apart (.inr fun _ hmem => hmem) h.changes
  have hempty : after' = (job.run disk).disk :=
    (hsame.mono fun _ hmem => absurd hmem.1 hmem.2).eq_of_empty
  rw [hrun, hempty]

theorem settles_pure (value : α) : (pure value : Job ε α).Settles disk kept ∅ where
  apart _ hmem := absurd hmem id
  changes := .refl _ _
  again _ disk' _ _ hsame := ⟨disk', rfl, hsame.mono fun _ hmem => ⟨hmem, id⟩⟩

/-- A job that goes on with another one settles what the two settle. -/
theorem Settles.bind (h : job.Settles disk kept places)
    (hf : ∀ after events value, job.run disk = { disk := after, events, result := .ok value } →
      ∃ places', (f value).Settles after kept places') :
    ∃ places', (job >>= f).Settles disk kept places' := by
  obtain ⟨hapart, hchanges, hagain⟩ := h
  rcases hrun : job.run disk with ⟨after, events, failure | value⟩
  · rw [hrun] at hchanges hagain
    refine ⟨places, hapart, ?_, ?_⟩ <;> rw [run_bind_of_error hrun]
    · exact hchanges
    · intro others disk' hothers hsub hsame
      obtain ⟨after', hrun', hsame'⟩ := hagain others disk' hothers hsub hsame
      exact ⟨after', run_bind_of_error hrun', hsame'⟩
  · obtain ⟨places', hapart', hchanges', hagain'⟩ := hf after events value hrun
    rw [hrun] at hchanges hagain
    refine ⟨places ∪ places', ?_, ?_, ?_⟩
    · rintro place (hmem | hmem)
      · exact hapart place hmem
      · exact hapart' place hmem
    · rw [run_bind_of_ok hrun]
      exact (hchanges.mono fun _ => .inl).trans (hchanges'.mono fun _ => .inr)
    · rw [run_bind_of_ok hrun]
      intro others disk' hothers hsub hsame
      obtain ⟨between, hrun', hsame'⟩ := hagain others disk' hothers (.inl rfl) hsame
      have hsub' : ((f value).run after).result.isOk ∨
          ∀ place ∈ others \ places, place ∈ places' :=
        hsub.imp_right fun hsub place hmem => (hsub place hmem.1).resolve_left hmem.2
      obtain ⟨after', hrun'', hsame''⟩ :=
        hagain' (others \ places) between (fun place hmem => hothers place hmem.1) hsub' hsame'
      refine ⟨after', ?_, hsame''.mono fun place hmem => ⟨hmem.1.1, ?_⟩⟩
      · rw [run_bind_of_ok hrun', hrun'']
      · rintro (hplace | hplace)
        · exact hmem.1.2 hplace
        · exact hmem.2 hplace

end Job

/-! ## Stages that settle the files of their tables -/

namespace DumpSet

variable {dumps : DumpSet} {table : Table} {rule : Rule} {users keys : KeySets}
  {disk disk' before after : Disk} {events : List Event} {result : TableResult}
  {kept places : Set Place}

/-- A stage that succeeds does the same where only other files than its dump differ, and
    comes to the same files of its table. -/
theorem run_splitTable_again (hsame : disk.SameButFiles places disk')
    (hsource : ∀ place, disk.resolve (dumps.source table) = .ok place → place ∉ places)
    (h : (dumps.splitTable table rule).run disk =
      { disk := after, events, result := .ok (result, keys) }) :
    ∃ after', (dumps.splitTable table rule).run disk' =
        { disk := after', events, result := .ok (result, keys) } ∧
      after.SameButFiles (places \ dumps.outputPlaces table disk) after' := by
  obtain ⟨split, told, told', hfind, hwrite, rfl⟩ := run_splitTable_eq_ok_iff.1 h
  obtain ⟨-, dump, hdump, hsplit, htold⟩ := run_findSplit_eq_ok_iff.1 hfind
  obtain ⟨between, hone, htwo, hrest⟩ := run_writeSplit_eq_ok_iff.1 hwrite
  have hfind' : (dumps.findSplit table rule).run disk' =
      { disk := disk', events := told, result := .ok split } :=
    run_findSplit_eq_ok_iff.2
      ⟨rfl, dump, (hsame.sameOutside.holdsDump_iff hsource).2 hdump, hsplit, htold⟩
  obtain ⟨between', hone', hsame'⟩ := hsame.write hone
  obtain ⟨after', htwo', hsame''⟩ := hsame'.write htwo
  refine ⟨after', run_splitTable_eq_ok_iff.2 ⟨split, told, told', hfind',
    run_writeSplit_eq_ok_iff.2 ⟨between', hone', htwo', hrest⟩, rfl⟩, hsame''.mono ?_⟩
  rintro place ⟨⟨hplace, hfirst⟩, hsecond⟩
  refine ⟨hplace, ?_⟩
  rintro ⟨_ | _, hshard⟩
  · exact hfirst hshard
  · exact hsecond ((Disk.sameOutside_of_write hone).resolve_eq_ok_iff.2 hshard)

/-- A stage settles the files of its table, or nothing if it fails for its dump. -/
theorem stage_settles
    (hsource : ∀ place, disk.resolve (dumps.source table) = .ok place → place ∈ kept)
    (houtput : ∀ place ∈ dumps.outputPlaces table disk, place ∉ kept)
    (hwrites : ∀ shard cause, ((dumps.stage users table).run disk).result ≠
      .error (.io (dumps.output table shard) cause)) :
    ∃ places, (dumps.stage users table).Settles disk kept places := by
  rcases hrun : (dumps.stage users table).run disk with ⟨after, events, failure | ⟨result, keys⟩⟩
  · have hclean := stage_failsCleanly hrun
    have hafter : after = disk := by
      rcases hclean.cause with hlies | ⟨shard, cause, rfl⟩
      · exact hclean.kept hlies
      · exact absurd (by rw [hrun]) (hwrites shard cause)
    refine ⟨∅, fun _ hmem => absurd hmem id, ?_, fun others disk' _ hsub hsame => ?_⟩
    · rw [hrun, hafter]; exact .refl _ _
    -- a job that failed is run again on the disk that it left, and on no other
    · have hsub : ∀ place ∈ others, place ∈ (∅ : Set Place) :=
        hsub.resolve_left (by rw [hrun]; exact Bool.false_ne_true)
      rw [(hsame.mono hsub).eq_of_empty, hrun, hafter]
      exact ⟨disk, rfl, .refl _ _⟩
  · rw [stage_eq] at hrun ⊢
    have hchanges := dumps.splitTable_sameButFiles table (table.rule users) disk
    refine ⟨dumps.outputPlaces table disk, houtput, hchanges,
      fun others disk' hothers _ hsame => ?_⟩
    rw [hrun]
    exact run_splitTable_again hsame
      (fun place hplace hmem => hothers place hmem (hsource place hplace)) hrun

/-! ## Runs -/

/-- The places of the dumps. -/
def sourcePlaces (dumps : DumpSet) (disk : Disk) : Set Place :=
  {place | ∃ table, disk.resolve (dumps.source table) = .ok place}

/-- A run on `disk` comes to a stage that cannot write one of its files. -/
def FailsToWrite (dumps : DumpSet) (disk : Disk) : Prop :=
  ∃ table users before shard cause, dumps.Begins disk table users before ∧
    ((dumps.stage users table).run before).result = .error (.io (dumps.output table shard) cause)

theorem not_failsToWrite_of_isOk (h : (dumps.splitAll.run disk).result.isOk) :
    ¬ dumps.FailsToWrite disk := by
  rintro ⟨table, users, before, shard, cause, hbegins, hfails⟩
  obtain ⟨events, hrun⟩ := run_splitAll_eq_error_iff.2
    ⟨table, users, before, ((dumps.stage users table).run before).events, hbegins, by rw [← hfails]⟩
  rw [hrun] at h
  cases h

theorem Begins.sameOutside (h : dumps.Begins disk table users before) :
    ∃ places, disk.SameOutside places before := by
  induction h with
  | user => exact ⟨∅, .refl _ _⟩
  | article hcompletes =>
    obtain ⟨_, _, hsplit, -⟩ := hcompletes.hasSplit
    exact ⟨_, hsplit.outside⟩
  | userRead _ hcompletes ih =>
    obtain ⟨places, hplaces⟩ := ih
    obtain ⟨_, _, hsplit, -⟩ := hcompletes.hasSplit
    exact ⟨places ∪ _, (hplaces.mono fun _ => .inl).trans (hsplit.outside.mono fun _ => .inr)⟩

/-- Where no file lies on a dump, each stage to which a run comes settles what it changes. -/
theorem Begins.settles (h : dumps.Begins disk table users before)
    (hspares : dumps.SparesSources disk) (hwrites : ¬ dumps.FailsToWrite disk) :
    ∃ places, (dumps.stage users table).Settles before (dumps.sourcePlaces disk) places := by
  obtain ⟨_, hsame⟩ := h.sameOutside
  refine stage_settles (fun place hplace => ⟨table, hsame.resolve_eq_ok_iff.1 hplace⟩) ?_ ?_
  · rintro place hmem ⟨table', hplace⟩
    rw [outputPlaces_eq hsame] at hmem
    exact hspares table place hmem table' hplace
  · exact fun shard cause hfails => hwrites ⟨table, users, before, shard, cause, h, hfails⟩

theorem splitAll_settles (hspares : dumps.SparesSources disk)
    (hwrites : ¬ dumps.FailsToWrite disk) :
    ∃ places, dumps.splitAll.Settles disk (dumps.sourcePlaces disk) places := by
  have husers : dumps.Begins disk .user {} disk := .user
  obtain ⟨_, husersSettle⟩ := husers.settles hspares hwrites
  refine husersSettle.bind fun disk₁ _ ⟨_, keys⟩ hrun => ?_
  have harticles : dumps.Begins disk .article keys disk₁ :=
    .article (completes_of_run .user {} hrun)
  obtain ⟨_, harticlesSettle⟩ := harticles.settles hspares hwrites
  refine harticlesSettle.bind fun disk₂ _ ⟨_, _⟩ hrun => ?_
  have hreads : dumps.Begins disk .userRead keys disk₂ :=
    .userRead harticles (completes_of_run .article keys hrun)
  obtain ⟨_, hreadsSettle⟩ := hreads.settles hspares hwrites
  exact hreadsSettle.bind fun _ _ ⟨_, _⟩ _ => ⟨∅, Job.settles_pure _⟩

/-- **Running again changes nothing**, and ends as the first run did, with the same events,
    where no file of a shard lies on a dump and all that was written could be. -/
theorem splitAll_run_again (dumps : DumpSet) (disk : Disk) (hspares : dumps.SparesSources disk)
    (hwrites : ¬ dumps.FailsToWrite disk) :
    dumps.splitAll.run (dumps.splitAll.run disk).disk = dumps.splitAll.run disk := by
  obtain ⟨_, hsettles⟩ := splitAll_settles hspares hwrites
  exact hsettles.run_run

/-- The read events are in the dump of the users, so that the files of both are the same, and
    these are there already, with something else in them. -/
theorem splitAll_run_again_shared :
    let user := "INSERT INTO u\n, , u, , , , , , , , \"Beijing\", ;\n"
    let disk := (((Disk.fresh.arrange (.ofString "user.sql") (some user.toUTF8)).arrange
      (.ofString "article.sql") (some "INSERT INTO a\n, , a, , , ;".toUTF8)).arrange
      (.ofString "user_shard1.sql") (some "old".toUTF8)).arrange
      (.ofString "article_shard2.sql") (some .empty)
    let config := Config.overlay [(.userRead, "user.sql")]
    let dumps : DumpSet := { dir := .ofString ".", config }
    (dumps.SparesSources disk ∧ ¬ dumps.FailsToWrite disk) ∧
      dumps.splitAll.run (dumps.splitAll.run disk).disk = dumps.splitAll.run disk := by
  intro user disk config dumps
  have hspares : dumps.SparesSources disk := by
    rintro table place ⟨shard, hplace⟩ table' hsource
    have heq := hsource.trans hplace.symm
    revert heq
    cases table <;> cases shard <;> cases table' <;> decide +kernel
  have hwrites : ¬ dumps.FailsToWrite disk := not_failsToWrite_of_isOk (by decide +kernel)
  exact ⟨⟨hspares, hwrites⟩, splitAll_run_again dumps disk hspares hwrites⟩

end DumpSet

end DumpSplit
