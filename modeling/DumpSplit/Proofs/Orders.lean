/-
  Stages in another order: where the files of the shards lie apart, the stage of the articles
  can be swapped with any other one, so that it makes no difference when it comes.
-/
import DumpSplit.Proofs.Reruns

namespace DumpSplit.DumpSet

variable {dumps : DumpSet} {disk disk' between after after' : Disk} {table table' : Table}
  {rule rule' : Rule} {users : KeySets} {told : Table → Told} {order : List Table}
  {shard : Shard} {lines : List String}

/-! ## Two stages -/

/-- **Stages of two tables can be swapped**: none of them finds a dump changed by the other one,
    and what they write is not at one place. -/
theorem run_splitTable_swap {told told' : Told} (hsep : dumps.Separate disk) (hne : table ≠ table')
    (h : (dumps.splitTable table rule).run disk = told.outcome between)
    (h' : (dumps.splitTable table' rule').run between = told'.outcome after) :
    ∃ between', (dumps.splitTable table' rule').run disk = told'.outcome between' ∧
      (dumps.splitTable table rule).run between' = told.outcome after := by
  have hone := sameButFiles_of_run h
  have htwo := sameButFiles_of_run h'
  rw [outputPlaces_eq hone.sameOutside] at htwo
  have hsource' : ∀ place, between.resolve (dumps.source table') = .ok place →
      place ∉ dumps.outputPlaces table disk := fun place hplace hmem =>
    hsep.spares table place hmem table' (hone.sameOutside.resolve_eq_ok_iff.1 hplace)
  obtain ⟨between', hrun', hafter⟩ := run_splitTable_again hone.symm hsource' h'
  have hone' := sameButFiles_of_run hrun'
  have hsource : ∀ place, disk.resolve (dumps.source table) = .ok place →
      place ∉ dumps.outputPlaces table' disk := fun place hplace hmem =>
    hsep.spares table' place hmem table hplace
  obtain ⟨after', hrun, hbetween⟩ := run_splitTable_again hone' hsource h
  have htwo' := sameButFiles_of_run hrun
  rw [outputPlaces_eq hone'.sameOutside] at htwo'
  -- both ways to the end differ in files of the one table, and in files of the other one
  have hafter' : after.SameButFiles (dumps.outputPlaces table disk) after' :=
    (hafter.mono fun _ hmem => hmem.1).trans htwo'
  have hafter'' : after.SameButFiles (dumps.outputPlaces table' disk) after' :=
    htwo.symm.trans (hbetween.mono fun _ hmem => hmem.1)
  have heq : after' = after := hafter'.eq_of_disjoint hafter'' fun place hmem hmem' =>
    hne (hsep.apart table table' place hmem hmem')
  exact ⟨between', hrun', heq ▸ hrun⟩

/-! ## The articles before and after other tables -/

theorem runs_article_swap (hsep : dumps.Separate disk) (hne : table ≠ .article) :
    dumps.Runs told users disk (.article :: table :: order) after ↔
      dumps.Runs told users disk (table :: .article :: order) after := by
  simp only [runs_cons_iff, stage_eq]
  constructor
  · rintro ⟨_, harticle, _, hrun, h⟩
    obtain ⟨_, hrun', harticle'⟩ := run_splitTable_swap hsep hne.symm harticle hrun
    exact ⟨_, hrun', _, harticle', h⟩
  · rintro ⟨_, hrun, _, harticle, h⟩
    obtain ⟨_, harticle', hrun'⟩ := run_splitTable_swap hsep hne hrun harticle
    exact ⟨_, harticle', _, hrun', h⟩

/-- Wherever the articles come in a run, they might have come first. -/
theorem runs_article_iff (before : List Table) (hsep : dumps.Separate disk)
    (hbefore : .article ∉ before) :
    dumps.Runs told users disk (before ++ .article :: order) after ↔
      dumps.Runs told users disk (.article :: (before ++ order)) after := by
  induction before generalizing users disk with
  | nil => rfl
  | cons table before ih =>
    rw [List.mem_cons, not_or] at hbefore
    rw [List.cons_append, List.cons_append, runs_article_swap hsep (Ne.symm hbefore.1),
      runs_cons_iff, runs_cons_iff]
    refine exists_congr fun between => and_congr_right fun hrun => ?_
    rw [stage_eq] at hrun
    exact ih (hsep.sameOutside (sameButFiles_of_run hrun).sameOutside) hbefore.2

/-! ## What stages depend on -/

/-- A stage from `disk` to `after` and one from `disk'` to `after'` tell the same of a table, and
    write the same to its files where these keep it. -/
structure Agree (dumps : DumpSet) (table : Table) (disk after disk' after' : Disk)
    (told told' : Told) : Prop where
  told_eq : told' = told
  output : ∀ shard, disk.Keeps (dumps.output table shard) →
    disk'.Keeps (dumps.output table shard) → ∃ lines,
      after.HoldsLines (dumps.output table shard) lines ∧
        after'.HoldsLines (dumps.output table shard) lines

/-- Stages of one table agree if they find the same dump. -/
theorem agree_of_dump {told told' : Told}
    (h : (dumps.splitTable table rule).run disk = told.outcome after)
    (h' : (dumps.splitTable table rule).run disk' = told'.outcome after')
    (hsource : ∀ dump, disk'.HoldsDump (dumps.source table) dump →
      disk.HoldsDump (dumps.source table) dump) :
    dumps.Agree table disk after disk' after' told told' := by
  obtain ⟨dump, split, hsplit, -⟩ := splitTable_hasSplit h
  obtain ⟨dump', split', hsplit', -⟩ := splitTable_hasSplit h'
  obtain rfl : dump' = dump := (hsource dump' hsplit'.source).unique hsplit.source
  obtain rfl : split' = split := Except.ok.inj (hsplit'.accepted.symm.trans hsplit.accepted)
  refine ⟨?_, fun shard hkeeps hkeeps' =>
    ⟨_, hsplit.output shard hkeeps, hsplit'.output shard hkeeps'⟩⟩
  rw [eq_tells_of_run h hsplit, eq_tells_of_run h' hsplit']

section

variable {told₁ told₂ : Told} {between' : Disk}

/-- Stages that agree do so also after runs without their table. -/
theorem Agree.of_runs_after (h : dumps.Agree table disk between disk' between' told₁ told₂)
    {told' : Table → Told} (hruns : dumps.Runs told users between order after)
    (hruns' : dumps.Runs told' users between' order after') (hsep : dumps.Separate between)
    (hsep' : dumps.Separate between') (hnot : table ∉ order) :
    dumps.Agree table disk after disk' after' told₁ told₂ := by
  refine ⟨h.told_eq, fun shard hkeeps hkeeps' => ?_⟩
  obtain ⟨lines, hlines, hlines'⟩ := h.output shard hkeeps hkeeps'
  exact ⟨lines, (hruns.holdsLines_output_iff hsep hnot).2 hlines,
    (hruns'.holdsLines_output_iff hsep' hnot).2 hlines'⟩

/-- Stages that agree do so also after those of another table. -/
theorem Agree.of_stage_before (h : dumps.Agree table between after between' after' told₁ told₂)
    (hsame : disk.SameOutside (dumps.outputPlaces table' disk) between)
    (hsame' : disk'.SameOutside (dumps.outputPlaces table' disk') between')
    (hsep : dumps.Separate disk) (hsep' : dumps.Separate disk') (hne : table ≠ table') :
    dumps.Agree table disk after disk' after' told₁ told₂ :=
  ⟨h.told_eq, fun shard hkeeps hkeeps' => h.output shard
    ((hsep.keeps_output_iff hsame hne).2 hkeeps) ((hsep'.keeps_output_iff hsame' hne).2 hkeeps')⟩

end

/-- Runs agree on all other tables if only the dumps of the articles are not the same. -/
theorem Runs.agree {told' : Table → Told} (h : dumps.Runs told users disk order after)
    (h' : dumps.Runs told' users disk' order after') (hsep : dumps.Separate disk)
    (hsep' : dumps.Separate disk') (hnodup : order.Nodup)
    (hsources : ∀ table ≠ .article, ∀ dump, disk'.HoldsDump (dumps.source table) dump →
      disk.HoldsDump (dumps.source table) dump) :
    ∀ table ∈ order, table ≠ .article →
      dumps.Agree table disk after disk' after' (told table) (told' table) := by
  induction h generalizing disk' with
  | nil => simp
  | @cons users disk between after head order hrun hrest ih =>
    obtain ⟨between', hrun', hrest'⟩ := runs_cons_iff.1 h'
    rw [stage_eq] at hrun hrun'
    have hsame := (sameButFiles_of_run hrun).sameOutside
    have hsame' := (sameButFiles_of_run hrun').sameOutside
    have hsepb := hsep.sameOutside hsame
    have hsepb' := hsep'.sameOutside hsame'
    obtain ⟨hhead, hnodup⟩ := List.nodup_cons.1 hnodup
    have hfirst : head ≠ .article →
        dumps.Agree head disk between disk' between' (told head) (told' head) := fun hne =>
      agree_of_dump hrun hrun' (hsources head hne)
    have husers : head.usersAfter users (told' head).keys =
        head.usersAfter users (told head).keys := by
      cases head with
      | user => rw [(hfirst (by decide)).told_eq]
      | article | userRead => rfl
    rw [husers] at hrest'
    have hagree := ih hrest' hsepb hsepb' hnodup fun table hne dump hdump => by
      rw [hsep'.spares.holdsDump_source_iff hsame'] at hdump
      rw [hsep.spares.holdsDump_source_iff hsame]
      exact hsources table hne dump hdump
    intro table hmem hne
    rcases List.mem_cons.1 hmem with rfl | hmem
    · exact (hfirst hne).of_runs_after hrest hrest' hsepb hsepb' hhead
    · exact (hagree table hmem hne).of_stage_before hsame hsame' hsep hsep'
        fun heq => hhead (heq ▸ hmem)

/-! ## Runs of all stages -/

/-- The stages come from `disk` to `after`, and tell what `told` says, in each order in which the
    users are before the read events; and on disks with other articles they tell and write the same
    of these two tables. -/
structure InAnyOrder (dumps : DumpSet) (told : Table → Told) (disk after : Disk) : Prop where
  articlesBetween : dumps.Runs told {} disk [.user, .article, .userRead] after
  articlesFirst : dumps.Runs told {} disk [.article, .user, .userRead] after
  articlesLast : dumps.Runs told {} disk [.user, .userRead, .article] after
  others : ∀ told' disk' after', dumps.Separate disk' → dumps.Runs told' {} disk' Table.all after' →
    (∀ table ≠ .article, disk'.read (dumps.source table) = disk.read (dumps.source table)) →
    ∀ table ≠ .article, told' table = told table ∧
      ∀ shard, disk.Keeps (dumps.output table shard) → disk'.Keeps (dumps.output table shard) →
        after'.read (dumps.output table shard) = after.read (dumps.output table shard)

/-- **The order of the stages makes no difference**, but that the users come before the read
    events, wherever the files of the shards lie apart from one another and from the dumps. -/
theorem splitAll_inAnyOrder (dumps : DumpSet) (disk after : Disk) (events : List Event)
    (summary : Summary) (hsep : dumps.Separate disk)
    (h : dumps.splitAll.run disk = { disk := after, events, result := .ok summary }) :
    ∃ told, events = Table.all.flatMap (fun table => (told table).events) ∧
      summary = .ofTables (Table.all.map fun table => (told table).result) (told .user).keys ∧
      dumps.InAnyOrder told disk after := by
  obtain ⟨told, hruns, hevents, hsummary⟩ := run_splitAll_eq_ok_iff.1 h
  have hfirst : dumps.Runs told {} disk [.article, .user, .userRead] after :=
    (runs_article_iff [.user] hsep (by decide)).1 hruns
  refine ⟨told, hevents, hsummary, hruns, hfirst,
    (runs_article_iff [.user, .userRead] hsep (by decide)).2 hfirst,
    fun told' disk' after' hsep' hruns' hreads table hne => ?_⟩
  have hsources : ∀ table ≠ .article, ∀ dump, disk'.HoldsDump (dumps.source table) dump →
      disk.HoldsDump (dumps.source table) dump := fun table hne dump hdump =>
    hdump.of_read_eq (hreads table hne).symm
  have hmem : table ∈ Table.all := by cases table <;> decide
  have hagree := hruns.agree hruns' hsep hsep' (by decide) hsources table hmem hne
  refine ⟨hagree.told_eq, fun shard hkeeps hkeeps' => ?_⟩
  obtain ⟨lines, hlines, hlines'⟩ := hagree.output shard hkeeps hkeeps'
  rw [(Disk.holdsLines_iff.1 hlines).2, (Disk.holdsLines_iff.1 hlines').2]

/-- Two disks with other articles, and the same read events of `u` and `v` on both. -/
theorem splitAll_inAnyOrder_articles :
    let user := "INSERT INTO u\n, , u, , , , , , , , \"Hong Kong\", ,\n" ++
      ", , v, , , , , , , , \"Beijing\", ;\n"
    let article (category : String) := "INSERT INTO a\n, , a, , " ++ category ++ ", ;"
    let disk (category : String) := ((Disk.fresh.arrange (.ofString "user.sql")
      (some user.toUTF8)).arrange
      (.ofString "article.sql") (some (article category).toUTF8)).arrange
      (.ofString "user_read.sql") (some "INSERT INTO r\n, , u, , ,\n, , v, , ;".toUTF8)
    let dumps : DumpSet := { dir := .ofString ".", config := .default }
    ∃ told told' after after',
      (dumps.InAnyOrder told (disk "\"science\"") after ∧
        dumps.InAnyOrder told' (disk "\"technology\"") after') ∧
      told' .userRead = told .userRead ∧ ∀ shard,
        after'.read (dumps.output .userRead shard) = after.read (dumps.output .userRead shard) := by
  intro user article disk dumps
  have hok : ∀ category ∈ ["\"science\"", "\"technology\""],
      (dumps.splitAll.run (disk category)).result.isOk := by decide +kernel
  obtain ⟨after, events, summary, hrun⟩ := Job.exists_run_eq_ok (hok "\"science\"" (by decide))
  obtain ⟨after', events', summary', hrun'⟩ :=
    Job.exists_run_eq_ok (hok "\"technology\"" (by decide))
  have hsep := fun category => separate_default (.ofString ".") (disk category)
  obtain ⟨told, -, -, horders⟩ := splitAll_inAnyOrder dumps _ after events summary (hsep _) hrun
  obtain ⟨told', -, -, horders'⟩ :=
    splitAll_inAnyOrder dumps _ after' events' summary' (hsep _) hrun'
  obtain ⟨htold, houtput⟩ := horders.others told' _ after' (hsep _) horders'.articlesBetween
    (fun table hne => by revert hne; cases table <;> decide +kernel) .userRead (by decide)
  refine ⟨told, told', after, after', ⟨horders, horders'⟩, htold, fun shard => houtput shard ?_ ?_⟩
  · cases shard <;> decide +kernel
  · cases shard <;> decide +kernel

end DumpSplit.DumpSet
