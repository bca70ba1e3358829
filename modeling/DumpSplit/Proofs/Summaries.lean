/-
  Summaries: what a run tells of the dumps is true of their files.  Its numbers were counted
  beside the lines and the keys, and they are those of the lines that the files hold and of
  the users in them.
-/
import DumpSplit.Proofs.Articles
import DumpSplit.Proofs.Consistency
import DumpSplit.Proofs.Sources

namespace DumpSplit

/-! ## Users -/

/-- The users of rows, each of them once. -/
def uidsOf (lines : List String) : Finset String := (lines.filterMap uid?).toFinset

theorem mem_uidsOf {lines : List String} {uid : String} :
    uid ∈ uidsOf lines ↔ ∃ line ∈ lines, uid? line = some uid := by
  rw [uidsOf, List.mem_toFinset, List.mem_filterMap]

theorem card_uidsOf_le (lines : List String) : (uidsOf lines).card ≤ lines.length :=
  (List.toFinset_card_le _).trans (List.length_filterMap_le _ _)

theorem Interleaves.uidsOf_eq {left right all : List String} (h : Interleaves left right all) :
    uidsOf all = uidsOf left ∪ uidsOf right := by
  ext uid
  simp only [Finset.mem_union, mem_uidsOf, h.mem_iff, or_and_right, exists_or]

namespace Split

variable {dump : Dump} {source : Path} {split : Split}
  (h : Rule.byRegion.split dump source = .ok split)
include h

/-- A shard has as many keys of users as there are users in its rows. -/
theorem size_keys_eq (shard : Shard) :
    (split.keys.of shard).size = (uidsOf (split.recordsOf shard)).card :=
  Keys.size_eq_card fun uid => by rw [mem_keys_iff_recordsOf h, mem_uidsOf]; rfl

theorem isSome_uid? {line : String} (hline : line ∈ dump.records) : (uid? line).isSome := by
  rw [← map_line_routed h] at hline
  obtain ⟨r, hr, rfl⟩ := List.mem_map.1 hline
  exact Option.isSome_iff_exists.2 ⟨r.key, field_key_eq h hr⟩

end Split

namespace DumpSet

variable {dumps : DumpSet} {disk after : Disk}

/-- What is told of a table is true of its files: its dump on `disk` is still there on `after`,
    and so are the records of `share` in the frame of the dump, each for its shard; the numbers
    are those of the lines. -/
structure Describes (dumps : DumpSet) (disk after : Disk) (result : TableResult) (dump : Dump)
    (share : Shard → List String) : Prop where
  paths : result.source = dumps.source result.table ∧
    result.output = dumps.output result.table
  source : disk.HoldsDump result.source dump
  kept : after.HoldsDump result.source dump
  output : ∀ shard, disk.Keeps (result.output shard) →
    after.HoldsLines (result.output shard) (dump.preamble ++ share shard ++ dump.suffix)
  length : ∀ shard, disk.Keeps (result.output shard) → ∃ lines written,
    disk.HoldsLines result.source lines ∧ after.HoldsLines (result.output shard) written ∧
      written.length + result.records = lines.length + result.count shard
  records : result.records = dump.records.length
  nonempty : 1 ≤ result.records
  count : ∀ shard, result.count shard = (share shard).length
  dealt : result.table ≠ .article → result.count .one + result.count .two = result.records
  copied : result.table = .article →
    result.count .one = result.records ∧ result.count .two ≤ result.records

theorem Leaves.describes {table : Table} {users : KeySets} {dump : Dump} {split : Split}
    (h : dumps.Leaves table (table.rule users) disk after dump split) :
    dumps.Describes disk after (dumps.tells table (table.rule users) dump split).result dump
      split.recordsOf where
  paths := ⟨rfl, rfl⟩
  source := h.source
  kept := h.kept
  output shard hkeeps := Split.lines_eq_recordsOf h.accepted shard ▸ h.output shard hkeeps
  length shard hkeeps := by
    refine ⟨_, _, h.source.lines, h.output shard hkeeps, ?_⟩
    simp only [tells, Dump.lines, Split.lines_eq_recordsOf h.accepted, List.length_append,
      Split.size_eq h.accepted, Split.count_eq_length]
    omega
  records := Split.size_eq h.accepted
  nonempty := h.source.one_le_size h.accepted
  count := split.count_eq_length
  dealt hne := Split.count_add_count_of_exclusive (Table.rule_exclusive users hne) h.accepted
  copied heq := by
    obtain rfl : table = .article := heq
    obtain ⟨hone, htwo⟩ := Split.count_of_byCategory h.accepted
    have hsize := Split.size_eq h.accepted
    refine ⟨hone.trans hsize.symm, ?_⟩
    change split.count .two ≤ split.size
    rw [htwo, hsize]
    exact List.length_filter_le _ _

end DumpSet

/-! ## Where a run writes -/

theorem Split.written_write (split : Split) (table : Table) (shard : Shard) (path : Path)
    (disk : Disk) : (split.write table shard path).written disk = [path] := by
  simp only [Split.write, Job.writeLines, bind, Job.andThen, Job.written]
  rcases (disk.write path (String.join (split.lines shard)).toUTF8).2 with fault | _
  · rfl
  · dsimp only [Job.andThen]
    split_ifs <;> rfl

namespace DumpSet

variable {dumps : DumpSet} {disk after : Disk}

theorem written_writeSplit {table : Table} {split : Split} {events : List Event}
    {value : TableResult × KeySets}
    (h : (dumps.writeSplit table split).run disk = { disk := after, events, result := .ok value }) :
    (dumps.writeSplit table split).written disk = Shard.all.map (dumps.output table) := by
  obtain ⟨_, _, _, _, hone, h, -⟩ := Job.run_bind_eq_ok_iff.1 h
  obtain ⟨_, _, _, _, htwo, -, -⟩ := Job.run_bind_eq_ok_iff.1 h
  rw [writeSplit, Job.written_bind_of_ok hone, Job.written_bind_of_ok htwo, Split.written_write,
    Split.written_write]
  rfl

theorem written_stage {table : Table} {users : KeySets} {told : Told}
    (h : (dumps.stage users table).run disk = told.outcome after) :
    (dumps.stage users table).written disk = Shard.all.map (dumps.output table) := by
  rw [stage_eq] at h ⊢
  obtain ⟨split, _, _, hfind, hwrite, -⟩ := run_splitTable_eq_ok_iff.1 h
  have hnothing : (dumps.findSplit table (table.rule users)).written disk = [] :=
    List.eq_nil_iff_forall_not_mem.2 fun _ hmem =>
      (dumps.findSplit_writesOnly table _).mem_of_mem_written hmem
  rw [splitTable_eq_bind, Job.written_bind_of_ok hfind, hnothing, List.nil_append,
    written_writeSplit hwrite]

/-- A run writes to the files of its tables, one after the other. -/
theorem written_splitAll {events : List Event} {summary : Summary}
    (h : dumps.splitAll.run disk = { disk := after, events, result := .ok summary }) :
    dumps.splitAll.written disk =
      Table.all.flatMap fun table => Shard.all.map (dumps.output table) := by
  obtain ⟨told, hruns, -, -⟩ := run_splitAll_eq_ok_iff.1 h
  obtain ⟨disk₁, husers, hruns⟩ := runs_cons_iff.1 hruns
  obtain ⟨disk₂, harticles, hruns⟩ := runs_cons_iff.1 hruns
  obtain ⟨_, hreads, -⟩ := runs_cons_iff.1 hruns
  have hone := written_stage husers
  have htwo := written_stage harticles
  have hthree := written_stage hreads
  refine (Job.written_bind_of_ok husers).trans ?_
  refine (congrArg _ (Job.written_bind_of_ok harticles)).trans ?_
  refine (congrArg _ (congrArg _ (Job.written_bind_of_ok hreads))).trans ?_
  rw [hone, htwo, hthree]
  rfl

/-! ## Summaries of runs -/

/-- A summary is true of a run from `disk` to `after`: its paths are those that were written, and
    no other file has changed; what it tells of each table is true of the table's files; and its
    numbers of users are those of the users in their files, of whom both shards may hold some. -/
structure Summarizes (dumps : DumpSet) (disk after : Disk) (summary : Summary)
    (dump : Table → Dump) (share : Table → Shard → List String) : Prop where
  tables : summary.tables.map (·.table) = Table.all
  written : dumps.splitAll.written disk =
    summary.tables.flatMap fun result => Shard.all.map result.output
  unchanged : disk.SameButFiles {place | ∃ result ∈ summary.tables, ∃ shard,
    disk.resolve (result.output shard) = .ok place} after
  described : ∀ result ∈ summary.tables,
    dumps.Describes disk after result (dump result.table) (share result.table)
  known : ∀ line ∈ (dump .user).records, (uid? line).isSome
  users : ∀ shard, summary.users shard = (uidsOf (share .user shard)).card
  users_le : ∀ result ∈ summary.tables, result.table = .user → ∀ shard,
    summary.users shard ≤ result.count shard
  users_sum : summary.users .one + summary.users .two =
    (uidsOf (dump .user).records).card +
      (uidsOf (share .user .one) ∩ uidsOf (share .user .two)).card

/-- **A summary tells the truth** about the files that a run has written, wherever the files of
    the shards lie apart from one another and from the dumps. -/
theorem splitAll_summarizes (dumps : DumpSet) (disk after : Disk) (events : List Event)
    (summary : Summary) (hsep : dumps.Separate disk)
    (h : dumps.splitAll.run disk = { disk := after, events, result := .ok summary }) :
    ∃ dump share, dumps.Summarizes disk after summary dump share := by
  obtain ⟨told, hruns, -, rfl⟩ := run_splitAll_eq_ok_iff.1 h
  choose users dump split hleaves htold using fun table =>
    hruns.exists_leaves hsep (by decide) table (by cases table <;> decide)
  have hdescribes : ∀ table, dumps.Describes disk after (told table).result (dump table)
      (split table).recordsOf := fun table => htold table ▸ (hleaves table).describes
  have htable : ∀ table, (told table).result.table = table := fun table => htold table ▸ rfl
  have huser := (hleaves .user).accepted
  have husers : ∀ shard, ((told .user).keys.of shard).size =
      (uidsOf ((split .user).recordsOf shard)).card := fun shard => by
    rw [htold]
    exact Split.size_keys_eq huser shard
  have hshares := Split.interleaves Rule.byRegion_exclusive huser
  have hchanged := dumps.splitAll_sameButFiles disk
  rw [h] at hchanged
  refine ⟨dump, fun table => (split table).recordsOf, ?_⟩
  exact
    { tables := by simp [Summary.ofTables, Table.all, htable]
      written := by
        rw [written_splitAll h, Summary.ofTables, List.flatMap_map]
        simp only [htold, tells]
      unchanged := by
        refine hchanged.mono ?_
        rintro place ⟨table, shard, hplace⟩
        refine ⟨(told table).result, ?_, shard, ?_⟩
        · exact List.mem_map_of_mem (by cases table <;> decide)
        · rw [htold]; exact hplace
      described := by
        intro result hresult
        obtain ⟨table, -, rfl⟩ := List.mem_map.1 hresult
        rw [htable]
        exact hdescribes table
      known := fun line hline => Split.isSome_uid? huser hline
      users := husers
      users_le := by
        intro result hresult huser shard
        obtain ⟨table, -, rfl⟩ := List.mem_map.1 hresult
        obtain rfl : table = .user := (htable table).symm.trans huser
        rw [(hdescribes .user).count]
        exact (husers shard).trans_le (card_uidsOf_le _)
      users_sum := by
        rw [hshares.uidsOf_eq, Finset.card_union_add_card_inter]
        exact congrArg₂ _ (husers .one) (husers .two) }

/-- The user `u` is in both regions, and `v` twice in the first one. -/
theorem splitAll_summarizes_both :
    let row (uid region : String) := ", , " ++ uid ++ ", , , , , , , , \"" ++ region ++ "\", "
    let user := "INSERT INTO u\n" ++ row "u" "Hong Kong" ++ ",\n" ++ row "v" "Beijing" ++ ",\n" ++
      row "v" "Beijing" ++ ",\n" ++ row "u" "Beijing" ++ ";\n--"
    let disk := ((Disk.fresh.arrange (.ofString "user.sql") (some user.toUTF8)).arrange
      (.ofString "article.sql") (some "INSERT INTO a\n, , a, , , ;".toUTF8)).arrange
      (.ofString "user_read.sql") (some "INSERT INTO r\n, , u, , ,\n, , v, , ;".toUTF8)
    let dumps : DumpSet := { dir := .ofString ".", config := .default }
    (dumps.Separate disk ∧ ∀ table shard, disk.Keeps (dumps.output table shard)) ∧
      ∃ after events summary dump share,
        dumps.splitAll.run disk = { disk := after, events, result := .ok summary } ∧
        dumps.Summarizes disk after summary dump share ∧
        summary.users .one = 2 ∧ summary.users .two = 1 := by
  intro row user disk dumps
  have hsep : dumps.Separate disk := separate_default _ disk
  refine ⟨⟨hsep, fun table shard => by cases table <;> cases shard <;> decide +kernel⟩, ?_⟩
  have husers : (dumps.splitAll.run disk).result.toOption.map
      (fun summary => (summary.users .one, summary.users .two)) = some (2, 1) := by decide +kernel
  rcases hrun : dumps.splitAll.run disk with ⟨after, events, failure | summary⟩
  · rw [hrun] at husers
    cases husers
  rw [hrun] at husers
  obtain ⟨hone, htwo⟩ := Prod.mk.inj (Option.some.inj husers)
  obtain ⟨dump, share, hsummarizes⟩ := splitAll_summarizes dumps disk after events summary hsep hrun
  exact ⟨after, events, summary, dump, share, rfl, hsummarizes, hone, htwo⟩

end DumpSet

end DumpSplit
