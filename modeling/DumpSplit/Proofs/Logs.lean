/-
  Logs: what a stage reports, in which order, and how far it comes before it fails.  A run
  reports what its stages do, one after the other, up to the first that fails.
-/
import DumpSplit.Proofs.Articles
import DumpSplit.Proofs.Failures

namespace DumpSplit

/-! ## Events of one kind -/

/-- How an event is headed in the log. -/
def Event.heading (event : Event) : Level × String := (event.level, event.message)

/-- The warnings of a rule that goes through a dump: those of the records that cross over to a
    shard, up to the first record that is refused, each at a later line of `source` than the
    one before it. -/
structure AreKeyWarnings (rule : Rule) (dump : Dump) (source : Path) (events : List Event) :
    Prop where
  crossings : ∃ crossings : List Crossing, crossings.Pairwise (·.index < ·.index) ∧
    (∀ crossing, crossing ∈ crossings ↔
      Routing.Crosses (rule.routing dump source).routed crossing) ∧
    events = crossings.map (·.warning dump source)
  increasing : ∃ told : List (Nat × String × Shard), told.Pairwise (fun a b => a.1 < b.1) ∧
    events = told.map fun (line, key, shard) => .keyAlreadyRouted source line key shard shard.other

theorem AreKeyWarnings.map_heading {rule : Rule} {dump : Dump} {source : Path}
    {events : List Event} (h : AreKeyWarnings rule dump source events) :
    events.map Event.heading =
      List.replicate events.length (.warn, "key already routed to the other shard") := by
  obtain ⟨told, -, rfl⟩ := h.increasing
  rw [List.map_map, List.length_map, ← List.map_const']
  rfl

theorem Rule.areKeyWarnings (rule : Rule) (dump : Dump) (source : Path) :
    AreKeyWarnings rule dump source ((rule.routing dump source).warnings source) := by
  obtain ⟨crossings, hsorted, hmem, hwarnings⟩ := rule.exists_crossings dump source
  refine ⟨⟨crossings, hsorted, hmem, hwarnings⟩,
    crossings.map fun c => (dump.lineNumber c.index, c.key, c.shard), ?_, ?_⟩
  · refine List.pairwise_map.2 (hsorted.imp fun {a b} hlt => ?_)
    simp only [Dump.lineNumber]
    omega
  · rw [hwarnings, List.map_map]
    rfl

/-- The warning of a shard without records. -/
def emptyWarnings (table : Table) (empty? : Option Shard) : List Event :=
  empty?.toList.map (.shardEmpty table)

theorem map_heading_emptyWarnings (table : Table) (empty? : Option Shard) :
    (emptyWarnings table empty?).map Event.heading =
      List.replicate (emptyWarnings table empty?).length (.warn, "shard received no records") := by
  cases empty? <;> rfl

namespace Split

variable {split : Split}

/-- The shard that gets no record, if there is one: they cannot both be without. -/
def empty? (split : Split) : Option Shard := Shard.all.find? fun shard => split.count shard = 0

theorem size_le_count_add_count (split : Split) :
    split.size ≤ split.count .one + split.count .two := by
  rw [count, count, countP_reaches, size]
  exact Nat.le_add_right _ _

theorem empty?_eq (split : Split) : split.empty? = if split.count .one = 0 then some .one
    else if split.count .two = 0 then some .two else none := by
  simp only [empty?, Shard.all, List.find?_cons, List.find?_nil]
  split_ifs <;> simp [*]

theorem empty?_eq_some_iff (h : 1 ≤ split.size) {shard : Shard} :
    split.empty? = some shard ↔ split.count shard = 0 := by
  have hsum := split.size_le_count_add_count
  rw [empty?_eq]
  cases shard <;> split_ifs <;> simp <;> omega

theorem emptyWarnings_empty? (h : 1 ≤ split.size) (table : Table) :
    emptyWarnings table split.empty? =
      (if split.count .one = 0 then [.shardEmpty table .one] else []) ++
        (if split.count .two = 0 then [.shardEmpty table .two] else []) := by
  have hsum := split.size_le_count_add_count
  rw [empty?_eq]
  split_ifs
  · omega
  · rfl
  · rfl
  · rfl

end Split

/-! ## Stages -/

namespace DumpSet

variable {dumps : DumpSet} {table : Table} {rule : Rule} {users keys : KeySets}
  {disk after : Disk} {events : List Event} {result : TableResult} {failure : Failure}

/-- The log of a stage before it writes: that it begins, what it has found, and the warnings. -/
def scanLog (dumps : DumpSet) (table : Table) (dump : Dump) (warnings : List Event) :
    List Event :=
  [.shardingTable table (dumps.source table),
    .scannedRegions (dumps.source table) dump.preamble.length dump.records.length
      dump.suffix.length] ++ warnings

theorem map_heading_scanLog {dump : Dump} {warnings : List Event}
    (h : AreKeyWarnings rule dump (dumps.source table) warnings) :
    (dumps.scanLog table dump warnings).map Event.heading =
      [(.info, "sharding table"), (.debug, "scanned regions")] ++
        List.replicate warnings.length (.warn, "key already routed to the other shard") := by
  rw [scanLog, List.map_append, h.map_heading]
  rfl

/-- What a stage that succeeds on `disk` logs of its dump. -/
structure LogsSuccess (dumps : DumpSet) (table : Table) (users : KeySets) (disk : Disk)
    (events : List Event) (result : TableResult) (dump : Dump) (warnings : List Event)
    (empty? : Option Shard) : Prop where
  events_eq : events = dumps.scanLog table dump warnings ++ emptyWarnings table empty? ++
    [.tableSharded table result.records (result.count .one) (result.count .two)]
  headings : events.map Event.heading =
    [(.info, "sharding table"), (.debug, "scanned regions")] ++
      List.replicate warnings.length (.warn, "key already routed to the other shard") ++
      List.replicate (emptyWarnings table empty?).length (.warn, "shard received no records") ++
      [(.info, "table sharded")]
  warnings : AreKeyWarnings (table.rule users) dump (dumps.source table) warnings
  empty : ∀ shard, empty? = some shard ↔ result.count shard = 0
  lines : ∃ lines, disk.HoldsLines (dumps.source table) lines ∧
    dump.preamble.length + dump.records.length + dump.suffix.length = lines.length
  records : dump.records.length = result.records
  nonempty : 1 ≤ dump.records.length
  articles : table = .article → empty? ≠ some .one

/-- What a stage that fails on `disk` logs: that it begins, and no more where there is no dump;
    but it never tells that it is done. -/
structure LogsFailure (dumps : DumpSet) (table : Table) (users : KeySets) (disk : Disk)
    (events : List Event) : Prop where
  unscanned : (∀ dump, ¬ disk.HoldsDump (dumps.source table) dump) ↔
    events = [.shardingTable table (dumps.source table)]
  scanned : ∀ dump, disk.HoldsDump (dumps.source table) dump → ∃ warnings empty?,
    AreKeyWarnings (table.rule users) dump (dumps.source table) warnings ∧
      (empty? = none ∨ empty? = some .one ∧ table ≠ .article) ∧
      events = dumps.scanLog table dump warnings ++ emptyWarnings table empty?
  unfinished : (.info, "table sharded") ∉ events.map Event.heading

/-! ### Stages that succeed -/

/-- All articles go to the first shard, so that it never lacks records. -/
theorem count_one_ne_zero {dump : Dump} {split : Split}
    (hdump : disk.HoldsDump (dumps.source .article) dump)
    (h : (Table.rule users .article).split dump (dumps.source .article) = .ok split) :
    split.count .one ≠ 0 := by
  rw [(Split.count_of_byCategory h).1, ← Split.size_eq h]
  exact Nat.one_le_iff_ne_zero.1 (hdump.one_le_size h)

theorem stage_logsSuccess
    (h : (dumps.stage users table).run disk =
      { disk := after, events, result := .ok (result, keys) }) :
    ∃ dump warnings empty?,
      dumps.LogsSuccess table users disk events result dump warnings empty? := by
  rw [stage_eq] at h
  obtain ⟨split, told, told', hfind, hwrite, rfl⟩ := run_splitTable_eq_ok_iff.1 h
  obtain ⟨-, dump, hdump, hsplit, rfl⟩ := run_findSplit_eq_ok_iff.1 hfind
  obtain ⟨-, -, -, rfl, -, rfl⟩ := run_writeSplit_eq_ok_iff.1 hwrite
  have hsize := hdump.one_le_size hsplit
  have hwarnings := (table.rule users).areKeyWarnings dump (dumps.source table)
  have hrecords := Split.size_eq hsplit
  rw [← Split.emptyWarnings_empty? hsize, ← List.append_assoc]
  refine ⟨dump, ((table.rule users).routing dump (dumps.source table)).warnings
    (dumps.source table), split.empty?, ?_⟩
  exact
    { events_eq := rfl
      headings := by
        change (dumps.scanLog table dump _ ++ _ ++ [_]).map Event.heading = _
        rw [List.map_append, List.map_append, map_heading_scanLog hwarnings,
          map_heading_emptyWarnings]
        rfl
      warnings := hwarnings
      empty := fun _ => Split.empty?_eq_some_iff hsize
      lines := ⟨dump.lines, hdump.lines, by simp only [Dump.lines, List.length_append]⟩
      records := hrecords.symm
      nonempty := hrecords ▸ hsize
      articles := by
        rintro rfl hone
        exact count_one_ne_zero hdump hsplit ((Split.empty?_eq_some_iff hsize).1 hone) }

/-! ### Stages that fail -/

/-- A stage that finds no split has no dump, or has told what it has found and the warnings. -/
theorem run_findSplit_eq_error
    (h : (dumps.findSplit table rule).run disk =
      { disk := after, events, result := .error failure }) :
    (∀ dump, ¬ disk.HoldsDump (dumps.source table) dump) ∧
        events = [.shardingTable table (dumps.source table)] ∨
      ∃ dump, disk.HoldsDump (dumps.source table) dump ∧ events = dumps.scanLog table dump
        ((rule.routing dump (dumps.source table)).warnings (dumps.source table)) := by
  rcases Job.run_bind_eq_error_iff.1 h with htell | ⟨_, _, _, _, htell, hrest, rfl⟩
  · cases htell
  obtain ⟨rfl, rfl⟩ := Job.run_tell_eq_ok_iff.1 htell
  rcases Job.run_bind_eq_error_iff.1 hrest with hread | ⟨_, _, lines, _, hread, hrest', rfl⟩
  · have hsilent := congrArg Job.Outcome.events hread
    rw [Job.events_readLines] at hsilent
    refine .inl ⟨fun dump hdump => ?_, congrArg _ hsilent.symm⟩
    cases hdump.lines.symm.trans (congrArg Job.Outcome.result hread)
  obtain ⟨rfl, rfl, hlines⟩ := Disk.run_readLines_eq_ok_iff_holdsLines.1 hread
  rcases Job.run_bind_eq_error_iff.1 hrest' with hfind | ⟨_, _, dump, _, hfind, happly, rfl⟩
  · obtain ⟨flaw, hflaw, rfl⟩ := Dump.run_find_eq_error hfind
    refine .inl ⟨fun dump hdump => ?_, rfl⟩
    obtain rfl := Except.ok.inj (hlines.symm.trans hdump.lines)
    cases hflaw.symm.trans hdump.found
  · obtain ⟨rfl, hfound, rfl⟩ := Dump.run_find_eq_ok_iff.1 hfind
    obtain ⟨rfl, -⟩ := Dump.ofLines_eq_ok_iff.1 hfound
    have htold := congrArg Job.Outcome.events happly
    rw [Rule.run_apply] at htold
    obtain rfl := htold
    exact .inr ⟨dump, ⟨hlines, hfound⟩, rfl⟩

theorem logsFailure_of_unscanned (h : ∀ dump, ¬ disk.HoldsDump (dumps.source table) dump) :
    dumps.LogsFailure table users disk [.shardingTable table (dumps.source table)] where
  unscanned := iff_of_true h rfl
  scanned dump hdump := absurd hdump (h dump)
  unfinished := by simp [Event.heading, Event.level, Event.message]

theorem logsFailure_of_scanned {dump : Dump} {warnings : List Event} {empty? : Option Shard}
    (hdump : disk.HoldsDump (dumps.source table) dump)
    (hwarnings : AreKeyWarnings (table.rule users) dump (dumps.source table) warnings)
    (hempty : empty? = none ∨ empty? = some .one ∧ table ≠ .article) :
    dumps.LogsFailure table users disk
      (dumps.scanLog table dump warnings ++ emptyWarnings table empty?) where
  unscanned := iff_of_false (fun h => h dump hdump) nofun
  scanned dump' hdump' := by
    obtain rfl := hdump'.unique hdump
    exact ⟨warnings, empty?, hwarnings, hempty, rfl⟩
  unfinished := by
    rw [List.map_append, map_heading_scanLog hwarnings, map_heading_emptyWarnings]
    simp [List.mem_replicate]

theorem stage_logsFailure
    (h : (dumps.stage users table).run disk =
      { disk := after, events, result := .error failure }) :
    dumps.LogsFailure table users disk events := by
  rw [stage_eq, splitTable_eq_bind] at h
  rcases Job.run_bind_eq_error_iff.1 h with hfind | ⟨_, _, split, _, hfind, hwrite, rfl⟩
  · rcases run_findSplit_eq_error hfind with ⟨hnone, rfl⟩ | ⟨dump, hdump, rfl⟩
    · exact logsFailure_of_unscanned hnone
    · rw [← List.append_nil (dumps.scanLog _ _ _)]
      exact logsFailure_of_scanned hdump ((table.rule users).areKeyWarnings dump _) (.inl rfl)
  obtain ⟨rfl, dump, hdump, hsplit, rfl⟩ := run_findSplit_eq_ok_iff.1 hfind
  have hwarnings := (table.rule users).areKeyWarnings dump (dumps.source table)
  rcases run_writeSplit_eq_error hwrite with ⟨_, -, -, rfl⟩ | ⟨_, _, -, -, -, rfl⟩
  · exact logsFailure_of_scanned hdump hwarnings (.inl rfl)
  · split_ifs with hone
    · refine logsFailure_of_scanned hdump hwarnings (.inr ⟨rfl, ?_⟩)
      rintro rfl
      exact count_one_ne_zero hdump hsplit hone
    · exact logsFailure_of_scanned hdump hwarnings (.inl rfl)

/-! ## Runs -/

/-- The logs of the stages of `order`, one after the other, up to the first that fails. -/
def logs (dumps : DumpSet) (users : KeySets) (disk : Disk) : List Table → List (List Event)
  | [] => []
  | table :: order =>
    let outcome := (dumps.stage users table).run disk
    outcome.events ::
      match outcome.result with
      | .error _ => []
      | .ok (_, keys) => dumps.logs (table.usersAfter users keys) outcome.disk order

/-- A run logs what its stages do. -/
theorem events_splitAll (dumps : DumpSet) (disk : Disk) :
    (dumps.splitAll.run disk).events = (dumps.logs {} disk Table.all).flatten := by
  simp only [splitAll, logs, Table.all, stage, Job.events_bind, List.flatten_cons]
  congr 1
  rcases dumps.splitUsers.run disk with ⟨disk₁, _, failure | ⟨_, keys⟩⟩
  · rfl
  simp only [List.flatten_cons, Table.usersAfter]
  congr 1
  rcases dumps.splitArticles.run disk₁ with ⟨disk₂, _, failure | ⟨_, keys'⟩⟩
  · rfl
  simp only [List.flatten_cons]
  congr 1
  rcases (dumps.splitReads keys).run disk₂ with ⟨_, _, failure | _⟩ <;> rfl

/-- **The log has one shape.**  What a stage logs that succeeds is told by `LogsSuccess`, and
    what one does that fails by `LogsFailure`.  A run logs what its stages do, in order, up to
    the first that fails. -/
theorem stage_splitAll_log (dumps : DumpSet) :
    (∀ table users disk after events result keys,
      (dumps.stage users table).run disk =
        { disk := after, events, result := .ok (result, keys) } →
      ∃ dump warnings empty?,
        dumps.LogsSuccess table users disk events result dump warnings empty?) ∧
    (∀ table users disk after events failure,
      (dumps.stage users table).run disk =
        { disk := after, events, result := .error failure } →
      dumps.LogsFailure table users disk events) ∧
    ∀ disk, (dumps.splitAll.run disk).events = (dumps.logs {} disk Table.all).flatten :=
  ⟨fun _ _ _ _ _ _ _ => stage_logsSuccess, fun _ _ _ _ _ _ => stage_logsFailure,
    dumps.events_splitAll⟩

/-- A user of both regions, articles of which the second shard gets none, and read events without
    a dump. -/
theorem stage_splitAll_log_articles :
    let disk := (Disk.fresh.arrange (.ofString "user.sql")
      (some ("INSERT INTO u\n, , u, , , , , , , , \"Beijing\", ,\n" ++
        ", , u, , , , , , , , \"Hong Kong\", ;\n").toUTF8)).arrange (.ofString "article.sql")
      (some "INSERT INTO a\n, , a, , \"science\", ;\n".toUTF8)
    let dumps : DumpSet := { dir := .ofString ".", config := .default }
    (∃ after events result keys dump warnings empty?,
      (dumps.stage {} .user).run disk =
        { disk := after, events, result := .ok (result, keys) } ∧
      dumps.LogsSuccess .user {} disk events result dump warnings empty? ∧
      Event.warnedKeys events = ["u"]) ∧
    (∃ after events result keys dump warnings empty?,
      (dumps.stage {} .article).run disk =
        { disk := after, events, result := .ok (result, keys) } ∧
      dumps.LogsSuccess .article {} disk events result dump warnings empty?) ∧
    ∃ after events failure,
      (dumps.stage {} .userRead).run disk = { disk := after, events, result := .error failure } ∧
      dumps.LogsFailure .userRead {} disk events := by
  intro disk dumps
  obtain ⟨hsuccess, hfailure, -⟩ := stage_splitAll_log dumps
  refine ⟨?_, ?_, ?_⟩
  · have ⟨hok, hkeys⟩ : ((dumps.stage {} .user).run disk).result.isOk ∧
        Event.warnedKeys ((dumps.stage {} .user).run disk).events = ["u"] := by decide +kernel
    obtain ⟨after, events, ⟨result, keys⟩, hrun⟩ := Job.exists_run_eq_ok hok
    rw [hrun] at hkeys
    obtain ⟨dump, warnings, empty?, hlogs⟩ :=
      hsuccess .user {} disk after events result keys hrun
    exact ⟨after, events, result, keys, dump, warnings, empty?, hrun, hlogs, hkeys⟩
  · have hok : ((dumps.stage {} .article).run disk).result.isOk := by decide +kernel
    obtain ⟨after, events, ⟨result, keys⟩, hrun⟩ := Job.exists_run_eq_ok hok
    obtain ⟨dump, warnings, empty?, hlogs⟩ :=
      hsuccess .article {} disk after events result keys hrun
    exact ⟨after, events, result, keys, dump, warnings, empty?, hrun, hlogs⟩
  · have hfails : ((dumps.stage {} .userRead).run disk).result.isOk = false := by decide +kernel
    obtain ⟨after, events, failure, hrun⟩ := Job.exists_run_eq_error hfails
    exact ⟨after, events, failure, hrun,
      hfailure .userRead {} disk after events failure hrun⟩

end DumpSet

end DumpSplit
