/-
  What a stage has done that succeeded: it has found a dump, split it by its rule, and
  written what each shard gets; nothing else has changed.  A run that succeeded has done its
  stages one after the other.
-/
import DumpSplit.DumpSet
import DumpSplit.Proofs.Framing
import DumpSplit.Proofs.Jobs
import DumpSplit.Proofs.Places
import DumpSplit.Proofs.Shares

namespace DumpSplit

/-- The rule by which a table is split. -/
def Table.rule (users : KeySets) : Table → Rule
  | user => .byRegion
  | article => .byCategory
  | userRead => .byUser users

/-- The keys of the users after a stage that has given `keys`. -/
def Table.usersAfter (users keys : KeySets) : Table → KeySets
  | user => keys
  | article | userRead => users

/-- What a stage that succeeds tells. -/
structure Told where
  events : List Event
  result : TableResult
  keys : KeySets

/-- What comes of a stage that tells `told` and leaves `after`. -/
def Told.outcome (told : Told) (after : Disk) : Job.Outcome Failure (TableResult × KeySets) :=
  { disk := after, events := told.events, result := .ok (told.result, told.keys) }

variable {disk after : Disk} {events : List Event} {source path : Path} {table : Table}
  {rule : Rule} {dump : Dump} {split : Split} {shard : Shard}

/-- The file at `path` holds a dump. -/
structure Disk.HoldsDump (disk : Disk) (path : Path) (dump : Dump) : Prop where
  lines : disk.HoldsLines path dump.lines
  found : Dump.ofLines dump.lines = .ok dump

namespace Disk.HoldsDump

theorem unique {dump' : Dump} (h : disk.HoldsDump path dump) (h' : disk.HoldsDump path dump') :
    dump = dump' := by
  have hlines : dump.lines = dump'.lines := Except.ok.inj (h.lines.symm.trans h'.lines)
  exact Except.ok.inj (h.found.symm.trans (hlines ▸ h'.found))

theorem of_read_eq {disk' : Disk} (h : disk.HoldsDump path dump)
    (hread : disk'.read path = disk.read path) : disk'.HoldsDump path dump := by
  refine ⟨?_, h.found⟩
  rw [Disk.holdsLines_iff, hread]
  exact Disk.holdsLines_iff.1 h.lines

variable (hdump : disk.HoldsDump path dump) (h : rule.split dump source = .ok split)
include hdump h

/-- What a shard gets of a dump in a file is again the lines of a file. -/
theorem areLines_lines (shard : Shard) : Text.AreLines (split.lines shard) :=
  hdump.lines.areLines.sublist (Split.lines_sublist h shard)

theorem lines_ne_nil (shard : Shard) : split.lines shard ≠ [] := by
  rw [Split.lines_eq h]
  simp [(Dump.ofLines_eq_ok_iff.1 hdump.found).2.1.ne_nil]

theorem one_le_size : 1 ≤ split.size := by
  rw [Split.size_eq h]
  exact List.length_pos_iff.2 (Dump.ofLines_eq_ok_iff.1 hdump.found).2.2.ne_nil

end Disk.HoldsDump

/-- A dump outside the places where two disks differ. -/
theorem Disk.SameOutside.holdsDump_iff {places : Set Place} (h : disk.SameOutside places after)
    (hplace : ∀ place, disk.resolve path = .ok place → place ∉ places) :
    after.HoldsDump path dump ↔ disk.HoldsDump path dump :=
  ⟨fun hdump => ⟨(h.holdsLines_iff hplace).1 hdump.lines, hdump.found⟩,
    fun hdump => ⟨(h.holdsLines_iff hplace).2 hdump.lines, hdump.found⟩⟩

/-! ## Parts of a stage -/

theorem Dump.run_find_eq_ok_iff {lines : List String} :
    (Dump.find source lines).run disk = { disk := after, events, result := .ok dump } ↔
      after = disk ∧ Dump.ofLines lines = .ok dump ∧
        events = [.scannedRegions source dump.preamble.length dump.records.length
          dump.suffix.length] := by
  unfold Dump.find
  cases Dump.ofLines lines with
  | error flaw => simp [Job.run]
  | ok dump' =>
    simp only [Job.run, Job.Outcome.mk.injEq, Except.ok.injEq]
    constructor
    · rintro ⟨rfl, rfl, rfl⟩; exact ⟨rfl, rfl, rfl⟩
    · rintro ⟨rfl, rfl, rfl⟩; exact ⟨rfl, rfl, rfl⟩

theorem Dump.run_find_eq_error {lines : List String} {failure : Failure}
    (h : (Dump.find source lines).run disk =
      { disk := after, events, result := .error failure }) :
    ∃ flaw, Dump.ofLines lines = .error flaw ∧ events = [] := by
  unfold Dump.find at h
  split at h
  · cases h
    exact ⟨_, ‹_›, rfl⟩
  · cases h

theorem Rule.run_apply (rule : Rule) (dump : Dump) (source : Path) (disk : Disk) :
    (rule.apply dump source).run disk =
      { disk, events := (rule.routing dump source).warnings source,
        result := rule.split dump source } := by
  rw [Rule.apply, Job.run_bind_of_ok (Job.run_tellAll _ disk), Job.run_ofExcept, List.append_nil]

theorem Rule.run_apply_eq_ok_iff :
    (rule.apply dump source).run disk = { disk := after, events, result := .ok split } ↔
      after = disk ∧ rule.split dump source = .ok split ∧
        events = (rule.routing dump source).warnings source := by
  rw [Rule.run_apply, Job.Outcome.mk.injEq]
  constructor
  · rintro ⟨rfl, rfl, hsplit⟩; exact ⟨rfl, hsplit, rfl⟩
  · rintro ⟨rfl, hsplit, rfl⟩; exact ⟨rfl, rfl, hsplit⟩

theorem Split.run_write_eq_ok_iff {u : Unit} :
    (split.write table shard path).run disk = { disk := after, events, result := .ok u } ↔
      disk.write path (String.join (split.lines shard)).toUTF8 = (after, .ok ()) ∧
        events = if split.count shard = 0 then [.shardEmpty table shard] else [] := by
  simp only [Split.write, Job.run_bind_eq_ok_iff, Job.run_writeLines_eq_ok_iff]
  split_ifs
  · simp only [Job.run_tell_eq_ok_iff]
    constructor
    · rintro ⟨_, _, _, _, ⟨hwrite, rfl⟩, ⟨rfl, rfl⟩, rfl⟩; exact ⟨hwrite, rfl⟩
    · rintro ⟨hwrite, rfl⟩; exact ⟨_, _, (), _, ⟨hwrite, rfl⟩, ⟨rfl, rfl⟩, rfl⟩
  · simp only [Job.run_pure_eq_ok_iff]
    constructor
    · rintro ⟨_, _, _, _, ⟨hwrite, rfl⟩, ⟨rfl, rfl, -⟩, rfl⟩; exact ⟨hwrite, rfl⟩
    · rintro ⟨hwrite, rfl⟩; exact ⟨_, _, (), _, ⟨hwrite, rfl⟩, ⟨rfl, rfl, trivial⟩, rfl⟩

theorem Dump.writesOnly_find (source : Path) (lines : List String) {paths : Set Path} :
    (Dump.find source lines).WritesOnly paths := by
  unfold Dump.find
  split <;> trivial

theorem Rule.writesOnly_apply (rule : Rule) (dump : Dump) (source : Path) {paths : Set Path} :
    (rule.apply dump source).WritesOnly paths :=
  .bind (Job.writesOnly_tellAll _) fun _ => Job.writesOnly_ofExcept _

theorem Split.writesOnly_write {paths : Set Path} (h : path ∈ paths) :
    (split.write table shard path).WritesOnly paths := by
  refine .bind (Job.writesOnly_writeLines h _) fun _ => ?_
  split_ifs <;> trivial

/-! ## Stages -/

namespace DumpSet

variable {dumps : DumpSet} {result : TableResult} {keys : KeySets}

/-- What a stage does before it writes: it reads the dump and gives every record its route. -/
def findSplit (dumps : DumpSet) (table : Table) (rule : Rule) : Job Failure Split := do
  .tell (.shardingTable table (dumps.source table))
  let dump ← Dump.find (dumps.source table) (← Job.readLines (dumps.source table))
  rule.apply dump (dumps.source table)

/-- What a stage does when every record has its route: it writes both files and tells of them. -/
def writeSplit (dumps : DumpSet) (table : Table) (split : Split) :
    Job Failure (TableResult × KeySets) := do
  split.write table .one (dumps.output table .one)
  split.write table .two (dumps.output table .two)
  .tell (.tableSharded table split.size (split.count .one) (split.count .two))
  return ({ table, source := dumps.source table, output := dumps.output table,
            records := split.size, count := split.count }, split.keys)

theorem splitTable_eq_bind (dumps : DumpSet) (table : Table) (rule : Rule) :
    dumps.splitTable table rule = dumps.findSplit table rule >>= dumps.writeSplit table := by
  simp only [splitTable, findSplit, Job.bind_assoc]
  rfl

theorem run_findSplit_eq_ok_iff :
    (dumps.findSplit table rule).run disk = { disk := after, events, result := .ok split } ↔
      after = disk ∧ ∃ dump, disk.HoldsDump (dumps.source table) dump ∧
        rule.split dump (dumps.source table) = .ok split ∧
        events =
          [.shardingTable table (dumps.source table),
            .scannedRegions (dumps.source table) dump.preamble.length dump.records.length
              dump.suffix.length] ++
          (rule.routing dump (dumps.source table)).warnings (dumps.source table) := by
  simp only [findSplit, Job.run_bind_eq_ok_iff, Job.run_tell_eq_ok_iff,
    Disk.run_readLines_eq_ok_iff_holdsLines, Dump.run_find_eq_ok_iff, Rule.run_apply_eq_ok_iff]
  constructor
  · rintro ⟨_, _, _, _, ⟨rfl, rfl⟩, ⟨_, _, lines, _, ⟨rfl, rfl, hlines⟩,
      ⟨_, _, dump, _, ⟨rfl, hdump, rfl⟩, ⟨rfl, hsplit, rfl⟩, rfl⟩, rfl⟩, rfl⟩
    obtain ⟨rfl, -⟩ := Dump.ofLines_eq_ok_iff.1 hdump
    exact ⟨rfl, dump, ⟨hlines, hdump⟩, hsplit, by simp⟩
  · rintro ⟨rfl, dump, hdump, hsplit, rfl⟩
    exact ⟨_, _, (), _, ⟨rfl, rfl⟩, ⟨_, _, _, _, ⟨rfl, rfl, hdump.lines⟩,
      ⟨_, _, dump, _, ⟨rfl, hdump.found, rfl⟩, ⟨rfl, hsplit, rfl⟩, rfl⟩, rfl⟩, by simp⟩

theorem run_writeSplit_eq_ok_iff :
    (dumps.writeSplit table split).run disk =
        { disk := after, events, result := .ok (result, keys) } ↔
      ∃ between,
        disk.write (dumps.output table .one) (String.join (split.lines .one)).toUTF8 =
          (between, .ok ()) ∧
        between.write (dumps.output table .two) (String.join (split.lines .two)).toUTF8 =
          (after, .ok ()) ∧
        result =
          { table, source := dumps.source table, output := dumps.output table,
            records := split.size, count := split.count } ∧
        keys = split.keys ∧
        events =
          (if split.count .one = 0 then [.shardEmpty table .one] else []) ++
          (if split.count .two = 0 then [.shardEmpty table .two] else []) ++
          [.tableSharded table split.size (split.count .one) (split.count .two)] := by
  simp only [writeSplit, Job.run_bind_eq_ok_iff, Split.run_write_eq_ok_iff,
    Job.run_tell_eq_ok_iff, Job.run_pure_eq_ok_iff, Prod.mk.injEq]
  constructor
  · rintro ⟨between, _, _, _, ⟨hone, rfl⟩, ⟨_, _, _, _, ⟨htwo, rfl⟩,
      ⟨_, _, _, _, ⟨rfl, rfl⟩, ⟨rfl, rfl, hresult, hkeys⟩, rfl⟩, rfl⟩, rfl⟩
    exact ⟨between, hone, htwo, hresult, hkeys, by simp⟩
  · rintro ⟨between, hone, htwo, hresult, hkeys, rfl⟩
    exact ⟨between, _, (), _, ⟨hone, rfl⟩, ⟨_, _, (), _, ⟨htwo, rfl⟩,
      ⟨_, _, (), _, ⟨rfl, rfl⟩, ⟨rfl, rfl, hresult, hkeys⟩, rfl⟩, rfl⟩, by simp⟩

theorem run_splitTable_eq_ok_iff :
    (dumps.splitTable table rule).run disk =
        { disk := after, events, result := .ok (result, keys) } ↔
      ∃ split told told',
        (dumps.findSplit table rule).run disk = { disk, events := told, result := .ok split } ∧
        (dumps.writeSplit table split).run disk =
          { disk := after, events := told', result := .ok (result, keys) } ∧
        events = told ++ told' := by
  rw [splitTable_eq_bind, Job.run_bind_eq_ok_iff]
  constructor
  · rintro ⟨_, told, split, told', hfind, hwrite, hevents⟩
    obtain ⟨rfl, -⟩ := run_findSplit_eq_ok_iff.1 hfind
    exact ⟨split, told, told', hfind, hwrite, hevents⟩
  · rintro ⟨split, told, told', hfind, hwrite, hevents⟩
    exact ⟨disk, told, split, told', hfind, hwrite, hevents⟩

theorem findSplit_writesOnly (dumps : DumpSet) (table : Table) (rule : Rule) :
    (dumps.findSplit table rule).WritesOnly ∅ := by
  refine .bind (Job.writesOnly_tell _) fun _ => .bind (Job.writesOnly_readLines _) fun _ => ?_
  exact .bind (Dump.writesOnly_find _ _) fun _ => Rule.writesOnly_apply _ _ _

/-- A stage writes to the two files of its table and nowhere else. -/
theorem splitTable_writesOnly (dumps : DumpSet) (table : Table) (rule : Rule) :
    (dumps.splitTable table rule).WritesOnly {path | ∃ shard, path = dumps.output table shard} := by
  rw [splitTable_eq_bind]
  refine .bind ((dumps.findSplit_writesOnly table rule).mono fun _ hmem => absurd hmem id) fun _ => ?_
  refine .bind (Split.writesOnly_write ⟨_, rfl⟩) fun _ => ?_
  refine .bind (Split.writesOnly_write ⟨_, rfl⟩) fun _ => ?_
  exact .bind (Job.writesOnly_tell _) fun _ => trivial

/-- The places of the files of a table. -/
def outputPlaces (dumps : DumpSet) (table : Table) (disk : Disk) : Set Place :=
  {place | ∃ shard, disk.resolve (dumps.output table shard) = .ok place}

theorem splitTable_sameButFiles (dumps : DumpSet) (table : Table) (rule : Rule) (disk : Disk) :
    disk.SameButFiles (dumps.outputPlaces table disk)
      ((dumps.splitTable table rule).run disk).disk := by
  refine ((dumps.splitTable_writesOnly table rule).sameButFiles disk).mono ?_
  rintro place ⟨_, ⟨shard, rfl⟩, hplace⟩
  exact ⟨shard, hplace⟩

/-- The disk `after` is what is left when a table has been split on `disk`: the files of
    its shards hold what its dump gives them, and all else is as it was. -/
structure HasSplit (dumps : DumpSet) (table : Table) (rule : Rule) (disk after : Disk)
    (dump : Dump) (split : Split) : Prop where
  source : disk.HoldsDump (dumps.source table) dump
  accepted : rule.split dump (dumps.source table) = .ok split
  output : ∀ shard, disk.Keeps (dumps.output table shard) →
    after.HoldsLines (dumps.output table shard) (split.lines shard)
  outside : disk.SameOutside (dumps.outputPlaces table disk) after

/-- The second write leads elsewhere, so that it leaves the file of the first shard alone. -/
theorem holdsLines_first {between : Disk} {dump : Dump} {content : ByteArray}
    {answer : Except WriteFault Unit} (hdump : disk.HoldsDump (dumps.source table) dump)
    (hsplit : rule.split dump (dumps.source table) = .ok split)
    (hone : disk.write (dumps.output table .one) (String.join (split.lines .one)).toUTF8 =
      (between, .ok ()))
    (htwo : between.write (dumps.output table .two) content = (after, answer))
    (hkeeps : disk.Keeps (dumps.output table .one)) :
    after.HoldsLines (dumps.output table .one) (split.lines .one) := by
  refine ((Disk.sameOutside_of_write htwo).holdsLines_iff fun place hplace hmem => ?_).2
    (Disk.holdsLines_write hone hkeeps (hdump.areLines_lines hsplit .one)
      (hdump.lines_ne_nil hsplit .one))
  cases Shard.resolve_path_injective hplace hmem

/-- **A stage that succeeds has split its table.** -/
theorem splitTable_hasSplit
    (h : (dumps.splitTable table rule).run disk =
      { disk := after, events, result := .ok (result, keys) }) :
    ∃ dump split, dumps.HasSplit table rule disk after dump split ∧ keys = split.keys ∧
      result =
        { table, source := dumps.source table, output := dumps.output table,
          records := split.size, count := split.count } := by
  have houtside := (dumps.splitTable_sameButFiles table rule disk).sameOutside
  rw [h] at houtside
  obtain ⟨split, _, _, hfind, hwrite, -⟩ := run_splitTable_eq_ok_iff.1 h
  obtain ⟨-, dump, hdump, hsplit, -⟩ := run_findSplit_eq_ok_iff.1 hfind
  obtain ⟨between, hone, htwo, rfl, rfl, -⟩ := run_writeSplit_eq_ok_iff.1 hwrite
  refine ⟨dump, split, ⟨hdump, hsplit, fun shard hkeeps => ?_, houtside⟩, rfl, rfl⟩
  cases shard with
  | one => exact holdsLines_first hdump hsplit hone htwo hkeeps
  | two =>
    have hkeeps' : between.Keeps (dumps.output table .two) := by
      refine ((Disk.sameOutside_of_write hone).keeps_iff fun place hplace hmem => ?_).2 hkeeps
      cases Shard.resolve_path_injective hplace hmem
    exact Disk.holdsLines_write htwo hkeeps' (hdump.areLines_lines hsplit .two)
      (hdump.lines_ne_nil hsplit .two)

/-- What a stage tells of its dump. -/
def tells (dumps : DumpSet) (table : Table) (rule : Rule) (dump : Dump) (split : Split) : Told where
  events :=
    [.shardingTable table (dumps.source table),
      .scannedRegions (dumps.source table) dump.preamble.length dump.records.length
        dump.suffix.length] ++
    (rule.routing dump (dumps.source table)).warnings (dumps.source table) ++
    ((if split.count .one = 0 then [.shardEmpty table .one] else []) ++
      (if split.count .two = 0 then [.shardEmpty table .two] else []) ++
      [.tableSharded table split.size (split.count .one) (split.count .two)])
  result :=
    { table, source := dumps.source table, output := dumps.output table,
      records := split.size, count := split.count }
  keys := split.keys

theorem eq_tells_of_run {told : Told}
    (h : (dumps.splitTable table rule).run disk = told.outcome after)
    (hsplit : dumps.HasSplit table rule disk after dump split) :
    told = dumps.tells table rule dump split := by
  obtain ⟨events, result, keys⟩ := told
  obtain ⟨split', _, _, hfind, hwrite, rfl⟩ := run_splitTable_eq_ok_iff.1 h
  obtain ⟨-, dump', hdump, haccepted, rfl⟩ := run_findSplit_eq_ok_iff.1 hfind
  obtain ⟨_, -, -, rfl, rfl, rfl⟩ := run_writeSplit_eq_ok_iff.1 hwrite
  obtain rfl : dump' = dump := hdump.unique hsplit.source
  obtain rfl : split' = split := Except.ok.inj (haccepted.symm.trans hsplit.accepted)
  rfl

theorem sameButFiles_of_run {told : Told}
    (h : (dumps.splitTable table rule).run disk = told.outcome after) :
    disk.SameButFiles (dumps.outputPlaces table disk) after := by
  have hsame := dumps.splitTable_sameButFiles table rule disk
  rwa [h] at hsame

/-! ## The stages of the three tables -/

/-- The stage of a table; the read events are split by the keys of the users. -/
def stage (dumps : DumpSet) (users : KeySets) : Table → Job Failure (TableResult × KeySets)
  | .user => dumps.splitUsers
  | .article => dumps.splitArticles
  | .userRead => dumps.splitReads users

theorem stage_eq (dumps : DumpSet) (users : KeySets) (table : Table) :
    dumps.stage users table = dumps.splitTable table (table.rule users) := by
  cases table <;> rfl

/-! ## Runs of stages -/

variable {told : Table → Told} {users : KeySets} {order : List Table}

/-- The stages of `order` succeed one after the other, from `disk` to `after`, and each of them
    tells what `told` says.  The keys of the users are `users` until their stage gives them. -/
inductive Runs (dumps : DumpSet) (told : Table → Told) : KeySets → Disk → List Table → Disk → Prop
  | nil (users : KeySets) (disk : Disk) : dumps.Runs told users disk [] disk
  | cons {users : KeySets} {disk between after : Disk} {table : Table} {order : List Table} :
    (dumps.stage users table).run disk = (told table).outcome between →
    dumps.Runs told (table.usersAfter users (told table).keys) between order after →
    dumps.Runs told users disk (table :: order) after

theorem runs_cons_iff :
    dumps.Runs told users disk (table :: order) after ↔ ∃ between,
      (dumps.stage users table).run disk = (told table).outcome between ∧
        dumps.Runs told (table.usersAfter users (told table).keys) between order after := by
  constructor
  · rintro (_ | ⟨hrun, h⟩); exact ⟨_, hrun, h⟩
  · rintro ⟨_, hrun, h⟩; exact .cons hrun h

theorem run_splitAll_eq_ok_iff {events : List Event} {summary : Summary} :
    dumps.splitAll.run disk = { disk := after, events, result := .ok summary } ↔
      ∃ told, dumps.Runs told {} disk Table.all after ∧
        events = Table.all.flatMap (fun table => (told table).events) ∧
        summary = .ofTables (Table.all.map fun table => (told table).result) (told .user).keys := by
  unfold splitAll
  constructor
  · intro h
    replace h := Job.run_bind_eq_ok_iff.1 h
    obtain ⟨_, eventsU, ⟨resultU, keysU⟩, _, husers, h, rfl⟩ := h
    replace h := Job.run_bind_eq_ok_iff.1 h
    obtain ⟨_, eventsA, ⟨resultA, keysA⟩, _, harticles, h, rfl⟩ := h
    replace h := Job.run_bind_eq_ok_iff.1 h
    obtain ⟨_, eventsR, ⟨resultR, keysR⟩, _, hreads, h, rfl⟩ := h
    obtain ⟨rfl, rfl, rfl⟩ := Job.run_pure_eq_ok_iff.1 h
    let told : Table → Told
      | .user => ⟨eventsU, resultU, keysU⟩
      | .article => ⟨eventsA, resultA, keysA⟩
      | .userRead => ⟨eventsR, resultR, keysR⟩
    exact ⟨told, .cons husers (.cons harticles (.cons hreads (.nil _ _))), rfl, rfl⟩
  · rintro ⟨told, h, rfl, rfl⟩
    obtain ⟨disk₁, husers, h⟩ := runs_cons_iff.1 h
    obtain ⟨disk₂, harticles, h⟩ := runs_cons_iff.1 h
    obtain ⟨_, hreads, h⟩ := runs_cons_iff.1 h
    cases h
    refine Job.run_bind_eq_ok_iff.2 ⟨_, _, _, _, husers, ?_, rfl⟩
    refine Job.run_bind_eq_ok_iff.2 ⟨_, _, _, _, harticles, ?_, rfl⟩
    refine Job.run_bind_eq_ok_iff.2 ⟨_, _, _, _, hreads, ?_, rfl⟩
    exact Job.run_pure_eq_ok_iff.2 ⟨rfl, rfl, rfl⟩

/-- A run that succeeds has split the three tables one after the other. -/
theorem splitAll_hasSplit {summary : Summary}
    (h : dumps.splitAll.run disk = { disk := after, events, result := .ok summary }) :
    ∃ disk₁ disk₂ users articles reads usersSplit articlesSplit readsSplit,
      dumps.HasSplit .user .byRegion disk disk₁ users usersSplit ∧
      dumps.HasSplit .article .byCategory disk₁ disk₂ articles articlesSplit ∧
      dumps.HasSplit .userRead (.byUser usersSplit.keys) disk₂ after reads readsSplit := by
  obtain ⟨told, hruns, -, -⟩ := run_splitAll_eq_ok_iff.1 h
  obtain ⟨disk₁, hrun, hruns⟩ := runs_cons_iff.1 hruns
  obtain ⟨users, usersSplit, husers, hkeys, -⟩ := splitTable_hasSplit hrun
  obtain ⟨disk₂, hrun, hruns⟩ := runs_cons_iff.1 hruns
  obtain ⟨articles, articlesSplit, harticles, -⟩ := splitTable_hasSplit hrun
  obtain ⟨_, hrun, hruns⟩ := runs_cons_iff.1 hruns
  cases hruns
  obtain ⟨reads, readsSplit, hreads, -⟩ := splitTable_hasSplit hrun
  exact ⟨disk₁, disk₂, users, articles, reads, usersSplit, articlesSplit, readsSplit,
    husers, harticles, hkeys ▸ hreads⟩

end DumpSet

end DumpSplit
