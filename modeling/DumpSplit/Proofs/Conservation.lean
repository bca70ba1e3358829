/-
  Nothing is lost, doubled, moved or altered where a rule sends each record to one shard:
  the files of the two shards, read again, deal out the records of the dump.
-/
import DumpSplit.Disk.Arrange
import DumpSplit.Proofs.Lists
import DumpSplit.Proofs.Rules
import DumpSplit.Proofs.Stages

namespace DumpSplit

theorem Table.rule_exclusive (users : KeySets) {table : Table} (h : table ≠ .article) :
    (table.rule users).Exclusive := by
  cases table with
  | user => exact Rule.byRegion_exclusive
  | article => exact absurd rfl h
  | userRead => exact Rule.byUser_exclusive users

theorem Split.interleaves {rule : Rule} {dump : Dump} {source : Path} {split : Split}
    (hrule : rule.Exclusive) (h : rule.split dump source = .ok split) :
    Interleaves (split.recordsOf .one) (split.recordsOf .two) dump.records := by
  have htwo : split.routed.filter (·.route.reaches .two) =
      split.routed.filter (!·.route.reaches .one) := by
    refine List.filter_congr fun r hr => ?_
    rcases hroute : r.route with ⟨_ | _⟩ | _
    · rfl
    · rfl
    · exact absurd (hroute ▸ route_eq h hr) (hrule _ _)
  rw [recordsOf, recordsOf, htwo, ← map_line_routed h]
  exact (Interleaves.filter_not _ _).map _

theorem Split.count_add_count_of_exclusive {rule : Rule} {dump : Dump} {source : Path}
    {split : Split} (hrule : rule.Exclusive) (h : rule.split dump source = .ok split) :
    split.count .one + split.count .two = split.size := by
  rw [count_eq_length, count_eq_length, (interleaves hrule h).length, size_eq h]

/-! ## Stages -/

namespace DumpSet

/-- The dump of a table on `disk` is dealt out to the files of its shards on `after`: they
    hold its frame, and between them each of its records, in order. -/
structure Deals (dumps : DumpSet) (table : Table) (disk after : Disk) (dump : Dump)
    (share : Shard → List String) : Prop where
  source : disk.HoldsDump (dumps.source table) dump
  output : ∀ shard, disk.Keeps (dumps.output table shard) →
    after.HoldsLines (dumps.output table shard) (dump.preamble ++ share shard ++ dump.suffix)
  records : Interleaves (share .one) (share .two) dump.records

/-- The numbers that are told of a dump that is dealt out. -/
structure Tells (result : TableResult) (dump : Dump) (share : Shard → List String) : Prop where
  records : result.records = dump.records.length
  count : ∀ shard, result.count shard = (share shard).length
  sum : result.count .one + result.count .two = result.records

variable {dumps : DumpSet} {table : Table} {rule : Rule} {disk after : Disk} {dump : Dump}
  {split : Split}

theorem HasSplit.deals (h : dumps.HasSplit table rule disk after dump split)
    (hrule : rule.Exclusive) : dumps.Deals table disk after dump split.recordsOf where
  source := h.source
  output shard hkeeps := Split.lines_eq_recordsOf h.accepted shard ▸ h.output shard hkeeps
  records := Split.interleaves hrule h.accepted

theorem splitTable_deals {events : List Event} {result : TableResult} {keys : KeySets}
    (hrule : rule.Exclusive)
    (h : (dumps.splitTable table rule).run disk =
      { disk := after, events, result := .ok (result, keys) }) :
    ∃ dump share, dumps.Deals table disk after dump share ∧ Tells result dump share := by
  obtain ⟨dump, split, hsplit, -, rfl⟩ := splitTable_hasSplit h
  have hdeals := hsplit.deals hrule
  exact ⟨dump, split.recordsOf, hdeals, Split.size_eq hsplit.accepted, split.count_eq_length,
    Split.count_add_count_of_exclusive hrule hsplit.accepted⟩

/-- **Users and read events are dealt out**, whatever the keys are by which the read events
    are split. -/
theorem splitUsers_splitReads_deal (dumps : DumpSet) (disk after : Disk) (events : List Event)
    (result : TableResult) (keys : KeySets) :
    (dumps.splitUsers.run disk = { disk := after, events, result := .ok (result, keys) } →
      ∃ dump share, dumps.Deals .user disk after dump share ∧ Tells result dump share) ∧
    ∀ users,
      (dumps.splitReads users).run disk = { disk := after, events, result := .ok (result, keys) } →
        ∃ dump share, dumps.Deals .userRead disk after dump share ∧ Tells result dump share :=
  ⟨splitTable_deals Rule.byRegion_exclusive,
    fun users => splitTable_deals (Rule.byUser_exclusive users)⟩

/-- Two users, of whom one comes twice, and the read events of one, each on lines of which
    the last has no line feed. -/
theorem splitUsers_splitReads_deal_twice :
    let row := ", , u, , , , , , , , \"Beijing\", ,\n"
    let user := "INSERT INTO u\n" ++ row ++ row ++ ", , v, , , , , , , , \"Hong Kong\", ;"
    let disk := (Disk.fresh.arrange (.ofString "user.sql") (some user.toUTF8)).arrange
      (.ofString "user_read.sql") (some "INSERT INTO r\n, , u, ,\n, , u, ;".toUTF8)
    let dumps : DumpSet := { dir := .ofString ".", config := .default }
    let users := KeySets.add {} (.only .one) "u"
    (∀ table shard, disk.Keeps (dumps.output table shard)) ∧
      (∃ after events result keys dump share,
        dumps.splitUsers.run disk = { disk := after, events, result := .ok (result, keys) } ∧
        dumps.Deals .user disk after dump share ∧ Tells result dump share) ∧
      ∃ after events result keys dump share,
        (dumps.splitReads users).run disk =
          { disk := after, events, result := .ok (result, keys) } ∧
        dumps.Deals .userRead disk after dump share ∧ Tells result dump share := by
  intro row user disk dumps users
  refine ⟨fun table shard => by cases table <;> cases shard <;> decide +kernel, ?_, ?_⟩
  · have hok : (dumps.splitUsers.run disk).result.isOk := by decide +kernel
    obtain ⟨after, events, ⟨result, keys⟩, hrun⟩ := Job.exists_run_eq_ok hok
    obtain ⟨dump, share, hdeals⟩ :=
      (splitUsers_splitReads_deal dumps disk after events result keys).1 hrun
    exact ⟨after, events, result, keys, dump, share, hrun, hdeals⟩
  · have hok : ((dumps.splitReads users).run disk).result.isOk := by decide +kernel
    obtain ⟨after, events, ⟨result, keys⟩, hrun⟩ := Job.exists_run_eq_ok hok
    obtain ⟨dump, share, hdeals⟩ :=
      (splitUsers_splitReads_deal dumps disk after events result keys).2 users hrun
    exact ⟨after, events, result, keys, dump, share, hrun, hdeals⟩

end DumpSet

end DumpSplit
