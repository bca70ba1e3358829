/-
  What a shard has got of a dump, split once more by the same rule: since each record is sent
  where its own column says, the shard gets all of it again.
-/
import DumpSplit.Proofs.Articles
import DumpSplit.Proofs.Columns
import DumpSplit.Proofs.Conservation
import DumpSplit.Proofs.Excerpts
import DumpSplit.Proofs.Warnings

namespace DumpSplit

/-- A shard of one split has got what a shard of another one has. -/
structure Split.SameShare (split : Split) (shard : Shard) (split' : Split) (shard' : Shard) :
    Prop where
  records : split.recordsOf shard = split'.recordsOf shard'
  lines : split.lines shard = split'.lines shard'
  count : split.count shard = split'.count shard'
  keys : split.keys.of shard = split'.keys.of shard'

namespace Split

theorem sameShare_of_recordsOf_eq {rule : Rule} {dump dump' : Dump} {source source' : Path}
    {split split' : Split} {shard shard' : Shard} (h : rule.split dump source = .ok split)
    (h' : rule.split dump' source' = .ok split') (hpre : dump.preamble = dump'.preamble)
    (hsuf : dump.suffix = dump'.suffix)
    (hrecords : split.recordsOf shard = split'.recordsOf shard') :
    split.SameShare shard split' shard' where
  records := hrecords
  lines := by rw [lines_eq_recordsOf h, lines_eq_recordsOf h', hpre, hsuf, hrecords]
  count := by rw [count_eq_length, count_eq_length, hrecords]
  keys := Std.ExtTreeSet.ext_mem fun key => mem_keys_congr h h' (by simp [hrecords]) key

section
variable {rule : Rule} {dump : Dump} {source : Path} {split : Split} {shard : Shard}
  (h : rule.split dump source = .ok split)
include h

/-- A shard without records gets the frame of the dump and no keys. -/
theorem empty_of_recordsOf_eq_nil (hnil : split.recordsOf shard = []) :
    split.lines shard = dump.preamble ++ dump.suffix ∧ split.count shard = 0 ∧
      split.keys.of shard = ∅ := by
  refine ⟨by rw [lines_eq_recordsOf h, hnil, List.append_nil], by rw [count_eq_length, hnil]; rfl, ?_⟩
  rw [Std.ExtTreeSet.eq_empty_iff_forall_not_mem]
  intro key hkey
  obtain ⟨line, hline, -⟩ := (mem_keys_iff_recordsOf h).1 hkey
  rw [hnil] at hline
  exact absurd hline List.not_mem_nil

/-- Nothing is warned of where one shard has no keys. -/
theorem warnings_eq_nil_of_keys_eq_empty (hkeys : split.keys.of shard = ∅) :
    (rule.routing dump source).warnings source = [] := by
  refine warnings_eq_nil h fun key hkey => ?_
  have hmem : ∀ shard, key ∈ split.keys.of shard := fun shard => by
    obtain ⟨hone, htwo⟩ := KeySets.mem_shared.1 hkey
    cases shard <;> assumption
  have hshard := hmem shard
  rw [hkeys] at hshard
  exact absurd hshard Std.ExtTreeSet.not_mem_empty

end

/-! ## The part of a shard -/

variable {users : KeySets} {table : Table} {dump : Dump} {source elsewhere : Path}
  {split again : Split} {shard : Shard}
  (h : (table.rule users).split dump source = .ok split)
include h

theorem records_part :
    ((table.rule users).part dump source shard).records = split.recordsOf shard :=
  (recordsOf_eq h shard).symm

/-- A table accepts every part of a dump that it accepts. -/
theorem exists_split_part (shard : Shard) (elsewhere : Path) : ∃ again,
    (table.rule users).split ((table.rule users).part dump source shard) elsewhere = .ok again := by
  have haccepts := Table.exists_split_eq_ok_iff_accepts.1 ⟨split, h⟩
  refine Table.exists_split_eq_ok_iff_accepts.2 fun line hline => ?_
  rw [records_part h, recordsOf_eq_sendsLine h] at hline
  exact haccepts line (List.mem_filter.1 hline).1

variable (hagain : (table.rule users).split ((table.rule users).part dump source shard) elsewhere =
  .ok again)
include hagain

theorem recordsOf_again : again.recordsOf shard = split.recordsOf shard := by
  rw [recordsOf_eq_sendsLine hagain, records_part h, recordsOf_eq_sendsLine h, List.filter_filter]
  simp only [Bool.and_self]

/-- All records of the part are on its shard, so that a rule that sends none to both leaves the
    other shard without any. -/
theorem recordsOf_other_again (htable : table ≠ .article) : again.recordsOf shard.other = [] := by
  have hsum := count_add_count_of_exclusive (Table.rule_exclusive users htable) hagain
  have hsize := size_eq hagain
  rw [records_part h, ← recordsOf_again h hagain, ← count_eq_length] at hsize
  rw [← List.length_eq_zero_iff, ← count_eq_length]
  cases shard <;> simp only [Shard.other] <;> omega

end Split

/-- What comes of the part of a dump that `shard` has got in `split`, split once more with the
    warnings `events`. -/
structure Table.SplitsAgain (table : Table) (dump : Dump) (split : Split) (shard : Shard)
    (events : List Event) (again : Split) : Prop where
  kept : again.SameShare shard split shard
  alone : table ≠ .article → again.lines shard.other = dump.preamble ++ dump.suffix ∧
    again.count shard.other = 0 ∧ again.keys.of shard.other = ∅ ∧ events = []
  whole : table = .article → shard = .one → again = split
  both : table = .article → shard = .two → ∀ other, again.SameShare other split .two

/-- **Splitting the part of a shard again changes nothing.**  The shard gets its lines, its
    number of records and its keys once more, and of users and read events the other shard gets
    none, without a warning.  Articles on the first shard are split as all of them were, and
    those on the second one are on both. -/
theorem Table.split_part_again (users : KeySets) (table : Table) (dump : Dump)
    (source elsewhere : Path) (split : Split) (shard : Shard)
    (h : (table.rule users).split dump source = .ok split) :
    ((table.rule users).part dump source shard).records = split.recordsOf shard ∧
    ∀ disk, ∃ events again,
      ((table.rule users).apply ((table.rule users).part dump source shard) elsewhere).run disk =
        { disk, events, result := .ok again } ∧
      table.SplitsAgain dump split shard events again := by
  refine ⟨Split.records_part h, fun disk => ?_⟩
  obtain ⟨again, hagain⟩ := Split.exists_split_part h shard elsewhere
  have hkept := Split.recordsOf_again h hagain
  refine ⟨_, again, Rule.run_apply_eq_ok_iff.2 ⟨rfl, hagain, rfl⟩, ?_⟩
  refine
    { kept := Split.sameShare_of_recordsOf_eq hagain h rfl rfl hkept
      alone := fun htable => ?_
      whole := ?_
      both := ?_ }
  · obtain ⟨hlines, hcount, hkeys⟩ := Split.empty_of_recordsOf_eq_nil hagain
      (Split.recordsOf_other_again h hagain htable)
    exact ⟨hlines, hcount, hkeys, Split.warnings_eq_nil_of_keys_eq_empty hagain hkeys⟩
  · rintro rfl rfl
    have hpart : (Table.article.rule users).part dump source .one = dump := by
      obtain ⟨hone, -⟩ := Split.recordsOf_of_byCategory h
      rw [Rule.part, ← Split.recordsOf_eq h, hone]
    rw [hpart] at hagain
    exact Except.ok.inj (hagain.symm.trans (Split.split_eq_ok_of_source h elsewhere))
  · rintro rfl rfl other
    refine Split.sameShare_of_recordsOf_eq hagain h rfl rfl ?_
    cases other with
    | one =>
      obtain ⟨hone, -⟩ := Split.recordsOf_of_byCategory hagain
      rw [hone, Split.records_part h]
    | two => exact hkept

/-- The user `u` is on both shards, of which this is warned once, and not once more when the
    second one's part is split. -/
theorem Table.split_part_again_both :
    let near := ", , u, , , , , , , , \"Beijing\", ,\n"
    let far := ", , u, , , , , , , , \"Hong Kong\", ;\n"
    let dump : Dump := ⟨["INSERT INTO u\n"], [near, far], ["--"]⟩
    let source := Path.ofString "user.sql"
    ((Rule.byRegion.routing dump source).warnings source).length = 1 ∧
      ∃ split events again, Rule.byRegion.split dump source = .ok split ∧
        (Rule.byRegion.apply (Rule.byRegion.part dump source .two) (.ofString "u")).run .fresh =
          { disk := .fresh, events, result := .ok again } ∧
        Table.user.SplitsAgain dump split .two events again ∧
        again.lines .one = ["INSERT INTO u\n", "--"] ∧ events = [] := by
  intro near far dump source
  have ⟨hwarned, hok⟩ : ((Rule.byRegion.routing dump source).warnings source).length = 1 ∧
      (Rule.byRegion.split dump source).isOk := by
    decide +kernel
  obtain ⟨split, hsplit⟩ := Rule.exists_split_eq_ok hok
  obtain ⟨-, hagain⟩ :=
    split_part_again {} .user dump source (.ofString "u") split .two hsplit
  obtain ⟨events, again, hrun, hsplits⟩ := hagain .fresh
  obtain ⟨hlines, -, -, hevents⟩ := hsplits.alone (by decide)
  exact ⟨hwarned, split, events, again, hsplit, hrun, hsplits, hlines, hevents⟩

end DumpSplit
