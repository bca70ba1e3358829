/-
  The part of a dump that a shard gets, read as a dump of its own: it is one exactly if
  the record that closes the dump is in it, since the lines are copied as they stand.
-/
import DumpSplit.Disk.Arrange
import DumpSplit.Proofs.Stages

namespace DumpSplit

/-! ## Selections -/

section
variable {α : Type} {p q : α → Bool} {items : List α} (h : EndsAtFirst p items)
include h

/-- A selection from a list that ends with its first item of a property ends so too, if it has
    that item. -/
theorem EndsAtFirst.filter (hlast : items.getLast?.any q = true) :
    EndsAtFirst p (items.filter q) := by
  obtain ⟨before, last, rfl, hp, hbefore⟩ := h
  rw [List.getLast?_concat, Option.any_some] at hlast
  refine ⟨before.filter q, last, by simp [List.filter_append, hlast], hp, fun x hx => ?_⟩
  exact hbefore x (List.mem_of_mem_filter hx)

/-- A selection without that item has no item of the property. -/
theorem EndsAtFirst.not_of_mem_filter (hlast : items.getLast?.any q = false) :
    ∀ x ∈ items.filter q, ¬ p x := by
  obtain ⟨before, last, rfl, hp, hbefore⟩ := h
  rw [List.getLast?_concat, Option.any_some] at hlast
  intro x hx
  obtain ⟨hmem, hq⟩ := List.mem_filter.1 hx
  rcases List.mem_append.1 hmem with hmem | hmem
  · exact hbefore x hmem
  · rw [List.mem_singleton.1 hmem, hlast] at hq
    cases hq

theorem EndsAtFirst.filter_iff :
    EndsAtFirst p (items.filter q) ↔ items.getLast?.any q = true := by
  refine ⟨fun ⟨before, last, heq, hp, _⟩ => ?_, h.filter⟩
  by_contra hlast
  exact h.not_of_mem_filter (Bool.eq_false_of_not_eq_true hlast) last (by simp [heq]) hp

end

namespace Rule

/-- The part of a dump that a rule sends to `shard`, in the frame of the whole. -/
def part (rule : Rule) (dump : Dump) (source : Path) (shard : Shard) : Dump :=
  { dump with records := rule.share dump source shard }

/-- Whether a rule sends the record that closes the dump to `shard`. -/
def sendsLast (rule : Rule) (dump : Dump) (source : Path) (shard : Shard) : Bool :=
  dump.numbered.getLast?.any (rule.sends source shard)

section
variable {rule : Rule} {dump : Dump} {source : Path} {shard : Shard}

theorem endsAtFirst_share_iff (h : EndsAtFirst Dump.closes dump.records) :
    EndsAtFirst Dump.closes (rule.share dump source shard) ↔
      rule.sendsLast dump source shard := by
  rw [← dump.map_fst_numbered, endsAtFirst_map_iff] at h
  rw [share, endsAtFirst_map_iff, h.filter_iff, sendsLast]

theorem not_closes_of_mem_share (h : EndsAtFirst Dump.closes dump.records)
    (hlast : rule.sendsLast dump source shard = false) :
    ∀ line ∈ rule.share dump source shard, ¬ Dump.closes line := by
  rw [← dump.map_fst_numbered, endsAtFirst_map_iff] at h
  simpa [share] using h.not_of_mem_filter hlast

/-- **The part of a dump that a shard gets is a dump** exactly if the closing record is in it. -/
theorem ofLines_part_eq_ok_iff (h : Dump.ofLines dump.lines = .ok dump) :
    Dump.ofLines (rule.part dump source shard).lines = .ok (rule.part dump source shard) ↔
      rule.sendsLast dump source shard := by
  obtain ⟨-, hopens, hcloses⟩ := Dump.ofLines_eq_ok_iff.1 h
  rw [Dump.ofLines_eq_ok_iff]
  simp only [part, hopens, true_and, endsAtFirst_share_iff hcloses]

end

end Rule

/-- Some shard gets the record that closes a dump. -/
theorem Split.exists_sendsLast {rule : Rule} {dump : Dump} {source : Path} {split : Split}
    (hdump : Dump.ofLines dump.lines = .ok dump) (h : rule.split dump source = .ok split) :
    ∃ shard, rule.sendsLast dump source shard := by
  obtain ⟨-, -, hplaces, -⟩ := Rule.split_eq_ok h
  have hne : split.routed ≠ [] := by
    rintro hnil
    refine (Dump.ofLines_eq_ok_iff.1 hdump).2.2.ne_nil (List.length_eq_zero_iff.1 ?_)
    rw [← dump.length_numbered, ← hplaces, hnil]; rfl
  obtain ⟨shard, hshard⟩ := (split.routed.getLast hne).route.exists_reaches
  refine ⟨shard, ?_⟩
  rw [Rule.sendsLast, ← hplaces, List.getLast?_map, List.getLast?_eq_getLast_of_ne_nil hne,
    Option.map_some, Option.any_some, sends_place h (List.getLast_mem hne)]
  exact hshard

namespace DumpSet

/-- **Which files of the shards are dumps again.**  Each holds its part of the dump, which is
    found in it if the record that closes the dump has gone there, and only then; there is
    a shard to which it has. -/
theorem stage_part_isDump_iff (dumps : DumpSet) (table : Table) (users : KeySets)
    (disk after : Disk) (events : List Event) (result : TableResult) (keys : KeySets)
    (h : (dumps.stage users table).run disk =
      { disk := after, events, result := .ok (result, keys) }) :
    ∃ dump, disk.HoldsDump (dumps.source table) dump ∧
      (∃ shard, (table.rule users).sendsLast dump (dumps.source table) shard) ∧
      ∀ shard, disk.Keeps (dumps.output table shard) →
        let part := (table.rule users).part dump (dumps.source table) shard
        after.HoldsLines (dumps.output table shard) part.lines ∧
          (Dump.ofLines part.lines = .ok part ↔
            (table.rule users).sendsLast dump (dumps.source table) shard) := by
  rw [stage_eq] at h
  obtain ⟨dump, split, hsplit, -⟩ := splitTable_hasSplit h
  refine ⟨dump, hsplit.source, Split.exists_sendsLast hsplit.source.found hsplit.accepted,
    fun shard hkeeps => ⟨?_, Rule.ofLines_part_eq_ok_iff hsplit.source.found⟩⟩
  have hlines := hsplit.output shard hkeeps
  rwa [Split.lines_eq hsplit.accepted] at hlines

/-- Two users, one of each region, of whom the second closes the dump. -/
theorem stage_part_isDump_iff_two :
    let user := "INSERT INTO u\n, , u, , , , , , , , \"Beijing\", ,\n" ++
      ", , v, , , , , , , , \"Hong Kong\", ;\n"
    let disk := Disk.fresh.arrange (.ofString "user.sql") (some user.toUTF8)
    let dumps : DumpSet := { dir := .ofString ".", config := .default }
    (∀ shard, disk.Keeps (dumps.output .user shard)) ∧
      ∃ after events result keys dump,
        (dumps.stage {} .user).run disk = { disk := after, events, result := .ok (result, keys) } ∧
        disk.HoldsDump (dumps.source .user) dump ∧ ∀ shard,
          let part := Rule.byRegion.part dump (dumps.source .user) shard
          after.HoldsLines (dumps.output .user shard) part.lines ∧
            (Dump.ofLines part.lines = .ok part ↔
              Rule.byRegion.sendsLast dump (dumps.source .user) shard) := by
  intro user disk dumps
  have hkeeps : ∀ shard, disk.Keeps (dumps.output .user shard) := fun shard => by
    cases shard <;> decide +kernel
  refine ⟨hkeeps, ?_⟩
  have hok : ((dumps.stage {} .user).run disk).result.isOk := by decide +kernel
  obtain ⟨after, events, ⟨result, keys⟩, hrun⟩ := Job.exists_run_eq_ok hok
  obtain ⟨dump, hdump, -, hparts⟩ :=
    stage_part_isDump_iff dumps .user {} disk after events result keys hrun
  exact ⟨after, events, result, keys, dump, hrun, hdump, fun shard => hparts shard (hkeeps shard)⟩

/-- The file of a shard without the record that closes the dump: its one record never ends. -/
theorem splitUsers_part_unterminated :
    let user := "INSERT INTO u\n, , u, , , , , , , , \"Beijing\", ,\n" ++
      ", , v, , , , , , , , \"Hong Kong\", ;\n"
    let disk := Disk.fresh.arrange (.ofString "user.sql") (some user.toUTF8)
    let dumps : DumpSet := { dir := .ofString ".", config := .default }
    ∃ after events result keys lines,
      dumps.splitUsers.run disk = { disk := after, events, result := .ok (result, keys) } ∧
      result.count .one = 1 ∧ after.HoldsLines (dumps.output .user .one) lines ∧
      Dump.ofLines lines = .error (.unterminated 1) := by
  intro user disk dumps
  have ⟨hok, hcount, hlines⟩ : (dumps.splitUsers.run disk).result.isOk ∧
      (dumps.splitUsers.run disk).result.toOption.map (·.1.count .one) = some 1 ∧
      (dumps.splitUsers.run disk).disk.HoldsLines (dumps.output .user .one)
        ["INSERT INTO u\n", ", , u, , , , , , , , \"Beijing\", ,\n"] := by decide +kernel
  obtain ⟨after, events, ⟨result, keys⟩, hrun⟩ := Job.exists_run_eq_ok hok
  rw [hrun] at hcount hlines
  exact ⟨after, events, result, keys, _, hrun, Option.some.inj hcount, hlines, by decide⟩

end DumpSet

end DumpSplit
