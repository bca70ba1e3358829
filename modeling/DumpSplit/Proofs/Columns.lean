/-
  Where the records of a table go is told by one column of theirs, wherever they stand in their
  dump and whatever comes before them.  So the order of the users does not decide where their
  read events go.
-/
import DumpSplit.Proofs.Acceptance

namespace DumpSplit

theorem Shard.region_inj {shard shard' : Shard} : shard.region = shard'.region ↔ shard = shard' := by
  cases shard <;> cases shard' <;> decide

namespace Table

/-- Whether a record with `value` in the column of its table goes to `shard`. -/
def sendsValue (users : KeySets) (shard : Shard) (value : String) : Table → Bool
  | user => value == shard.region
  | article => shard == .one || value == sharedCategory
  | userRead => users.holder? value == some shard

/-- Whether the record on a line goes to `shard`. -/
def sendsLine (users : KeySets) (table : Table) (shard : Shard) (line : String) : Bool :=
  (Record.ofLine line).fields[table.column.index]?.any (table.sendsValue users shard)

/-- A route is that of the value in the column of the table. -/
theorem exists_value_of_route_eq_ok {users : KeySets} {table : Table} {record : Record}
    {position : Position} {route : Route}
    (h : (table.rule users).route record position = .ok route) :
    ∃ value, record.fields[table.column.index]? = some value ∧
      ∀ shard, route.reaches shard = table.sendsValue users shard value := by
  cases table with
  | user =>
    obtain ⟨shard, hregion, rfl⟩ := Rule.byRegion_route_eq_ok_iff.1 h
    refine ⟨_, hregion, fun shard' => ?_⟩
    rw [Route.reaches_only, sendsValue, Bool.eq_iff_iff, beq_iff_eq, beq_iff_eq, Shard.region_inj]
  | article =>
    obtain ⟨category, hcategory, rfl⟩ := Rule.byCategory_route_eq_ok_iff.1 h
    refine ⟨_, hcategory, fun shard' => ?_⟩
    by_cases hshared : category = sharedCategory
    · simp [sendsValue, hshared]
    · rw [if_neg hshared, sendsValue, beq_false_of_ne hshared, Bool.or_false]
      cases shard' <;> rfl
  | userRead =>
    obtain ⟨uid, shard, huid, hholder, rfl⟩ := Rule.byUser_route_eq_ok_iff.1 h
    refine ⟨_, huid, fun shard' => ?_⟩
    rw [Route.reaches_only, sendsValue, hholder]; rfl

/-- Where a record stands is only for messages: it has the same route elsewhere. -/
theorem route_eq_ok_congr {users : KeySets} {table : Table} {record : Record}
    {position position' : Position} {route : Route} :
    (table.rule users).route record position = .ok route ↔
      (table.rule users).route record position' = .ok route := by
  cases table with
  | user => simp only [rule, Rule.byRegion_route_eq_ok_iff]
  | article => simp only [rule, Rule.byCategory_route_eq_ok_iff]
  | userRead => simp only [rule, Rule.byUser_route_eq_ok_iff]

end Table

namespace Split

variable {users : KeySets} {table : Table} {dump : Dump} {source : Path} {split : Split}
  (h : (table.rule users).split dump source = .ok split)
include h

/-- The records that go to a shard are those that have to, by their own column. -/
theorem recordsOf_eq_sendsLine (shard : Shard) :
    split.recordsOf shard = dump.records.filter (table.sendsLine users shard) := by
  refine recordsOf_eq_filter h fun r hr => ?_
  obtain ⟨value, hvalue, hreaches⟩ := Table.exists_value_of_route_eq_ok (route_eq h hr)
  rw [hreaches, Table.sendsLine, hvalue, Option.any_some]

/-- A dump from elsewhere with the same lines is split the same way. -/
theorem split_eq_ok_of_source (elsewhere : Path) :
    (table.rule users).split dump elsewhere = .ok split := by
  have haccepts := Table.exists_split_eq_ok_iff_accepts.1 ⟨split, h⟩
  obtain ⟨other, hother⟩ : ∃ other, (table.rule users).split dump elsewhere = .ok other :=
    Table.exists_split_eq_ok_iff_accepts.2 haccepts
  have hrouted : other.routed = split.routed := by
    rw [routed_eq_filterMap hother, routed_eq_filterMap h]
    refine List.filterMap_congr fun record _ => Option.ext fun r => ?_
    rw [Rule.answerAt?_eq_some_iff, Rule.answerAt?_eq_some_iff, Rule.answer_eq_ok_iff,
      Rule.answer_eq_ok_iff, Table.route_eq_ok_congr]
  obtain ⟨hpre, hsuf, -⟩ := Rule.split_eq_ok h
  obtain ⟨hrouting, -⟩ := Rule.split_eq_ok_iff.1 hother
  exact Rule.split_eq_ok_iff.2 ⟨hrouted ▸ hrouting, hpre, hsuf⟩

/-! ## Other orders of the records -/

section
variable {dump' : Dump} {source' : Path} {split' : Split}
  (h' : (table.rule users).split dump' source' = .ok split')
  (hperm : dump.records.Perm dump'.records)
include h' hperm

theorem recordsOf_perm (shard : Shard) : (split.recordsOf shard).Perm (split'.recordsOf shard) := by
  rw [recordsOf_eq_sendsLine h, recordsOf_eq_sendsLine h']
  exact hperm.filter _

theorem keys_eq_of_perm : split.keys = split'.keys :=
  KeySets.eq_of_forall_mem fun shard =>
    mem_keys_congr h h' fun _ => (recordsOf_perm h h' hperm shard).mem_iff

theorem count_eq_of_perm (shard : Shard) : split.count shard = split'.count shard := by
  rw [count_eq_length, count_eq_length, (recordsOf_perm h h' hperm shard).length_eq]

theorem size_eq_of_perm : split.size = split'.size := by
  rw [size_eq h, size_eq h', hperm.length_eq]

end

end Split

theorem Table.exists_split_eq_ok_iff_of_perm (users : KeySets) (table : Table) {dump dump' : Dump}
    {source source' : Path} (h : dump.records.Perm dump'.records) :
    (∃ split, (table.rule users).split dump source = .ok split) ↔
      ∃ split, (table.rule users).split dump' source' = .ok split := by
  simp only [exists_split_eq_ok_iff_accepts, h.mem_iff]

/-- **The order of the users does not decide where read events go.**  However their rows are
    ordered, framed and named, all of them are split or none, into the same keys and as many
    records on each shard; so the same read events are then split the same way. -/
theorem Rule.byRegion_split_perm (dump dump' : Dump) (source source' : Path)
    (h : dump.records.Perm dump'.records) :
    ((∃ split, byRegion.split dump source = .ok split) ↔
      ∃ split', byRegion.split dump' source' = .ok split') ∧
    ∀ split split', byRegion.split dump source = .ok split →
      byRegion.split dump' source' = .ok split' →
      split.keys = split'.keys ∧ split.keys.shared = split'.keys.shared ∧
      split.size = split'.size ∧ (∀ shard, split.count shard = split'.count shard) ∧
      ∀ reads place, (byUser split.keys).split reads place = (byUser split'.keys).split reads place ∧
        ∀ disk, ((byUser split.keys).apply reads place).run disk =
          ((byUser split'.keys).apply reads place).run disk := by
  refine ⟨Table.exists_split_eq_ok_iff_of_perm {} .user h, ?_⟩
  intro split split' (hsplit : (Table.user.rule {}).split dump source = .ok split)
    (hsplit' : (Table.user.rule {}).split dump' source' = .ok split')
  have hkeys : split.keys = split'.keys := Split.keys_eq_of_perm hsplit hsplit' h
  refine ⟨hkeys, by rw [hkeys], Split.size_eq_of_perm hsplit hsplit' h,
    Split.count_eq_of_perm hsplit hsplit' h, fun reads place => ?_⟩
  rw [hkeys]
  exact ⟨rfl, fun _ => rfl⟩

/-- The user `u` is in both regions, and comes first in the one or in the other. -/
theorem Rule.byRegion_split_perm_both :
    let near := ", , u, , , , , , , , \"Beijing\", ,\n"
    let far := ", , u, , , , , , , , \"Hong Kong\", ,\n"
    let last := ", , v, , , , , , , , \"Hong Kong\", ;\n"
    let dump : Dump := ⟨["INSERT INTO u\n"], [near, far, last], []⟩
    let dump' : Dump := ⟨["--\n", "INSERT INTO u\n"], [far, last, near], ["--"]⟩
    let reads : Dump := ⟨["INSERT INTO r\n"], [", , v, ,\n", ", , u, ;"], []⟩
    let place := Path.ofString "user_read.sql"
    dump.records.Perm dump'.records ∧ ∃ split split',
      byRegion.split dump (.ofString "user.sql") = .ok split ∧
      byRegion.split dump' (.ofString "users") = .ok split' ∧
      "u" ∈ split.keys.shared ∧ split.keys = split'.keys ∧
      (byUser split.keys).split reads place = (byUser split'.keys).split reads place := by
  intro near far last dump dump' reads place
  have hperm : dump.records.Perm dump'.records :=
    show ([near] ++ [far, last]).Perm ([far, last] ++ [near]) from List.perm_append_comm
  have ⟨hok, hshared⟩ : (byRegion.split dump (.ofString "user.sql")).isOk ∧
      (byRegion.split dump (.ofString "user.sql")).toOption.map (·.keys.shared.contains "u") =
        some true := by
    decide +kernel
  obtain ⟨split, hsplit⟩ := exists_split_eq_ok hok
  have hperm' := byRegion_split_perm dump dump' (.ofString "user.sql") (.ofString "users") hperm
  obtain ⟨split', hsplit'⟩ := hperm'.1.1 ⟨split, hsplit⟩
  obtain ⟨hkeys, -, -, -, hreads⟩ := hperm'.2 split split' hsplit hsplit'
  rw [hsplit] at hshared
  exact ⟨hperm, split, split', hsplit, hsplit', Option.some.inj hshared, hkeys,
    (hreads reads place).1⟩

end DumpSplit
