/-
  Which records the rules of the tables accept, and what is told of the first one that they do
  not.  A rule looks at no field before the key, so that a record with a route has a key.
-/
import DumpSplit.Proofs.Rules
import DumpSplit.Proofs.Stages

namespace DumpSplit

namespace Table

/-- The column by which the records of a table are routed. -/
def column : Table → Column
  | user => ⟨10, "region"⟩
  | article => ⟨4, "category"⟩
  | userRead => ⟨2, "uid"⟩

/-- What a table asks of the fields of a record. -/
def Accepts (users : KeySets) (fields : List String) : Table → Prop
  | user => 11 ≤ fields.length ∧
    (fields[10]? = some "\"Beijing\"" ∨ fields[10]? = some "\"Hong Kong\"")
  | article => 5 ≤ fields.length
  | userRead => 3 ≤ fields.length ∧
    ∃ uid, fields[2]? = some uid ∧ (uid ∈ users.of .one ∨ uid ∈ users.of .two)

/-- What is told of a record that has not what its table asks. -/
inductive Refuses (users : KeySets) (position : Position) (fields : List String) :
    Table → Failure → Prop
  /-- it ends before the column of its table -/
  | short {table : Table} : fields.length ≤ table.column.index →
    Refuses users position fields table (.malformed position.source
      (.missingField position.line fields.length table.column))
  /-- its user is in a region of neither shard -/
  | region {uid region : String} : fields[2]? = some uid → fields[10]? = some region →
    region ≠ "\"Beijing\"" → region ≠ "\"Hong Kong\"" →
    Refuses users position fields user (.unrecognizedRegion position uid region)
  /-- its user is on neither shard -/
  | holder {uid : String} : fields[2]? = some uid → uid ∉ users.of .one → uid ∉ users.of .two →
    Refuses users position fields userRead (.unassignedKey position uid)

end Table

variable {users : KeySets} {table : Table} {record : Record} {position : Position}
  {failure : Failure}

/-! ## Single records -/

theorem Shard.find?_region_eq_none_iff {region : String} :
    Shard.all.find? (·.region == region) = none ↔
      region ≠ "\"Beijing\"" ∧ region ≠ "\"Hong Kong\"" := by
  simp only [Option.eq_none_iff_forall_ne_some, ne_eq, Shard.find?_region_eq_some_iff]
  constructor
  · intro h
    exact ⟨h .one, h .two⟩
  · rintro ⟨hone, htwo⟩ (_ | _)
    · exact hone
    · exact htwo

namespace Rule

theorem byRegion_route_eq_error_iff : byRegion.route record position = .error failure ↔
    Table.user.Refuses users position record.fields failure := by
  refine Record.field_bind_eq_error_iff.trans ⟨?_, ?_⟩
  · rintro (⟨hlength, rfl⟩ | ⟨region, hregion, h⟩)
    · exact .short hlength
    split at h
    · cases h
    · rename_i hnone
      obtain ⟨hone, htwo⟩ := Shard.find?_region_eq_none_iff.1 hnone
      rcases Record.field_bind_eq_error_iff.1 h with ⟨hlength, -⟩ | ⟨uid, huid, h⟩
      · -- the uid stands before the region
        have hlt := (List.getElem?_eq_some_iff.1 hregion).1
        simp only [userUid, userRegion] at hlength hlt
        omega
      · cases h
        exact .region huid hregion hone htwo
  · rintro (hlength | ⟨huid, hregion, hone, htwo⟩)
    · exact .inl ⟨hlength, rfl⟩
    · refine .inr ⟨_, hregion, ?_⟩
      rw [Shard.find?_region_eq_none_iff.2 ⟨hone, htwo⟩]
      exact Record.field_bind_eq_error_iff.2 (.inr ⟨_, huid, rfl⟩)

theorem byCategory_route_eq_error_iff : byCategory.route record position = .error failure ↔
    Table.article.Refuses users position record.fields failure := by
  refine Record.field_bind_eq_error_iff.trans ⟨?_, ?_⟩
  · rintro (⟨hlength, rfl⟩ | ⟨category, -, h⟩)
    · exact .short hlength
    · cases h
  · rintro ⟨hlength⟩
    exact .inl ⟨hlength, rfl⟩

theorem byUser_route_eq_error_iff : (byUser users).route record position = .error failure ↔
    Table.userRead.Refuses users position record.fields failure := by
  refine Record.field_bind_eq_error_iff.trans ⟨?_, ?_⟩
  · rintro (⟨hlength, rfl⟩ | ⟨uid, huid, h⟩)
    · exact .short hlength
    split at h
    · cases h
    · rename_i hnone
      cases h
      have hnot := KeySets.holder?_eq_none_iff.1 hnone
      exact .holder huid (hnot .one) (hnot .two)
  · rintro (hlength | _ | ⟨huid, hone, htwo⟩)
    · exact .inl ⟨hlength, rfl⟩
    · refine .inr ⟨_, huid, ?_⟩
      rw [KeySets.holder?_eq_none_iff.2 fun shard => by cases shard <;> assumption]
      rfl

end Rule

namespace Table

theorem route_eq_error_iff : (table.rule users).route record position = .error failure ↔
    table.Refuses users position record.fields failure := by
  cases table with
  | user => exact Rule.byRegion_route_eq_error_iff
  | article => exact Rule.byCategory_route_eq_error_iff
  | userRead => exact Rule.byUser_route_eq_error_iff

theorem exists_route_eq_ok_iff (position : Position) :
    (∃ route, (table.rule users).route record position = .ok route) ↔
      table.Accepts users record.fields := by
  cases table with
  | user =>
    simp only [rule, Rule.byRegion_route_eq_ok_iff, Accepts]
    constructor
    · rintro ⟨_, shard, hregion, -⟩
      have hlt := (List.getElem?_eq_some_iff.1 hregion).1
      refine ⟨hlt, ?_⟩
      cases shard with
      | one => exact .inl hregion
      | two => exact .inr hregion
    · rintro ⟨-, hone | htwo⟩
      · exact ⟨_, .one, hone, rfl⟩
      · exact ⟨_, .two, htwo, rfl⟩
  | article =>
    simp only [rule, Rule.byCategory_route_eq_ok_iff, Accepts]
    constructor
    · rintro ⟨_, category, hcategory, -⟩
      exact (List.getElem?_eq_some_iff.1 hcategory).1
    · intro hlength
      exact ⟨_, _, List.getElem?_eq_getElem hlength, rfl⟩
  | userRead =>
    simp only [rule, Rule.byUser_route_eq_ok_iff, Accepts, ← KeySets.exists_holder?_eq_some_iff]
    constructor
    · rintro ⟨_, uid, shard, huid, hholder, -⟩
      exact ⟨(List.getElem?_eq_some_iff.1 huid).1, uid, huid, shard, hholder⟩
    · rintro ⟨-, uid, huid, shard, hholder⟩
      exact ⟨_, uid, shard, huid, hholder, rfl⟩

/-- A record that a table accepts has a key. -/
theorem keyIndex_lt_of_accepts {fields : List String} (h : table.Accepts users fields) :
    (table.rule users).keyIndex < fields.length := by
  cases table with
  | user => exact Nat.lt_of_lt_of_le (show 2 < 11 by decide) h.1
  | article => exact Nat.lt_of_lt_of_le (show 2 < 5 by decide) h
  | userRead => exact h.1

theorem refusalAt?_eq_some_iff_refuses {source : Path} {line : String} {number : Nat} :
    (table.rule users).refusalAt? source (line, number) = some failure ↔
      table.Refuses users { source, line := number } (Record.ofLine line).fields failure := by
  rw [← route_eq_error_iff, Rule.refusalAt?]
  cases hroute : (table.rule users).route (.ofLine line) { source, line := number } with
  | error failure' => simp
  | ok route =>
    -- the key is looked up last, and the column of the route stands at or behind it
    have hkey := keyIndex_lt_of_accepts ((exists_route_eq_ok_iff _).1 ⟨route, hroute⟩)
    simp [hkey]

theorem refusalAt?_eq_none_iff_accepts {source : Path} {line : String} {number : Nat} :
    (table.rule users).refusalAt? source (line, number) = none ↔
      table.Accepts users (Record.ofLine line).fields := by
  rw [← exists_route_eq_ok_iff { source, line := number },
    Option.eq_none_iff_forall_ne_some]
  simp only [ne_eq, refusalAt?_eq_some_iff_refuses, ← route_eq_error_iff]
  cases (table.rule users).route (.ofLine line) { source, line := number } <;> simp

end Table

/-! ## Dumps -/

namespace Table

variable {dump : Dump} {source : Path}

theorem exists_split_eq_ok_iff_accepts :
    (∃ split, (table.rule users).split dump source = .ok split) ↔
      ∀ line ∈ dump.records, table.Accepts users (Record.ofLine line).fields := by
  rw [Rule.exists_split_eq_ok_iff, ← dump.map_fst_numbered]
  simp only [List.forall_mem_map, Prod.forall, refusalAt?_eq_none_iff_accepts]

theorem split_eq_error_iff_refuses : (table.rule users).split dump source = .error failure ↔
    ∃ before line after, dump.records = before ++ line :: after ∧
      (∀ earlier ∈ before, table.Accepts users (Record.ofLine earlier).fields) ∧
      table.Refuses users { source, line := dump.lineNumber before.length }
        (Record.ofLine line).fields failure := by
  have hbefore : ∀ before : List String,
      (∀ record ∈ before.zipIdx (dump.lineNumber 0),
        (table.rule users).refusalAt? source record = none) ↔
      ∀ earlier ∈ before, table.Accepts users (Record.ofLine earlier).fields := fun before => by
    conv_rhs => rw [← List.zipIdx_map_fst (dump.lineNumber 0) before]
    simp only [List.forall_mem_map, Prod.forall, refusalAt?_eq_none_iff_accepts]
  simp only [Rule.split_eq_error_iff_first, hbefore, refusalAt?_eq_some_iff_refuses]

/-- Of the fields that a record can lack, only the column of its table is ever named. -/
theorem column_eq_of_split_eq_error {place : Path} {number count : Nat} {column : Column}
    (h : (table.rule users).split dump source =
      .error (.malformed place (.missingField number count column))) : column = table.column := by
  obtain ⟨_, _, _, -, -, hrefuses⟩ := split_eq_error_iff_refuses.1 h
  cases hrefuses
  rfl

/-- **Which dumps the tables accept**: those of which they accept every record.  Of any other
    one it is told what its first record lacks that they do not accept, which is never the
    key, nor with a user the uid. -/
theorem split_judgesRecords (users : KeySets) (dump : Dump) (source : Path) :
    (∀ table : Table, (∃ split, (table.rule users).split dump source = .ok split) ↔
      ∀ line ∈ dump.records, table.Accepts users (Record.ofLine line).fields) ∧
    (∀ (table : Table) (failure : Failure),
      (table.rule users).split dump source = .error failure ↔
        ∃ before line after, dump.records = before ++ line :: after ∧
          (∀ earlier ∈ before, table.Accepts users (Record.ofLine earlier).fields) ∧
          table.Refuses users { source, line := dump.lineNumber before.length }
            (Record.ofLine line).fields failure) ∧
    (∀ (table : Table) (place : Path) (number count index : Nat),
      (table.rule users).split dump source ≠
        .error (.malformed place (.missingField number count ⟨index, "key"⟩))) ∧
    ∀ (place : Path) (number count index : Nat),
      Rule.byRegion.split dump source ≠
        .error (.malformed place (.missingField number count ⟨index, "uid"⟩)) := by
  refine ⟨fun table => exists_split_eq_ok_iff_accepts,
    fun table failure => split_eq_error_iff_refuses, fun table place number count index h => ?_,
    fun place number count index h => ?_⟩
  · have hname : "key" = table.column.name :=
      congrArg Column.name (column_eq_of_split_eq_error h)
    exact absurd hname (by cases table <;> decide)
  · have huser : (user.rule users).split dump source = _ := h
    have hname : "uid" = "region" := congrArg Column.name (column_eq_of_split_eq_error huser)
    exact absurd hname (by decide)

end Table

end DumpSplit
