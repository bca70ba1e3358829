/-
  What the three rules answer: each looks at one field, which has to be there, and only
  that of the articles sends records to both shards.
-/
import DumpSplit.Rule
import Mathlib.Logic.Basic

namespace DumpSplit

variable {record : Record} {position : Position} {route : Route}

theorem Record.field_eq_ok_iff (position : Position) {column : Column} {value : String} :
    record.field position column = .ok value ↔ record.fields[column.index]? = some value := by
  unfold field
  cases record.fields[column.index]? <;> simp

/-- A step after a field was looked up fails for itself, or the field is missing. -/
theorem Record.field_bind_eq_error_iff {α : Type} {column : Column} {failure : Failure}
    {next : String → Except Failure α} :
    (record.field position column >>= next) = .error failure ↔
      (record.fields.length ≤ column.index ∧ failure = .malformed position.source
        (.missingField position.line record.fields.length column)) ∨
      ∃ value, record.fields[column.index]? = some value ∧ next value = .error failure := by
  simp only [field, bind, Except.bind]
  cases hvalue : record.fields[column.index]? with
  | none => simp [List.getElem?_eq_none_iff.1 hvalue, eq_comm]
  | some value => simp [Nat.not_le.2 (List.getElem?_eq_some_iff.1 hvalue).1]

theorem Shard.find?_region_eq_some_iff {region : String} {shard : Shard} :
    Shard.all.find? (·.region == region) = some shard ↔ region = shard.region := by
  constructor
  · intro h
    have hregion := List.find?_some h
    exact (beq_iff_eq.1 hregion).symm
  · rintro rfl
    cases shard <;> decide

namespace Rule

theorem byRegion_route_eq_ok_iff : byRegion.route record position = .ok route ↔
    ∃ shard, record.fields[userRegion.index]? = some shard.region ∧ route = .only shard := by
  simp only [byRegion, bind, Except.bind, ← Record.field_eq_ok_iff position]
  cases record.field position userRegion with
  | error failure => simp
  | ok region =>
    simp only [Except.ok.injEq, ← Shard.find?_region_eq_some_iff]
    cases Shard.all.find? (·.region == region) with
    | none => cases record.field position userUid <;> simp [throw, throwThe, MonadExceptOf.throw]
    | some shard => simp [pure, Except.pure, eq_comm]

theorem byCategory_route_eq_ok_iff : byCategory.route record position = .ok route ↔
    ∃ category, record.fields[articleCategory.index]? = some category ∧
      route = if category = sharedCategory then .both else .only .one := by
  simp only [byCategory, bind, Except.bind, ← Record.field_eq_ok_iff position]
  cases record.field position articleCategory with
  | error failure => simp
  | ok category => simp [pure, Except.pure, eq_comm]

theorem byUser_route_eq_ok_iff {users : KeySets} :
    (byUser users).route record position = .ok route ↔
      ∃ uid shard, record.fields[readUid.index]? = some uid ∧ users.holder? uid = some shard ∧
        route = .only shard := by
  simp only [byUser, bind, Except.bind, ← Record.field_eq_ok_iff position]
  cases record.field position readUid with
  | error failure => simp
  | ok uid =>
    cases hholder : users.holder? uid with
    | none => simp [throw, throwThe, MonadExceptOf.throw, hholder]
    | some shard => simp [pure, Except.pure, hholder, eq_comm]

/-- A rule that sends no record to both shards. -/
def Exclusive (rule : Rule) : Prop :=
  ∀ record position, rule.route record position ≠ .ok .both

theorem byRegion_exclusive : byRegion.Exclusive := by
  intro record position h
  obtain ⟨shard, -, hroute⟩ := byRegion_route_eq_ok_iff.1 h
  cases hroute

theorem byUser_exclusive (users : KeySets) : (byUser users).Exclusive := by
  intro record position h
  obtain ⟨uid, shard, -, -, hroute⟩ := byUser_route_eq_ok_iff.1 h
  cases hroute

end Rule

end DumpSplit
