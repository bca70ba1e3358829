/-
  Records that are refused: the first one of a dump ends its splitting, whatever comes after
  it, and all that is told of a record stands on its own line of the file.
-/
import DumpSplit.Proofs.Acceptance
import DumpSplit.Proofs.Warnings

namespace DumpSplit

theorem Dump.hasLine_of_mem_numbered {text : String} {dump : Dump} {record : String × Nat}
    (h : Dump.ofLines (Text.lines text) = .ok dump) (hrecord : record ∈ dump.numbered) :
    Text.HasLine text record.2 record.1 := by
  obtain ⟨index, hindex⟩ := List.mem_iff_getElem?.1 hrecord
  rw [getElem?_numbered, Option.map_eq_some_iff] at hindex
  obtain ⟨line, hline, rfl⟩ := hindex
  refine Text.hasLine_of_getElem? ?_
  rw [← (ofLines_eq_ok_iff.1 h).1, lines, List.append_assoc,
    List.getElem?_append_right (Nat.le_add_right _ _), Nat.add_sub_cancel_left,
    List.getElem?_append_left (List.getElem?_eq_some_iff.1 hline).1, hline]

/-- A failure that tells of a record at its position: of fields that it lacks, or of its own
    user and region. -/
def Failure.TellsOf (record : Record) (position : Position) : Failure → Prop
  | malformed source flaw => source = position.source ∧ ∃ column,
      flaw = .missingField position.line record.fields.length column ∧
        record.fields.length ≤ column.index
  | unrecognizedRegion place uid region => place = position ∧
      record.fields[userUid.index]? = some uid ∧ record.fields[userRegion.index]? = some region
  | unassignedKey place uid => place = position ∧ record.fields[readUid.index]? = some uid
  | io .. | config .. | json _ => False

/-! ## What the rules tell of a record -/

theorem Record.field_tellsOf {record : Record} {position : Position} {column : Column}
    {failure : Failure} (h : record.field position column = .error failure) :
    failure.TellsOf record position := by
  unfold field at h
  split at h
  · cases h
  · rename_i hnone
    cases h
    exact ⟨rfl, column, rfl, List.getElem?_eq_none_iff.1 hnone⟩

/-- A rule of which every failure tells of the record for which it fails. -/
def Rule.TellsOfRecords (rule : Rule) : Prop :=
  ∀ record position failure, rule.route record position = .error failure →
    failure.TellsOf record position

theorem Table.rule_tellsOfRecords (users : KeySets) (table : Table) :
    (table.rule users).TellsOfRecords := by
  intro record position failure h
  cases route_eq_error_iff.1 h with
  | short hlength => exact ⟨rfl, _, rfl, hlength⟩
  | region huid hregion => exact ⟨rfl, huid, hregion⟩
  | holder huid => exact ⟨rfl, huid⟩

namespace Rule

variable {rule : Rule} {dump : Dump} {source : Path} {failure : Failure}

/-- A record is refused for its route, or because it has no key. -/
theorem refusalAt?_cases {line : String} {number : Nat}
    (h : rule.refusalAt? source (line, number) = some failure) :
    rule.route (.ofLine line) { source, line := number } = .error failure ∨
      (Record.ofLine line).field { source, line := number } ⟨rule.keyIndex, "key"⟩ =
        .error failure := by
  simp only [refusalAt?] at h
  split at h
  · rename_i hroute
    cases h
    exact .inl hroute
  · split_ifs at h with hkey
    cases h
    exact .inr (by rw [Record.field, List.getElem?_eq_none (Nat.le_of_not_lt hkey)])

theorem TellsOfRecords.of_refusalAt? (hrule : rule.TellsOfRecords) {record : String × Nat}
    (h : rule.refusalAt? source record = some failure) :
    failure.TellsOf (.ofLine record.1) { source, line := record.2 } := by
  rcases refusalAt?_cases h with hroute | hkey
  · exact hrule _ _ _ hroute
  · exact Record.field_tellsOf hkey

/-! ## What a record that is refused does to the others -/

/-- Nothing after a record that is refused has a part in a routing. -/
theorem routeFrom_append {done : List Routed} {number : Nat} {before after : List String}
    (h : (rule.routeFrom source done number before).refusal? ≠ none) :
    rule.routeFrom source done number (before ++ after) =
      rule.routeFrom source done number before := by
  induction before generalizing done number with
  | nil => exact absurd rfl h
  | cons line before ih =>
    rw [List.cons_append, routeFrom, routeFrom]
    rw [routeFrom] at h
    cases hanswer : rule.answer { source, line := number } line with
    | ok r => rw [hanswer] at h; exact ih h
    | error failure => rfl

theorem routing_eq_of_refusalAt? {before after : List String} {line : String}
    (hrecords : dump.records = before ++ line :: after)
    (h : rule.refusalAt? source (line, dump.lineNumber before.length) ≠ none) :
    rule.routing dump source =
        rule.routeFrom source [] (dump.lineNumber 0) (before ++ [line]) ∧
      (rule.routing dump source).refusal? ≠ none := by
  have hrefusal : (rule.routeFrom source [] (dump.lineNumber 0) (before ++ [line])).refusal? ≠
      none := by
    rw [refusal?_routeFrom, ne_eq, List.findSome?_eq_none_iff]
    intro hnone
    refine h (hnone _ (List.mem_iff_getElem?.2 ⟨before.length, ?_⟩))
    rw [List.getElem?_zipIdx, List.getElem?_concat_length]
    simp only [Dump.lineNumber, Option.map_some, Option.some.injEq, Prod.mk.injEq, true_and]
    omega
  have heq : rule.routing dump source =
      rule.routeFrom source [] (dump.lineNumber 0) (before ++ [line]) := by
    rw [routing, hrecords, List.append_cons, routeFrom_append hrefusal]
  exact ⟨heq, heq ▸ hrefusal⟩

/-- Dumps that are the same up to a record that is refused are split to the same end. -/
theorem apply_eq_of_refusalAt? {other : Dump} {before after after' : List String} {line : String}
    (hpre : other.preamble.length = dump.preamble.length)
    (hrecords : dump.records = before ++ line :: after)
    (hrecords' : other.records = before ++ line :: after')
    (h : rule.refusalAt? source (line, dump.lineNumber before.length) ≠ none) :
    rule.apply other source = rule.apply dump source := by
  have hnumber : ∀ index, other.lineNumber index = dump.lineNumber index := fun index => by
    rw [Dump.lineNumber, Dump.lineNumber, hpre]
  obtain ⟨heq, hrefusal⟩ := routing_eq_of_refusalAt? hrecords h
  obtain ⟨heq', -⟩ := routing_eq_of_refusalAt? hrecords' (by rwa [hnumber])
  have hrouting : rule.routing other source = rule.routing dump source := by
    rw [heq, heq', hnumber]
  obtain ⟨failure, hfailure⟩ := Option.ne_none_iff_exists'.1 hrefusal
  have hsplit : rule.split other source = rule.split dump source := by
    rw [Rule.split, Rule.split, hrouting, hfailure]
  rw [apply, apply, hrouting, hsplit]

/-! ## What is told of a dump -/

theorem exists_record_of_told {disk : Disk} {event : Event}
    (h : event ∈ ((rule.apply dump source).run disk).events) :
    ∃ record ∈ dump.numbered, ∃ key shard, rule.keyOf? record = some key ∧
      event = .keyAlreadyRouted source record.2 key shard shard.other := by
  rw [run_apply] at h
  obtain ⟨crossings, -, hmem, hwarnings⟩ := rule.exists_crossings dump source
  rw [hwarnings, List.mem_map] at h
  obtain ⟨crossing, hcrossing, rfl⟩ := h
  obtain ⟨r, hr, -, hkey, -⟩ := (hmem crossing).1 hcrossing
  obtain ⟨hplace, hnumber⟩ := numbered_of_routed hr
  obtain ⟨-, -, -, hfield⟩ :=
    answer_eq_ok_iff.1 ((rule.routed_routing dump source).2 r (List.mem_of_getElem? hr))
  refine ⟨r.place, List.mem_of_getElem? hplace, r.key, crossing.shard, hfield, ?_⟩
  rw [Crossing.warning, ← hnumber, hkey, Routed.place]

/-- What is told while a dump is split that lies in `text`: which of its records is refused, if
    there is one, and at which line of the text each record stands of which anything is said. -/
structure Diagnoses (rule : Rule) (source : Path) (text : String) (dump : Dump) : Prop where
  stands : ∀ record ∈ dump.numbered, Text.HasLine text record.2 record.1
  fails : (∃ failure, rule.split dump source = .error failure) ↔
    ∃ record ∈ dump.numbered, rule.refusalAt? source record ≠ none
  first : ∀ failure, rule.split dump source = .error failure ↔
    ∃ before record after, dump.numbered = before ++ record :: after ∧
      rule.refusalAt? source record = some failure ∧
      ∀ earlier ∈ before, rule.refusalAt? source earlier = none
  rest : ∀ other before line after after', dump.records = before ++ line :: after →
    rule.refusalAt? source (line, dump.lineNumber before.length) ≠ none →
    Dump.preamble other = dump.preamble → other.records = before ++ line :: after' →
    rule.apply other source = rule.apply dump source
  told : rule.TellsOfRecords → ∀ record failure, rule.refusalAt? source record = some failure →
    failure.TellsOf (.ofLine record.1) { source, line := record.2 }
  warned : ∀ disk, ∀ event ∈ ((rule.apply dump source).run disk).events,
    ∃ record ∈ dump.numbered, ∃ key shard, rule.keyOf? record = some key ∧
      event = .keyAlreadyRouted source record.2 key shard shard.other

/-- **What is told of a dump points at its records**: that of the first record that is refused,
    and of no other one, each at its own line of the file. -/
theorem split_diagnoses :
    (∀ table users, (Table.rule users table).TellsOfRecords) ∧
    (∀ record position column failure, Record.field record position column = .error failure →
      failure.TellsOf record position) ∧
    ∀ rule source text dump, Dump.ofLines (Text.lines text) = .ok dump →
      Diagnoses rule source text dump := by
  refine ⟨fun table users => Table.rule_tellsOfRecords users table,
    fun _ _ _ _ => Record.field_tellsOf, fun rule source text dump hdump => ?_⟩
  have hfirst : ∀ failure, rule.split dump source = .error failure ↔
      ∃ before record after, dump.numbered = before ++ record :: after ∧
        rule.refusalAt? source record = some failure ∧
        ∀ earlier ∈ before, rule.refusalAt? source earlier = none := fun failure => by
    rw [split_eq_error_iff, List.findSome?_eq_some_iff]
  exact
    { stands := fun record hrecord => Dump.hasLine_of_mem_numbered hdump hrecord
      fails := by
        simp only [split_eq_error_iff, ← Option.ne_none_iff_exists', ne_eq,
          List.findSome?_eq_none_iff, not_forall, exists_prop]
      first := hfirst
      rest := fun other before line after after' hrecords hrefused hpre hrecords' =>
        apply_eq_of_refusalAt? (by rw [hpre]) hrecords hrecords' hrefused
      told := fun hrule record failure => hrule.of_refusalAt?
      warned := fun disk event hevent => exists_record_of_told hevent }

/-- Users of whom the second one is in the region of no shard, and the third record has one field
    only. -/
theorem split_diagnoses_region :
    let first := ", , u, , , , , , , , \"Beijing\", \n"
    let second := ", , v, , , , , , , , \"Macau\", \n"
    let text := "INSERT INTO u\n" ++ first ++ second ++ ";\n"
    let source := Path.ofString "user.sql"
    let dump : Dump := ⟨["INSERT INTO u\n"], [first, second, ";\n"], []⟩
    let refused : Failure := .unrecognizedRegion { source, line := 3 } "v" "\"Macau\""
    let missing : Failure := .malformed source (.missingField 4 1 userRegion)
    (Dump.ofLines (Text.lines text) = .ok dump ∧ Diagnoses byRegion source text dump ∧
      byRegion.split dump source = .error refused) ∧
    (Record.ofLine ";\n").field { source, line := 4 } userRegion = .error missing ∧
      missing.TellsOf (.ofLine ";\n") { source, line := 4 } := by
  intro first second text source dump refused missing
  have hdump : Dump.ofLines (Text.lines text) = .ok dump :=
    Dump.ofLines_eq_ok_iff.2 ⟨by decide +kernel,
      ⟨[], "INSERT INTO u\n", rfl, by decide +kernel, by simp⟩,
      ⟨[first, second], ";\n", rfl, by decide +kernel, by decide +kernel⟩⟩
  have hdiagnoses := split_diagnoses.2.2 byRegion source text dump hdump
  have hrefused : byRegion.split dump source = .error refused := by
    refine (hdiagnoses.first refused).2 ⟨[(first, 2)], (second, 3), [(";\n", 4)], rfl, ?_, ?_⟩
    · have hfields : (Record.ofLine second).fields =
          ["", "", "v", "", "", "", "", "", "", "", "\"Macau\"", "\n"] := by decide +kernel
      simp [refusalAt?, byRegion, Record.field, hfields, userRegion, userUid, Shard.all, refused,
        Shard.region, bind, Except.bind, throw, throwThe, MonadExceptOf.throw]
    · rintro _ hearlier
      rw [List.mem_singleton.1 hearlier]
      exact Option.isNone_iff_eq_none.1 (by decide +kernel)
  have hmissing : (Record.ofLine ";\n").field { source, line := 4 } userRegion =
      .error missing := by
    have hfields : (Record.ofLine ";\n").fields = [";\n"] := by decide +kernel
    simp [Record.field, hfields, userRegion, missing]
  exact ⟨⟨hdump, hdiagnoses, hrefused⟩, hmissing, split_diagnoses.2.1 _ _ _ _ hmissing⟩

end Rule

end DumpSplit
