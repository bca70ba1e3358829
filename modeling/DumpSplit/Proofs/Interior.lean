/-
  What the rules read of the records of a file: it stands inside a line, and never in the
  field that reaches the end of the line, with or without a line feed there.
-/
import DumpSplit.Proofs.Acceptance
import DumpSplit.Proofs.Fields
import DumpSplit.Proofs.Grammar
import DumpSplit.Proofs.Holders

namespace DumpSplit

/-- A value without anything that ends lines or fields. -/
structure IsInner (value : String) : Prop where
  newline : '\n' ∉ value.toList
  delimiter : ¬ Format.delimiter.toList <:+: value.toList

/-! ## Fields inside a line -/

namespace Record

variable {line value : String} {index : Nat}

theorem isInner_of_lt (hline : '\n' ∉ line.toList.dropLast)
    (hvalue : (ofLine line).fields[index]? = some value)
    (h : index + 1 < (ofLine line).fields.length) : IsInner value where
  newline hmem := by
    obtain ⟨front, back, rfl⟩ := line_eq_of_lt hvalue h
    refine hline ?_
    rw [String.append_assoc, String.toList_append, List.dropLast_append_of_ne_nil]
    · exact List.mem_append_left _ (by simp [hmem])
    · simp [Format.delimiter]
  delimiter := not_delimiter_infix (List.mem_of_getElem? hvalue)

/-- A field that does not end as its line does is not the last one. -/
theorem lt_of_getLast? {c : Char} (hvalue : (ofLine line).fields[index]? = some value)
    (hc : value.toList.getLast? = some c) (hline : line.toList.getLast? ≠ some c) :
    index + 1 < (ofLine line).fields.length := by
  by_contra hlast
  obtain ⟨front, rfl⟩ := line_eq_of_last hvalue (Nat.le_of_not_lt hlast)
  exact hline (by rw [String.toList_append, List.getLast?_append, hc, Option.some_or])

end Record

/-! ## Ends of records -/

theorem Text.exists_getLast?_of_lastVisible? {text : String} {c : Char}
    (h : lastVisible? text = some c) :
    ∃ last, text.toList.getLast? = some last ∧ (isBlank last ∨ last = c) := by
  obtain ⟨front, blanks, htext, -, hblanks⟩ := lastVisible?_eq_some_iff.1 h
  rw [htext]
  rcases List.eq_nil_or_concat blanks with rfl | ⟨before, last, rfl⟩
  · exact ⟨c, by simp, .inr rfl⟩
  · refine ⟨last, List.getLast?_eq_some_iff.2 ⟨front ++ c :: before, by simp⟩, .inl ?_⟩
    exact hblanks last (by simp)

namespace Dump

variable {text line value : String} {dump : Dump} {index : Nat}

section
variable (h : ofLines (Text.lines text) = .ok dump) (hline : line ∈ dump.records)
include h hline

theorem newline_notMem_dropLast : '\n' ∉ line.toList.dropLast := by
  refine ((Text.areLines_lines text).whole line ?_).2
  rw [← (ofLines_eq_ok_iff.1 h).1, lines]
  simp [hline]

/-- A record ends in a blank, which may be its line feed, or in the terminator: the last record
    is closed, and those before it are not at the end of the file. -/
theorem exists_getLast?_of_mem_records :
    ∃ last, line.toList.getLast? = some last ∧ (Text.isBlank last ∨ last = Format.terminator) := by
  obtain ⟨hlines, -, before, final, hrecords, hcloses, -⟩ := ofLines_eq_ok_iff.1 h
  rw [hrecords, List.mem_append, List.mem_singleton] at hline
  rcases hline with hline | rfl
  · refine ⟨'\n', (Text.areLines_lines text).ended line ?_, .inl (by decide)⟩
    have hsplit : dump.preamble ++ (before ++ [final]) ++ dump.suffix =
        (dump.preamble ++ before) ++ (final :: dump.suffix) := by simp
    rw [← hlines, lines, hrecords, hsplit, List.dropLast_append_of_ne_nil (List.cons_ne_nil _ _)]
    exact List.mem_append_left _ (List.mem_append_right _ hline)
  · exact Text.exists_getLast?_of_lastVisible? (beq_iff_eq.1 hcloses)

/-- A quoted field of a record is not its last one. -/
theorem lt_of_quoted (hvalue : (Record.ofLine line).fields[index]? = some value)
    (hquoted : value.toList.getLast? = some '"') :
    index + 1 < (Record.ofLine line).fields.length := by
  refine Record.lt_of_getLast? hvalue hquoted ?_
  obtain ⟨last, hlast, hblank⟩ := exists_getLast?_of_mem_records h hline
  rw [hlast]
  rintro ⟨⟩
  revert hblank
  decide

end

/-! ## What the rules read -/

theorem getLast?_region (shard : Shard) : shard.region.toList.getLast? = some '"' := by
  cases shard <;> decide

theorem twelve_le_of_byRegion {position : Position} {route : Route}
    (h : ofLines (Text.lines text) = .ok dump) (hline : line ∈ dump.records)
    (hroute : Rule.byRegion.route (.ofLine line) position = .ok route) :
    12 ≤ (Record.ofLine line).fields.length := by
  obtain ⟨shard, hregion, -⟩ := Rule.byRegion_route_eq_ok_iff.1 hroute
  exact lt_of_quoted h hline hregion (getLast?_region shard)

theorem six_le_of_byCategory {position : Position}
    (h : ofLines (Text.lines text) = .ok dump) (hline : line ∈ dump.records)
    (hroute : Rule.byCategory.route (.ofLine line) position = .ok .both) :
    6 ≤ (Record.ofLine line).fields.length := by
  obtain ⟨category, hcategory, hboth⟩ := Rule.byCategory_route_eq_ok_iff.1 hroute
  split_ifs at hboth with hshared
  subst hshared
  exact lt_of_quoted h hline hcategory (by decide)

/-- The keys of users and articles stand before other fields that these tables ask for. -/
theorem isInner_of_mem_keys (users : KeySets) (table : Table) {source : Path} {split : Split}
    {shard : Shard} {key : String} (htable : table ≠ .userRead)
    (h : ofLines (Text.lines text) = .ok dump)
    (hsplit : (table.rule users).split dump source = .ok split)
    (hkey : key ∈ split.keys.of shard) : IsInner key := by
  rw [Split.keys, Routing.mem_keysOf] at hkey
  obtain ⟨r, hr, -, rfl⟩ := hkey
  have hline : r.line ∈ dump.records := by
    rw [← Split.map_line_routed hsplit]
    exact List.mem_map_of_mem hr
  have haccepts := Table.exists_split_eq_ok_iff_accepts.1 ⟨split, hsplit⟩ r.line hline
  refine Record.isInner_of_lt (newline_notMem_dropLast h hline) (Split.field_key_eq hsplit hr) ?_
  cases table with
  | user => exact Nat.lt_of_lt_of_le (show 3 < 11 by decide) haccepts.1
  | article => exact Nat.lt_of_lt_of_le (show 3 < 5 by decide) haccepts
  | userRead => exact absurd rfl htable

/-- The region of a user with eleven fields reaches the end of the line, and is none. -/
theorem split_eq_error_of_length_eq {source : Path} {before after : List String}
    (h : ofLines (Text.lines text) = .ok dump) (hrecords : dump.records = before ++ line :: after)
    (hbefore : ∀ earlier ∈ before, ∃ position route,
      Rule.byRegion.route (.ofLine earlier) position = .ok route)
    (hlength : (Record.ofLine line).fields.length = 11) :
    ∃ uid region, (Record.ofLine line).fields[2]? = some uid ∧
      (Record.ofLine line).fields[10]? = some region ∧
      Rule.byRegion.split dump source = .error (.unrecognizedRegion
        { source, line := dump.lineNumber before.length } uid region) := by
  have hline : line ∈ dump.records := by simp [hrecords]
  have huid : (Record.ofLine line).fields[2]? = some _ := List.getElem?_eq_getElem (by omega)
  have hregion : (Record.ofLine line).fields[10]? = some _ := List.getElem?_eq_getElem (by omega)
  have hne : ∀ shard : Shard, (Record.ofLine line).fields[10] ≠ shard.region := fun shard heq => by
    have hlt := lt_of_quoted h hline hregion (by rw [heq, getLast?_region])
    omega
  have herror : (Table.user.rule {}).split dump source = .error _ :=
    Table.split_eq_error_iff_refuses.2 ⟨before, line, after, hrecords,
      fun earlier hearlier => ?_, .region huid hregion (hne .one) (hne .two)⟩
  · exact ⟨_, _, huid, hregion, herror⟩
  · obtain ⟨position, hroute⟩ := hbefore earlier hearlier
    exact (Table.exists_route_eq_ok_iff position).1 hroute

/-! ## Files -/

/-- What the rules read of the records of a dump, they find inside the lines. -/
structure ReadsInside (dump : Dump) : Prop where
  region : ∀ line ∈ dump.records, ∀ position route,
    Rule.byRegion.route (.ofLine line) position = .ok route →
    12 ≤ (Record.ofLine line).fields.length
  category : ∀ line ∈ dump.records, ∀ position,
    Rule.byCategory.route (.ofLine line) position = .ok .both →
    6 ≤ (Record.ofLine line).fields.length
  users : ∀ source split, Rule.byRegion.split dump source = .ok split →
    ∀ shard, ∀ key ∈ split.keys.of shard, IsInner key
  articles : ∀ source split, Rule.byCategory.split dump source = .ok split →
    ∀ shard, ∀ key ∈ split.keys.of shard, IsInner key
  reads : ∀ source split, Rule.byRegion.split dump source = .ok split →
    ∀ readDump readSource readSplit,
      (Rule.byUser split.keys).split readDump readSource = .ok readSplit →
      ∀ shard, ∀ key ∈ readSplit.keys.of shard, IsInner key
  eleven : ∀ source before line after, dump.records = before ++ line :: after →
    (∀ earlier ∈ before, ∃ position route,
      Rule.byRegion.route (.ofLine earlier) position = .ok route) →
    (Record.ofLine line).fields.length = 11 →
    ∃ uid region, (Record.ofLine line).fields[2]? = some uid ∧
      (Record.ofLine line).fields[10]? = some region ∧
      Rule.byRegion.split dump source = .error (.unrecognizedRegion
        { source, line := dump.lineNumber before.length } uid region)

/-- **No rule reads the end of a line.**  Of a dump in a file, the fields by which users and
    articles are routed are followed by others, and no key has a line feed in it.  A user
    whose region is the last field is refused for it. -/
theorem ofLines_readsInside (text : String) (dump : Dump)
    (h : ofLines (Text.lines text) = .ok dump) : ReadsInside dump where
  region line hline position route := twelve_le_of_byRegion h hline
  category line hline position := six_le_of_byCategory h hline
  users source split hsplit shard key := isInner_of_mem_keys {} .user (by decide) h hsplit
  articles source split hsplit shard key := isInner_of_mem_keys {} .article (by decide) h hsplit
  reads source split hsplit readDump readSource readSplit hreads shard key hkey := by
    obtain ⟨hholder, -⟩ := (Split.mem_keys_iff_holder? hreads).1 hkey
    exact isInner_of_mem_keys {} .user (by decide) h hsplit
      (KeySets.mem_of_holder?_eq_some hholder)
  eleven source before line after hrecords hbefore hlength :=
    split_eq_error_of_length_eq h hrecords hbefore hlength

/-- Users of whom the second one is in the first shard's region, but for what ends the file. -/
theorem ofLines_readsInside_eleven :
    let first := ", , u, , , , , , , , \"Beijing\", \n"
    let second := ", , v, , , , , , , , \"Beijing\");"
    let text := "INSERT INTO u\n" ++ first ++ second
    let dump : Dump := ⟨["INSERT INTO u\n"], [first, second], []⟩
    let source := Path.ofString "user.sql"
    ofLines (Text.lines text) = .ok dump ∧ ReadsInside dump ∧
      12 ≤ (Record.ofLine first).fields.length ∧
      Rule.byRegion.split dump source =
        .error (.unrecognizedRegion { source, line := 3 } "v" "\"Beijing\");") := by
  intro first second text dump source
  have hdump : ofLines (Text.lines text) = .ok dump := by decide +kernel
  have hinside := ofLines_readsInside text dump hdump
  have hfields : (Record.ofLine second).fields =
      ["", "", "v", "", "", "", "", "", "", "", "\"Beijing\");"] := by decide +kernel
  have hfirst : Rule.byRegion.route (.ofLine first) { source, line := 2 } = .ok (.only .one) :=
    Rule.byRegion_route_eq_ok_iff.2 ⟨.one, by decide +kernel, rfl⟩
  obtain ⟨uid, region, huid, hregion, herror⟩ := hinside.eleven source [first] second [] rfl
    (fun earlier hearlier => ⟨_, _, List.mem_singleton.1 hearlier ▸ hfirst⟩) (by rw [hfields]; rfl)
  rw [hfields] at huid hregion
  cases huid
  cases hregion
  exact ⟨hdump, hinside, hinside.region first (by simp [dump]) _ _ hfirst, herror⟩

end Dump

end DumpSplit
