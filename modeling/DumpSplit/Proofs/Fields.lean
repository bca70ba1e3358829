/-
  Fields of lines: put together again they are the line, none of them holds a delimiter, all
  values without delimiters are the fields of the line that they make, and only the last
  field reaches the end of its line.
-/
import DumpSplit.Record
import Mathlib.Data.List.Infix
import Mathlib.Data.Set.Function

namespace DumpSplit

/-! ## Cutting -/

theorem cutFields_ne_nil (field cs : List Char) : cutFields field cs ≠ [] := by
  fun_induction cutFields field cs <;> simp_all

theorem intercalate_cutFields (field cs : List Char) :
    [',', ' '].intercalate (cutFields field cs) = field.reverse ++ cs := by
  fun_induction cutFields field cs with
  | case1 field => simp
  | case2 field rest ih =>
    rw [List.intercalate_cons_of_ne_nil (cutFields_ne_nil _ _), ih]
    simp
  | case3 field c rest hne ih => simp [ih]

/-- No field holds a delimiter.  What has been read of a field holds none, and its last
    character makes none with the next one. -/
theorem not_infix_of_mem_cutFields {field cs value : List Char} (hfield : ¬ [' ', ','] <:+: field)
    (hseam : field.head? = some ',' → cs.head? ≠ some ' ') (h : value ∈ cutFields field cs) :
    ¬ [',', ' '] <:+: value := by
  fun_induction cutFields field cs with
  | case1 field =>
    rw [List.mem_singleton.1 h]
    rwa [← List.reverse_infix, List.reverse_reverse]
  | case2 field rest ih =>
    rcases List.mem_cons.1 h with rfl | h
    · rwa [← List.reverse_infix, List.reverse_reverse]
    · exact ih (by simp) (by simp) h
  | case3 field c rest hne ih =>
    refine ih (fun hinfix => ?_) (fun hc hrest => ?_) h
    · rcases List.infix_cons_iff.1 hinfix with hprefix | hinfix
      · obtain ⟨rfl, read, rfl⟩ := List.cons_prefix_cons.1 hprefix
        exact hseam rfl rfl
      · exact hfield hinfix
    · obtain rfl : c = ',' := Option.some.inj hc
      obtain ⟨rest, rfl⟩ := List.head?_eq_some_iff.1 hrest
      exact hne rest rfl rfl

theorem cutFields_cons {field cs : List Char} {c : Char} (h : ¬ [',', ' '] <+: c :: cs) :
    cutFields field (c :: cs) = cutFields (c :: field) cs := by
  rw [cutFields]
  rintro rest rfl rfl
  exact h ⟨rest, rfl⟩

/-- A value without delimiters is read to its end, unless what follows makes one with its last
    character. -/
theorem cutFields_append {field value rest : List Char} (hvalue : ¬ [',', ' '] <:+: value)
    (hrest : rest.head? ≠ some ' ') :
    cutFields field (value ++ rest) = cutFields (value.reverse ++ field) rest := by
  induction value generalizing field with
  | nil => rfl
  | cons c value ih =>
    obtain ⟨hstart, hinfix⟩ := not_or.1 (mt List.infix_cons_iff.2 hvalue)
    have hcut : ¬ [',', ' '] <+: c :: (value ++ rest) := by
      rw [List.cons_prefix_cons] at hstart ⊢
      rintro ⟨rfl, hblank⟩
      -- The blank of a delimiter that begins at `c` stands in `value` or at the start of `rest`.
      cases value with
      | nil => exact hrest (List.singleton_prefix_iff_head?_eq_some.1 hblank)
      | cons d value => exact hstart ⟨rfl, by simpa using hblank⟩
    rw [List.cons_append, cutFields_cons hcut, ih hinfix]
    simp

theorem cutFields_of_not_infix {value : List Char} (h : ¬ [',', ' '] <:+: value) :
    cutFields [] value = [value] := by
  have hread : cutFields [] (value ++ []) = cutFields (value.reverse ++ []) [] :=
    cutFields_append h (by simp)
  simpa [cutFields] using hread

theorem cutFields_append_delimiter {value : List Char} (h : ¬ [',', ' '] <:+: value)
    (rest : List Char) :
    cutFields [] (value ++ ',' :: ' ' :: rest) = value :: cutFields [] rest := by
  rw [cutFields_append h (by simp)]
  simp [cutFields]

/-- The delimiters that are put between values are those at which the cuts are made: none is
    found earlier, since a value is followed by a comma, and none later, since what is read of
    a field begins anew. -/
theorem cutFields_intercalate {values : List (List Char)} (hvalues : values ≠ [])
    (h : ∀ value ∈ values, ¬ [',', ' '] <:+: value) :
    cutFields [] ([',', ' '].intercalate values) = values := by
  induction values with
  | nil => exact absurd rfl hvalues
  | cons first rest ih =>
    obtain ⟨hfirst, hrest⟩ := List.forall_mem_cons.1 h
    cases rest with
    | nil => rw [List.intercalate_singleton, cutFields_of_not_infix hfirst]
    | cons second rest =>
      rw [List.intercalate_cons_cons, List.append_assoc, List.cons_append, List.singleton_append,
        cutFields_append_delimiter hfirst, ih (List.cons_ne_nil _ _) hrest]

/-! ## Lines and their records -/

namespace Record

variable {line value : String} {record : Record}

/-- The fields of a line, with delimiters between them, are the line. -/
theorem toLine_ofLine (line : String) : (ofLine line).toLine = line := by
  rw [← String.toList_inj, toLine, String.toList_intercalate, ofLine, List.map_map]
  simp [Format.delimiter, Function.comp_def, intercalate_cutFields]

theorem not_delimiter_infix (h : value ∈ (ofLine line).fields) :
    ¬ Format.delimiter.toList <:+: value.toList := by
  obtain ⟨chars, hchars, rfl⟩ := List.mem_map.1 h
  rw [String.toList_ofList]
  exact not_infix_of_mem_cutFields (by simp) (by simp) hchars

/-- The records of lines: there is a field, and no field holds a delimiter. -/
structure IsCut (record : Record) : Prop where
  nonempty : record.fields ≠ []
  undelimited : ∀ value ∈ record.fields, ¬ Format.delimiter.toList <:+: value.toList

instance (record : Record) : Decidable record.IsCut :=
  decidable_of_iff (record.fields ≠ [] ∧
      ∀ value ∈ record.fields, ¬ Format.delimiter.toList <:+: value.toList)
    ⟨fun ⟨nonempty, undelimited⟩ => ⟨nonempty, undelimited⟩,
      fun ⟨nonempty, undelimited⟩ => ⟨nonempty, undelimited⟩⟩

theorem isCut_ofLine (line : String) : (ofLine line).IsCut where
  nonempty := by simp [ofLine, cutFields_ne_nil]
  undelimited _ hvalue := not_delimiter_infix hvalue

theorem ofLine_toLine (h : record.IsCut) : ofLine record.toLine = record := by
  have hcut : cutFields [] ([',', ' '].intercalate (record.fields.map String.toList)) =
      record.fields.map String.toList := by
    refine cutFields_intercalate (by simpa using h.nonempty) fun chars hchars => ?_
    obtain ⟨value, hvalue, rfl⟩ := List.mem_map.1 hchars
    exact h.undelimited value hvalue
  rw [ofLine, toLine, String.toList_intercalate, show Format.delimiter.toList = [',', ' '] from rfl,
    hcut]
  simp [Function.comp_def]

theorem ofLine_toLine_eq_iff : ofLine record.toLine = record ↔ record.IsCut :=
  ⟨fun h => h ▸ isCut_ofLine _, ofLine_toLine⟩

/-- **Lines and records** are in bijection: every line comes back from its fields, of which
    there is one at least and none with a delimiter, and a record comes back from its line
    exactly if it is of this kind, whatever its fields begin or end with. -/
theorem ofLine_bijOn :
    (∀ line, (ofLine line).toLine = line ∧ (ofLine line).IsCut) ∧
    (∀ record, ofLine record.toLine = record ↔ record.IsCut) ∧
    Set.BijOn ofLine Set.univ {record | record.IsCut} := by
  have hinverse : Set.InvOn toLine ofLine Set.univ {record | record.IsCut} :=
    ⟨fun line _ => toLine_ofLine line, fun record hrecord => ofLine_toLine hrecord⟩
  refine ⟨fun line => ⟨toLine_ofLine line, isCut_ofLine line⟩,
    fun record => ofLine_toLine_eq_iff, ?_⟩
  exact hinverse.bijOn (fun line _ => isCut_ofLine line) fun record _ => Set.mem_univ record.toLine

/-- Fields that end in a comma, begin with a blank or are empty come back; a field that holds a
    delimiter does not, nor does a record without fields. -/
theorem ofLine_bijOn_straddled :
    let record : Record := ⟨["a,", " b", "", ","]⟩
    let line := "a,,  b, , ,"
    (record.IsCut ∧ record.toLine = line ∧ ofLine line = record) ∧
      ofLine (toLine ⟨["a, b"]⟩) ≠ ⟨["a, b"]⟩ ∧ ofLine (toLine ⟨[]⟩) ≠ ⟨[]⟩ := by
  intro record line
  obtain ⟨-, hrecords, -⟩ := ofLine_bijOn
  have hcut : record.IsCut := by decide
  have hline : record.toLine = line := by decide
  refine ⟨⟨hcut, hline, hline ▸ (hrecords record).2 hcut⟩, ?_, ?_⟩
  · exact mt (hrecords _).1 (by decide)
  · exact mt (hrecords _).1 (by decide)

end Record

/-! ## Places of fields -/

/-- What stands before the last item of a list is followed by a delimiter. -/
theorem exists_intercalate_of_mem_dropLast {values : List String} {delimiter value : String}
    (h : value ∈ values.dropLast) :
    ∃ front back, delimiter.intercalate values = front ++ value ++ delimiter ++ back := by
  induction values with
  | nil => simp at h
  | cons first rest ih =>
    cases rest with
    | nil => simp at h
    | cons second rest =>
      rw [String.intercalate_cons_cons]
      rcases List.mem_cons.1 h with rfl | h
      · exact ⟨"", delimiter.intercalate (second :: rest), by simp⟩
      · obtain ⟨front, back, hrest⟩ := ih h
        exact ⟨first ++ delimiter ++ front, back, by rw [hrest]; simp [String.append_assoc]⟩

/-- The last item of a list is not. -/
theorem exists_intercalate_of_getLast? {values : List String} {delimiter value : String}
    (h : values.getLast? = some value) :
    ∃ front, delimiter.intercalate values = front ++ value := by
  obtain ⟨before, rfl⟩ := List.getLast?_eq_some_iff.1 h
  by_cases hbefore : before = []
  · subst hbefore
    exact ⟨"", by simp⟩
  · exact ⟨delimiter.intercalate before ++ delimiter, by
      rw [String.intercalate_append_of_ne_nil hbefore (by simp), String.intercalate_singleton]⟩

namespace Record

variable {line value : String} {index : Nat}

/-- A field that is not the last one is followed by a delimiter. -/
theorem line_eq_of_lt (hvalue : (ofLine line).fields[index]? = some value)
    (h : index + 1 < (ofLine line).fields.length) :
    ∃ front back, line = front ++ value ++ Format.delimiter ++ back := by
  have hmem : value ∈ (ofLine line).fields.dropLast := by
    refine List.mem_iff_getElem?.2 ⟨index, ?_⟩
    rwa [List.getElem?_dropLast, if_pos (by omega)]
  obtain ⟨front, back, hline⟩ := exists_intercalate_of_mem_dropLast hmem
  exact ⟨front, back, (toLine_ofLine line).symm.trans hline⟩

/-- The last field ends with its line. -/
theorem line_eq_of_last (hvalue : (ofLine line).fields[index]? = some value)
    (h : (ofLine line).fields.length ≤ index + 1) : ∃ front, line = front ++ value := by
  have hlast : (ofLine line).fields.getLast? = some value := by
    have hlt := (List.getElem?_eq_some_iff.1 hvalue).1
    rw [List.getLast?_eq_getElem?, ← hvalue]
    congr 1
    omega
  obtain ⟨front, hline⟩ := exists_intercalate_of_getLast? hlast
  exact ⟨front, (toLine_ofLine line).symm.trans hline⟩

end Record

end DumpSplit
