/-
  Cuts: the text of a summary in which a path is no text ends where that path would stand.
  A summary is written part by part, and what comes after the first such path is not looked at.
-/
import DumpSplit.Proofs.Readback
import Mathlib.Data.List.Forall2

namespace DumpSplit

/-! ## Writing part by part -/

theorem toString_natCast (n : Nat) : toString (n : Int) = toString n := by
  rw [Int.toString_eq_repr, Int.repr_eq_if, if_pos (Int.natCast_nonneg n), Int.toNat_natCast,
    Nat.toString_eq_repr]

namespace Json.Written

theorem mk_append_congr {s t : String} {written written' : Written} (htext : s = t)
    (hrest : written = written') :
    ({ text := s } ++ written : Written) = { text := t } ++ written' := by
  rw [htext, hrest]

end Json.Written

open Json (Written)

/-- A part of a saved summary: a text that is always the same, or the place of a path. -/
inductive Part
  | fixed (text : String)
  | slot (path : Path)

namespace Part

def written : Part → Written
  | fixed text => { text }
  | slot path => path.toJson.pretty 0

def path? : Part → Option Path
  | fixed _ => none
  | slot path => some path

/-- What is written of parts in a row. -/
def writtenAll (parts : List Part) : Written :=
  parts.foldr (fun part rest => part.written ++ rest) { text := "" }

end Part

/-- The parts of a result among the items of the tables. -/
def TableResult.parts (result : TableResult) : List Part :=
  [.fixed ("\x7b\n      \"table\": \"" ++ result.table.name ++ "\",\n      \"source\": "),
    .slot result.source,
    .fixed ",\n      \"outputs\": [\n        ",
    .slot (result.output .one),
    .fixed ",\n        ",
    .slot (result.output .two),
    .fixed ("\n      ],\n      \"records\": " ++ toString result.records ++
      ",\n      \"shard1_records\": " ++ toString (result.count .one) ++
      ",\n      \"shard2_records\": " ++ toString (result.count .two) ++ "\n    \x7d")]

theorem Path.pretty_toJson (path : Path) (level : Nat) :
    path.toJson.pretty level = path.toJson.pretty 0 := by
  unfold toJson
  split <;> rfl

theorem TableResult.pretty_toJson (result : TableResult) :
    result.toJson.pretty 2 = Part.writtenAll result.parts := by
  have hname : Json.stringForm result.table.name = "\"" ++ result.table.name ++ "\"" :=
    Json.stringForm_of_plain (by cases result.table <;> decide)
  simp only [toJson, Shard.all, Shard.numbers, Shard.name, List.map_cons, List.map_nil,
    List.cons_append, List.nil_append, Json.pretty, Json.prettyItems, Json.prettyFields,
    Path.pretty_toJson, hname, toString_natCast, Json.newLine, parts, Part.writtenAll, Part.written,
    List.foldr_cons, List.foldr_nil]
  simp (disch := decide) only [Json.stringForm_of_plain, Written.append_assoc,
    Written.mk_append_mk_append, Written.mk_append_mk]
  refine Written.mk_append_congr ?_ (congrArg _ (Written.mk_append_congr ?_ (congrArg _
    (Written.mk_append_congr ?_ (congrArg _ (congrArg (Written.mk · true) ?_))))))
  all_goals simp [← String.toList_inj, List.replicate]

namespace Part

theorem writtenAll_cons (part : Part) (parts : List Part) :
    writtenAll (part :: parts) = part.written ++ writtenAll parts :=
  rfl

theorem writtenAll_nil : writtenAll [] = { text := "" } := rfl

theorem writtenAll_append (parts more : List Part) :
    writtenAll (parts ++ more) = writtenAll parts ++ writtenAll more := by
  induction parts with
  | nil => rw [List.nil_append]; exact (Written.empty_append _).symm
  | cons part parts ih =>
    rw [List.cons_append, writtenAll_cons, writtenAll_cons, ih, Written.append_assoc]

end Part

/-- The parts of the results in a summary. -/
def tableParts : List TableResult → List Part
  | [] => [.fixed "[]"]
  | result :: rest =>
    .fixed "[\n    " :: (result.parts ++
      rest.flatMap (fun result => .fixed ",\n    " :: result.parts) ++ [.fixed "\n  ]"])

/-- The parts of a summary. -/
def Summary.parts (summary : Summary) : List Part :=
  .fixed "\x7b\n  \"tables\": " :: (tableParts summary.tables ++
    [.fixed (",\n  \"shard1_users\": " ++ toString (summary.users .one) ++
      ",\n  \"shard2_users\": " ++ toString (summary.users .two) ++ "\n\x7d")])

theorem prettyItems_toJson (rest : List TableResult) :
    Json.prettyItems 2 (rest.map (·.toJson)) =
      Part.writtenAll (rest.flatMap fun result => .fixed ",\n    " :: result.parts) := by
  induction rest with
  | nil => rfl
  | cons result rest ih =>
    rw [List.map_cons, Json.prettyItems, List.flatMap_cons, Part.writtenAll_append, ih,
      TableResult.pretty_toJson]
    rfl

theorem pretty_tables (tables : List TableResult) :
    (Json.array (tables.map (·.toJson))).pretty 1 = Part.writtenAll (tableParts tables) := by
  cases tables with
  | nil => rfl
  | cons result rest =>
    simp only [tableParts, List.map_cons, Json.pretty, Nat.reduceAdd, TableResult.pretty_toJson,
      prettyItems_toJson, Part.writtenAll_cons, Part.writtenAll_append, Part.writtenAll_nil,
      Part.written, Json.newLine, Written.append_assoc, Written.mk_append_mk]
    rfl

/-- **A summary is written part by part.** -/
theorem Summary.pretty_toJson (summary : Summary) :
    summary.toJson.pretty 0 = Part.writtenAll summary.parts := by
  simp (disch := decide) only [toJson, Shard.all, Shard.numbers, Shard.name, List.map_cons,
    List.map_nil, Json.pretty, Json.prettyFields, toString_natCast, Json.newLine, Nat.reduceAdd,
    pretty_tables, parts, Json.stringForm_of_plain, Part.writtenAll_cons, Part.writtenAll_append,
    Part.writtenAll_nil, Part.written, Written.append_assoc, Written.mk_append_mk]
  refine Written.mk_append_congr ?_ (congrArg _ (congrArg (Written.mk · true) ?_))
  all_goals simp [← String.toList_inj, List.replicate]

theorem Part.filterMap_fixed (text : String) (parts : List Part) :
    (fixed text :: parts).filterMap path? = parts.filterMap path? :=
  rfl

theorem Summary.filterMap_parts (summary : Summary) :
    summary.parts.filterMap Part.path? = summary.paths := by
  have hrest : ∀ rest : List TableResult,
      (rest.flatMap fun result => .fixed ",\n    " :: result.parts).filterMap Part.path? =
        rest.flatMap (·.paths) := fun rest => by
    rw [List.filterMap_flatMap]; rfl
  have htables : ∀ tables, (tableParts tables).filterMap Part.path? =
      tables.flatMap (·.paths) := fun tables => by
    cases tables with
    | nil => rfl
    | cons result rest =>
      rw [tableParts, Part.filterMap_fixed, List.filterMap_append, List.filterMap_append, hrest,
        Part.filterMap_fixed, List.filterMap_nil, List.append_nil, List.flatMap_cons]
      rfl
  rw [parts, Part.filterMap_fixed, List.filterMap_append, htables, Part.filterMap_fixed,
    List.filterMap_nil, List.append_nil, paths]

/-! ## Parts with paths that are no text -/

namespace Part

variable {part part' : Part} {parts front back : List Part} {path bad : Path} {text : String}

/-- Whether the path of a part, if it has one, is text. -/
def IsText (part : Part) : Prop := ∀ path ∈ part.path?, path.IsText

theorem written_slot_ofString (text : String) :
    (slot (.ofString text)).written = { text := Json.stringForm text } := by
  rw [written, Path.toJson, Path.text?_eq_some_iff.2 rfl, Json.pretty]

theorem written_slot_of_not_isText (h : ¬ path.IsText) :
    (slot path).written = { text := "", whole := false } := by
  rw [written, Path.toJson, Option.not_isSome_iff_eq_none.1 h, Json.pretty]

theorem whole_written_iff : part.written.whole = true ↔ part.IsText := by
  cases part with
  | fixed text => simp [written, IsText, path?]
  | slot path =>
    by_cases h : path.IsText
    · obtain ⟨text, rfl, -⟩ := Path.toJson_of_isText h
      simp [written_slot_ofString, IsText, path?, h]
    · simp [written_slot_of_not_isText h, IsText, path?, h]

theorem whole_writtenAll_iff :
    (writtenAll parts).whole = true ↔ ∀ part ∈ parts, part.IsText := by
  induction parts with
  | nil => simp [writtenAll_nil]
  | cons part parts ih =>
    rw [writtenAll_cons, Written.whole_append, Bool.and_eq_true, whole_written_iff, ih,
      List.forall_mem_cons]

theorem forall_isText_iff :
    (∀ part ∈ parts, part.IsText) ↔ ∀ path ∈ parts.filterMap path?, path.IsText := by
  simp only [List.mem_filterMap, IsText]
  exact ⟨fun h path ⟨part, hpart, hpath⟩ => h part hpart path hpath,
    fun h part hpart path hpath => h path ⟨part, hpart, hpath⟩⟩

/-- Writing ends at the first path that is no text. -/
theorem writtenAll_cut (hfront : ∀ part ∈ front, part.IsText) (hbad : ¬ bad.IsText)
    (back : List Part) : writtenAll (front ++ slot bad :: back) =
      { text := (writtenAll front).text, whole := false } := by
  have hwhole := whole_writtenAll_iff.2 hfront
  have hrest : (writtenAll (slot bad :: back)) = { text := "", whole := false } := by
    rw [writtenAll_cons, written_slot_of_not_isText hbad]; rfl
  rw [writtenAll_append, hrest]
  generalize writtenAll front = written at hwhole ⊢
  obtain ⟨text, whole⟩ := written
  obtain rfl : whole = true := hwhole
  exact congrArg (Written.mk · false) String.append_empty

/-- Writing goes on behind a path that is text. -/
theorem text_writtenAll_of_isText (hfront : ∀ part ∈ front, part.IsText) (text : String)
    (back : List Part) : (writtenAll (front ++ slot (.ofString text) :: back)).text =
      (writtenAll front).text ++ Json.stringForm text ++ (writtenAll back).text := by
  rw [writtenAll_append, Written.text_append (whole_writtenAll_iff.2 hfront), writtenAll_cons,
    written_slot_ofString, Written.text_append rfl, String.append_assoc]

end Part

/-! ## Mended summaries -/

/-- Whether `other` is text that may stand for `path`. -/
structure Path.Mends (other path : Path) : Prop where
  isText : other.IsText
  eq : path.IsText → other = path

/-- The same result, apart from paths that were no text. -/
structure TableResult.Mends (other result : TableResult) : Prop where
  table : other.table = result.table
  source : other.source.Mends result.source
  output : ∀ shard, (other.output shard).Mends (result.output shard)
  records : other.records = result.records
  count : other.count = result.count

/-- The same summary, apart from paths that were no text. -/
structure Summary.Mends (other summary : Summary) : Prop where
  tables : List.Forall₂ TableResult.Mends other.tables summary.tables
  users : other.users = summary.users

/-- The same part, apart from a path that was no text. -/
inductive Part.Mends : Part → Part → Prop
  | fixed (text : String) : Mends (.fixed text) (.fixed text)
  | slot {path path' : Path} : path'.Mends path → Mends (.slot path') (.slot path)

/-- Every summary can be mended. -/
theorem Summary.exists_mends (summary : Summary) : ∃ other : Summary, other.Mends summary := by
  have hpath : ∀ path : Path, ∃ other : Path, other.Mends path := fun path => by
    by_cases h : path.IsText
    · exact ⟨path, h, fun _ => rfl⟩
    · exact ⟨.ofString "", by decide, fun htext => absurd htext h⟩
  choose mend hmend using hpath
  refine ⟨{ summary with
    tables := summary.tables.map fun result => { result with
      source := mend result.source
      output := fun shard => mend (result.output shard) } }, ?_, rfl⟩
  rw [List.forall₂_map_left_iff, List.forall₂_same]
  exact fun result _ => ⟨rfl, hmend _, fun shard => hmend _, rfl, rfl⟩

theorem TableResult.Mends.parts {other result : TableResult} (h : other.Mends result) :
    List.Forall₂ Part.Mends other.parts result.parts := by
  obtain ⟨htable, hsource, houtput, hrecords, hcount⟩ := h
  rw [TableResult.parts, htable, hrecords, hcount]
  exact .cons (.fixed _) (.cons (.slot hsource) (.cons (.fixed _) (.cons (.slot (houtput .one))
    (.cons (.fixed _) (.cons (.slot (houtput .two)) (.cons (.fixed _) .nil))))))

theorem mends_tableParts {tables' tables : List TableResult}
    (h : List.Forall₂ TableResult.Mends tables' tables) :
    List.Forall₂ Part.Mends (tableParts tables') (tableParts tables) := by
  cases h with
  | nil => exact .cons (.fixed _) .nil
  | cons hresult hrest =>
    have hmore := List.rel_flatMap hrest fun _ _ hresult =>
      List.Forall₂.cons (Part.Mends.fixed ",\n    ") hresult.parts
    exact .cons (.fixed _) (List.rel_append (List.rel_append hresult.parts hmore)
      (.cons (.fixed _) .nil))

theorem Summary.Mends.parts {other summary : Summary} (h : other.Mends summary) :
    List.Forall₂ Part.Mends other.parts summary.parts := by
  rw [Summary.parts, h.users]
  exact .cons (.fixed _) (List.rel_append (mends_tableParts h.tables) (.cons (.fixed _) .nil))

namespace Part

variable {part part' : Part} {parts' front back : List Part} {bad : Path}

theorem Mends.eq (h : part'.Mends part) (hpart : part.IsText) : part' = part := by
  cases h with
  | fixed text => rfl
  | slot hpath => rw [hpath.eq (hpart _ rfl)]

theorem Mends.isText (h : part'.Mends part) : part'.IsText := by
  cases h with
  | fixed text => exact fun path hpath => by cases hpath
  | slot hpath => exact fun path heq => Option.some.inj heq ▸ hpath.isText

theorem forall_isText_of_mends (h : List.Forall₂ Mends parts' front) :
    ∀ part ∈ parts', part.IsText := by
  induction h with
  | nil => simp
  | cons hpart _ ih => exact List.forall_mem_cons.2 ⟨hpart.isText, ih⟩

/-- Parts are mended without a change in front of the first path that is no text. -/
theorem exists_of_mends_append (hfront : ∀ part ∈ front, part.IsText)
    (h : List.Forall₂ Mends parts' (front ++ .slot bad :: back)) : ∃ text back',
      parts' = front ++ .slot (.ofString text) :: back' := by
  induction front generalizing parts' with
  | nil =>
    obtain ⟨part, back', hpart, -, rfl⟩ := List.forall₂_cons_right_iff.1 h
    cases hpart with
    | slot hpath =>
      obtain ⟨text, rfl, -⟩ := Path.toJson_of_isText hpath.isText
      exact ⟨text, back', rfl⟩
  | cons part front ih =>
    obtain ⟨hpart, hfront⟩ := List.forall_mem_cons.1 hfront
    obtain ⟨part', rest, hmends, hrest, rfl⟩ := List.forall₂_cons_right_iff.1 h
    obtain ⟨text, back', rfl⟩ := ih hfront hrest
    exact ⟨text, back', by rw [hmends.eq hpart]; rfl⟩

end Part

/-! ## Saving -/

namespace Summary

/-- All of a summary is written if its paths are text. -/
theorem whole_pretty_toJson_iff {summary : Summary} :
    (summary.toJson.pretty 0).whole = true ↔ ∀ path ∈ summary.paths, path.IsText := by
  rw [pretty_toJson, Part.whole_writtenAll_iff, Part.forall_isText_iff, filterMap_parts]

theorem Mends.isText {other summary : Summary} (h : other.Mends summary) :
    ∀ path ∈ other.paths, path.IsText := by
  rw [← filterMap_parts, ← Part.forall_isText_iff]
  exact Part.forall_isText_of_mends h.parts

/-- The parts around a path. -/
theorem exists_parts_eq {summary : Summary} {before behind : List Path} {bad : Path}
    (h : summary.paths = before ++ bad :: behind) : ∃ front back,
      summary.parts = front ++ .slot bad :: back ∧ front.filterMap Part.path? = before := by
  rw [← filterMap_parts, List.filterMap_eq_append_iff] at h
  obtain ⟨front, rest, hparts, hfront, hrest⟩ := h
  obtain ⟨fixed, part, back, rfl, hfixed, hpart, -⟩ := List.filterMap_eq_cons_iff.1 hrest
  refine ⟨front ++ fixed, back, ?_, ?_⟩
  · cases part with
    | fixed text => cases hpart
    | slot path =>
      obtain rfl := Option.some.inj hpart
      rw [hparts, List.append_assoc]
  · rw [List.filterMap_append, hfront, List.filterMap_eq_nil_iff.2 hfixed, List.append_nil]

/-- **Saving ends at the first path that is no text.**  A summary is saved if all its paths are
    text, and else refused.  Then its file holds what every mended summary is saved as up to
    the path that stands in the place of the first one that is no text. -/
theorem save_cut (summary : Summary) :
    (∀ disk file, Disk.OpensFile disk file → ((summary.save file).run disk).result =
      if ∀ path ∈ summary.paths, path.IsText then .ok () else .error (.json .unwritablePath)) ∧
    ∀ before bad behind, summary.paths = before ++ bad :: behind →
      (∀ path ∈ before, path.IsText) → ¬ bad.IsText → ∃ held : String,
        (∀ disk file, Disk.OpensFile disk file → ∃ after, (summary.save file).run disk =
            { disk := after, events := [], result := .error (.json .unwritablePath) } ∧
          after.read file = .ok held.toUTF8) ∧
        (∃ other : Summary, other.Mends summary) ∧
        ∀ other : Summary, other.Mends summary → ∃ text behind' tail,
          other.paths = before ++ .ofString text :: behind' ∧
          ∀ disk file, Disk.OpensFile disk file → ∃ after, (other.save file).run disk =
              { disk := after, events := [], result := .ok () } ∧
            after.read file = .ok (held ++ Json.stringForm text ++ tail).toUTF8 := by
  refine ⟨fun disk file hopens => ?_, fun before bad behind hpaths hbefore hbad => ?_⟩
  · obtain ⟨after, hrun, -⟩ := run_save_of_opensFile hopens summary
    rw [hrun]
    simp only [whole_pretty_toJson_iff]
  · obtain ⟨front, back, hparts, hfilter⟩ := exists_parts_eq hpaths
    have hfront : ∀ part ∈ front, part.IsText := by
      rwa [Part.forall_isText_iff, hfilter]
    refine ⟨(Part.writtenAll front).text, fun disk file hopens => ?_, summary.exists_mends,
      fun other hother => ?_⟩
    · have := run_save_of_opensFile hopens summary
      rw [pretty_toJson, hparts, Part.writtenAll_cut hfront hbad back] at this
      exact this
    · obtain ⟨text, back', hparts'⟩ :=
        Part.exists_of_mends_append hfront (hparts ▸ hother.parts)
      refine ⟨text, back'.filterMap Part.path?, (Part.writtenAll back').text, ?_,
        fun disk file hopens => ?_⟩
      · rw [← filterMap_parts, hparts', List.filterMap_append, hfilter]
        rfl
      · have := run_save_of_opensFile hopens other
        rw [if_pos (whole_pretty_toJson_iff.2 hother.isText)] at this
        rw [← Part.text_writtenAll_of_isText hfront, ← hparts', ← pretty_toJson]
        exact this

/-- An output of the second table is no text, and neither is what comes after it. -/
theorem save_cut_at_output :
    let result (source one two : Path) : TableResult :=
      { table := .article, source, output := fun | .one => one | .two => two
        records := 2, count := fun _ => 1 }
    let good := result (.ofString "a") (.ofString "b") (.ofString "c")
    let summary : Summary :=
      { tables := [good, result (.ofString "d") ⟨[0x65, 0xFF]⟩ ⟨[0xFE]⟩], users := fun _ => 1 }
    let other : Summary :=
      { tables := [good, result (.ofString "d") (.ofString "\"é") (.ofString "")]
        users := fun _ => 1 }
    let file := Path.ofString "s.json"
    (summary.paths.take 4 = ["a", "b", "c", "d"].map Path.ofString ∧ other.Mends summary ∧
        Disk.fresh.OpensFile file) ∧
      (∃ after, (summary.save file).run Disk.fresh =
        { disk := after, events := [], result := .error (.json .unwritablePath) }) ∧
      ((other.save file).run Disk.fresh).result = .ok () ∧
      ∃ held tail,
        ((summary.save file).run Disk.fresh).disk.read file = .ok held.toUTF8 ∧
        ((other.save file).run Disk.fresh).disk.read file =
          .ok (held ++ Json.stringForm "\"é" ++ tail).toUTF8 := by
  intro result good summary other file
  have hmends : other.Mends summary := by
    have htext : ∀ path : Path, path.IsText → path.Mends path := fun path h => ⟨h, fun _ => rfl⟩
    refine ⟨.cons ⟨rfl, htext _ (by decide), ?_, rfl, rfl⟩
      (.cons ⟨rfl, htext _ (by decide), ?_, rfl, rfl⟩ .nil), rfl⟩
    · rintro (_ | _) <;> exact htext _ (by decide +kernel)
    · rintro (_ | _) <;> exact ⟨by decide +kernel, fun h => absurd h (by decide +kernel)⟩
  have hopens : Disk.fresh.OpensFile file := by decide +kernel
  obtain ⟨held, hheld, -, hother⟩ :=
    (save_cut summary).2 (["a", "b", "c", "d"].map Path.ofString) ⟨[0x65, 0xFF]⟩ [⟨[0xFE]⟩] rfl
      (by decide +kernel) (by decide +kernel)
  obtain ⟨after, hrun, hread⟩ := hheld _ _ hopens
  obtain ⟨text, behind, tail, hpaths, hsaved⟩ := hother other hmends
  obtain ⟨after', hrun', hread'⟩ := hsaved _ _ hopens
  have htext : Path.ofString "\"é" = .ofString text :=
    Option.some.inj (congrArg (fun paths => paths[4]?) hpaths)
  obtain rfl := Option.some.inj ((Path.text?_eq_some_iff.2 rfl).symm.trans
    (Path.text?_eq_some_iff.2 htext))
  exact ⟨⟨rfl, hmends, hopens⟩, ⟨after, hrun⟩, by rw [hrun'], held, tail,
    by rw [hrun]; exact hread, by rw [hrun']; exact hread'⟩

end Summary

end DumpSplit
