/-
  Overlays: the configuration that a page describes.  Each table's file name is what stands
  under its key, in whatever order and among whatever else, or the default where nothing
  does; a key that stands there twice is refused.
-/
import DumpSplit.Config
import DumpSplit.Disk.Arrange
import DumpSplit.Proofs.Jobs
import DumpSplit.Proofs.Pages
import Mathlib.Data.List.Nodup
import Mathlib.Data.Option.Basic

namespace DumpSplit

/-! ## Documents of pages -/

namespace Yaml

/-- The nodes of a line. -/
def lineNodes (entry : String × String) : Node × Node :=
  (.scalar entry.1 true, .scalar entry.2 true)

namespace Rest

variable {handles : List String} {anchors : Anchors} {ends more : List Token} {fuel : Nat}
  {text : String} {plain : Bool}

theorem nodeUnless?_scalar (context : Context) (hends : .scalar text plain ∉ ends)
    (hfuel : 2 ≤ fuel) :
    nodeUnless? context ends fuel { tokens := .scalar text plain :: more, handles, anchors } =
      some (.scalar text plain, { tokens := more, handles, anchors }) := by
  obtain ⟨fuel, rfl⟩ := Nat.exists_eq_add_of_le' hfuel
  rw [nodeUnless?, node?]
  simp [sees, hends, properties, note, moveTo]

theorem value?_scalar (context : Context) (hends : .scalar text plain ∉ ends) (hfuel : 3 ≤ fuel) :
    value? context ends fuel
        { tokens := .value :: .scalar text plain :: more, handles, anchors } =
      some (.scalar text plain, { tokens := more, handles, anchors }) := by
  obtain ⟨fuel, rfl⟩ := Nat.exists_eq_add_of_le' hfuel
  rw [value?]
  exact nodeUnless?_scalar context hends (Nat.le_add_left 2 fuel)

/-- The entries of a mapping of lines are those of the lines, whatever comes after them. -/
theorem blockEntries?_lines (entries : List (String × String)) (hfuel : entries.length + 4 ≤ fuel) :
    blockEntries? fuel
        { tokens := entries.flatMap lineTokens ++ .blockEnd :: more, handles, anchors } =
      some (entries.map lineNodes, { tokens := more, handles, anchors }) := by
  induction entries generalizing fuel with
  | nil =>
    obtain ⟨fuel, rfl⟩ := Nat.exists_eq_succ_of_ne_zero (by omega : fuel ≠ 0)
    rw [blockEntries?]; rfl
  | cons entry rest ih =>
    rw [List.length_cons] at hfuel
    obtain ⟨fuel, rfl⟩ := Nat.exists_eq_succ_of_ne_zero (by omega : fuel ≠ 0)
    rw [blockEntries?]
    simp only [lineTokens, List.flatMap_cons, List.cons_append, List.nil_append, moveTo]
    rw [nodeUnless?_scalar _ (by simp) (by omega)]
    simp only [Option.bind_eq_bind, Option.bind_some]
    rw [value?_scalar _ (by simp) (by omega), Option.bind_some, ih (by omega)]
    rfl

theorem node?_lines (entries : List (String × String)) (hfuel : entries.length + 5 ≤ fuel) :
    node? .block fuel
        { tokens := .blockMappingStart :: (entries.flatMap lineTokens ++ .blockEnd :: more)
          handles, anchors } =
      some (.mapping (entries.map lineNodes), { tokens := more, handles, anchors }) := by
  obtain ⟨fuel, rfl⟩ := Nat.exists_eq_succ_of_ne_zero (by omega : fuel ≠ 0)
  rw [node?]
  simp only [properties, Option.all_none, if_true, note, moveTo, decide_true, decide_false,
    Bool.true_and, reduceCtorEq, Bool.false_and, Bool.false_eq_true, if_false, ne_eq,
    not_false_eq_true]
  rw [blockEntries?_lines entries (by omega)]
  rfl

end Rest

variable {entries : List (String × String)} {ending : String}

/-- **The document of a page** is the mapping of its lines. -/
theorem documentOf?_page (hne : entries ≠ [])
    (hentries : ∀ entry ∈ entries, IsKey entry.1 ∧ IsValue entry.2)
    (hending : ending = "" ∨ ending = "\n") : documentOf? (page entries ending) =
      some (some { root := .mapping (entries.map lineNodes), anchors := {} }) := by
  have hlength : (entries.flatMap lineTokens).length = entries.length * 4 := by
    simp [List.length_flatMap, lineTokens]
  rw [documentOf?, tokens?_page hne hentries hending]
  simp only [document?, Option.bind_eq_bind, Option.bind_some, Bool.false_eq_true, if_false,
    Bool.not_false, Bool.true_or, guard_true, Option.pure_def, Bool.false_and]
  rw [Rest.node?_lines]
  · rfl
  · simp only [List.length_cons, List.length_append, hlength]; omega

end Yaml

namespace Config

open Yaml (page lineNodes IsKey IsValue)

variable {entries other front behind : List (String × String)} {table : Table}
  {key value ending : String} {disk : Disk} {path : Path}

/-! ## Settings of pages -/

theorem tableOf?_eq_some_iff : tableOf? key = some table ↔ key = table.setting := by
  constructor
  · intro h
    have := List.find?_some h
    exact (beq_iff_eq.1 this).symm
  · rintro rfl
    cases table <;> rfl

theorem setting_injective : Function.Injective Table.setting := fun table table' h => by
  have := tableOf?_eq_some_iff.2 h
  rw [tableOf?_eq_some_iff.2 rfl] at this
  exact Option.some.inj this

/-- The settings among the lines of a page. -/
def settingsOf (entries : List (String × String)) : List (Table × String) :=
  entries.filterMap fun entry => (tableOf? entry.1).map (·, entry.2)

theorem settingsOf_cons_of_none (h : tableOf? key = none) (entries : List (String × String)) :
    settingsOf ((key, value) :: entries) = settingsOf entries :=
  List.filterMap_cons_none (by rw [h]; rfl)

theorem settingsOf_cons_setting (table : Table) (entries : List (String × String)) :
    settingsOf ((table.setting, value) :: entries) = (table, value) :: settingsOf entries :=
  List.filterMap_cons_some (by rw [tableOf?_eq_some_iff.2 rfl]; rfl)

theorem mem_settingsOf_iff :
    (table, value) ∈ settingsOf entries ↔ (table.setting, value) ∈ entries := by
  simp only [settingsOf, List.mem_filterMap, Option.map_eq_some_iff, tableOf?_eq_some_iff,
    Prod.mk.injEq]
  constructor
  · rintro ⟨⟨key, value⟩, hmem, table, rfl, rfl, rfl⟩
    exact hmem
  · exact fun hmem => ⟨_, hmem, table, rfl, rfl, rfl⟩

theorem lookup_settingsOf (entries : List (String × String)) (table : Table) :
    (settingsOf entries).lookup table = entries.lookup table.setting := by
  induction entries with
  | nil => rfl
  | cons entry rest ih =>
    obtain ⟨key, value⟩ := entry
    cases hkey : tableOf? key with
    | none =>
      have hne : table.setting ≠ key := fun h => by
        rw [tableOf?_eq_some_iff.2 h.symm] at hkey; cases hkey
      rw [settingsOf_cons_of_none hkey, ih, List.lookup_cons, beq_false_of_ne hne]
    | some table' =>
      obtain rfl := tableOf?_eq_some_iff.1 hkey
      rw [settingsOf_cons_setting, List.lookup_cons, List.lookup_cons, ih]
      by_cases h : table = table'
      · subst h; simp
      · rw [beq_false_of_ne h, beq_false_of_ne (setting_injective.ne h)]

/-- The settings of a page are taken unless there are two for one table. -/
theorem settings?_lines (anchors : Yaml.Anchors) (entries : List (String × String)) :
    settings? anchors (entries.map lineNodes) =
      if ((settingsOf entries).map Prod.fst).Nodup then some (settingsOf entries) else none := by
  induction entries with
  | nil => rfl
  | cons entry rest ih =>
    obtain ⟨key, value⟩ := entry
    simp only [List.map_cons, settings?, lineNodes, Yaml.Anchors.text?, Option.bind_eq_bind,
      Option.bind_some]
    cases hkey : tableOf? key with
    | none => rw [settingsOf_cons_of_none hkey, ← ih]
    | some table =>
      obtain rfl := tableOf?_eq_some_iff.1 hkey
      have hlookup : ((settingsOf rest).lookup table).isSome = true ↔
          table ∈ (settingsOf rest).map Prod.fst := by
        rw [List.lookup_isSome_iff, List.mem_map]
        exact exists_congr fun p => and_congr_right' (beq_iff_eq.trans eq_comm)
      simp only [settingsOf_cons_setting, List.map_cons, List.nodup_cons, ih]
      by_cases hrest : ((settingsOf rest).map Prod.fst).Nodup
      · by_cases htable : table ∈ (settingsOf rest).map Prod.fst
        · simp [hrest, hlookup.2 htable, htable]
        · simp only [hrest, if_true, Option.bind_some, mt hlookup.1 htable, htable,
            not_false_eq_true, and_self, Bool.false_eq_true, if_false]
      · simp [hrest]

theorem map_fst_settingsOf (entries : List (String × String)) :
    (settingsOf entries).map Prod.fst = (entries.map Prod.fst).filterMap tableOf? := by
  rw [settingsOf, List.map_filterMap, List.filterMap_map]
  congr 1
  funext entry
  rw [Option.map_map, Function.comp_apply]
  exact Option.map_id'

/-- Where no key stands twice, no table is set twice. -/
theorem nodup_settingsOf (h : (entries.map Prod.fst).Nodup) :
    ((settingsOf entries).map Prod.fst).Nodup := by
  rw [map_fst_settingsOf]
  refine List.Nodup.filterMap (fun key key' table hkey hkey' => ?_) h
  rw [tableOf?_eq_some_iff.1 hkey, tableOf?_eq_some_iff.1 hkey']

/-- Where the key of a table stands in two lines, the table is set twice. -/
theorem not_nodup_settingsOf (h : (table.setting, value) ∈ front ++ behind) (again : String) :
    ¬ ((settingsOf (front ++ (table.setting, again) :: behind)).map Prod.fst).Nodup := by
  rw [settingsOf, List.filterMap_append, ← settingsOf, ← settingsOf, settingsOf_cons_setting,
    List.map_append, List.map_cons, List.nodup_middle, List.nodup_cons, ← List.map_append]
  have hmem : (table, value) ∈ settingsOf front ++ settingsOf behind := by
    rw [settingsOf, settingsOf, ← List.filterMap_append]
    exact mem_settingsOf_iff.2 h
  exact fun hnot => hnot.1 (List.mem_map.2 ⟨_, hmem, rfl⟩)

/-! ## Loading a page -/

theorem ofYaml?_page (hentries : ∀ entry ∈ entries, IsKey entry.1 ∧ IsValue entry.2)
    (hending : ending = "" ∨ ending = "\n") : ofYaml? (page entries ending) =
      if ((settingsOf entries).map Prod.fst).Nodup then some (overlay (settingsOf entries))
      else none := by
  by_cases hne : entries = []
  · subst hne
    rcases hending with rfl | rfl <;> rfl
  · rw [ofYaml?, Yaml.documentOf?_page hne hentries hending]
    simp only [Option.bind_eq_bind, Option.bind_some, settings?_lines]
    split_ifs <;> rfl

/-- A page with these lines is at `path`. -/
def HasPage (disk : Disk) (path : Path) (entries : List (String × String)) : Prop :=
  ∃ ending, (ending = "" ∨ ending = "\n") ∧ disk.read path = .ok (page entries ending).toUTF8

theorem run_load_of_read (wording : Wording) {text : String}
    (hread : disk.read path = .ok text.toUTF8) : (load wording path).run disk =
      { disk, events := [], result :=
          match ofYaml? text with
          | some config => .ok config
          | none => .error (.config path (wording text)) } := by
  rw [load, Job.run_bind_of_ok (Job.run_readText_eq_ok_iff.2 ⟨rfl, rfl, hread⟩)]
  cases ofYaml? text <;> rfl

theorem run_load_of_not_nodup (wording : Wording)
    (hentries : ∀ entry ∈ entries, IsKey entry.1 ∧ IsValue entry.2)
    (hpage : HasPage disk path entries) (htwice : ¬ ((settingsOf entries).map Prod.fst).Nodup) :
    ∃ text, disk.read path = .ok text.toUTF8 ∧
      ((load wording path).run disk).result = .error (.config path (wording text)) := by
  obtain ⟨ending, hending, hread⟩ := hpage
  refine ⟨_, hread, ?_⟩
  rw [run_load_of_read wording hread, ofYaml?_page hentries hending, if_neg htwice]

/-- The lines of a page without repeated keys. -/
structure IsSheet (entries : List (String × String)) : Prop where
  words : ∀ entry ∈ entries, IsKey entry.1 ∧ IsValue entry.2
  nodup : (entries.map Prod.fst).Nodup

theorem IsSheet.lookup_eq_some_iff (h : IsSheet entries) :
    entries.lookup key = some value ↔ (key, value) ∈ entries := by
  rw [List.lookup_eq_some_iff]
  constructor
  · rintro ⟨front, behind, rfl, -⟩
    exact List.mem_append_right front List.mem_cons_self
  · intro hmem
    obtain ⟨front, behind, rfl⟩ := List.append_of_mem hmem
    have hnodup := h.nodup
    rw [List.map_append, List.map_cons, List.nodup_middle, List.nodup_cons] at hnodup
    refine ⟨front, behind, rfl, fun entry hentry => bne_iff_ne.2 fun heq => hnodup.1 ?_⟩
    exact List.mem_append_left _ (List.mem_map.2 ⟨entry, hentry, heq.symm⟩)

theorem run_load_sheet (wording : Wording) (h : IsSheet entries)
    (hpage : HasPage disk path entries) : (load wording path).run disk =
      { disk, events := [], result := .ok (overlay (settingsOf entries)) } := by
  obtain ⟨ending, hending, hread⟩ := hpage
  rw [run_load_of_read wording hread, ofYaml?_page h.words hending,
    if_pos (nodup_settingsOf h.nodup)]

theorem overlay_congr (h : IsSheet entries) (hother : IsSheet other)
    (hsame : ∀ table value,
      (Table.setting table, value) ∈ other ↔ (Table.setting table, value) ∈ entries) :
    overlay (settingsOf other) = overlay (settingsOf entries) := by
  have hlookup : ∀ table, other.lookup (Table.setting table) = entries.lookup table.setting :=
    fun table => Option.ext fun value => by
      rw [hother.lookup_eq_some_iff, h.lookup_eq_some_iff, hsame]
  simp only [overlay, lookup_settingsOf, hlookup]

/-- **A page overlays the defaults.**  It is loaded as what stands under the key of each
    table, or its default; so any other page that says the same of the tables, in another
    order or among other lines, is loaded as the same configuration.  A second line for a
    table, wherever it stands, is refused. -/
theorem load_page (wording : Wording) (h : IsSheet entries) (hpage : HasPage disk path entries) :
    (∃ config, (load wording path).run disk = { disk, events := [], result := .ok config } ∧
      ∀ table, config.fileName table =
        (entries.lookup table.setting).getD table.defaultFileName) ∧
    (∀ disk' path' other, IsSheet other → HasPage disk' path' other →
      (∀ table value,
        (Table.setting table, value) ∈ other ↔ (Table.setting table, value) ∈ entries) →
      ((load wording path').run disk').result = ((load wording path).run disk).result) ∧
    ∀ disk' path' front behind table value again, entries = front ++ behind →
      (Table.setting table, value) ∈ entries → IsValue again →
      HasPage disk' path' (front ++ (Table.setting table, again) :: behind) →
      ∃ text, disk'.read path' = .ok text.toUTF8 ∧
        ((load wording path').run disk').result = .error (.config path' (wording text)) := by
  refine ⟨⟨_, run_load_sheet wording h hpage, fun table => ?_⟩,
    fun disk' path' other hother hpage' hsame => ?_,
    fun disk' path' front behind table value again hentries hmem hagain hpage' => ?_⟩
  · simp only [overlay, lookup_settingsOf]
  · rw [run_load_sheet wording h hpage, run_load_sheet wording hother hpage',
      overlay_congr h hother hsame]
  · subst hentries
    have hwords : ∀ entry ∈ front ++ (table.setting, again) :: behind,
        IsKey entry.1 ∧ IsValue entry.2 := by
      have hfirst : IsKey table.setting := (h.words _ hmem).1
      rw [List.forall_mem_append, List.forall_mem_cons]
      have := List.forall_mem_append.1 h.words
      exact ⟨this.1, ⟨hfirst, hagain⟩, this.2⟩
    exact run_load_of_not_nodup wording hwords hpage' (not_nodup_settingsOf hmem again)

/-- Values that look like another kind of value stay texts, unknown keys do not matter, and a
    key is refused that stands again in front of the other lines. -/
theorem load_page_takes_texts :
    let lines := [("note", "x-1"), ("user_file", "true"), ("article_file", "null")]
    let swapped := [("article_file", "null"), ("user_file", "true"), ("_2", "y")]
    let path := Path.ofString "conf.yaml"
    let disk (lines : List (String × String)) :=
      Disk.fresh.arrange path (some (page lines "\n").toUTF8)
    let wording : Wording := fun _ => "duplicate field"
    (IsSheet lines ∧ HasPage (disk lines) path lines) ∧
      (∃ config,
        (load wording path).run (disk lines) = { disk := disk lines, events := [], result := .ok config } ∧
        config.fileName .user = "true" ∧ config.fileName .article = "null" ∧
        config.fileName .userRead = "user_read.sql") ∧
      ((load wording path).run (disk swapped)).result = ((load wording path).run (disk lines)).result ∧
      ((load wording path).run (disk (("user_file", "b/c.sql") :: lines))).result =
        .error (.config path "duplicate field") := by
  intro lines swapped path disk wording
  have hsheet : IsSheet lines := ⟨by decide +kernel, by decide +kernel⟩
  have hpage : ∀ lines, HasPage (disk lines) path lines := fun lines => ⟨"\n", .inr rfl, rfl⟩
  obtain ⟨⟨config, hload, hnames⟩, hother, htwice⟩ := load_page wording hsheet (hpage lines)
  refine ⟨⟨hsheet, hpage lines⟩,
    ⟨config, hload, hnames .user, hnames .article, hnames .userRead⟩, ?_, ?_⟩
  · refine hother _ _ swapped ⟨by decide +kernel, by decide +kernel⟩ (hpage swapped) ?_
    rintro (_ | _ | _) value <;> simp [lines, swapped, Table.setting, Table.name]
  · obtain ⟨_, -, hfails⟩ := htwice _ _ [] lines .user "true" "b/c.sql" rfl (by decide)
      (by decide +kernel) (hpage _)
    exact hfails

end Config

end DumpSplit
