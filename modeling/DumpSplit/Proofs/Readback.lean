/-
  Readbacks: a summary whose paths are text is told by the file that it is saved in.
-/
import DumpSplit.Disk.Arrange
import DumpSplit.Proofs.Jobs
import DumpSplit.Proofs.Readings
import DumpSplit.Summary

namespace DumpSplit

/-! ## Paths that are text -/

namespace Path

/-- Whether a path is valid UTF-8. -/
def IsText (path : Path) : Prop := path.text?.isSome = true

instance (path : Path) : Decidable path.IsText := inferInstanceAs (Decidable (_ = true))

theorem text?_eq_some_iff {path : Path} {text : String} :
    path.text? = some text ↔ path = .ofString text := by
  rw [text?, fromUTF8?_eq_some_iff, ofString]
  constructor
  · intro h
    rw [show text.toByteArray = ⟨path.bytes.toArray⟩ from h.symm]
  · rintro rfl
    rfl

theorem toJson_of_isText {path : Path} (h : path.IsText) :
    ∃ text, path = .ofString text ∧ path.toJson = .string text := by
  obtain ⟨text, htext⟩ := Option.isSome_iff_exists.1 h
  exact ⟨text, text?_eq_some_iff.1 htext, by rw [toJson, htext]⟩

end Path

/-- The paths of a result, in the order in which they are written. -/
def TableResult.paths (result : TableResult) : List Path :=
  result.source :: Shard.all.map result.output

/-- The paths of a summary, in the order in which they are written. -/
def Summary.paths (summary : Summary) : List Path := summary.tables.flatMap (·.paths)

/-! ## Values of summaries -/

/-- The table with this name, if any. -/
def Table.ofName? (name : String) : Option Table := Table.all.find? (·.name == name)

/-- The path that a value gives. -/
def Path.ofJson? : Json → Option Path
  | .string text => some (.ofString text)
  | _ => none

/-- The number of items that a value gives. -/
def Json.count? : Json → Option Nat
  | .whole n => if 0 ≤ n then some n.toNat else none
  | _ => none

/-- One value for each shard. -/
def Shard.choose {α : Type} (first second : α) : Shard → α
  | one => first
  | two => second

/-- The numbers in the fields for each shard whose names end in `ending`. -/
def Shard.numbers? (fields : List (String × Json)) (ending : String) : Option (Shard → Nat) := do
  let first ← (← Json.field? fields (one.name ++ ending)).count?
  let second ← (← Json.field? fields (two.name ++ ending)).count?
  return choose first second

/-- The result that a value describes. -/
def TableResult.ofJson? : Json → Option TableResult
  | .object fields => do
    let .string name ← Json.field? fields "table" | none
    let table ← Table.ofName? name
    let source ← Path.ofJson? (← Json.field? fields "source")
    let .array [first, second] ← Json.field? fields "outputs" | none
    let output := Shard.choose (← Path.ofJson? first) (← Path.ofJson? second)
    let records ← (← Json.field? fields "records").count?
    let count ← Shard.numbers? fields "_records"
    return { table, source, output, records, count }
  | _ => none

/-- The summary that a value describes. -/
def Summary.ofJson? : Json → Option Summary
  | .object fields => do
    let .array items ← Json.field? fields "tables" | none
    let tables ← items.mapM TableResult.ofJson?
    let users ← Shard.numbers? fields "_users"
    return { tables, users }
  | _ => none

@[simp] theorem Table.ofName?_name (table : Table) : ofName? table.name = some table := by
  cases table <;> rfl

@[simp] theorem Json.count?_whole (n : Nat) : (whole n).count? = some n := by
  simp [count?]

theorem Shard.choose_apply {α : Type} (f : Shard → α) : choose (f .one) (f .two) = f :=
  funext fun shard => by cases shard <;> rfl

theorem TableResult.ofJson?_toJson {result : TableResult} (h : ∀ path ∈ result.paths, path.IsText) :
    ofJson? result.toJson = some result := by
  simp only [paths, Shard.all, List.map_cons, List.map_nil, List.forall_mem_cons] at h
  obtain ⟨hsource, hone, htwo, -⟩ := h
  obtain ⟨source, hsource, hsource'⟩ := Path.toJson_of_isText hsource
  obtain ⟨first, hone, hone'⟩ := Path.toJson_of_isText hone
  obtain ⟨second, htwo, htwo'⟩ := Path.toJson_of_isText htwo
  simp only [toJson, Shard.all, Shard.numbers, List.map_cons, List.map_nil, hsource', hone', htwo',
    List.cons_append, List.nil_append]
  simp only [ofJson?, Json.field?, Shard.numbers?, Shard.name, Path.ofJson?, List.lookup_cons,
    Option.bind_eq_bind, Option.bind_some, Option.pure_def, Table.ofName?_name,
    Json.count?_whole, String.reduceAppend, String.reduceBEq]
  rw [← hsource, ← hone, ← htwo, Shard.choose_apply, Shard.choose_apply]

theorem Summary.mapM_ofJson?_toJson {tables : List TableResult}
    (h : ∀ result ∈ tables, ∀ path ∈ result.paths, path.IsText) :
    (tables.map (·.toJson)).mapM TableResult.ofJson? = some tables := by
  induction tables with
  | nil => rfl
  | cons result tables ih =>
    obtain ⟨hresult, htables⟩ := List.forall_mem_cons.1 h
    rw [List.map_cons, List.mapM_cons, TableResult.ofJson?_toJson hresult, ih htables]
    rfl

namespace Summary

variable {summary other : Summary} {disk : Disk} {file : Path}

theorem forall_mem_paths_iff {p : Path → Prop} :
    (∀ path ∈ summary.paths, p path) ↔
      ∀ result ∈ summary.tables, ∀ path ∈ result.paths, p path := by
  simp only [paths, List.mem_flatMap]
  exact ⟨fun h result hresult path hpath => h path ⟨result, hresult, hpath⟩,
    fun h path ⟨result, hresult, hpath⟩ => h result hresult path hpath⟩

/-- A summary is told by its value. -/
theorem ofJson?_toJson (h : ∀ path ∈ summary.paths, path.IsText) :
    ofJson? summary.toJson = some summary := by
  simp only [toJson, ofJson?, Shard.numbers, Shard.numbers?, Shard.all, Shard.name, Json.field?,
    List.map_cons, List.map_nil, List.lookup_cons, Option.bind_eq_bind, Option.bind_some,
    Option.pure_def, Json.count?_whole, String.reduceAppend, String.reduceBEq,
    mapM_ofJson?_toJson (forall_mem_paths_iff.1 h), Shard.choose_apply]

/-! ## Saved summaries -/

theorem isExact_toJson (h : ∀ path ∈ summary.paths, path.IsText) : summary.toJson.IsExact := by
  have hresult : ∀ result ∈ summary.tables, result.toJson.IsExact := fun result hmem => by
    have := forall_mem_paths_iff.1 h result hmem
    simp only [TableResult.paths, Shard.all, List.map_cons, List.map_nil,
      List.forall_mem_cons] at this
    obtain ⟨hsource, hone, htwo, -⟩ := this
    obtain ⟨source, -, hsource⟩ := Path.toJson_of_isText hsource
    obtain ⟨first, -, hone⟩ := Path.toJson_of_isText hone
    obtain ⟨second, -, htwo⟩ := Path.toJson_of_isText htwo
    simp [TableResult.toJson, Shard.all, Shard.numbers, hsource, hone, htwo, Json.IsExact,
      Json.HasExactFields, Json.AreExact]
  have hitems : ∀ tables : List TableResult, (∀ result ∈ tables, result.toJson.IsExact) →
      Json.AreExact (tables.map (·.toJson)) := fun tables htables => by
    induction tables with
    | nil => trivial
    | cons result tables ih =>
      obtain ⟨hfirst, hrest⟩ := List.forall_mem_cons.1 htables
      exact ⟨hfirst, ih hrest⟩
  simp [toJson, Shard.numbers, Shard.all, Json.IsExact, Json.HasExactFields, hitems _ hresult]

/-- What a saved summary leaves in a file that takes all bytes. -/
theorem run_save_of_opensFile (h : disk.OpensFile file) (summary : Summary) : ∃ after,
    (summary.save file).run disk =
      { disk := after, events := [],
        result := if (summary.toJson.pretty 0).whole then .ok ()
          else .error (.json .unwritablePath) } ∧
      after.read file = .ok (summary.toJson.pretty 0).text.toUTF8 := by
  obtain ⟨after, hwrite, hread⟩ := h.write (summary.toJson.pretty 0).text.toUTF8
  refine ⟨after, ?_, hread⟩
  simp only [save, Job.run, hwrite]
  split_ifs <;> rfl

/-- **A saved summary is read back**: the text in its file is that of a value, which
    describes this summary and no other. -/
theorem save_readback (h : ∀ path ∈ summary.paths, path.IsText) : ∃ text : String,
    (∀ disk file, Disk.OpensFile disk file → ∃ after,
      (summary.save file).run disk = { disk := after, events := [], result := .ok () } ∧
      after.read file = .ok text.toUTF8) ∧
    (∃ value, Json.ofText? text = some value ∧ ofJson? value = some summary) ∧
    ∀ (other : Summary) disk file after, (∀ path ∈ other.paths, path.IsText) →
      Disk.OpensFile disk file →
      (other.save file).run disk = { disk := after, events := [], result := .ok () } →
      after.read file = .ok text.toUTF8 → other = summary := by
  have hexact := isExact_toJson h
  refine ⟨(summary.toJson.pretty 0).text, fun disk file hopens => ?_,
    ⟨_, Json.ofText?_pretty hexact, ofJson?_toJson h⟩,
    fun other disk file after hother hopens hsave hread => ?_⟩
  · have := run_save_of_opensFile hopens summary
    rwa [if_pos (Json.whole_pretty hexact 0)] at this
  · obtain ⟨after', hsave', hread'⟩ := run_save_of_opensFile hopens other
    rw [hsave] at hsave'
    obtain rfl := congrArg Job.Outcome.disk hsave'
    rw [hread] at hread'
    have hvalue := Json.ofText?_pretty (isExact_toJson hother)
    rw [← String.toByteArray_inj.1 (Except.ok.inj hread'), Json.ofText?_pretty hexact] at hvalue
    have hsummary := ofJson?_toJson h
    rw [Option.some.inj hvalue, ofJson?_toJson hother] at hsummary
    exact Option.some.inj hsummary

/-- Paths with a quote, a backslash, controls and other characters, and no tables at all. -/
theorem save_readback_takes_any_text :
    let odd : Summary :=
      { tables := [{
          table := .userRead
          source := .ofString "a\"b\\c\n\x01é😀/\x7f"
          output := fun | .one => .ofString "" | .two => .ofString "\t\x08\x0c\r\x1f"
          records := 10
          count := fun | .one => 0 | .two => 907 }]
        users := fun | .one => 3 | .two => 40 }
    let bare : Summary := { tables := [], users := fun _ => 0 }
    ((∀ path ∈ odd.paths, path.IsText) ∧ ∀ path ∈ bare.paths, path.IsText) ∧
      (∃ text, (Json.ofText? text).bind ofJson? = some odd ∧
        ((odd.save (.ofString "s.json")).run Disk.fresh).disk.read (.ofString "s.json") =
          .ok text.toUTF8) ∧
      ∃ text, (Json.ofText? text).bind ofJson? = some bare ∧
        ((bare.save (.ofString "s.json")).run Disk.fresh).disk.read (.ofString "s.json") =
          .ok text.toUTF8 := by
  intro odd bare
  have hodd : ∀ path ∈ odd.paths, path.IsText := by decide +kernel
  have hbare : ∀ path ∈ bare.paths, path.IsText := by decide +kernel
  have hopens : Disk.fresh.OpensFile (.ofString "s.json") := by decide +kernel
  obtain ⟨text, hsave, ⟨value, htext, hvalue⟩, -⟩ := save_readback hodd
  obtain ⟨text', hsave', ⟨value', htext', hvalue'⟩, -⟩ := save_readback hbare
  obtain ⟨after, hrun, hread⟩ := hsave _ _ hopens
  obtain ⟨after', hrun', hread'⟩ := hsave' _ _ hopens
  exact ⟨⟨hodd, hbare⟩, ⟨text, by rw [htext]; exact hvalue, by rw [hrun]; exact hread⟩,
    ⟨text', by rw [htext']; exact hvalue', by rw [hrun']; exact hread'⟩⟩

end Summary

end DumpSplit
