/-
  Lists of lines: which lists the lines of a text are, that joining such a list and reading
  its lines again gives it back, and where the line with a given number stands.
-/
import DumpSplit.Proofs.Lists
import DumpSplit.Text.Lines
import Mathlib.Data.List.SplitBy

namespace DumpSplit.Text

/-- The lists that are the lines of some text: a line feed stands at the end of a line
    only, and a line without one is the last. -/
structure AreLines (lines : List String) : Prop where
  whole : ∀ line ∈ lines, line ≠ "" ∧ '\n' ∉ line.toList.dropLast
  ended : ∀ line ∈ lines.dropLast, line.toList.getLast? = some '\n'

instance (lines : List String) : Decidable (AreLines lines) :=
  decidable_of_iff ((∀ line ∈ lines, line ≠ "" ∧ '\n' ∉ line.toList.dropLast) ∧
      ∀ line ∈ lines.dropLast, line.toList.getLast? = some '\n')
    ⟨fun ⟨whole, ended⟩ => ⟨whole, ended⟩, fun ⟨whole, ended⟩ => ⟨whole, ended⟩⟩

theorem join_lines (text : String) : String.join (lines text) = text := by
  rw [← String.toList_inj, String.toList_join, lines, List.flatMap_map]
  simp only [String.toList_ofList]
  rw [List.flatMap_id', List.flatten_splitBy]

theorem lines_join_eq_iff {ls : List String} : lines (String.join ls) = ls ↔
    (ls.map String.toList).flatten.splitBy (fun c _ => c != '\n') = ls.map String.toList := by
  rw [lines, String.toList_join, List.flatMap_def]
  constructor
  · intro h
    have := congrArg (List.map String.toList) h
    simpa [Function.comp_def] using this
  · intro h
    rw [h]; simp [Function.comp_def]

/-- A line is in one piece if a line feed stands at its end only. -/
theorem isChain_toList_iff {line : String} : line.toList.IsChain (fun c _ => (c != '\n') = true) ↔
    '\n' ∉ line.toList.dropLast := by
  rw [isChain_left_iff (p := fun c => (c != '\n') = true)]
  simp only [bne_iff_ne]
  exact ⟨fun h hn => h _ hn rfl, fun h c hc hcn => h (hcn ▸ hc)⟩

/-- **Joining and reading lines.**  A list comes back from its text exactly if it is a
    list of lines. -/
theorem lines_join_iff {ls : List String} : lines (String.join ls) = ls ↔ AreLines ls := by
  rw [lines_join_eq_iff, List.splitBy_eq_iff, List.isChain_map]
  constructor
  · rintro ⟨-, hnil, hchain, hends⟩
    refine ⟨fun line hline => ⟨?_, ?_⟩, ?_⟩
    · rintro rfl; exact hnil (List.mem_map.2 ⟨_, hline, rfl⟩)
    · exact isChain_toList_iff.1 (hchain _ (List.mem_map_of_mem hline))
    · refine isChain_left_iff.1 (hends.imp fun a b ⟨ha, _, hlast⟩ => ?_)
      rw [List.getLast?_eq_getLast_of_ne_nil ha]
      simpa using hlast
  · rintro ⟨hwhole, hended⟩
    have hne : ∀ line ∈ ls, line.toList ≠ [] := fun line hline h =>
      (hwhole line hline).1 (String.toList_eq_nil_iff.1 h)
    refine ⟨rfl, ?_, ?_, ?_⟩
    · rintro h; obtain ⟨line, hline, hnil⟩ := List.mem_map.1 h; exact hne line hline hnil
    · rintro _ hm; obtain ⟨line, hline, rfl⟩ := List.mem_map.1 hm
      exact isChain_toList_iff.2 (hwhole line hline).2
    · refine List.IsChain.imp_of_mem_imp (fun a b ha hb hlast => ?_) (isChain_left_iff.2 hended)
      refine ⟨hne a ha, hne b hb, ?_⟩
      rw [List.getLast?_eq_getLast_of_ne_nil (hne a ha)] at hlast
      simpa using hlast

theorem areLines_lines (text : String) : AreLines (lines text) := by
  rw [← lines_join_iff, join_lines]

/-- Lines that are left out leave a list of lines: only the last of the rest can be the
    one that lacks its line feed. -/
theorem AreLines.sublist {ls ls' : List String} (h : AreLines ls) (hsub : ls'.Sublist ls) :
    AreLines ls' where
  whole line hline := h.whole line (hsub.subset hline)
  ended line hline := h.ended line ((dropLast_sublist_dropLast hsub).subset hline)

/-! ## Lines by their numbers -/

/-- `line` is the line of `text` with the number `number`, counted from one: one less lines
    come before it, with as many line feeds. -/
def HasLine (text : String) (number : Nat) (line : String) : Prop :=
  ∃ before after : List String, lines text = before ++ line :: after ∧
    text = String.join before ++ line ++ String.join after ∧
    before.length + 1 = number ∧ (String.join before).toList.count '\n' + 1 = number

theorem count_eq_one {line : List Char} (hlast : line.getLast? = some '\n')
    (hdrop : '\n' ∉ line.dropLast) : line.count '\n' = 1 := by
  rw [← List.dropLast_append_getLast? '\n' hlast, List.count_append, List.count_eq_zero.2 hdrop,
    List.count_singleton_self]

theorem count_join_of_forall {ls : List String} (h : ∀ line ∈ ls, line.toList.count '\n' = 1) :
    (String.join ls).toList.count '\n' = ls.length := by
  induction ls with
  | nil => rfl
  | cons line ls ih =>
    rw [String.join_cons, String.toList_append, List.count_append, h line List.mem_cons_self,
      ih fun line' hline' => h line' (List.mem_cons_of_mem line hline'), List.length_cons,
      Nat.add_comm]

/-- Of the lines before another one, each has its line feed. -/
theorem AreLines.count_join {before after : List String} {line : String}
    (h : AreLines (before ++ line :: after)) :
    (String.join before).toList.count '\n' = before.length := by
  refine count_join_of_forall fun line' hline' => count_eq_one (h.ended line' ?_) ?_
  · rw [List.dropLast_append_of_ne_nil (List.cons_ne_nil _ _)]
    exact List.mem_append_left _ hline'
  · exact (h.whole line' (List.mem_append_left _ hline')).2

theorem hasLine_of_lines_eq {text line : String} {before after : List String}
    (h : lines text = before ++ line :: after) : HasLine text (before.length + 1) line := by
  refine ⟨before, after, h, ?_, rfl, ?_⟩
  · rw [← join_lines text, h, String.join_append, String.join_cons, String.append_assoc]
  · have hlines := areLines_lines text
    rw [h] at hlines
    rw [hlines.count_join]

theorem hasLine_of_getElem? {text line : String} {index : Nat}
    (h : (lines text)[index]? = some line) : HasLine text (index + 1) line := by
  obtain ⟨hlt, rfl⟩ := List.getElem?_eq_some_iff.1 h
  have hlines : lines text =
      (lines text).take index ++ (lines text)[index] :: (lines text).drop (index + 1) := by
    rw [← List.drop_eq_getElem_cons hlt, List.take_append_drop]
  have hline := hasLine_of_lines_eq hlines
  rwa [List.length_take_of_le hlt.le] at hline

end DumpSplit.Text
