/-
  Copies: lines that are written to a file are read from it again if they are the lines of a
  text, and other lists are not; a file whose lines are read and written is copied.
-/
import DumpSplit.Disk.Arrange
import DumpSplit.Proofs.Jobs

namespace DumpSplit.Job

variable {disk : Disk} {path : Path}

theorem run_writeLines_of_opensFile (h : disk.OpensFile path) (lines : List String) : ∃ after,
    (writeLines path lines).run disk = { disk := after, events := [], result := .ok () } ∧
      after.read path = .ok (String.join lines).toUTF8 := by
  obtain ⟨after, hwrite, hread⟩ := h.write (String.join lines).toUTF8
  exact ⟨after, run_writeLines_eq_ok_iff.2 ⟨hwrite, rfl⟩, hread⟩

theorem run_readLines_of_read {text : String} (h : disk.read path = .ok text.toUTF8) :
    (readLines path).run disk =
      { disk, events := [], result := .ok (Text.lines text) } := by
  rw [run_readLines_eq_ok_iff, Text.join_lines]
  exact ⟨rfl, rfl, Text.areLines_lines text, h⟩

/-- What is read after `lines` were written are the lines of the text that they make. -/
theorem run_writeLines_readLines (h : disk.OpensFile path) (lines : List String) :
    ((writeLines path lines >>= fun _ => readLines path).run disk).result =
      .ok (Text.lines (String.join lines)) := by
  obtain ⟨after, hwrite, hread⟩ := run_writeLines_of_opensFile h lines
  rw [run_bind_of_ok hwrite, run_readLines_of_read hread]

/-- **Reading and writing lines** undo each other: every text comes back from its lines, and
    lines come back from their text, or from the file that they were written to, exactly if
    only the last of them can lack its line feed and no line feed stands elsewhere. -/
theorem readLines_writeLines_copy :
    (∀ text, String.join (Text.lines text) = text) ∧
    (∀ lines, Text.lines (String.join lines) = lines ↔ Text.AreLines lines) ∧
    (∀ disk path lines, disk.OpensFile path →
      (((writeLines path lines >>= fun _ => readLines path).run disk).result = .ok lines ↔
        Text.AreLines lines)) ∧
    ∀ disk source target, ∀ text : String, disk.read source = .ok text.toUTF8 →
      disk.OpensFile target → ∃ after,
        (readLines source >>= writeLines target).run disk =
          { disk := after, events := [], result := .ok () } ∧
        after.read target = .ok text.toUTF8 := by
  refine ⟨Text.join_lines, fun lines => Text.lines_join_iff, fun disk path lines h => ?_,
    fun disk source target text hsource htarget => ?_⟩
  · rw [run_writeLines_readLines h, Except.ok.injEq, Text.lines_join_iff]
  · obtain ⟨after, hwrite, hread⟩ := run_writeLines_of_opensFile htarget (Text.lines text)
    rw [Text.join_lines] at hread
    exact ⟨after, by rw [run_bind_of_ok (run_readLines_of_read hsource), hwrite]; rfl, hread⟩

/-- A carriage return before a line feed, a blank line and a last line without line feed come
    back; an empty line and one with a line feed inside do not. -/
theorem readLines_writeLines_copy_returns :
    let text := "a\r\n\nb"
    let disk := Disk.fresh.arrange (.ofString "a.sql") (some text.toUTF8)
    let source := Path.ofString "a.sql"
    let target := Path.ofString "./b.sql"
    let copied (lines : List String) :=
      ((writeLines target lines >>= fun _ => readLines target).run disk).result
    ((disk.read source).toOption = some text.toUTF8 ∧ disk.OpensFile target) ∧
      copied ["a\r\n", "\n", "b"] = .ok ["a\r\n", "\n", "b"] ∧
      copied ["a\n", ""] ≠ .ok ["a\n", ""] ∧ copied ["a\nb"] ≠ .ok ["a\nb"] ∧
      ∃ after, (readLines source >>= writeLines target).run disk =
          { disk := after, events := [], result := .ok () } ∧
        after.read target = .ok text.toUTF8 := by
  intro text disk source target copied
  obtain ⟨-, -, hcopied, hfile⟩ := readLines_writeLines_copy
  have hopens : disk.OpensFile target := by decide +kernel
  have hsource : disk.read source = .ok text.toUTF8 := by rfl
  refine ⟨⟨by decide +kernel, hopens⟩, (hcopied disk target _ hopens).2 (by decide), ?_, ?_,
    hfile disk source target text hsource hopens⟩
  · exact mt (hcopied disk target _ hopens).1 (by decide)
  · exact mt (hcopied disk target _ hopens).1 (by decide)

end DumpSplit.Job
