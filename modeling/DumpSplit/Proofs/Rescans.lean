/-
  What a shard gets, written to a file and read as a dump once more: it is the shard's part of
  the dump if the closing record is in it, and otherwise its records go on into the suffix.
-/
import DumpSplit.Proofs.Excerpts
import DumpSplit.Proofs.Grammar

namespace DumpSplit

namespace Dump

/-- Records of which none is terminated go on to the first line behind them that is. -/
theorem ofLines_spilled {preamble records suffix : List String} {k : Nat} {line : String}
    (hopens : EndsAtFirst opens preamble) (hrecords : ∀ record ∈ records, ¬ closes record)
    (hline : suffix[k]? = some line) (hcloses : closes line)
    (hfirst : ∀ j < k, ∀ earlier, suffix[j]? = some earlier → ¬ closes earlier) :
    ofLines (preamble ++ records ++ suffix) =
      .ok ⟨preamble, records ++ suffix.take (k + 1), suffix.drop (k + 1)⟩ := by
  have htake : suffix.take (k + 1) = suffix.take k ++ [line] := by
    rw [List.take_add_one, hline, Option.toList_some]
  rw [List.append_assoc]
  refine ofLines_append_eq_ok hopens ?_ ⟨records ++ suffix.take k, line, ?_, hcloses, ?_⟩
  · rw [List.append_assoc, List.take_append_drop]
  · rw [htake, List.append_assoc]
  · intro x hx
    rcases List.mem_append.1 hx with hx | hx
    · exact hrecords x hx
    · obtain ⟨j, hj⟩ := List.mem_iff_getElem?.1 hx
      rw [List.getElem?_take] at hj
      split_ifs at hj with hlt
      exact hfirst j hlt x hj

end Dump

/-- What comes of reading the lines that a shard gets of a dump: the preamble is that of the dump
    in every case, and all the rest too if the record that closes the dump is among them. -/
structure Rescans (rule : Rule) (dump : Dump) (source : Path) (shard : Shard)
    (lines : List String) : Prop where
  closed : rule.sendsLast dump source shard →
    Dump.ofLines lines = .ok (rule.part dump source shard)
  spilled : ¬ rule.sendsLast dump source shard → ∀ (k : Nat) line,
    dump.suffix[k]? = some line → Format.IsTerminated line →
    (∀ j < k, ∀ earlier, dump.suffix[j]? = some earlier → ¬ Format.IsTerminated earlier) →
    Dump.ofLines lines = .ok ⟨dump.preamble,
      rule.share dump source shard ++ dump.suffix.take (k + 1), dump.suffix.drop (k + 1)⟩
  unended : ¬ rule.sendsLast dump source shard →
    (∀ line ∈ dump.suffix, ¬ Format.IsTerminated line) →
    Dump.ofLines lines = .error (.unterminated dump.preamble.length)
  preamble : ∀ other, Dump.ofLines lines = .ok other → other.preamble = dump.preamble
  preserved : Dump.ofLines lines = .ok (rule.part dump source shard) ↔
    rule.sendsLast dump source shard

theorem Rule.rescans_part {rule : Rule} {dump : Dump} {source : Path} {shard : Shard}
    (h : Dump.ofLines dump.lines = .ok dump) :
    Rescans rule dump source shard (rule.part dump source shard).lines := by
  obtain ⟨-, hopens, hcloses⟩ := Dump.ofLines_eq_ok_iff.1 h
  have hpreserved : Dump.ofLines _ = .ok (rule.part dump source shard) ↔ _ :=
    ofLines_part_eq_ok_iff h
  refine ⟨hpreserved.2, fun hlast k line hline hterm hfirst => ?_, fun hlast hsuffix => ?_, ?_,
    hpreserved⟩
  · have hshare := not_closes_of_mem_share hcloses (Bool.eq_false_of_not_eq_true hlast)
    simp only [← Dump.closes_iff] at hterm hfirst
    exact Dump.ofLines_spilled hopens hshare hline hterm hfirst
  · have hshare := not_closes_of_mem_share hcloses (Bool.eq_false_of_not_eq_true hlast)
    simp only [← Dump.closes_iff] at hsuffix
    rw [Dump.lines, List.append_assoc]
    refine Dump.ofLines_append_eq_unterminated hopens fun line hline => ?_
    exact (List.mem_append.1 hline).elim (hshare line) (hsuffix line)
  · intro other hother
    rw [Dump.lines, List.append_assoc] at hother
    exact Dump.preamble_eq_of_ofLines_append hopens hother

namespace Split

variable {rule : Rule} {dump : Dump} {source : Path} {split : Split} {shard : Shard}

theorem lines_eq_lines_part (h : rule.split dump source = .ok split) :
    split.lines shard = (rule.part dump source shard).lines :=
  lines_eq h shard

/-- **Scanning a shard again.**  Its lines come back from the file to which they are written, and
    are read as its part of the dump if this is closed.  Otherwise a line of the suffix that is
    terminated makes those up to it records, and without one the records never end. -/
theorem lines_rescan (rule : Rule) (source : Path) (text : String) (dump : Dump) (split : Split)
    (hdump : Dump.ofLines (Text.lines text) = .ok dump)
    (hsplit : rule.split dump source = .ok split) (shard : Shard) :
    Text.lines (String.join (split.lines shard)) = split.lines shard ∧
    (∀ (path : Path) (disk after : Disk) (events : List Event),
      (Job.writeLines path (split.lines shard)).run disk =
        { disk := after, events, result := .ok () } →
      disk.Keeps path → after.HoldsLines path (split.lines shard)) ∧
    Rescans rule dump source shard (split.lines shard) := by
  obtain ⟨hlines, hopens, -⟩ := Dump.ofLines_eq_ok_iff.1 hdump
  rw [← hlines] at hdump
  have hare : Text.AreLines (split.lines shard) := by
    refine Text.AreLines.sublist ?_ (lines_sublist hsplit shard)
    rw [hlines]
    exact Text.areLines_lines text
  have hnil : split.lines shard ≠ [] := by
    rw [lines_eq hsplit]
    simp [hopens.ne_nil]
  refine ⟨Text.lines_join_iff.2 hare, fun path disk after events hrun hkeeps => ?_, ?_⟩
  · obtain ⟨hwrite, -⟩ := Job.run_writeLines_eq_ok_iff.1 hrun
    exact Disk.holdsLines_write hwrite hkeeps hare hnil
  · rw [lines_eq_lines_part hsplit]
    exact Rule.rescans_part hdump

/-- Of two users the second one closes the dump, so that the line that unlocks the table becomes a
    record where the first one is alone. -/
theorem lines_rescan_spilled :
    let first := ", , u, , , , , , , , \"Beijing\", ,\n"
    let second := ", , v, , , , , , , , \"Hong Kong\", ;\n"
    let text := "INSERT INTO u\n" ++ first ++ second ++ "UNLOCK;\n--"
    let source := Path.ofString "user.sql"
    let dump : Dump := ⟨["INSERT INTO u\n"], [first, second], ["UNLOCK;\n", "--"]⟩
    ∃ split, Dump.ofLines (Text.lines text) = .ok dump ∧
      Rule.byRegion.split dump source = .ok split ∧
      Text.lines (String.join (split.lines .one)) = split.lines .one ∧
      Dump.ofLines (split.lines .one) =
        .ok ⟨["INSERT INTO u\n"], [first, "UNLOCK;\n"], ["--"]⟩ := by
  intro first second text source dump
  have hdump : Dump.ofLines (Text.lines text) = .ok dump := by decide +kernel
  obtain ⟨split, hsplit⟩ : ∃ split, Rule.byRegion.split dump source = .ok split :=
    Rule.exists_split_eq_ok (by decide +kernel)
  obtain ⟨hlines, -, hrescans⟩ := lines_rescan .byRegion source text dump split hdump hsplit .one
  refine ⟨split, hdump, hsplit, hlines, ?_⟩
  have hspilled := hrescans.spilled (by decide +kernel) 0 "UNLOCK;\n" rfl
    (Dump.closes_iff.1 (by decide)) (by simp)
  rw [hspilled]
  decide +kernel

end Split

end DumpSplit
