/-
  The grammar of dumps: which lists of lines are dumps, told by how their lines start and
  end, and that a dump is found exactly where the grammar has one.
-/
import DumpSplit.Proofs.Framing
import Mathlib.Data.List.Forall2

namespace DumpSplit

/-! ## Lines by their starts and ends -/

namespace Text

/-- The code points with the property White_Space. -/
def whiteSpace : List Nat :=
  [0x9, 0xa, 0xb, 0xc, 0xd, 0x20, 0x85, 0xa0, 0x1680, 0x2000, 0x2001, 0x2002, 0x2003, 0x2004,
    0x2005, 0x2006, 0x2007, 0x2008, 0x2009, 0x200a, 0x2028, 0x2029, 0x202f, 0x205f, 0x3000]

theorem isBlank_iff {c : Char} : isBlank c ↔ c.toNat ∈ whiteSpace := by
  have hle : ∀ a b : Char, a ≤ b ↔ a.toNat ≤ b.toNat := fun a b => UInt32.le_iff_toNat_le
  have heq : ∀ a b : Char, a = b ↔ a.toNat = b.toNat := fun a b => Char.toNat_inj.symm
  simp only [isBlank, Bool.or_eq_true, Bool.and_eq_true, decide_eq_true_eq, beq_iff_eq, hle, heq,
    whiteSpace, List.mem_cons, List.not_mem_nil, or_false, Char.reduceToNat]
  omega

theorem lastVisible?_eq_some_iff {text : String} {c : Char} : lastVisible? text = some c ↔
    ∃ front blanks, text.toList = front ++ c :: blanks ∧ isBlank c = false ∧
      ∀ b ∈ blanks, isBlank b := by
  rw [lastVisible?, head?_dropWhile_eq_some_iff]
  constructor
  · rintro ⟨blanks, front, htext, hc, hblanks⟩
    refine ⟨front.reverse, blanks.reverse, ?_, hc, by simpa using hblanks⟩
    rw [← List.reverse_inj, htext]
    simp
  · rintro ⟨front, blanks, htext, hc, hblanks⟩
    exact ⟨blanks.reverse, front.reverse, by simp [htext], hc, by simpa using hblanks⟩

end Text

namespace Format

/-- A line that starts with the marker. -/
def IsMarked (line : String) : Prop := ∃ rest, line = "INSERT INTO" ++ rest

/-- A line that ends in the terminator when the white space at its end is left out. -/
def IsTerminated (line : String) : Prop :=
  ∃ front space : String, line = front ++ ";" ++ space ∧
    ∀ c ∈ space.toList, c.toNat ∈ Text.whiteSpace

end Format

namespace Dump

theorem opens_iff {line : String} : opens line ↔ Format.IsMarked line := by
  rw [opens, List.isPrefixOf_iff_prefix, Format.IsMarked]
  constructor
  · rintro ⟨rest, hrest⟩
    exact ⟨.ofList rest, by rw [← String.toList_inj, ← hrest]; simp [Format.marker]⟩
  · rintro ⟨rest, rfl⟩
    exact ⟨rest.toList, by simp [Format.marker]⟩

theorem closes_iff {line : String} : closes line ↔ Format.IsTerminated line := by
  simp only [closes, beq_iff_eq, Text.lastVisible?_eq_some_iff, Format.IsTerminated,
    ← Text.isBlank_iff]
  constructor
  · rintro ⟨front, space, hline, -, hspace⟩
    refine ⟨.ofList front, .ofList space, ?_, by simpa using hspace⟩
    rw [← String.toList_inj, hline]
    simp [Format.terminator]
  · rintro ⟨front, space, rfl, hspace⟩
    exact ⟨front.toList, space.toList, by simp [Format.terminator], by decide, hspace⟩

/-! ## The grammar -/

/-- The parts of a dump, one after the other, are `lines`: the last line of the preamble is the
    only one there with the marker, and the last record the only one that is terminated. -/
structure LiesIn (dump : Dump) (lines : List String) : Prop where
  parts : lines = dump.preamble ++ dump.records ++ dump.suffix
  preamble : ∃ before marker, dump.preamble = before ++ [marker] ∧ Format.IsMarked marker ∧
    ∀ line ∈ before, ¬ Format.IsMarked line
  records : ∃ before last, dump.records = before ++ [last] ∧ Format.IsTerminated last ∧
    ∀ line ∈ before, ¬ Format.IsTerminated line

/-- The line `number`, counted from one, is the first with the marker, and no line after it is
    terminated. -/
def NeverEnds (lines : List String) (number : Nat) : Prop :=
  ∃ before marker after, lines = before ++ marker :: after ∧ before.length + 1 = number ∧
    Format.IsMarked marker ∧ (∀ line ∈ before, ¬ Format.IsMarked line) ∧
    ∀ line ∈ after, ¬ Format.IsTerminated line

variable {lines : List String} {dump : Dump}

theorem endsAtFirst_opens_iff {items : List String} : EndsAtFirst opens items ↔
    ∃ before marker, items = before ++ [marker] ∧ Format.IsMarked marker ∧
      ∀ line ∈ before, ¬ Format.IsMarked line := by
  simp only [EndsAtFirst, opens_iff]

theorem endsAtFirst_closes_iff {items : List String} : EndsAtFirst closes items ↔
    ∃ before last, items = before ++ [last] ∧ Format.IsTerminated last ∧
      ∀ line ∈ before, ¬ Format.IsTerminated line := by
  simp only [EndsAtFirst, closes_iff]

theorem ofLines_eq_ok_iff_liesIn : ofLines lines = .ok dump ↔ dump.LiesIn lines := by
  rw [ofLines_eq_ok_iff, endsAtFirst_opens_iff, endsAtFirst_closes_iff]
  constructor
  · rintro ⟨rfl, hpre, hrec⟩; exact ⟨rfl, hpre, hrec⟩
  · rintro ⟨rfl, hpre, hrec⟩; exact ⟨rfl, hpre, hrec⟩

theorem LiesIn.unique {dump' : Dump} (h : dump.LiesIn lines) (h' : dump'.LiesIn lines) :
    dump = dump' :=
  Except.ok.inj ((ofLines_eq_ok_iff_liesIn.2 h).symm.trans (ofLines_eq_ok_iff_liesIn.2 h'))

theorem ofLines_eq_unterminated_iff_neverEnds {number : Nat} :
    ofLines lines = .error (.unterminated number) ↔ NeverEnds lines number := by
  simp only [ofLines_eq_unterminated_iff, endsAtFirst_opens_iff, closes_iff, NeverEnds]
  constructor
  · rintro ⟨_, after, rfl, ⟨before, marker, rfl, hmarker, hbefore⟩, rfl, hafter⟩
    exact ⟨before, marker, after, by simp, by simp, hmarker, hbefore, hafter⟩
  · rintro ⟨before, marker, after, rfl, rfl, hmarker, hbefore, hafter⟩
    exact ⟨before ++ [marker], after, by simp, ⟨before, marker, rfl, hmarker, hbefore⟩, by simp,
      hafter⟩

/-! ## Which lines matter -/

theorem map_closes_eq {after after' : List String} (h : List.Forall₂ (fun line line' =>
    (Format.IsTerminated line ↔ Format.IsTerminated line')) after after') :
    after'.map closes = after.map closes := by
  induction h with
  | nil => rfl
  | @cons line line' _ _ hline _ ih =>
    have hcloses : closes line' = closes line := by
      rw [Bool.eq_iff_iff, closes_iff, closes_iff, hline]
    rw [List.map_cons, List.map_cons, hcloses, ih]

/-- Of the lines behind the marker it matters only which of them are terminated, and of the
    others nothing. -/
theorem LiesIn.ofLines_eq_ok (h : dump.LiesIn lines) {front after : List String}
    (hfront : EndsAtFirst opens front)
    (hafter : after.map closes = (dump.records ++ dump.suffix).map closes) :
    ofLines (front ++ after) =
      .ok ⟨front, after.take dump.records.length, after.drop dump.records.length⟩ := by
  refine ofLines_append_eq_ok hfront (List.take_append_drop _ _).symm ?_
  refine (endsAtFirst_closes_iff.2 h.records).of_map_eq ?_
  rw [List.map_take, hafter, List.map_append, List.take_left' (List.length_map _)]

/-- **Dumps are found by their grammar.**  Lines hold one dump at most, and none if no line has
    the marker or no line behind the first one that does is terminated.  It does not matter
    which lines up to the first marker are terminated, nor which lines behind it have one. -/
theorem ofLines_followsGrammar (lines : List String) :
    (∀ dump, ofLines lines = .ok dump ↔ dump.LiesIn lines) ∧
    (∀ dump dump' : Dump, dump.LiesIn lines → dump'.LiesIn lines → dump = dump') ∧
    (ofLines lines = .error .noMarker ↔ ∀ line ∈ lines, ¬ Format.IsMarked line) ∧
    (∀ number, ofLines lines = .error (.unterminated number) ↔ NeverEnds lines number) ∧
    ((∃ dump : Dump, dump.LiesIn lines) ∨ (∀ line ∈ lines, ¬ Format.IsMarked line) ∨
      ∃ number, NeverEnds lines number) ∧
    ∀ (dump : Dump) (before : List String) (marker : String) (after : List String),
      dump.LiesIn lines → Format.IsMarked marker → (∀ line ∈ before, ¬ Format.IsMarked line) →
      List.Forall₂ (fun line line' => (Format.IsTerminated line ↔ Format.IsTerminated line'))
        (dump.records ++ dump.suffix) after →
      ofLines (before ++ marker :: after) = .ok ⟨before ++ [marker],
        after.take dump.records.length, after.drop dump.records.length⟩ := by
  have hnoMarker : ofLines lines = .error .noMarker ↔ ∀ line ∈ lines, ¬ Format.IsMarked line := by
    simp only [ofLines_eq_noMarker_iff, opens_iff]
  refine ⟨fun dump => ofLines_eq_ok_iff_liesIn, fun dump dump' h h' => h.unique h', hnoMarker,
    fun number => ofLines_eq_unterminated_iff_neverEnds, ?_, ?_⟩
  · simpa only [ofLines_eq_ok_iff_liesIn, hnoMarker, ofLines_eq_unterminated_iff_neverEnds] using
      ofLines_cases lines
  · intro dump before marker after hdump hmarker hbefore hafter
    have hfront : EndsAtFirst opens (before ++ [marker]) :=
      endsAtFirst_opens_iff.2 ⟨before, marker, rfl, hmarker, hbefore⟩
    have := hdump.ofLines_eq_ok hfront (map_closes_eq hafter)
    rwa [List.append_assoc, List.singleton_append] at this

/-- Terminators up to the marker, and a marker behind it, and the same with other lines. -/
theorem ofLines_followsGrammar_marked :
    let lines :=
      ["SET a;\n", "INSERT INTO t;\n", "INSERT INTO (1),\n", "(2);\u3000\r\n", "END;"]
    let dump : Dump := ⟨["SET a;\n", "INSERT INTO t;\n"],
      ["INSERT INTO (1),\n", "(2);\u3000\r\n"], ["END;"]⟩
    dump.LiesIn lines ∧ (∀ dump' : Dump, dump'.LiesIn lines → dump' = dump) ∧
      ofLines ["--\n", "INSERT INTO u\n", "(3),\n", "; \n", "INSERT INTO v;\n"] =
        .ok ⟨["--\n", "INSERT INTO u\n"], ["(3),\n", "; \n"], ["INSERT INTO v;\n"]⟩ := by
  intro lines dump
  obtain ⟨hok, hunique, -, -, -, hlaw⟩ := ofLines_followsGrammar lines
  have hdump : dump.LiesIn lines := (hok dump).1 (by decide +kernel)
  refine ⟨hdump, fun dump' hdump' => hunique _ _ hdump' hdump, ?_⟩
  refine hlaw dump ["--\n"] "INSERT INTO u\n" ["(3),\n", "; \n", "INSERT INTO v;\n"] hdump ?_ ?_ ?_
  · exact ⟨" u\n", by decide⟩
  · simp only [← opens_iff]
    decide
  · simp only [← closes_iff]
    refine .cons ?_ (.cons ?_ (.cons ?_ .nil)) <;> decide

end Dump

end DumpSplit
