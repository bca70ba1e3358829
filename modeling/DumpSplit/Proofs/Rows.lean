/-
  Rows of cells: words that stand on a line of a YAML text, their cells on the grid, and the
  plain scalars that are read from them.
-/
import DumpSplit.Yaml.Flow
import Mathlib.Data.List.Basic

namespace DumpSplit.Yaml

variable {c : Char} {chars : List Char}

/-! ## Words -/

/-- Whether `c` may begin a word: an ASCII letter or an underscore. -/
def isInitial (c : Char) : Bool := c.isAlpha || c == '_'

/-- Whether `c` may stand in a word: ASCII letters and digits, and `_`, `-`, `.` and `/`. -/
def isInk (c : Char) : Bool := isWord c || c == '.' || c == '/'

/-- A word that can be the text of a plain scalar. -/
structure IsPlainWord (chars : List Char) : Prop where
  initial : ∃ first more, chars = first :: more ∧ isInitial first = true
  ink : ∀ c ∈ chars, isInk c = true

theorem isInk_of_isInitial (h : isInitial c = true) : isInk c = true := by
  simp only [isInitial, Bool.or_eq_true, beq_iff_eq] at h
  simp only [isInk, isWord, Char.isAlphanum, Bool.or_eq_true, beq_iff_eq]
  tauto

/-- A character of a class is none that is not in the class. -/
theorem beq_eq_false_of_class {p : Char → Bool} (h : p c = true) {d : Char} (hd : p d = false) :
    (c == d) = false :=
  beq_false_of_ne fun heq => by rw [← heq, h] at hd; cases hd

theorem isBlank_of_isInk (h : isInk c = true) : isBlank c = false := by
  rw [isBlank, beq_eq_false_of_class h (d := ' ') rfl, beq_eq_false_of_class h (d := '\t') rfl]; rfl

theorem isBreak_of_isInk (h : isInk c = true) : isBreak c = false := by
  rw [isBreak, beq_eq_false_of_class h (d := '\n') rfl, beq_eq_false_of_class h (d := '\u2028') rfl,
    beq_eq_false_of_class h (d := '\u2029') rfl]; rfl

/-- Words hold visible ASCII characters only. -/
theorem isAdmissible_of_isInk (h : isInk c = true) : isAdmissible c = true := by
  have hrange : ' ' ≤ c ∧ c ≤ '~' := by
    simp only [isInk, isWord, Char.isAlphanum, Bool.or_eq_true, beq_iff_eq] at h
    have hbounds : ∀ {low high : UInt32}, low ≤ c.val → c.val ≤ high → ' '.val ≤ low →
        high ≤ '~'.val → ' ' ≤ c ∧ c ≤ '~' := fun hlow hhigh hspace htilde =>
      ⟨UInt32.le_trans hspace hlow, UInt32.le_trans hhigh htilde⟩
    rcases h with ((((halpha | hdigit) | rfl) | rfl) | rfl) | rfl
    · rcases Bool.or_eq_true_iff.1 halpha with hupper | hlower
      · have := of_decide_eq_true hupper
        exact hbounds this.1 this.2 (by decide) (by decide)
      · have := Bool.and_eq_true_iff.1 hlower
        exact hbounds (of_decide_eq_true this.1) (of_decide_eq_true this.2) (by decide) (by decide)
    · have := Bool.and_eq_true_iff.1 hdigit
      exact hbounds (of_decide_eq_true this.1) (of_decide_eq_true this.2) (by decide) (by decide)
    all_goals decide
  simp [isAdmissible, hrange]

/-! ## Rows -/

/-- The cells of characters that stand one after another on a line. -/
def row (index line column : Nat) : List Char → List Cell
  | [] => []
  | char :: chars => { char, index, line, column } :: row (index + 1) line (column + 1) chars

theorem layoutFrom_append (done before : List Cell) (index line column : Nat)
    (chars : List Char) : layoutFrom (done ++ before) index line column chars =
      before.reverse ++ layoutFrom done index line column chars := by
  fun_induction layoutFrom done index line column chars with
  | case1 => simp [layoutFrom]
  | case2 done index line column rest ih => rw [layoutFrom, ← ih]; rfl
  | case3 done index line column c rest hne hc ih =>
    rw [layoutFrom, if_pos hc, ← ih]
    · rfl
    · exact hne
  | case4 done index line column c rest hne hc hbreak ih =>
    rw [layoutFrom, if_neg hc, if_pos hbreak, ← ih]
    · rfl
    · exact hne
  | case5 done index line column c rest hne hc hbreak ih =>
    rw [layoutFrom, if_neg hc, if_neg hbreak, ← ih]
    · rfl
    · exact hne

/-- Whether `c` has a cell of its own on its line. -/
def IsInline (c : Char) : Prop := isBreak c = false ∧ c ≠ '\r' ∧ c ≠ '\u0085'

theorem isInline_of_isInk (h : isInk c = true) : IsInline c := by
  refine ⟨isBreak_of_isInk h, ?_, ?_⟩ <;> (rintro rfl; cases h)

theorem layoutFrom_inline (h : IsInline c) (index line column : Nat) (rest : List Char) :
    layoutFrom [] index line column (c :: rest) =
      { char := c, index, line, column } :: layoutFrom [] (index + 1) line (column + 1) rest := by
  obtain ⟨hbreak, hreturn, hnext⟩ := h
  have hfeed : c ≠ '\n' := by rintro rfl; cases hbreak
  rw [layoutFrom, if_neg (by simp [hfeed, hreturn, hnext]), if_neg (by simp [hbreak])]
  · exact layoutFrom_append [] [_] _ _ _ rest
  · exact fun _ hc _ => hreturn hc

theorem layoutFrom_newLine (index line column : Nat) (rest : List Char) :
    layoutFrom [] index line column ('\n' :: rest) =
      { char := '\n', index, line, column } :: layoutFrom [] (index + 1) (line + 1) 0 rest :=
  layoutFrom_append [] [_] _ _ _ rest

theorem layoutFrom_row (h : ∀ c ∈ chars, IsInline c) (index line column : Nat)
    (rest : List Char) : layoutFrom [] index line column (chars ++ rest) =
      row index line column chars ++
        layoutFrom [] (index + chars.length) line (column + chars.length) rest := by
  induction chars generalizing index column with
  | nil => rfl
  | cons c chars ih =>
    rw [List.cons_append, layoutFrom_inline (h c List.mem_cons_self),
      ih fun c hc => h c (List.mem_cons_of_mem _ hc), row, List.cons_append, List.length_cons,
      Nat.add_right_comm, Nat.add_right_comm column]
    rfl

/-! ## Plain scalars -/

/-- The ways in which a scalar whose lines are indented to the column `least` ends before
    cells: whether a line has ended after it, and the cells that are left. -/
inductive EndsScalar (least : Nat) : List Cell → Bool → List Cell → Prop
  | atEnd : EndsScalar least [] false []
  | atColon {colon : Cell} {more : List Cell} : colon.char = ':' → endsWord more = true →
    EndsScalar least (colon :: more) false (colon :: more)
  | atLineEnd {feed : Cell} {next : List Cell} : feed.char = '\n' →
    (∀ cell ∈ next.head?, cell.column < least ∧ isBlank cell.char = false ∧
      isBreak cell.char = false) → EndsScalar least (feed :: next) true next

variable {least : Nat} {cells next : List Cell} {broken : Bool}

theorem EndsScalar.readRun (h : EndsScalar least cells broken next) (done : List Char) :
    readRun false done cells = some (done, cells) := by
  cases h with
  | atEnd => rfl
  | atColon hcolon hmore =>
    rw [Yaml.readRun, if_neg (by rw [hcolon]; decide), if_pos (by rw [hcolon]; rfl),
      if_neg (by simp), if_pos hmore]
  | atLineEnd hfeed _ => rw [Yaml.readRun, if_pos (by rw [hfeed]; rfl)]

theorem EndsScalar.readRun_row (h : EndsScalar least cells broken next)
    (hchars : ∀ c ∈ chars, isInk c = true) (done : List Char) (index line column : Nat) :
    Yaml.readRun false done (row index line column chars ++ cells) =
      some (chars.reverse ++ done, cells) := by
  induction chars generalizing done index column with
  | nil => exact h.readRun done
  | cons c chars ih =>
    have hc := hchars c List.mem_cons_self
    rw [row, List.cons_append, Yaml.readRun,
      if_neg (by simp [isBlank_of_isInk hc, isBreak_of_isInk hc]),
      if_neg (by simp [beq_eq_false_of_class hc (d := ':') rfl]), if_neg (by simp),
      ih fun c hc => hchars c (List.mem_cons_of_mem _ hc)]
    simp

/-- A line that ends is a gap up to the first character of the next one. -/
theorem readGap_newLine {feed : Cell} (hfeed : feed.char = '\n')
    (hnext : ∀ cell ∈ next.head?, isBlank cell.char = false ∧ isBreak cell.char = false) :
    readGap least {} (feed :: next) = some ({ broken := true, first := ['\n'] }, next) := by
  rw [readGap, if_neg (by rw [hfeed]; decide), if_pos (by rw [hfeed]; rfl), if_neg (by simp), hfeed]
  cases next with
  | nil => rfl
  | cons cell rest =>
    obtain ⟨hblank, hbreak⟩ := hnext cell rfl
    rw [readGap, if_neg (by simp [hblank]), if_neg (by simp [hbreak])]

theorem marksWith_eq_false {cell : Cell} (h : (cell.char == c) = false) (rest : List Cell) :
    marksWith c (cell :: rest) = false := by
  unfold marksWith
  split
  · rename_i a b d more hcells
    obtain rfl := (List.cons.inj hcells).1
    simp [h]
  · rfl

/-- **A word is a plain scalar** with the text of the word. -/
theorem EndsScalar.plain?_row (h : EndsScalar least cells broken next) (hword : IsPlainWord chars)
    (index line column : Nat) : plain? false least (row index line column chars ++ cells) =
      some { text := chars, broken, rest := next } := by
  obtain ⟨first, more, rfl, hfirst⟩ := hword.initial
  have hstarts : (marksDocument (row index line column (first :: more) ++ cells) ||
      ahead (· == '#') (row index line column (first :: more) ++ cells)) = false := by
    rw [row, List.cons_append, marksDocument, marksWith_eq_false (beq_eq_false_of_class hfirst rfl),
      marksWith_eq_false (beq_eq_false_of_class hfirst rfl)]
    simp [ahead, beq_eq_false_of_class hfirst (d := '#') rfl]
  rw [plain?, readPlain, if_neg (by simp [hstarts]), h.readRun_row hword.ink [] index line column]
  rcases hrun : (first :: more).reverse ++ [] with _ | ⟨last, run⟩
  · simp at hrun
  have htext : (last :: run ++ ({} : Gap).folded ++ []).reverse = first :: more := by
    rw [← hrun]; simp [Gap.folded]
  dsimp only
  rw [htext]
  cases h with
  | atEnd => rfl
  | atColon hcolon hmore => rw [if_neg (by rw [ahead, hcolon]; decide)]
  | atLineEnd hfeed hnext =>
    rw [if_pos (by rw [ahead, hfeed]; rfl),
      readGap_newLine hfeed fun cell hcell => (hnext cell hcell).2]
    cases next with
    | nil => rfl
    | cons cell rest => exact if_pos (by simp [(hnext cell rfl).1])

end DumpSplit.Yaml
