/-
  Pages: YAML texts that consist of lines with a key and a value.  Their tokens are those of
  one block mapping.
-/
import DumpSplit.Proofs.Rows
import DumpSplit.Yaml.Tokens

namespace DumpSplit.Yaml

/-! ## Keys and values -/

/-- A key on a page: an identifier that is not too long. -/
structure IsKey (key : String) : Prop where
  initial : ∃ first more, key.toList = first :: more ∧ isInitial first = true
  chars : ∀ c ∈ key.toList, (c.isAlphanum || c == '_') = true
  short : key.length ≤ 100

/-- A value on a page: a word that begins with a letter. -/
structure IsValue (value : String) : Prop where
  initial : ∃ first more, value.toList = first :: more ∧ first.isAlpha = true
  ink : ∀ c ∈ value.toList, isInk c = true

variable {key value : String}

theorem any_head?_iff {p : Char → Bool} {chars : List Char} :
    chars.head?.any p = true ↔ ∃ first more, chars = first :: more ∧ p first = true := by
  cases chars <;> simp

instance : Decidable (IsKey key) :=
  decidable_of_iff (key.toList.head?.any isInitial = true ∧
      key.toList.all (fun c => c.isAlphanum || c == '_') = true ∧ key.length ≤ 100)
    ⟨fun ⟨hinitial, hchars, hshort⟩ =>
        ⟨any_head?_iff.1 hinitial, List.all_eq_true.1 hchars, hshort⟩,
      fun h => ⟨any_head?_iff.2 h.initial, List.all_eq_true.2 h.chars, h.short⟩⟩

instance : Decidable (IsValue value) :=
  decidable_of_iff (value.toList.head?.any Char.isAlpha = true ∧ value.toList.all isInk = true)
    ⟨fun ⟨hinitial, hink⟩ => ⟨any_head?_iff.1 hinitial, List.all_eq_true.1 hink⟩,
      fun h => ⟨any_head?_iff.2 h.initial, List.all_eq_true.2 h.ink⟩⟩

theorem IsKey.isPlainWord (h : IsKey key) : IsPlainWord key.toList where
  initial := h.initial
  ink c hc := by
    have := h.chars c hc
    simp only [Bool.or_eq_true, beq_iff_eq] at this
    simp only [isInk, isWord, Bool.or_eq_true, beq_iff_eq]
    tauto

theorem IsValue.isPlainWord (h : IsValue value) : IsPlainWord value.toList where
  initial := by
    obtain ⟨first, more, hvalue, hfirst⟩ := h.initial
    exact ⟨first, more, hvalue, by simp [isInitial, hfirst]⟩
  ink := h.ink

/-! ## Steps of reading -/

namespace Reading

variable {r : Reading} {cell : Cell} {rest : List Cell}

theorem readAll?_succ {keyAllowed : Bool} (fuel : Nat)
    (h : skipGap r.inFlow r.keyAllowed false r.cells = (keyAllowed, cell :: rest)) :
    r.readAll? (fuel + 1) =
      (dropStale? { r with keyAllowed, cells := cell :: rest } cell).bind fun r =>
        ((r.closeBlocks cell.column).readToken? cell rest).bind (readAll? fuel) := by
  rw [readAll?, h]
  rfl

/-- A word begins no token but a plain scalar. -/
theorem readToken?_of_isInitial (h : isInitial cell.char = true) (hcells : r.cells = cell :: rest) :
    r.readToken? cell rest = r.readPlainScalar? cell := by
  have hink := isInk_of_isInitial h
  have hplain : startsPlain r.inFlow cell rest = true := by
    rw [startsPlain, isBlank_of_isInk hink, isBreak_of_isInk hink]
    simp (disch := decide) only [List.contains_cons, beq_eq_false_of_class h, List.contains_nil,
      Bool.or_false, Bool.not_false, Bool.true_or]
  have hmarks : ∀ c, isInitial c = false → marksWith c r.cells = false := fun c hc => by
    rw [hcells, marksWith_eq_false (beq_eq_false_of_class h hc)]
  simp (disch := decide) only [readToken?, beq_eq_false_of_class h, hmarks, hplain, Bool.and_false,
    Bool.false_and, Bool.false_eq_true, if_false, if_true]

theorem readToken?_of_colon (h : cell.char = ':') (hcells : r.cells = cell :: rest)
    (hrest : endsWord rest = true) : r.readToken? cell rest = r.readColon? cell rest := by
  have hmarks : ∀ c, (':' == c) = false → marksWith c r.cells = false := fun c hc => by
    rw [hcells, marksWith_eq_false (by rw [h, hc])]
  simp [readToken?, h, hmarks, hrest]

/-- A gap ends before what is no blank, no break and no comment. -/
theorem skipGap_of_visible (hblank : isBlank cell.char = false) (hbreak : isBreak cell.char = false)
    (hcomment : (cell.char == '#') = false) (inFlow keyAllowed : Bool) (rest : List Cell) :
    skipGap inFlow keyAllowed false (cell :: rest) = (keyAllowed, cell :: rest) := by
  simp only [isBlank, Bool.or_eq_false_iff] at hblank
  rw [skipGap, if_neg (by simp [hbreak]), if_neg (by simp [hcomment]), if_neg (by simp [hblank])]

theorem skipGap_of_isInitial (h : isInitial cell.char = true) (inFlow keyAllowed : Bool)
    (rest : List Cell) :
    skipGap inFlow keyAllowed false (cell :: rest) = (keyAllowed, cell :: rest) :=
  have hink := isInk_of_isInitial h
  skipGap_of_visible (isBlank_of_isInk hink) (isBreak_of_isInk hink)
    (beq_eq_false_of_class hink rfl) _ _ _

theorem skipGap_of_space (h : cell.char = ' ') (inFlow keyAllowed : Bool) (rest : List Cell) :
    skipGap inFlow keyAllowed false (cell :: rest) = skipGap inFlow keyAllowed false rest := by
  rw [skipGap, if_neg (by rw [h]; decide), if_neg (by rw [h]; decide), if_pos (by rw [h]; rfl)]

theorem skipGap_of_colon (h : cell.char = ':') (inFlow keyAllowed : Bool) (rest : List Cell) :
    skipGap inFlow keyAllowed false (cell :: rest) = (keyAllowed, cell :: rest) :=
  skipGap_of_visible (by rw [h]; rfl) (by rw [h]; rfl) (by rw [h]; rfl) _ _ _

variable {chars : List Char} {index line column : Nat} {tokens : List Token} {columns : List Nat}

/-- A key at the start of a line is read as a scalar that may turn out to be a key. -/
theorem readAll?_key (hword : IsPlainWord chars) (hcell : cell.char = ':')
    (hrest : endsWord rest = true) (hcolumns : columns = [] ∨ columns = [0])
    (fuel index line : Nat) (tokens : List Token) :
    ∃ char required, readAll? (fuel + 1)
        { cells := row index line 0 chars ++ cell :: rest, tokens, columns } =
      readAll? fuel
        { cells := cell :: rest
          tokens := .scalar (String.ofList chars) true :: tokens
          columns
          keyAllowed := false
          key? := some {
            before := tokens.length, cell := { char, index, line, column := 0 }, required } } := by
  have hplain := fun least =>
    (EndsScalar.atColon hcell hrest : EndsScalar least _ _ _).plain?_row hword index line 0
  obtain ⟨first, more, rfl, hfirst⟩ := hword.initial
  simp only [row, List.cons_append] at hplain ⊢
  rw [readAll?_succ fuel (skipGap_of_isInitial hfirst _ _ _)]
  rcases hcolumns with rfl | rfl
  · refine ⟨first, false, ?_⟩
    simp [dropStale?, closeBlocks, closeBlocksFrom, inFlow, readToken?_of_isInitial, hfirst,
      readPlainScalar?, saveKey?, dropKey?, hplain, emit, least]
  · refine ⟨first, true, ?_⟩
    simp [dropStale?, closeBlocks, closeBlocksFrom, inFlow, readToken?_of_isInitial, hfirst,
      readPlainScalar?, saveKey?, dropKey?, hplain, emit, least]

/-- A colon makes the scalar before it a key, and that of the first line opens the mapping. -/
theorem readAll?_colon (hcell : cell.char = ':') (hrest : endsWord rest = true) {char : Char}
    {required : Bool} {scalar : Token} (hline : cell.line = line)
    (hindex : cell.index ≤ index + longestKey)
    (hcolumns : columns = [] ∨ columns = [0]) (fuel : Nat) :
    readAll? (fuel + 1)
        { cells := cell :: rest
          tokens := scalar :: tokens
          columns
          keyAllowed := false
          key? := some
            { before := tokens.length, cell := { char, index, line, column := 0 }, required } } =
      readAll? fuel
        { cells := rest
          tokens := .value :: scalar :: .key ::
            if columns = [] then .blockMappingStart :: tokens else tokens
          columns := [0]
          keyAllowed := false } := by
  rw [readAll?_succ fuel (skipGap_of_colon hcell _ _ _)]
  have hstale : ¬ index + longestKey < cell.index := Nat.not_lt.2 hindex
  have htwo : tokens.length + 1 + 1 - tokens.length = 2 := by omega
  rcases hcolumns with rfl | rfl
  · simp [dropStale?, Candidate.isStale, hline, hstale, closeBlocks, closeBlocksFrom, inFlow,
      readToken?_of_colon, hcell, hrest, readColon?, insert, openBlock, emit, least, htwo]
  · simp [dropStale?, Candidate.isStale, hline, hstale, closeBlocks, closeBlocksFrom, inFlow,
      readToken?_of_colon, hcell, hrest, readColon?, insert, openBlock, emit, least]

/-- A word behind a blank, inside the mapping, is read as a scalar. -/
theorem readAll?_value {cells next : List Cell} {broken : Bool} (hword : IsPlainWord chars)
    (hends : EndsScalar 1 cells broken next) (hcell : cell.char = ' ') (fuel : Nat) :
    readAll? (fuel + 1)
        { cells := cell :: (row index line column chars ++ cells)
          tokens
          columns := [0]
          keyAllowed := false } =
      readAll? fuel
        { cells := next
          tokens := .scalar (String.ofList chars) true :: tokens
          columns := [0]
          keyAllowed := broken } := by
  have hplain := hends.plain?_row hword index line column
  obtain ⟨first, more, rfl, hfirst⟩ := hword.initial
  simp only [row, List.cons_append] at hplain ⊢
  rw [readAll?_succ fuel ((skipGap_of_space hcell _ _ _).trans (skipGap_of_isInitial hfirst _ _ _))]
  simp [dropStale?, closeBlocks, closeBlocksFrom, inFlow, readToken?_of_isInitial, hfirst,
    readPlainScalar?, saveKey?, hplain, emit, least]

theorem readAll?_nil (fuel : Nat) (keyAllowed : Bool) :
    readAll? (fuel + 1) { cells := [], tokens, columns, keyAllowed } =
      some (tokens.reverse ++ columns.map fun _ => Token.blockEnd) := by
  rw [readAll?]
  simp only [skipGap, closeAll, inFlow, List.isEmpty_nil, Bool.not_true, Bool.false_eq_true,
    if_false, dropKey?, Option.any_none, Option.map_some, List.reverse_append, Option.some.injEq,
    List.append_cancel_left_eq]
  rw [← List.map_reverse, List.map_const', List.map_const', List.length_reverse]

end Reading

/-! ## Lines of pages -/

/-- The characters of a line with a key and a value. -/
def lineChars (entry : String × String) : List Char :=
  entry.1.toList ++ ':' :: ' ' :: entry.2.toList

/-- The text with a line `key: value` for each entry; the last line ends with `ending`. -/
def page (entries : List (String × String)) (ending : String) : String :=
  "\n".intercalate (entries.map fun (key, value) => key ++ ": " ++ value) ++ ending

/-- The tokens of a line. -/
def lineTokens (entry : String × String) : List Token :=
  [.key, .scalar entry.1 true, .value, .scalar entry.2 true]

/-- What may stand behind the line of an entry: nothing, or a line feed before the next line,
    if there is one. -/
structure EndsEntry (after : List Char) : Prop where
  feed : ∀ c ∈ after.head?, c = '\n'
  next : ∀ c ∈ after.tail.head?, isInitial c = true

theorem EndsEntry.endsScalar {after : List Char} (h : EndsEntry after)
    (index line column : Nat) : ∃ broken, (after ≠ [] → broken = true) ∧
      EndsScalar 1 (layoutFrom [] index line column after) broken
        (layoutFrom [] (index + 1) (line + 1) 0 after.tail) := by
  cases after with
  | nil => exact ⟨false, by simp, .atEnd⟩
  | cons c more =>
    obtain rfl : c = '\n' := h.feed c rfl
    refine ⟨true, fun _ => rfl, ?_⟩
    rw [layoutFrom_newLine]
    refine .atLineEnd rfl fun cell hcell => ?_
    cases more with
    | nil => simp [layoutFrom] at hcell
    | cons first more =>
      have hink := isInk_of_isInitial (h.next first rfl)
      rw [layoutFrom_inline (isInline_of_isInk hink)] at hcell
      obtain rfl := Option.some.inj hcell
      exact ⟨Nat.one_pos, isBlank_of_isInk hink, isBreak_of_isInk hink⟩

/-- The cells of a line with a key and a value. -/
theorem layoutFrom_lineChars {entry : String × String} (hkey : IsKey entry.1)
    (hvalue : IsValue entry.2) (index line : Nat) (after : List Char) :
    ∃ colon blank index' column', colon.char = ':' ∧ blank.char = ' ' ∧ colon.line = line ∧
      colon.index = index + entry.1.length ∧
      layoutFrom [] index line 0 (lineChars entry ++ after) =
        row index line 0 entry.1.toList ++ colon :: blank ::
          (row index' line column' entry.2.toList ++
            layoutFrom [] (index' + entry.2.length) line (column' + entry.2.length) after) := by
  refine ⟨{ char := ':', index := index + entry.1.length, line, column := entry.1.length },
    { char := ' ', index := index + entry.1.length + 1, line, column := entry.1.length + 1 },
    index + entry.1.length + 2, entry.1.length + 2, rfl, rfl, rfl, rfl, ?_⟩
  rw [lineChars, List.append_assoc,
    layoutFrom_row fun c hc => isInline_of_isInk (hkey.isPlainWord.ink c hc), List.cons_append,
    List.cons_append, layoutFrom_inline ⟨rfl, by decide, by decide⟩,
    layoutFrom_inline ⟨rfl, by decide, by decide⟩,
    layoutFrom_row fun c hc => isInline_of_isInk (hvalue.isPlainWord.ink c hc)]
  simp only [String.length_toList, Nat.zero_add, Nat.add_assoc, Nat.reduceAdd]

namespace Reading

variable {entry : String × String} {columns : List Nat}

/-- **A line is read** as a key and its value, and opens the mapping where it is the first. -/
theorem readAll?_line (hkey : IsKey entry.1) (hvalue : IsValue entry.2) {after : List Char}
    (hafter : EndsEntry after) (hcolumns : columns = [] ∨ columns = [0])
    (fuel index line : Nat) (tokens : List Token) :
    ∃ index' line' broken, (after ≠ [] → broken = true) ∧ readAll? (fuel + 3)
        { cells := layoutFrom [] index line 0 (lineChars entry ++ after), tokens, columns } =
      readAll? fuel
        { cells := layoutFrom [] index' line' 0 after.tail
          tokens := (lineTokens entry).reverse ++
            if columns = [] then .blockMappingStart :: tokens else tokens
          columns := [0]
          keyAllowed := broken } := by
  obtain ⟨colon, blank, index', column', hcolon, hblank, hline, hindex, hcells⟩ :=
    layoutFrom_lineChars hkey hvalue index line after
  obtain ⟨broken, hbroken, hends⟩ :=
    hafter.endsScalar (index' + entry.2.length) line (column' + entry.2.length)
  have hword : ∀ rest, endsWord (blank :: rest) = true := fun rest => by
    rw [endsWord, hblank]; rfl
  have hshort : colon.index ≤ index + longestKey := by
    have := hkey.short
    rw [hindex, longestKey]; omega
  obtain ⟨char, required, hread⟩ :=
    readAll?_key hkey.isPlainWord hcolon (hword _) hcolumns (fuel + 2) index line tokens
  refine ⟨index' + entry.2.length + 1, line + 1, broken, hbroken, ?_⟩
  rw [hcells, hread, readAll?_colon hcolon (hword _) hline hshort hcolumns,
    readAll?_value hvalue.isPlainWord hends hblank]
  simp only [lineTokens, String.ofList_toList, List.reverse_cons, List.reverse_nil,
    List.nil_append, List.cons_append]

end Reading

/-! ## Whole pages -/

theorem toList_page_singleton (entry : String × String) (ending : String) :
    (page [entry] ending).toList = lineChars entry ++ ending.toList := by
  simp [page, lineChars]

theorem toList_page_cons_cons (entry entry' : String × String) (rest : List (String × String))
    (ending : String) : (page (entry :: entry' :: rest) ending).toList =
      lineChars entry ++ '\n' :: (page (entry' :: rest) ending).toList := by
  simp [page, lineChars, String.intercalate_cons_cons]

/-- What stands behind the first line of a page ends its entry, and the rest is a page again. -/
theorem exists_page_cons (entry : String × String) {rest : List (String × String)}
    {ending : String} (hending : ending = "" ∨ ending = "\n")
    (hrest : ∀ entry ∈ rest, IsKey entry.1) : ∃ after, EndsEntry after ∧
      (page (entry :: rest) ending).toList = lineChars entry ++ after ∧
      (rest = [] → after.tail = []) ∧
      (rest ≠ [] → after = '\n' :: (page rest ending).toList) := by
  cases rest with
  | nil =>
    refine ⟨ending.toList, ?_, toList_page_singleton entry ending, fun _ => ?_, by simp⟩
    · rcases hending with rfl | rfl <;> exact ⟨by simp, by simp⟩
    · rcases hending with rfl | rfl <;> rfl
  | cons entry' rest =>
    refine ⟨_, ⟨by simp, fun c hc => ?_⟩, toList_page_cons_cons entry entry' rest ending,
      by simp, by simp⟩
    obtain ⟨first, more, hkey, hfirst⟩ := (hrest entry' List.mem_cons_self).initial
    obtain ⟨after, hafter⟩ : ∃ after, (page (entry' :: rest) ending).toList =
        lineChars entry' ++ after := by
      cases rest with
      | nil => exact ⟨_, toList_page_singleton entry' ending⟩
      | cons entry'' rest => exact ⟨_, toList_page_cons_cons entry' entry'' rest ending⟩
    rw [List.tail_cons, hafter, lineChars, hkey] at hc
    obtain rfl := Option.some.inj hc
    exact hfirst

variable {entries : List (String × String)} {ending : String}

/-- **A page is read** line by line, into the tokens of one block mapping. -/
theorem Reading.readAll?_page (hne : entries ≠ [])
    (hentries : ∀ entry ∈ entries, IsKey entry.1 ∧ IsValue entry.2)
    (hending : ending = "" ∨ ending = "\n") {columns : List Nat}
    (hcolumns : columns = [] ∨ columns = [0]) (fuel index line : Nat) (tokens : List Token) :
    readAll? (fuel + 1 + 3 * entries.length)
        { cells := layoutFrom [] index line 0 (page entries ending).toList, tokens, columns } =
      some (tokens.reverse ++ (if columns = [] then [.blockMappingStart] else []) ++
        entries.flatMap lineTokens ++ [.blockEnd]) := by
  induction entries generalizing columns index line tokens with
  | nil => exact absurd rfl hne
  | cons entry rest ih =>
    obtain ⟨⟨hkey, hvalue⟩, hrest⟩ := List.forall_mem_cons.1 hentries
    obtain ⟨after, hafter, hpage, hlast, hmore⟩ :=
      exists_page_cons entry hending fun entry hentry => (hrest entry hentry).1
    obtain ⟨index', line', broken, hbroken, hline⟩ := readAll?_line hkey hvalue hafter hcolumns
      (fuel + 1 + 3 * rest.length) index line tokens
    rw [hpage, List.length_cons, Nat.mul_add, ← Nat.add_assoc, hline]
    by_cases hnil : rest = []
    · subst hnil
      rw [hlast rfl, List.length_nil, Nat.mul_zero, Nat.add_zero, layoutFrom, List.reverse_nil,
        readAll?_nil]
      by_cases hopen : columns = [] <;> simp [hopen]
    · obtain rfl := hmore hnil
      rw [hbroken (List.cons_ne_nil _ _), List.tail_cons, ih hnil hrest (.inr rfl)]
      by_cases hopen : columns = [] <;> simp [hopen]

/-! ## Tokens of pages -/

theorem length_layoutFrom (done : List Cell) (index line column : Nat) {chars : List Char}
    (h : '\r' ∉ chars) :
    (layoutFrom done index line column chars).length = done.length + chars.length := by
  fun_induction layoutFrom done index line column chars with
  | case1 => simp
  | case2 => simp at h
  | case3 done index line column c rest _ _ ih
  | case4 done index line column c rest _ _ _ ih
  | case5 done index line column c rest _ _ _ ih =>
    rw [ih (mt (List.mem_cons_of_mem c) h), List.length_cons, List.length_cons]; omega

theorem isInk_of_mem_lineChars {entry : String × String} (hkey : IsKey entry.1)
    (hvalue : IsValue entry.2) {c : Char} (hc : c ∈ lineChars entry) :
    isInk c = true ∨ c ∈ [':', ' ', '\n'] := by
  rcases List.mem_append.1 hc with hc | hc
  · exact .inl (hkey.isPlainWord.ink c hc)
  · rcases List.mem_cons.1 hc with rfl | hc
    · exact .inr (by simp)
    · rcases List.mem_cons.1 hc with rfl | hc
      · exact .inr (by simp)
      · exact .inl (hvalue.isPlainWord.ink c hc)

/-- What stands on a page. -/
theorem isInk_of_mem_page (hentries : ∀ entry ∈ entries, IsKey entry.1 ∧ IsValue entry.2)
    (hending : ending = "" ∨ ending = "\n") {c : Char} (hc : c ∈ (page entries ending).toList) :
    isInk c = true ∨ c ∈ [':', ' ', '\n'] := by
  have hlast : ∀ c ∈ ending.toList, isInk c = true ∨ c ∈ [':', ' ', '\n'] := by
    rcases hending with rfl | rfl <;> simp
  induction entries with
  | nil => exact hlast c (by simpa [page] using hc)
  | cons entry rest ih =>
    obtain ⟨⟨hkey, hvalue⟩, hrest⟩ := List.forall_mem_cons.1 hentries
    cases rest with
    | nil =>
      rw [toList_page_singleton] at hc
      exact (List.mem_append.1 hc).elim (isInk_of_mem_lineChars hkey hvalue) (hlast c)
    | cons entry' rest =>
      rw [toList_page_cons_cons] at hc
      rcases List.mem_append.1 hc with hc | hc
      · exact isInk_of_mem_lineChars hkey hvalue hc
      · rcases List.mem_cons.1 hc with rfl | hc
        · exact .inr (by simp)
        · exact ih hrest hc

theorem le_length_page (hentries : ∀ entry ∈ entries, IsKey entry.1) (ending : String) :
    3 * entries.length ≤ (page entries ending).toList.length := by
  induction entries with
  | nil => exact Nat.zero_le _
  | cons entry rest ih =>
    obtain ⟨hkey, hrest⟩ := List.forall_mem_cons.1 hentries
    obtain ⟨first, more, hchars, -⟩ := hkey.initial
    cases rest with
    | nil =>
      simp only [toList_page_singleton, lineChars, hchars, List.length_append, List.length_cons,
        List.length_nil]
      omega
    | cons entry' rest =>
      have := ih hrest
      simp only [toList_page_cons_cons, lineChars, hchars, List.length_append,
        List.length_cons] at this ⊢
      omega

theorem isAdmissible_of_mem_page (hentries : ∀ entry ∈ entries, IsKey entry.1 ∧ IsValue entry.2)
    (hending : ending = "" ∨ ending = "\n") {c : Char} (hc : c ∈ (page entries ending).toList) :
    isAdmissible c = true := by
  rcases isInk_of_mem_page hentries hending hc with h | h
  · exact isAdmissible_of_isInk h
  · simp only [List.mem_cons, List.not_mem_nil, or_false] at h
    rcases h with rfl | rfl | rfl <;> rfl

/-- A page begins with a key, so with no byte order mark. -/
theorem ahead_mark_page (hne : entries ≠ []) (hentries : ∀ entry ∈ entries, IsKey entry.1)
    (hending : ending = "" ∨ ending = "\n") :
    ahead (· == '\ufeff') (layoutFrom [] 0 0 0 (page entries ending).toList) = false := by
  obtain ⟨entry, rest, rfl⟩ := List.exists_cons_of_ne_nil hne
  obtain ⟨hentry, hrest⟩ := List.forall_mem_cons.1 hentries
  obtain ⟨after, -, hpage, -⟩ := exists_page_cons entry hending hrest
  obtain ⟨first, more, hkey, hfirst⟩ := hentry.initial
  have hink := isInk_of_isInitial hfirst
  rw [hpage, lineChars, hkey, List.append_assoc, List.cons_append,
    layoutFrom_inline (isInline_of_isInk hink)]
  exact beq_eq_false_of_class hink rfl

/-- **The tokens of a page** are those of its lines, in one mapping. -/
theorem tokens?_page (hne : entries ≠ [])
    (hentries : ∀ entry ∈ entries, IsKey entry.1 ∧ IsValue entry.2)
    (hending : ending = "" ∨ ending = "\n") : tokens? (page entries ending) =
      some (.blockMappingStart :: (entries.flatMap lineTokens ++ [.blockEnd])) := by
  have hkeys : ∀ entry ∈ entries, IsKey entry.1 := fun entry hentry => (hentries entry hentry).1
  have hadmissible : (page entries ending).toList.all isAdmissible = true :=
    List.all_eq_true.2 fun c hc => isAdmissible_of_mem_page hentries hending hc
  have hreturn : '\r' ∉ (page entries ending).toList := fun h =>
    (isInk_of_mem_page hentries hending h).elim (by decide) (by decide)
  -- the fuel is the number of characters, which is more than three for each line
  have hfuel : (layoutFrom [] 0 0 0 (page entries ending).toList).length + 1 =
      ((page entries ending).toList.length - 3 * entries.length) + 1 + 3 * entries.length := by
    have := le_length_page hkeys ending
    rw [length_layoutFrom [] 0 0 0 hreturn, List.length_nil]; omega
  simp only [tokens?, layout?, hadmissible, if_true, Option.bind_eq_bind, Option.bind_some,
    ahead_mark_page hne hkeys hending, Bool.false_eq_true, if_false, hfuel]
  rw [Reading.readAll?_page hne hentries hending (.inl rfl)]
  rfl

end DumpSplit.Yaml
