/-
  Readings: what is written of a JSON value is read as that value again.
-/
import DumpSplit.Json.Pretty
import DumpSplit.Json.Reader
import Mathlib.Data.List.DropRight
import Mathlib.Data.List.TakeDrop
import Mathlib.Data.List.TakeWhile
import Mathlib.Data.Option.Basic
import Mathlib.Tactic.IntervalCases

namespace DumpSplit.Json

/-! ## Strings -/

theorem isPlain_iff {c : Char} : isPlain c = true ↔ ¬ c < ' ' ∧ c ≠ '"' ∧ c ≠ '\\' := by
  simp [isPlain, and_assoc]

/-- An escape is read as the character that it stands for. -/
theorem exists_escape {c : Char} (h : isPlain c = false) : ∃ code,
    (escapedChar c).toList = '\\' :: code ∧
      ∀ rest, readEscape? (code ++ rest) = some (c, rest) := by
  have hcases : c < ' ' ∨ c = '"' ∨ c = '\\' := by
    by_contra hnone
    rw [not_or, not_or] at hnone
    rw [isPlain_iff.2 hnone] at h
    cases h
  rcases hcases with hcontrol | rfl | rfl
  · obtain ⟨n, hn, rfl⟩ : ∃ n < 32, c = Char.ofNat n := ⟨c.toNat, hcontrol, c.ofNat_toNat.symm⟩
    interval_cases n <;> exact ⟨_, rfl, fun rest => rfl⟩
  · exact ⟨['"'], rfl, fun rest => rfl⟩
  · exact ⟨['\\'], rfl, fun rest => rfl⟩

theorem toList_escapedChar {c : Char} (h : isPlain c = true) : (escapedChar c).toList = [c] := by
  obtain ⟨hcontrol, hquote, hslash⟩ := isPlain_iff.1 h
  have hlow : ¬ c < '\x10' := fun hlt => hcontrol (Nat.lt_trans hlt (by decide))
  have hne : ∀ d, d < ' ' → c ≠ d := fun d hd heq => hcontrol (heq ▸ hd)
  unfold escapedChar
  split
  · exact absurd rfl hquote
  · exact absurd rfl hslash
  iterate 5 exact absurd rfl (hne _ (by decide))
  rw [if_neg hlow, if_neg hcontrol, Char.toString, String.toList_singleton]

/-- One step of reading a string, whichever form the character has. -/
theorem readChars?_escapedChar (fuel : Nat) (c : Char) (rest : List Char) :
    readChars? (fuel + 1) ((escapedChar c).toList ++ rest) =
      (readChars? fuel rest).map fun (text, rest) => (c :: text, rest) := by
  cases h : isPlain c with
  | false =>
    obtain ⟨code, hcode, hread⟩ := exists_escape h
    rw [hcode, List.cons_append, readChars?, hread]
    simp only [Option.bind_eq_bind, Option.bind_some]
    cases readChars? fuel rest <;> rfl
  | true =>
    obtain ⟨hcontrol, hquote, hslash⟩ := isPlain_iff.1 h
    rw [toList_escapedChar h, List.singleton_append, readChars?, if_neg hcontrol]
    · exact hquote
    · exact hslash

theorem readChars?_escaped (text : List Char) {fuel : Nat} (h : text.length < fuel)
    (rest : List Char) :
    readChars? fuel (text.flatMap (fun c => (escapedChar c).toList) ++ '"' :: rest) =
      some (text, rest) := by
  induction text generalizing fuel with
  | nil =>
    obtain ⟨fuel, rfl⟩ := Nat.exists_eq_succ_of_ne_zero (Nat.ne_zero_of_lt h)
    rfl
  | cons c text ih =>
    obtain ⟨fuel, rfl⟩ := Nat.exists_eq_succ_of_ne_zero (Nat.ne_zero_of_lt h)
    rw [List.flatMap_cons, List.append_assoc, Nat.succ_eq_add_one, readChars?_escapedChar,
      ih (Nat.lt_of_succ_lt_succ h)]
    rfl

theorem toList_stringForm (text : String) : (stringForm text).toList =
    '"' :: (text.toList.flatMap (fun c => (escapedChar c).toList) ++ ['"']) := by
  simp [stringForm, List.flatMap_map]

theorem length_le_length_escaped (text : List Char) :
    text.length ≤ (text.flatMap fun c => (escapedChar c).toList).length := by
  induction text with
  | nil => exact Nat.le_refl _
  | cons c text ih =>
    have hpos : 0 < (escapedChar c).toList.length := by
      cases h : isPlain c with
      | false =>
        obtain ⟨code, hcode, -⟩ := exists_escape h
        simp [hcode]
      | true => simp [toList_escapedChar h]
    simp only [List.flatMap_cons, List.length_append, List.length_cons]
    omega

/-- A text without quotes, backslashes and controls stands in quotes as it is. -/
theorem stringForm_of_plain {text : String} (h : text.toList.all isPlain = true) :
    stringForm text = "\"" ++ text ++ "\"" := by
  have hmap : text.toList.flatMap (fun c => (escapedChar c).toList) = text.toList := by
    rw [List.flatMap_congr fun c hc => toList_escapedChar (List.all_eq_true.1 h c hc),
      List.flatMap_singleton']
  rw [← String.toList_inj, toList_stringForm, hmap]
  simp

/-- **A string is read** from its written form, up to the quote at its end. -/
theorem readString?_stringForm (text : String) (rest : List Char) : ∃ more,
    (stringForm text).toList ++ rest = '"' :: more ∧
      readString? more = some (text, rest) := by
  refine ⟨text.toList.flatMap (fun c => (escapedChar c).toList) ++ '"' :: rest, ?_, ?_⟩
  · rw [toList_stringForm]; simp
  · rw [readString?, readChars?_escaped]
    · simp
    · have := length_le_length_escaped text.toList
      rw [List.length_append, List.length_cons]; omega

/-! ## Numbers -/

/-- What may stand behind a value: nothing, a comma or a line feed. -/
def EndsValue (rest : List Char) : Prop := ∀ c ∈ rest.head?, c = ',' ∨ c = '\n'

theorem readDigits?_append {digits rest : List Char} (hdigits : ∀ c ∈ digits, c.isDigit = true)
    (hne : digits ≠ []) (hrest : EndsValue rest) :
    readDigits? (digits ++ rest) = some (digits, rest) := by
  have hend : rest.takeWhile Char.isDigit = [] ∧ rest.dropWhile Char.isDigit = rest := by
    cases rest with
    | nil => simp
    | cons c rest =>
      have hc : c.isDigit = false := by rcases hrest c rfl with rfl | rfl <;> rfl
      simp [hc]
  rw [readDigits?, List.span_eq_takeWhile_dropWhile, List.takeWhile_append_of_pos hdigits,
    List.dropWhile_append_of_pos hdigits, hend.1, hend.2]
  simp [hne]

/-- Only zero is written with a zero in front. -/
theorem head?_toDigits_ne_zero {n : Nat} (h : 0 < n) : (Nat.toDigits 10 n).head? ≠ some '0' := by
  induction n using Nat.strongRecOn with
  | ind n ih =>
    by_cases hlt : n < 10
    · rw [Nat.toDigits_of_lt_base hlt]
      simp [Nat.ne_of_gt h]
    · have hle : 10 ≤ n := Nat.le_of_not_lt hlt
      rw [Nat.toDigits_of_base_le (by decide) hle, List.head?_append,
        Option.or_of_isSome (List.isSome_head?.2 Nat.toDigits_ne_nil)]
      exact ih (n / 10) (Nat.div_lt_self h (by decide)) (Nat.div_pos hle (by decide))

theorem exists_toDigits_eq_cons (n : Nat) :
    ∃ first more, Nat.toDigits 10 n = first :: more ∧ first.isDigit = true := by
  obtain ⟨first, more, h⟩ := List.exists_cons_of_ne_nil (Nat.toDigits_ne_nil (n := n) (b := 10))
  exact ⟨first, more, h,
    Nat.isDigit_of_mem_toDigits (by decide) (by decide) (h ▸ List.mem_cons_self)⟩

theorem readSign_toDigits (n : Nat) (rest : List Char) :
    readSign (Nat.toDigits 10 n ++ rest) = (1, Nat.toDigits 10 n ++ rest) := by
  obtain ⟨first, more, hn, hfirst⟩ := exists_toDigits_eq_cons n
  rw [hn, List.cons_append, readSign]
  rintro rest heq
  rw [(List.cons.inj heq).1] at hfirst
  cases hfirst

theorem readNumber?_toDigits (n : Nat) {chars rest : List Char} {sign : Int}
    (hsign : readSign chars = (sign, Nat.toDigits 10 n ++ rest)) (hrest : EndsValue rest) :
    readNumber? chars = some (.whole (sign * n), rest) := by
  have hzero : Nat.toDigits 10 n = ['0'] ∨ (Nat.toDigits 10 n).head? ≠ some '0' := by
    rcases Nat.eq_zero_or_pos n with rfl | hpos
    · exact .inl (Nat.toDigits_zero 10)
    · exact .inr (head?_toDigits_ne_zero hpos)
  have hdigits : readDigits? (Nat.toDigits 10 n ++ rest) = some (Nat.toDigits 10 n, rest) :=
    readDigits?_append (fun c hc => Nat.isDigit_of_mem_toDigits (by decide) (by decide) hc)
      Nat.toDigits_ne_nil hrest
  have hmore : readFraction? rest = some ([], rest) ∧ readExponent? rest = some (none, rest) := by
    cases rest with
    | nil => exact ⟨rfl, rfl⟩
    | cons c rest => rcases hrest c rfl with rfl | rfl <;> exact ⟨rfl, rfl⟩
  simp only [readNumber?, hsign, Option.bind_eq_bind, hdigits, Option.bind_some, hzero, guard_true,
    hmore, List.append_nil, Nat.ofDigitChars_ten_toDigits, if_true, Bool.or_eq_true,
    decide_eq_true_eq]
  rfl

/-- A number begins with a digit or a minus sign. -/
theorem exists_toString_eq_cons (n : Int) :
    ∃ first more, (toString n).toList = first :: more ∧ (first.isDigit = true ∨ first = '-') := by
  rw [Int.toString_eq_repr, Int.repr_eq_if]
  split_ifs
  · obtain ⟨first, more, hn, hfirst⟩ := exists_toDigits_eq_cons n.toNat
    exact ⟨first, more, by rw [Nat.toList_repr, hn], .inl hfirst⟩
  · exact ⟨'-', (-n).toNat.repr.toList, by rw [String.toList_append]; rfl, .inr rfl⟩

/-- **A whole number is read** from its written form. -/
theorem readNumber?_toString (n : Int) {rest : List Char} (hrest : EndsValue rest) :
    readNumber? ((toString n).toList ++ rest) = some (.whole n, rest) := by
  rw [Int.toString_eq_repr, Int.repr_eq_if]
  split_ifs with h
  · rw [Nat.toList_repr, readNumber?_toDigits n.toNat (readSign_toDigits _ _) hrest, Int.one_mul,
      Int.toNat_of_nonneg h]
  · have hsign : readSign (("-" ++ (-n).toNat.repr).toList ++ rest) =
        (-1, Nat.toDigits 10 (-n).toNat ++ rest) := by
      rw [String.toList_append, Nat.toList_repr]; rfl
    have hvalue : -1 * ((-n).toNat : Int) = n := by omega
    rw [readNumber?_toDigits _ hsign hrest, hvalue]

/-! ## Values that can be told from their written form -/

mutual

/-- Whether a value can be told from its written form: a decimal may be written as another
    one is, and an unwritable value is not written. -/
def IsExact : Json → Prop
  | null | bool _ | whole _ | string _ => True
  | decimal _ _ | unwritable => False
  | array items => AreExact items
  | object fields => HasExactFields fields

def AreExact : List Json → Prop
  | [] => True
  | item :: rest => item.IsExact ∧ AreExact rest

def HasExactFields : List (String × Json) → Prop
  | [] => True
  | (_, value) :: rest => value.IsExact ∧ HasExactFields rest

end

mutual

theorem whole_pretty : ∀ {value : Json}, value.IsExact → ∀ level, (pretty level value).whole = true
  | null, _, _ | bool _, _, _ | whole _, _, _ | string _, _, _ => rfl
  | array [], _, _ | object [], _, _ => rfl
  | array (_ :: _), h, level => by
    simp [pretty, newLine, whole_pretty h.1, whole_prettyItems h.2]
  | object ((_, _) :: _), h, level => by
    simp [pretty, newLine, whole_pretty h.1, whole_prettyFields h.2]

theorem whole_prettyItems :
    ∀ {items : List Json}, AreExact items → ∀ level, (prettyItems level items).whole = true
  | [], _, _ => rfl
  | _ :: _, h, level => by simp [prettyItems, newLine, whole_pretty h.1, whole_prettyItems h.2]

theorem whole_prettyFields : ∀ {fields : List (String × Json)},
    HasExactFields fields → ∀ level, (prettyFields level fields).whole = true
  | [], _, _ => rfl
  | (_, _) :: _, h, level => by
    simp [prettyFields, newLine, whole_pretty h.1, whole_prettyFields h.2]

end

/-! ## What is written of them -/

/-- The characters of a line feed and the blanks of a level. -/
def breakChars (level : Nat) : List Char := '\n' :: List.replicate (2 * level) ' '

def valueChars (level : Nat) (value : Json) : List Char := (pretty level value).text.toList

def itemsChars (level : Nat) (items : List Json) : List Char :=
  (prettyItems level items).text.toList

def fieldsChars (level : Nat) (fields : List (String × Json)) : List Char :=
  (prettyFields level fields).text.toList

variable {value item : Json} {items : List Json} {fields : List (String × Json)} {key : String}

theorem valueChars_null (level : Nat) : valueChars level null = ['n', 'u', 'l', 'l'] := by
  simp [valueChars, pretty]

theorem valueChars_bool (level : Nat) (value : Bool) : valueChars level (bool value) =
    if value then ['t', 'r', 'u', 'e'] else ['f', 'a', 'l', 's', 'e'] := by
  cases value <;> simp [valueChars, pretty]

theorem valueChars_whole (level : Nat) (n : Int) :
    valueChars level (whole n) = (toString n).toList := by
  rw [valueChars, pretty]

theorem valueChars_string (level : Nat) (text : String) :
    valueChars level (string text) = (stringForm text).toList := by
  rw [valueChars, pretty]

theorem valueChars_array_nil (level : Nat) : valueChars level (array []) = ['[', ']'] := by
  simp [valueChars, pretty]

theorem valueChars_object_nil (level : Nat) :
    valueChars level (object []) = ['\x7b', '\x7d'] := by
  simp [valueChars, pretty]

theorem valueChars_array (h : (array (item :: items)).IsExact) (level : Nat) :
    valueChars level (array (item :: items)) =
      '[' :: (breakChars (level + 1) ++ valueChars (level + 1) item ++
        itemsChars (level + 1) items ++ breakChars level ++ [']']) := by
  simp [valueChars, itemsChars, breakChars, pretty, newLine, Written.text_append,
    whole_pretty h.1, whole_prettyItems h.2]

theorem valueChars_object (h : (object ((key, value) :: fields)).IsExact) (level : Nat) :
    valueChars level (object ((key, value) :: fields)) =
      '\x7b' :: (breakChars (level + 1) ++ (stringForm key).toList ++ ':' :: ' ' ::
        (valueChars (level + 1) value ++ fieldsChars (level + 1) fields ++ breakChars level ++
          ['\x7d'])) := by
  simp [valueChars, fieldsChars, breakChars, pretty, newLine, Written.text_append,
    whole_pretty h.1, whole_prettyFields h.2]

theorem itemsChars_nil (level : Nat) : itemsChars level [] = [] := by
  simp [itemsChars, prettyItems]

theorem itemsChars_cons (h : AreExact (item :: items)) (level : Nat) :
    itemsChars level (item :: items) =
      ',' :: (breakChars level ++ valueChars level item ++ itemsChars level items) := by
  simp [valueChars, itemsChars, breakChars, prettyItems, newLine, Written.text_append,
    whole_pretty h.1]

theorem fieldsChars_nil (level : Nat) : fieldsChars level [] = [] := by
  simp [fieldsChars, prettyFields]

theorem fieldsChars_cons (h : HasExactFields ((key, value) :: fields)) (level : Nat) :
    fieldsChars level ((key, value) :: fields) =
      ',' :: (breakChars level ++ (stringForm key).toList ++ ':' :: ' ' ::
        (valueChars level value ++ fieldsChars level fields)) := by
  simp [valueChars, fieldsChars, breakChars, prettyFields, newLine, Written.text_append,
    whole_pretty h.1]

/-! ## Steps of reading -/

variable {c : Char} {rest : List Char} {fuel : Nat}

theorem skipSpace_cons (h : isSpace c = false) (rest : List Char) :
    skipSpace (c :: rest) = c :: rest :=
  List.dropWhile_cons_of_neg (by simp [h])

theorem skipSpace_breakChars (level : Nat) (rest : List Char) :
    skipSpace (breakChars level ++ rest) = skipSpace rest := by
  refine List.dropWhile_append_of_pos fun c hc => ?_
  rcases List.mem_cons.1 hc with rfl | hc
  · rfl
  · rw [List.eq_of_mem_replicate hc]; rfl

theorem skipSpace_skipSpace (chars : List Char) : skipSpace (skipSpace chars) = skipSpace chars :=
  List.dropWhile_idempotent isSpace chars

/-- Space before a value does not matter. -/
theorem readValue?_congr {chars chars' : List Char} (h : skipSpace chars = skipSpace chars')
    (fuel : Nat) : readValue? fuel chars = readValue? fuel chars' := by
  cases fuel with
  | zero => rfl
  | succ fuel => rw [readValue?, readValue?, h]

theorem readValue?_breakChars (fuel level : Nat) (rest : List Char) :
    readValue? fuel (breakChars level ++ rest) = readValue? fuel rest :=
  readValue?_congr (skipSpace_breakChars level rest) fuel

theorem readValue?_space (fuel : Nat) (rest : List Char) :
    readValue? fuel (' ' :: rest) = readValue? fuel rest :=
  readValue?_congr (List.dropWhile_cons_of_pos rfl) fuel

theorem readKey?_stringForm (level : Nat) (key : String) (rest : List Char) :
    readKey? (breakChars level ++ ((stringForm key).toList ++ ':' :: rest)) = some (key, rest) := by
  obtain ⟨more, hmore, hread⟩ := readString?_stringForm key (':' :: rest)
  rw [readKey?, hmore, skipSpace_breakChars, skipSpace_cons rfl]
  simp only [hread, Option.bind_eq_bind, Option.bind_some, skipSpace_cons (c := ':') rfl]
  rfl

theorem readValue?_array {chars rest' : List Char} (h : ∀ more, skipSpace chars ≠ ']' :: more)
    (hitem : readValue? fuel chars = some (item, rest))
    (hitems : readItems? fuel rest = some (items, rest')) :
    readValue? (fuel + 1) ('[' :: chars) = some (array (item :: items), rest') := by
  rw [readValue?, skipSpace_cons rfl]
  simp only
  rw [readValue?_congr (skipSpace_skipSpace chars), hitem]
  simp only [Option.bind_eq_bind, Option.bind_some, hitems]
  rfl

theorem readValue?_object {chars rest' rest'' : List Char}
    (h : ∀ more, skipSpace chars ≠ '\x7d' :: more)
    (hkey : readKey? chars = some (key, rest)) (hvalue : readValue? fuel rest = some (value, rest'))
    (hfields : readFields? fuel rest' = some (fields, rest'')) :
    readValue? (fuel + 1) ('\x7b' :: chars) = some (object ((key, value) :: fields), rest'') := by
  rw [readValue?, skipSpace_cons rfl]
  simp only
  rw [readKey?, skipSpace_skipSpace, ← readKey?, hkey]
  simp only [Option.bind_eq_bind, Option.bind_some, hvalue, hfields]
  rfl

theorem readItems?_cons {chars rest' : List Char}
    (hitem : readValue? fuel chars = some (item, rest))
    (hitems : readItems? fuel rest = some (items, rest')) :
    readItems? (fuel + 1) (',' :: chars) = some (item :: items, rest') := by
  rw [readItems?, skipSpace_cons rfl]
  simp only [hitem, Option.bind_eq_bind, Option.bind_some, hitems]
  rfl

theorem readFields?_cons {chars rest' rest'' : List Char}
    (hkey : readKey? chars = some (key, rest)) (hvalue : readValue? fuel rest = some (value, rest'))
    (hfields : readFields? fuel rest' = some (fields, rest'')) :
    readFields? (fuel + 1) (',' :: chars) = some ((key, value) :: fields, rest'') := by
  rw [readFields?, skipSpace_cons rfl]
  simp only [hkey, Option.bind_eq_bind, Option.bind_some, hvalue, hfields]
  rfl

theorem ne_of_numeral (h : c.isDigit = true ∨ c = '-') {d : Char} (hd : d.isDigit = false)
    (hminus : d ≠ '-') : c ≠ d := by
  rintro rfl
  rcases h with h | h
  · rw [h] at hd; cases hd
  · exact hminus h

theorem isSpace_of_numeral (h : c.isDigit = true ∨ c = '-') : isSpace c = false := by
  simp (disch := decide) only [isSpace, beq_false_of_ne (ne_of_numeral h _ _), Bool.or_false]

/-- A text that begins with a digit or a minus sign is that of a number. -/
theorem readValue?_of_numeral (h : c.isDigit = true ∨ c = '-') :
    readValue? (fuel + 1) (c :: rest) = readNumber? (c :: rest) := by
  rw [readValue?, skipSpace_cons (isSpace_of_numeral h)]
  split
  all_goals first
    | rfl
    | exact absurd (List.cons.inj ‹_›).1 (ne_of_numeral h (by decide) (by decide))

/-! ## Values -/

/-- No value is written with a space or a closing bracket at its front. -/
theorem exists_valueChars_eq_cons (h : value.IsExact) (level : Nat) : ∃ c more,
    valueChars level value = c :: more ∧ isSpace c = false ∧ c ≠ ']' := by
  cases value with
  | null => exact ⟨'n', _, valueChars_null level, by decide, by decide⟩
  | bool value => cases value <;> exact ⟨_, _, valueChars_bool level _, by decide, by decide⟩
  | whole n =>
    obtain ⟨c, more, hn, hc⟩ := exists_toString_eq_cons n
    exact ⟨c, more, hn, isSpace_of_numeral hc, ne_of_numeral hc (by decide) (by decide)⟩
  | string text => exact ⟨'"', _, toList_stringForm text, by decide, by decide⟩
  | array items =>
    cases items with
    | nil => exact ⟨'[', _, valueChars_array_nil level, by decide, by decide⟩
    | cons item items => exact ⟨'[', _, valueChars_array h level, by decide, by decide⟩
  | object fields =>
    cases fields with
    | nil => exact ⟨'\x7b', _, valueChars_object_nil level, by decide, by decide⟩
    | cons field fields => exact ⟨'\x7b', _, valueChars_object h level, by decide, by decide⟩
  | decimal | unwritable => exact h.elim

/-- What follows an item or a field ends its value. -/
theorem endsValue_append_breakChars {chars : List Char} (h : ∀ c ∈ chars.head?, c = ',')
    (level : Nat) (rest : List Char) : EndsValue (chars ++ (breakChars level ++ rest)) := by
  cases chars with
  | nil => exact fun c hc => .inr (Option.some.inj hc).symm
  | cons c chars => exact fun d hd => .inl (h d hd)

theorem endsValue_itemsChars (h : AreExact items) (level level' : Nat) (rest : List Char) :
    EndsValue (itemsChars level items ++ (breakChars level' ++ rest)) := by
  refine endsValue_append_breakChars (fun c hc => ?_) level' rest
  cases items with
  | nil => cases hc
  | cons item items => rw [itemsChars_cons h] at hc; exact (Option.some.inj hc).symm

theorem endsValue_fieldsChars (h : HasExactFields fields) (level level' : Nat)
    (rest : List Char) : EndsValue (fieldsChars level fields ++ (breakChars level' ++ rest)) := by
  refine endsValue_append_breakChars (fun c hc => ?_) level' rest
  cases fields with
  | nil => cases hc
  | cons field fields => rw [fieldsChars_cons h] at hc; exact (Option.some.inj hc).symm

/-- The end of an array is not taken for an item. -/
theorem skipSpace_valueChars_ne (h : value.IsExact) (level level' : Nat) (rest more : List Char) :
    skipSpace (breakChars level' ++ (valueChars level value ++ rest)) ≠ ']' :: more := by
  obtain ⟨c, chars, hvalue, hspace, hc⟩ := exists_valueChars_eq_cons h level
  rw [skipSpace_breakChars, hvalue, List.cons_append, skipSpace_cons hspace]
  exact fun heq => hc (List.cons.inj heq).1

/-- The end of an object is not taken for a key. -/
theorem skipSpace_stringForm_ne (level : Nat) (key : String) (rest more : List Char) :
    skipSpace (breakChars level ++ ((stringForm key).toList ++ rest)) ≠ '\x7d' :: more := by
  rw [skipSpace_breakChars, toList_stringForm, List.cons_append, skipSpace_cons rfl]
  exact fun heq => absurd (List.cons.inj heq).1 (by decide)

mutual

/-- **A value is read** from its written form, whatever stands behind it. -/
theorem readValue?_valueChars : ∀ {value : Json}, value.IsExact → ∀ {level fuel : Nat}
    {rest : List Char}, EndsValue rest → (valueChars level value).length < fuel →
    readValue? fuel (valueChars level value ++ rest) = some (value, rest)
  | null, _, level, fuel + 1, rest, _, _ => by rw [valueChars_null]; rfl
  | bool true, _, level, fuel + 1, rest, _, _ => by rw [valueChars_bool]; rfl
  | bool false, _, level, fuel + 1, rest, _, _ => by rw [valueChars_bool]; rfl
  | whole n, _, level, fuel + 1, rest, hrest, _ => by
    obtain ⟨c, more, hn, hc⟩ := exists_toString_eq_cons n
    rw [valueChars_whole, hn, List.cons_append, readValue?_of_numeral hc, ← List.cons_append, ← hn,
      readNumber?_toString n hrest]
  | string text, _, level, fuel + 1, rest, _, _ => by
    obtain ⟨more, hmore, hread⟩ := readString?_stringForm text rest
    rw [valueChars_string, hmore, readValue?, skipSpace_cons rfl]
    simp only [hread]
    rfl
  | array [], _, level, fuel + 1, rest, _, _ => by rw [valueChars_array_nil]; rfl
  | object [], _, level, fuel + 1, rest, _, _ => by rw [valueChars_object_nil]; rfl
  | array (item :: items), h, level, fuel + 1, rest, _, hfuel => by
    rw [valueChars_array h] at hfuel ⊢
    simp only [List.length_cons, List.length_append] at hfuel
    simp only [List.cons_append, List.append_assoc, List.nil_append]
    refine readValue?_array (skipSpace_valueChars_ne h.1 _ _ _)
      ((readValue?_breakChars _ _ _).trans (readValue?_valueChars h.1 ?_ (by omega)))
      (readItems?_itemsChars h.2 (by omega))
    exact endsValue_itemsChars h.2 _ _ _
  | object ((key, value) :: fields), h, level, fuel + 1, rest, _, hfuel => by
    rw [valueChars_object h] at hfuel ⊢
    simp only [List.length_cons, List.length_append] at hfuel
    simp only [List.cons_append, List.append_assoc, List.nil_append]
    refine readValue?_object (skipSpace_stringForm_ne _ _ _) (readKey?_stringForm _ _ _)
      ((readValue?_space _ _).trans (readValue?_valueChars h.1 ?_ (by omega)))
      (readFields?_fieldsChars h.2 (by omega))
    exact endsValue_fieldsChars h.2 _ _ _

theorem readItems?_itemsChars : ∀ {items : List Json}, AreExact items → ∀ {level level' fuel : Nat}
    {rest : List Char}, (itemsChars level items).length < fuel →
    readItems? fuel (itemsChars level items ++ (breakChars level' ++ ']' :: rest)) =
      some (items, rest)
  | [], _, level, level', fuel + 1, rest, _ => by
    rw [itemsChars_nil, List.nil_append, readItems?, skipSpace_breakChars, skipSpace_cons rfl]
    rfl
  | item :: items, h, level, level', fuel + 1, rest, hfuel => by
    rw [itemsChars_cons h] at hfuel ⊢
    simp only [List.length_cons, List.length_append] at hfuel
    simp only [List.cons_append, List.append_assoc]
    refine readItems?_cons
      ((readValue?_breakChars _ _ _).trans (readValue?_valueChars h.1 ?_ (by omega)))
      (readItems?_itemsChars h.2 (by omega))
    exact endsValue_itemsChars h.2 _ _ _

theorem readFields?_fieldsChars : ∀ {fields : List (String × Json)}, HasExactFields fields →
    ∀ {level level' fuel : Nat} {rest : List Char}, (fieldsChars level fields).length < fuel →
    readFields? fuel (fieldsChars level fields ++ (breakChars level' ++ '\x7d' :: rest)) =
      some (fields, rest)
  | [], _, level, level', fuel + 1, rest, _ => by
    rw [fieldsChars_nil, List.nil_append, readFields?, skipSpace_breakChars, skipSpace_cons rfl]
    rfl
  | (key, value) :: fields, h, level, level', fuel + 1, rest, hfuel => by
    rw [fieldsChars_cons h] at hfuel ⊢
    simp only [List.length_cons, List.length_append] at hfuel
    simp only [List.cons_append, List.append_assoc]
    refine readFields?_cons (readKey?_stringForm _ _ _)
      ((readValue?_space _ _).trans (readValue?_valueChars h.1 ?_ (by omega)))
      (readFields?_fieldsChars h.2 (by omega))
    exact endsValue_fieldsChars h.2 _ _ _

end

/-- **A text is read** as the value that was written, and as no other. -/
theorem ofText?_pretty (h : value.IsExact) : ofText? (pretty 0 value).text = some value := by
  have hread : readValue? ((pretty 0 value).text.length + 1) (valueChars 0 value ++ []) =
      some (value, []) :=
    readValue?_valueChars h (by simp [EndsValue]) (by rw [valueChars, String.length_toList]; omega)
  rw [List.append_nil, valueChars] at hread
  rw [ofText?, hread]
  rfl

end DumpSplit.Json
