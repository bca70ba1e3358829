/-
  How a dump lies in its lines: what is cut off is put together again in order, and each
  part before a cut ends with the first line that asks for it.  Lines hold no dump if one
  of the two cuts is not made.
-/
import DumpSplit.Dump
import DumpSplit.Proofs.Lists

namespace DumpSplit

/-- A list that ends with its first item of the property `p`. -/
def EndsAtFirst {α : Type} (p : α → Bool) (items : List α) : Prop :=
  ∃ before last, items = before ++ [last] ∧ p last ∧ ∀ x ∈ before, ¬ p x

theorem EndsAtFirst.ne_nil {α : Type} {p : α → Bool} {items : List α} (h : EndsAtFirst p items) :
    items ≠ [] := by
  obtain ⟨before, last, rfl, -⟩ := h
  simp

theorem endsAtFirst_map_iff {α β : Type} {f : α → β} {p : β → Bool} {items : List α} :
    EndsAtFirst p (items.map f) ↔ EndsAtFirst (fun x => p (f x)) items := by
  constructor
  · rintro ⟨_, _, hitems, hlast, hbefore⟩
    obtain ⟨before, lasts, rfl, rfl, hlasts⟩ := List.map_eq_append_iff.1 hitems
    obtain ⟨last, rfl, rfl⟩ := List.map_eq_singleton_iff.1 hlasts
    exact ⟨before, last, rfl, hlast, fun x hx => hbefore _ (List.mem_map_of_mem hx)⟩
  · rintro ⟨before, last, rfl, hlast, hbefore⟩
    exact ⟨before.map f, f last, by simp, hlast, by simpa using hbefore⟩

/-- Where a list ends is told by which of its items have the property. -/
theorem EndsAtFirst.of_map_eq {α β : Type} {p : α → Bool} {q : β → Bool} {items : List α}
    {others : List β} (h : EndsAtFirst p items) (hmap : others.map q = items.map p) :
    EndsAtFirst q others := by
  have hid : EndsAtFirst id (items.map p) := endsAtFirst_map_iff.2 h
  rw [← hmap, endsAtFirst_map_iff] at hid
  exact hid

theorem cutAfter?_eq_some_iff {α : Type} {p : α → Bool} {items front back : List α} :
    cutAfter? p items = some (front, back) ↔ items = front ++ back ∧ EndsAtFirst p front := by
  constructor
  · intro h
    rw [cutAfter?] at h
    split at h
    · cases h
    · rename_i before last rest heq
      cases h
      obtain ⟨hitems, hlast, hbefore⟩ := span_eq_cons_iff.1 heq
      refine ⟨by simp [hitems], before, last, rfl, by simpa using hlast, fun x hx => ?_⟩
      simpa using hbefore x hx
  · rintro ⟨rfl, before, last, rfl, hlast, hbefore⟩
    have hspan : (before ++ [last] ++ back).span (!p ·) = (before, last :: back) :=
      span_eq_cons_iff.2 ⟨by simp, by simp [hlast], by simpa using hbefore⟩
    rw [cutAfter?, hspan]

/-- A list is not cut if none of its items asks for it. -/
theorem cutAfter?_eq_none_iff {α : Type} {p : α → Bool} {items : List α} :
    cutAfter? p items = none ↔ ∀ x ∈ items, ¬ p x := by
  rw [cutAfter?, List.span_eq_takeWhile_dropWhile]
  cases hdrop : items.dropWhile (!p ·) with
  | nil => simpa using List.dropWhile_eq_nil_iff.1 hdrop
  | cons last rest =>
    have hlast : p last = true := by
      have hne : items.dropWhile (!p ·) ≠ [] := by simp [hdrop]
      simpa [hdrop] using List.head_dropWhile_not (!p ·) hne
    have hmem : last ∈ items := (List.dropWhile_suffix _).subset (by rw [hdrop]; simp)
    simpa using ⟨last, hmem, hlast⟩

namespace Dump

variable {lines : List String} {dump : Dump}

/-- **Which dump lies in lines**: they are its parts, one after the other, and the first
    two of these end where they may. -/
theorem ofLines_eq_ok_iff : ofLines lines = .ok dump ↔ dump.lines = lines ∧
    EndsAtFirst opens dump.preamble ∧ EndsAtFirst closes dump.records := by
  constructor
  · intro h
    unfold ofLines at h
    split at h
    · cases h
    rename_i preamble rest hpre
    split at h
    · cases h
    rename_i records suffix hrec
    cases h
    obtain ⟨rfl, hopens⟩ := cutAfter?_eq_some_iff.1 hpre
    obtain ⟨rfl, hcloses⟩ := cutAfter?_eq_some_iff.1 hrec
    exact ⟨List.append_assoc _ _ _, hopens, hcloses⟩
  · rintro ⟨rfl, hopens, hcloses⟩
    have hpre : cutAfter? opens dump.lines = some (dump.preamble, dump.records ++ dump.suffix) :=
      cutAfter?_eq_some_iff.2 ⟨List.append_assoc _ _ _, hopens⟩
    have hrec : cutAfter? closes (dump.records ++ dump.suffix) = some (dump.records, dump.suffix) :=
      cutAfter?_eq_some_iff.2 ⟨rfl, hcloses⟩
    simp only [ofLines, hpre, hrec]

/-! ## Lines behind a preamble -/

section
variable {preamble rest : List String} (h : EndsAtFirst opens preamble)
include h

/-- What comes of lines is told by those after the first one that opens the records, and by
    the number of the others. -/
theorem ofLines_append :
    ofLines (preamble ++ rest) =
      match cutAfter? closes rest with
      | none => .error (.unterminated preamble.length)
      | some (records, suffix) => .ok { preamble, records, suffix } := by
  have hcut : cutAfter? opens (preamble ++ rest) = some (preamble, rest) :=
    cutAfter?_eq_some_iff.2 ⟨rfl, h⟩
  cases hrest : cutAfter? closes rest <;> simp only [ofLines, hcut, hrest]

theorem ofLines_append_eq_ok {records suffix : List String} (hrest : rest = records ++ suffix)
    (hcloses : EndsAtFirst closes records) :
    ofLines (preamble ++ rest) = .ok { preamble, records, suffix } := by
  rw [ofLines_append h, cutAfter?_eq_some_iff.2 ⟨hrest, hcloses⟩]

theorem ofLines_append_eq_unterminated (hcloses : ∀ line ∈ rest, ¬ closes line) :
    ofLines (preamble ++ rest) = .error (.unterminated preamble.length) := by
  rw [ofLines_append h, cutAfter?_eq_none_iff.2 hcloses]

theorem preamble_eq_of_ofLines_append (hdump : ofLines (preamble ++ rest) = .ok dump) :
    dump.preamble = preamble := by
  rw [ofLines_append h] at hdump
  split at hdump
  · cases hdump
  · cases hdump
    rfl

end

/-! ## Lines that hold no dump -/

theorem ofLines_eq_noMarker_iff :
    ofLines lines = .error .noMarker ↔ ∀ line ∈ lines, ¬ opens line := by
  rw [← cutAfter?_eq_none_iff]
  cases hcut : cutAfter? opens lines with
  | none => simp [ofLines, hcut]
  | some parts =>
    obtain ⟨rfl, hopens⟩ := cutAfter?_eq_some_iff.1 hcut
    rw [ofLines_append hopens]
    cases cutAfter? closes parts.2 <;> simp

theorem ofLines_eq_unterminated_iff {number : Nat} :
    ofLines lines = .error (.unterminated number) ↔ ∃ preamble rest, lines = preamble ++ rest ∧
      EndsAtFirst opens preamble ∧ preamble.length = number ∧ ∀ line ∈ rest, ¬ closes line := by
  constructor
  · intro h
    cases hcut : cutAfter? opens lines with
    | none => simp [ofLines, hcut] at h
    | some parts =>
      obtain ⟨rfl, hopens⟩ := cutAfter?_eq_some_iff.1 hcut
      rw [ofLines_append hopens] at h
      refine ⟨parts.1, parts.2, rfl, hopens, ?_⟩
      rw [← cutAfter?_eq_none_iff]
      split at h
      · exact ⟨by simpa using h, ‹_›⟩
      · cases h
  · rintro ⟨preamble, rest, rfl, hopens, rfl, hcloses⟩
    exact ofLines_append_eq_unterminated hopens hcloses

/-- Lines hold a dump, or there is one of two reasons why they do not. -/
theorem ofLines_cases (lines : List String) : (∃ dump, ofLines lines = .ok dump) ∨
    ofLines lines = .error .noMarker ∨ ∃ number, ofLines lines = .error (.unterminated number) := by
  unfold ofLines
  split
  · exact .inr (.inl rfl)
  · split
    · exact .inr (.inr ⟨_, rfl⟩)
    · exact .inl ⟨_, rfl⟩

end Dump

end DumpSplit
