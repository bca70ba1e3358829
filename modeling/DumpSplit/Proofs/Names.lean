/-
  The names on a path: how they come together where paths are joined, and where bytes that
  are put into a path come to stand among them.
-/
import DumpSplit.Path
import Mathlib.Data.List.Basic
import Mathlib.Tactic.SplitIfs

namespace DumpSplit

/-! ## Names of a path -/

namespace Path

theorem cutParts_append_separator (part front back : List UInt8) :
    cutParts part (front ++ separator :: back) = cutParts part front ++ cutParts [] back := by
  induction front generalizing part with
  | nil => simp [cutParts]
  | cons b front ih =>
    rw [List.cons_append, cutParts, cutParts]
    split_ifs <;> simp [ih]

theorem cutParts_of_notMem {bytes : List UInt8} (h : separator ∉ bytes) (part : List UInt8) :
    cutParts part bytes = [part.reverse ++ bytes] := by
  induction bytes generalizing part with
  | nil => simp [cutParts]
  | cons b bytes ih =>
    obtain ⟨hb, hbytes⟩ := not_or.1 (mt List.mem_cons.2 h)
    rw [cutParts, if_neg (Ne.symm hb), ih hbytes]; simp

theorem mem_of_mem_cutParts {part bytes name : List UInt8} (h : name ∈ cutParts part bytes)
    {b : UInt8} (hb : b ∈ name) : b ∈ part ∨ b ∈ bytes := by
  induction bytes generalizing part with
  | nil =>
    rw [cutParts, List.mem_singleton] at h
    exact .inl (by simpa [h] using hb)
  | cons c bytes ih =>
    rw [cutParts] at h
    split_ifs at h
    · rcases List.mem_cons.1 h with rfl | h
      · exact .inl (by simpa using hb)
      · exact .inr (List.mem_cons_of_mem _ ((ih h).resolve_left (by simp)))
    · rcases ih h with hpart | hbytes
      · rcases List.mem_cons.1 hpart with rfl | hpart
        · exact .inr List.mem_cons_self
        · exact .inl hpart
      · exact .inr (List.mem_cons_of_mem _ hbytes)

theorem names_append_separator (front back : List UInt8) :
    (Path.mk (front ++ separator :: back)).names =
      (Path.mk front).names ++ (Path.mk back).names := by
  simp only [names, cutParts_append_separator, List.filter_append]

theorem names_of_notMem {bytes : List UInt8} (h : separator ∉ bytes) (hne : bytes ≠ []) :
    (Path.mk bytes).names = [bytes] := by
  simp [names, cutParts_of_notMem h, hne]

theorem mem_of_mem_names {path : Path} {name : List UInt8} (h : name ∈ path.names) {b : UInt8}
    (hb : b ∈ name) : b ∈ path.bytes :=
  (mem_of_mem_cutParts (List.mem_filter.1 h).1 hb).resolve_left (by simp)

theorem names_join {dir name : Path} (h : name.isAbsolute = false) :
    (dir.join name).names = dir.names ++ name.names := by
  rw [join, if_neg (by simp [h])]
  split
  · rename_i hdir
    rw [List.getLast?_eq_none_iff] at hdir
    simp [names, hdir, cutParts]
  · rename_i last hlast
    split_ifs with hsep
    · obtain ⟨front, hfront⟩ := List.getLast?_eq_some_iff.1 hlast
      have hdir : dir.names = (Path.mk front).names := by
        rw [names, hfront, hsep, cutParts_append_separator]; simp [names, cutParts]
      rw [hdir, ← names_append_separator, hfront, hsep, List.append_assoc, List.singleton_append]
    · exact names_append_separator _ _

theorem isAbsolute_join {dir name : Path} (h : name.isAbsolute = false) :
    (dir.join name).isAbsolute = dir.isAbsolute := by
  rw [join, if_neg (by simp [h])]
  split
  · rename_i hdir
    rw [List.getLast?_eq_none_iff] at hdir
    rw [h, isAbsolute, hdir]; rfl
  · rename_i last hlast
    obtain ⟨b, rest, hdir⟩ := List.exists_cons_of_ne_nil (l := dir.bytes) fun h => by
      simp [h] at hlast
    split_ifs <;> simp [isAbsolute, hdir]

theorem join_of_isAbsolute {dir name : Path} (h : name.isAbsolute) : dir.join name = name := by
  rw [join, if_pos h]

/-- What a directory puts before a name depends on whether the name is absolute, and on
    nothing else in it. -/
theorem exists_join_eq (dir : Path) (absolute : Bool) : ∃ base : List UInt8,
    (base = [] ∨ base.getLast? = some separator) ∧
      ∀ name : Path, name.isAbsolute = absolute → dir.join name = ⟨base ++ name.bytes⟩ := by
  cases absolute with
  | true => exact ⟨[], .inl rfl, fun name h => join_of_isAbsolute h⟩
  | false =>
    cases hlast : dir.bytes.getLast? with
    | none => exact ⟨[], .inl rfl, fun name h => by simp [join, h, hlast]⟩
    | some last =>
      by_cases hsep : last = separator
      · exact ⟨dir.bytes, .inr (hsep ▸ hlast), fun name h => by simp [join, h, hlast, hsep]⟩
      · exact ⟨dir.bytes ++ [separator], .inr (by simp), fun name h => by
          simp [join, h, hlast, hsep]⟩

/-- A directory keeps apart names of which both are absolute or none. -/
theorem eq_of_join_eq {dir a b : Path} (habs : a.isAbsolute = b.isAbsolute)
    (h : dir.join a = dir.join b) : a = b := by
  obtain ⟨base, -, hjoin⟩ := dir.exists_join_eq b.isAbsolute
  rw [hjoin a habs, hjoin b rfl, mk.injEq] at h
  exact congrArg mk (List.append_cancel_left h)

/-- What follows `front` goes on with its last name. -/
theorem exists_names_append (front : List UInt8) : ∃ before head, separator ∉ head ∧
    ∀ rest, (Path.mk (front ++ rest)).names = before ++ (Path.mk (head ++ rest)).names := by
  by_cases h : separator ∈ front
  · obtain ⟨head, start, hfront, hhead⟩ := List.eq_append_cons_of_mem (List.mem_reverse.2 h)
    refine ⟨(Path.mk start.reverse).names, head.reverse, by simpa using hhead, fun rest => ?_⟩
    rw [← names_append_separator, ← List.reverse_reverse front, hfront]
    simp
  · exact ⟨[], front, h, fun rest => rfl⟩

/-- What stands before `back` begins its first name. -/
theorem exists_append_names (back : List UInt8) : ∃ tail after, separator ∉ tail ∧
    (∀ name ∈ after, ∀ b ∈ name, b ∈ back.tail) ∧
    ∀ rest, (Path.mk (rest ++ back)).names = (Path.mk (rest ++ tail)).names ++ after := by
  by_cases h : separator ∈ back
  · obtain ⟨tail, rest, hback, htail⟩ := List.eq_append_cons_of_mem h
    refine ⟨tail, (Path.mk rest).names, htail, fun name hname b hb => ?_, fun rest' => ?_⟩
    · have hmem : b ∈ rest := mem_of_mem_names hname hb
      cases tail <;> simp [hback, hmem]
    · rw [hback, ← List.append_assoc, names_append_separator]
  · exact ⟨back, [], h, by simp, fun rest => by simp⟩

/-- Bytes between `front` and `back` come to stand between the last name of the one and the
    first name of the other. -/
theorem exists_names_around (front back : List UInt8) :
    ∃ before head tail after, separator ∉ head ++ tail ∧
      (∀ name ∈ after, ∀ b ∈ name, b ∈ back.tail) ∧
      ∀ mark : List UInt8, (Path.mk (front ++ mark ++ back)).names =
        before ++ (Path.mk (head ++ mark ++ tail)).names ++ after := by
  obtain ⟨before, head, hhead, hfront⟩ := exists_names_append front
  obtain ⟨tail, after, htail, hafter, hback⟩ := exists_append_names back
  refine ⟨before, head, tail, after, by simp [hhead, htail], hafter, fun mark => ?_⟩
  rw [hback, List.append_assoc, hfront, ← List.append_assoc head]

/-! ## Bytes of a text -/

theorem bytes_ofString (text : String) :
    (ofString text).bytes = text.toList.flatMap String.utf8EncodeChar := by
  simp only [ofString, ← String.utf8Encode_toList, List.utf8Encode, List.data_toByteArray]

theorem bytes_ofString_append (a b : String) :
    (ofString (a ++ b)).bytes = (ofString a).bytes ++ (ofString b).bytes := by
  simp only [bytes_ofString, String.toList_append, List.flatMap_append]

/-- A byte below 0x80 stands for the character with its number, and for no part of another. -/
theorem toNat_of_mem_utf8EncodeChar {b : UInt8} {c : Char} (h : b ∈ String.utf8EncodeChar c)
    (hb : b.toNat < 128) : b.toNat = c.toNat := by
  simp only [String.utf8EncodeChar] at h
  split_ifs at h <;> simp only [List.mem_cons, List.not_mem_nil, or_false] at h
  · subst h
    rw [UInt8.toNat_ofNat']; change c.val.toNat % 256 = c.val.toNat; omega
  all_goals rcases h with rfl | rfl | rfl | rfl <;> rw [UInt8.toNat_ofNat'] at hb <;> omega

theorem eq_dot_of_mem_utf8EncodeChar {c : Char} (h : 0x2E ∈ String.utf8EncodeChar c) :
    c = '.' :=
  Char.toNat_inj.1 (toNat_of_mem_utf8EncodeChar h (by decide)).symm

theorem mem_of_dot_mem_bytes {text : String} (h : 0x2E ∈ (ofString text).bytes) :
    '.' ∈ text.toList := by
  rw [bytes_ofString, List.mem_flatMap] at h
  obtain ⟨c, hc, hb⟩ := h
  exact eq_dot_of_mem_utf8EncodeChar hb ▸ hc

theorem mem_tail_of_dot_mem_tail_bytes {text : String}
    (h : 0x2E ∈ (ofString text).bytes.tail) : '.' ∈ text.toList.tail := by
  rw [bytes_ofString] at h
  cases htext : text.toList with
  | nil => simp [htext] at h
  | cons c rest =>
    rw [htext, List.flatMap_cons, List.tail_append_of_ne_nil (String.utf8EncodeChar_ne_nil),
      List.mem_append, List.mem_flatMap] at h
    rcases h with hfirst | ⟨c', hc', hb⟩
    · -- a dot is a single byte
      obtain rfl := eq_dot_of_mem_utf8EncodeChar (List.mem_of_mem_tail hfirst)
      exact absurd hfirst (by decide)
    · exact eq_dot_of_mem_utf8EncodeChar hb ▸ hc'

theorem ofString_injective : Function.Injective ofString := by
  intro a b h
  exact String.toByteArray_inj.1 (ByteArray.ext (Array.toList_inj.1 (mk.inj h)))

end Path

end DumpSplit
