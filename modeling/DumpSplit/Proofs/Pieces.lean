/-
  Pieces: put together, the pieces of a JSON value are its written form, up to the first value
  that has none; so what goes out ahead of a summary is a part of its text.
-/
import DumpSplit.Summary
import Mathlib.Algebra.GroupWithZero.Nat
import Mathlib.Data.List.SplitBy

namespace DumpSplit

namespace Json

/-- What pieces come to, up to the first one that is missing. -/
def Written.ofPieces : List (Option String) → Written
  | [] => { text := "" }
  | none :: _ => { text := "", whole := false }
  | some piece :: rest => { text := piece } ++ ofPieces rest

namespace Written

theorem ofPieces_append (front back : List (Option String)) :
    ofPieces (front ++ back) = ofPieces front ++ ofPieces back := by
  induction front with
  | nil => exact (empty_append _).symm
  | cons piece front ih =>
    cases piece with
    | none => rfl
    | some piece => rw [List.cons_append, ofPieces, ofPieces, ih, append_assoc]

theorem ofPieces_map_some (texts : List String) :
    ofPieces (texts.map some) = { text := String.join texts } := by
  induction texts with
  | nil => rfl
  | cons text texts ih => rw [List.map_cons, ofPieces, ih, String.join_cons]; rfl

theorem ofPieces_singleton (text : String) : ofPieces [some text] = { text } :=
  congrArg (mk · true) String.append_empty

end Written

open Written

theorem ofPieces_stringPieces (text : String) :
    ofPieces (stringPieces text) = { text := stringForm text } := by
  let runs := text.toList.splitBy fun c d => isPlain c && isPlain d
  have hpieces : stringPieces text =
      (("\"" :: runs.map fun run => String.join (run.map escapedChar)) ++ ["\""]).map some := by
    simp [stringPieces, runs]
  have hruns : String.join (runs.map fun run => String.join (run.map escapedChar)) =
      String.join (text.toList.map escapedChar) := by
    have hflatten : runs.flatten = text.toList := List.flatten_splitBy _ _
    rw [← String.toList_inj, ← hflatten]
    simp [String.toList_join, List.flatMap_def, List.map_flatten, List.flatten_flatten,
      Function.comp_def]
  rw [hpieces, ofPieces_map_some, List.cons_append, String.join_cons, String.join_append, hruns,
    stringForm, ← String.append_assoc, String.join_cons, String.join_nil, String.append_empty]

theorem ofPieces_newLine (level : Nat) :
    ofPieces (some "\n" :: indent level) = newLine level := by
  have hblanks : String.join (List.replicate level "  ") =
      String.ofList (List.replicate (2 * level) ' ') := by
    rw [← String.toList_inj]
    induction level with
    | zero => rfl
    | succ level ih =>
      rw [List.replicate_succ, String.join_cons, String.toList_append, ih, Nat.mul_succ]
      simp [List.replicate_succ]
  have hindent : indent level = (List.replicate level "  ").map some := by
    rw [List.map_replicate, indent]
  rw [hindent, ← List.map_cons, ofPieces_map_some, String.join_cons, hblanks, newLine]
  simp

/-- What stands in front of an item or a field goes out with the line feed, or in front of it. -/
theorem ofPieces_comma (level : Nat) :
    ofPieces (some ",\n" :: indent level) = { text := "," } ++ newLine level := by
  rw [← ofPieces_newLine, ofPieces, ofPieces, ← append_assoc]
  rfl

mutual

/-- **The pieces of a value are its written form.** -/
theorem ofPieces_pieces (level : Nat) : ∀ json : Json,
    ofPieces (pieces level json) = pretty level json
  | null | bool _ | whole _ | decimal _ _ => ofPieces_singleton _
  | string text => ofPieces_stringPieces text
  | array [] | object [] | unwritable => rfl
  | array (item :: rest) => by
    rw [pieces, ofPieces_append, ofPieces_append, ofPieces_append, ofPieces_append, ofPieces,
      ofPieces_newLine, ofPieces_newLine, ofPieces_pieces (level + 1) item,
      ofPieces_itemPieces (level + 1) rest, ofPieces_singleton, pretty]
  | object ((key, value) :: rest) => by
    rw [pieces, ofPieces_append, ofPieces_append, ofPieces_append, ofPieces_append, ofPieces_append,
      ofPieces, ofPieces_newLine, ofPieces_newLine, ofPieces_stringPieces, ofPieces,
      ofPieces_pieces (level + 1) value, ofPieces_fieldPieces (level + 1) rest, ofPieces_singleton,
      pretty]
    simp only [append_assoc, mk_append_mk_append]

theorem ofPieces_itemPieces (level : Nat) : ∀ items : List Json,
    ofPieces (itemPieces level items) = prettyItems level items
  | [] => rfl
  | item :: rest => by
    rw [itemPieces, ofPieces_append, ofPieces_append, ofPieces_comma, ofPieces_pieces level item,
      ofPieces_itemPieces level rest, prettyItems]

theorem ofPieces_fieldPieces (level : Nat) : ∀ fields : List (String × Json),
    ofPieces (fieldPieces level fields) = prettyFields level fields
  | [] => rfl
  | (key, value) :: rest => by
    rw [fieldPieces, ofPieces_append, ofPieces_append, ofPieces_append, ofPieces_comma,
      ofPieces_stringPieces, ofPieces, ofPieces_pieces level value, ofPieces_fieldPieces level rest,
      prettyFields]
    simp only [append_assoc, mk_append_mk_append]

end

theorem sum_sizes_ofPieces (pieces : List (Option String)) :
    ((pieces.takeWhile Option.isSome).filterMap (·.map String.utf8ByteSize)).sum =
      (ofPieces pieces).text.utf8ByteSize := by
  induction pieces with
  | nil => rfl
  | cons piece pieces ih =>
    cases piece with
    | none => rfl
    | some piece =>
      rw [ofPieces, text_append rfl, String.utf8ByteSize_append, ← ih]
      simp

/-- The pieces that go out have the bytes of the written form. -/
theorem sum_pieceSizes (json : Json) :
    json.pieceSizes.sum = (json.pretty 0).text.utf8ByteSize := by
  rw [pieceSizes, sum_sizes_ofPieces, ofPieces_pieces]

end Json

namespace Summary

theorem sentAhead_le (held : Nat) (sizes : List Nat) :
    sentAhead held sizes ≤ held + sizes.sum := by
  induction sizes generalizing held with
  | nil => exact Nat.zero_le _
  | cons size rest ih =>
    have hnone := ih 0
    have hpiece := ih size
    have hboth := ih (held + size)
    rw [sentAhead, List.sum_cons]
    split_ifs <;> omega

/-- What goes out ahead of the end is a part of the text. -/
theorem sentAhead_pieceSizes_le (summary : Summary) :
    sentAhead 0 summary.toJson.pieceSizes ≤ (summary.toJson.pretty 0).text.toUTF8.size := by
  rw [String.toUTF8_eq_toByteArray, String.size_toByteArray, ← Json.sum_pieceSizes]
  exact (sentAhead_le 0 _).trans_eq (Nat.zero_add _)

end Summary

end DumpSplit
