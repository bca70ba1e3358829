/-
  Lists: where they are cut, which chains are known by the first ends of their links, and
  two lists that are put together in order.
-/
import Mathlib.Data.List.Basic
import Mathlib.Data.List.TakeDrop
import Mathlib.Data.List.TakeWhile

namespace DumpSplit

variable {α β : Type}

/-- A span ends before the first item that lacks its property. -/
theorem span_eq_cons_iff {p : α → Bool} {items before rest : List α} {last : α} :
    items.span p = (before, last :: rest) ↔
      items = before ++ last :: rest ∧ p last = false ∧ ∀ x ∈ before, p x = true := by
  rw [List.span_eq_takeWhile_dropWhile, Prod.mk.injEq]
  constructor
  · rintro ⟨rfl, hdrop⟩
    refine ⟨?_, ?_, fun x hx => List.mem_takeWhile_imp hx⟩
    · rw [← hdrop, List.takeWhile_append_dropWhile]
    · have := List.head_dropWhile_not p (l := items) (by simp [hdrop])
      simpa [hdrop] using this
  · rintro ⟨rfl, hlast, hbefore⟩
    rw [List.takeWhile_append_of_pos hbefore, List.dropWhile_append_of_pos hbefore,
      List.takeWhile_cons_of_neg (by simp [hlast]), List.dropWhile_cons_of_neg (by simp [hlast])]
    simp

theorem head?_dropWhile_eq_some_iff {p : α → Bool} {items : List α} {x : α} :
    (items.dropWhile p).head? = some x ↔
      ∃ before rest, items = before ++ x :: rest ∧ p x = false ∧ ∀ y ∈ before, p y = true := by
  simp only [← span_eq_cons_iff, List.span_eq_takeWhile_dropWhile, List.head?_eq_some_iff,
    Prod.mk.injEq, exists_and_left, exists_eq_left']

/-- A chain whose links ask for a property of their first end. -/
theorem isChain_left_iff {p : α → Prop} {l : List α} :
    l.IsChain (fun a _ => p a) ↔ ∀ a ∈ l.dropLast, p a := by
  induction l with
  | nil => simp
  | cons a l ih =>
    cases l with
    | nil => simp
    | cons b l => rw [List.isChain_cons_cons, ih, List.dropLast_cons_cons, List.forall_mem_cons]

theorem dropLast_sublist_dropLast {l l' : List α} (h : l'.Sublist l) :
    l'.dropLast.Sublist l.dropLast := by
  have := h.reverse.tail
  rwa [List.tail_reverse, List.tail_reverse, List.reverse_sublist] at this

/-! ## Interleavings -/

/-- The items of two lists put together: each comes once, and after those that come before
    it in its list. -/
inductive Interleaves : List α → List α → List α → Prop
  | nil : Interleaves [] [] []
  | left {item : α} {left right all : List α} :
    Interleaves left right all → Interleaves (item :: left) right (item :: all)
  | right {item : α} {left right all : List α} :
    Interleaves left right all → Interleaves left (item :: right) (item :: all)

namespace Interleaves

variable {left right all : List α}

theorem length (h : Interleaves left right all) :
    left.length + right.length = all.length := by
  induction h with
  | nil => rfl
  | left _ ih => simp only [List.length_cons]; omega
  | right _ ih => simp only [List.length_cons]; omega

theorem mem_iff (h : Interleaves left right all) {item : α} :
    item ∈ all ↔ item ∈ left ∨ item ∈ right := by
  induction h with
  | nil => simp
  | left _ ih => rw [List.mem_cons, List.mem_cons, ih, or_assoc]
  | right _ ih => rw [List.mem_cons, List.mem_cons, ih, or_left_comm]

theorem map (f : α → β) (h : Interleaves left right all) :
    Interleaves (left.map f) (right.map f) (all.map f) := by
  induction h with
  | nil => exact .nil
  | left _ ih => exact .left ih
  | right _ ih => exact .right ih

/-- The items with a property and those without it. -/
theorem filter_not (p : α → Bool) (all : List α) :
    Interleaves (all.filter p) (all.filter (!p ·)) all := by
  induction all with
  | nil => exact .nil
  | cons item all ih =>
    cases hp : p item with
    | true =>
      rw [List.filter_cons_of_pos hp, List.filter_cons_of_neg (by simp [hp])]
      exact .left ih
    | false =>
      rw [List.filter_cons_of_neg (by simp [hp]), List.filter_cons_of_pos (by simp [hp])]
      exact .right ih

end Interleaves

end DumpSplit
