/-
  Which keys a pair of key sets holds, after every record that was added to it.
-/
import DumpSplit.Split
import Mathlib.Data.Finset.Card

namespace DumpSplit

/-- A set of keys is as large as any other set of the same keys. -/
theorem Keys.size_eq_card {keys : Keys} {others : Finset String}
    (h : ∀ key, key ∈ keys ↔ key ∈ others) : keys.size = others.card := by
  have hnodup : keys.toList.Nodup := Std.ExtTreeSet.distinct_toList.imp fun hne heq =>
    hne (Std.LawfulEqCmp.compare_eq_iff_eq.2 heq)
  have hothers : keys.toList.toFinset = others := by
    ext key
    rw [List.mem_toFinset, Std.ExtTreeSet.mem_toList, h]
  rw [← Std.ExtTreeSet.length_toList, ← List.toFinset_card_of_nodup hnodup, hothers]

namespace KeySets

/-- Two pairs of key sets are the same if they hold the same keys. -/
theorem eq_of_forall_mem {keys keys' : KeySets}
    (h : ∀ shard key, key ∈ keys.of shard ↔ key ∈ keys'.of shard) : keys = keys' := by
  obtain ⟨one, two⟩ := keys
  obtain ⟨one', two'⟩ := keys'
  obtain rfl : one = one' := Std.ExtTreeSet.ext_mem (h .one)
  obtain rfl : two = two' := Std.ExtTreeSet.ext_mem (h .two)
  rfl

theorem mem_add {keys : KeySets} {route : Route} {added key : String} {shard : Shard} :
    key ∈ (keys.add route added).of shard ↔
      key ∈ keys.of shard ∨ route.reaches shard ∧ added = key := by
  cases shard <;> simp only [of, add] <;> split <;> rename_i h <;>
    simp [h, Std.ExtTreeSet.mem_insert, or_comm]

theorem mem_shared {keys : KeySets} {key : String} :
    key ∈ keys.shared ↔ key ∈ keys.of .one ∧ key ∈ keys.of .two := by
  simp only [shared, Std.ExtTreeSet.mem_inter_iff, of]

/-- The first shard holds the keys of both. -/
theorem holder?_eq (keys : KeySets) (key : String) :
    keys.holder? key = if key ∈ keys.of .one then some .one
      else if key ∈ keys.of .two then some .two else none := by
  simp only [holder?, Shard.all, List.find?_cons, List.find?_nil, Std.ExtTreeSet.mem_iff_contains]
  cases (keys.of .one).contains key <;> cases (keys.of .two).contains key <;> rfl

theorem holder?_eq_one_iff {keys : KeySets} {key : String} :
    keys.holder? key = some .one ↔ key ∈ keys.of .one := by
  rw [holder?_eq]; split_ifs with h₁ h₂ <;> simp [h₁]

theorem holder?_eq_two_iff {keys : KeySets} {key : String} :
    keys.holder? key = some .two ↔ key ∈ keys.of .two ∧ key ∉ keys.of .one := by
  rw [holder?_eq]
  split_ifs with h₁ h₂
  · simp [h₁]
  · simp [h₁, h₂]
  · simp [h₂]

theorem mem_of_holder?_eq_some {keys : KeySets} {key : String} {shard : Shard}
    (h : keys.holder? key = some shard) : key ∈ keys.of shard := by
  cases shard with
  | one => exact holder?_eq_one_iff.1 h
  | two => exact (holder?_eq_two_iff.1 h).1

theorem holder?_eq_none_iff {keys : KeySets} {key : String} :
    keys.holder? key = none ↔ ∀ shard, key ∉ keys.of shard := by
  rw [holder?_eq]
  constructor
  · intro h shard
    split_ifs at h with h₁ h₂
    cases shard <;> assumption
  · intro h
    rw [if_neg (h .one), if_neg (h .two)]

theorem exists_holder?_eq_some_iff {keys : KeySets} {key : String} :
    (∃ shard, keys.holder? key = some shard) ↔ key ∈ keys.of .one ∨ key ∈ keys.of .two := by
  rw [holder?_eq]
  split_ifs with h₁ h₂
  · simp [h₁]
  · simp [h₂]
  · simp [h₁, h₂]

end KeySets

namespace Routing

theorem mem_foldl_add {routed : List Routed} {keys : KeySets} {key : String} {shard : Shard} :
    key ∈ (routed.foldl (fun keys r => keys.add r.route r.key) keys).of shard ↔
      key ∈ keys.of shard ∨ ∃ r ∈ routed, r.route.reaches shard ∧ r.key = key := by
  induction routed generalizing keys with
  | nil => simp
  | cons r routed ih =>
    rw [List.foldl_cons, ih, KeySets.mem_add, or_assoc]
    simp

/-- The keys of routed records on a shard are those of the records that go there. -/
theorem mem_keysOf {routed : List Routed} {key : String} {shard : Shard} :
    key ∈ (keysOf routed).of shard ↔ ∃ r ∈ routed, r.route.reaches shard ∧ r.key = key := by
  rw [keysOf, mem_foldl_add]
  cases shard <;> simp [KeySets.of]

end Routing

end DumpSplit
