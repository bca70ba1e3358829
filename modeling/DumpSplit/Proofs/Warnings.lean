/-
  Warnings: what is told of the records whose keys are on the other shard already.  One step
  looks at the keys of the records before it only, so that the warnings of a whole dump are
  those of its records that cross over to a shard from the other one.
-/
import DumpSplit.Proofs.Rules
import DumpSplit.Proofs.Stages

namespace DumpSplit

/-- The keys that are named by warnings of keys on the other shard, one for each of these. -/
def Event.warnedKeys (events : List Event) : List String :=
  events.filterMap fun
    | keyAlreadyRouted _ _ key _ _ => some key
    | _ => none

/-- A record, by its index in a dump, that goes to `shard` alone although its key is on the other
    shard already. -/
structure Crossing where
  index : Nat
  shard : Shard
  key : String

/-- The warning of a crossing, at the line of its record. -/
def Crossing.warning (crossing : Crossing) (dump : Dump) (source : Path) : Event :=
  .keyAlreadyRouted source (dump.lineNumber crossing.index) crossing.key crossing.shard
    crossing.shard.other

theorem Crossing.warnedKeys_map (crossings : List Crossing) (dump : Dump) (source : Path) :
    Event.warnedKeys (crossings.map (·.warning dump source)) = crossings.map (·.key) := by
  rw [Event.warnedKeys, List.filterMap_map, ← List.filterMap_eq_map]
  rfl

/-! ## Warnings of routed records -/

namespace Routing

variable {source : Path} {routed : List Routed} {r : Routed} {event : Event} {seen : KeySets}

theorem warning?_eq_some_iff : warning? source seen r = some event ↔
    ∃ shard, r.route = .only shard ∧ r.key ∈ seen.of shard.other ∧
      event = .keyAlreadyRouted source r.number r.key shard shard.other := by
  unfold warning?
  cases hroute : r.route with
  | both => simp
  | only shard =>
    simp only [← Std.ExtTreeSet.mem_iff_contains]
    split_ifs with hkey <;> simp [hkey, eq_comm]

theorem foldl_step (source : Path) (routed : List Routed) :
    (routed.foldl (warnings.step source) ({}, [])).1 = keysOf routed := by
  induction routed using List.reverseRecOn with
  | nil => rfl
  | append_singleton before r ih =>
    rw [List.foldl_concat, keysOf, List.foldl_concat, ← keysOf, ← ih]
    rfl

/-- One more record adds its own warning, by the keys of the records before it. -/
theorem warnings_concat (source : Path) (before : List Routed) (r : Routed)
    (refusal? : Option Failure) :
    warnings source { routed := before ++ [r], refusal? } =
      warnings source { routed := before, refusal? } ++
        (warning? source (keysOf before) r).toList := by
  have hstep : (before.foldl (warnings.step source) ({}, [])).1 = keysOf before :=
    foldl_step source before
  simp only [warnings, List.foldl_concat]
  rw [← hstep]
  simp only [warnings.step, List.reverse_append]
  cases warning? source (before.foldl (warnings.step source) ({}, [])).1 r <;> rfl

/-- The routed record at an index crosses over: a record before it has carried its key to the
    other shard. -/
def Crosses (routed : List Routed) (crossing : Crossing) : Prop :=
  ∃ r, routed[crossing.index]? = some r ∧ r.route = .only crossing.shard ∧ r.key = crossing.key ∧
    crossing.key ∈ (keysOf (routed.take crossing.index)).of crossing.shard.other

/-- With one more record there are the crossings from before, and that of the record itself. -/
theorem crosses_concat_iff {before : List Routed} {crossing : Crossing} :
    Crosses (before ++ [r]) crossing ↔ Crosses before crossing ∨
      crossing.index = before.length ∧ r.route = .only crossing.shard ∧ r.key = crossing.key ∧
        crossing.key ∈ (keysOf before).of crossing.shard.other := by
  unfold Crosses
  rcases lt_trichotomy crossing.index before.length with hlt | heq | hgt
  · rw [List.getElem?_append_left hlt, List.take_append_of_le_length hlt.le]
    simp [hlt.ne]
  · rw [heq, List.getElem?_concat_length, List.take_left]
    simp
  · rw [List.getElem?_eq_none (by simp; omega), List.getElem?_eq_none hgt.le]
    simp [hgt.ne']

theorem exists_crossings (source : Path) (dump : Dump) {routed : List Routed}
    (refusal? : Option Failure)
    (hnumber : ∀ (index : Nat) r, routed[index]? = some r → r.number = dump.lineNumber index) :
    ∃ crossings : List Crossing, crossings.Pairwise (·.index < ·.index) ∧
      (∀ crossing, crossing ∈ crossings ↔ Crosses routed crossing) ∧
      warnings source { routed, refusal? } =
        crossings.map (·.warning dump source) := by
  induction routed using List.reverseRecOn with
  | nil => exact ⟨[], .nil, by simp [Crosses], rfl⟩
  | append_singleton before r ih =>
    have hbefore : ∀ (index : Nat) r', before[index]? = some r' →
        r'.number = dump.lineNumber index := fun index r' hr' => hnumber index r' <| by
      rwa [List.getElem?_append_left (List.getElem?_eq_some_iff.1 hr').1]
    obtain ⟨crossings, hsorted, hmem, hwarnings⟩ := ih hbefore
    rw [warnings_concat, hwarnings]
    cases hlast : warning? source (keysOf before) r with
    | none =>
      refine ⟨crossings, hsorted, fun crossing => ?_, by simp⟩
      rw [crosses_concat_iff, hmem, or_iff_left]
      rintro ⟨-, hroute, hkey, hother⟩
      cases hlast.symm.trans (warning?_eq_some_iff.2 ⟨_, hroute, hkey ▸ hother, rfl⟩)
    | some event =>
      obtain ⟨shard, hroute, hother, rfl⟩ := warning?_eq_some_iff.1 hlast
      refine ⟨crossings ++ [⟨before.length, shard, r.key⟩], ?_, fun crossing => ?_, ?_⟩
      · refine List.pairwise_append.2 ⟨hsorted, List.pairwise_singleton _ _, ?_⟩
        rintro crossing hcrossing _ hnew
        rw [List.mem_singleton.1 hnew]
        obtain ⟨r', hr', -⟩ := (hmem crossing).1 hcrossing
        exact (List.getElem?_eq_some_iff.1 hr').1
      · rw [crosses_concat_iff, List.mem_append, hmem, List.mem_singleton]
        refine or_congr_right ⟨?_, ?_⟩
        · rintro rfl; exact ⟨rfl, hroute, rfl, hother⟩
        · rintro ⟨hindex, hroute', hkey, -⟩
          obtain ⟨index, shard', key⟩ := crossing
          cases hroute.symm.trans hroute'
          cases hindex; cases hkey; rfl
      · have hlast : r.number = dump.lineNumber before.length :=
          hnumber _ r List.getElem?_concat_length
        simp [Crossing.warning, hlast]

theorem mem_take_iff {index : Nat} : r ∈ routed.take index ↔ ∃ j < index, routed[j]? = some r := by
  simp only [List.mem_iff_getElem?, List.getElem?_take, Option.ite_none_right_eq_some]

/-- The key of a crossing is on both shards in the end. -/
theorem Crosses.mem_shared {crossing : Crossing} (h : Crosses routed crossing) :
    crossing.key ∈ (keysOf routed).shared := by
  obtain ⟨r, hr, hroute, hkey, hother⟩ := h
  obtain ⟨earlier, hearlier, hreaches, hkey'⟩ := mem_keysOf.1 hother
  have hone : crossing.key ∈ (keysOf routed).of crossing.shard :=
    mem_keysOf.2 ⟨r, List.mem_of_getElem? hr, by simp [hroute], hkey⟩
  have htwo : crossing.key ∈ (keysOf routed).of crossing.shard.other :=
    mem_keysOf.2 ⟨earlier, List.mem_of_mem_take hearlier, hreaches, hkey'⟩
  rw [KeySets.mem_shared]
  cases hshard : crossing.shard <;> rw [hshard] at hone htwo
  · exact ⟨hone, htwo⟩
  · exact ⟨htwo, hone⟩

/-- A key that is on both shards was carried there by a crossing or by a record for both: of two
    records that go one to each shard, the later one crosses over. -/
theorem crosses_or_both {key : String} (h : key ∈ (keysOf routed).shared) :
    (∃ crossing, Crosses routed crossing ∧ crossing.key = key) ∨
      ∃ r ∈ routed, r.route = .both ∧ r.key = key := by
  rw [KeySets.mem_shared, mem_keysOf, mem_keysOf] at h
  obtain ⟨⟨one, hone, hreaches, rfl⟩, two, htwo, hreaches', hkey⟩ := h
  obtain ⟨i, hi⟩ := List.mem_iff_getElem?.1 hone
  obtain ⟨j, hj⟩ := List.mem_iff_getElem?.1 htwo
  cases hroute : one.route with
  | both => exact .inr ⟨one, hone, hroute, rfl⟩
  | only shard =>
    cases hroute' : two.route with
    | both => exact .inr ⟨two, htwo, hroute', hkey⟩
    | only shard' =>
      obtain rfl : shard = .one := by simpa [hroute] using hreaches
      obtain rfl : shard' = .two := by simpa [hroute'] using hreaches'
      rcases lt_trichotomy i j with hlt | rfl | hgt
      · refine .inl ⟨⟨j, .two, one.key⟩, ⟨two, hj, hroute', hkey, mem_keysOf.2 ?_⟩, rfl⟩
        exact ⟨one, mem_take_iff.2 ⟨i, hlt, hi⟩, hreaches, rfl⟩
      · cases hi.symm.trans hj
        cases hroute.symm.trans hroute'
      · refine .inl ⟨⟨i, .one, one.key⟩, ⟨one, hi, hroute, rfl, mem_keysOf.2 ?_⟩, rfl⟩
        exact ⟨two, mem_take_iff.2 ⟨j, hgt, hj⟩, hreaches', hkey⟩

end Routing

/-! ## Warnings of a dump that is split -/

namespace Rule

/-- The key of a record. -/
def keyOf? (rule : Rule) (record : String × Nat) : Option String :=
  (Record.ofLine record.1).fields[rule.keyIndex]?

/-- The record of a dump at an index goes to one shard only, and a record before it with the
    same key to the other one. -/
def Crosses (rule : Rule) (dump : Dump) (source : Path) (crossing : Crossing) : Prop :=
  ∃ record, dump.numbered[crossing.index]? = some record ∧
    rule.routeAt? source record = some (.only crossing.shard) ∧
    rule.keyOf? record = some crossing.key ∧
    ∃ index < crossing.index, ∃ earlier, dump.numbered[index]? = some earlier ∧
      rule.sends source crossing.shard.other earlier ∧ rule.keyOf? earlier = some crossing.key

theorem exists_crossings (rule : Rule) (dump : Dump) (source : Path) :
    ∃ crossings : List Crossing, crossings.Pairwise (·.index < ·.index) ∧
      (∀ crossing, crossing ∈ crossings ↔
        Routing.Crosses (rule.routing dump source).routed crossing) ∧
      (rule.routing dump source).warnings source = crossings.map (·.warning dump source) :=
  Routing.exists_crossings source dump _ fun _ _ hr => (numbered_of_routed hr).2

theorem Exclusive.routeAt?_ne {rule : Rule} (hrule : rule.Exclusive) (source : Path)
    (record : String × Nat) : rule.routeAt? source record ≠ some .both := by
  rw [routeAt?]
  intro hboth
  cases hroute : rule.route (.ofLine record.1) { source, line := record.2 } with
  | error failure => rw [hroute] at hboth; cases hboth
  | ok route =>
    rw [hroute] at hboth
    cases hboth
    exact hrule _ _ hroute

/-- What is warned of while a dump is split: each crossing, in order and at the line of its
    record, and so every key on both shards but those of records for both. -/
structure WarnsOfCrossings (rule : Rule) (dump : Dump) (source : Path) (events : List Event)
    (split : Split) : Prop where
  crossings : ∃ crossings : List Crossing, crossings.Pairwise (·.index < ·.index) ∧
    (∀ crossing, crossing ∈ crossings ↔ rule.Crosses dump source crossing) ∧
    events = crossings.map (·.warning dump source)
  warned : rule.Exclusive → ∀ key, key ∈ Event.warnedKeys events ↔ key ∈ split.keys.shared
  disjoint : rule.Exclusive →
    ((∀ key ∈ split.keys.of .one, key ∉ split.keys.of .two) ↔ events = [])
  both : ∀ key ∈ split.keys.shared, key ∉ Event.warnedKeys events →
    ∃ record ∈ dump.numbered, rule.routeAt? source record = some .both ∧
      rule.keyOf? record = some key

end Rule

namespace Split

variable {rule : Rule} {dump : Dump} {source : Path} {split : Split}
  (h : rule.split dump source = .ok split)
include h

theorem getElem?_numbered (index : Nat) :
    dump.numbered[index]? = split.routed[index]?.map Routed.place := by
  obtain ⟨-, -, hplaces, -⟩ := Rule.split_eq_ok h
  rw [← hplaces, List.getElem?_map]

theorem place_mem_numbered {r : Routed} (hr : r ∈ split.routed) : r.place ∈ dump.numbered := by
  obtain ⟨-, -, hplaces, -⟩ := Rule.split_eq_ok h
  exact hplaces ▸ List.mem_map_of_mem hr

theorem keyOf?_place {r : Routed} (hr : r ∈ split.routed) : rule.keyOf? r.place = some r.key :=
  field_key_eq h hr

theorem crosses_iff {crossing : Crossing} :
    Routing.Crosses split.routed crossing ↔ rule.Crosses dump source crossing := by
  simp only [Routing.Crosses, Rule.Crosses, getElem?_numbered h, Option.map_eq_some_iff,
    Routing.mem_keysOf, Routing.mem_take_iff]
  constructor
  · rintro ⟨r, hr, hroute, hkey, earlier, ⟨index, hlt, hearlier⟩, hreaches, hkey'⟩
    have hmem := List.mem_of_getElem? hr
    have hmem' := List.mem_of_getElem? hearlier
    refine ⟨r.place, ⟨r, hr, rfl⟩, ?_, ?_, index, hlt, earlier.place, ⟨earlier, hearlier, rfl⟩,
      ?_, ?_⟩
    · rw [routeAt?_place h hmem, hroute]
    · rw [keyOf?_place h hmem, hkey]
    · rw [sends_place h hmem', hreaches]
    · rw [keyOf?_place h hmem', hkey']
  · rintro ⟨_, ⟨r, hr, rfl⟩, hroute, hkey, index, hlt, _, ⟨earlier, hearlier, rfl⟩, hsends, hkey'⟩
    have hmem := List.mem_of_getElem? hr
    have hmem' := List.mem_of_getElem? hearlier
    rw [routeAt?_place h hmem, Option.some.injEq] at hroute
    rw [keyOf?_place h hmem, Option.some.injEq] at hkey
    rw [sends_place h hmem'] at hsends
    rw [keyOf?_place h hmem', Option.some.injEq] at hkey'
    exact ⟨r, hr, hroute, hkey, earlier, ⟨index, hlt, hearlier⟩, hsends, hkey'⟩

/-- A key on both shards that no record has carried across is that of a record for both. -/
theorem exists_both_of_mem_shared {key : String} (hkey : key ∈ split.keys.shared)
    (hnot : ¬ ∃ crossing, Routing.Crosses split.routed crossing ∧ crossing.key = key) :
    ∃ record ∈ dump.numbered, rule.routeAt? source record = some .both ∧
      rule.keyOf? record = some key := by
  obtain ⟨r, hr, hroute, rfl⟩ := (Routing.crosses_or_both hkey).resolve_left hnot
  refine ⟨r.place, place_mem_numbered h hr, ?_, keyOf?_place h hr⟩
  rw [routeAt?_place h hr, hroute]

theorem mem_shared_iff_crosses (hrule : rule.Exclusive) {key : String} : key ∈ split.keys.shared ↔
    ∃ crossing, Routing.Crosses split.routed crossing ∧ crossing.key = key := by
  constructor
  · intro hkey
    by_contra hnot
    obtain ⟨record, -, hroute, -⟩ := exists_both_of_mem_shared h hkey hnot
    exact hrule.routeAt?_ne source record hroute
  · rintro ⟨crossing, hcrosses, rfl⟩
    exact hcrosses.mem_shared

/-- A crossing brings its key on both shards, so that there is none if no key is there. -/
theorem warnings_eq_nil (hshared : ∀ key, key ∉ split.keys.shared) :
    (rule.routing dump source).warnings source = [] := by
  obtain ⟨crossings, -, hmem, hwarnings⟩ := rule.exists_crossings dump source
  rw [(Rule.split_eq_ok_iff.1 h).1] at hmem hwarnings ⊢
  have hnil : crossings = [] := List.eq_nil_iff_forall_not_mem.2 fun crossing hcrossing =>
    hshared _ ((hmem crossing).1 hcrossing).mem_shared
  rw [hwarnings, hnil, List.map_nil]

end Split

/-- **No key comes on both shards in silence.**  All crossings are warned of, and nothing else;
    a rule that sends no record to both shards, as that of the users, so warns of every key
    that both of them hold. -/
theorem Rule.apply_warnsOfCrossings : Rule.byRegion.Exclusive ∧
    ∀ (rule : Rule) (dump : Dump) (source : Path) (disk after : Disk) (events : List Event)
      (split : Split),
      (rule.apply dump source).run disk = { disk := after, events, result := .ok split } →
      rule.WarnsOfCrossings dump source events split := by
  refine ⟨byRegion_exclusive, fun rule dump source disk after events split h => ?_⟩
  obtain ⟨-, hsplit, rfl⟩ := run_apply_eq_ok_iff.1 h
  obtain ⟨crossings, hsorted, hmem, hwarnings⟩ := rule.exists_crossings dump source
  rw [(split_eq_ok_iff.1 hsplit).1] at hmem hwarnings ⊢
  have hkeys : ∀ key, key ∈ Event.warnedKeys (crossings.map (·.warning dump source)) ↔
      ∃ crossing, Routing.Crosses split.routed crossing ∧ crossing.key = key := by
    simp [Crossing.warnedKeys_map, hmem]
  have hwarned : rule.Exclusive → ∀ key,
      key ∈ Event.warnedKeys (crossings.map (·.warning dump source)) ↔
        key ∈ split.keys.shared := fun hrule key => by
    rw [hkeys, Split.mem_shared_iff_crosses hsplit hrule]
  rw [hwarnings]
  exact
    { crossings := ⟨crossings, hsorted, fun crossing =>
        (hmem crossing).trans (Split.crosses_iff hsplit), rfl⟩
      warned := hwarned
      disjoint := fun hrule => by
        simp only [← not_and, ← KeySets.mem_shared, ← hwarned hrule, Crossing.warnedKeys_map]
        simp [List.eq_nil_iff_forall_not_mem]
      both := fun key hkey hnot =>
        Split.exists_both_of_mem_shared hsplit hkey fun hcrosses => hnot ((hkeys key).2 hcrosses) }

/-- Records by their letters, of which the second and the fourth cross over; the key `3` is on
    both shards without a warning. -/
theorem Rule.apply_warnsOfCrossings_byValue :
    let rule := Rule.byValue 0 ⟨1, "letter"⟩ fun | .one => ["a"] | .two => ["b"]
    let dump : Dump := ⟨["--\n", "INSERT INTO t\n"],
      ["1, a, x,\n", "1, b, x,\n", "2, c, x,\n", "2, a, x,\n", "3, c, x;\n"], []⟩
    let source := Path.ofString "t.sql"
    ∃ after events split,
      (rule.apply dump source).run .fresh = { disk := after, events, result := .ok split } ∧
      rule.WarnsOfCrossings dump source events split ∧ Event.warnedKeys events = ["1", "2"] := by
  intro rule dump source
  have ⟨hok, hkeys⟩ : ((rule.apply dump source).run .fresh).result.isOk ∧
      Event.warnedKeys ((rule.apply dump source).run .fresh).events = ["1", "2"] := by
    decide +kernel
  obtain ⟨after, events, split, hrun⟩ := Job.exists_run_eq_ok hok
  rw [hrun] at hkeys
  exact ⟨after, events, split, hrun,
    apply_warnsOfCrossings.2 rule dump source .fresh after events split hrun, hkeys⟩

end DumpSplit
