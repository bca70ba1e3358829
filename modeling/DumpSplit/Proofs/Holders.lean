/-
  Read events and the keys of the users: each event goes to the shard that holds its user, so
  that the keys of the users tell those of the events, in whatever order these come.
-/
import DumpSplit.Proofs.Warnings

namespace DumpSplit

namespace Split

variable {users : KeySets} {dump : Dump} {source : Path} {split : Split}
  (h : (Rule.byUser users).split dump source = .ok split) {r : Routed}
include h

theorem exists_holder (hr : r ∈ split.routed) :
    ∃ shard, users.holder? r.key = some shard ∧ r.route = .only shard := by
  obtain ⟨uid, shard, huid, hshard, hroute⟩ := Rule.byUser_route_eq_ok_iff.1 (route_eq h hr)
  obtain rfl : uid = r.key := Option.some.inj (huid.symm.trans (field_key_eq h hr))
  exact ⟨shard, hshard, hroute⟩

theorem reaches_iff_holder? (hr : r ∈ split.routed) {shard : Shard} :
    r.route.reaches shard ↔ users.holder? r.key = some shard := by
  obtain ⟨shard', hholder, hroute⟩ := exists_holder h hr
  simp [hroute, hholder]

/-- The keys on a shard are those of the events whose users it holds. -/
theorem mem_keys_iff_holder? {shard : Shard} {uid : String} : uid ∈ split.keys.of shard ↔
    users.holder? uid = some shard ∧ ∃ r ∈ split.routed, r.key = uid := by
  rw [keys, Routing.mem_keysOf]
  constructor
  · rintro ⟨r, hr, hreaches, rfl⟩
    exact ⟨(reaches_iff_holder? h hr).1 hreaches, r, hr, rfl⟩
  · rintro ⟨hholder, r, hr, rfl⟩
    exact ⟨r, hr, (reaches_iff_holder? h hr).2 hholder, rfl⟩

theorem holder?_keys_eq (hr : r ∈ split.routed) :
    split.keys.holder? r.key = users.holder? r.key := by
  obtain ⟨shard, hholder, -⟩ := exists_holder h hr
  have hmem : ∀ shard', r.key ∈ split.keys.of shard' ↔ shard = shard' := fun shard' => by
    rw [mem_keys_iff_holder? h, hholder, Option.some.injEq]
    exact and_iff_left ⟨r, hr, rfl⟩
  rw [hholder]
  cases shard with
  | one => exact KeySets.holder?_eq_one_iff.2 ((hmem .one).2 rfl)
  | two =>
    refine KeySets.holder?_eq_two_iff.2 ⟨(hmem .two).2 rfl, fun hone => ?_⟩
    cases (hmem .one).1 hone

/-- No key of a read event is on both shards: only one of them is told to hold it. -/
theorem notMem_shared_of_byUser (uid : String) : uid ∉ split.keys.shared := by
  rw [KeySets.mem_shared, mem_keys_iff_holder? h, mem_keys_iff_holder? h]
  rintro ⟨⟨hone, -⟩, htwo, -⟩
  cases hone.symm.trans htwo

/-- A shard gets the events whose users it holds. -/
theorem mem_recordsOf_iff_holder? {shard : Shard} {line : String} :
    line ∈ split.recordsOf shard ↔ line ∈ dump.records ∧ ∃ uid,
      (Record.ofLine line).fields[readUid.index]? = some uid ∧
        users.holder? uid = some shard := by
  rw [← map_line_routed h, recordsOf, List.mem_map, List.mem_map]
  constructor
  · rintro ⟨r, hr, rfl⟩
    obtain ⟨hr, hreaches⟩ := List.mem_filter.1 hr
    exact ⟨⟨r, hr, rfl⟩, r.key, field_key_eq h hr, (reaches_iff_holder? h hr).1 hreaches⟩
  · rintro ⟨⟨r, hr, rfl⟩, uid, huid, hholder⟩
    obtain rfl : uid = r.key := Option.some.inj (huid.symm.trans (field_key_eq h hr))
    exact ⟨r, List.mem_filter.2 ⟨hr, (reaches_iff_holder? h hr).2 hholder⟩, rfl⟩

theorem exists_only_recordsOf {line : String} (hline : line ∈ dump.records) :
    ∃ shard, line ∈ split.recordsOf shard ∧ line ∉ split.recordsOf shard.other := by
  have hmem := hline
  rw [← map_line_routed h] at hmem
  obtain ⟨r, hr, rfl⟩ := List.mem_map.1 hmem
  obtain ⟨shard, hholder, -⟩ := exists_holder h hr
  refine ⟨shard, (mem_recordsOf_iff_holder? h).2 ⟨hline, _, field_key_eq h hr, hholder⟩, ?_⟩
  rintro hother
  obtain ⟨-, uid, huid, hholder'⟩ := (mem_recordsOf_iff_holder? h).1 hother
  obtain rfl : uid = r.key := Option.some.inj (huid.symm.trans (field_key_eq h hr))
  cases shard <;> cases hholder.symm.trans hholder'

theorem routeAt?_eq_of_holder? {record : String × Nat} (hmem : record ∈ dump.numbered) :
    ∃ uid shard, (Record.ofLine record.1).fields[readUid.index]? = some uid ∧
      users.holder? uid = some shard ∧
      (Rule.byUser users).routeAt? source record = some (.only shard) := by
  obtain ⟨-, -, hplaces, -⟩ := Rule.split_eq_ok h
  rw [← hplaces] at hmem
  obtain ⟨r, hr, rfl⟩ := List.mem_map.1 hmem
  obtain ⟨shard, hholder, hroute⟩ := exists_holder h hr
  exact ⟨r.key, shard, field_key_eq h hr, hholder, by rw [routeAt?_place h hr, hroute]⟩

end Split

namespace Rule

/-- What comes of read events that are split by the keys of the users. -/
structure FollowsHolders (users : KeySets) (dump : Dump) (source : Path) (events : List Event)
    (split : Split) : Prop where
  one : ∀ uid ∈ split.keys.of .one, uid ∈ users.of .one
  two : ∀ uid ∈ split.keys.of .two, uid ∈ users.of .two ∧ uid ∉ users.of .one
  shared : ∀ uid, uid ∉ split.keys.shared
  together : ∀ line ∈ dump.records, ∀ line' ∈ dump.records,
    (Record.ofLine line).fields[readUid.index]? = (Record.ofLine line').fields[readUid.index]? →
    ∃ shard, line ∈ split.recordsOf shard ∧ line' ∈ split.recordsOf shard ∧
      line ∉ split.recordsOf shard.other ∧ line' ∉ split.recordsOf shard.other
  routes : ∀ record ∈ dump.numbered, ∀ record' ∈ dump.numbered,
    (Record.ofLine record.1).fields[readUid.index]? =
      (Record.ofLine record'.1).fields[readUid.index]? →
    ∃ shard, (byUser users).routeAt? source record = some (.only shard) ∧
      (byUser users).routeAt? source record' = some (.only shard)
  silent : events = []
  holder : ∀ line ∈ dump.records, ∀ uid, (Record.ofLine line).fields[readUid.index]? = some uid →
    split.keys.holder? uid = users.holder? uid

/-- **Read events are held where their users are**, also where both shards hold some of these:
    their keys never come on two shards, and so nothing is warned of. -/
theorem apply_followsHolders (users : KeySets) (dump : Dump) (source : Path) (disk after : Disk)
    (events : List Event) (split : Split)
    (h : ((byUser users).apply dump source).run disk =
      { disk := after, events, result := .ok split }) :
    FollowsHolders users dump source events split := by
  obtain ⟨-, hsplit, hevents⟩ := run_apply_eq_ok_iff.1 h
  refine ⟨fun uid hone => ?_, fun uid htwo => ?_, Split.notMem_shared_of_byUser hsplit,
    fun line hline line' hline' huids => ?_, fun record hmem record' hmem' huids => ?_, ?_,
    fun line hline uid huid => ?_⟩
  · exact KeySets.holder?_eq_one_iff.1 ((Split.mem_keys_iff_holder? hsplit).1 hone).1
  · exact KeySets.holder?_eq_two_iff.1 ((Split.mem_keys_iff_holder? hsplit).1 htwo).1
  · obtain ⟨shard, hmem, hnot⟩ := Split.exists_only_recordsOf hsplit hline
    have hsame : ∀ shard, line' ∈ split.recordsOf shard ↔ line ∈ split.recordsOf shard := by
      simp only [Split.mem_recordsOf_iff_holder? hsplit, hline, hline', huids, true_and, implies_true]
    exact ⟨shard, hmem, (hsame shard).2 hmem, hnot, fun hmem' => hnot ((hsame _).1 hmem')⟩
  · obtain ⟨uid, shard, huid, hholder, hroute⟩ := Split.routeAt?_eq_of_holder? hsplit hmem
    obtain ⟨uid', shard', huid', hholder', hroute'⟩ := Split.routeAt?_eq_of_holder? hsplit hmem'
    obtain rfl : uid = uid' := Option.some.inj ((huid.symm.trans huids).trans huid')
    obtain rfl : shard = shard' := Option.some.inj (hholder.symm.trans hholder')
    exact ⟨shard, hroute, hroute'⟩
  · rw [hevents, Split.warnings_eq_nil hsplit (Split.notMem_shared_of_byUser hsplit)]
  · rw [← Split.map_line_routed hsplit] at hline
    obtain ⟨r, hr, rfl⟩ := List.mem_map.1 hline
    obtain rfl : uid = r.key := Option.some.inj (huid.symm.trans (Split.field_key_eq hsplit hr))
    exact Split.holder?_keys_eq hsplit hr

/-- Read events of the user `u`, whom both shards hold, and of `v`, whom the second one does. -/
theorem apply_followsHolders_shared :
    let users := (KeySets.add {} .both "u").add (.only .two) "v"
    let dump : Dump := ⟨["INSERT INTO r\n"], [", , v, ,\n", ", , u, ,\n", ", , v, ;"], []⟩
    let source := Path.ofString "user_read.sql"
    ∃ after events split,
      ((byUser users).apply dump source).run .fresh =
        { disk := after, events, result := .ok split } ∧
      FollowsHolders users dump source events split ∧ split.count .two = 2 := by
  intro users dump source
  have ⟨hok, hcount⟩ : (((byUser users).apply dump source).run .fresh).result.isOk ∧
      (((byUser users).apply dump source).run .fresh).result.toOption.map (·.count .two) =
        some 2 := by
    decide +kernel
  obtain ⟨after, events, split, hrun⟩ := Job.exists_run_eq_ok hok
  rw [hrun] at hcount
  exact ⟨after, events, split, hrun,
    apply_followsHolders users dump source .fresh after events split hrun,
    Option.some.inj hcount⟩

end Rule

end DumpSplit
