/-
  What each shard gets of a dump, told from the records and the rule alone, and that a
  split gives exactly this.
-/
import DumpSplit.Proofs.Keys
import DumpSplit.Proofs.Routing

namespace DumpSplit

namespace Rule

/-- The route that a rule gives to a record at a line of `source`, if it gives one. -/
def routeAt? (rule : Rule) (source : Path) : String × Nat → Option Route
  | (line, number) => (rule.route (.ofLine line) { source, line := number }).toOption

/-- Whether a rule sends a record to `shard`. -/
def sends (rule : Rule) (source : Path) (shard : Shard) (record : String × Nat) : Bool :=
  (rule.routeAt? source record).any (·.reaches shard)

/-- The records that a rule sends to `shard`, in the order of the dump. -/
def share (rule : Rule) (dump : Dump) (source : Path) (shard : Shard) : List String :=
  (dump.numbered.filter (rule.sends source shard)).map Prod.fst

/-- Some record that a rule sends to `shard` has the key `key`. -/
def Carries (rule : Rule) (dump : Dump) (source : Path) (shard : Shard) (key : String) : Prop :=
  ∃ record ∈ dump.numbered, rule.sends source shard record ∧
    (Record.ofLine record.1).fields[rule.keyIndex]? = some key

end Rule

namespace Split

/-- Every record is on some shard, and on both only where its route is. -/
theorem countP_reaches (routed : List Routed) :
    routed.countP (·.route.reaches .one) + routed.countP (·.route.reaches .two) =
      routed.length + routed.countP (·.route = .both) := by
  induction routed with
  | nil => rfl
  | cons r routed ih =>
    simp only [List.countP_cons, List.length_cons]
    rcases r.route with ⟨_ | _⟩ | _ <;> simp <;> omega

theorem count_eq_length (split : Split) (shard : Shard) :
    split.count shard = (split.recordsOf shard).length := by
  rw [recordsOf, List.length_map, count, List.countP_eq_length_filter]

section
variable {rule : Rule} {dump : Dump} {source : Path} {split : Split}
  (h : rule.split dump source = .ok split)
include h

theorem routeAt?_place {r : Routed} (hr : r ∈ split.routed) :
    rule.routeAt? source r.place = some r.route := by
  rw [Routed.place, Rule.routeAt?, route_eq h hr]; rfl

theorem sends_place {r : Routed} (hr : r ∈ split.routed) (shard : Shard) :
    rule.sends source shard r.place = r.route.reaches shard := by
  rw [Rule.sends, routeAt?_place h hr, Option.any_some]

theorem map_line_routed : split.routed.map (·.line) = dump.records := by
  obtain ⟨-, -, hplaces, -⟩ := Rule.split_eq_ok h
  rw [← dump.map_fst_numbered, ← hplaces, List.map_map]; rfl

/-- Where the lines alone decide which records reach a shard, they tell its records. -/
theorem recordsOf_eq_filter {shard : Shard} {p : String → Bool}
    (hp : ∀ r ∈ split.routed, r.route.reaches shard = p r.line) :
    split.recordsOf shard = dump.records.filter p := by
  rw [recordsOf, ← map_line_routed h, List.filter_map]
  congr 1
  exact List.filter_congr hp

theorem recordsOf_eq (shard : Shard) : split.recordsOf shard = rule.share dump source shard := by
  obtain ⟨-, -, hplaces, -⟩ := Rule.split_eq_ok h
  rw [Rule.share, ← hplaces, List.filter_map, List.map_map, recordsOf]
  congr 1
  exact List.filter_congr fun r hr => (sends_place h hr shard).symm

theorem lines_eq_recordsOf (shard : Shard) :
    split.lines shard = dump.preamble ++ split.recordsOf shard ++ dump.suffix := by
  obtain ⟨hpre, hsuf, -⟩ := Rule.split_eq_ok h
  rw [lines, hpre, hsuf]

theorem lines_eq (shard : Shard) :
    split.lines shard = dump.preamble ++ rule.share dump source shard ++ dump.suffix := by
  rw [lines_eq_recordsOf h, recordsOf_eq h]

/-- Each shard gets some of the lines of the dump, in their order. -/
theorem lines_sublist (shard : Shard) : (split.lines shard).Sublist dump.lines := by
  have hshare : (rule.share dump source shard).Sublist dump.records := by
    rw [← dump.map_fst_numbered]
    exact List.filter_sublist.map _
  rw [lines_eq h, Dump.lines]
  exact ((List.Sublist.refl _).append hshare).append (.refl _)

theorem count_eq (shard : Shard) :
    split.count shard = (rule.share dump source shard).length := by
  rw [count_eq_length, recordsOf_eq h]

theorem size_eq : split.size = dump.records.length := by
  obtain ⟨-, -, hplaces, -⟩ := Rule.split_eq_ok h
  rw [← dump.length_numbered, ← hplaces, List.length_map, size]

theorem count_add_count : split.count .one + split.count .two =
    split.size + dump.numbered.countP (rule.routeAt? source · = some .both) := by
  obtain ⟨-, -, hplaces, -⟩ := Rule.split_eq_ok h
  rw [count, count, countP_reaches, size, ← hplaces, List.countP_map]
  congr 1
  refine List.countP_congr fun r hr => ?_
  simp [routeAt?_place h hr]

theorem mem_keys_iff {shard : Shard} {key : String} :
    key ∈ split.keys.of shard ↔ rule.Carries dump source shard key := by
  obtain ⟨-, -, hplaces, -⟩ := Rule.split_eq_ok h
  rw [keys, Routing.mem_keysOf, Rule.Carries, ← hplaces]
  simp only [List.mem_map, exists_exists_and_eq_and]
  refine exists_congr fun r => and_congr_right fun hr => ?_
  rw [sends_place h hr, Routed.place, field_key_eq h hr, Option.some.injEq]

/-- The keys on a shard are those of the records there. -/
theorem mem_keys_iff_recordsOf {shard : Shard} {key : String} : key ∈ split.keys.of shard ↔
    ∃ line ∈ split.recordsOf shard, (Record.ofLine line).fields[rule.keyIndex]? = some key := by
  rw [mem_keys_iff h, recordsOf_eq h, Rule.Carries, Rule.share]
  constructor
  · rintro ⟨record, hrecord, hsends, hkey⟩
    exact ⟨record.1, List.mem_map_of_mem (List.mem_filter.2 ⟨hrecord, hsends⟩), hkey⟩
  · rintro ⟨line, hline, hkey⟩
    obtain ⟨record, hrecord, rfl⟩ := List.mem_map.1 hline
    obtain ⟨hrecord, hsends⟩ := List.mem_filter.1 hrecord
    exact ⟨record, hrecord, hsends, hkey⟩

/-- Shards with the same records, in whatever order and however often, hold the same keys. -/
theorem mem_keys_congr {dump' : Dump} {source' : Path} {split' : Split} {shard shard' : Shard}
    (h' : rule.split dump' source' = .ok split')
    (hrecords : ∀ line, line ∈ split.recordsOf shard ↔ line ∈ split'.recordsOf shard')
    (key : String) : key ∈ split.keys.of shard ↔ key ∈ split'.keys.of shard' := by
  simp only [mem_keys_iff_recordsOf h, mem_keys_iff_recordsOf h', hrecords]

/-- No shard holds a key exactly if no record has it: a record that has a key has a route. -/
theorem forall_notMem_keys_iff {key : String} : (∀ shard, key ∉ split.keys.of shard) ↔
    ∀ line ∈ dump.records, (Record.ofLine line).fields[rule.keyIndex]? ≠ some key := by
  rw [← map_line_routed h]
  simp only [keys, Routing.mem_keysOf, List.mem_map, forall_exists_index, and_imp,
    forall_apply_eq_imp_iff₂, not_exists, not_and]
  constructor
  · intro hnone r hr hkey
    obtain ⟨shard, hshard⟩ := r.route.exists_reaches
    exact hnone shard r hr hshard (Option.some.inj ((field_key_eq h hr).symm.trans hkey))
  · intro hnone shard r hr _ hkey
    exact hnone r hr (hkey ▸ field_key_eq h hr)

end

end Split

/-- **A split is read off the records and the rule.**  Every shard gets the frame of the
    dump around the records that the rule sends there, and is told their number; its keys
    are theirs, and a key is held by the first shard to which a record carries it. -/
theorem Rule.split_eq_shares (rule : Rule) (dump : Dump) (source : Path) (split : Split)
    (h : rule.split dump source = .ok split) :
    (∀ shard, split.lines shard =
        dump.preamble ++ rule.share dump source shard ++ dump.suffix ∧
      split.count shard = (rule.share dump source shard).length) ∧
    split.size = dump.records.length ∧
    split.count .one + split.count .two =
      split.size + dump.numbered.countP (rule.routeAt? source · = some .both) ∧
    (∀ shard key, key ∈ split.keys.of shard ↔ rule.Carries dump source shard key) ∧
    (∀ key, key ∈ split.keys.shared ↔
      rule.Carries dump source .one key ∧ rule.Carries dump source .two key) ∧
    ∀ key,
      (split.keys.holder? key = some .one ↔ rule.Carries dump source .one key) ∧
      (split.keys.holder? key = some .two ↔
        rule.Carries dump source .two key ∧ ¬ rule.Carries dump source .one key) ∧
      (split.keys.holder? key = none ↔
        ∀ line ∈ dump.records, (Record.ofLine line).fields[rule.keyIndex]? ≠ some key) := by
  refine ⟨fun shard => ⟨Split.lines_eq h shard, Split.count_eq h shard⟩, Split.size_eq h,
    Split.count_add_count h, fun shard key => Split.mem_keys_iff h, fun key => ?_,
    fun key => ⟨?_, ?_, ?_⟩⟩
  · rw [KeySets.mem_shared, Split.mem_keys_iff h, Split.mem_keys_iff h]
  · rw [KeySets.holder?_eq_one_iff, Split.mem_keys_iff h]
  · rw [KeySets.holder?_eq_two_iff, Split.mem_keys_iff h, Split.mem_keys_iff h]
  · rw [KeySets.holder?_eq_none_iff, Split.forall_notMem_keys_iff h]

/-- Four records by their letters: the key `1` comes on both shards, one line comes twice,
    and the last record goes both ways. -/
theorem Rule.split_eq_shares_byValue :
    let rule := Rule.byValue 0 ⟨1, "letter"⟩ fun | .one => ["a"] | .two => ["b"]
    let dump : Dump :=
      ⟨["INSERT INTO t\n"], ["1, a, x,\n", "1, b, x,\n", "1, b, x,\n", "3, c, x;\n"], ["--"]⟩
    ∃ split, rule.split dump (.ofString "t.sql") = .ok split ∧
      split.lines .two = ["INSERT INTO t\n", "1, b, x,\n", "1, b, x,\n", "3, c, x;\n", "--"] ∧
      split.count .one + split.count .two = 5 ∧ split.keys.holder? "1" = some .one := by
  intro rule dump
  have hok : rule.split dump (.ofString "t.sql") = .ok
      { preamble := dump.preamble, suffix := dump.suffix,
        routed := [⟨"1, a, x,\n", 2, "1", .only .one⟩, ⟨"1, b, x,\n", 3, "1", .only .two⟩,
          ⟨"1, b, x,\n", 4, "1", .only .two⟩, ⟨"3, c, x;\n", 5, "3", .both⟩] } := by rfl
  obtain ⟨hlines, -, hsum, -, -, hheld⟩ := split_eq_shares rule dump _ _ hok
  refine ⟨_, hok, (hlines .two).1, hsum, (hheld "1").1.2 ?_⟩
  exact ⟨("1, a, x,\n", 2), by decide, by decide, by decide⟩

end DumpSplit
