/-
  Articles: all of them are on the first shard, whose file is a copy of the dump, and
  those of the shared category are on the second one too.
-/
import DumpSplit.Disk.Arrange
import DumpSplit.Proofs.Rules
import DumpSplit.Proofs.Stages

namespace DumpSplit

/-- Whether the article on a line is of the shared category, which is `"technology"` with its
    quotes. -/
def isShared (line : String) : Bool := (Record.ofLine line).fields[4]? == some "\"technology\""

theorem isShared_eq (line : String) : isShared line =
    ((Record.ofLine line).fields[articleCategory.index]? == some sharedCategory) :=
  rfl

/-- The records of a dump that have a property, in the frame of all of them. -/
def Dump.excerpt (dump : Dump) (p : String → Bool) : Dump :=
  { dump with records := dump.records.filter p }

theorem Dump.excerpt_lines_sublist (dump : Dump) (p : String → Bool) :
    (dump.excerpt p).lines.Sublist dump.lines :=
  ((List.Sublist.refl _).append List.filter_sublist).append (.refl _)

/-! ## The shares of articles -/

namespace Split

variable {dump : Dump} {source : Path} {split : Split}

/-- The routes of articles, by their lines. -/
theorem reaches_of_byCategory (h : Rule.byCategory.split dump source = .ok split) {r : Routed}
    (hr : r ∈ split.routed) :
    r.route.reaches .one = true ∧ r.route.reaches .two = isShared r.line := by
  obtain ⟨category, hfield, hroute⟩ := Rule.byCategory_route_eq_ok_iff.1 (route_eq h hr)
  rw [hroute, isShared_eq, hfield]
  by_cases hshared : category = sharedCategory
  · simp [hshared]
  · simp [hshared]

/-- The first shard gets all records, the second one those of the shared category. -/
theorem recordsOf_of_byCategory (h : Rule.byCategory.split dump source = .ok split) :
    split.recordsOf .one = dump.records ∧
      split.recordsOf .two = dump.records.filter isShared := by
  have hone := recordsOf_eq_filter (p := fun _ => true) h fun r hr => (reaches_of_byCategory h hr).1
  have htwo := recordsOf_eq_filter h fun r hr => (reaches_of_byCategory h hr).2
  rw [List.filter_true] at hone
  exact ⟨hone, htwo⟩

theorem lines_of_byCategory (h : Rule.byCategory.split dump source = .ok split) :
    split.lines .one = dump.lines ∧ split.lines .two = (dump.excerpt isShared).lines := by
  obtain ⟨hone, htwo⟩ := recordsOf_of_byCategory h
  rw [lines_eq_recordsOf h, lines_eq_recordsOf h, hone, htwo]
  exact ⟨rfl, rfl⟩

theorem count_of_byCategory (h : Rule.byCategory.split dump source = .ok split) :
    split.count .one = dump.records.length ∧
      split.count .two = (dump.records.filter isShared).length := by
  obtain ⟨hone, htwo⟩ := recordsOf_of_byCategory h
  rw [count_eq_length, count_eq_length, hone, htwo]
  exact ⟨rfl, rfl⟩

/-- The first shard holds the key of each record. -/
theorem keys_of_byCategory (h : Rule.byCategory.split dump source = .ok split) :
    (∀ key ∈ split.keys.of .two, key ∈ split.keys.of .one) ∧
      ∀ line ∈ dump.records, ∃ aid, (Record.ofLine line).fields[articleAid.index]? = some aid ∧
        split.keys.holder? aid = some .one := by
  constructor
  · intro key hkey
    obtain ⟨r, hr, -, hkey⟩ := Routing.mem_keysOf.1 hkey
    exact Routing.mem_keysOf.2 ⟨r, hr, (reaches_of_byCategory h hr).1, hkey⟩
  · intro line hline
    rw [← map_line_routed h] at hline
    obtain ⟨r, hr, rfl⟩ := List.mem_map.1 hline
    refine ⟨r.key, field_key_eq h hr, KeySets.holder?_eq_one_iff.2 (Routing.mem_keysOf.2 ?_)⟩
    exact ⟨r, hr, (reaches_of_byCategory h hr).1, rfl⟩

end Split

/-! ## The stage -/

namespace DumpSet

/-- What `after` holds of the dump of the articles on `disk`. -/
structure CopiesArticles (dumps : DumpSet) (disk after : Disk) (result : TableResult)
    (keys : KeySets) (dump : Dump) : Prop where
  source : disk.HoldsDump (dumps.source .article) dump
  copy : disk.Keeps (dumps.output .article .one) → ∃ content,
    disk.read (dumps.source .article) = .ok content ∧
      after.read (dumps.output .article .one) = .ok content
  excerpt : disk.Keeps (dumps.output .article .two) →
    after.HoldsLines (dumps.output .article .two) (dump.excerpt isShared).lines
  sublist : (dump.excerpt isShared).lines.Sublist dump.lines
  records : result.records = dump.records.length
  count_one : result.count .one = result.records
  count_two : result.count .two = (dump.records.filter isShared).length
  subset : ∀ aid ∈ keys.of .two, aid ∈ keys.of .one
  held : ∀ line ∈ dump.records, ∃ aid,
    (Record.ofLine line).fields[2]? = some aid ∧ keys.holder? aid = some .one

/-- **Articles are copied**, byte for byte to the first shard, and the technology records in
    the same frame to the second one. -/
theorem splitArticles_copies (dumps : DumpSet) (disk after : Disk) (events : List Event)
    (result : TableResult) (keys : KeySets)
    (h : dumps.splitArticles.run disk = { disk := after, events, result := .ok (result, keys) }) :
    ∃ dump, dumps.CopiesArticles disk after result keys dump := by
  obtain ⟨dump, split, hsplit, rfl, rfl⟩ := splitTable_hasSplit h
  obtain ⟨hone, htwo⟩ := Split.lines_of_byCategory hsplit.accepted
  obtain ⟨hcount, hcount'⟩ := Split.count_of_byCategory hsplit.accepted
  obtain ⟨hsubset, hheld⟩ := Split.keys_of_byCategory hsplit.accepted
  have hsize := Split.size_eq hsplit.accepted
  refine ⟨dump, ?_⟩
  exact
    { source := hsplit.source
      copy := fun hkeeps => by
        have hwritten := hsplit.output .one hkeeps
        rw [hone] at hwritten
        exact ⟨_, (Disk.holdsLines_iff.1 hsplit.source.lines).2, (Disk.holdsLines_iff.1 hwritten).2⟩
      excerpt := fun hkeeps => htwo ▸ hsplit.output .two hkeeps
      sublist := dump.excerpt_lines_sublist isShared
      records := hsize
      count_one := hcount.trans hsize.symm
      count_two := hcount'
      subset := hsubset
      held := hheld }

/-- One article with two rows of different categories, on lines of which the last has no
    line feed. -/
theorem splitArticles_copies_twice :
    let disk := Disk.fresh.arrange (.ofString "article.sql")
      (some "INSERT INTO a\n, , a, , \"science\", ,\n, , a, , \"technology\", ;".toUTF8)
    let dumps : DumpSet := { dir := .ofString ".", config := .default }
    (∀ shard, disk.Keeps (dumps.output .article shard)) ∧
      ∃ after events result keys dump,
        dumps.splitArticles.run disk = { disk := after, events, result := .ok (result, keys) } ∧
        dumps.CopiesArticles disk after result keys dump := by
  intro disk dumps
  refine ⟨fun shard => by cases shard <;> decide +kernel, ?_⟩
  have hok : (dumps.splitArticles.run disk).result.isOk := by decide +kernel
  obtain ⟨after, events, ⟨result, keys⟩, hrun⟩ := Job.exists_run_eq_ok hok
  obtain ⟨dump, hcopies⟩ := splitArticles_copies dumps disk after events result keys hrun
  exact ⟨after, events, result, keys, dump, hrun, hcopies⟩

end DumpSet

end DumpSplit
