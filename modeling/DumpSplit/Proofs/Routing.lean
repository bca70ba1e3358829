/-
  The records of a dump that is split: each of them, in order, with the answer of the
  rule at its own line of the file.
-/
import DumpSplit.Split
import Mathlib.Data.List.Basic
import Mathlib.Data.List.TakeWhile

namespace DumpSplit

namespace Route

@[simp] theorem reaches_only (s shard : Shard) : (only s).reaches shard = (s == shard) := rfl

@[simp] theorem reaches_both (shard : Shard) : both.reaches shard = true := rfl

theorem exists_reaches (route : Route) : ∃ shard, route.reaches shard := by
  cases route with
  | only shard => exact ⟨shard, by simp⟩
  | both => exact ⟨.one, rfl⟩

end Route

namespace Dump

/-- The records of a dump, each with the line of the file on which it stands. -/
def numbered (dump : Dump) : List (String × Nat) :=
  dump.records.zipIdx.map fun (line, index) => (line, dump.lineNumber index)

theorem numbered_eq (dump : Dump) : dump.numbered = dump.records.zipIdx (dump.lineNumber 0) := by
  rw [numbered, List.zipIdx_eq_map_add (i := dump.lineNumber 0)]
  exact List.map_congr_left fun r _ => by simp only [lineNumber, Prod.mk.injEq, true_and]; omega

theorem map_fst_numbered (dump : Dump) : dump.numbered.map Prod.fst = dump.records := by
  rw [numbered_eq, List.zipIdx_map_fst]

theorem getElem?_numbered (dump : Dump) (index : Nat) :
    dump.numbered[index]? = dump.records[index]?.map (·, dump.lineNumber index) := by
  rw [numbered, List.getElem?_map, List.getElem?_zipIdx, Option.map_map, Nat.zero_add]
  rfl

theorem length_numbered (dump : Dump) : dump.numbered.length = dump.records.length := by
  rw [← dump.map_fst_numbered, List.length_map]

end Dump

/-- Where a routed record stands. -/
def Routed.place (r : Routed) : String × Nat := (r.line, r.number)

namespace Rule

variable {rule : Rule} {dump : Dump} {source : Path}

/-- An answer is the route of the record with its key, and both have to be there. -/
theorem answer_eq_ok_iff {position : Position} {line : String} {r : Routed} :
    rule.answer position line = .ok r ↔
      r.line = line ∧ r.number = position.line ∧
        rule.route (.ofLine line) position = .ok r.route ∧
        (Record.ofLine line).fields[rule.keyIndex]? = some r.key := by
  obtain ⟨rline, rnumber, rkey, rroute⟩ := r
  simp only [answer, Record.field, bind, Except.bind, pure, Except.pure]
  cases rule.route (.ofLine line) position with
  | error failure => simp
  | ok route =>
    cases (Record.ofLine line).fields[rule.keyIndex]? with
    | none => simp
    | some key => simp [eq_comm, and_comm, and_left_comm]

/-- The answer of a rule to a record at a line of `source`, if it accepts it. -/
def answerAt? (rule : Rule) (source : Path) (record : String × Nat) : Option Routed :=
  (rule.answer { source, line := record.2 } record.1).toOption

theorem answerAt?_eq_some_iff {record : String × Nat} {r : Routed} :
    rule.answerAt? source record = some r ↔
      rule.answer { source, line := record.2 } record.1 = .ok r := by
  unfold answerAt?
  cases rule.answer { source, line := record.2 } record.1 <;> simp [Except.toOption]

/-- Why a rule refuses a record at a line of `source`, if it does: it fails for the record, or
    else the record has no key. -/
def refusalAt? (rule : Rule) (source : Path) : String × Nat → Option Failure
  | (line, number) =>
    let fields := (Record.ofLine line).fields
    match rule.route (.ofLine line) { source, line := number } with
    | .error failure => some failure
    | .ok _ =>
      if rule.keyIndex < fields.length then none
      else some (.malformed source (.missingField number fields.length ⟨rule.keyIndex, "key"⟩))

theorem refusalAt?_eq_some_iff {line : String} {number : Nat} {failure : Failure} :
    rule.refusalAt? source (line, number) = some failure ↔
      rule.answer { source, line := number } line = .error failure := by
  simp only [refusalAt?, answer, Record.field, bind, Except.bind, pure, Except.pure]
  cases rule.route (.ofLine line) { source, line := number } with
  | error failure' => simp
  | ok route =>
    by_cases hkey : rule.keyIndex < (Record.ofLine line).fields.length
    · simp [hkey]
    · rw [List.getElem?_eq_none (by omega)]
      simp [hkey]

theorem refusalAt?_eq_none {position : Position} {line : String} {r : Routed}
    (h : rule.answer position line = .ok r) :
    rule.refusalAt? position.source (line, position.line) = none := by
  rw [Option.eq_none_iff_forall_ne_some]
  intro failure hfailure
  cases h.symm.trans (refusalAt?_eq_some_iff.1 hfailure)

/-- A routing ends with the first record that is refused. -/
theorem refusal?_routeFrom (rule : Rule) (source : Path) (done : List Routed) (number : Nat)
    (lines : List String) : (rule.routeFrom source done number lines).refusal? =
      (lines.zipIdx number).findSome? (rule.refusalAt? source) := by
  induction lines generalizing done number with
  | nil => rfl
  | cons line rest ih =>
    rw [routeFrom, List.zipIdx_cons, List.findSome?_cons]
    cases hanswer : rule.answer { source, line := number } line with
    | ok r => rw [refusalAt?_eq_none hanswer]; exact ih _ _
    | error failure => rw [refusalAt?_eq_some_iff.2 hanswer]

/-- A routing has gone through the records before the first one that is refused. -/
theorem routed_routeFrom (rule : Rule) (source : Path) (done : List Routed) (number : Nat)
    (lines : List String) :
    ∃ new, (rule.routeFrom source done number lines).routed = done.reverse ++ new ∧
      new.map Routed.place =
        (lines.zipIdx number).takeWhile (rule.refusalAt? source · |>.isNone) ∧
      ∀ r ∈ new, rule.answer { source, line := r.number } r.line = .ok r := by
  induction lines generalizing done number with
  | nil => exact ⟨[], by simp [routeFrom], rfl, by simp⟩
  | cons line rest ih =>
    rw [routeFrom, List.zipIdx_cons]
    cases hanswer : rule.answer { source, line := number } line with
    | ok r =>
      obtain ⟨hline, hnumber, -⟩ := answer_eq_ok_iff.1 hanswer
      obtain ⟨new, hnew, hplaces, hanswers⟩ := ih (r :: done) (number + 1)
      refine ⟨r :: new, ?_, ?_, ?_⟩
      · rw [hnew, List.reverse_cons, List.append_assoc, List.singleton_append]
      · rw [List.takeWhile_cons_of_pos (by rw [refusalAt?_eq_none hanswer]; rfl), List.map_cons,
          hplaces, Routed.place, hline, hnumber]
      · intro r' hr'
        rcases List.mem_cons.1 hr' with rfl | hr'
        · rw [hline, hnumber]; exact hanswer
        · exact hanswers r' hr'
    | error failure =>
      refine ⟨[], by simp, ?_, by simp⟩
      rw [List.takeWhile_cons_of_neg (by simp [refusalAt?_eq_some_iff.2 hanswer])]
      rfl

theorem refusal?_routing (rule : Rule) (dump : Dump) (source : Path) :
    (rule.routing dump source).refusal? = dump.numbered.findSome? (rule.refusalAt? source) := by
  rw [routing, refusal?_routeFrom, dump.numbered_eq]

theorem routed_routing (rule : Rule) (dump : Dump) (source : Path) :
    (rule.routing dump source).routed.map Routed.place =
        dump.numbered.takeWhile (rule.refusalAt? source · |>.isNone) ∧
      ∀ r ∈ (rule.routing dump source).routed,
        rule.answer { source, line := r.number } r.line = .ok r := by
  obtain ⟨new, hnew, hplaces, hanswers⟩ :=
    rule.routed_routeFrom source [] (dump.lineNumber 0) dump.records
  rw [routing, hnew, List.reverse_nil, List.nil_append, dump.numbered_eq]
  exact ⟨hplaces, hanswers⟩

/-- The routed records stand where the first records of the dump do. -/
theorem numbered_of_routed {index : Nat} {r : Routed}
    (hr : (rule.routing dump source).routed[index]? = some r) :
    dump.numbered[index]? = some r.place ∧ r.number = dump.lineNumber index := by
  have hplace : dump.numbered[index]? = some r.place := by
    have hlt : index < ((rule.routing dump source).routed.map Routed.place).length := by
      rw [List.length_map]; exact (List.getElem?_eq_some_iff.1 hr).1
    rw [← List.takeWhile_append_dropWhile (l := dump.numbered),
      ← (rule.routed_routing dump source).1, List.getElem?_append_left hlt, List.getElem?_map, hr,
      Option.map_some]
  refine ⟨hplace, ?_⟩
  rw [dump.getElem?_numbered, Option.map_eq_some_iff] at hplace
  obtain ⟨line, -, heq⟩ := hplace
  exact (congrArg Prod.snd heq).symm

theorem split_eq_error_iff {failure : Failure} : rule.split dump source = .error failure ↔
    dump.numbered.findSome? (rule.refusalAt? source) = some failure := by
  rw [← refusal?_routing, Rule.split]
  cases (rule.routing dump source).refusal? <;> simp

/-- Splitting fails with what is told of the first record that is refused. -/
theorem split_eq_error_iff_first {failure : Failure} : rule.split dump source = .error failure ↔
    ∃ before line after, dump.records = before ++ line :: after ∧
      (∀ record ∈ before.zipIdx (dump.lineNumber 0), rule.refusalAt? source record = none) ∧
      rule.refusalAt? source (line, dump.lineNumber before.length) = some failure := by
  have hnumber : ∀ n, dump.lineNumber 0 + n = dump.lineNumber n := fun n => by
    simp only [Dump.lineNumber]; omega
  rw [split_eq_error_iff, List.findSome?_eq_some_iff, dump.numbered_eq]
  constructor
  · rintro ⟨_, _, _, hnumbered, hfailure, hbefore⟩
    obtain ⟨before, _, hrecords, rfl, hcons⟩ := List.zipIdx_eq_append_iff.1 hnumbered
    obtain ⟨line, after, rfl, rfl, -⟩ := List.zipIdx_eq_cons_iff.1 hcons.symm
    exact ⟨before, line, after, hrecords, hbefore, by rwa [hnumber] at hfailure⟩
  · rintro ⟨before, line, after, hrecords, hbefore, hfailure⟩
    refine ⟨_, (line, dump.lineNumber before.length),
      after.zipIdx (dump.lineNumber before.length + 1), ?_, hfailure, hbefore⟩
    rw [hrecords, List.zipIdx_append, List.zipIdx_cons, hnumber]

theorem exists_split_eq_ok_iff : (∃ split, rule.split dump source = .ok split) ↔
    ∀ record ∈ dump.numbered, rule.refusalAt? source record = none := by
  rw [← List.findSome?_eq_none_iff, ← refusal?_routing, Rule.split]
  cases (rule.routing dump source).refusal? <;> simp

theorem exists_split_eq_ok (h : (rule.split dump source).isOk) :
    ∃ split, rule.split dump source = .ok split := by
  cases hsplit : rule.split dump source with
  | error failure => rw [hsplit] at h; cases h
  | ok split => exact ⟨split, rfl⟩

/-- A dump is split if its routing refuses nothing. -/
theorem split_eq_ok_iff {split : Split} : rule.split dump source = .ok split ↔
    rule.routing dump source = { routed := split.routed, refusal? := none } ∧
      split.preamble = dump.preamble ∧ split.suffix = dump.suffix := by
  obtain ⟨preamble, routed, suffix⟩ := split
  rw [Rule.split]
  rcases rule.routing dump source with ⟨routed', _ | failure⟩
  · simp [eq_comm, and_left_comm]
  · simp

/-- A split holds the frame of the dump, and every record with the rule's answer to it. -/
theorem split_eq_ok {split : Split} (h : rule.split dump source = .ok split) :
    split.preamble = dump.preamble ∧ split.suffix = dump.suffix ∧
      split.routed.map Routed.place = dump.numbered ∧
      ∀ r ∈ split.routed, rule.answer { source, line := r.number } r.line = .ok r := by
  obtain ⟨hrouting, hpre, hsuf⟩ := split_eq_ok_iff.1 h
  obtain ⟨hplaces, hanswers⟩ := rule.routed_routing dump source
  have hrefusal := rule.refusal?_routing dump source
  rw [hrouting, eq_comm, List.findSome?_eq_none_iff] at hrefusal
  rw [hrouting] at hplaces hanswers
  rw [List.takeWhile_eq_self_iff.2 fun record hmem => by rw [hrefusal record hmem]; rfl] at hplaces
  exact ⟨hpre, hsuf, hplaces, hanswers⟩

end Rule

namespace Split

variable {rule : Rule} {dump : Dump} {source : Path} {split : Split}
  (h : rule.split dump source = .ok split) {r : Routed} (hr : r ∈ split.routed)
include h hr

/-- The route of a record that was split is the rule's. -/
theorem route_eq : rule.route (.ofLine r.line) { source, line := r.number } = .ok r.route := by
  obtain ⟨-, -, -, hanswers⟩ := Rule.split_eq_ok h
  exact (Rule.answer_eq_ok_iff.1 (hanswers r hr)).2.2.1

theorem field_key_eq : (Record.ofLine r.line).fields[rule.keyIndex]? = some r.key := by
  obtain ⟨-, -, -, hanswers⟩ := Rule.split_eq_ok h
  exact (Rule.answer_eq_ok_iff.1 (hanswers r hr)).2.2.2

end Split

/-- The routed records are the answers to the records of the dump. -/
theorem Split.routed_eq_filterMap {rule : Rule} {dump : Dump} {source : Path} {split : Split}
    (h : rule.split dump source = .ok split) :
    split.routed = dump.numbered.filterMap (rule.answerAt? source) := by
  obtain ⟨-, -, hplaces, hanswers⟩ := Rule.split_eq_ok h
  have hplace : ∀ r ∈ split.routed, some r = (rule.answerAt? source ∘ Routed.place) r :=
    fun r hr => by rw [Function.comp_apply, eq_comm, Rule.answerAt?_eq_some_iff]; exact hanswers r hr
  rw [← hplaces, List.filterMap_map, ← List.filterMap_congr hplace, List.filterMap_some]

end DumpSplit
