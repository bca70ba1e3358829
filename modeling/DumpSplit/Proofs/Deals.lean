/-
  Deals: lines, counts and keys that grow record by record are those that a split reads off its
  routed records, and the warnings come in the same order.
-/
import DumpSplit.Deal
import DumpSplit.Proofs.Warnings

namespace DumpSplit

namespace Deal

/-- What the shards have got when records have been dealt out behind a preamble. -/
def ofRouted (preamble : List String) (routed : List Routed) : Deal where
  lines shard := preamble ++ (routed.filter (·.route.reaches shard)).map (·.line)
  count shard := routed.countP (·.route.reaches shard)
  keys := Routing.keysOf routed
  records := routed.length

/-- What the shards have got in the end. -/
def ofSplit (split : Split) : Deal where
  lines := split.lines
  count := split.count
  keys := split.keys
  records := split.size

theorem frame_ofRouted (preamble : List String) (routed : List Routed) (suffix : List String) :
    (ofRouted preamble routed).frame suffix = ofSplit { preamble, routed, suffix } :=
  rfl

section
variable (deal : Deal) (r : Routed)

theorem lines_add (shard : Shard) : (deal.add r).lines shard =
    if r.route.reaches shard then deal.lines shard ++ [r.line] else deal.lines shard := by
  obtain ⟨line, number, key, (_ | _) | _⟩ := r <;> cases shard <;> rfl

theorem count_add (shard : Shard) : (deal.add r).count shard =
    if r.route.reaches shard then deal.count shard + 1 else deal.count shard := by
  obtain ⟨line, number, key, (_ | _) | _⟩ := r <;> cases shard <;> rfl

theorem keys_add : (deal.add r).keys = deal.keys.add r.route r.key := by
  obtain ⟨line, number, key, (_ | _) | _⟩ := r <;> rfl

theorem records_add : (deal.add r).records = deal.records + 1 := by
  obtain ⟨line, number, key, (_ | _) | _⟩ := r <;> rfl

end

/-- One more record goes to the shards of its route and to no other. -/
theorem add_ofRouted (preamble : List String) (before : List Routed) (r : Routed) :
    (ofRouted preamble before).add r = ofRouted preamble (before ++ [r]) := by
  refine Deal.ext (funext fun shard => ?_) (funext fun shard => ?_) ?_ ?_
  · rw [lines_add]
    by_cases hreaches : r.route.reaches shard <;> simp [ofRouted, hreaches]
  · rw [count_add]
    by_cases hreaches : r.route.reaches shard <;> simp [ofRouted, hreaches]
  · rw [keys_add, ofRouted, ofRouted, Routing.keysOf, Routing.keysOf, List.foldl_concat]
  · rw [records_add, ofRouted, ofRouted, List.length_append, List.length_singleton]

end Deal

namespace Rule

/-- A record is told of by the keys of the records that were dealt out before it. -/
theorem run_dealRecord (rule : Rule) (source : Path) (deal : Deal) (record : String × Nat)
    (disk : Disk) : (rule.dealRecord source deal record).run disk =
      match rule.answer { source, line := record.2 } record.1 with
      | .error failure => { disk, events := [], result := .error failure }
      | .ok r =>
        { disk, events := (Routing.warning? source deal.keys r).toList
          result := .ok (deal.add r) } := by
  rw [dealRecord, Job.run_bind, Job.run_ofExcept]
  cases rule.answer { source, line := record.2 } record.1 with
  | error failure => rfl
  | ok r =>
    simp only [Job.Outcome.andThen, Job.run_bind, Job.run_tellAll, List.nil_append]
    exact congrArg (Job.Outcome.mk disk · _) (List.append_nil _)

/-- Dealing goes on behind the records before as their routing goes on: it ends with what is
    refused, or with what the shards have got of all of them. -/
theorem run_foldlM_dealRecord (rule : Rule) (source : Path) (disk : Disk) (preamble : List String)
    (before : List Routed) (number : Nat) (lines : List String) :
    ∃ told, Routing.warnings source (rule.routeFrom source before.reverse number lines) =
        Routing.warnings source { routed := before, refusal? := none } ++ told ∧
      ((lines.zipIdx number).foldlM (rule.dealRecord source)
          (Deal.ofRouted preamble before)).run disk =
        { disk, events := told, result :=
            match (rule.routeFrom source before.reverse number lines).refusal? with
            | some failure => .error failure
            | none => .ok (.ofRouted preamble
                (rule.routeFrom source before.reverse number lines).routed) } := by
  induction lines generalizing before number with
  | nil =>
    refine ⟨[], ?_, ?_⟩
    · rw [routeFrom, List.reverse_reverse, List.append_nil]
    · rw [routeFrom, List.reverse_reverse]; rfl
  | cons line rest ih =>
    rw [routeFrom, List.zipIdx_cons, List.foldlM_cons, Job.run_bind, run_dealRecord]
    cases rule.answer { source, line := number } line with
    | error failure =>
      refine ⟨[], ?_, rfl⟩
      rw [List.reverse_reverse, List.append_nil, Routing.warnings, Routing.warnings]
    | ok r =>
      obtain ⟨told, hwarnings, hrun⟩ := ih (before ++ [r]) (number + 1)
      rw [List.reverse_concat] at hwarnings hrun
      refine ⟨(Routing.warning? source (Routing.keysOf before) r).toList ++ told, ?_, ?_⟩
      · rw [hwarnings, Routing.warnings_concat, List.append_assoc]
      · simp only [Job.Outcome.andThen, Deal.add_ofRouted, hrun]
        rfl

/-- **Dealing out a dump** record by record does what `apply` does: it comes to what the split
    gives the shards, or to the same failure, and reports the same warnings. -/
theorem run_deal (rule : Rule) (dump : Dump) (source : Path) (disk : Disk) :
    (rule.deal dump source).run disk =
      (rule.apply dump source >>= fun split => pure (Deal.ofSplit split)).run disk := by
  have happly : (rule.apply dump source >>= fun split => pure (Deal.ofSplit split)).run disk =
      { disk, events := (rule.routing dump source).warnings source
        result := (rule.split dump source).map Deal.ofSplit } := by
    rw [Job.run_bind, run_apply]
    cases rule.split dump source with
    | error failure => rfl
    | ok split => exact congrArg (Job.Outcome.mk disk · _) (List.append_nil _)
  obtain ⟨told, hwarnings, hrun⟩ := rule.run_foldlM_dealRecord source disk dump.preamble []
    (dump.lineNumber 0) dump.records
  have hstart : Deal.frame {} dump.preamble = Deal.ofRouted dump.preamble [] := by
    refine Deal.ext (funext fun shard => ?_) rfl rfl rfl
    exact (List.append_nil _).symm
  have hrouting : rule.routeFrom source ([] : List Routed).reverse (dump.lineNumber 0)
      dump.records = rule.routing dump source := rfl
  rw [hrouting] at hwarnings hrun
  rw [happly, deal, hstart, Job.run_bind, hrun, hwarnings, Rule.split]
  cases (rule.routing dump source).refusal? with
  | some failure => rfl
  | none =>
    simp only [Job.Outcome.andThen, Deal.frame_ofRouted]
    exact congrArg (Job.Outcome.mk disk · _) (List.append_nil told)

end Rule

end DumpSplit
