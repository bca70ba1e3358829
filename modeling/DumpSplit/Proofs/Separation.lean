/-
  Directories in which the files of the shards lie apart: what a stage leaves to the
  stages after it.
-/
import DumpSplit.Proofs.Stages

namespace DumpSplit.DumpSet

variable {dumps : DumpSet} {table table' : Table} {disk after : Disk}
  {dump : Dump} {shard : Shard} {lines : List String}

/-- No file of a shard lies where a dump does. -/
def SparesSources (dumps : DumpSet) (disk : Disk) : Prop :=
  ∀ table place, place ∈ dumps.outputPlaces table disk →
    ∀ table', disk.resolve (dumps.source table') ≠ .ok place

/-- No file of a shard lies where a dump does, or a file of a shard of another table. -/
structure Separate (dumps : DumpSet) (disk : Disk) : Prop where
  spares : dumps.SparesSources disk
  apart : ∀ table table' place, place ∈ dumps.outputPlaces table disk →
    place ∈ dumps.outputPlaces table' disk → table = table'

/-! ## The default file names -/

theorem destination_output_default (disk : Disk) (dir : Path) (table : Table) (shard : Shard) :
    disk.destination ((DumpSet.mk dir .default).output table shard) =
      disk.destination dir ++ [(Path.ofString (shard.fileName table.defaultFileName)).bytes] := by
  have hname : (Path.ofString (shard.fileName table.defaultFileName)).IsName := by
    cases table <;> cases shard <;> decide +kernel
  exact hname.destination_join disk dir

theorem destination_source_default (disk : Disk) (dir : Path) (table : Table) :
    disk.destination ((DumpSet.mk dir .default).source table) =
      disk.destination dir ++ [(Path.ofString table.defaultFileName).bytes] := by
  have hname : (Path.ofString table.defaultFileName).IsName := by
    cases table <;> decide +kernel
  exact hname.destination_join disk dir

/-- The nine default names are told apart in any directory. -/
theorem separate_default (dir : Path) (disk : Disk) : (DumpSet.mk dir .default).Separate disk where
  spares := by
    rintro table place ⟨shard, hplace⟩ table' hplace'
    have heq := (Disk.eq_destination_of_resolve hplace).symm.trans
      (Disk.eq_destination_of_resolve hplace')
    rw [destination_output_default, destination_source_default, List.append_cancel_left_eq] at heq
    revert heq
    cases table <;> cases shard <;> cases table' <;> decide +kernel
  apart := by
    rintro table table' place ⟨shard, hplace⟩ ⟨shard', hplace'⟩
    have heq := (Disk.eq_destination_of_resolve hplace).symm.trans
      (Disk.eq_destination_of_resolve hplace')
    rw [destination_output_default, destination_output_default, List.append_cancel_left_eq] at heq
    revert heq
    cases table <;> cases shard <;> cases table' <;> cases shard' <;> decide +kernel

/-! ## Stages -/

theorem outputPlaces_eq {places : Set Place} (h : disk.SameOutside places after) :
    dumps.outputPlaces table after = dumps.outputPlaces table disk := by
  simp only [outputPlaces, h.resolve_eq_ok_iff]

theorem SparesSources.sameOutside {places : Set Place} (hspares : dumps.SparesSources disk)
    (h : disk.SameOutside places after) : dumps.SparesSources after := by
  simpa only [SparesSources, outputPlaces_eq h, ne_eq, h.resolve_eq_ok_iff] using hspares

theorem Separate.sameOutside {places : Set Place} (hsep : dumps.Separate disk)
    (h : disk.SameOutside places after) : dumps.Separate after where
  spares := hsep.spares.sameOutside h
  apart := by simpa only [outputPlaces_eq h] using hsep.apart

/-- A stage leaves the dumps alone. -/
theorem SparesSources.holdsDump_source_iff (hspares : dumps.SparesSources disk)
    (h : disk.SameOutside (dumps.outputPlaces table disk) after) :
    after.HoldsDump (dumps.source table') dump ↔ disk.HoldsDump (dumps.source table') dump :=
  h.holdsDump_iff fun place hplace hmem => hspares table place hmem table' hplace

namespace Separate

variable (hsep : dumps.Separate disk) (h : disk.SameOutside (dumps.outputPlaces table disk) after)
  (hne : table' ≠ table)
include hsep h hne

/-- A stage leaves the files of the other tables alone. -/
theorem holdsLines_output_iff :
    after.HoldsLines (dumps.output table' shard) lines ↔
      disk.HoldsLines (dumps.output table' shard) lines :=
  h.holdsLines_iff fun place hplace hmem =>
    hne (hsep.apart table' table place ⟨shard, hplace⟩ hmem)

theorem keeps_output_iff :
    after.Keeps (dumps.output table' shard) ↔ disk.Keeps (dumps.output table' shard) :=
  h.keeps_iff fun place hplace hmem =>
    hne (hsep.apart table' table place ⟨shard, hplace⟩ hmem)

end Separate

/-! ## Runs -/

variable {told : Table → Told} {users : KeySets} {order : List Table}

theorem Runs.sameOutside (h : dumps.Runs told users disk order after) :
    disk.SameOutside {place | ∃ table ∈ order, place ∈ dumps.outputPlaces table disk} after := by
  induction h with
  | nil => exact .refl _ _
  | @cons _ _ _ _ table order hrun _ ih =>
    rw [stage_eq] at hrun
    have hone := (sameButFiles_of_run hrun).sameOutside
    simp only [outputPlaces_eq hone] at ih
    refine Disk.SameOutside.trans (hone.mono ?_) (ih.mono ?_)
    · exact fun _ hmem => ⟨table, List.mem_cons_self, hmem⟩
    · rintro _ ⟨table', hmem, hplace⟩
      exact ⟨table', List.mem_cons_of_mem _ hmem, hplace⟩

theorem Runs.holdsLines_output_iff (h : dumps.Runs told users disk order after)
    (hsep : dumps.Separate disk) (hnot : table ∉ order) :
    after.HoldsLines (dumps.output table shard) lines ↔
      disk.HoldsLines (dumps.output table shard) lines := by
  refine h.sameOutside.holdsLines_iff ?_
  rintro place hplace ⟨table', hmem, hplace'⟩
  exact hnot (hsep.apart table table' place ⟨shard, hplace⟩ hplace' ▸ hmem)

/-! ## What is left of a stage -/

/-- What the stage of a table on `disk` has left on `after`, when others have come after it: the
    files of its shards hold what its dump gives them, and the dump is as it was. -/
structure Leaves (dumps : DumpSet) (table : Table) (rule : Rule) (disk after : Disk)
    (dump : Dump) (split : Split) : Prop where
  source : disk.HoldsDump (dumps.source table) dump
  kept : after.HoldsDump (dumps.source table) dump
  accepted : rule.split dump (dumps.source table) = .ok split
  output : ∀ shard, disk.Keeps (dumps.output table shard) →
    after.HoldsLines (dumps.output table shard) (split.lines shard)

theorem HasSplit.leaves {rule : Rule} {split : Split}
    (h : dumps.HasSplit table rule disk after dump split) (hspares : dumps.SparesSources disk) :
    dumps.Leaves table rule disk after dump split :=
  ⟨h.source, (hspares.holdsDump_source_iff h.outside).2 h.source, h.accepted, h.output⟩

namespace Leaves

variable {rule : Rule} {split : Split} {between : Disk}

/-- The stage of another table that comes after does not change it. -/
theorem of_stage_after (h : dumps.Leaves table rule disk between dump split)
    (hsame : between.SameOutside (dumps.outputPlaces table' between) after)
    (hsep : dumps.Separate between) (hne : table ≠ table') :
    dumps.Leaves table rule disk after dump split where
  source := h.source
  kept := (hsep.spares.holdsDump_source_iff hsame).2 h.kept
  accepted := h.accepted
  output shard hkeeps := (hsep.holdsLines_output_iff hsame hne).2 (h.output shard hkeeps)

/-- Nor does that of another table that comes before. -/
theorem of_stage_before (h : dumps.Leaves table rule between after dump split)
    (hsame : disk.SameOutside (dumps.outputPlaces table' disk) between)
    (hsep : dumps.Separate disk) (hne : table ≠ table') :
    dumps.Leaves table rule disk after dump split where
  source := (hsep.spares.holdsDump_source_iff hsame).1 h.source
  kept := h.kept
  accepted := h.accepted
  output shard hkeeps := h.output shard ((hsep.keeps_output_iff hsame hne).2 hkeeps)

theorem of_runs_after (h : dumps.Leaves table rule disk between dump split)
    (hruns : dumps.Runs told users between order after) (hsep : dumps.Separate between)
    (hnot : table ∉ order) : dumps.Leaves table rule disk after dump split := by
  induction hruns with
  | nil => exact h
  | cons hrun _ ih =>
    rw [stage_eq] at hrun
    have hsame := (sameButFiles_of_run hrun).sameOutside
    obtain ⟨hne, hnot⟩ := not_or.1 (mt List.mem_cons.2 hnot)
    exact ih (h.of_stage_after hsame hsep hne) (hsep.sameOutside hsame) hnot

end Leaves

/-- Each stage of a run leaves what it has made of its dump, and tells of that. -/
theorem Runs.exists_leaves (h : dumps.Runs told users disk order after)
    (hsep : dumps.Separate disk) (hnodup : order.Nodup) : ∀ table ∈ order, ∃ users dump split,
      dumps.Leaves table (table.rule users) disk after dump split ∧
        told table = dumps.tells table (table.rule users) dump split := by
  induction h with
  | nil => simp
  | @cons users disk between after head order hrun hrest ih =>
    rw [stage_eq] at hrun
    have hsame := (sameButFiles_of_run hrun).sameOutside
    have hsep' := hsep.sameOutside hsame
    obtain ⟨hhead, hnodup⟩ := List.nodup_cons.1 hnodup
    intro table hmem
    rcases List.mem_cons.1 hmem with rfl | hmem
    · obtain ⟨dump, split, hsplit, -⟩ := splitTable_hasSplit hrun
      exact ⟨users, dump, split, (hsplit.leaves hsep.spares).of_runs_after hrest hsep' hhead,
        eq_tells_of_run hrun hsplit⟩
    · obtain ⟨users', dump, split, hleaves, htold⟩ := ih hsep' hnodup table hmem
      exact ⟨users', dump, split,
        hleaves.of_stage_before hsame hsep fun heq => hhead (heq ▸ hmem), htold⟩

end DumpSplit.DumpSet
