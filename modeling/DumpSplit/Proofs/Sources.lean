/-
  Which dumps outlive a run: a dump is as it was unless a file of another table lies where
  it does, whether the run succeeds or fails.  The files of its own table never lie there.
-/
import DumpSplit.Disk.Arrange
import DumpSplit.Proofs.Stages

namespace DumpSplit.DumpSet

variable {dumps : DumpSet} {disk : Disk}

/-- A run writes to the files of the shards and nowhere else. -/
theorem splitAll_writesOnly (dumps : DumpSet) :
    dumps.splitAll.WritesOnly {path | ∃ table shard, path = dumps.output table shard} := by
  have hstage : ∀ table rule, (dumps.splitTable table rule).WritesOnly
      {path | ∃ table shard, path = dumps.output table shard} := fun table rule =>
    (dumps.splitTable_writesOnly table rule).mono fun _ ⟨shard, h⟩ => ⟨table, shard, h⟩
  refine .bind (hstage _ _) fun _ => .bind (hstage _ _) fun _ => .bind (hstage _ _) fun _ => ?_
  trivial

theorem splitAll_sameButFiles (dumps : DumpSet) (disk : Disk) :
    disk.SameButFiles {place | ∃ table, place ∈ dumps.outputPlaces table disk}
      (dumps.splitAll.run disk).disk := by
  refine (dumps.splitAll_writesOnly.sameButFiles disk).mono ?_
  rintro place ⟨_, ⟨table, shard, rfl⟩, hplace⟩
  exact ⟨table, shard, hplace⟩

/-- **A run leaves a dump alone** that lies apart from the files of the other tables. -/
theorem splitAll_read_source_iff (dumps : DumpSet) (disk : Disk) (table : Table)
    (hothers : ∀ table' ≠ table, ∀ place ∈ dumps.outputPlaces table' disk,
      disk.resolve (dumps.source table) ≠ .ok place) (content : ByteArray) :
    (dumps.splitAll.run disk).disk.read (dumps.source table) = .ok content ↔
      disk.read (dumps.source table) = .ok content := by
  refine (dumps.splitAll_sameButFiles disk).sameOutside.read_eq_ok_iff ?_
  rintro place hplace ⟨table', houtput⟩
  by_cases heq : table' = table
  · subst heq
    obtain ⟨shard, hshard⟩ := houtput
    exact Shard.resolve_path_ne hshard hplace
  · exact hothers table' heq place houtput hplace

/-- The dump of the users stays, though that of the read events is where their file for the
    first shard comes. -/
theorem splitAll_read_source_iff_users :
    let user := "INSERT INTO u\n, , u, , , , , , , , \"Beijing\", ;\n"
    let disk := ((Disk.fresh.arrange (.ofString "user.sql") (some user.toUTF8)).arrange
      (.ofString "article.sql") (some "INSERT INTO a\n, , a, , , ;".toUTF8)).arrange
      (.ofString "user_shard1.sql") (some "INSERT INTO r\n, , u, , ;".toUTF8)
    let config := Config.overlay [(.userRead, "user_shard1.sql")]
    let dumps : DumpSet := { dir := .ofString ".", config }
    (∀ table' ≠ .user, ∀ place ∈ dumps.outputPlaces table' disk,
      disk.resolve (dumps.source .user) ≠ .ok place) ∧
    ∀ content, (dumps.splitAll.run disk).disk.read (dumps.source .user) = .ok content ↔
      disk.read (dumps.source .user) = .ok content := by
  intro user disk config dumps
  have hothers : ∀ table' ≠ .user, ∀ place ∈ dumps.outputPlaces table' disk,
      disk.resolve (dumps.source .user) ≠ .ok place := by
    rintro table' hne place ⟨shard, hplace⟩ hsource
    have heq := hsource.trans hplace.symm
    revert hne heq
    cases table' <;> cases shard <;> decide +kernel
  exact ⟨hothers, splitAll_read_source_iff dumps disk .user hothers⟩

/-- The dump of the read events is lost where the users' file for the first shard comes. -/
theorem splitAll_overwrites_source :
    let user := "INSERT INTO u\n, , u, , , , , , , , \"Beijing\", ;\n"
    let disk := ((Disk.fresh.arrange (.ofString "user.sql") (some user.toUTF8)).arrange
      (.ofString "article.sql") (some "INSERT INTO a\n, , a, , , ;".toUTF8)).arrange
      (.ofString "user_shard1.sql") (some "INSERT INTO r\n, , u, , ;".toUTF8)
    let config := Config.overlay [(.userRead, "user_shard1.sql")]
    let dumps : DumpSet := { dir := .ofString ".", config }
    (dumps.splitAll.run disk).result.isOk ∧
      disk.read (dumps.source .userRead) = .ok "INSERT INTO r\n, , u, , ;".toUTF8 ∧
      (dumps.splitAll.run disk).disk.read (dumps.source .userRead) = .ok user.toUTF8 ∧
      "INSERT INTO r\n, , u, , ;".toUTF8 ≠ user.toUTF8 := by
  decide +kernel

end DumpSplit.DumpSet
