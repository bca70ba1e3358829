/-
  Read events are where their users are: the keys by which they are split are those of the
  rows of users that were written before, and no stage undoes what another one has done.
-/
import DumpSplit.Disk.Arrange
import DumpSplit.Proofs.Conservation
import DumpSplit.Proofs.Holders
import DumpSplit.Proofs.Separation

namespace DumpSplit

/-- The user of a row of `user` or of `user_read`: both tables have it in one column. -/
def uid? (line : String) : Option String := (Record.ofLine line).fields[userUid.index]?

/-- Whether one of the rows of `users` is of the user of a read event. -/
def hasUser (users : List String) (read : String) : Bool :=
  (uid? read).any fun uid => users.any (uid? · == some uid)

theorem hasUser_iff {users : List String} {read : String} : hasUser users read = true ↔
    ∃ user ∈ users, ∃ uid, uid? read = some uid ∧ uid? user = some uid := by
  simp only [hasUser, Option.any_eq_true, List.any_eq_true, beq_iff_eq]
  constructor
  · rintro ⟨uid, hread, user, hmem, huser⟩; exact ⟨user, hmem, uid, hread, huser⟩
  · rintro ⟨user, hmem, uid, hread, huser⟩; exact ⟨uid, hread, user, hmem, huser⟩

/-! ## The shares of read events -/

namespace Split

variable {dump : Dump} {source : Path} {split users : Split}

/-- The routes of read events, by the users on the shards. -/
theorem reaches_of_byUser {userDump : Dump} {userSource : Path}
    (husers : Rule.byRegion.split userDump userSource = .ok users)
    (h : (Rule.byUser users.keys).split dump source = .ok split) {r : Routed}
    (hr : r ∈ split.routed) :
    r.route.reaches .one = hasUser (users.recordsOf .one) r.line ∧
      r.route.reaches .two =
        (hasUser (users.recordsOf .two) r.line && !hasUser (users.recordsOf .one) r.line) := by
  obtain ⟨shard, hshard, hroute⟩ := exists_holder h hr
  have hkeys : ∀ shard, hasUser (users.recordsOf shard) r.line = true ↔
      r.key ∈ users.keys.of shard := fun shard => by
    have hread : uid? r.line = some r.key := field_key_eq h hr
    rw [mem_keys_iff_recordsOf husers, hasUser_iff]
    simp only [hread, Option.some.injEq, exists_eq_left']
    rfl
  rw [hroute]
  cases shard with
  | one =>
    have hone := (hkeys .one).2 (KeySets.holder?_eq_one_iff.1 hshard)
    simp [hone]
  | two =>
    obtain ⟨htwo, hone⟩ := KeySets.holder?_eq_two_iff.1 hshard
    have hone : hasUser (users.recordsOf .one) r.line = false := by
      rw [← Bool.not_eq_true, hkeys]; exact hone
    simp [hone, (hkeys .two).2 htwo]

end Split

/-! ## Runs -/

namespace DumpSet

variable {dumps : DumpSet} {disk after : Disk}

/-- The read events of `disk` are dealt out to `after` as their users are: to the first
    shard where it has a row of the user, and to the second where only that one has. -/
structure Follows (dumps : DumpSet) (disk after : Disk) (users reads : Dump)
    (userShare readShare : Shard → List String) : Prop where
  usersDealt : dumps.Deals .user disk after users userShare
  readsDealt : dumps.Deals .userRead disk after reads readShare
  referenced : ∀ shard, ∀ read ∈ readShare shard, ∃ user ∈ userShare shard, ∃ uid,
    uid? read = some uid ∧ uid? user = some uid
  first : readShare .one = reads.records.filter (hasUser (userShare .one))
  second : readShare .two = reads.records.filter fun read =>
    hasUser (userShare .two) read && !hasUser (userShare .one) read

theorem Leaves.deals {table : Table} {rule : Rule} {dump : Dump} {split : Split}
    (h : dumps.Leaves table rule disk after dump split) (hrule : rule.Exclusive) :
    dumps.Deals table disk after dump split.recordsOf where
  source := h.source
  output shard hkeeps := Split.lines_eq_recordsOf h.accepted shard ▸ h.output shard hkeeps
  records := Split.interleaves hrule h.accepted

/-- The files of the users and of the read events are on the last disk of a run what their
    stages have made of the dumps on the first one. -/
theorem Separate.deals {users reads : Dump} {articles : Dump} {disk₁ disk₂ : Disk}
    {usersSplit articlesSplit readsSplit : Split} (hsep : dumps.Separate disk)
    (husers : dumps.HasSplit .user .byRegion disk disk₁ users usersSplit)
    (harticles : dumps.HasSplit .article .byCategory disk₁ disk₂ articles articlesSplit)
    (hreads : dumps.HasSplit .userRead (.byUser usersSplit.keys) disk₂ after reads readsSplit) :
    dumps.Deals .user disk after users usersSplit.recordsOf ∧
      dumps.Deals .userRead disk after reads readsSplit.recordsOf := by
  have hsep₁ := hsep.sameOutside husers.outside
  have hsep₂ := hsep₁.sameOutside harticles.outside
  have hleaves := ((husers.leaves hsep.spares).of_stage_after harticles.outside hsep₁
    (by decide)).of_stage_after hreads.outside hsep₂ (by decide)
  have hleaves' := ((hreads.leaves hsep₂.spares).of_stage_before harticles.outside hsep₁
    (by decide)).of_stage_before husers.outside hsep (by decide)
  exact ⟨hleaves.deals Rule.byRegion_exclusive, hleaves'.deals (Rule.byUser_exclusive _)⟩

theorem Separate.follows {events : List Event} {summary : Summary} (hsep : dumps.Separate disk)
    (h : dumps.splitAll.run disk = { disk := after, events, result := .ok summary }) :
    ∃ users reads userShare readShare,
      dumps.Follows disk after users reads userShare readShare := by
  obtain ⟨disk₁, disk₂, users, articles, reads, usersSplit, articlesSplit, readsSplit,
    husers, harticles, hreads⟩ := splitAll_hasSplit h
  obtain ⟨hdeals, hdeals'⟩ := hsep.deals husers harticles hreads
  have hroutes := fun r hr => Split.reaches_of_byUser (r := r) husers.accepted hreads.accepted hr
  have hfirst := Split.recordsOf_eq_filter hreads.accepted fun r hr => (hroutes r hr).1
  have hsecond : readsSplit.recordsOf .two = reads.records.filter fun read =>
      hasUser (usersSplit.recordsOf .two) read && !hasUser (usersSplit.recordsOf .one) read :=
    Split.recordsOf_eq_filter hreads.accepted fun r hr => (hroutes r hr).2
  refine ⟨users, reads, _, _, hdeals, hdeals', fun shard read hread => ?_, hfirst, hsecond⟩
  rw [← hasUser_iff]
  cases shard with
  | one => rw [hfirst] at hread; exact (List.mem_filter.1 hread).2
  | two => rw [hsecond] at hread; exact (Bool.and_eq_true_iff.1 (List.mem_filter.1 hread).2).1

/-- **Read events follow their users**, wherever the files of the shards lie apart from one
    another and from the dumps, as they do under the default names. -/
theorem splitAll_follows : (∀ dir disk, (DumpSet.mk dir .default).Separate disk) ∧
    ∀ (dumps : DumpSet) (disk after : Disk) (events : List Event) (summary : Summary),
      dumps.Separate disk →
      dumps.splitAll.run disk = { disk := after, events, result := .ok summary } →
      ∃ users reads userShare readShare,
        dumps.Follows disk after users reads userShare readShare :=
  ⟨separate_default, fun _ _ _ _ _ hsep h => hsep.follows h⟩

/-- The user `u` is in both regions, and `v` in the second one only. -/
theorem splitAll_follows_both :
    let user := "INSERT INTO u\n, , u, , , , , , , , \"Hong Kong\", ,\n" ++
      ", , v, , , , , , , , \"Hong Kong\", ,\n, , u, , , , , , , , \"Beijing\", ;"
    let disk := ((Disk.fresh.arrange (.ofString "user.sql") (some user.toUTF8)).arrange
      (.ofString "article.sql") (some "INSERT INTO a\n, , a, , , ;".toUTF8)).arrange
      (.ofString "user_read.sql") (some "INSERT INTO r\n, , u, , ,\n, , v, , ;".toUTF8)
    let dumps : DumpSet := { dir := .ofString ".", config := .default }
    (∀ table shard, disk.Keeps (dumps.output table shard)) ∧
      ∃ after events summary users reads userShare readShare,
        dumps.splitAll.run disk = { disk := after, events, result := .ok summary } ∧
        dumps.Follows disk after users reads userShare readShare := by
  intro user disk dumps
  refine ⟨fun table shard => by cases table <;> cases shard <;> decide +kernel, ?_⟩
  have hok : (dumps.splitAll.run disk).result.isOk := by decide +kernel
  obtain ⟨after, events, summary, hrun⟩ := Job.exists_run_eq_ok hok
  obtain ⟨users, reads, userShare, readShare, hfollows⟩ :=
    splitAll_follows.2 dumps disk after events summary (splitAll_follows.1 _ disk) hrun
  exact ⟨after, events, summary, users, reads, userShare, readShare, hrun, hfollows⟩

end DumpSet

end DumpSplit
