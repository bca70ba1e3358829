/-
  The places that paths lead to, and that the two files of a table never come to lie at
  one place: their paths differ in a name that stays on the way.
-/
import DumpSplit.DumpSet
import DumpSplit.Proofs.Disks
import DumpSplit.Proofs.Marks

namespace DumpSplit

namespace Disk

/-- The place that `name` denotes in the directory at `dir`, however long it is. -/
def enter (dir : Place) (name : List UInt8) : Place :=
  if name = [0x2E] then dir else if name = [0x2E, 0x2E] then dir.dropLast else dir ++ [name]

/-- The place that a path denotes, whatever there is on the way. -/
def destination (disk : Disk) (path : Path) : Place :=
  path.names.foldl enter (if path.isAbsolute then [] else disk.current)

variable {disk : Disk} {path : Path} {place : Place}

theorem eq_enter_of_step {dir : Place} {name : List UInt8} (h : step dir name = .ok place) :
    place = enter dir name := by
  unfold step at h; unfold enter
  split_ifs at h ⊢ <;> cases h <;> rfl

theorem eq_foldl_of_walk {dir : Place} {names : List (List UInt8)}
    (h : disk.walk dir names = .ok place) : place = names.foldl enter dir := by
  induction names generalizing dir with
  | nil => cases h; rfl
  | cons name rest ih =>
    cases rest with
    | nil => exact eq_enter_of_step h
    | cons name' rest =>
      obtain ⟨next, hnext, -, hrest⟩ := walk_cons_cons_eq_ok_iff.1 h
      rw [List.foldl_cons, ← eq_enter_of_step hnext]
      exact ih hrest

theorem eq_destination_of_resolve (h : disk.resolve path = .ok place) :
    place = disk.destination path := by
  unfold resolve at h
  split_ifs at h <;> simpa [destination, *] using eq_foldl_of_walk h

/-- A name that is no dots is the last on the way to what it denotes. -/
theorem enter_eq_append {dir : Place} {name : List UInt8} {b : UInt8} (hb : b ∈ name)
    (hdot : b ≠ 0x2E) : enter dir name = dir ++ [name] := by
  unfold enter
  rw [if_neg (by rintro rfl; simp [hdot] at hb), if_neg (by rintro rfl; simp [hdot] at hb)]

theorem foldl_enter_eq_append {names : List (List UInt8)} (h : ∀ name ∈ names, 0x2E ∉ name)
    (dir : Place) : names.foldl enter dir = dir ++ names := by
  induction names generalizing dir with
  | nil => simp
  | cons name names ih =>
    have hname : enter dir name = dir ++ [name] := by
      unfold enter
      have hdot := h name List.mem_cons_self
      rw [if_neg (by rintro rfl; simp at hdot), if_neg (by rintro rfl; simp at hdot)]
    rw [List.foldl_cons, hname, ih fun n hn => h n (List.mem_cons_of_mem _ hn)]
    simp

theorem destination_join (disk : Disk) (dir name : Path) : disk.destination (dir.join name) =
    name.names.foldl enter (if name.isAbsolute then [] else disk.destination dir) := by
  cases h : name.isAbsolute with
  | true => simp [Path.join_of_isAbsolute h, destination, h]
  | false => simp [destination, Path.names_join h, Path.isAbsolute_join h, List.foldl_append]

end Disk

/-- A path that is a single name and no dots. -/
def Path.IsName (path : Path) : Prop :=
  path.isAbsolute = false ∧ path.names = [path.bytes] ∧
    path.bytes ≠ [0x2E] ∧ path.bytes ≠ [0x2E, 0x2E]

instance (path : Path) : Decidable path.IsName := inferInstanceAs (Decidable (_ ∧ _))

theorem Path.IsName.destination_join {name : Path} (h : name.IsName) (disk : Disk) (dir : Path) :
    disk.destination (dir.join name) = disk.destination dir ++ [name.bytes] := by
  obtain ⟨habs, hnames, hdot, hdots⟩ := h
  rw [Disk.destination_join, habs, hnames]
  simp [Disk.enter, hdot, hdots]

/-! ## The files of shards -/

/-- The places of a table's files are told apart by one name on the way, and from that of
    its dump by the mark in that name. -/
theorem Shard.exists_destination_path (disk : Disk) (dir : Path) (name : String) :
    ∃ base head tail after, Path.separator ∉ head ++ tail ∧
      disk.destination (dir.join (.ofString name)) =
        (Path.mk (head ++ tail)).names.foldl Disk.enter base ++ after ∧
      ∀ shard : Shard, disk.destination (shard.path dir name) =
        base ++ (head ++ shard.mark ++ tail) :: after := by
  obtain ⟨before, head, tail, after, hsep, hdot, hname, hnames⟩ := exists_names_fileName name
  refine ⟨before.foldl Disk.enter (if (Path.ofString name).isAbsolute then []
    else disk.destination dir), head, tail, after, hsep, ?_, fun shard => ?_⟩
  · rw [Disk.destination_join, hname, List.foldl_append, List.foldl_append,
      Disk.foldl_enter_eq_append hdot]
  · obtain ⟨rest, hmark⟩ := shard.mark_eq_cons
    rw [path, Disk.destination_join, hnames, shard.isAbsolute_fileName, List.foldl_append,
      List.foldl_cons, Disk.foldl_enter_eq_append hdot,
      Disk.enter_eq_append (b := 0x5F) (by simp [hmark]) (by decide)]
    simp

/-- **No two shards of a table lie at one place.** -/
theorem Shard.resolve_path_injective {disk : Disk} {dir : Path} {name : String} {place : Place}
    {shard shard' : Shard} (h : disk.resolve (shard.path dir name) = .ok place)
    (h' : disk.resolve (shard'.path dir name) = .ok place) : shard = shard' := by
  obtain ⟨base, head, tail, after, -, -, hplaces⟩ := exists_destination_path disk dir name
  have heq : disk.destination (shard.path dir name) = disk.destination (shard'.path dir name) :=
    (Disk.eq_destination_of_resolve h).symm.trans (Disk.eq_destination_of_resolve h')
  rw [hplaces, hplaces] at heq
  refine mark_injective ?_
  simpa using heq

/-- **No shard of a table lies where its dump does.** -/
theorem Shard.resolve_path_ne {disk : Disk} {dir : Path} {name : String} {place : Place}
    {shard : Shard} (h : disk.resolve (shard.path dir name) = .ok place) :
    disk.resolve (dir.join (.ofString name)) ≠ .ok place := by
  intro h'
  obtain ⟨base, head, tail, after, hsep, hsource, hplaces⟩ := exists_destination_path disk dir name
  obtain ⟨rest, hmark⟩ := shard.mark_eq_cons
  have heq : disk.destination (dir.join (.ofString name)) = disk.destination (shard.path dir name) :=
    (Disk.eq_destination_of_resolve h').symm.trans (Disk.eq_destination_of_resolve h)
  rw [hsource, hplaces, List.append_cons, List.append_cancel_right_eq] at heq
  -- the dump's name enters one directory at most, and that one has no mark
  by_cases hnil : head ++ tail = []
  · simp [hnil, Path.names, Path.cutParts] at heq
  · rw [Path.names_of_notMem hsep hnil, List.foldl_cons, List.foldl_nil, Disk.enter] at heq
    split_ifs at heq
    · simp at heq
    · have hlength := congrArg List.length heq
      simp only [List.length_dropLast, List.length_append, List.length_singleton] at hlength
      omega
    · have hlength := congrArg List.length (List.singleton_inj.1 (List.append_cancel_left heq))
      simp only [hmark, List.length_append, List.length_cons] at hlength
      omega

end DumpSplit
