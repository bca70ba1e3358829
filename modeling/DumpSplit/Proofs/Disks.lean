/-
  What reading and writing have to do with each other on a disk: what was written to a
  file is read from it again, and nothing else has changed.  Disks that differ in files
  only come to be the same where the same is written to both.
-/
import DumpSplit.Disk.Files
import Mathlib.Data.Set.Defs
import Mathlib.Tactic.SplitIfs

namespace DumpSplit.Disk

variable {disk : Disk} {path : Path} {place : Place}

/-! ## Operations that succeed -/

theorem expectDirectory_eq_ok_iff :
    disk.expectDirectory place = .ok () ↔ disk.node? place = some .directory := by
  unfold expectDirectory
  split <;> simp_all

/-- A walk goes on from the first place if that is a directory. -/
theorem walk_cons_cons_eq_ok_iff {dir : Place} {name name' : List UInt8}
    {rest : List (List UInt8)} :
    disk.walk dir (name :: name' :: rest) = .ok place ↔
      ∃ next, step dir name = .ok next ∧ disk.node? next = some .directory ∧
        disk.walk next (name' :: rest) = .ok place := by
  simp only [walk, bind, Except.bind]
  cases step dir name with
  | error cause => simp
  | ok next =>
    simp only [Except.ok.injEq, exists_eq_left', ← expectDirectory_eq_ok_iff]
    cases disk.expectDirectory next <;> simp

theorem find_eq_ok_iff {node : Node} : disk.find path = .ok node ↔
    ∃ place, disk.resolve path = .ok place ∧ disk.node? place = some node ∧
      (node = .directory ∨ path.endsInSeparator = false) := by
  simp only [find, bind, Except.bind]
  cases disk.resolve path with
  | error cause => simp
  | ok place =>
    cases hsep : path.endsInSeparator <;> rcases hnode : disk.node? place with _ | _ | _ | _ | _ <;>
      simp [throw, throwThe, MonadExceptOf.throw, pure, Except.pure, hnode, eq_comm]
    all_goals rintro rfl; simp

theorem read_eq_ok_iff {content : ByteArray} : disk.read path = .ok content ↔
    disk.find path = .ok (.file content) ∨ disk.find path = .ok .sink ∧ content = .empty := by
  simp only [read, bind, Except.bind]
  rcases disk.find path with _ | _ | _ | _ | _ <;>
    simp [throw, throwThe, MonadExceptOf.throw, pure, Except.pure, eq_comm]

theorem openFile_eq_ok_iff : disk.openFile path = .ok place ↔
    disk.resolve path = .ok place ∧ path.endsInSeparator = false ∧
      disk.node? place ≠ some .directory := by
  simp only [openFile, bind, Except.bind]
  cases disk.resolve path with
  | error cause => simp
  | ok place' =>
    by_cases hnode : disk.node? place' = some .directory
    · cases path.endsInSeparator <;>
        simp only [hnode, throw, throwThe, MonadExceptOf.throw, decide_true, Bool.or_true,
          ↓reduceIte, reduceCtorEq, Except.ok.injEq, false_iff, not_and, Decidable.not_not]
      · rintro rfl -; exact hnode
      · simp
    · cases path.endsInSeparator <;>
        simp [hnode, throw, throwThe, MonadExceptOf.throw, pure, Except.pure]
      rintro rfl; exact hnode

/-- What is written at `path` can be read there: the path does not lead to a device that
    loses what it takes. -/
def Keeps (disk : Disk) (path : Path) : Prop := disk.find path ≠ .ok .sink

instance : Decidable (disk.Keeps path) :=
  decidable_of_iff ((disk.find path).toOption ≠ some .sink) <| by
    unfold Keeps; cases disk.find path <;> simp [Except.toOption]

/-! ## Two disks with the same directories -/

/-- Two disks that differ at `places` only, and have the same directories: paths lead to
    the same places on both. -/
structure SameOutside (places : Set Place) (disk disk' : Disk) : Prop where
  current : disk'.current = disk.current
  node : ∀ place ∉ places, disk'.node? place = disk.node? place
  directory : ∀ place, disk'.node? place = some .directory ↔ disk.node? place = some .directory

namespace SameOutside

variable {places places' : Set Place} {disk₁ disk₂ : Disk}

theorem refl (places : Set Place) (disk : Disk) : SameOutside places disk disk :=
  ⟨rfl, fun _ _ => rfl, fun _ => Iff.rfl⟩

theorem trans (h₁ : SameOutside places disk disk₁) (h₂ : SameOutside places disk₁ disk₂) :
    SameOutside places disk disk₂ where
  current := h₂.current.trans h₁.current
  node place hplace := (h₂.node place hplace).trans (h₁.node place hplace)
  directory place := (h₂.directory place).trans (h₁.directory place)

theorem mono (h : SameOutside places disk disk₁) (hsub : ∀ place ∈ places, place ∈ places') :
    SameOutside places' disk disk₁ where
  current := h.current
  node place hplace := h.node place fun hmem => hplace (hsub place hmem)
  directory := h.directory

theorem walk_eq_ok_iff (h : SameOutside places disk disk₁) {dir : Place}
    {names : List (List UInt8)} :
    disk₁.walk dir names = .ok place ↔ disk.walk dir names = .ok place := by
  induction names generalizing dir with
  | nil => rfl
  | cons name rest ih =>
    cases rest with
    | nil => rfl
    | cons name' rest => simp only [walk_cons_cons_eq_ok_iff, h.directory, ih]

theorem resolve_eq_ok_iff (h : SameOutside places disk disk₁) :
    disk₁.resolve path = .ok place ↔ disk.resolve path = .ok place := by
  simp only [resolve, h.current]
  split_ifs
  iterate 3 rfl
  exact h.walk_eq_ok_iff
  exact h.walk_eq_ok_iff

/-- Outside the places where two disks differ, there is the same on both. -/
theorem find_eq_ok_iff (h : SameOutside places disk disk₁)
    (hplace : ∀ place, disk.resolve path = .ok place → place ∉ places) {node : Node} :
    disk₁.find path = .ok node ↔ disk.find path = .ok node := by
  simp only [Disk.find_eq_ok_iff, h.resolve_eq_ok_iff]
  refine exists_congr fun place => and_congr_right fun hres => ?_
  rw [h.node place (hplace place hres)]

theorem read_eq_ok_iff (h : SameOutside places disk disk₁)
    (hplace : ∀ place, disk.resolve path = .ok place → place ∉ places) {content : ByteArray} :
    disk₁.read path = .ok content ↔ disk.read path = .ok content := by
  simp only [Disk.read_eq_ok_iff, h.find_eq_ok_iff hplace]

theorem keeps_iff (h : SameOutside places disk disk₁)
    (hplace : ∀ place, disk.resolve path = .ok place → place ∉ places) :
    disk₁.Keeps path ↔ disk.Keeps path := by
  simp only [Keeps, ne_eq, h.find_eq_ok_iff hplace]

end SameOutside

/-! ## Two disks that differ in files only -/

/-- What is written at `place` makes it a file: no directory and no device is there. -/
def TakesFile (disk : Disk) (place : Place) : Prop :=
  disk.node? place = none ∨ ∃ content, disk.node? place = some (.file content)

/-- Two disks with the same nodes, but that at each of `places` they may hold different
    files, or one of them none. -/
structure SameButFiles (places : Set Place) (disk disk' : Disk) : Prop where
  current : disk'.current = disk.current
  limits : disk'.limits = disk.limits
  node : ∀ place, disk'.nodes[place]? = disk.nodes[place]? ∨
    place ∈ places ∧ disk.TakesFile place ∧ disk'.TakesFile place

theorem TakesFile.ne_nil (h : disk.TakesFile place) : place ≠ [] := by
  rintro rfl
  rcases h with hnode | ⟨_, hnode⟩ <;> cases hnode

namespace SameButFiles

variable {places places' : Set Place} {disk₁ disk₂ : Disk}

theorem refl (places : Set Place) (disk : Disk) : SameButFiles places disk disk :=
  ⟨rfl, rfl, fun _ => .inl rfl⟩

theorem trans (h₁ : SameButFiles places disk disk₁) (h₂ : SameButFiles places disk₁ disk₂) :
    SameButFiles places disk disk₂ where
  current := h₂.current.trans h₁.current
  limits := h₂.limits.trans h₁.limits
  node place := by
    rcases h₁.node place with heq₁ | ⟨hmem, htakes, htakes₁⟩
    · simpa only [TakesFile, node?, heq₁] using h₂.node place
    · rcases h₂.node place with heq₂ | ⟨-, -, htakes₂⟩
      · exact .inr ⟨hmem, htakes, by simpa only [TakesFile, node?, heq₂] using htakes₁⟩
      · exact .inr ⟨hmem, htakes, htakes₂⟩

theorem mono (h : SameButFiles places disk disk₁) (hsub : ∀ place ∈ places, place ∈ places') :
    SameButFiles places' disk disk₁ where
  current := h.current
  limits := h.limits
  node place := (h.node place).imp_right fun ⟨hmem, htakes⟩ => ⟨hsub place hmem, htakes⟩

theorem symm (h : SameButFiles places disk disk₁) : SameButFiles places disk₁ disk where
  current := h.current.symm
  limits := h.limits.symm
  node place := (h.node place).imp Eq.symm fun ⟨hmem, htakes, htakes₁⟩ => ⟨hmem, htakes₁, htakes⟩

/-- Disks that differ nowhere are one disk. -/
theorem eq_of_empty (h : SameButFiles ∅ disk disk₁) : disk₁ = disk := by
  have hnodes : disk₁.nodes = disk.nodes :=
    Std.ExtTreeMap.ext_getElem? fun {place} => (h.node place).resolve_right fun ⟨hmem, _⟩ => hmem
  cases disk; cases disk₁
  simp only [Disk.mk.injEq]
  exact ⟨hnodes, h.current, h.limits⟩

/-- Disks are one disk if they can differ at some places only, and at none of these. -/
theorem eq_of_disjoint (h : SameButFiles places disk disk₁) (h' : SameButFiles places' disk disk₁)
    (hdisjoint : ∀ place ∈ places, place ∉ places') : disk₁ = disk := by
  refine eq_of_empty ⟨h.current, h.limits, fun place => .inl ?_⟩
  rcases h.node place with heq | ⟨hmem, -⟩
  · exact heq
  · exact (h'.node place).resolve_right fun ⟨hmem', _⟩ => hdisjoint place hmem hmem'

theorem sameOutside (h : SameButFiles places disk disk₁) : SameOutside places disk disk₁ where
  current := h.current
  node place hplace := by
    rcases h.node place with heq | ⟨hmem, -⟩
    · simp only [node?, heq]
    · exact absurd hmem hplace
  directory place := by
    rcases h.node place with heq | ⟨-, htakes, htakes₁⟩
    · simp only [node?, heq]
    · rcases htakes with hnode | ⟨_, hnode⟩ <;>
        rcases htakes₁ with hnode₁ | ⟨_, hnode₁⟩ <;> simp [hnode, hnode₁]

end SameButFiles

/-! ## Writing -/

theorem getElem?_nodes_set (disk : Disk) (place : Place) (node : Node) (place' : Place) :
    (disk.set place node).nodes[place']? =
      if place' = place then some node else disk.nodes[place']? := by
  simp only [set]
  split_ifs with h
  · rw [h, Std.ExtTreeMap.getElem?_insert_self]
  · rw [Std.ExtTreeMap.getElem?_insert, if_neg]
    rw [Std.LawfulEqCmp.compare_eq_iff_eq]; exact fun heq => h heq.symm

theorem node?_set {node : Node} (hplace : place ≠ []) (place' : Place) :
    (disk.set place node).node? place' =
      if place' = place then some node else disk.node? place' := by
  simp only [node?, getElem?_nodes_set]
  split_ifs with h₁ h₂
  · exact absurd (h₂.symm.trans h₁) hplace
  · rfl
  · rfl
  · rfl

theorem takesFile_set {content : ByteArray} (hroot : place ≠ []) :
    (disk.set place (.file content)).TakesFile place :=
  .inr ⟨content, by rw [node?_set hroot, if_pos rfl]⟩

theorem takesFile_set_iff {node : Node} {place' : Place} (hne : place' ≠ place) :
    (disk.set place node).TakesFile place' ↔ disk.TakesFile place' := by
  simp only [TakesFile, node?, getElem?_nodes_set, if_neg hne]

theorem not_takesFile_of_device
    (h : disk.node? place = some .sink ∨ disk.node? place = some .full) :
    ¬ disk.TakesFile place := by
  rintro (hnode | ⟨_, hnode⟩) <;> rcases h with hdevice | hdevice <;>
    cases hnode.symm.trans hdevice

/-- A file that keeps what it takes holds it then; a device is as it was. -/
theorem keep_cases (hdir : disk.node? place ≠ some .directory) (content : ByteArray) :
    disk.TakesFile place ∧ disk.keep place content = disk.set place (.file content) ∨
      (disk.node? place = some .sink ∨ disk.node? place = some .full) ∧
        disk.keep place content = disk := by
  unfold keep TakesFile
  rcases hnode : disk.node? place with _ | _ | _ | _ | _
  · simp
  · exact absurd hnode hdir
  · simp
  · simp
  · simp

theorem keep_of_takesFile (h : disk.TakesFile place) (content : ByteArray) :
    disk.keep place content = disk.set place (.file content) := by
  unfold keep
  rcases h with hnode | ⟨_, hnode⟩ <;> rw [hnode]

theorem keep_sameButFiles (hdir : disk.node? place ≠ some .directory) (content : ByteArray) :
    SameButFiles {place} disk (disk.keep place content) := by
  rcases keep_cases hdir content with ⟨htakes, hkeep⟩ | ⟨-, hkeep⟩
  · rw [hkeep]
    refine ⟨rfl, rfl, fun place' => ?_⟩
    by_cases heq : place' = place
    · subst heq; exact .inr ⟨rfl, htakes, takesFile_set htakes.ne_nil⟩
    · rw [getElem?_nodes_set, if_neg heq]; exact .inl rfl
  · rw [hkeep]; exact .refl _ _

/-- The file at `place` takes `size` bytes. -/
def Takes (disk : Disk) (place : Place) (size : Nat) : Prop :=
  ∀ limit, disk.limit? place = some limit → size ≤ limit.size

theorem filter_limit?_eq_none_iff {size : Nat} :
    (disk.limit? place).filter (·.size < size) = none ↔ disk.Takes place size := by
  simp [Takes, Option.filter_eq_none_iff]

/-- A write succeeds if its file opens and takes the bytes. -/
theorem write_eq_ok_iff {content : ByteArray} {after : Disk} :
    disk.write path content = (after, .ok ()) ↔ ∃ place, disk.openFile path = .ok place ∧
      disk.Takes place content.size ∧ after = disk.keep place content := by
  unfold write
  cases hopen : disk.openFile path with
  | error cause => simp
  | ok place =>
    simp only [Except.ok.injEq, exists_eq_left', ← filter_limit?_eq_none_iff]
    cases hlimit : (disk.limit? place).filter (·.size < content.size) with
    | none => simp only [Prod.mk.injEq, true_and, and_true, eq_comm]
    | some limit => simp only [Prod.mk.injEq, reduceCtorEq, and_false, false_and]

/-- What a write of `content` to `path` that fails leaves: all is as it was if the path opens no
    file, or opens a device, and otherwise the file holds the first bytes, but not all of them. -/
def LeavesPart (disk : Disk) (path : Path) (content : ByteArray) (after : Disk) : Prop :=
  (∀ place, disk.openFile path = .ok place → ¬ disk.TakesFile place) ∧ after = disk ∨
    ∃ place size, disk.openFile path = .ok place ∧ disk.TakesFile place ∧
      size < content.size ∧ after = disk.set place (.file (content.extract 0 size))

theorem leavesPart_of_write_eq_error {content : ByteArray} {after : Disk} {fault : WriteFault}
    (h : disk.write path content = (after, .error fault)) :
    disk.LeavesPart path content after := by
  unfold write at h
  rcases hopen : disk.openFile path with cause | place
  · rw [hopen] at h
    exact .inl ⟨fun place' hopen' => (nomatch hopen.symm.trans hopen'), (Prod.mk.inj h).1.symm⟩
  · rcases hlimit : (disk.limit? place).filter (·.size < content.size) with _ | limit
    · simp [hopen, hlimit] at h
    · have hshort : limit.size < content.size := by
        simpa using (Option.filter_eq_some_iff.1 hlimit).2
      simp only [hopen, hlimit, Prod.mk.injEq] at h
      rcases keep_cases (openFile_eq_ok_iff.1 hopen).2.2 (content.extract 0 limit.size) with
        ⟨htakes, hkeep⟩ | ⟨hdevice, hkeep⟩
      · exact .inr ⟨place, limit.size, hopen, htakes, hshort, by rw [← h.1, hkeep]⟩
      · refine .inl ⟨fun place' hopen' => ?_, by rw [← h.1, hkeep]⟩
        obtain rfl := Except.ok.inj (hopen.symm.trans hopen')
        exact not_takesFile_of_device hdevice

/-- A write changes at most the file to which its path leads. -/
theorem write_sameButFiles (disk : Disk) (path : Path) (content : ByteArray) :
    SameButFiles {place | disk.resolve path = .ok place} disk (disk.write path content).1 := by
  unfold write
  rcases hopen : disk.openFile path with cause | place
  · exact .refl _ _
  · obtain ⟨hres, -, hdir⟩ := openFile_eq_ok_iff.1 hopen
    have hsub : ∀ place' ∈ ({place} : Set Place), disk.resolve path = .ok place' := by
      rintro _ rfl; exact hres
    dsimp only
    split
    · exact (keep_sameButFiles hdir _).mono hsub
    · exact (keep_sameButFiles hdir _).mono hsub

theorem sameOutside_of_write {content : ByteArray} {after : Disk} {answer : Except WriteFault Unit}
    (h : disk.write path content = (after, answer)) :
    SameOutside {place | disk.resolve path = .ok place} disk after := by
  have hsame := (disk.write_sameButFiles path content).sameOutside
  rwa [h] at hsame

namespace SameButFiles

variable {places : Set Place} {disk₁ : Disk}

/-- Files that are not devices take the same whatever they hold. -/
theorem limit?_eq (h : SameButFiles places disk disk₁) : disk₁.limit? place = disk.limit? place := by
  have hlimit : disk₁.limitAt? place = disk.limitAt? place := by
    unfold limitAt?; rw [h.limits]
  unfold limit?
  rcases h.node place with heq | ⟨-, htakes, htakes₁⟩
  · simp only [node?, heq, hlimit]
  · rcases htakes with hnode | ⟨_, hnode⟩ <;> rcases htakes₁ with hnode₁ | ⟨_, hnode₁⟩ <;>
      simp only [hnode, hnode₁, hlimit]

theorem keeps_iff (h : SameButFiles places disk disk₁) : disk₁.Keeps path ↔ disk.Keeps path := by
  have hsink : ∀ place, disk₁.node? place = some .sink ↔ disk.node? place = some .sink := by
    intro place
    rcases h.node place with heq | ⟨-, htakes, htakes₁⟩
    · simp only [node?, heq]
    · rcases htakes with hnode | ⟨_, hnode⟩ <;> rcases htakes₁ with hnode₁ | ⟨_, hnode₁⟩ <;>
        simp [hnode, hnode₁]
  simp only [Keeps, ne_eq, Disk.find_eq_ok_iff, h.sameOutside.resolve_eq_ok_iff, hsink]

theorem takesFile_iff (h : SameButFiles places disk disk₁) :
    disk₁.TakesFile place ↔ disk.TakesFile place := by
  rcases h.node place with heq | ⟨-, htakes, htakes₁⟩
  · simp only [TakesFile, node?, heq]
  · exact iff_of_true htakes₁ htakes

/-- A file that comes to hold the same on two disks is no difference between them. -/
theorem keep (h : SameButFiles places disk disk₁) (hdir : disk.node? place ≠ some .directory)
    (content : ByteArray) :
    SameButFiles (places \ {place}) (disk.keep place content) (disk₁.keep place content) := by
  rcases keep_cases hdir content with ⟨htakes, hkeep⟩ | ⟨hdevice, hkeep⟩
  · rw [hkeep, keep_of_takesFile (h.takesFile_iff.2 htakes)]
    refine ⟨h.current, h.limits, fun place' => ?_⟩
    by_cases heq : place' = place
    · simp only [getElem?_nodes_set, if_pos heq, true_or]
    · simp only [getElem?_nodes_set, if_neg heq, takesFile_set_iff heq]
      exact (h.node place').imp_right fun ⟨hmem, htakes⟩ => ⟨⟨hmem, heq⟩, htakes⟩
  · have heq : disk₁.nodes[place]? = disk.nodes[place]? := by
      refine (h.node place).resolve_right fun ⟨_, htakes, _⟩ => ?_
      rcases htakes with hnode | ⟨_, hnode⟩ <;> simp [hnode] at hdevice
    have hkeep₁ : disk₁.keep place content = disk₁ := by
      have hnode : disk₁.node? place = disk.node? place := by simp only [node?, heq]
      unfold Disk.keep
      rcases hdevice with hsink | hfull
      · rw [hnode, hsink]
      · rw [hnode, hfull]
    rw [hkeep, hkeep₁]
    refine ⟨h.current, h.limits, fun place' => ?_⟩
    by_cases hplace : place' = place
    · exact .inl (hplace ▸ heq)
    · exact (h.node place').imp_right fun ⟨hmem, htakes⟩ => ⟨⟨hmem, hplace⟩, htakes⟩

/-- **Writing the same to two disks** takes away a difference between them: where one of
    them takes the bytes, the other does, and then holds the same file. -/
theorem write {after : Disk} {content : ByteArray} (h : SameButFiles places disk disk₁)
    (hwrite : disk.write path content = (after, .ok ())) :
    ∃ after₁, disk₁.write path content = (after₁, .ok ()) ∧
      SameButFiles (places \ {place | disk.resolve path = .ok place}) after after₁ := by
  obtain ⟨place, hopen, htakes, rfl⟩ := write_eq_ok_iff.1 hwrite
  obtain ⟨hres, hsep, hdir⟩ := openFile_eq_ok_iff.1 hopen
  have hopen₁ : disk₁.openFile path = .ok place := by
    rw [openFile_eq_ok_iff, h.sameOutside.resolve_eq_ok_iff, ne_eq, h.sameOutside.directory]
    exact ⟨hres, hsep, hdir⟩
  have htakes₁ : disk₁.Takes place content.size := by
    simpa only [Takes, h.limit?_eq] using htakes
  refine ⟨_, write_eq_ok_iff.2 ⟨place, hopen₁, htakes₁, rfl⟩, (h.keep hdir content).mono ?_⟩
  rintro place' ⟨hmem, hne⟩
  exact ⟨hmem, fun hres' => hne (Except.ok.inj (hres'.symm.trans hres))⟩

end SameButFiles

/-- What was kept at a place that is no device is found there. -/
theorem read_set {content : ByteArray} (hopen : disk.openFile path = .ok place)
    (htakes : disk.TakesFile place) :
    (disk.set place (.file content)).read path = .ok content := by
  obtain ⟨hres, hsep, hdir⟩ := openFile_eq_ok_iff.1 hopen
  have hsame := keep_sameButFiles hdir content
  rw [keep_of_takesFile htakes] at hsame
  rw [Disk.read_eq_ok_iff, Disk.find_eq_ok_iff]
  refine .inl ⟨place, hsame.sameOutside.resolve_eq_ok_iff.2 hres, ?_, .inr hsep⟩
  rw [node?_set htakes.ne_nil, if_pos rfl]

/-- What is written to a file is what is read from it, unless it is lost in a device. -/
theorem read_write {content : ByteArray} {after : Disk}
    (h : disk.write path content = (after, .ok ())) (hkeeps : disk.Keeps path)
    (hcontent : content.size ≠ 0) : after.read path = .ok content := by
  obtain ⟨place, hopen, htakes, rfl⟩ := write_eq_ok_iff.1 h
  obtain ⟨hres, hsep, hdir⟩ := openFile_eq_ok_iff.1 hopen
  rcases keep_cases hdir content with ⟨hfile, hkeep⟩ | ⟨hsink | hfull, -⟩
  · rw [hkeep]; exact read_set hopen hfile
  · exact absurd (Disk.find_eq_ok_iff.2 ⟨place, hres, hsink, .inr hsep⟩) hkeeps
  · exact absurd (htakes _ (by rw [limit?, hfull])) (by simpa using hcontent)

/-- A regular file can be written at `path`, and takes any number of bytes: it is there, or
    only its directory is. -/
def OpensFile (disk : Disk) (path : Path) : Prop :=
  ∃ place, disk.openFile path = .ok place ∧ disk.TakesFile place ∧ disk.limitAt? place = none

instance : Decidable (disk.OpensFile path) :=
  decidable_of_iff ((disk.openFile path).toOption.any fun place =>
      (match disk.node? place with
      | none | some (.file _) => true
      | some .directory | some .sink | some .full => false) && (disk.limitAt? place).isNone) <| by
    unfold OpensFile TakesFile
    cases disk.openFile path with
    | error cause => simp [Except.toOption]
    | ok place =>
      simp only [Except.toOption, Option.any_some, Except.ok.injEq, exists_eq_left']
      rcases disk.node? place with _ | _ | _ | _ | _ <;> simp

/-- A regular file takes all bytes and gives them back. -/
theorem OpensFile.write (h : disk.OpensFile path) (content : ByteArray) : ∃ after,
    disk.write path content = (after, .ok ()) ∧ after.read path = .ok content := by
  obtain ⟨place, hopen, hfile, hlimits⟩ := h
  have htakes : disk.Takes place content.size := by
    intro limit hlimit
    unfold limit? at hlimit
    rcases hfile with hnode | ⟨_, hnode⟩ <;> simp [hnode, hlimits] at hlimit
  refine ⟨_, write_eq_ok_iff.2 ⟨place, hopen, htakes, rfl⟩, ?_⟩
  rw [keep_of_takesFile hfile]
  exact read_set hopen hfile

end DumpSplit.Disk
