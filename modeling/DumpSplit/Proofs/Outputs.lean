/-
  The files of the shards: they do not collide, and they lie beside their dump where the last
  name on its path has a dot of its own, or nothing before that has one.
-/
import DumpSplit.Proofs.Summaries
import Mathlib.Data.List.DropRight

namespace DumpSplit

/-! ## Folders -/

namespace Path

/-- What stands on a path before its last name, the separator included. -/
def folder (path : Path) : List UInt8 := path.bytes.rdropWhile (· != separator)

/-- The last name on a path, which is empty where the path ends in a separator. -/
def lastName (path : Path) : List UInt8 := path.bytes.rtakeWhile (· != separator)

theorem folder_append_lastName (path : Path) : path.folder ++ path.lastName = path.bytes :=
  List.rdropWhile_append_rtakeWhile

theorem separator_notMem_lastName (path : Path) : separator ∉ path.lastName := fun hmem => by
  simpa using List.mem_rtakeWhile_imp hmem

theorem mem_of_mem_lastName {path : Path} {b : UInt8} (h : b ∈ path.lastName) :
    b ∈ path.bytes :=
  (List.rtakeWhile_suffix _ _).subset h

theorem getLast?_folder (path : Path) :
    path.folder = [] ∨ path.folder.getLast? = some separator := by
  refine or_iff_not_imp_left.2 fun hne => ?_
  have hlast : ¬(path.folder.getLast hne != separator) := List.rdropWhile_last_not _ _ hne
  rw [List.getLast?_eq_some_getLast hne]
  simpa using hlast

/-- A path has one cut after its last separator. -/
theorem folder_lastName_of_append {base last : List UInt8}
    (hbase : base = [] ∨ base.getLast? = some separator) (hlast : separator ∉ last) :
    (Path.mk (base ++ last)).folder = base ∧ (Path.mk (base ++ last)).lastName = last := by
  have hall : ∀ b ∈ last.reverse, (b != separator) = true := fun b hb => by
    simpa using fun heq : b = separator => hlast (heq ▸ List.mem_reverse.1 hb)
  have hfolder : (Path.mk (base ++ last)).folder = base := by
    rw [folder, List.rdropWhile, List.reverse_append, List.dropWhile_append_of_pos hall]
    rcases hbase with rfl | hbase
    · rfl
    · obtain ⟨front, rfl⟩ := List.getLast?_eq_some_iff.1 hbase
      simp
  have hparts := folder_append_lastName ⟨base ++ last⟩
  rw [hfolder] at hparts
  exact ⟨hfolder, List.append_cancel_left hparts⟩

theorem folder_lastName_append (front : List UInt8) {back : List UInt8} (h : separator ∉ back) :
    (Path.mk (front ++ back)).folder = (Path.mk front).folder ∧
      (Path.mk (front ++ back)).lastName = (Path.mk front).lastName ++ back := by
  have hlast : separator ∉ (Path.mk front).lastName ++ back := by
    simp [h, separator_notMem_lastName]
  have := folder_lastName_of_append (getLast?_folder ⟨front⟩) hlast
  rwa [← List.append_assoc, folder_append_lastName] at this

theorem folder_lastName_append_of_mem (front : List UInt8) {back : List UInt8}
    (h : separator ∈ back) : (Path.mk (front ++ back)).folder = front ++ (Path.mk back).folder ∧
      (Path.mk (front ++ back)).lastName = (Path.mk back).lastName := by
  have hback := folder_append_lastName ⟨back⟩
  have hsep := (getLast?_folder ⟨back⟩).resolve_left fun hnil =>
    separator_notMem_lastName ⟨back⟩ (by rwa [← List.nil_append (lastName _), ← hnil, hback])
  have hbase : (front ++ (Path.mk back).folder).getLast? = some separator := by
    rw [List.getLast?_append, hsep]; rfl
  have := folder_lastName_of_append (.inr hbase) (separator_notMem_lastName ⟨back⟩)
  rwa [List.append_assoc, hback] at this

/-- A directory stands before the folder of a name. -/
theorem exists_folder_join_eq (dir : Path) (absolute : Bool) : ∃ base : List UInt8,
    ∀ name : Path, name.isAbsolute = absolute →
      (dir.join name).folder = base ++ name.folder ∧
        (dir.join name).lastName = name.lastName := by
  obtain ⟨base, hbase, hjoin⟩ := dir.exists_join_eq absolute
  refine ⟨base, fun name habs => ?_⟩
  have hfolder : base ++ name.folder = [] ∨ (base ++ name.folder).getLast? = some separator := by
    rcases name.getLast?_folder with hnil | hsep
    · simpa [hnil] using hbase
    · exact .inr (by rw [List.getLast?_append, hsep]; rfl)
  rw [hjoin name habs, ← folder_append_lastName name, ← List.append_assoc]
  exact folder_lastName_of_append hfolder name.separator_notMem_lastName

end Path

/-! ## Marks on last names -/

/-- The last name on `path` is marked for `shard` where it is cut for a mark, and nothing else
    is changed. -/
def Shard.MarksLast (shard : Shard) (path marked : Path) : Prop :=
  marked.folder = path.folder ∧ ∃ front back, path.lastName = front ++ back ∧
    CutForMark 0x2E front back ∧ marked.lastName = front ++ shard.mark ++ back

namespace Shard

variable (shard : Shard) (name : String)

theorem marksLast_fileName_iff :
    shard.MarksLast (.ofString name) (.ofString (shard.fileName name)) ↔
      0x2E ∈ (Path.ofString name).lastName.tail ∨ 0x2E ∉ (Path.ofString name).bytes.tail := by
  obtain ⟨front, back, hname, hcut, hbytes⟩ := exists_bytes_fileName name
  have hparts := (Path.ofString name).folder_append_lastName
  constructor
  · rintro ⟨hfolder, head, tail, hlast, hcut', hmarked⟩
    cases hcut' with
    | beforeDot hhead _ =>
      rw [hlast]
      exact .inl (CutForMark.mem_tail_append hhead List.mem_cons_self)
    | atEnd _ =>
      have hmarked' : front ++ shard.mark ++ back = front ++ back ++ shard.mark := by
        rw [← hbytes, ← Path.folder_append_lastName, hfolder, hmarked, List.append_nil,
          ← List.append_assoc, ← List.append_nil head, ← hlast, hparts, hname]
      obtain rfl := hcut.eq_nil_of_mark_atEnd shard.dot_notMem_mark shard.mark_ne_nil hmarked'
      cases hcut with
      | atEnd hdot => exact .inr (by rwa [hname, List.append_nil])
  · intro h
    obtain ⟨head, tail, hlast, hcut'⟩ :=
      CutForMark.exists_eq_append 0x2E (Path.ofString name).lastName
    rw [hlast, ← List.append_assoc] at hparts
    -- the cut of the last name is that of the whole name
    have hwhole : CutForMark 0x2E ((Path.ofString name).folder ++ head) tail := by
      cases hcut' with
      | beforeDot hhead hdot => exact .beforeDot (List.append_ne_nil_of_right_ne_nil _ hhead) hdot
      | atEnd hdot =>
        rw [List.append_nil] at hlast hparts
        exact .atEnd (hparts ▸ h.resolve_left (hlast ▸ hdot))
    obtain ⟨rfl, rfl⟩ := hcut.unique hwhole (hname.symm.trans hparts.symm)
    have hsep : Path.separator ∉ head ++ shard.mark ++ back := by
      have hlast' := (Path.ofString name).separator_notMem_lastName
      rw [hlast, List.mem_append, not_or] at hlast'
      simp [hlast', shard.separator_notMem_mark]
    have hmarked := Path.folder_lastName_of_append (Path.ofString name).getLast?_folder hsep
    rw [← List.append_assoc, ← List.append_assoc, ← hbytes] at hmarked
    exact ⟨hmarked.1, head, back, hlast, hcut', hmarked.2⟩

theorem folder_fileName_eq_iff :
    (Path.ofString (shard.fileName name)).folder = (Path.ofString name).folder ↔
      0x2E ∈ (Path.ofString name).lastName ∨ 0x2E ∉ (Path.ofString name).bytes.tail := by
  obtain ⟨front, back, hname, hcut, hbytes⟩ := exists_bytes_fileName name
  have hpath : Path.ofString name = ⟨front ++ back⟩ := congrArg Path.mk hname
  have hmarked : Path.ofString (shard.fileName name) = ⟨front ++ shard.mark ++ back⟩ :=
    congrArg Path.mk (hbytes shard)
  rw [hpath, hmarked]
  by_cases hsep : Path.separator ∈ back
  · have hfolder := (Path.folder_lastName_append_of_mem (front ++ shard.mark) hsep).1
    obtain ⟨hfolder', hlast⟩ := Path.folder_lastName_append_of_mem front hsep
    rw [hfolder, hfolder', hlast]
    cases hcut with
    | @beforeDot extension hfront hdot =>
      have hsep' : Path.separator ∈ extension := (List.mem_cons.1 hsep).resolve_left (by decide)
      have hextension := (Path.folder_lastName_append_of_mem [0x2E] hsep').2
      refine iff_of_false (fun heq => ?_) ?_
      · have hlength := congrArg List.length heq
        simp only [List.length_append, length_mark] at hlength
        omega
      · rw [not_or, not_not]
        refine ⟨fun hmem => ?_, CutForMark.mem_tail_append hfront List.mem_cons_self⟩
        have hlast' : 0x2E ∈ (Path.mk extension).lastName := hextension ▸ hmem
        exact hdot (Path.mem_of_mem_lastName hlast')
    | atEnd _ => cases hsep
  · have hsep' : Path.separator ∉ shard.mark ++ back := by simp [hsep, shard.separator_notMem_mark]
    have hfolder := (Path.folder_lastName_append front hsep').1
    obtain ⟨hfolder', hlast⟩ := Path.folder_lastName_append front hsep
    rw [List.append_assoc, hfolder, hfolder', hlast]
    refine iff_of_true rfl ?_
    cases hcut with
    | beforeDot _ _ => exact .inl (by simp)
    | atEnd hdot => exact .inr (by rwa [List.append_nil])

theorem exists_folder_path_eq (dir : Path) : ∃ base : List UInt8,
    ((dir.join (.ofString name)).folder = base ++ (Path.ofString name).folder ∧
      (dir.join (.ofString name)).lastName = (Path.ofString name).lastName) ∧
    (shard.path dir name).folder = base ++ (Path.ofString (shard.fileName name)).folder ∧
      (shard.path dir name).lastName = (Path.ofString (shard.fileName name)).lastName := by
  obtain ⟨base, hjoin⟩ := dir.exists_folder_join_eq (Path.ofString name).isAbsolute
  exact ⟨base, hjoin _ rfl, hjoin _ (shard.isAbsolute_fileName name)⟩

/-- **Where the files of the shards lie.**  A path that is made for a shard marks the last name
    on the path of the dump, and nothing else on it, exactly if a dot comes after the first
    character of that last name, or none after the first character of all that is configured:
    this is cut at its last dot, whatever separators come after it.  The folder stays the same
    also where the last dot leads the last name. -/
theorem path_marksLast_iff (dir : Path) :
    (shard.MarksLast (dir.join (.ofString name)) (shard.path dir name) ↔
      0x2E ∈ (Path.ofString name).lastName.tail ∨ 0x2E ∉ (Path.ofString name).bytes.tail) ∧
    ((shard.path dir name).folder = (dir.join (.ofString name)).folder ↔
      0x2E ∈ (Path.ofString name).lastName ∨ 0x2E ∉ (Path.ofString name).bytes.tail) := by
  obtain ⟨base, ⟨hfolder, hlast⟩, hfolder', hlast'⟩ := shard.exists_folder_path_eq name dir
  rw [← shard.marksLast_fileName_iff, ← shard.folder_fileName_eq_iff, MarksLast, MarksLast,
    hfolder, hlast, hfolder', hlast', List.append_right_inj]
  exact ⟨.rfl, .rfl⟩

/-- The folder of a version has a dot, and the file in it has none. -/
theorem path_leaves_folder :
    let dir : Path := .ofString "dump"
    let name := "v1.0/users"
    ((Path.ofString name).isAbsolute = false ∧
      (Path.ofString name).lastName = (Path.ofString "users").bytes) ∧
    one.path dir name = .ofString "dump/v1_shard1.0/users" ∧
    ¬ one.MarksLast (dir.join (.ofString name)) (one.path dir name) := by
  intro dir name
  refine ⟨by decide +kernel, by decide +kernel, fun h => ?_⟩
  exact absurd h.1 (by decide +kernel)

end Shard

/-! ## The files of a run -/

namespace DumpSet

variable {dumps : DumpSet}
  (hrelative : ∀ table, (Path.ofString (dumps.config.fileName table)).isAbsolute = false)
  (hnames : Function.Injective dumps.config.fileName)
include hrelative hnames

theorem output_inj {table table' : Table} {shard shard' : Shard}
    (h : dumps.output table shard = dumps.output table' shard') :
    table = table' ∧ shard = shard' := by
  have habs := (hrelative table).trans (hrelative table').symm
  obtain ⟨hname, hshard⟩ := Shard.path_inj habs h
  exact ⟨hnames hname, hshard⟩

theorem nodup_written_splitAll {disk after : Disk} {events : List Event} {summary : Summary}
    (h : dumps.splitAll.run disk = { disk := after, events, result := .ok summary }) :
    (dumps.splitAll.written disk).Nodup := by
  have hinj : Function.Injective fun file : Table × Shard => dumps.output file.1 file.2 :=
    fun file file' heq =>
      have := output_inj hrelative hnames heq
      Prod.ext this.1 this.2
  have hfiles : (Table.all.product Shard.all).Nodup := by decide
  rw [written_splitAll h]
  exact hfiles.map hinj

end DumpSet

/-- **The files of the shards do not collide.**  The path of one tells its name and its shard,
    among names that are all absolute or all relative, and is not that of the dump, so that a
    run with three relative names writes six files. -/
theorem DumpSet.outputs_keepApart :
    (∀ (dir : Path) (name name' : String) (shard shard' : Shard),
      (Path.ofString name).isAbsolute = (Path.ofString name').isAbsolute →
        (shard.path dir name = shard'.path dir name' ↔ name = name' ∧ shard = shard')) ∧
    (∀ (dir : Path) (name : String) (shard : Shard),
      shard.path dir name ≠ dir.join (.ofString name)) ∧
    ∀ dumps : DumpSet,
      (∀ table, (Path.ofString (dumps.config.fileName table)).isAbsolute = false) →
      Function.Injective dumps.config.fileName →
      (∀ table table' shard shard', dumps.output table shard = dumps.output table' shard' →
        table = table' ∧ shard = shard') ∧
      (∀ table shard, dumps.output table shard ≠ dumps.source table) ∧
      ∀ disk after events summary,
        dumps.splitAll.run disk = { disk := after, events, result := .ok summary } →
          (dumps.splitAll.written disk).Nodup ∧ (dumps.splitAll.written disk).length = 6 := by
  refine ⟨fun dir name name' shard shard' habs => ⟨Shard.path_inj habs, ?_⟩,
    fun dir name shard => shard.path_ne dir name, fun dumps hrelative hnames =>
      ⟨fun _ _ _ _ => output_inj hrelative hnames, fun _ shard => shard.path_ne _ _,
        fun disk after events summary hrun => ⟨nodup_written_splitAll hrelative hnames hrun, ?_⟩⟩⟩
  · rintro ⟨rfl, rfl⟩
    rfl
  · rw [written_splitAll hrun]
    rfl

/-- Names that a mark or a leading dot makes look alike. -/
theorem DumpSet.outputs_keepApart_marked :
    let user := "INSERT INTO u\n, , u, , , , , , , , \"Beijing\", ;"
    let disk := ((Disk.fresh.arrange (.ofString "user") (some user.toUTF8)).arrange
      (.ofString "user_shard1") (some "INSERT INTO a\n, , a, , , ;".toUTF8)).arrange
      (.ofString ".user") (some "INSERT INTO r\n, , u, , ;".toUTF8)
    let fileName : Table → String
      | .user => "user"
      | .article => "user_shard1"
      | .userRead => ".user"
    let dumps : DumpSet := { dir := .ofString "", config := { fileName } }
    (∀ table, (Path.ofString (dumps.config.fileName table)).isAbsolute = false) ∧
      Function.Injective dumps.config.fileName ∧
      Shard.one.path dumps.dir "user" ≠ Shard.two.path dumps.dir "user_shard1" ∧
      (dumps.splitAll.written disk).Nodup ∧ (dumps.splitAll.written disk).length = 6 := by
  intro user disk fileName dumps
  have hrelative : ∀ table, (Path.ofString (dumps.config.fileName table)).isAbsolute = false :=
    fun table => by cases table <;> decide
  have hnames : Function.Injective dumps.config.fileName := fun table table' h => by
    revert h; cases table <;> cases table' <;> decide
  obtain ⟨hpath, -, hdumps⟩ := outputs_keepApart
  obtain ⟨-, -, hruns⟩ := hdumps dumps hrelative hnames
  refine ⟨hrelative, hnames, fun h => ?_, ?_⟩
  · exact absurd ((hpath _ "user" "user_shard1" _ _ rfl).1 h).1 (by decide)
  · have hok : (dumps.splitAll.run disk).result.toOption.isSome := by decide +kernel
    rcases hrun : dumps.splitAll.run disk with ⟨after, events, failure | summary⟩
    · rw [hrun] at hok
      cases hok
    · exact hruns disk after events summary hrun

end DumpSplit
