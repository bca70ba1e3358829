/-
  The marks of the shards: where a name is cut for them, and that marked names tell which
  name they were made from and for which shard.
-/
import DumpSplit.DumpSet
import DumpSplit.Proofs.Lists
import DumpSplit.Proofs.Names

namespace DumpSplit

/-! ## Cuts -/

/-- How a name is cut for a mark: before its last dot, or at its end where no dot follows a
    first item. -/
inductive CutForMark {α : Type} (dot : α) : List α → List α → Prop
  | beforeDot {front extension} :
    front ≠ [] → dot ∉ extension → CutForMark dot front (dot :: extension)
  | atEnd {front} : dot ∉ front.tail → CutForMark dot front []

namespace CutForMark

variable {α : Type} {dot : α} {front back front' back' mark mark' : List α}

theorem notMem_tail (h : CutForMark dot front back) : dot ∉ back.tail := by
  cases h with
  | beforeDot _ hdot => exact hdot
  | atEnd _ => exact List.not_mem_nil

/-- Every name has a cut. -/
theorem exists_eq_append (dot : α) (name : List α) :
    ∃ front back, name = front ++ back ∧ CutForMark dot front back := by
  by_cases hmem : dot ∈ name.tail
  · obtain ⟨last, start, hreverse, hlast⟩ :=
      List.eq_append_cons_of_mem (List.mem_reverse.2 (List.mem_of_mem_tail hmem))
    have hname : name = start.reverse ++ dot :: last.reverse := by
      rw [← List.reverse_reverse name, hreverse]; simp
    refine ⟨_, _, hname, .beforeDot (fun hnil => ?_) (mt List.mem_reverse.1 hlast)⟩
    rw [hname, hnil] at hmem
    exact hlast (List.mem_reverse.1 hmem)
  · exact ⟨name, [], (List.append_nil name).symm, .atEnd hmem⟩

/-- There is no second last dot. -/
theorem last_dot_unique {extension extension' : List α} (hdot : dot ∉ extension)
    (hdot' : dot ∉ extension') (h : front ++ dot :: extension = front' ++ dot :: extension') :
    front = front' ∧ extension = extension' := by
  rcases List.append_eq_append_iff.1 h with ⟨_ | ⟨_, c⟩, rfl, hc⟩ | ⟨_ | ⟨_, c⟩, rfl, hc⟩
  · simpa using hc
  · simp [(List.cons.inj hc).2] at hdot
  · simpa [eq_comm] using hc
  · simp [(List.cons.inj hc).2] at hdot'

theorem mem_tail_append (hfront : front ≠ []) (h : dot ∈ back) : dot ∈ (front ++ back).tail := by
  rw [List.tail_append_of_ne_nil hfront]
  exact List.mem_append_right _ h

theorem notMem_tail_append (hfront : dot ∉ front.tail) (hback : dot ∉ back) :
    dot ∉ (front ++ back).tail := by
  cases front with
  | nil => exact mt List.mem_of_mem_tail hback
  | cons c rest => simpa using ⟨hfront, hback⟩

/-- A name cut before its last dot is never one cut at its end, also with their marks. -/
theorem beforeDot_ne_atEnd {extension : List α} (hfront : front ≠ []) (hdot : dot ∉ front'.tail)
    (hdot' : dot ∉ mark') : front ++ mark ++ dot :: extension ≠ front' ++ mark' := fun heq =>
  notMem_tail_append hdot hdot' <| heq ▸
    mem_tail_append (List.append_ne_nil_of_left_ne_nil hfront mark) List.mem_cons_self

/-- Marks of one length that have no dots leave it to be seen where a name was cut. -/
theorem append_inj (h : CutForMark dot front back) (h' : CutForMark dot front' back')
    (hdot : dot ∉ mark) (hdot' : dot ∉ mark') (hlength : mark.length = mark'.length)
    (heq : front ++ mark ++ back = front' ++ mark' ++ back') :
    front = front' ∧ mark = mark' ∧ back = back' := by
  cases h with
  | beforeDot hfront hext =>
    cases h' with
    | beforeDot _ hext' =>
      obtain ⟨hmarked, rfl⟩ := last_dot_unique hext hext' heq
      obtain ⟨rfl, rfl⟩ := List.append_inj' hmarked hlength
      exact ⟨rfl, rfl, rfl⟩
    | atEnd htail' =>
      rw [List.append_nil] at heq
      exact absurd heq (beforeDot_ne_atEnd hfront htail' hdot')
  | atEnd htail =>
    rw [List.append_nil] at heq
    cases h' with
    | beforeDot hfront' _ => exact absurd heq.symm (beforeDot_ne_atEnd hfront' htail hdot)
    | atEnd _ =>
      rw [List.append_nil] at heq
      obtain ⟨rfl, rfl⟩ := List.append_inj' heq hlength
      exact ⟨rfl, rfl, rfl⟩

/-- No name has two cuts. -/
theorem unique (h : CutForMark dot front back) (h' : CutForMark dot front' back')
    (heq : front ++ back = front' ++ back') : front = front' ∧ back = back' := by
  obtain ⟨hfront, -, hback⟩ :=
    h.append_inj h' List.not_mem_nil List.not_mem_nil rfl (by simpa using heq)
  exact ⟨hfront, hback⟩

/-- Only a name cut at its end has the mark at its end. -/
theorem eq_nil_of_mark_atEnd (h : CutForMark dot front back) (hdot : dot ∉ mark) (hne : mark ≠ [])
    (heq : front ++ mark ++ back = front ++ back ++ mark) : back = [] := by
  cases h with
  | beforeDot _ hext =>
    rw [List.append_assoc front (dot :: _), List.cons_append] at heq
    have hmarked := (last_dot_unique hext (by simp [hext, hdot]) heq).1
    exact absurd (List.append_right_eq_self.1 hmarked) hne
  | atEnd _ => rfl

end CutForMark

/-! ## Names of shard files -/

theorem splitExtension?_eq_some {name stem extension : List Char}
    (h : splitExtension? name = some (stem, extension)) :
    name = stem ++ '.' :: extension ∧ '.' ∉ extension := by
  rw [splitExtension?] at h
  split at h
  · cases h
  · rename_i before dot rest heq
    cases h
    obtain ⟨hname, hdot, hbefore⟩ := span_eq_cons_iff.1 heq
    obtain rfl : dot = '.' := by simpa using hdot
    refine ⟨?_, fun hmem => ?_⟩
    · rw [← List.reverse_reverse name, hname]; simp
    · simpa using hbefore _ (List.mem_reverse.1 hmem)

theorem notMem_of_splitExtension?_eq_none {name : List Char} (h : splitExtension? name = none) :
    '.' ∉ name := by
  rw [splitExtension?, List.span_eq_takeWhile_dropWhile] at h
  split at h
  · rename_i heq
    intro hmem
    simpa using List.dropWhile_eq_nil_iff.1 (Prod.mk.inj heq).2 _ (List.mem_reverse.2 hmem)
  · cases h

/-- The mark of a shard stands where the name is cut for it. -/
theorem Shard.exists_fileName_eq (name : String) :
    ∃ front back, name = front ++ back ∧ CutForMark '.' front.toList back.toList ∧
      ∀ shard : Shard, shard.fileName name = front ++ ("_" ++ shard.name) ++ back := by
  have hend (hfile : ∀ shard : Shard, shard.fileName name = name ++ "_" ++ shard.name)
      (hdot : '.' ∉ name.toList.tail) :
      ∃ front back, name = front ++ back ∧ CutForMark '.' front.toList back.toList ∧
        ∀ shard : Shard, shard.fileName name = front ++ ("_" ++ shard.name) ++ back :=
    ⟨name, "", by simp, .atEnd hdot, fun shard => by rw [hfile]; simp [String.append_assoc]⟩
  rcases hcut : splitExtension? name.toList with _ | ⟨_ | ⟨c, stem⟩, extension⟩
  · exact hend (fun shard => by rw [fileName, hcut])
      fun hmem => notMem_of_splitExtension?_eq_none hcut (List.mem_of_mem_tail hmem)
  · obtain ⟨hname, hdot⟩ := splitExtension?_eq_some hcut
    exact hend (fun shard => by rw [fileName, hcut]) (by simpa [hname] using hdot)
  · obtain ⟨hname, hdot⟩ := splitExtension?_eq_some hcut
    refine ⟨String.ofList (c :: stem), "." ++ String.ofList extension, ?_, ?_, fun shard => ?_⟩
    · rw [← String.toList_inj, hname]; simp
    · simpa using CutForMark.beforeDot (List.cons_ne_nil c stem) hdot
    · rw [fileName, hcut]; simp [String.append_assoc]

/-- What marks a shard in the names of its files. -/
def Shard.mark (shard : Shard) : List UInt8 := (Path.ofString ("_" ++ shard.name)).bytes

theorem Shard.mark_eq_cons (shard : Shard) : ∃ rest, shard.mark = 0x5F :: rest := by
  cases shard <;> exact ⟨_, rfl⟩

theorem Shard.mark_ne_nil (shard : Shard) : shard.mark ≠ [] := by
  cases shard <;> decide

theorem Shard.length_mark (shard : Shard) : shard.mark.length = 7 := by
  cases shard <;> rfl

theorem Shard.separator_notMem_mark (shard : Shard) : Path.separator ∉ shard.mark := by
  cases shard <;> decide

theorem Shard.dot_notMem_mark (shard : Shard) : 0x2E ∉ shard.mark := by
  cases shard <;> decide

theorem Shard.mark_injective : Function.Injective Shard.mark := by
  intro shard shard' h
  revert h; cases shard <;> cases shard' <;> decide

theorem CutForMark.ofString {front back : String}
    (h : CutForMark '.' front.toList back.toList) :
    CutForMark 0x2E (Path.ofString front).bytes (Path.ofString back).bytes := by
  generalize hback : back.toList = chars at h
  cases h with
  | beforeDot hfront hdot =>
    rename_i extension
    obtain rfl : back = "." ++ String.ofList extension := by
      rw [← String.toList_inj, hback]; simp
    rw [Path.bytes_ofString_append]
    refine .beforeDot (fun hnil => hfront ?_) fun hmem =>
      hdot (by simpa using Path.mem_of_dot_mem_bytes hmem)
    have : front = "" := Path.ofString_injective (congrArg Path.mk hnil)
    simp [this]
  | atEnd hdot =>
    obtain rfl : back = "" := by rw [← String.toList_inj, hback]; rfl
    exact .atEnd (mt Path.mem_tail_of_dot_mem_tail_bytes hdot)

theorem Shard.exists_bytes_fileName (name : String) : ∃ front back : List UInt8,
    (Path.ofString name).bytes = front ++ back ∧ CutForMark 0x2E front back ∧
      ∀ shard : Shard,
        (Path.ofString (shard.fileName name)).bytes = front ++ shard.mark ++ back := by
  obtain ⟨front, back, rfl, hcut, hname⟩ := exists_fileName_eq name
  refine ⟨_, _, Path.bytes_ofString_append _ _, hcut.ofString, fun shard => ?_⟩
  rw [hname, Path.bytes_ofString_append, Path.bytes_ofString_append, mark]

/-- The files of the shards differ from `name` and from each other in one name on their paths,
    which is made longer by the mark, and no name after it consists of dots. -/
theorem Shard.exists_names_fileName (name : String) : ∃ before head tail after,
    Path.separator ∉ head ++ tail ∧ (∀ part ∈ after, 0x2E ∉ part) ∧
      (Path.ofString name).names = before ++ (Path.mk (head ++ tail)).names ++ after ∧
      ∀ shard : Shard, (Path.ofString (shard.fileName name)).names =
        before ++ (head ++ shard.mark ++ tail) :: after := by
  obtain ⟨front, back, hname, hcut, hbytes⟩ := exists_bytes_fileName name
  obtain ⟨before, head, tail, after, hsep, hafter, hnames⟩ := Path.exists_names_around front back
  refine ⟨before, head, tail, after, hsep,
    fun part hpart hmem => hcut.notMem_tail (hafter part hpart _ hmem), ?_, fun shard => ?_⟩
  · have hplain := hnames []
    rw [List.append_nil, List.append_nil, ← hname] at hplain
    exact hplain
  · obtain ⟨rest, hmark⟩ := shard.mark_eq_cons
    have hpart : Path.separator ∉ head ++ shard.mark ++ tail := by
      have hmark := shard.separator_notMem_mark
      simp_all
    have hmarked := hnames shard.mark
    rw [← hbytes, Path.names_of_notMem hpart (by simp [hmark])] at hmarked
    simpa using hmarked

/-- The file of a shard has an absolute name if the dump does. -/
theorem Shard.isAbsolute_fileName (shard : Shard) (name : String) :
    (Path.ofString (shard.fileName name)).isAbsolute = (Path.ofString name).isAbsolute := by
  obtain ⟨front, back, hname, hcut, hbytes⟩ := exists_bytes_fileName name
  obtain ⟨rest, hmark⟩ := shard.mark_eq_cons
  rw [Path.isAbsolute, Path.isAbsolute, hbytes, hname, hmark]
  cases front with
  | cons b front => rfl
  | nil =>
    cases hcut with
    | beforeDot hfront _ => exact absurd rfl hfront
    | atEnd _ => rfl

/-! ## Paths of shard files -/

variable {dir : Path} {name name' : String} {shard shard' : Shard}

theorem Shard.fileName_inj (h : shard.fileName name = shard'.fileName name') :
    name = name' ∧ shard = shard' := by
  obtain ⟨front, back, hname, hcut, hbytes⟩ := exists_bytes_fileName name
  obtain ⟨front', back', hname', hcut', hbytes'⟩ := exists_bytes_fileName name'
  have heq : front ++ shard.mark ++ back = front' ++ shard'.mark ++ back' := by
    rw [← hbytes, ← hbytes', h]
  obtain ⟨rfl, hmark, rfl⟩ := hcut.append_inj hcut' shard.dot_notMem_mark shard'.dot_notMem_mark
    (by rw [length_mark, length_mark]) heq
  exact ⟨Path.ofString_injective (congrArg Path.mk (hname.trans hname'.symm)),
    mark_injective hmark⟩

theorem Shard.fileName_ne (shard : Shard) (name : String) : shard.fileName name ≠ name := by
  intro h
  obtain ⟨front, back, hname, -, hbytes⟩ := exists_bytes_fileName name
  have hlength := congrArg List.length (hbytes shard)
  rw [h, hname] at hlength
  simp only [List.length_append, length_mark] at hlength
  omega

/-- The path of a shard tells its name and its shard, among names that are all absolute or all
    relative. -/
theorem Shard.path_inj
    (habs : (Path.ofString name).isAbsolute = (Path.ofString name').isAbsolute)
    (h : shard.path dir name = shard'.path dir name') : name = name' ∧ shard = shard' := by
  have habs' : (Path.ofString (shard.fileName name)).isAbsolute =
      (Path.ofString (shard'.fileName name')).isAbsolute := by
    rw [isAbsolute_fileName, isAbsolute_fileName, habs]
  exact fileName_inj (Path.ofString_injective (Path.eq_of_join_eq habs' h))

/-- The path of a shard is not that of its dump. -/
theorem Shard.path_ne (shard : Shard) (dir : Path) (name : String) :
    shard.path dir name ≠ dir.join (.ofString name) := fun h =>
  shard.fileName_ne name
    (Path.ofString_injective (Path.eq_of_join_eq (shard.isAbsolute_fileName name) h))

end DumpSplit
