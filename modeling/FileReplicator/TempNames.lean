import FileReplicator.KeyMapping
import FileReplicator.TempUpload

/-!
# Names of temp files

The hidden file an sftp or ftps upload goes to stands beside the file it is for,
under a name that is the suffix away from it. Another item may have that name.
-/

namespace FileReplicator.TempNames

open KeyMapping ObjectPath Paths TempUpload

/-- What stands before a file name: nothing, or a directory and its separator. -/
def IsDir (dir : List Char) : Prop := dir = [] ∨ ∃ path, path ≠ [] ∧ dir = path ++ ['/']

/-- The second relpath is the first one with its file name hidden and the suffix behind it. -/
def Hides (suffix first second : String) : Prop :=
  ∃ dir name, IsDir dir ∧ '/' ∉ name ∧ first.toList = dir ++ name ∧
    second.toList = dir ++ '.' :: name ++ suffix.toList

/-- Distinct items have distinct temp files, and none of these is the published file of an item. -/
def Apart (dest : TempDest) (items : String → Prop) : Prop :=
  ∀ first second, items first → items second →
    (first ≠ second → dest.temp first ≠ dest.temp second) ∧ dest.temp first ≠ dest.remote second

theorem last_segment (dir name : List Char) (isDir : IsDir dir) (plain : '/' ∉ name) :
    ((dir ++ name).reverse.takeWhile (· ≠ '/')).reverse = name := by
  have all : ∀ c ∈ name.reverse, decide (c ≠ '/') = true := by
    intro c member
    refine decide_eq_true fun slash => plain ?_
    rw [← slash]
    exact List.mem_reverse.mp member
  rw [List.reverse_append, List.takeWhile_append_of_pos all]
  rcases isDir with rfl | ⟨path, _, rfl⟩
  · simp
  · simp

theorem temp_path_of (dir name : List Char) (suffix : String) (isDir : IsDir dir)
    (plain : '/' ∉ name) :
    (tempPathOf (String.ofList (dir ++ name)) suffix).toList =
      dir ++ '.' :: name ++ suffix.toList := by
  have last := last_segment dir name isDir plain
  unfold tempPathOf
  simp only [String.toList_ofList, last]
  rcases isDir with rfl | ⟨path, some, rfl⟩
  · simp
  · have front : (path ++ ['/'] ++ name).take ((path ++ ['/'] ++ name).length - (name.length + 1)) =
        path := by
      rw [List.append_assoc, show (path ++ (['/'] ++ name)).length - (name.length + 1) = path.length by
        simp, List.take_left]
    rw [front, if_neg some]
    simp

theorem dir_name_unique (dir dir' name name' : List Char) (isDir : IsDir dir) (isDir' : IsDir dir')
    (plain : '/' ∉ name) (plain' : '/' ∉ name') (same : dir ++ name = dir' ++ name') :
    dir = dir' ∧ name = name' := by
  have names : name = name' := by
    rw [← last_segment dir name isDir plain, same, last_segment dir' name' isDir' plain']
  subst names
  exact ⟨List.append_cancel_right same, rfl⟩

theorem proper_parts (relpath : String) (proper : IsProper relpath) :
    ∃ dir name, IsDir dir ∧ '/' ∉ name ∧ relpath.toList = dir ++ name := by
  by_cases slash : '/' ∈ relpath.toList
  · obtain ⟨after, before, parts, plain⟩ :=
      List.eq_append_cons_of_mem (List.mem_reverse.mpr slash)
    have whole : relpath.toList = before.reverse ++ '/' :: after.reverse := by
      rw [← List.reverse_reverse relpath.toList, parts]
      simp
    refine ⟨before.reverse ++ ['/'], after.reverse, Or.inr ⟨before.reverse, fun empty => ?_, rfl⟩,
      fun member => plain (List.mem_reverse.mp member), by rw [whole]; simp⟩
    rw [empty, List.nil_append] at whole
    have first : [] ∈ relpath.toList.splitOn '/' := by
      rw [whole, List.splitOn_cons_eq_if_modifyHead, if_pos (beq_self_eq_true _)]
      exact List.mem_cons_self
    exact (proper [] first).1 rfl
  · exact ⟨[], relpath.toList, Or.inl rfl, slash, rfl⟩

/-! ## Below a base directory -/

/-- What stands before the relpath in a remote path. -/
def front (dest : TempDest) : List Char :=
  if trimMatches '/' dest.baseDir.toList = [] then []
  else trimMatches '/' dest.baseDir.toList ++ ['/']

theorem remote_eq (dest : TempDest) (relpath : String) (proper : IsProper relpath) :
    (dest.remote relpath).toList = front dest ++ relpath.toList := by
  have joined := joined_of_proper relpath proper
  have some : relpath.toList ≠ [] := by
    intro empty
    exact (proper [] (by rw [empty, List.splitOn_nil]; exact List.mem_singleton.mpr rfl)).1 rfl
  simp only [TempDest.remote, objectKey, String.toList_ofList, joined, front, if_neg some]
  split
  · rfl
  · simp

theorem front_dir (dest : TempDest) (dir : List Char) (isDir : IsDir dir) :
    IsDir (front dest ++ dir) := by
  unfold front
  split
  · exact isDir
  · rename_i some
    rcases isDir with rfl | ⟨path, _, rfl⟩
    · exact Or.inr ⟨_, some, by simp⟩
    · refine Or.inr ⟨trimMatches '/' dest.baseDir.toList ++ '/' :: path, by simp, by simp⟩

theorem temp_eq (dest : TempDest) (relpath : String) (proper : IsProper relpath)
    (dir name : List Char) (isDir : IsDir dir) (plain : '/' ∉ name)
    (parts : relpath.toList = dir ++ name) :
    (dest.temp relpath).toList = front dest ++ dir ++ '.' :: name ++ dest.tempSuffix.toList := by
  have remote : dest.remote relpath = String.ofList (front dest ++ dir ++ name) := by
    rw [← String.toList_inj, remote_eq dest relpath proper, parts, String.toList_ofList,
      List.append_assoc]
  rw [TempDest.temp, remote]
  exact temp_path_of (front dest ++ dir) name dest.tempSuffix (front_dir dest dir isDir) plain

theorem temps_distinct (dest : TempDest) (first second : String) (properFirst : IsProper first)
    (properSecond : IsProper second) (same : dest.temp first = dest.temp second) :
    first = second := by
  obtain ⟨dir, name, isDir, plain, parts⟩ := proper_parts first properFirst
  obtain ⟨dir', name', isDir', plain', parts'⟩ := proper_parts second properSecond
  have temps := congrArg String.toList same
  rw [temp_eq dest first properFirst dir name isDir plain parts,
    temp_eq dest second properSecond dir' name' isDir' plain' parts'] at temps
  -- both end in the suffix, and the file name is what follows the last slash
  have hidden : front dest ++ dir ++ '.' :: name = front dest ++ dir' ++ '.' :: name' :=
    List.append_cancel_right temps
  obtain ⟨dirs, names⟩ := dir_name_unique _ _ _ _ (front_dir dest dir isDir)
    (front_dir dest dir' isDir') (by simpa using plain) (by simpa using plain') hidden
  rw [← String.toList_inj, parts, parts', List.append_cancel_left dirs, (List.cons.inj names).2]

/-- A temp file is the published file of an item exactly if the item's name hides the other's. -/
theorem temp_published_iff (dest : TempDest) (first second : String) (properFirst : IsProper first)
    (properSecond : IsProper second) :
    dest.temp first = dest.remote second ↔ Hides dest.tempSuffix first second := by
  rw [← String.toList_inj, remote_eq dest second properSecond]
  constructor
  · intro same
    obtain ⟨dir, name, isDir, plain, parts⟩ := proper_parts first properFirst
    rw [temp_eq dest first properFirst dir name isDir plain parts] at same
    refine ⟨dir, name, isDir, plain, parts, ?_⟩
    rw [List.append_assoc, List.append_assoc] at same
    rw [← List.append_cancel_left same, List.append_assoc]
  · rintro ⟨dir, name, isDir, plain, parts, hidden⟩
    rw [temp_eq dest first properFirst dir name isDir plain parts, hidden]
    simp

/-- The temp files of an instance are apart from each other and from what is published, unless the
name of an item is the hidden name of another. -/
theorem temps_apart_iff (dest : TempDest) (items : String → Prop)
    (proper : ∀ relpath, items relpath → IsProper relpath) :
    Apart dest items ↔
      ∀ first second, items first → items second → ¬Hides dest.tempSuffix first second := by
  constructor
  · intro apart first second isFirst isSecond hides
    exact (apart first second isFirst isSecond).2
      ((temp_published_iff dest first second (proper _ isFirst) (proper _ isSecond)).mpr hides)
  · intro plain first second isFirst isSecond
    refine ⟨fun distinct same => distinct ?_, fun same => plain first second isFirst isSecond ?_⟩
    · exact temps_distinct dest first second (proper _ isFirst) (proper _ isSecond) same
    · exact (temp_published_iff dest first second (proper _ isFirst) (proper _ isSecond)).mp same

/-- An item that is itself called as the temp file of another. -/
def hiddenItems (relpath : String) : Prop := relpath = "a" ∨ relpath = ".a.part"

def partDest : TempDest := ⟨"", ".part", .crc32c⟩

theorem hidden_items_proper (relpath : String) (item : hiddenItems relpath) : IsProper relpath := by
  rcases item with rfl | rfl
  · decide
  · decide

theorem hidden_items_collide :
    ¬Apart partDest hiddenItems := fun apart =>
  absurd ((temps_apart_iff partDest hiddenItems hidden_items_proper).mp apart "a" ".a.part"
    (Or.inl rfl) (Or.inr rfl)) (not_not.mpr ⟨[], ['a'], Or.inl rfl, by decide, rfl, rfl⟩)

theorem temp_overwrites :
    ¬∀ (dest : TempDest) (items : String → Prop), (∀ relpath, items relpath → IsProper relpath) →
      Apart dest items := fun all =>
  (all partDest hiddenItems hidden_items_proper "a" ".a.part" (Or.inl rfl) (Or.inr rfl)).2
    (by decide)

end FileReplicator.TempNames
