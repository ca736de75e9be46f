import FileReplicator.Scan

/-!
# Loop prevention

The directories an instance writes to are left out of its scans. They are
recognised by the components of their paths as they are configured; what a path
denotes is another matter. The configured paths decide where the two agree.
-/

namespace FileReplicator.LoopPrevention

open Paths Scan

/-- What `build_with_dests` makes the scanner from. -/
structure Config where
  root : String
  recursive : Bool
  select : String → Bool
  archiveDir : Option String
  failedDir : Option String
  localEgress : List String

namespace Config

variable (cfg : Config)

def ownDirs : List String := cfg.archiveDir.toList ++ cfg.failedDir.toList ++ cfg.localEgress

def skip : List String :=
  cfg.archiveDir.toList ++ cfg.failedDir.toList ++ cfg.localEgress.filter fun path =>
    startsWith (ofText path.toList) (ofText cfg.root.toList)

def scanner : Scanner := ⟨cfg.root, cfg.recursive, cfg.select, cfg.skip⟩

end Config

/-! ## What a path denotes -/

def enter (dir : List ByteArray) : Component ByteArray → List ByteArray
  | .rootDir => []
  | .curDir => dir
  | .parentDir => dir.dropLast
  | .normal name => dir ++ [name]

/-- The directory or the file, from the root of the file system. -/
def denoted (cwd : List ByteArray) (path : OsPath) : List ByteArray := path.foldl enter cwd

def bytes (names : List Name) : List ByteArray := names.map Name.bytes

theorem denoted_append (cwd : List ByteArray) (path : OsPath) (names : List Name) :
    denoted cwd (path ++ ofNames names) = denoted cwd path ++ bytes names := by
  rw [denoted, List.foldl_append]
  change List.foldl enter (denoted cwd path) (ofNames names) = _
  generalize denoted cwd path = dir
  induction names generalizing dir with
  | nil => simp [ofNames, bytes]
  | cons name rest ih =>
      have later := ih (dir ++ [name.bytes])
      simp only [ofNames, bytes, List.map_cons, List.foldl_cons, enter] at later ⊢
      rw [later]
      simp

section Scans

variable (cwd : List ByteArray) (cfg : Config)

def location (names : List Name) : List ByteArray := denoted cwd (cfg.scanner.path names)

def dirOf (dir : String) : List ByteArray := denoted cwd (ofText dir.toList)

/-- The file lies in one of the directories the instance writes to. -/
def IsOwn (names : List Name) : Prop :=
  ∃ dir ∈ cfg.ownDirs, dirOf cwd dir <+: location cwd cfg names ∧ dirOf cwd dir ≠ location cwd cfg names

/-- The walk comes to the file, the filters let it pass, and it is not itself one of the
directories. -/
def InWalk (names : List Name) : Prop :=
  cfg.scanner.reaches names = true ∧ relpathOf names ≠ "" ∧ cfg.select (relpathOf names) = true ∧
    ∀ dir ∈ cfg.ownDirs, dirOf cwd dir ≠ location cwd cfg names

/-- A scan returns the files of the walk, without those in the instance's own directories. -/
def Prevents (root : Dir) : Prop :=
  ∀ file ∈ root.files [], InWalk cwd cfg file.1 →
    ((∃ c ∈ (cfg.scanner.scan root).1, c.abs = cfg.scanner.path file.1) ↔ ¬IsOwn cwd cfg file.1)

/-- One of the directories is the root and these names, or the root lies in one. -/
def Denoted (names : List Name) : Prop :=
  ∃ dir ∈ cfg.ownDirs, dirOf cwd dir = location cwd cfg names ∨
    names = [] ∧ dirOf cwd dir <+: dirOf cwd cfg.root

/-- One of the directories is spelled as the root is and these names, or the root's spelling starts
with the archive's or the failed directory's. -/
def Spelled (names : List Name) : Prop :=
  (∃ dir ∈ cfg.ownDirs, ofText dir.toList = cfg.scanner.path names) ∨
    names = [] ∧ ∃ dir ∈ cfg.archiveDir.toList ++ cfg.failedDir.toList,
      startsWith (ofText cfg.root.toList) (ofText dir.toList) = true

/-- A directory that the walk can come to lies at or below one that is spelled from the root on; and
where the root's spelling starts with a directory's, the root lies in one. -/
structure Recognised : Prop where
  spelled : ∀ names, cfg.recursive = true ∨ names = [] → Denoted cwd cfg names →
    ∃ front, front <+: names ∧ Spelled cfg front
  inside : Spelled cfg [] → Denoted cwd cfg []

def chain : List Name → Listing
  | [] => .nil
  | [name] => .entry name (.file none) .nil
  | name :: rest => .dir name (chain rest) .nil

theorem chain_files (path names : List Name) (some : names ≠ []) :
    (chain names).files path = [(path ++ names, none)] := by
  induction names generalizing path with
  | nil => exact absurd rfl some
  | cons name rest ih =>
      cases rest with
      | nil => rfl
      | cons next rest =>
          rw [chain, Listing.files, ih (path ++ [name]) (List.cons_ne_nil _ _)]
          · simp [Listing.files]
          · exact List.cons_ne_nil _ _

theorem chain_distinct (names : List Name) : (chain names).Distinct := by
  induction names with
  | nil => trivial
  | cons name rest ih =>
      cases rest with
      | nil => exact ⟨List.not_mem_nil, trivial⟩
      | cons next rest => exact ⟨List.not_mem_nil, ih, trivial⟩

theorem returned_iff (root : Dir) (file : List Name × Option (Nat × Int))
    (member : file ∈ root.files []) (inWalk : InWalk cwd cfg file.1) :
    (∃ c ∈ (cfg.scanner.scan root).1, c.abs = cfg.scanner.path file.1) ↔
      cfg.scanner.pruned file.1 = false := by
  obtain ⟨reached, some, selected, _⟩ := inWalk
  constructor
  · rintro ⟨c, found, abs⟩
    obtain ⟨other, _, taken⟩ := (cfg.scanner.mem_scan_iff root c).mp found
    obtain ⟨⟨_, kept⟩, _, _, rfl⟩ := (cfg.scanner.take_iff other c).mp taken
    have same : cfg.scanner.path other.1 = cfg.scanner.path file.1 := abs
    rw [Scanner.pruned] at kept ⊢
    rw [← same]
    exact kept
  · intro kept
    exact ⟨_, (cfg.scanner.mem_scan_iff root _).mpr
      ⟨file, member, (cfg.scanner.take_iff file _).mpr ⟨⟨reached, kept⟩, some, selected, rfl⟩⟩, rfl⟩

theorem location_append (names more : List Name) :
    location cwd cfg (names ++ more) = location cwd cfg names ++ bytes more := by
  rw [location, Scanner.path, denoted_append, location, Scanner.path, denoted_append, bytes, bytes,
    bytes, List.map_append, List.append_assoc]

theorem denoted_of_spelled (names : List Name) (some : names ≠ []) (spelled : Spelled cfg names) :
    Denoted cwd cfg names := by
  obtain ⟨dir, member, same⟩ := spelled.resolve_right fun root => some root.1
  refine ⟨dir, member, Or.inl ?_⟩
  rw [dirOf, same]
  rfl

theorem prefix_of_names (names : List Name) (front : OsPath) (before : front <+: ofNames names) :
    ∃ first, first <+: names ∧ front = ofNames first := by
  obtain ⟨rest, split⟩ := before
  refine ⟨names.take front.length, List.take_prefix _ _, ?_⟩
  rw [ofNames, List.map_take, ← ofNames, ← split, List.take_left]

theorem pruned_iff (names : List Name) :
    cfg.scanner.pruned names = true ↔ ∃ front, front <+: names ∧ Spelled cfg front := by
  constructor
  · intro pruned
    obtain ⟨dir, member, starting⟩ := List.any_eq_true.mp pruned
    have before : ofText dir.toList <+: ofText cfg.root.toList ++ ofNames names :=
      List.isPrefixOf_iff_prefix.mp starting
    rcases List.mem_append.mp member with kept | egress
    · have isOwn : dir ∈ cfg.ownDirs := List.mem_append_left _ kept
      rcases List.prefix_or_prefix_of_prefix before (List.prefix_append _ _) with above | ⟨below, same⟩
      · exact ⟨[], List.nil_prefix,
          Or.inr ⟨rfl, dir, kept, List.isPrefixOf_iff_prefix.mpr above⟩⟩
      · rw [← same, List.prefix_append_right_inj] at before
        obtain ⟨front, first, rfl⟩ := prefix_of_names names below before
        exact ⟨front, first, Or.inl ⟨dir, isOwn, same.symm⟩⟩
    · obtain ⟨inEgress, under⟩ := List.mem_filter.mp egress
      have isOwn : dir ∈ cfg.ownDirs := List.mem_append_right _ inEgress
      obtain ⟨below, same⟩ := List.isPrefixOf_iff_prefix.mp under
      rw [← same, List.prefix_append_right_inj] at before
      obtain ⟨front, first, rfl⟩ := prefix_of_names names below before
      exact ⟨front, first, Or.inl ⟨dir, isOwn, same.symm⟩⟩
  · rintro ⟨front, ⟨rest, rfl⟩, ⟨dir, isOwn, same⟩ | ⟨rfl, dir, kept, above⟩⟩
    · have under : startsWith (ofText dir.toList) (ofText cfg.root.toList) = true := by
        rw [same]
        exact List.isPrefixOf_iff_prefix.mpr (List.prefix_append _ _)
      have skipped : dir ∈ cfg.skip := by
        rcases List.mem_append.mp isOwn with kept | egress
        · exact List.mem_append_left _ kept
        · exact List.mem_append_right _ (List.mem_filter.mpr ⟨egress, under⟩)
      refine List.any_eq_true.mpr ⟨dir, skipped, List.isPrefixOf_iff_prefix.mpr ?_⟩
      rw [same, Scanner.path, Scanner.path, ofNames, ofNames, List.map_append, ← List.append_assoc]
      exact List.prefix_append _ _
    · refine List.any_eq_true.mpr ⟨dir, List.mem_append_left _ kept, ?_⟩
      exact List.isPrefixOf_iff_prefix.mpr
        ((List.isPrefixOf_iff_prefix.mp above).trans (List.prefix_append _ _))

/-- What lies in the instance's directories lies below what they denote from the root on. -/
theorem is_own_iff (names : List Name) (apart : ∀ dir ∈ cfg.ownDirs,
      dirOf cwd dir ≠ location cwd cfg names) :
    IsOwn cwd cfg names ↔ ∃ front, front <+: names ∧ Denoted cwd cfg front := by
  have whole : location cwd cfg names = dirOf cwd cfg.root ++ bytes names := by
    rw [location, Scanner.path, denoted_append]
    rfl
  constructor
  · rintro ⟨dir, isOwn, before, _⟩
    rw [whole] at before
    rcases List.prefix_or_prefix_of_prefix before (List.prefix_append _ _) with above | ⟨below, same⟩
    · exact ⟨[], List.nil_prefix, dir, isOwn, Or.inr ⟨rfl, above⟩⟩
    · rw [← same, List.prefix_append_right_inj] at before
      obtain ⟨rest, split⟩ := before
      refine ⟨names.take below.length, List.take_prefix _ _, dir, isOwn, Or.inl ?_⟩
      rw [← same, location, Scanner.path, denoted_append, bytes, List.map_take, ← bytes, ← split,
        List.take_left]
      rfl
  · rintro ⟨front, ⟨rest, rfl⟩, dir, isOwn, same | ⟨rfl, above⟩⟩
    · refine ⟨dir, isOwn, ?_, apart dir isOwn⟩
      rw [same, location_append]
      exact List.prefix_append _ _
    · refine ⟨dir, isOwn, ?_, apart dir isOwn⟩
      rw [whole]
      exact above.trans (List.prefix_append _ _)

/-! ## A file beside the directories -/

/-- A name of `n + 1` letters. -/
def letters (n : Nat) : String := String.ofList (List.replicate (n + 1) 'a')

theorem letters_legal (n : Nat) : IsLegal (letters n).toByteArray := by
  have apart : ∀ other : String, letters n ≠ other →
      (letters n).toByteArray ≠ other.toByteArray := by
    intro other differs same
    exact differs (String.toByteArray_inj.mp same)
  have only : ∀ byte ∈ (letters n).toByteArray.data.toList, byte = 97 := by
    intro byte member
    rw [← String.utf8Encode_toList] at member
    simp only [List.utf8Encode, List.data_toByteArray, List.mem_flatMap] at member
    obtain ⟨letter, inside, encoded⟩ := member
    rw [letters, String.toList_ofList] at inside
    have single : String.utf8EncodeChar 'a' = [97] := by decide
    rw [List.eq_of_mem_replicate inside, single] at encoded
    exact List.mem_singleton.mp encoded
  have first : ∀ other : String, (∀ letter ∈ other.toList, letter ≠ 'a') → letters n ≠ other := by
    intro other none same
    refine none 'a' ?_ rfl
    rw [← same, letters, String.toList_ofList]
    exact List.mem_replicate.mpr ⟨by omega, rfl⟩
  refine ⟨apart "" (first "" (by simp)), apart "." (first "." (by simp)),
    apart ".." (first ".." (by simp)), fun member => ?_, fun member => ?_⟩
  · exact absurd (only 47 member) (by decide)
  · exact absurd (only 0 member) (by decide)

def spare (n : Nat) : Name := ⟨(letters n).toByteArray, letters_legal n⟩

theorem spare_str (n : Nat) : (spare n).toStr = some (letters n) := by
  exact dif_pos (letters n).isValidUTF8

theorem spare_injective (a b : Nat) (same : (spare a).bytes = (spare b).bytes) : a = b := by
  have texts : letters a = letters b := String.toByteArray_inj.mp same
  have lengths := congrArg (fun text => text.toList.length) texts
  simp only [letters, String.toList_ofList, List.length_replicate] at lengths
  omega

theorem spare_relpath (names : List Name) (n : Nat) : relpathOf (names ++ [spare n]) ≠ "" := by
  intro none
  have empty := congrArg String.toList none
  rw [relpathOf, String.toList_ofList] at empty
  have nothing := (KeyMapping.joined_eq_nil_iff _ (by
    intro text member
    obtain ⟨decoded, inside, rfl⟩ := List.mem_map.mp member
    obtain ⟨name, _, decodes⟩ := List.mem_filterMap.mp inside
    exact is_name_of_str name decoded decodes)).mp empty
  simp [spare_str] at nothing

theorem spare_path (names : List Name) :
    ∃ n, ∀ dir ∈ cfg.ownDirs, dirOf cwd dir ≠ location cwd cfg (names ++ [spare n]) := by
  have injective : Function.Injective fun n => location cwd cfg (names ++ [spare n]) := by
    intro a b same
    simp only [location_append, List.append_cancel_left_eq] at same
    exact spare_injective a b (List.cons.inj same).1
  obtain ⟨n, fresh⟩ := Infinite.exists_notMem_finset
    ((cfg.ownDirs.map (dirOf cwd)).toFinset.preimage _ injective.injOn)
  refine ⟨n, fun dir member same => fresh ?_⟩
  rw [Finset.mem_preimage, List.mem_toFinset]
  exact List.mem_map.mpr ⟨dir, member, same⟩

theorem below_spare (holds : List Name → Prop) (names : List Name) (n : Nat)
    (notWhole : ¬holds (names ++ [spare n])) :
    (∃ front, front <+: names ++ [spare n] ∧ holds front) ↔ ∃ front, front <+: names ∧ holds front := by
  refine exists_congr fun front => and_congr_left fun here => ?_
  rw [List.prefix_concat_iff]
  exact or_iff_right fun same => notWhole (same ▸ here)

theorem agree_of_prevents (names : List Name) (reached : cfg.recursive = true ∨ names = [])
    (prevents : ∀ root : Dir, root.Distinct → Prevents cwd { cfg with select := fun _ => true } root) :
    (∃ front, front <+: names ∧ Spelled cfg front) ↔
      ∃ front, front <+: names ∧ Denoted cwd cfg front := by
  obtain ⟨n, apart⟩ := spare_path cwd cfg names
  have some : names ++ [spare n] ≠ [] := by simp
  have inWalk : InWalk cwd { cfg with select := fun _ => true } (names ++ [spare n]) := by
    refine ⟨?_, spare_relpath names n, rfl, apart⟩
    rcases reached with recursive | rfl
    · exact Bool.or_eq_true_iff.mpr (Or.inl recursive)
    · exact Bool.or_eq_true_iff.mpr (Or.inr rfl)
  have files : (Dir.files [] (.ok (chain (names ++ [spare n])))) = [(names ++ [spare n], none)] :=
    chain_files [] _ some
  have member : (names ++ [spare n], none) ∈ Dir.files [] (.ok (chain (names ++ [spare n]))) := by
    rw [files]
    exact List.mem_singleton.mpr rfl
  have returned := prevents (.ok (chain (names ++ [spare n]))) (chain_distinct _) _ member inWalk
  rw [returned_iff cwd _ _ _ member inWalk, ← Bool.not_eq_true, not_iff_not, pruned_iff,
    is_own_iff cwd { cfg with select := fun _ => true } (names ++ [spare n]) apart] at returned
  have noDenoted : ¬Denoted cwd cfg (names ++ [spare n]) := by
    rintro ⟨dir, isOwn, same | root⟩
    · exact apart dir isOwn same
    · exact some root.1
  have noSpelled : ¬Spelled cfg (names ++ [spare n]) := fun spelled =>
    noDenoted (denoted_of_spelled cwd cfg _ some spelled)
  rw [← below_spare _ names n noSpelled, ← below_spare _ names n noDenoted]
  exact returned

theorem prevents_of_recognised (recognised : Recognised cwd cfg) (root : Dir) :
    Prevents cwd cfg root := by
  intro file member inWalk
  have ⟨reached, _, _, apart⟩ := inWalk
  rw [returned_iff cwd cfg root file member inWalk, ← Bool.not_eq_true, not_iff_not, pruned_iff,
    is_own_iff cwd cfg file.1 apart]
  constructor
  · rintro ⟨front, first, spelled⟩
    by_cases top : front = []
    · exact ⟨[], List.nil_prefix, recognised.inside (top ▸ spelled)⟩
    · exact ⟨front, first, denoted_of_spelled cwd cfg front top spelled⟩
  · rintro ⟨front, first, denoted⟩
    have walked : cfg.recursive = true ∨ front = [] := by
      rcases Bool.or_eq_true_iff.mp reached with recursive | single
      · exact Or.inl recursive
      · -- the file is in the root, and none of the directories is the file
        refine Or.inr (List.eq_nil_iff_length_eq_zero.mpr ?_)
        have one : file.1.length = 1 := of_decide_eq_true single
        have short := first.length_le
        by_contra whole
        have same : front = file.1 := first.eq_of_length (by omega)
        subst same
        obtain ⟨dir, isOwn, same | root⟩ := denoted
        · exact apart dir isOwn same
        · exact whole (List.eq_nil_iff_length_eq_zero.mp root.1)
    obtain ⟨before, start, spelled⟩ := recognised.spelled front walked denoted
    exact ⟨before, start.trans first, spelled⟩

/-- An absolute path without `.` and `..`. -/
def IsPlain (path : String) : Prop :=
  ofText path.toList = .rootDir :: (dirOf [] path).map .normal

theorem plain_dir (path : String) (plain : IsPlain path) : dirOf cwd path = dirOf [] path := by
  rw [dirOf, plain]
  exact (congrArg (denoted []) plain).symm

theorem plain_prefix_iff (path base : String) (plain : IsPlain path) (plainBase : IsPlain base)
    (names : List Name) :
    startsWith (ofText path.toList ++ ofNames names) (ofText base.toList) = true ↔
      dirOf [] base <+: dirOf [] path ++ bytes names := by
  have whole : ofText path.toList ++ ofNames names =
      .rootDir :: (dirOf [] path ++ bytes names).map .normal := by
    rw [plain, List.map_append]
    simp [ofNames, bytes]
  rw [startsWith, List.isPrefixOf_iff_prefix, whole, plainBase, List.prefix_cons_inj]
  exact List.prefix_map_iff_of_injective fun a b same => Component.normal.inj same

theorem recognised_of_plain (plainRoot : IsPlain cfg.root) (plain : ∀ dir ∈ cfg.ownDirs, IsPlain dir)
    (below : ∀ dir ∈ cfg.localEgress,
      dirOf [] dir <+: dirOf [] cfg.root → dirOf [] dir = dirOf [] cfg.root) :
    Recognised cwd cfg := by
  have place : ∀ names, location cwd cfg names = dirOf [] cfg.root ++ bytes names := by
    intro names
    rw [location, Scanner.path, denoted_append]
    exact congrArg (· ++ bytes names) (plain_dir cwd cfg.root plainRoot)
  have starts : ∀ dir ∈ cfg.ownDirs,
      startsWith (ofText cfg.root.toList) (ofText dir.toList) = true ↔
        dirOf [] dir <+: dirOf [] cfg.root := by
    intro dir member
    have spelled := plain_prefix_iff cfg.root dir plainRoot (plain dir member) []
    simpa [ofNames, bytes] using spelled
  have spelled_of_eq : ∀ dir ∈ cfg.ownDirs, ∀ names,
      dirOf [] dir = dirOf [] cfg.root ++ bytes names → Spelled cfg names := by
    intro dir member names same
    refine Or.inl ⟨dir, member, ?_⟩
    show ofText dir.toList = ofText cfg.root.toList ++ ofNames names
    rw [plain dir member, same, plainRoot]
    simp [ofNames, bytes]
  constructor
  · rintro names _ ⟨dir, member, same | ⟨rfl, above⟩⟩
    · rw [place, plain_dir cwd dir (plain dir member)] at same
      exact ⟨names, List.prefix_rfl, spelled_of_eq dir member names same⟩
    · rw [plain_dir cwd dir (plain dir member), plain_dir cwd cfg.root plainRoot] at above
      refine ⟨[], List.prefix_rfl, ?_⟩
      rcases List.mem_append.mp member with kept | egress
      · exact Or.inr ⟨rfl, dir, kept, (starts dir member).mpr above⟩
      · exact spelled_of_eq dir member [] (by rw [below dir egress above]; simp [bytes])
  · rintro (⟨dir, member, same⟩ | ⟨_, dir, kept, above⟩)
    · refine ⟨dir, member, Or.inl ?_⟩
      rw [dirOf, same]
      rfl
    · have member : dir ∈ cfg.ownDirs := List.mem_append_left _ kept
      refine ⟨dir, member, Or.inr ⟨rfl, ?_⟩⟩
      rw [plain_dir cwd dir (plain dir member), plain_dir cwd cfg.root plainRoot]
      exact (starts dir member).mp above

end Scans

def nameArchive : Name := ⟨"archive".toByteArray, by decide⟩

def nameFile : Name := ⟨"a.csv".toByteArray, by decide⟩

def archivedTree : Dir := .ok (.dir nameArchive (.entry nameFile (.file none) .nil) .nil)

def detour : Config :=
  ⟨"/spool", true, fun _ => true, some "/spool/tmp/../archive", none, []⟩

end FileReplicator.LoopPrevention
