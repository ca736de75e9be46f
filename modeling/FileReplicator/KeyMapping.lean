import FileReplicator.FileTree
import FileReplicator.Paths

/-!
# Where a relpath goes

The key of a relpath under the prefix of a destination, and its path under a
local root. The backends each carry a copy of the function; all of them keep the
same segments.
-/

namespace FileReplicator.KeyMapping

open ObjectPath Paths

/-! ## The mappings -/

/-- The azure backend's copy of `object_key`. -/
def blobPath (keyPrefix relpath : String) : String := objectKey keyPrefix relpath

def objectPath (keyPrefix relpath : String) : String := objectKey keyPrefix relpath

namespace Sftp

def remotePath (baseDir relpath : String) : String := objectKey baseDir relpath

end Sftp

namespace Ftps

def remotePath (baseDir relpath : String) : String := objectKey baseDir relpath

end Ftps

/-- The loop of `final_path` and `join_rel`. -/
def pushSegments (root : List Char) (relpath : String) : List Char :=
  (relpath.toList.splitOn '/').foldl
    (fun path segment =>
      if segment = [] ∨ segment = ['.'] ∨ segment = ['.', '.'] then path else push path segment) root

def finalPath (root : List Char) (relpath : String) : List Char := pushSegments root relpath

/-- `join_rel`, on the text of the root. -/
def joinRel (root : List Char) (relpath : String) : List Char := pushSegments root relpath

/-! ## Segments -/

/-- The segments of a key; the empty key has none. -/
def segments (key : List Char) : List (List Char) :=
  if key = [] then [] else key.splitOn '/'

def IsProper (relpath : String) : Prop := ∀ segment ∈ relpath.toList.splitOn '/', IsName segment

instance (name : List Char) : Decidable (IsName name) := inferInstanceAs (Decidable (_ ∧ _))

instance (relpath : String) : Decidable (IsProper relpath) :=
  inferInstanceAs (Decidable (∀ segment ∈ relpath.toList.splitOn '/', IsName segment))

theorem kept_names (relpath : String) : ∀ segment ∈ keptSegments relpath, IsName segment := by
  intro segment member
  obtain ⟨part, kept⟩ := List.mem_filter.mp member
  obtain ⟨some, dot, dots⟩ := of_decide_eq_true kept
  exact ⟨some, dot, dots, not_mem_of_mem_split '/' _ segment part⟩

theorem kept_of_proper (relpath : String) (proper : IsProper relpath) :
    keptSegments relpath = relpath.toList.splitOn '/' := by
  refine List.filter_eq_self.mpr fun segment member => decide_eq_true ?_
  obtain ⟨some, dot, dots, _⟩ := proper segment member
  exact ⟨some, dot, dots⟩

theorem split_joined (names : List (List Char)) (areNames : ∀ name ∈ names, IsName name)
    (some : names ≠ []) : (joinSegments names).splitOn '/' = names :=
  List.splitOn_intercalate '/' (fun name member => (areNames name member).2.2.2) some

theorem joined_eq_nil_iff (names : List (List Char)) (areNames : ∀ name ∈ names, IsName name) :
    joinSegments names = [] ↔ names = [] := by
  constructor
  · intro empty
    by_contra some
    have split := split_joined names areNames some
    rw [empty, List.splitOn_nil] at split
    exact (areNames [] (split ▸ List.mem_singleton.mpr rfl)).1 rfl
  · rintro rfl
    rfl

theorem segments_joined (names : List (List Char)) (areNames : ∀ name ∈ names, IsName name) :
    segments (joinSegments names) = names := by
  by_cases none : names = []
  · subst none
    rfl
  · rw [segments, if_neg (fun empty => none ((joined_eq_nil_iff names areNames).mp empty))]
    exact split_joined names areNames none

theorem key_segments (keyPrefix relpath : String) :
    segments (objectKey keyPrefix relpath).toList =
      segments (trimMatches '/' keyPrefix.toList) ++ keptSegments relpath := by
  have names := kept_names relpath
  rw [objectKey, String.toList_ofList]
  split
  · rename_i bare
    rw [bare, segments_joined _ names]
    rfl
  · rename_i under
    split
    · rename_i empty
      rw [(joined_eq_nil_iff _ names).mp empty, List.append_nil]
    · rename_i some
      have kept : keptSegments relpath ≠ [] := fun none => some ((joined_eq_nil_iff _ names).mpr none)
      rw [segments, if_neg (by simp), List.splitOn_append_cons_self, split_joined _ names kept,
        segments, if_neg under]

theorem joined_of_proper (relpath : String) (proper : IsProper relpath) :
    joinSegments (keptSegments relpath) = relpath.toList := by
  rw [kept_of_proper relpath proper]
  exact List.intercalate_splitOn '/'

theorem push_segments_eq (root : List Char) (relpath : String) :
    pushSegments root relpath = (keptSegments relpath).foldl push root := by
  rw [pushSegments, keptSegments, List.foldl_filter]
  congr 1
  funext path segment
  by_cases dropped : segment = [] ∨ segment = ['.'] ∨ segment = ['.', '.']
  · rw [if_pos dropped, if_neg]
    simp only [decide_eq_true_eq]
    tauto
  · rw [if_neg dropped, if_pos]
    simp only [decide_eq_true_eq]
    tauto

/-- The paths of the file system model are the names among the components. -/
def names (path : List Char) : FileTree.Path :=
  (components path).filterMap fun
    | .normal name => some (String.ofList name)
    | _ => none

theorem names_push_segments (root : List Char) (relpath : String) :
    names (pushSegments root relpath) = FileTree.joinRel (names root) relpath := by
  rw [names, push_segments_eq, components_push_all root _ (kept_names relpath), List.filterMap_append,
    FileTree.joinRel, List.filterMap_map]
  congr 1
  exact List.filterMap_eq_map.symm ▸ rfl

/-- All seven mappings keep the same segments of a relpath, under the prefix or the root; proper
relpaths are mapped apart. -/
theorem keys_mapped :
    (∀ keyPrefix relpath,
      blobPath keyPrefix relpath = objectKey keyPrefix relpath ∧
      objectPath keyPrefix relpath = objectKey keyPrefix relpath ∧
      Sftp.remotePath keyPrefix relpath = objectKey keyPrefix relpath ∧
      Ftps.remotePath keyPrefix relpath = objectKey keyPrefix relpath ∧
      segments (objectKey keyPrefix relpath).toList =
        segments (trimMatches '/' keyPrefix.toList) ++ keptSegments relpath ∧
      segments (trimMatches '/' keyPrefix.toList) <+: segments (objectKey keyPrefix relpath).toList) ∧
    (∀ root relpath,
      components (finalPath root relpath) =
        components root ++ (keptSegments relpath).map .normal ∧
      components (joinRel root relpath) =
        components root ++ (keptSegments relpath).map .normal) ∧
    (∀ relpath, ∀ segment ∈ keptSegments relpath, IsName segment) ∧
    ∀ keyPrefix first second, IsProper first → IsProper second →
      objectKey keyPrefix first = objectKey keyPrefix second → first = second := by
  refine ⟨fun keyPrefix relpath => ⟨rfl, rfl, rfl, rfl, key_segments keyPrefix relpath, ?_⟩,
    fun root relpath => ?_, kept_names, fun keyPrefix first second properFirst properSecond same => ?_⟩
  · rw [key_segments]
    exact List.prefix_append _ _
  · have pushed := components_push_all root _ (kept_names relpath)
    rw [← push_segments_eq] at pushed
    exact ⟨pushed, pushed⟩
  · have segmentsFirst := key_segments keyPrefix first
    rw [same, key_segments keyPrefix second] at segmentsFirst
    have kept := List.append_cancel_left segmentsFirst
    rw [← String.toList_inj, ← joined_of_proper first properFirst, ← kept,
      joined_of_proper second properSecond]

theorem keys_mapped_apart : objectKey "/base//in/" "a/b" ≠ objectKey "/base//in/" "a/c" :=
  fun same => absurd
    (keys_mapped.2.2.2 "/base//in/" "a/b" "a/c" (by decide) (by decide) same)
    (by decide)

end FileReplicator.KeyMapping
