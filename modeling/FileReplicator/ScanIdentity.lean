import FileReplicator.Scan

/-!
# Relpaths of scanned files

Discovery turns a path into a text, the worker turns the text back into a path.
It is the same path where every component is a text; a component that is none is
left out on the way.
-/

namespace FileReplicator.ScanIdentity

open Paths Scan

/-- `join_rel` of the ingress root, as the worker rebuilds the path of an item. -/
def rebuilt (s : Scanner) (relpath : String) : OsPath :=
  ofText (KeyMapping.joinRel s.root.toList relpath)

/-- The relpaths of a scan are distinct, and each leads back to the file that was found. -/
def Identified (s : Scanner) (root : Dir) : Prop :=
  ((s.scan root).1.map Candidate.relpath).Nodup ∧
    ∀ c ∈ (s.scan root).1, rebuilt s c.relpath = c.abs

def IsText (names : List Name) : Prop := ∀ name ∈ names, name.toStr.isSome = true

/-! ## There and back -/

def texts (names : List Name) : List (List Char) := (names.filterMap Name.toStr).map String.toList

theorem texts_are_names (names : List Name) : ∀ text ∈ texts names, IsName text := by
  intro text member
  obtain ⟨decoded, inside, rfl⟩ := List.mem_map.mp member
  obtain ⟨name, _, decodes⟩ := List.mem_filterMap.mp inside
  exact is_name_of_str name decoded decodes

theorem kept_relpath (names : List Name) (some : relpathOf names ≠ "") :
    ObjectPath.keptSegments (relpathOf names) = texts names := by
  have areNames := texts_are_names names
  have nonempty : texts names ≠ [] := by
    intro none
    refine some ?_
    rw [relpathOf, show (names.filterMap Name.toStr).map String.toList = [] from none]
    rfl
  have split : (relpathOf names).toList.splitOn '/' = texts names := by
    rw [relpathOf, String.toList_ofList]
    exact KeyMapping.split_joined (texts names) areNames nonempty
  have proper : KeyMapping.IsProper (relpathOf names) := by
    intro segment member
    rw [split] at member
    exact areNames segment member
  rw [KeyMapping.kept_of_proper _ proper, split]

theorem rebuilt_eq (s : Scanner) (names : List Name) (some : relpathOf names ≠ "") :
    rebuilt s (relpathOf names) =
      ofText s.root.toList ++ (texts names).map fun text => .normal (encodeName text) := by
  have pushed := components_push_all s.root.toList _ (texts_are_names names)
  rw [rebuilt, KeyMapping.joinRel, KeyMapping.push_segments_eq, kept_relpath names some, ofText,
    pushed, List.map_append, List.map_map]
  rfl

theorem texts_whole_iff (names : List Name) :
    ((texts names).map fun text => Component.normal (encodeName text)) = ofNames names ↔
      IsText names := by
  constructor
  · intro whole
    have lengths := congrArg List.length whole
    simp only [texts, ofNames, List.length_map] at lengths
    intro name member
    have all := (List.filterMap_length_eq_length (f := Name.toStr)).mp lengths
    exact all name member
  · intro isText
    induction names with
    | nil => rfl
    | cons name rest ih =>
        obtain ⟨text, decoded⟩ := Option.isSome_iff_exists.mp (isText name List.mem_cons_self)
        have later := ih fun other member => isText other (List.mem_cons_of_mem _ member)
        simp only [texts, ofNames, List.filterMap_cons, decoded, List.map_cons,
          encode_str name text decoded, List.cons.injEq, true_and] at later ⊢
        exact later

theorem rebuilt_iff (s : Scanner) (names : List Name) (some : relpathOf names ≠ "") :
    rebuilt s (relpathOf names) = s.path names ↔ IsText names := by
  rw [rebuilt_eq s names some, Scanner.path, List.append_cancel_left_eq, texts_whole_iff]

theorem names_of_ofNames (a b : List Name) (same : ofNames a = ofNames b) : a = b := by
  refine List.map_injective_iff.mpr (fun x y equal => ?_) same
  cases x
  cases y
  cases equal
  rfl

theorem relpath_injective (a b : List Name) (textA : IsText a) (textB : IsText b)
    (some : relpathOf a ≠ "") (same : relpathOf a = relpathOf b) : a = b := by
  have kept := kept_relpath a some
  rw [same, kept_relpath b (same ▸ some)] at kept
  refine names_of_ofNames a b ?_
  rw [← (texts_whole_iff a).mpr textA, ← (texts_whole_iff b).mpr textB, kept]

/-- The files of a scan are told apart, and found again, exactly if all that it takes has only names
that are texts. -/
theorem identified_iff (s : Scanner) (root : Dir) (distinct : root.Distinct) :
    Identified s root ↔
      ∀ file ∈ root.files [], s.reaches file.1 = true → s.pruned file.1 = false →
        relpathOf file.1 ≠ "" → s.select (relpathOf file.1) = true → IsText file.1 := by
  constructor
  · rintro ⟨_, back⟩ file member reached kept some selected
    have found : ⟨relpathOf file.1, s.path file.1, (file.2.getD (0, 0)).1, (file.2.getD (0, 0)).2⟩ ∈
        (s.scan root).1 :=
      (s.mem_scan_iff root _).mpr
        ⟨file, member, (s.take_iff file _).mpr ⟨⟨reached, kept⟩, some, selected, rfl⟩⟩
    -- the path is found again, so no component of it was replaced
    have whole := back _ found
    simp only at whole
    exact (rebuilt_iff s file.1 some).mp whole
  · intro texts
    have text_of_take : ∀ file ∈ root.files [], ∀ c, s.take file = some c →
        IsText file.1 ∧ relpathOf file.1 ≠ "" ∧ c.relpath = relpathOf file.1 ∧ c.abs = s.path file.1 := by
      intro file member c taken
      obtain ⟨⟨reached, kept⟩, some, selected, rfl⟩ := (s.take_iff file c).mp taken
      exact ⟨texts file member reached kept some selected, some, rfl, rfl⟩
    constructor
    -- two files of the tree differ in their paths, and texts are told apart by their relpaths
    · rw [((s.scan_perm root).map Candidate.relpath).nodup_iff, List.nodup_iff_pairwise_ne,
        List.pairwise_map, List.pairwise_filterMap]
      have apart : (root.files []).Pairwise fun a b => a.1 ≠ b.1 := by
        cases root with
        | ok listing => exact Scanner.files_distinct [] listing distinct
        | error kind => exact List.Pairwise.nil
      refine apart.imp_of_mem fun {a b} memberA memberB differ c takenA d takenB same => differ ?_
      obtain ⟨textA, some, relpathA, _⟩ := text_of_take a memberA c takenA
      obtain ⟨textB, _, relpathB, _⟩ := text_of_take b memberB d takenB
      exact relpath_injective a.1 b.1 textA textB some (by rw [← relpathA, same, relpathB])
    · intro c found
      obtain ⟨file, member, taken⟩ := (s.mem_scan_iff root c).mp found
      obtain ⟨isText, some, relpath, abs⟩ := text_of_take file member c taken
      rw [relpath, abs]
      exact (rebuilt_iff s file.1 some).mpr isText

/-! ## A name that is no text -/

def spool : Scanner := ⟨"/in", true, fun _ => true, []⟩

def nameD : Name := ⟨"d".toByteArray, by decide⟩

def nameA : Name := ⟨"a.txt".toByteArray, by decide⟩

def nameB : Name := ⟨"b.csv".toByteArray, by decide⟩

def nameByte : Name := ⟨⟨#[255]⟩, by decide⟩

/-- `d/a.txt`, `d/b.csv` and `a.txt`. -/
def plainTree : Dir :=
  .ok (.dir nameD (.entry nameA (.file none) (.entry nameB (.file none) .nil))
    (.entry nameA (.file none) .nil))

def byteTree : Dir := .ok (.dir nameD (.entry nameByte (.file none) .nil) .nil)

theorem plain_identified : Identified spool plainTree := by
  refine (identified_iff spool plainTree (by
    simp only [plainTree, Dir.Distinct, Listing.Distinct, Listing.names]
    decide)).mpr fun file member _ _ _ _ => ?_
  have texts : ∀ name ∈ [nameD, nameA, nameB], name.toStr.isSome = true := by decide
  simp only [plainTree, Dir.files, Listing.files, List.nil_append, List.cons_append,
    List.mem_cons, List.not_mem_nil, or_false] at member
  intro name inside
  apply texts
  rcases member with rfl | rfl | rfl <;>
    simp only [List.mem_cons, List.not_mem_nil, or_false] at inside ⊢ <;> tauto

/-- The item of the file is its directory. -/
theorem byte_name_lost :
    ¬∀ (s : Scanner) (root : Dir), root.Distinct → Identified s root := by
  intro all
  have identified := all spool byteTree (by simp [byteTree, Dir.Distinct, Listing.Distinct,
    Listing.names])
  have found : ⟨"d", spool.path [nameD, nameByte], 0, 0⟩ ∈ (spool.scan byteTree).1 := by
    decide +kernel
  exact absurd (identified.2 _ found) (by decide)

end FileReplicator.ScanIdentity
