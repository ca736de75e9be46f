import Mathlib.Data.List.Infix

/-!
# Paths and their components

A path is a text with separators. What it names are its components; comparing
two paths compares these, and pushing a name adds one of them.
-/

namespace FileReplicator.Paths

theorem not_mem_of_mem_split {α : Type} [BEq α] [LawfulBEq α] (sep : α) (xs : List α) :
    ∀ part ∈ xs.splitOn sep, sep ∉ part := by
  induction xs with
  | nil => simp
  | cons x xs ih =>
      rw [List.splitOn_cons_eq_if_modifyHead]
      by_cases same : x = sep
      · rw [if_pos (beq_iff_eq.mpr same)]
        exact List.forall_mem_cons.mpr ⟨List.not_mem_nil, ih⟩
      · rw [if_neg (fun h => same (beq_iff_eq.mp h))]
        generalize xs.splitOn sep = parts at ih ⊢
        cases parts with
        | nil => simp
        | cons first rest =>
            rw [List.modifyHead_cons]
            refine List.forall_mem_cons.mpr ⟨?_, fun part member => ih part (List.mem_cons_of_mem _ member)⟩
            have apart := ih first List.mem_cons_self
            simp only [List.mem_cons, not_or]
            exact ⟨fun h => same h.symm, apart⟩

theorem head_split_append {α : Type} [BEq α] [LawfulBEq α] (sep : α) (xs rest : List α) :
    ((xs ++ sep :: rest).splitOn sep).head? = (xs.splitOn sep).head? := by
  rw [List.splitOn_append_cons_self, List.head?_append_of_ne_nil _ (List.splitOn_ne_nil sep xs)]

/-! ## Components -/

inductive Component (ν : Type) where
  | rootDir
  | curDir
  | parentDir
  | normal (name : ν)
  deriving DecidableEq

def IsName (name : List Char) : Prop :=
  name ≠ [] ∧ name ≠ ['.'] ∧ name ≠ ['.', '.'] ∧ '/' ∉ name

/-- Empty parts and `.` name nothing. -/
def ofPart (part : List Char) : Option (Component (List Char)) :=
  if part = [] ∨ part = ['.'] then none
  else if part = ['.', '.'] then some .parentDir
  else some (.normal part)

/-- A path starts at the root, or `.` is its first part, or neither. -/
def leading (first : Option Char) (part : Option (List Char)) : List (Component (List Char)) :=
  if first = some '/' then [.rootDir]
  else if part = some ['.'] then [.curDir]
  else []

def components (path : List Char) : List (Component (List Char)) :=
  leading path.head? (path.splitOn '/').head? ++ (path.splitOn '/').filterMap ofPart

def push (path part : List Char) : List Char :=
  if part.head? = some '/' then part
  else if path = [] ∨ path.getLast? = some '/' then path ++ part
  else path ++ '/' :: part

theorem of_part_name (name : List Char) (isName : IsName name) :
    ofPart name = some (.normal name) := by
  obtain ⟨some, dot, dots, _⟩ := isName
  rw [ofPart, if_neg (by simp [some, dot]), if_neg dots]

theorem components_name (name : List Char) (isName : IsName name) :
    components name = [.normal name] := by
  have part := of_part_name name isName
  obtain ⟨some, dot, _, apart⟩ := isName
  have first : name.head? ≠ Option.some '/' := by
    intro starts
    exact apart (List.mem_of_mem_head? starts)
  rw [components, List.splitOn_eq_singleton apart, leading, if_neg first,
    if_neg (by simpa using dot)]
  simp [part]

theorem components_append (path name : List Char) (isName : IsName name) (started : path ≠ []) :
    components (path ++ '/' :: name) = components path ++ [.normal name] := by
  rw [components, components, head_split_append, List.head?_append_of_ne_nil _ started,
    List.splitOn_append_cons_self, List.splitOn_eq_singleton isName.2.2.2, List.filterMap_append,
    List.append_assoc]
  simp [of_part_name name isName]

theorem components_trailing (path : List Char) (started : path ≠ []) :
    components (path ++ ['/']) = components path := by
  rw [components, components, head_split_append, List.head?_append_of_ne_nil _ started,
    List.splitOn_append_cons_self, List.filterMap_append]
  simp [ofPart]

theorem components_push (path name : List Char) (isName : IsName name) :
    components (push path name) = components path ++ [.normal name] := by
  have relative : name.head? ≠ some '/' := fun starts => isName.2.2.2 (List.mem_of_mem_head? starts)
  rw [push, if_neg relative]
  by_cases empty : path = []
  · subst empty
    rw [if_pos (Or.inl rfl), List.nil_append, components_name name isName]
    rfl
  · by_cases trails : path.getLast? = some '/'
    · rw [if_pos (Or.inr trails)]
      obtain ⟨before, rfl⟩ := List.getLast?_eq_some_iff.mp trails
      rw [List.append_assoc, List.singleton_append]
      by_cases slash : before = []
      · subst slash
        have cut : ∀ rest : List Char, ('/' :: rest).splitOn '/' = [] :: rest.splitOn '/' := by
          intro rest
          rw [List.splitOn_cons_eq_if_modifyHead, if_pos (beq_self_eq_true _)]
        have whole := List.splitOn_eq_singleton isName.2.2.2
        have only : [[], name].filterMap ofPart = [.normal name] := by
          rw [List.filterMap_cons_none (by simp [ofPart]),
            List.filterMap_cons_some (of_part_name name isName)]
          rfl
        have none : ([[], []] : List (List Char)).filterMap ofPart = [] := by simp [ofPart]
        simp [components, leading, cut, whole, only, none]
      · rw [components_append before name isName slash, components_trailing before slash]
    · rw [if_neg (by simp [empty, trails]), components_append path name isName empty]

theorem components_push_all (path : List Char) (names : List (List Char))
    (areNames : ∀ name ∈ names, IsName name) :
    components (names.foldl push path) = components path ++ names.map .normal := by
  induction names generalizing path with
  | nil => simp
  | cons name rest ih =>
      rw [List.foldl_cons, ih _ fun other member => areNames other (List.mem_cons_of_mem _ member),
        components_push path name (areNames name List.mem_cons_self)]
      simp

end FileReplicator.Paths
