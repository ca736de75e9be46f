import Mathlib
import FileReplicator.KeyMapping

/-!
# The scan

One walk of the ingress tree: which files it finds, under which relpath. A file
name is any sequence of bytes the platform allows; a relpath is a text. What is
found is the files of the tree, one by one, without those that are pruned.
-/

namespace FileReplicator.Scan

open Domain Paths

/-! ## Names and paths -/

def IsLegal (bytes : ByteArray) : Prop :=
  bytes ≠ "".toByteArray ∧ bytes ≠ ".".toByteArray ∧ bytes ≠ "..".toByteArray ∧
    47 ∉ bytes.data.toList ∧ 0 ∉ bytes.data.toList

instance (bytes : ByteArray) : Decidable (IsLegal bytes) := inferInstanceAs (Decidable (_ ∧ _))

structure Name where
  bytes : ByteArray
  legal : IsLegal bytes
  deriving DecidableEq

def Name.toStr (name : Name) : Option String := String.fromUTF8? name.bytes

abbrev OsPath := List (Component ByteArray)

def encodeName (name : List Char) : ByteArray := (String.ofList name).toByteArray

def encode : Component (List Char) → Component ByteArray
  | .rootDir => .rootDir
  | .curDir => .curDir
  | .parentDir => .parentDir
  | .normal name => .normal (encodeName name)

/-- The path a text of the configuration stands for. -/
def ofText (path : List Char) : OsPath := (components path).map encode

def ofNames (path : List Name) : OsPath := path.map fun name => .normal name.bytes

def startsWith (path base : OsPath) : Bool := base.isPrefixOf path

theorem bytes_of_str (name : Name) (text : String) (decoded : name.toStr = some text) :
    text.toByteArray = name.bytes := by
  unfold Name.toStr String.fromUTF8? at decoded
  split at decoded
  · cases decoded
    rfl
  · cases decoded

theorem is_name_of_str (name : Name) (text : String) (decoded : name.toStr = some text) :
    IsName text.toList := by
  have bytes := bytes_of_str name text decoded
  obtain ⟨some, dot, dots, slash, _⟩ := name.legal
  have apart : ∀ other : String, name.bytes ≠ other.toByteArray → text.toList ≠ other.toList := by
    intro other differs same
    rw [String.toList_inj] at same
    exact differs (same ▸ bytes.symm)
  refine ⟨apart "" some, apart "." dot, apart ".." dots, fun member => slash ?_⟩
  rw [← bytes, ← String.utf8Encode_toList]
  simp only [List.utf8Encode, List.data_toByteArray, List.mem_flatMap]
  exact ⟨'/', member, by decide⟩

theorem encode_str (name : Name) (text : String) (decoded : name.toStr = some text) :
    encodeName text.toList = name.bytes := by
  rw [encodeName, String.ofList_toList, bytes_of_str name text decoded]

/-! ## The tree -/

/-- What a directory entry is, but for a directory that can be read. -/
inductive Kind where
  | file (metadata : Option (Nat × Int))
  | locked (kind : IoKind)
  | other
  | untyped (kind : IoKind)

/-- The entries of a directory, in the order in which they are read. -/
inductive Listing where
  | nil
  | failed (kind : IoKind) (rest : Listing)
  | entry (name : Name) (kind : Kind) (rest : Listing)
  | dir (name : Name) (entries : Listing) (rest : Listing)

namespace Listing

def names : Listing → List Name
  | nil => []
  | failed _ rest => rest.names
  | entry name _ rest | dir name _ rest => name :: rest.names

/-- No two entries of a directory have one name. -/
def Distinct : Listing → Prop
  | nil => True
  | failed _ rest => rest.Distinct
  | entry name _ rest => name ∉ rest.names ∧ rest.Distinct
  | dir name entries rest => name ∉ rest.names ∧ entries.Distinct ∧ rest.Distinct

def dirs : Listing → Nat
  | nil => 0
  | failed _ rest => rest.dirs
  | entry _ kind rest =>
      match kind with
      | .locked _ => 1 + rest.dirs
      | _ => rest.dirs
  | dir _ entries rest => 1 + entries.dirs + rest.dirs

/-- The regular files below a directory, with their names from the root of the tree. -/
def files (path : List Name) : Listing → List (List Name × Option (Nat × Int))
  | nil => []
  | failed _ rest => rest.files path
  | entry name kind rest =>
      match kind with
      | .file metadata => (path ++ [name], metadata) :: rest.files path
      | _ => rest.files path
  | dir name entries rest => entries.files (path ++ [name]) ++ rest.files path

end Listing

/-- A directory as `read_dir` finds it. -/
abbrev Dir := Except IoKind Listing

def Dir.files (path : List Name) : Dir → List (List Name × Option (Nat × Int))
  | .ok listing => listing.files path
  | .error _ => []

def Dir.Distinct : Dir → Prop
  | .ok listing => listing.Distinct
  | .error _ => True

def Dir.weight : Dir → Nat
  | .ok listing => 1 + listing.dirs
  | .error _ => 1

/-! ## scan -/

structure Candidate where
  relpath : String
  abs : OsPath
  size : Nat
  mtimeMs : Int
  deriving DecidableEq

structure ScanIssue where
  path : OsPath
  kind : IoKind

structure Scanner where
  root : String
  recursive : Bool
  /-- `select` with the include and exclude filters. -/
  select : String → Bool
  skip : List String

/-- The directories that are still to be read, and what was found so far. -/
structure Walk where
  stack : List (List Name × Dir)
  out : List Candidate
  issues : List ScanIssue

def relpathOf (path : List Name) : String :=
  String.ofList (ObjectPath.joinSegments ((path.filterMap Name.toStr).map String.toList))

/-- The directories on the stack, and those below them. -/
def Walk.weight (w : Walk) : Nat := (w.stack.map fun d => d.2.weight).sum

namespace Scanner

variable (s : Scanner)

def path (names : List Name) : OsPath := ofText s.root.toList ++ ofNames names

def pruned (names : List Name) : Bool :=
  s.skip.any fun base => startsWith (s.path names) (ofText base.toList)

def candidate (names : List Name) (metadata : Option (Nat × Int)) : Option Candidate :=
  let relpath := relpathOf names
  if relpath = "" then none
  else if s.select relpath then
    some ⟨relpath, s.path names, (metadata.getD (0, 0)).1, (metadata.getD (0, 0)).2⟩
  else none

def report (names : List Name) (kind : IoKind) (w : Walk) : Walk :=
  { w with issues := w.issues ++ [⟨s.path names, kind⟩] }

def push (names : List Name) (dir : Dir) (w : Walk) : Walk :=
  if s.recursive then { w with stack := (names, dir) :: w.stack } else w

/-- One entry, but for a directory that can be read. -/
def enter (names : List Name) (kind : Kind) (w : Walk) : Walk :=
  if s.pruned names then w
  else
    match kind with
    | .untyped kind => s.report names kind w
    | .locked kind => s.push names (.error kind) w
    | .other => w
    | .file metadata =>
        match s.candidate names metadata with
        | some c => { w with out := w.out ++ [c] }
        | none => w

def visit (names : List Name) : Listing → Walk → Walk
  | .nil, w => w
  | .failed kind rest, w => visit names rest (s.report names kind w)
  | .entry name kind rest, w => visit names rest (s.enter (names ++ [name]) kind w)
  | .dir name entries rest, w =>
      visit names rest
        (if s.pruned (names ++ [name]) then w else s.push (names ++ [name]) (.ok entries) w)

def walk : Nat → Walk → Walk
  | 0, w => w
  | fuel + 1, w =>
      match w.stack with
      | [] => w
      | (names, .error kind) :: rest => walk fuel (s.report names kind { w with stack := rest })
      | (names, .ok listing) :: rest => walk fuel (s.visit names listing { w with stack := rest })

def scan (root : Dir) : List Candidate × List ScanIssue :=
  let w := s.walk root.weight ⟨[([], root)], [], []⟩
  (w.out.mergeSort fun a b => a.relpath ≤ b.relpath, w.issues)

/-! ## What a scan finds -/

def reaches (names : List Name) : Bool := s.recursive || names.length = 1

def take (file : List Name × Option (Nat × Int)) : Option Candidate :=
  if s.reaches file.1 && !s.pruned file.1 then s.candidate file.1 file.2 else none

theorem take_iff (file : List Name × Option (Nat × Int)) (c : Candidate) :
    s.take file = some c ↔
      (s.reaches file.1 = true ∧ s.pruned file.1 = false) ∧ relpathOf file.1 ≠ "" ∧
        s.select (relpathOf file.1) = true ∧
        c = ⟨relpathOf file.1, s.path file.1, (file.2.getD (0, 0)).1, (file.2.getD (0, 0)).2⟩ := by
  have candidate_iff : s.candidate file.1 file.2 = some c ↔
      relpathOf file.1 ≠ "" ∧ s.select (relpathOf file.1) = true ∧
        c = ⟨relpathOf file.1, s.path file.1, (file.2.getD (0, 0)).1, (file.2.getD (0, 0)).2⟩ := by
    rw [candidate]
    by_cases none : relpathOf file.1 = ""
    · simp [none]
    · rw [if_neg none]
      cases s.select (relpathOf file.1) with
      | true =>
          rw [if_pos rfl, Option.some.injEq]
          exact ⟨fun same => ⟨none, rfl, same.symm⟩, fun found => found.2.2.symm⟩
      | false => simp
  rw [take, ← candidate_iff]
  cases s.reaches file.1 <;> cases s.pruned file.1 <;> simp

/-- What was found, and what is still going to be. -/
def total (w : Walk) : Multiset Candidate :=
  w.out + (w.stack.map fun d => ((d.2.files d.1).filterMap s.take : Multiset Candidate)).sum

/-- The stack of a walk that does not recurse holds the root at most. -/
def Shallow (w : Walk) : Prop := s.recursive = true ∨ ∀ d ∈ w.stack, d.1 = []

theorem file_below (path : List Name) (listing : Listing) :
    ∀ file ∈ listing.files path, ∃ name ∈ listing.names, ∃ rest, file.1 = path ++ name :: rest := by
  induction listing generalizing path with
  | nil => simp [Listing.files]
  | failed kind rest ih => exact ih path
  | entry name kind rest ih =>
      have later : ∀ file ∈ rest.files path,
          ∃ other ∈ name :: rest.names, ∃ below, file.1 = path ++ other :: below := by
        intro file member
        obtain ⟨other, inside, below, same⟩ := ih path file member
        exact ⟨other, List.mem_cons_of_mem _ inside, below, same⟩
      cases kind with
      | file metadata =>
          exact List.forall_mem_cons.mpr ⟨⟨name, List.mem_cons_self, [], rfl⟩, later⟩
      | _ => exact later
  | dir name entries rest ihEntries ih =>
      intro file member
      rcases List.mem_append.mp member with inside | beside
      · obtain ⟨child, _, below, same⟩ := ihEntries (path ++ [name]) file inside
        exact ⟨name, List.mem_cons_self, child :: below, by rw [same, List.append_assoc]; rfl⟩
      · obtain ⟨other, inside, below, same⟩ := ih path file beside
        exact ⟨other, List.mem_cons_of_mem _ inside, below, same⟩

theorem files_distinct (path : List Name) (listing : Listing) (distinct : listing.Distinct) :
    (listing.files path).Pairwise fun a b => a.1 ≠ b.1 := by
  induction listing generalizing path with
  | nil => exact List.Pairwise.nil
  | failed kind rest ih => exact ih path distinct
  | entry name kind rest ih =>
      obtain ⟨fresh, later⟩ := distinct
      cases kind with
      | file metadata =>
          refine List.Pairwise.cons (fun other member same => ?_) (ih path later)
          obtain ⟨child, inside, below, parts⟩ := file_below path rest other member
          rw [parts, List.append_cancel_left_eq] at same
          rw [(List.cons.inj same).1] at fresh
          exact fresh inside
      | _ => exact ih path later
  | dir name entries rest ihEntries ih =>
      obtain ⟨fresh, inner, later⟩ := distinct
      refine List.pairwise_append.mpr ⟨ihEntries _ inner, ih path later, ?_⟩
      intro a inside b beside same
      obtain ⟨_, _, below, parts⟩ := file_below (path ++ [name]) entries a inside
      obtain ⟨child, member, below', parts'⟩ := file_below path rest b beside
      rw [parts, parts', List.append_assoc, List.append_cancel_left_eq] at same
      rw [(List.cons.inj same).1] at fresh
      exact fresh member

theorem pruned_below (names rest : List Name) (pruned : s.pruned names = true) :
    s.pruned (names ++ rest) = true := by
  obtain ⟨base, member, starts⟩ := List.any_eq_true.mp pruned
  refine List.any_eq_true.mpr ⟨base, member, ?_⟩
  rw [startsWith, List.isPrefixOf_iff_prefix] at starts ⊢
  refine starts.trans ⟨ofNames rest, ?_⟩
  simp only [path, ofNames, List.map_append, List.append_assoc]

theorem none_of_pruned (names : List Name) (listing : Listing) (pruned : s.pruned names = true) :
    (listing.files names).filterMap s.take = [] := by
  refine List.filterMap_eq_nil_iff.mpr fun file member => ?_
  obtain ⟨name, _, rest, same⟩ := file_below names listing file member
  rw [take, same, s.pruned_below names (name :: rest) pruned]
  simp

theorem none_of_deep (names : List Name) (listing : Listing) (flat : s.recursive = false)
    (deep : names ≠ []) : (listing.files names).filterMap s.take = [] := by
  refine List.filterMap_eq_nil_iff.mpr fun file member => ?_
  obtain ⟨name, _, rest, same⟩ := file_below names listing file member
  have long : file.1.length ≠ 1 := by
    have some := List.length_pos_iff.mpr deep
    rw [same, List.length_append, List.length_cons]
    omega
  rw [take, reaches, flat]
  simp [long]

theorem total_report (names : List Name) (kind : IoKind) (w : Walk) :
    s.total (s.report names kind w) = s.total w := rfl

theorem total_push (names : List Name) (dir : Dir) (w : Walk) (deep : names ≠ []) :
    s.total (s.push names dir w) = s.total w + ((dir.files names).filterMap s.take : List Candidate) := by
  cases recursive : s.recursive with
  | true =>
      rw [push, if_pos recursive]
      simp only [total, List.map_cons, List.sum_cons]
      rw [← add_assoc, add_right_comm]
  | false =>
      -- a walk that does not recurse takes nothing from below the root either
      have none : (dir.files names).filterMap s.take = [] := by
        cases dir with
        | ok listing => exact s.none_of_deep names listing recursive deep
        | error kind => rfl
      rw [push, if_neg (by simp [recursive]), none]
      simp

theorem total_enter (names : List Name) (kind : Kind) (w : Walk) (deep : names ≠ [])
    (reached : s.reaches names = true) :
    s.total (s.enter names kind w) = s.total w +
      (match kind with
        | .file metadata => (s.take (names, metadata)).toList
        | _ => [] : List Candidate) := by
  unfold enter
  cases pruned : s.pruned names with
  | true =>
      rw [if_pos rfl]
      cases kind <;> simp [take, pruned]
  | false =>
      rw [if_neg Bool.false_ne_true]
      cases kind with
      | untyped kind => simp [total_report]
      | locked kind =>
          show s.total (s.push names (.error kind) w) = _
          rw [s.total_push names _ w deep]
          rfl
      | other => simp
      | file metadata =>
          have taken : s.take (names, metadata) = s.candidate names metadata := by
            simp [take, reached, pruned]
          simp only [taken]
          cases s.candidate names metadata with
          | none => simp
          | some c =>
              simp only [total, Option.toList_some]
              rw [← Multiset.coe_add, add_right_comm]

theorem total_visit (names : List Name) (listing : Listing) (w : Walk)
    (reached : ∀ name, s.reaches (names ++ [name]) = true) :
    s.total (s.visit names listing w) =
      s.total w + ((listing.files names).filterMap s.take : List Candidate) := by
  -- the stack gets the directories of the listing, the output its files
  induction listing generalizing w with
  | nil => simp [visit, Listing.files]
  | failed kind rest ih => rw [visit, ih, total_report]; rfl
  | entry name kind rest ih =>
      rw [visit, ih, s.total_enter (names ++ [name]) kind w (by simp) (reached name), add_assoc]
      congr 1
      cases kind with
      | file metadata =>
          simp only [Listing.files, List.filterMap_cons]
          cases s.take (names ++ [name], metadata) <;> simp
      | _ => simp [Listing.files]
  | dir name entries rest _ ih =>
      rw [visit, ih]
      simp only [Listing.files, List.filterMap_append, ← Multiset.coe_add]
      rw [← add_assoc]
      congr 1
      cases pruned : s.pruned (names ++ [name]) with
      | true => simp [s.none_of_pruned (names ++ [name]) entries pruned]
      | false =>
          rw [if_neg Bool.false_ne_true, s.total_push (names ++ [name]) _ w (by simp)]
          rfl

theorem weight_push (names : List Name) (dir : Dir) (w : Walk) :
    (s.push names dir w).weight ≤ w.weight + dir.weight := by
  unfold push
  split
  · simp only [Walk.weight, List.map_cons, List.sum_cons]
    omega
  · exact Nat.le_add_right _ _

theorem weight_visit (names : List Name) (listing : Listing) (w : Walk) :
    (s.visit names listing w).weight ≤ w.weight + listing.dirs := by
  induction listing generalizing w with
  | nil => exact le_rfl
  | failed kind rest ih => exact ih _
  | entry name kind rest ih =>
      refine le_trans (ih _) ?_
      have entered : (s.enter (names ++ [name]) kind w).weight ≤
          w.weight + (match kind with | .locked _ => 1 | _ => 0) := by
        unfold enter
        split
        · exact Nat.le_add_right _ _
        · cases kind with
          | locked kind => exact s.weight_push _ _ w
          | file metadata =>
              show (match s.candidate (names ++ [name]) metadata with
                | some c => { w with out := w.out ++ [c] }
                | none => w).weight ≤ _
              cases s.candidate (names ++ [name]) metadata <;> exact le_rfl
          | _ => exact le_rfl
      cases kind <;> simp only [Listing.dirs] at entered ⊢ <;> omega
  | dir name entries rest _ ih =>
      refine le_trans (ih _) ?_
      have pushed := s.weight_push (names ++ [name]) (.ok entries) w
      simp only [Listing.dirs, Dir.weight] at pushed ⊢
      split
      · omega
      · omega

theorem stack_visit (names : List Name) (listing : Listing) (w : Walk) (flat : s.recursive = false) :
    (s.visit names listing w).stack = w.stack := by
  have unpushed : ∀ names dir w, (s.push names dir w).stack = w.stack := by
    intro names dir w
    rw [push, if_neg (by simp [flat])]
  induction listing generalizing w with
  | nil => rfl
  | failed kind rest ih => exact ih _
  | entry name kind rest ih =>
      rw [visit, ih]
      unfold enter
      split
      · rfl
      · cases kind with
        | locked kind => exact unpushed _ _ w
        | file metadata =>
            show (match s.candidate (names ++ [name]) metadata with
              | some c => { w with out := w.out ++ [c] }
              | none => w).stack = _
            cases s.candidate (names ++ [name]) metadata <;> rfl
        | _ => rfl
  | dir name entries rest _ ih =>
      rw [visit, ih]
      split
      · rfl
      · exact unpushed _ _ w

theorem walk_total (fuel : Nat) (w : Walk) (enough : w.weight ≤ fuel) (shallow : s.Shallow w) :
    ((s.walk fuel w).out : Multiset Candidate) = s.total w := by
  -- each turn takes one directory off the stack and pushes what is below it: the weight falls, and
  -- what was found with what is still to be found stays the same
  induction fuel generalizing w with
  | zero =>
      cases w with
      | mk stack out issues =>
          cases stack with
          | nil => simp [walk, total]
          | cons d rest =>
              have some : 1 ≤ d.2.weight := by
                cases d.2 <;> simp [Dir.weight]
              simp only [Walk.weight, List.map_cons, List.sum_cons] at enough
              omega
  | succ fuel ih =>
      obtain ⟨stack, out, issues⟩ := w
      cases stack with
      | nil => simp [walk, total]
      | cons d rest =>
          obtain ⟨names, dir⟩ := d
          have less : s.Shallow ⟨rest, out, issues⟩ :=
            shallow.imp id fun flat d member => flat d (List.mem_cons_of_mem _ member)
          simp only [Walk.weight, List.map_cons, List.sum_cons] at enough
          cases dir with
          | error kind =>
              show ((s.walk fuel (s.report names kind ⟨rest, out, issues⟩)).out : Multiset Candidate) = _
              rw [ih (s.report names kind ⟨rest, out, issues⟩) ?_ less, total_report]
              · simp [total, Dir.files]
              · simp only [report, Walk.weight, Dir.weight] at enough ⊢
                omega
          | ok listing =>
              have reached : ∀ name, s.reaches (names ++ [name]) = true := by
                intro name
                rcases shallow with recursive | flat
                · simp [reaches, recursive]
                · have top : names = [] := flat (names, .ok listing) List.mem_cons_self
                  simp [reaches, top]
              show ((s.walk fuel (s.visit names listing ⟨rest, out, issues⟩)).out : Multiset Candidate) = _
              rw [ih]
              · rw [s.total_visit names listing _ reached]
                simp only [total, Dir.files, List.map_cons, List.sum_cons]
                rw [add_assoc]
                exact congrArg _ (add_comm _ _)
              · have visited := s.weight_visit names listing ⟨rest, out, issues⟩
                simp only [Walk.weight, Dir.weight] at enough visited ⊢
                omega
              · cases recursive : s.recursive with
                | true => exact Or.inl recursive
                | false =>
                    refine Or.inr fun d member => ?_
                    rw [s.stack_visit names listing _ recursive] at member
                    rcases less with isTrue | flat
                    · rw [recursive] at isTrue
                      cases isTrue
                    · exact flat d member

theorem scan_perm (root : Dir) :
    (s.scan root).1.Perm ((root.files []).filterMap s.take) := by
  refine (List.mergeSort_perm _ _).trans (Multiset.coe_eq_coe.mp ?_)
  rw [s.walk_total root.weight ⟨[([], root)], [], []⟩ (by simp [Walk.weight])
    (Or.inr fun d member => by simp only [List.mem_singleton] at member; rw [member])]
  simp [total]

theorem mem_scan_iff (root : Dir) (c : Candidate) :
    c ∈ (s.scan root).1 ↔ ∃ file ∈ root.files [], s.take file = some c := by
  rw [(s.scan_perm root).mem_iff, List.mem_filterMap]

end Scanner

end FileReplicator.Scan
