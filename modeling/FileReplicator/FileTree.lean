import Mathlib.Data.List.Infix
import FileReplicator.Effects
import FileReplicator.ObjectPath

/-!
# The local file system

The calls the completion actions make, and what they do to a tree of files and
directories. A call may fail without effect whatever the tree is; a copy or a
write that fails may leave the beginning of the file behind.
-/

namespace FileReplicator.FileTree

open Domain Effects

abbrev Path := List String

inductive Node where
  | file (bytes : Bytes) (mtimeMs : Int)
  | dir
  deriving DecidableEq

abbrev Tree := Path → Option Node

structure IoError where
  kind : IoKind
  text : String
  deriving DecidableEq

inductive FsOp where
  | pathExists (path : Path)
  | fileLen (path : Path)
  | readFile (path : Path)
  | createDirAll (path : Path)
  | rename (source target : Path)
  | copy (source target : Path)
  | removeFile (path : Path)
  | writeFile (path : Path) (bytes : Bytes)
  | nanos

abbrev FsRet : FsOp → Type
  | .pathExists _ => Bool
  | .fileLen _ => Except IoError Nat
  | .readFile _ => Except IoError Bytes
  | .nanos => Nat
  | _ => Except IoError Unit

/-- How a call ends: as the tree says (with the number that the tree does not determine), with an
error and no effect, or with an error after `kept` bytes. -/
inductive FsAnswer where
  | asIs (n : Nat)
  | fails (error : IoError)
  | cut (kept : Nat) (error : IoError)
  deriving DecidableEq

/-! ## Paths -/

def joinRel (root : Path) (relpath : String) : Path :=
  root ++ (ObjectPath.keptSegments relpath).map String.ofList

def withFileName (path : Path) (name : String) : Path := path.dropLast ++ [name]

/-- What stands before and behind the last dot of a file name; a leading dot starts a stem. -/
def stemAndExtension (name : String) : String × Option String :=
  let behind := (name.toList.reverse.takeWhile (· ≠ '.')).reverse
  let before := name.toList.take (name.length - behind.length - 1)
  if behind.length = name.length ∨ before = [] then (name, none)
  else (String.ofList before, some (String.ofList behind))

def suffixedName (name : String) (n : Nat) : String :=
  match stemAndExtension name with
  | (stem, some extension) => stem ++ "." ++ toString n ++ "." ++ extension
  | (stem, none) => stem ++ "." ++ toString n

/-- `suffixed`: `.n` before the extension. -/
def suffixed (path : Path) (n : Nat) : Path :=
  match path.getLast? with
  | some name => withFileName path (suffixedName name n)
  | none => withFileName path ("file." ++ toString n)

/-- `{tag:032x}`. -/
def hex32 (tag : Nat) : String :=
  let digits := Nat.toDigits 16 tag
  String.ofList (List.replicate (32 - digits.length) '0' ++ digits)

def moveTempPath (target : Path) (tag : Nat) : Path :=
  target.dropLast ++ ["." ++ target.getLast?.getD "file" ++ "." ++ hex32 tag ++ ".movetmp"]

/-! Names get longer: a suffix by at most five characters, a temp name by more. -/

theorem stem_and_extension_length (name : String) :
    match stemAndExtension name with
    | (stem, some extension) => stem.length + 1 + extension.length = name.length
    | (stem, none) => stem = name := by
  simp only [stemAndExtension]
  split
  · rename_i stem extension parts
    split at parts
    · simp at parts
    · rename_i dotted
      obtain ⟨rfl, hext⟩ := Prod.mk.inj parts
      rw [Option.some.injEq] at hext
      subst hext
      rw [not_or] at dotted
      have hle := (List.takeWhile_sublist (p := (· ≠ '.')) (l := name.toList.reverse)).length_le
      simp only [List.length_reverse, String.length_toList] at hle dotted
      simp only [String.length_ofList, List.length_take, List.length_reverse, String.length_toList]
      omega
  · rename_i stem parts
    split at parts
    · exact (Prod.mk.inj parts).1.symm
    · simp at parts

theorem suffixed_name_length (name : String) (n : Nat) :
    (suffixedName name n).length = name.length + 1 + (toString n).length := by
  have hparts := stem_and_extension_length name
  unfold suffixedName
  split
  · rename_i stem extension parts
    simp only [parts] at hparts
    simp only [String.length_append]
    have hdot : ".".length = 1 := rfl
    omega
  · rename_i stem parts
    simp only [parts] at hparts
    simp only [String.length_append, hparts]
    rfl

theorem number_length (n : Nat) (small : n < 10000) : (toString n).length ≤ 4 := by
  have hlen : (Nat.toDigits 10 n).length ≤ 4 :=
    (Nat.length_toDigits_le_iff (by decide) (by decide)).mpr small
  rw [← Nat.toList_repr, String.length_toList] at hlen
  exact hlen

def nameOf (path : Path) : String := path.getLast?.getD "file"

theorem name_of_with_file_name (path : Path) (name : String) :
    nameOf (withFileName path name) = name := by
  simp [nameOf, withFileName]

theorem suffixed_eq (path : Path) (n : Nat) :
    ∃ name, suffixed path n = withFileName path name ∧
      name.length = (nameOf path).length + 1 + (toString n).length := by
  unfold suffixed nameOf
  cases path.getLast? with
  | none => exact ⟨_, rfl, by simp only [String.length_append, Option.getD_none]; rfl⟩
  | some name => exact ⟨_, rfl, suffixed_name_length name n⟩

theorem temp_name_length (target : Path) (tag : Nat) :
    (nameOf target).length + 5 < (nameOf (moveTempPath target tag)).length := by
  have hname : nameOf (moveTempPath target tag) =
      "." ++ nameOf target ++ "." ++ hex32 tag ++ ".movetmp" := by
    simp [nameOf, moveTempPath]
  have hend : ".movetmp".length = 8 := by decide
  rw [hname]
  simp only [String.length_append, hend]
  omega

/-! ## What a call does -/

section Calls

variable (tree : Tree)

def put (path : Path) (node : Option Node) : Tree := fun p => if p = path then node else tree p

def isFile (path : Path) : Bool :=
  match tree path with
  | some (.file _ _) => true
  | _ => false

def isDir (path : Path) : Bool := tree path = some .dir

def notFound : IoError := ⟨.notFound, "No such file or directory (os error 2)"⟩

def notADirectory : IoError := ⟨.other, "Not a directory (os error 20)"⟩

def isADirectory : IoError := ⟨.other, "Is a directory (os error 21)"⟩

def writable (path : Path) : Except IoError Unit :=
  if isDir tree path then .error isADirectory
  else if isDir tree path.dropLast then .ok ()
  else .error notFound

def createDirs (path : Path) : Except IoError Unit × Tree :=
  if path.inits.any (isFile tree) then (.error notADirectory, tree)
  else (.ok (), fun p => if p.isPrefixOf path then some .dir else tree p)

/-- A rename within one file system: the target is replaced, the source is gone. -/
def renameFile (source target : Path) : Except IoError Unit × Tree :=
  match tree source with
  | some (.file bytes mtimeMs) =>
      match writable tree target with
      | .ok () => (.ok (), put (put tree source none) target (some (.file bytes mtimeMs)))
      | .error e => (.error e, tree)
  | some .dir => (.error isADirectory, tree)
  | none => (.error notFound, tree)

/-- A new file with the given bytes; `kept` says how many of them when the write is cut. -/
def makeFile (target : Path) (bytes : Bytes) (kept : Option (Nat × IoError)) :
    Except IoError Unit × Tree :=
  match writable tree target, kept with
  | .error e, _ => (.error e, tree)
  | .ok (), none => (.ok (), put tree target (some (.file bytes 0)))
  | .ok (), some (n, e) => (.error e, put tree target (some (.file (bytes.take n) 0)))

def copyFile (source target : Path) (kept : Option (Nat × IoError)) :
    Except IoError Unit × Tree :=
  match tree source with
  | some (.file bytes _) => makeFile tree target bytes kept
  | some .dir => (.error isADirectory, tree)
  | none => (.error notFound, tree)

def removeFileAt (path : Path) : Except IoError Unit × Tree :=
  match tree path with
  | some (.file _ _) => (.ok (), put tree path none)
  | some .dir => (.error isADirectory, tree)
  | none => (.error notFound, tree)

def fileBytes (path : Path) : Except IoError Bytes :=
  match tree path with
  | some (.file bytes _) => .ok bytes
  | some .dir => .error isADirectory
  | none => .error notFound

/-- `metadata(path).len()`; that of a directory is not determined. -/
def lenOf (path : Path) (n : Nat) : Except IoError Nat :=
  if isDir tree path then .ok n else (fileBytes tree path).map List.length

def callAsIs (n : Nat) : (op : FsOp) → FsRet op × Tree
  | .pathExists path => ((tree path).isSome, tree)
  | .fileLen path => (lenOf tree path n, tree)
  | .readFile path => (fileBytes tree path, tree)
  | .createDirAll path => createDirs tree path
  | .rename source target => renameFile tree source target
  | .copy source target => copyFile tree source target none
  | .removeFile path => removeFileAt tree path
  | .writeFile path bytes => makeFile tree path bytes none
  | .nanos => (n, tree)

/-- A fault without effect; `exists()` says false then. -/
def failedRet (e : IoError) : (op : FsOp) → FsRet op
  | .pathExists _ => false
  | .fileLen _ => .error e
  | .readFile _ => .error e
  | .createDirAll _ => .error e
  | .rename _ _ => .error e
  | .copy _ _ => .error e
  | .removeFile _ => .error e
  | .writeFile _ _ => .error e
  | .nanos => 0

def callFs (op : FsOp) : FsAnswer → FsRet op × Tree
  | .asIs n => callAsIs tree n op
  | .fails e => (failedRet e op, tree)
  | .cut kept e =>
      match op with
      | .copy source target => copyFile tree source target (some (kept, e))
      | .writeFile path bytes => makeFile tree path bytes (some (kept, e))
      | op => (failedRet e op, tree)

end Calls

/-! ## What a call leaves -/

def touched : FsOp → List Path
  | .rename source target => [source, target]
  | .copy _ target => [target]
  | .removeFile path => [path]
  | .writeFile path _ => [path]
  | _ => []

attribute [local simp] put renameFile makeFile copyFile removeFileAt callAsIs callFs

theorem put_other (tree : Tree) (path p : Path) (node : Option Node) (other : p ≠ path) :
    put tree path node p = tree p := by
  simp [other]

theorem make_file_frame (tree : Tree) (target p : Path) (bytes : Bytes)
    (kept : Option (Nat × IoError)) (other : p ≠ target) :
    (makeFile tree target bytes kept).2 p = tree p := by
  unfold makeFile
  split
  · rfl
  · exact put_other tree target p _ other
  · exact put_other tree target p _ other

theorem copy_file_frame (tree : Tree) (source target p : Path) (kept : Option (Nat × IoError))
    (other : p ≠ target) : (copyFile tree source target kept).2 p = tree p := by
  unfold copyFile
  split
  · exact make_file_frame tree target p _ kept other
  · rfl
  · rfl

theorem call_as_is_frame (tree : Tree) (n : Nat) (operation : FsOp) (p : Path) (node : Node)
    (other : p ∉ touched operation) (there : tree p = some node) :
    (callAsIs tree n operation).2 p = some node := by
  cases operation with
  | createDirAll path =>
      simp only [callAsIs, createDirs]
      split
      · exact there
      · rename_i way
        -- no file is on the way, so a node there is a directory already
        show (if p.isPrefixOf path then some Node.dir else tree p) = some node
        split
        · rename_i on
          cases node with
          | dir => rfl
          | file bytes mtimeMs =>
              refine absurd ?_ way
              apply List.any_eq_true.mpr
              refine ⟨p, (List.mem_inits _ _).mpr (List.isPrefixOf_iff_prefix.mp on), ?_⟩
              simp only [isFile, there]
        · exact there
  | rename source target =>
      simp only [touched, List.mem_cons, List.not_mem_nil, or_false, not_or] at other
      simp only [callAsIs, renameFile]
      split
      · split
        · show put (put tree source none) target _ p = some node
          rw [put_other _ _ _ _ other.2, put_other _ _ _ _ other.1]
          exact there
        · exact there
      · exact there
      · exact there
  | copy source target =>
      simp only [touched, List.mem_singleton] at other
      exact (copy_file_frame tree source target p none other).trans there
  | removeFile path =>
      simp only [touched, List.mem_singleton] at other
      simp only [callAsIs, removeFileAt]
      split
      · exact (put_other _ _ _ _ other).trans there
      · exact there
      · exact there
  | writeFile path bytes =>
      simp only [touched, List.mem_singleton] at other
      exact (make_file_frame tree path p bytes none other).trans there
  | _ => exact there

theorem call_fs_frame (tree : Tree) (operation : FsOp) (answer : FsAnswer) (p : Path) (node : Node)
    (other : p ∉ touched operation) (there : tree p = some node) :
    (callFs tree operation answer).2 p = some node := by
  cases answer with
  | asIs n => exact call_as_is_frame tree n operation p node other there
  | fails e => exact there
  | cut kept e =>
      cases operation with
      | copy source target =>
          simp only [touched, List.mem_singleton] at other
          exact (copy_file_frame tree source target p _ other).trans there
      | writeFile path bytes =>
          simp only [touched, List.mem_singleton] at other
          exact (make_file_frame tree path p bytes _ other).trans there
      | _ => exact there

theorem call_looks (tree : Tree) (answer : FsAnswer) (operation : FsOp)
    (looks : (∃ path, operation = .pathExists path) ∨ (∃ path, operation = .fileLen path) ∨
      (∃ path, operation = .readFile path) ∨ operation = .nanos) :
    (callFs tree operation answer).2 = tree := by
  rcases looks with ⟨path, rfl⟩ | ⟨path, rfl⟩ | ⟨path, rfl⟩ | rfl <;> cases answer <;> rfl

/-! What a call that succeeds has done. -/

section Succeeds

variable (tree : Tree) (answer : FsAnswer)

theorem rename_spec (source target : Path)
    (ok : (callFs tree (.rename source target) answer).1 = .ok ()) :
    ∃ bytes mtimeMs, tree source = some (.file bytes mtimeMs) ∧
      (callFs tree (.rename source target) answer).2 =
        put (put tree source none) target (some (.file bytes mtimeMs)) := by
  cases answer with
  | fails e => cases ok
  | cut kept e => cases ok
  | asIs n =>
      simp only [callFs, callAsIs, renameFile] at ok ⊢
      split at ok
      · rename_i bytes mtimeMs file
        split at ok
        · exact ⟨bytes, mtimeMs, file, rfl⟩
        · cases ok
      · cases ok
      · cases ok

theorem rename_failed (source target : Path) (e : IoError)
    (failed : (callFs tree (.rename source target) answer).1 = .error e) :
    (callFs tree (.rename source target) answer).2 = tree := by
  cases answer with
  | fails e => rfl
  | cut kept e => rfl
  | asIs n =>
      simp only [callFs, callAsIs, renameFile] at failed ⊢
      split at failed
      · split at failed
        · cases failed
        · rfl
      · rfl
      · rfl

theorem remove_spec (path : Path) (ok : (callFs tree (.removeFile path) answer).1 = .ok ()) :
    (∃ bytes mtimeMs, tree path = some (.file bytes mtimeMs)) ∧
      (callFs tree (.removeFile path) answer).2 = put tree path none := by
  cases answer with
  | fails e => cases ok
  | cut kept e => cases ok
  | asIs n =>
      simp only [callFs, callAsIs, removeFileAt] at ok ⊢
      split at ok
      · rename_i bytes mtimeMs file
        exact ⟨⟨bytes, mtimeMs, file⟩, rfl⟩
      · cases ok
      · cases ok

theorem remove_failed (path : Path) (e : IoError)
    (failed : (callFs tree (.removeFile path) answer).1 = .error e) :
    (callFs tree (.removeFile path) answer).2 = tree := by
  cases answer with
  | fails e => rfl
  | cut kept e => rfl
  | asIs n =>
      simp only [callFs, callAsIs, removeFileAt] at failed ⊢
      split at failed
      · cases failed
      · rfl
      · rfl

theorem make_spec (target : Path) (bytes : Bytes) (kept : Option (Nat × IoError))
    (ok : (makeFile tree target bytes kept).1 = .ok ()) :
    (makeFile tree target bytes kept).2 = put tree target (some (.file bytes 0)) := by
  unfold makeFile at ok ⊢
  split at ok
  · cases ok
  · rfl
  · cases ok

theorem copy_spec (source target : Path)
    (ok : (callFs tree (.copy source target) answer).1 = .ok ()) :
    ∃ bytes mtimeMs, tree source = some (.file bytes mtimeMs) ∧
      (callFs tree (.copy source target) answer).2 = put tree target (some (.file bytes 0)) := by
  have copied : ∀ kept, (copyFile tree source target kept).1 = .ok () →
      ∃ bytes mtimeMs, tree source = some (.file bytes mtimeMs) ∧
        (copyFile tree source target kept).2 = put tree target (some (.file bytes 0)) := by
    intro kept ok
    unfold copyFile at ok ⊢
    split at ok
    · rename_i bytes mtimeMs file
      exact ⟨bytes, mtimeMs, file, make_spec tree target bytes kept ok⟩
    · cases ok
    · cases ok
  cases answer with
  | fails e => cases ok
  | cut kept e => exact copied _ ok
  | asIs n => exact copied _ ok

theorem copied_no_dir (source target : Path)
    (ok : (callFs tree (.copy source target) answer).1 = .ok ()) : isDir tree target = false := by
  rw [Bool.eq_false_iff]
  intro dir
  have copied : ∀ kept, (copyFile tree source target kept).1 ≠ .ok () := by
    intro kept ok
    unfold copyFile at ok
    split at ok
    · simp [writable, dir] at ok
    · cases ok
    · cases ok
  cases answer with
  | fails e => cases ok
  | cut kept e => exact copied _ ok
  | asIs n => exact copied _ ok

theorem write_spec (path : Path) (bytes : Bytes)
    (ok : (callFs tree (.writeFile path bytes) answer).1 = .ok ()) :
    (callFs tree (.writeFile path bytes) answer).2 = put tree path (some (.file bytes 0)) := by
  cases answer with
  | fails e => cases ok
  | cut kept e => exact make_spec tree path bytes _ ok
  | asIs n => exact make_spec tree path bytes _ ok

end Succeeds

/-! The calls as programs. -/

abbrev FsProg (α : Type) := Prog FsOp FsRet α

def pathExists (path : Path) : FsProg Bool := Prog.perform (FsOp.pathExists path)

def fileLen (path : Path) : FsProg (Except IoError Nat) := Prog.perform (FsOp.fileLen path)

def readFile (path : Path) : FsProg (Except IoError Bytes) := Prog.perform (FsOp.readFile path)

def createDirAll (path : Path) : FsProg (Except IoError Unit) := Prog.perform (FsOp.createDirAll path)

def rename (source target : Path) : FsProg (Except IoError Unit) :=
  Prog.perform (FsOp.rename source target)

def copy (source target : Path) : FsProg (Except IoError Unit) :=
  Prog.perform (FsOp.copy source target)

def removeFile (path : Path) : FsProg (Except IoError Unit) := Prog.perform (FsOp.removeFile path)

def writeFile (path : Path) (bytes : Bytes) : FsProg (Except IoError Unit) :=
  Prog.perform (FsOp.writeFile path bytes)

def nanos : FsProg Nat := Prog.perform FsOp.nanos

example : suffixed ["arch", "report.csv"] 1 = ["arch", "report.1.csv"] := by decide

example : suffixed ["arch", ".data"] 2 = ["arch", ".data.2"] := by decide

end FileReplicator.FileTree
