import Mathlib.Logic.Relation
import FileReplicator.Sharing
import FileReplicator.SqliteStore
import FileReplicator.Runs

/-!
# The instances of a component

All instances of a process over one database, one disk and the servers they deliver
to, each with its own threads. Two of them may deliver to one directory or bucket,
and one may read what another writes. To each of them the run of the whole is a run
of its own, in which the others are no more than changes on the disk and at its
destinations.
-/

namespace FileReplicator.Component

open Domain Effects FileTree Operations Interleaving Instance Sharing SqliteStore Steps

/-- Where a delivery ends up: at a file of this disk or at an object of a server. -/
inductive Place where
  | file (path : Path)
  | object (server key : String)
  deriving DecidableEq

structure Layout where
  place : String → String → String → Place
  /-- An instance has finitely many names for one place. -/
  names : String → Place → List (String × String)
  spelled : ∀ name place' relpath label,
    (relpath, label) ∈ names name place' ↔ place name relpath label = place'
  /-- The modification times of the files that are written this way. -/
  stamp : Nat → Int

structure Shared where
  db : Database
  tree : Tree
  /-- The objects of the servers. -/
  objects : String → String → Option Bytes
  /-- How many times something was put at a place. -/
  puts : Nat
  /-- What an instance has to itself; its store, its tree and its objects are not from here. -/
  worlds : String → World

def held (tree : Tree) (objects : String → String → Option Bytes) : Place → Option Bytes
  | .file path =>
      match tree path with
      | some (.file bytes _) => some bytes
      | _ => none
  | .object server key => objects server key

section Layouts

variable (layout : Layout)

/-- The objects of an instance, by its own names for them. -/
def objectsOf (tree : Tree) (objects : String → String → Option Bytes) (name relpath label : String) :
    Option Bytes :=
  held tree objects (layout.place name relpath label)

def view (sh : Shared) (name : String) : World :=
  { sh.worlds name with
    store := sh.db.store name
    tree := sh.tree
    objects := objectsOf layout sh.tree sh.objects name }

def putAt (sh : Shared) (place : Place) (object : Option Bytes) : Shared :=
  match place with
  | .file path =>
      { sh with
        tree := put sh.tree path (object.map fun bytes => .file bytes (layout.stamp sh.puts))
        puts := sh.puts + 1 }
  | .object server key =>
      { sh with
        objects := fun s k => if s = server ∧ k = key then object else sh.objects s k
        puts := sh.puts + 1 }

def share (sh : Shared) (name : String) (db : Database) (world : World) : Shared where
  db := db
  tree := world.tree
  objects := sh.objects
  puts := sh.puts
  worlds := Function.update sh.worlds name world

/-- The object that a delivery has put at its destination. -/
def delivered : Op → Answer → Option (String × String)
  | .deliver item label _, .asIs => some (item.relpath, label)
  | .deliver item label _, .failed _ true _ => some (item.relpath, label)
  | _, _ => none

def altered : Event → Option (String × String)
  | .alter relpath label _ => some (relpath, label)
  | _ => none

/-- What an instance has written goes to its place. -/
def land (sh : Shared) (name : String) (world : World) : Option (String × String) → Shared
  | some (relpath, label) =>
      putAt layout sh (layout.place name relpath label) (world.objects relpath label)
  | none => sh

/-- A delivery that fails leaves its checkpoint in the tables. -/
def tablesAfter (db : Database) (name : String) : Op → Answer → Database
  | .deliver item label _, .failed _ _ left => db.setResume name item.relpath label left
  | _, _ => db

variable (setups : String → Setup)

def perform {Notes : Type} (name : String) (t : Thread Op Ret Spec Notes) (live : List Spec)
    (sh : Shared) (operation : Op) (answer : Answer) :
    Option (Ret operation × Effect Shared Spec) :=
  match operation, answer with
  | .store operation, .asIs =>
      if fits sh.db operation then
        let out := callDatabase sh.db name operation
        some (out.1, ⟨{ sh with db := out.2 }, [], fun _ _ => .stays⟩)
      else none
  | operation, answer =>
      (Instance.perform (setups name) (view layout sh name) t live operation answer).map fun out =>
        let after := share sh name (tablesAfter sh.db name operation answer) out.2.state
        (out.1, ⟨land layout after name out.2.state (delivered operation answer), out.2.spawned,
          out.2.fate⟩)

def react (name : String) (live : List Spec) (sh : Shared) (event : Event) :
    Option (Reaction Shared Spec) :=
  (Instance.react (view layout sh name) live event).map fun out =>
    ⟨land layout (share sh name sh.db out.state) name out.state (altered event), out.stops,
      out.spawned⟩

end Layouts

def IsForeign (event : Event) : Prop :=
  (∃ path node, event = .touch path node) ∨
    ∃ relpath label object, event = .alter relpath label object

def Sound (sh : Shared) : Prop := Written sh.db

def Rewritten : Tree → Tree → Prop :=
  Relation.ReflTransGen fun tree after => ∃ path node, after = put tree path node

theorem call_fs_kept (kept : Tree → Prop)
    (change : ∀ tree path node, kept tree → kept (put tree path node)) (tree : Tree)
    (operation : FsOp) (answer : FsAnswer) (holds : kept tree) :
    kept (callFs tree operation answer).2 := by
  have made : ∀ target bytes cut, kept (makeFile tree target bytes cut).2 := by
    intro target bytes cut
    unfold makeFile
    split
    · exact holds
    · exact change tree target _ holds
    · exact change tree target _ holds
  have copied : ∀ source target cut, kept (copyFile tree source target cut).2 := by
    intro source target cut
    unfold copyFile
    split
    · exact made target _ cut
    · exact holds
    · exact holds
  have asIs : ∀ n, kept (callAsIs tree n operation).2 := by
    intro n
    cases operation with
    | createDirAll path =>
        simp only [callAsIs, createDirs]
        split
        · exact holds
        · -- the directories on the way are made one by one
          have onTheWay : ∀ way : List Path,
              kept fun p => if p ∈ way then some .dir else tree p := by
            intro way
            induction way with
            | nil => simpa using holds
            | cons first rest ih =>
                have step : (fun p => if p ∈ first :: rest then some Node.dir else tree p) =
                    put (fun p => if p ∈ rest then some .dir else tree p) first (some .dir) := by
                  funext p
                  by_cases here : p = first <;> simp [put, here]
                rw [step]
                exact change _ first _ ih
          have inits : (fun p => if p.isPrefixOf path then some Node.dir else tree p) =
              fun p => if p ∈ path.inits then some .dir else tree p := by
            funext p
            simp only [List.isPrefixOf_iff_prefix, List.mem_inits]
          show kept fun p => if p.isPrefixOf path then some .dir else tree p
          rw [inits]
          exact onTheWay path.inits
    | rename source target =>
        simp only [callAsIs, renameFile]
        split
        · split
          · exact change _ target _ (change tree source _ holds)
          · exact holds
        · exact holds
        · exact holds
    | copy source target => exact copied source target none
    | removeFile path =>
        simp only [callAsIs, removeFileAt]
        split
        · exact change tree path _ holds
        · exact holds
        · exact holds
    | writeFile path bytes => exact made path bytes none
    | _ => exact holds
  cases answer with
  | asIs n => exact asIs n
  | fails e => exact holds
  | cut n e =>
      cases operation with
      | copy source target => exact copied source target _
      | writeFile path bytes => exact made path bytes _
      | _ => exact holds

theorem call_fs_rewritten (tree : Tree) (operation : FsOp) (answer : FsAnswer) :
    Rewritten tree (callFs tree operation answer).2 :=
  call_fs_kept (Rewritten tree) (fun _ path node before => before.tail ⟨path, node, rfl⟩) tree
    operation answer .refl

theorem held_put (tree : Tree) (objects : String → String → Option Bytes) (path : Path)
    (node : Option Node) (place : Place) (other : place ≠ .file path) :
    held (put tree path node) objects place = held tree objects place := by
  cases place with
  | file p =>
      have apart : p ≠ path := fun same => other (congrArg Place.file same)
      simp only [held, put_other tree path p node apart]
  | object server key => rfl

theorem held_put_at (layout : Layout) (sh : Shared) (written place : Place) (object : Option Bytes)
    (other : place ≠ written) :
    held (putAt layout sh written object).tree (putAt layout sh written object).objects place =
      held sh.tree sh.objects place := by
  cases written with
  | file path => exact held_put sh.tree sh.objects path _ place other
  | object server key =>
      cases place with
      | file path => rfl
      | object s k =>
          simp only [held, putAt]
          rw [if_neg]
          rintro ⟨rfl, rfl⟩
          exact other rfl

theorem put_at_db (layout : Layout) (sh : Shared) (place : Place) (object : Option Bytes) :
    (putAt layout sh place object).db = sh.db := by
  cases place <;> rfl

theorem put_at_worlds (layout : Layout) (sh : Shared) (place : Place) (object : Option Bytes) :
    (putAt layout sh place object).worlds = sh.worlds := by
  cases place <;> rfl

/-! ## What an instance does, and what comes to the others -/

section Machines

variable {Notes : Type} (layout : Layout) (setups : String → Setup)
variable (discipline : String → Discipline Op Ret Notes) (finished : Notes → Prop)
variable (start : Spec → Notes)

def component : System String Op Ret Shared World Spec Notes Answer Event where
  alone := fun name => machine (setups name) (discipline name) finished start
  perform := perform layout setups
  react := react layout
  view := view layout

theorem drift_objects (name : String) (world : World) (names : List (String × String))
    (object : String → String → Option Bytes) :
    Drift ((component layout setups discipline finished start).alone name) IsForeign world
      { world with
        objects := fun r l => if (r, l) ∈ names then object r l else world.objects r l } := by
  induction names generalizing world with
  | nil =>
      simp only [List.not_mem_nil, if_false]
      exact .stay world
  | cons first rest ih =>
      obtain ⟨relpath, label⟩ := first
      have later := ih (setObject world relpath label (object relpath label))
      have all : (fun r l => if (r, l) ∈ rest then object r l
            else (setObject world relpath label (object relpath label)).objects r l) =
          fun r l => if (r, l) ∈ (relpath, label) :: rest then object r l else world.objects r l := by
        funext r l
        by_cases here : r = relpath ∧ l = label
        · obtain ⟨rfl, rfl⟩ := here
          simp [setObject]
        · simp [setObject, here]
      rw [all] at later
      exact .move _ _ _ (.alter relpath label (object relpath label)) (.inr ⟨relpath, label, _, rfl⟩)
        (fun _ => rfl) later

/-- What changes at one place changes under all names that an instance has for it. -/
theorem drift_place (name : String) (world : World) (place : Place) (tree : Tree)
    (objects : String → String → Option Bytes)
    (same : ∀ relpath label, layout.place name relpath label ≠ place →
      world.objects relpath label = objectsOf layout tree objects name relpath label) :
    Drift ((component layout setups discipline finished start).alone name) IsForeign world
      { world with objects := objectsOf layout tree objects name } := by
  have drift := drift_objects layout setups discipline finished start name world
    (layout.names name place) (objectsOf layout tree objects name)
  have all : (fun r l => if (r, l) ∈ layout.names name place
      then objectsOf layout tree objects name r l else world.objects r l) =
        objectsOf layout tree objects name := by
    funext r l
    split
    · rfl
    · rename_i other
      exact same r l fun spelled => other ((layout.spelled name place r l).mpr spelled)
  rwa [all] at drift

theorem drift_put_at (name : String) (world : World) (sh : Shared) (place : Place)
    (object : Option Bytes) (tree : world.tree = sh.tree)
    (same : ∀ relpath label, layout.place name relpath label ≠ place →
      world.objects relpath label = objectsOf layout sh.tree sh.objects name relpath label) :
    Drift ((component layout setups discipline finished start).alone name) IsForeign world
      { world with
        tree := (putAt layout sh place object).tree
        objects := objectsOf layout (putAt layout sh place object).tree
          (putAt layout sh place object).objects name } := by
  have others : ∀ relpath label, layout.place name relpath label ≠ place →
      world.objects relpath label = objectsOf layout (putAt layout sh place object).tree
        (putAt layout sh place object).objects name relpath label := fun relpath label apart =>
    (same relpath label apart).trans (held_put_at layout sh place _ object apart).symm
  cases place with
  | file path =>
      refine .move _ { world with tree := (putAt layout sh (.file path) object).tree } _
        (.touch path (object.map fun bytes => .file bytes (layout.stamp sh.puts)))
        (.inl ⟨path, _, rfl⟩) (fun _ => ?_) ?_
      · show some _ = some _
        rw [tree]
        rfl
      · exact drift_place layout setups discipline finished start name
          { world with tree := (putAt layout sh (.file path) object).tree } (.file path) _ _ others
  | object server key =>
      have kept : (putAt layout sh (.object server key) object).tree = world.tree := tree.symm
      have drift := drift_place layout setups discipline finished start name world
        (.object server key) (putAt layout sh (.object server key) object).tree
        (putAt layout sh (.object server key) object).objects others
      rw [kept] at drift ⊢
      exact drift

/-- A new tree is one change after the other, and what is somebody's object follows. -/
theorem drift_tree (name : String) (world : World) (objects : String → String → Option Bytes)
    (after : Tree) (rewritten : Rewritten world.tree after)
    (sees : world.objects = objectsOf layout world.tree objects name) :
    Drift ((component layout setups discipline finished start).alone name) IsForeign world
      { world with tree := after, objects := objectsOf layout after objects name } := by
  induction rewritten with
  | refl =>
      rw [← sees]
      exact .stay world
  | @tail tree _ _ change ih =>
      obtain ⟨path, node, rfl⟩ := change
      refine drift_trans _ _ _ _ _ ih (.move _
        { world with tree := put tree path node, objects := objectsOf layout tree objects name } _
        (.touch path node) (.inl ⟨path, node, rfl⟩) (fun _ => rfl) ?_)
      exact drift_place layout setups discipline finished start name
        { world with tree := put tree path node, objects := objectsOf layout tree objects name }
        (.file path) (put tree path node) objects fun relpath label apart =>
          (held_put tree objects path node _ apart).symm

theorem drift_on_tree (name : String) (world : World) (objects : String → String → Option Bytes)
    (before after : Tree) (rewritten : Rewritten before after)
    (sees : world.objects = objectsOf layout before objects name) :
    Drift ((component layout setups discipline finished start).alone name) IsForeign world
      { world with objects := objectsOf layout after objects name } := by
  induction rewritten with
  | refl =>
      rw [← sees]
      exact .stay world
  | @tail tree _ _ change ih =>
      obtain ⟨path, node, rfl⟩ := change
      exact drift_trans _ _ _ _ _ ih
        (drift_place layout setups discipline finished start name
          { world with objects := objectsOf layout tree objects name } (.file path)
          (put tree path node) objects fun relpath label apart =>
            (held_put tree objects path node _ apart).symm)

/-- What an instance has written of the disk and of its objects. -/
inductive Wrote (before after : World) : Option (String × String) → Prop where
  | disk (tree : Rewritten before.tree after.tree) (objects : after.objects = before.objects) :
      Wrote before after none
  | object (relpath label : String) (tree : after.tree = before.tree)
      (others : ∀ r l, (r, l) ≠ (relpath, label) → after.objects r l = before.objects r l) :
      Wrote before after (some (relpath, label))

theorem wrote_set_object (before after : World) (relpath label : String) (object : Option Bytes)
    (same : after.tree = before.tree ∧ after.objects = before.objects) :
    Wrote before (setObject after relpath label object) (some (relpath, label)) := by
  refine .object relpath label same.1 fun r l apart => ?_
  have other : ¬(r = relpath ∧ l = label) := fun both => apart (Prod.ext both.1 both.2)
  simp only [setObject, if_neg other, same.2]

theorem drift_own (sh : Shared) (name : String) (db : Database) (world : World)
    (target : Option (String × String)) (wrote : Wrote (view layout sh name) world target)
    (same : db.store name = world.store) :
    Drift ((component layout setups discipline finished start).alone name) IsForeign world
      (view layout (land layout (share sh name db world) name world target) name) := by
  cases wrote with
  | disk tree objects =>
      have left : view layout (land layout (share sh name db world) name world none) name =
          { world with objects := objectsOf layout world.tree sh.objects name } := by
        simp only [view, land, share, Function.update_self, same]
      rw [left]
      exact drift_on_tree layout setups discipline finished start name world sh.objects sh.tree _
        tree objects
  | object relpath label tree others =>
      have drift := drift_put_at layout setups discipline finished start name world
        (share sh name db world) (layout.place name relpath label) (world.objects relpath label) rfl
        fun r l apart => by
          have written : world.objects r l = objectsOf layout sh.tree sh.objects name r l :=
            others r l fun named => apart (by cases named; rfl)
          have kept : world.tree = sh.tree := tree
          rw [written, ← kept]
          rfl
      have left : view layout
          (land layout (share sh name db world) name world (some (relpath, label))) name =
          { world with
            tree := (putAt layout (share sh name db world) (layout.place name relpath label)
              (world.objects relpath label)).tree
            objects := objectsOf layout (putAt layout (share sh name db world)
                (layout.place name relpath label) (world.objects relpath label)).tree
              (putAt layout (share sh name db world) (layout.place name relpath label)
                (world.objects relpath label)).objects name } := by
        simp only [view, land, put_at_db, put_at_worlds, share, Function.update_self, same]
      rw [left]
      exact drift

theorem drift_other (sh : Shared) (name other : String) (apart : other ≠ name) (db : Database)
    (world : World) (target : Option (String × String))
    (wrote : Wrote (view layout sh name) world target)
    (frame : db.store other = sh.db.store other) :
    Drift ((component layout setups discipline finished start).alone other) IsForeign
      (view layout sh other)
      (view layout (land layout (share sh name db world) name world target) other) := by
  cases wrote with
  | disk tree objects =>
      have left : view layout (land layout (share sh name db world) name world none) other =
          { view layout sh other with
            tree := world.tree, objects := objectsOf layout world.tree sh.objects other } := by
        simp only [view, land, share, Function.update_of_ne apart, frame]
      rw [left]
      exact drift_tree layout setups discipline finished start other (view layout sh other) sh.objects
        world.tree tree rfl
  | object relpath label tree others =>
      have drift := drift_put_at layout setups discipline finished start other (view layout sh other)
        (share sh name db world) (layout.place name relpath label) (world.objects relpath label)
        tree.symm fun r l _ => by
          show objectsOf layout sh.tree sh.objects other r l =
            objectsOf layout world.tree sh.objects other r l
          have kept : world.tree = sh.tree := tree
          rw [kept]
      have left : view layout
          (land layout (share sh name db world) name world (some (relpath, label))) other =
          { view layout sh other with
            tree := (putAt layout (share sh name db world) (layout.place name relpath label)
              (world.objects relpath label)).tree
            objects := objectsOf layout (putAt layout (share sh name db world)
                (layout.place name relpath label) (world.objects relpath label)).tree
              (putAt layout (share sh name db world) (layout.place name relpath label)
                (world.objects relpath label)).objects other } := by
        simp only [view, land, put_at_db, put_at_worlds, share, Function.update_of_ne apart, frame]
      rw [left]
      exact drift

theorem store_after (db : Database) (name : String) (t : Running) (live : List Spec)
    (world : World) (seen : db.store name = world.store) (operation : Op) (answer : Answer)
    (other : ∀ statement, ¬(operation = .store statement ∧ answer = .asIs)) (ret : Ret operation)
    (effect : Effect World Spec)
    (performed : Instance.perform (setups name) world t live operation answer = some (ret, effect)) :
    (tablesAfter db name operation answer).store name = effect.state.store := by
  have did := did_of_perform (setups name) t live world operation answer ret effect performed
  cases operation with
  | store statement =>
      cases answer with
      | asIs => exact absurd ⟨rfl, rfl⟩ (other statement)
      | refused text =>
          cases performed
          exact seen
      | _ => cases performed
  | deliver item label resume =>
      obtain ⟨out, delivered, same⟩ := Option.map_eq_some_iff.mp performed
      cases same
      cases answer with
      | asIs =>
          obtain ⟨bytes, _, rfl⟩ := Option.map_eq_some_iff.mp delivered
          exact seen
      | failed error published left =>
          have checkpoint : (db.setResume name item.relpath label left).store name =
              world.store.setResume item.relpath label left := by
            rw [set_resume_seen, seen]
          simp only [delivers] at delivered
          split at delivered
          · obtain ⟨bytes, _, rfl⟩ := Option.map_eq_some_iff.mp delivered
            exact checkpoint
          · cases delivered
            exact checkpoint
      | _ => cases delivered
  | _ =>
      cases did
      all_goals exact seen

theorem tables_frame (db : Database) (name other : String) (apart : other ≠ name)
    (operation : Op) (answer : Answer) :
    (tablesAfter db name operation answer).store other = db.store other := by
  unfold tablesAfter
  split
  · exact set_resume_frame db name other apart _ _ _
  · rfl

theorem tables_written (db : Database) (name : String) (written : Written db) (operation : Op)
    (answer : Answer) : Written (tablesAfter db name operation answer) := by
  unfold tablesAfter
  split
  · exact ⟨written.states, written.keyed, written.few⟩
  · exact written

theorem wrote_performed (name : String) (t : Running) (live : List Spec) (world : World)
    (operation : Op) (answer : Answer) (ret : Ret operation) (effect : Effect World Spec)
    (performed : Instance.perform (setups name) world t live operation answer = some (ret, effect)) :
    Wrote world effect.state (delivered operation answer) := by
  have did := did_of_perform (setups name) t live world operation answer ret effect performed
  cases operation with
  | fs operation =>
      cases did with
      | disk _ answer => exact .disk (call_fs_rewritten world.tree operation answer) rfl
  | deliver item label resume =>
      obtain ⟨out, outcome, same⟩ := Option.map_eq_some_iff.mp performed
      cases same
      cases answer with
      | asIs =>
          obtain ⟨bytes, _, rfl⟩ := Option.map_eq_some_iff.mp outcome
          exact wrote_set_object world world item.relpath label (some bytes) ⟨rfl, rfl⟩
      | failed error published left =>
          simp only [delivers] at outcome
          cases published with
          | true =>
              obtain ⟨bytes, _, rfl⟩ := Option.map_eq_some_iff.mp outcome
              exact wrote_set_object world
                { world with store := world.store.setResume item.relpath label left } item.relpath
                label (some bytes) ⟨rfl, rfl⟩
          | false =>
              cases outcome
              exact .disk .refl rfl
      | _ => cases outcome
  | _ =>
      cases did
      all_goals exact .disk .refl rfl

theorem wrote_reacted (live : List Spec) (world : World) (event : Event)
    (reaction : Reaction World Spec) (reacted : Instance.react world live event = some reaction) :
    Wrote world reaction.state (altered event) := by
  cases event with
  | touch path node =>
      cases reacted
      exact .disk (.single ⟨path, node, rfl⟩) rfl
  | alter relpath label object =>
      cases reacted
      exact wrote_set_object world world relpath label object ⟨rfl, rfl⟩
  | _ =>
      have tree : reaction.state.tree = world.tree := by
        rcases react_tree live world _ reaction reacted with ⟨_, _, same, _⟩ | same
        · cases same
        · exact same
      have objects : reaction.state.objects = world.objects := by
        rcases react_objects live world _ reaction reacted with ⟨_, _, _, same, _⟩ | same
        · cases same
        · exact same
      exact .disk (tree ▸ .refl) objects

theorem land_db (sh : Shared) (name : String) (world : World) (target : Option (String × String)) :
    (land layout sh name world target).db = sh.db := by
  cases target with
  | none => rfl
  | some target => exact put_at_db layout sh _ _

theorem faithful : Faithful (component layout setups discipline finished start) IsForeign Sound where
  calls := by
    intro name t live sh operation answer ret effect sound performed
    change perform layout setups name t live sh operation answer = some (ret, effect) at performed
    by_cases statement : ∃ operation', operation = .store operation' ∧ answer = .asIs
    · obtain ⟨statement, rfl, rfl⟩ := statement
      simp only [perform] at performed
      split at performed
      · rename_i fit
        obtain ⟨answered, left⟩ := call_seen sh.db name sound statement fit
        obtain ⟨rfl, rfl⟩ := Prod.mk.inj (Option.some.inj performed)
        refine ⟨⟨view layout { sh with db := (callDatabase sh.db name statement).2 } name, ?_,
          .stay _⟩, written_call sh.db name sound statement fit, fun other apart => ?_⟩
        · rw [answered]
          show some _ = some _
          simp only [component, view, left]
          rfl
        · have same : view layout { sh with db := (callDatabase sh.db name statement).2 } other =
              view layout sh other := by
            simp only [view, call_frame sh.db name other apart statement]
          show Drift _ _ _ (view layout _ other)
          rw [same]
          exact .stay _
      · cases performed
    · have other : ∀ statement', ¬(operation = .store statement' ∧ answer = .asIs) :=
        fun statement' both => statement ⟨statement', both⟩
      have mapped : (Instance.perform (setups name) (view layout sh name) t live operation answer).map
          (fun out => (out.1, (⟨land layout
            (share sh name (tablesAfter sh.db name operation answer) out.2.state) name out.2.state
              (delivered operation answer), out.2.spawned, out.2.fate⟩ : Effect Shared Spec))) =
            some (ret, effect) := by
        rw [← performed]
        unfold perform
        split
        · exact absurd ⟨rfl, rfl⟩ (other _)
        · rfl
      obtain ⟨⟨_, own⟩, alone, same⟩ := Option.map_eq_some_iff.mp mapped
      cases same
      have plain := alone
      rw [perform_retold] at plain
      have wrote := wrote_performed setups name (retold t) live (view layout sh name) operation answer
        _ own plain
      refine ⟨⟨own.state, alone, ?_⟩, ?_, fun o apart => ?_⟩
      · exact drift_own layout setups discipline finished start sh name _ own.state _ wrote
          (store_after setups sh.db name (retold t) live (view layout sh name) rfl operation answer
            other _ own plain)
      · show Written (land _ _ _ _ _).db
        rw [land_db]
        exact tables_written sh.db name sound operation answer
      · exact drift_other layout setups discipline finished start sh name o apart _ own.state _ wrote
          (tables_frame sh.db name o apart operation answer)
  events := by
    intro name live sh event reaction sound reacted
    obtain ⟨own, alone, rfl⟩ := Option.map_eq_some_iff.mp reacted
    obtain ⟨store, _⟩ := Runs.react_base _ _ event own alone
    have wrote := wrote_reacted live (view layout sh name) event own alone
    refine ⟨⟨own.state, alone, ?_⟩, ?_, fun other apart => ?_⟩
    · exact drift_own layout setups discipline finished start sh name sh.db own.state _ wrote
        store.symm
    · show Written (land _ _ _ _ _).db
      rw [land_db]
      exact sound
    · exact drift_other layout setups discipline finished start sh name other apart sh.db own.state _
        wrote rfl

/-- No instance runs yet, and the tables are as the statements write them. -/
structure Begins (j : Joint String Op Ret Shared Spec Notes) : Prop where
  written : Sound j.shared
  nobody : ∀ name, j.threads name = []

/-- Every run of the instances is to each of them a run of its own: its own turns, among changes on
the disk and at its destinations that may come from anywhere. -/
theorem instances_run_alone (turns : List (String × Choice Answer Event))
    (j after : Joint String Op Ret Shared Spec Notes) (begins : Begins j)
    (ran : (component layout setups discipline finished start).run j turns = some after) (name : String) :
    ∃ choices, Woven IsForeign (turnsOf name turns) choices ∧
      (machine (setups name) (discipline name) finished start).run (fun _ _ => true)
        ((component layout setups discipline finished start).seen j name) choices =
          some ((component layout setups discipline finished start).seen after name) := by
  apply run_seen (component layout setups discipline finished start) IsForeign Sound
    (faithful layout setups discipline finished start) turns j after begins.written ?_ ran name
  intro other
  rw [begins.nobody other]
  rfl

end Machines

def twoSetups (name : String) : Setup :=
  { Runs.smallSetup Runs.plainCompletion with instanceId := name }

def oneTarget : Layout where
  place := fun _ relpath label =>
    if label = "local" then .file ["out", relpath] else .object label relpath
  names := fun _ place =>
    match place with
    | .file ["out", relpath] => [(relpath, "local")]
    | .file _ => []
    | .object server key => if server = "local" then [] else [(key, server)]
  spelled := by
    intro _ place relpath label
    split
    · by_cases plain : label = "local" <;> simp [plain, eq_comm]
    · rename_i path other
      have apart : ["out", relpath] ≠ path := fun same => other relpath same.symm
      by_cases plain : label = "local" <;> simp [plain, apart]
    · rename_i server key
      by_cases plain : label = "local"
      · by_cases named : server = "local" <;> simp [plain, named, eq_comm]
      · by_cases named : server = "local"
        · simp [plain, named]
        · simp [plain, named, and_comm]
  stamp := Int.ofNat

def twoStart : Joint String Op Ret Shared Spec Protocol.Notes where
  shared :=
    { db := emptyDatabase
      tree := (Runs.smallWorld Runs.oneFile).tree
      objects := fun _ _ => none
      puts := 0
      worlds := fun _ => Runs.smallWorld [] }
  threads := fun _ => []
  next := fun _ => 0

/-- Both have claimed the file; the first delivers and deletes it, and the second delivers what its
source has become since. -/
def twoTurns : List (String × Step) :=
  let claims : List Step := [.env (.boot 0), .env (.trigger 0 false 1)] ++
    Runs.go 1 [.asIs, .asIs, .found [⟨"a", 0, 0⟩], .asIs, .asIs, .asIs, .asIs, .scheduled (.all false),
      .asIs, .asIs]
  let delivers : List Step := Runs.go 2 [.asIs, .asIs] ++ Runs.go 3 (List.replicate 6 .asIs)
  let completes : List Step := Runs.go 2 [.number 0, .asIs, .asIs, .asIs, .asIs] ++
    Runs.go 4 [.disk (.asIs 0), .disk (.asIs 0), .asIs] ++ Runs.go 2 (List.replicate 5 .asIs)
  let appears : Step := .env (.touch ["in", "a"] (some (.file [7] 5)))
  claims.map (Prod.mk "plant") ++ claims.map (Prod.mk "dock") ++
    (delivers ++ completes ++ [appears]).map (Prod.mk "plant") ++ delivers.map (Prod.mk "dock")

def both : System String Op Ret Shared World Spec Protocol.Notes Answer Event :=
  component oneTarget twoSetups (fun name => Protocol.discipline (twoSetups name)) (fun _ => True)
    Protocol.start

/-- The first finds the object of the second where its own was, and its run is one of its own. -/
theorem two_instances_run_alone :
    ∃ after choices, both.run twoStart twoTurns = some after ∧
      (both.seen after "plant").state.objects "a" "local" = some [7] ∧
      Woven IsForeign (turnsOf "plant" twoTurns) choices ∧
      (machine (twoSetups "plant") (Protocol.discipline (twoSetups "plant")) (fun _ => True)
        Protocol.start).run (fun _ _ => true) (both.seen twoStart "plant") choices =
          some (both.seen after "plant") := by
  have runs : (both.run twoStart twoTurns).any
      (fun after => (both.seen after "plant").state.objects "a" "local" = some [7]) = true := by
    decide +kernel
  obtain ⟨after, ran, found⟩ := (Option.any_eq_true _ _).mp runs
  obtain ⟨choices, woven, alone⟩ := instances_run_alone oneTarget twoSetups
    (fun name => Protocol.discipline (twoSetups name)) (fun _ => True) Protocol.start twoTurns twoStart
    after ⟨written_empty, fun _ => rfl⟩ ran "plant"
  exact ⟨after, choices, ran, of_decide_eq_true found, woven, alone⟩

end FileReplicator.Component
