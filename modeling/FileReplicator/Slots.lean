import FileReplicator.Admission
import FileReplicator.Counting
import FileReplicator.Exclusion
import FileReplicator.Instance

/-!
# Slots

The ticks of any number of instances with the permits their items take: one of
the gate that all instances share, and one of the semaphore of the instance. The
rest of a tick is the tick of the instance; of an item only its end plays a part.
-/

namespace FileReplicator.Slots

open Effects Interleaving Exclusion
open Operations hiding Admission
open Admission hiding step run

variable {Name : Type} [DecidableEq Name]

/-! ## Programs -/

inductive Op (Name : Type) where
  | inner (operation : Operations.Op)
  | lock (name : Name)
  | unlock (name : Name)
  /-- `PriorityGate::acquire` up to its return or its suspension. -/
  | enterGate (name : Name)
  /-- The suspended acquire is polled and finds its permit. -/
  | observe (key : Key)
  | acquireOwned (name : Name)
  | spawn (name : Name) (item : Domain.WorkItem) (now : Int)
  | next (closable : Bool)
  /-- An item is processed until it ends, panics or is aborted. -/
  | process
  | dropGlobal
  | dropPerInstance (name : Name)

/-- What an acquire that did not find a free permit waits under. -/
abbrev Ret : Op Name → Type
  | .inner operation => Operations.Ret operation
  | .enterGate _ => Option Key
  | .next _ => BatchEvent
  | _ => Unit

abbrev Program (Name : Type) (α : Type) := Prog (Op Name) Ret α

def op (operation : Op Name) : Program Name (Ret operation) := Prog.perform operation

/-- `PriorityGate::acquire`. -/
def acquireGlobal (name : Name) : Program Name Unit := do
  match ← op (.enterGate name) with
  | none => return ()
  | some key => op (.observe key)

def acquireSlot (name : Name) : Program Name Unit := do
  acquireGlobal name
  op (.acquireOwned name)

/-- The loop that starts a batch: each item takes its slot along. -/
def spawnEach (name : Name) (now : Int) : List Domain.WorkItem → Program Name Unit
  | [] => return ()
  | item :: rest => do
      acquireSlot name
      op (.spawn name item now)
      spawnEach name now rest

def slotted (name : Name) : (operation : Operations.Op) → Program Name (Operations.Ret operation)
  | .lockTick => op (.lock name)
  | .unlockTick => op (.unlock name)
  | .spawnBatch items now => spawnEach name now items
  | .nextOfBatch closable => op (.next closable)
  | operation => op (.inner operation)

/-- The guard of the slot goes with the task, whichever way the task ends. -/
def runItem (name : Name) : Program Name Unit := do
  op .process
  op .dropGlobal
  op (.dropPerInstance name)

inductive Spec (Name : Type) where
  | tick (name : Name) (now : Int) (ignoreWindow redriveCleanup : Bool) (fuel : Nat)
  | item (name : Name) (owner : Nat) (item : Domain.WorkItem)

def main (setups : Name → Setup) : Spec Name → Program Name Unit
  | .tick name now ignoreWindow redriveCleanup fuel =>
      (Instance.runTick (setups name) now ignoreWindow redriveCleanup fuel).into (slotted name)
  | .item name _ _ => runItem name

/-! ## The permits -/

structure World (Name : Type) where
  gate : Gate
  /-- The free permits of the semaphore of each instance. -/
  available : Name → Nat
  ticking : Name → Bool

/-- How all that has nothing to do with slots ends. -/
abbrev Answer := (operation : Operations.Op) → Operations.Ret operation

inductive Event (Name : Type) where
  /-- A tick of the run loop or of a trigger. -/
  | tick (name : Name) (now : Int) (ignoreWindow redriveCleanup : Bool) (fuel : Nat)

def fits : (operation : Operations.Op) → Operations.Ret operation → Bool
  | .store (.claimReady limit _), .ok batch => batch.length ≤ limit
  | _, _ => true

abbrev Call (Name : Type) (operation : Op Name) :=
  Option (Ret operation × Effect (World Name) (Spec Name))

def changes (world : World Name) : Effect (World Name) (Spec Name) :=
  ⟨world, [], fun _ _ => .stays⟩

section Calls

variable (priority : Name → Int) (world : World Name)

def enter (name : Name) : Call Name (.enterGate name) :=
  let gate := world.gate.acquire (priority name)
  if 0 < world.gate.permits ∧ world.gate.waiters = [] then
    some (none, changes { world with gate := gate })
  else
    some (some (key (priority name) world.gate.nextSeq), changes { world with gate := gate })

def take (name : Name) : Call Name (.acquireOwned name) :=
  if 0 < world.available name then
    some ((), changes { world with
      available := fun n => if n = name then world.available n - 1 else world.available n })
  else none

def isItemOf (id : Nat) : Spec Name → Bool
  | .item _ owner _ => owner = id
  | _ => false

def awaitBatch (live : List (Spec Name)) (id : Nat) (closable : Bool) : BatchEvent →
    Call Name (.next closable)
  | .drained => if live.any (isItemOf id) then none else some (.drained, changes world)
  | .closed => if closable then some (.closed, changes world) else none

def perform {Notes : Type} (t : Thread (Op Name) Ret (Spec Name) Notes) (live : List (Spec Name)) :
    (operation : Op Name) → Answer → Call Name operation
  | .inner operation, answer =>
      if fits operation (answer operation) then some (answer operation, changes world) else none
  | .lock name, _ =>
      if world.ticking name then none
      else some ((), changes { world with
        ticking := fun n => if n = name then true else world.ticking n })
  | .unlock name, _ =>
      some ((), changes { world with
        ticking := fun n => if n = name then false else world.ticking n })
  | .enterGate name, _ => enter priority world name
  | .observe key, _ =>
      (world.gate.observe key).map fun gate => ((), changes { world with gate := gate })
  | .acquireOwned name, _ => take world name
  | .spawn name item _, _ => some ((), ⟨world, [.item name t.id item], fun _ _ => .stays⟩)
  | .next closable, answer => awaitBatch world live t.id closable (answer (.nextOfBatch closable))
  | .process, _ => some ((), changes world)
  | .dropGlobal, _ => world.gate.dropGuard.map fun gate => ((), changes { world with gate := gate })
  | .dropPerInstance name, _ =>
      some ((), changes { world with
        available := fun n => if n = name then world.available n + 1 else world.available n })

end Calls

inductive Did (priority : Name → Int) (id : Nat) (live : List (Spec Name)) (world : World Name) :
    (operation : Op Name) → Ret operation → Effect (World Name) (Spec Name) → Prop where
  | inner (operation : Operations.Op) (ret : Operations.Ret operation) (fit : fits operation ret = true) :
      Did priority id live world (.inner operation) ret (changes world)
  | locked (name : Name) (free : world.ticking name = false) :
      Did priority id live world (.lock name) () (changes { world with
        ticking := fun n => if n = name then true else world.ticking n })
  | unlocked (name : Name) :
      Did priority id live world (.unlock name) () (changes { world with
        ticking := fun n => if n = name then false else world.ticking n })
  | passed (name : Name) (free : 0 < world.gate.permits ∧ world.gate.waiters = []) :
      Did priority id live world (.enterGate name) none
        (changes { world with gate := world.gate.acquire (priority name) })
  | queued (name : Name) (taken : ¬ (0 < world.gate.permits ∧ world.gate.waiters = [])) :
      Did priority id live world (.enterGate name)
        (some (key (priority name) world.gate.nextSeq))
        (changes { world with gate := world.gate.acquire (priority name) })
  | observed (key : Key) (gate : Gate) (granted : world.gate.observe key = some gate) :
      Did priority id live world (.observe key) () (changes { world with gate := gate })
  | acquired (name : Name) (free : 0 < world.available name) :
      Did priority id live world (.acquireOwned name) () (changes { world with
        available := fun n => if n = name then world.available n - 1 else world.available n })
  | spawned (name : Name) (item : Domain.WorkItem) (now : Int) :
      Did priority id live world (.spawn name item now) ()
        ⟨world, [.item name id item], fun _ _ => .stays⟩
  | drained (closable : Bool) (nobody : live.any (isItemOf id) = false) :
      Did priority id live world (.next closable) .drained (changes world)
  | closed : Did priority id live world (.next true) .closed (changes world)
  | processed : Did priority id live world .process () (changes world)
  | released (gate : Gate) (dropped : world.gate.dropGuard = some gate) :
      Did priority id live world .dropGlobal () (changes { world with gate := gate })
  | returned (name : Name) :
      Did priority id live world (.dropPerInstance name) () (changes { world with
        available := fun n => if n = name then world.available n + 1 else world.available n })

theorem did_of_perform {Notes : Type} (priority : Name → Int)
    (t : Thread (Op Name) Ret (Spec Name) Notes) (live : List (Spec Name)) (world : World Name)
    (operation : Op Name) (answer : Answer) (ret : Ret operation)
    (effect : Effect (World Name) (Spec Name))
    (performed : perform priority world t live operation answer = some (ret, effect)) :
    Did priority t.id live world operation ret effect := by
  cases operation with
  | inner operation =>
      simp only [perform] at performed
      split at performed
      · rename_i fit
        cases performed
        exact .inner operation _ fit
      · cases performed
  | lock name =>
      simp only [perform] at performed
      split at performed
      · cases performed
      · rename_i free
        cases performed
        exact .locked name (by simpa using free)
  | unlock name =>
      cases performed
      exact .unlocked name
  | enterGate name =>
      simp only [perform, enter] at performed
      split at performed
      · rename_i free
        cases performed
        exact .passed name free
      · rename_i taken
        cases performed
        exact .queued name taken
  | observe key =>
      obtain ⟨gate, granted, same⟩ := Option.map_eq_some_iff.mp performed
      cases same
      exact .observed key gate granted
  | acquireOwned name =>
      simp only [perform, take] at performed
      split at performed
      · rename_i free
        cases performed
        exact .acquired name free
      · cases performed
  | spawn name item now =>
      cases performed
      exact .spawned name item now
  | next closable =>
      simp only [perform, awaitBatch] at performed
      split at performed
      · split at performed
        · cases performed
        · rename_i nobody
          cases performed
          exact .drained closable (by simpa using nobody)
      · split at performed
        · rename_i may
          cases performed
          subst may
          exact .closed
        · cases performed
  | process =>
      cases performed
      exact .processed
  | dropGlobal =>
      obtain ⟨gate, dropped, same⟩ := Option.map_eq_some_iff.mp performed
      cases same
      exact .released gate dropped
  | dropPerInstance name =>
      cases performed
      exact .returned name

def react (world : World Name) : Event Name → Option (Reaction (World Name) (Spec Name))
  | .tick name now ignoreWindow redriveCleanup fuel =>
      some ⟨world, false, [.tick name now ignoreWindow redriveCleanup fuel]⟩

end FileReplicator.Slots
