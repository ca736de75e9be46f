import FileReplicator.ScheduledTicks
import FileReplicator.TickCalls

/-!
# Ticks in time

The ticks of one instance with the clock, the flag that activates it and the
items of a batch started one by one. Time may pass before every call: while a
tick waits for the lock, walks the spool or waits for a slot.
-/

namespace FileReplicator.TimedTicks

open Effects Interleaving Scheduling
open ScheduledTicks (Answer Spec Step)
open Operations hiding Admission evaluateSchedule Op Ret Program

inductive Op where
  | scheduled (operation : ScheduledTicks.Op)
  /-- The deadline of the open span is set, unless it is. -/
  | arm
  /-- The clock has come to the deadline. -/
  | passed
  | acquireSlot
  | start (item : Domain.WorkItem) (now : Int)

abbrev Ret : Op → Type
  | .scheduled operation => ScheduledTicks.Ret operation
  | .passed => Bool
  | _ => Unit

abbrev Program (α : Type) := Prog Op Ret α

def op (operation : Op) : Program (Ret operation) := Prog.perform operation

def startEach (now : Int) : List Domain.WorkItem → Program Unit
  | [] => return ()
  | item :: rest => do
      op .acquireSlot
      op (.start item now)
      startEach now rest

def timed : (operation : ScheduledTicks.Op) → Program (ScheduledTicks.Ret operation)
  | .inner .deadlinePassed => do
      op .arm
      op .passed
  | .inner (.spawnBatch items now) => startEach now items
  | operation => op (.scheduled operation)

variable (setup : Setup)

def main (spec : Spec) : Program Unit :=
  (ScheduledTicks.runTick setup spec.now spec.ignoreWindow spec.redriveCleanup spec.fuel).into timed

/-! ## The world -/

structure World where
  clock : Int
  active : Bool
  ticking : Bool
  track : Track
  /-- Until when the window that admitted a tick is open. -/
  closeAt : Nat → Option Int
  deadline : Nat → Option Int

inductive Event where
  | wait (ms : Nat)
  | setActive (active : Bool)
  /-- A tick of the run loop, on its interval or nudged. -/
  | periodic (fuel : Nat)
  | trigger (ignoreWindow : Bool) (fuel : Nat)

abbrev Choice := Interleaving.Choice Answer Event

def closeOf : Admission → Option Int
  | .windowed closeAt _ => some closeAt
  | _ => none

def set {α : Type} (values : Nat → α) (id : Nat) (value : α) : Nat → α :=
  fun other => if other = id then value else values other

def changes (world : World) : Effect World Spec := ⟨world, [], fun _ _ => .stays⟩

/-- The deadline is as far from the clock as the close was from the moment of the tick. -/
def deadlineFor (clock now closeAt : Int) : Int := clock + max 0 (closeAt - now)

def perform (schedule : Schedule) (id : Nat) (spec : Spec) (world : World) :
    (operation : Op) → Answer → Option (Ret operation × Effect World Spec)
  | .scheduled (.inner .isActive), _ => some (world.active, changes world)
  | .scheduled (.inner operation), answer => some (answer operation, changes world)
  | .scheduled .lock, _ =>
      if world.ticking then none else some ((), changes { world with ticking := true })
  | .scheduled .unlock, _ => some ((), changes { world with ticking := false })
  | .scheduled (.evaluate now), _ =>
      let out := Scheduling.evaluateSchedule schedule now world.track
      some (out.1, changes { world with
        track := out.2
        closeAt := set world.closeAt id (closeOf out.1.1)
        deadline := set world.deadline id none })
  | .scheduled (.emit _), _ => some ((), changes world)
  | .scheduled .shut, _ =>
      some ((), changes { world with track := { world.track with windowOpen := false } })
  | .arm, _ =>
      match world.deadline id, world.closeAt id with
      | none, some closeAt =>
          some ((), changes { world with
            deadline := set world.deadline id (some (deadlineFor world.clock spec.now closeAt)) })
      | _, _ => some ((), changes world)
  | .passed, _ =>
      (world.deadline id).map fun deadline => (decide (deadline ≤ world.clock), changes world)
  | .acquireSlot, _ => some ((), changes world)
  | .start _ _, _ => some ((), changes world)

def react (world : World) : Event → Option (Reaction World Spec)
  | .wait ms => some ⟨{ world with clock := world.clock + ms }, false, []⟩
  | .setActive active => some ⟨{ world with active := active }, false, []⟩
  | .periodic fuel => some ⟨world, false, [⟨world.clock, false, false, fuel⟩]⟩
  | .trigger ignoreWindow fuel => some ⟨world, false, [⟨world.clock, ignoreWindow, true, fuel⟩]⟩

def machine {Notes : Type} (schedule : Schedule) (discipline : Discipline Op Ret Notes)
    (start : Spec → Notes) : Machine Op Ret World Spec Notes Answer Event where
  discipline := discipline
  finished := fun _ => True
  main := main setup
  start := start
  owner := fun _ => none
  perform := fun t _ world operation answer => perform schedule t.id t.spec world operation answer
  react := fun _ world event => react world event

abbrev State (Notes : Type) := Config Op Ret World Spec Notes

structure Begins {Notes : Type} (c : State Notes) : Prop where
  threads : c.threads = []
  closeAt : ∀ id, c.state.closeAt id = none
  deadline : ∀ id, c.state.deadline id = none

def takes : Op → Bool
  | .scheduled (.inner (.store (.claimReady _ _))) => true
  | .start _ _ => true
  | _ => false

def takesNext : Program Unit → Bool
  | .call operation _ => takes operation
  | .done _ => false

section Calls

variable (schedule : Schedule) (id : Nat) (spec : Spec) (world : World)

structure Plain (effect : Effect World Spec) : Prop where
  clock : effect.state.clock = world.clock
  active : effect.state.active = world.active
  alone : effect.spawned = []
  stays : ∀ other it, effect.fate other it = .stays
  others : ∀ other, other ≠ id → effect.state.closeAt other = world.closeAt other ∧
    effect.state.deadline other = world.deadline other

theorem plain_changes (after : World) (clock : after.clock = world.clock)
    (active : after.active = world.active)
    (others : ∀ other, other ≠ id → after.closeAt other = world.closeAt other ∧
      after.deadline other = world.deadline other) : Plain id world (changes after) :=
  ⟨clock, active, rfl, fun _ _ => rfl, others⟩

theorem plain_of_perform (operation : Op) (answer : Answer) (ret : Ret operation)
    (effect : Effect World Spec)
    (performed : perform schedule id spec world operation answer = some (ret, effect)) :
    Plain id world effect := by
  have same : Plain id world (changes world) :=
    plain_changes id world world rfl rfl fun _ _ => ⟨rfl, rfl⟩
  have away : ∀ {α : Type} (values : Nat → α) (value : α) (other : Nat), other ≠ id →
      set values id value other = values other := fun values value other apart => if_neg apart
  unfold perform at performed
  split at performed
  · cases performed; exact same
  · cases performed; exact same
  · split at performed
    · cases performed
    · cases performed
      exact plain_changes id world _ rfl rfl fun _ _ => ⟨rfl, rfl⟩
  · cases performed
    exact plain_changes id world _ rfl rfl fun _ _ => ⟨rfl, rfl⟩
  · cases performed
    exact plain_changes id world _ rfl rfl fun other apart =>
      ⟨away _ _ other apart, away _ _ other apart⟩
  · cases performed; exact same
  · cases performed
    exact plain_changes id world _ rfl rfl fun _ _ => ⟨rfl, rfl⟩
  · split at performed
    · cases performed
      exact plain_changes id world _ rfl rfl fun other apart => ⟨rfl, away _ _ other apart⟩
    · cases performed; exact same
  · obtain ⟨deadline, _, both⟩ := Option.map_eq_some_iff.mp performed
    cases both
    exact same
  · cases performed; exact same
  · cases performed; exact same

end Calls

def finding (batch : List Domain.WorkItem) : Answer
  | .store (.claimReady _ _) => .ok batch
  | operation => ScheduledTicks.nothingToDo operation

def goes (id calls : Nat) (batch : List Domain.WorkItem) : List Choice :=
  List.replicate calls (.run id (finding batch))

def oneItem : Domain.WorkItem := ⟨"plant", "a", .inProgress, 0, 0, 0, 0, 0, none, 0, 0⟩

def smallStart (Notes : Type) : State Notes :=
  ⟨⟨0, true, false, freshTrack, fun _ => none, fun _ => none⟩, [], 0⟩

theorem small_begins (Notes : Type) : Begins (smallStart Notes) := ⟨rfl, fun _ => rfl, fun _ => rfl⟩

end FileReplicator.TimedTicks
