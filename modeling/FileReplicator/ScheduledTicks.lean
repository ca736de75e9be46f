import FileReplicator.Exclusion
import FileReplicator.Instance
import FileReplicator.Scheduling

/-!
# Ticks with their schedule

A tick with what it asks of the schedule and what it announces of it. Everything
else a tick does may end in any way. Left without schedule and announcements it is
the tick of the instance.
-/

namespace FileReplicator.ScheduledTicks

open Effects Interleaving Scheduling
open Operations hiding Admission evaluateSchedule

inductive Announcement where
  | scheduleTriggered
  | windowOpened
  | windowClosed
  | scheduleComplete (mode : String)
  deriving DecidableEq

/-! ## A tick -/

inductive Op where
  | inner (operation : Operations.Op)
  | lock
  | unlock
  | evaluate (now : Int)
  | emit (event : Announcement)
  /-- The shared flag is set to closed. -/
  | shut

abbrev Ret : Op → Type
  | .inner operation => Operations.Ret operation
  | .evaluate _ => Admission × Transition
  | _ => Unit

abbrev Program (α : Type) := Prog Op Ret α

/-- A program that asks nothing of the schedule. -/
def lift {α : Type} (program : Operations.Program α) : Program α :=
  program.into fun operation => Prog.perform (Op.inner operation)

def lock : Program Unit := Prog.perform Op.lock

def unlock : Program Unit := Prog.perform Op.unlock

def evaluate (now : Int) : Program (Admission × Transition) := Prog.perform (Op.evaluate now)

def emit (event : Announcement) : Program Unit := Prog.perform (Op.emit event)

def shut : Program Unit := Prog.perform Op.shut

variable (setup : Setup)

def runBatchWindowed (batch : List Domain.WorkItem) (now : Int) (onClose : WindowClose) :
    Program Bool := do
  lift (spawnBatch batch now)
  match ← lift (nextOfBatch true) with
  | .drained => return false
  | .closed => do
      shut
      emit .windowClosed
      lift (Instance.closeBatch setup batch now onClose)
      emit (.scheduleComplete "window")
      return true

def runWindowed (onClose : WindowClose) (now : Int) : Nat → Program Unit
  | 0 => return ()
  | fuel + 1 => do
      if ← lift deadlinePassed then return ()
      else
        match ← lift (claimReady setup.perLimit now).run with
        | .error _ => return ()
        | .ok [] => return ()
        | .ok batch => do
            if ← runBatchWindowed setup batch now onClose then return ()
            else runWindowed onClose now fuel

def runAdmission (fuel : Nat) (now : Int) : Admission → Program Unit
  | .all drain => lift (Instance.runAdmitted setup drain now fuel)
  | .none => return ()
  | .windowed _ onClose => runWindowed setup onClose now fuel

def admission (now : Int) (ignoreWindow : Bool) : Program (Admission × Transition) :=
  if ignoreWindow then return (.all true, noTransition) else evaluate now

def announceIf (condition : Bool) (events : Program Unit) : Program Unit :=
  if condition then events else return ()

def announce (transition : Transition) : Program Unit := do
  announceIf transition.triggered (emit .scheduleTriggered)
  announceIf transition.windowOpened (emit .windowOpened)
  announceIf transition.windowClosed (do
    emit .windowClosed
    emit (.scheduleComplete "window"))

/-- The rest of a tick, which asks nothing of the schedule. -/
def prepare (now : Int) (redriveCleanup : Bool) : Operations.Program Unit := do
  let ready ← discover
  Instance.enqueueEach now ready
  bestEffort (Instance.promoteDue now)
  bestEffort (Worker.driveCleanup setup now redriveCleanup)

/-- What a tick admits, with what it announces before and after. -/
def serve (fuel : Nat) (now : Int) (evaluated : Admission × Transition) : Program Unit := do
  announce evaluated.2
  runAdmission setup fuel now evaluated.1
  announceIf evaluated.2.triggered (emit (.scheduleComplete "cron"))

def tickBody (now : Int) (ignoreWindow redriveCleanup : Bool) (fuel : Nat) : Program Unit := do
  lock
  lift (prepare setup now redriveCleanup)
  let evaluated ← admission now ignoreWindow
  serve setup fuel now evaluated
  unlock

def runTick (now : Int) (ignoreWindow redriveCleanup : Bool) (fuel : Nat) : Program Unit := do
  if ← lift isActive then tickBody setup now ignoreWindow redriveCleanup fuel
  else return ()

/-! ## The same tick without its schedule -/

def plain : Admission → Operations.Admission
  | .all drain => .all drain
  | .none => .none
  | .windowed _ onClose => .windowed onClose

def scheduled : Operations.Admission → Admission
  | .all drain => .all drain
  | .none => .none
  | .windowed onClose => .windowed 0 onClose

def unscheduled : (operation : Op) → Operations.Program (Ret operation)
  | .inner operation => Prog.perform operation
  | .lock => lockTick
  | .unlock => unlockTick
  | .evaluate _ => do
      let admitted ← Operations.evaluateSchedule
      return (scheduled admitted, noTransition)
  | .emit _ => return ()
  | .shut => return ()

theorem unscheduled_lift {α : Type} (program : Operations.Program α) :
    (lift program).into unscheduled = program := by
  induction program with
  | done value => rfl
  | call operation next ih =>
      show Prog.call operation (fun ret => ((lift (next ret)).into unscheduled)) = _
      exact congrArg (Prog.call operation) (funext ih)

theorem unscheduled_batch (batch : List Domain.WorkItem) (now : Int) (onClose : WindowClose) :
    (runBatchWindowed setup batch now onClose).into unscheduled =
      Instance.runBatchWindowed setup batch now onClose := by
  unfold runBatchWindowed Instance.runBatchWindowed
  rw [Prog.into_bind, unscheduled_lift]
  refine congrArg _ (funext fun _ => ?_)
  rw [Prog.into_bind, unscheduled_lift]
  refine congrArg _ (funext fun event => ?_)
  cases event with
  | drained => rfl
  | closed =>
      show Prog.into unscheduled (lift (Instance.closeBatch setup batch now onClose) >>= _) = _
      rw [Prog.into_bind, unscheduled_lift]
      rfl

theorem unscheduled_windowed (onClose : WindowClose) (now : Int) (fuel : Nat) :
    (runWindowed setup onClose now fuel).into unscheduled =
      Instance.runWindowed setup onClose now fuel := by
  induction fuel with
  | zero => rfl
  | succ fuel ih =>
      unfold runWindowed Instance.runWindowed
      rw [Prog.into_bind, unscheduled_lift]
      refine congrArg _ (funext fun passed => ?_)
      cases passed with
      | true => rfl
      | false =>
          simp only [Bool.false_eq_true, if_false]
          rw [Prog.into_bind, unscheduled_lift]
          refine congrArg _ (funext fun claimed => ?_)
          cases claimed with
          | error e => rfl
          | ok batch =>
              cases batch with
              | nil => rfl
              | cons item rest =>
                  simp only
                  rw [Prog.into_bind, unscheduled_batch]
                  refine congrArg _ (funext fun closed => ?_)
                  cases closed with
                  | true => rfl
                  | false => exact ih

theorem unscheduled_run (fuel : Nat) (now : Int) (admitted : Operations.Admission) :
    (runAdmission setup fuel now (scheduled admitted)).into unscheduled =
      Instance.runAdmission setup fuel now admitted := by
  cases admitted with
  | all drain => exact unscheduled_lift _
  | none => rfl
  | windowed onClose => exact unscheduled_windowed setup onClose now fuel

theorem unscheduled_announce (transition : Transition) :
    (announce transition).into unscheduled = return () := by
  obtain ⟨triggered, opened, closed⟩ := transition
  cases triggered <;> cases opened <;> cases closed <;> rfl

theorem unscheduled_serve (fuel : Nat) (now : Int) (admitted : Operations.Admission)
    (transition : Transition) :
    (serve setup fuel now (scheduled admitted, transition)).into unscheduled =
      Instance.runAdmission setup fuel now admitted := by
  unfold serve
  rw [Prog.into_bind, unscheduled_announce]
  show Prog.into unscheduled (runAdmission setup fuel now (scheduled admitted) >>= _) = _
  rw [Prog.into_bind, unscheduled_run]
  have silent : ∀ condition, (announceIf condition (emit (.scheduleComplete "cron"))).into
      unscheduled = return () := by
    intro condition
    cases condition <;> rfl
  rw [silent]
  exact Prog.bind_unit _

theorem unscheduled_tick (now : Int) (ignoreWindow redriveCleanup : Bool) (fuel : Nat) :
    (runTick setup now ignoreWindow redriveCleanup fuel).into unscheduled =
      Instance.runTick setup now ignoreWindow redriveCleanup fuel := by
  unfold runTick Instance.runTick
  rw [Prog.into_bind, unscheduled_lift]
  refine congrArg _ (funext fun active => ?_)
  cases active with
  | false => rfl
  | true =>
      have flat : Instance.tickBody setup now ignoreWindow redriveCleanup fuel =
          lockTick >>= fun _ => prepare setup now redriveCleanup >>= fun _ =>
            Instance.admission ignoreWindow >>= fun admitted =>
              Instance.runAdmission setup fuel now admitted >>= fun _ => unlockTick := by
        simp only [prepare, Prog.bind_assoc]
        rfl
      simp only [if_true]
      rw [flat]
      unfold tickBody
      rw [Prog.into_bind]
      refine congrArg _ (funext fun _ => ?_)
      rw [Prog.into_bind, unscheduled_lift]
      refine congrArg _ (funext fun _ => ?_)
      cases ignoreWindow with
      | true =>
          show Prog.into unscheduled (serve setup fuel now (scheduled (.all true), noTransition)
            >>= fun _ => unlock) = _
          rw [Prog.into_bind, unscheduled_serve]
          rfl
      | false =>
          show (Operations.evaluateSchedule >>= fun admitted => _) = _
          refine congrArg _ (funext fun admitted => ?_)
          show Prog.into unscheduled (serve setup fuel now (scheduled admitted, noTransition)
            >>= fun _ => unlock) = _
          rw [Prog.into_bind, unscheduled_serve]
          rfl

/-! ## Ticks side by side -/

structure Spec where
  now : Int
  ignoreWindow : Bool
  redriveCleanup : Bool
  fuel : Nat

structure World where
  clock : Int
  ticking : Bool
  track : Track
  said : List Announcement

abbrev Answer := (operation : Operations.Op) → Operations.Ret operation

/-- A tick reads the clock when it is started, before it waits for the lock. -/
inductive Event where
  | wait (ms : Nat)
  /-- A tick of the run loop, on its interval or nudged. -/
  | periodic (fuel : Nat)
  | trigger (ignoreWindow : Bool) (fuel : Nat)

abbrev State (Notes : Type) := Config Op Ret World Spec Notes

abbrev Step := Choice Answer Event

def changes (world : World) : Effect World Spec := ⟨world, [], fun _ _ => .stays⟩

def perform (schedule : Schedule) (world : World) :
    (operation : Op) → Answer → Option (Ret operation × Effect World Spec)
  | .inner operation, answer => some (answer operation, changes world)
  | .lock, _ => if world.ticking then none else some ((), changes { world with ticking := true })
  | .unlock, _ => some ((), changes { world with ticking := false })
  | .evaluate now, _ =>
      let out := Scheduling.evaluateSchedule schedule now world.track
      some (out.1, changes { world with track := out.2 })
  | .emit event, _ => some ((), changes { world with said := world.said ++ [event] })
  | .shut, _ =>
      some ((), changes { world with track := { world.track with windowOpen := false } })

def react (world : World) : Event → Option (Reaction World Spec)
  | .wait ms => some ⟨{ world with clock := world.clock + ms }, false, []⟩
  | .periodic fuel => some ⟨world, false, [⟨world.clock, false, false, fuel⟩]⟩
  | .trigger ignoreWindow fuel => some ⟨world, false, [⟨world.clock, ignoreWindow, true, fuel⟩]⟩

/-- The ticks of one instance, with any discipline over them. -/
def machine {Notes : Type} (schedule : Schedule) (discipline : Discipline Op Ret Notes)
    (finished : Notes → Prop) (start : Notes) : Machine Op Ret World Spec Notes Answer Event where
  discipline := discipline
  finished := finished
  main := fun spec => runTick setup spec.now spec.ignoreWindow spec.redriveCleanup spec.fuel
  start := fun _ => start
  owner := fun _ => none
  perform := fun _ _ world operation answer => perform schedule world operation answer
  react := fun _ world event => react world event

structure Begins {Notes : Type} (c : State Notes) : Prop where
  threads : c.threads = []
  idle : c.state.ticking = false
  track : c.state.track = freshTrack
  silent : c.state.said = []

/-- Everything succeeds, and there is nothing to do. -/
def nothingToDo : Answer
  | .store operation =>
      .ok (callStore (DurableStore.emptyStore "plant") operation).1
  | .fs operation => (FileTree.callFs (fun _ => none) operation (.asIs 0)).1
  | .deliver _ _ _ => .error (.permanent "no such file")
  | .verify _ _ _ _ => .error (.transient "no such object")
  | .abort _ _ _ => .ok ()
  | .draw => (0 : Nat)
  | .spawnAttempts _ => ()
  | .joinAttempt => none
  | .endAttempt _ => ()
  | .startAction _ => (0 : Nat)
  | .awaitAction _ => .error "cancelled"
  | .endAction _ => ()
  | .startQuarantine _ => (0 : Nat)
  | .awaitQuarantine _ => .ok ()
  | .endQuarantine => ()
  | .reportQuarantined _ => ()
  | .isActive => true
  | .lockTick => ()
  | .unlockTick => ()
  | .discover => []
  | .evaluateSchedule => .none
  | .spawnBatch _ _ => ()
  | .deadlinePassed => false
  | .nextOfBatch _ => .drained
  | .abortBatch => ()

/-- The next calls of a tick that finds nothing to do. -/
def go (id calls : Nat) : List Step := List.replicate calls (.run id nothingToDo)

def smallStart (Notes : Type) : State Notes := ⟨⟨0, false, freshTrack, []⟩, [], 0⟩

theorem small_begins (Notes : Type) : Begins (smallStart Notes) := ⟨rfl, rfl, rfl, rfl⟩

end FileReplicator.ScheduledTicks
