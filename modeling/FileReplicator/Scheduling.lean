import Mathlib.Logic.Basic
import FileReplicator.Operations

/-!
# Schedules

What a schedule admits at an instant, and what an instance remembers of its last
evaluation. Instants are milliseconds. The search for the occurrences of a cron
expression is not part of this model.
-/

namespace FileReplicator.Scheduling

open Operations

structure CronExpr where
  prevFire : Int → Option Int
  nextFire : Int → Option Int
  nextFireInclusive : Int → Option Int

structure FindsLast (expr : CronExpr) (occurs : Int → Prop) : Prop where
  found : ∀ now fire, expr.prevFire now = some fire →
    occurs fire ∧ fire ≤ now ∧ ∀ other, occurs other → other ≤ now → other ≤ fire
  none : ∀ now, expr.prevFire now = none → ∀ other, occurs other → now < other

inductive Close where
  | cron (expr : CronExpr)
  | duration (length : Int)

structure WindowSched where
  open_ : CronExpr
  close : Close
  onClose : WindowClose

inductive WindowState where
  | opened (until_ : Int)
  | closed (opensAt : Int)
  deriving DecidableEq

namespace WindowSched

variable (w : WindowSched)

def nextOpenAtOrAfter (now : Int) : Int := (w.open_.nextFireInclusive now).getD now

/-- Open iff `now` is before the close that belongs to the last open. -/
def stateFor (now : Int) (closeAfter : Int → Option Int) : WindowState :=
  match ((w.open_.prevFire now).bind closeAfter).filter fun close => now < close with
  | some close => .opened close
  | none => .closed (w.nextOpenAtOrAfter now)

def windowState (now : Int) : WindowState :=
  match w.close with
  | .cron close => w.stateFor now close.nextFireInclusive
  | .duration length => w.stateFor now fun lastOpen => some (lastOpen + length)

end WindowSched

inductive Schedule where
  | immediate
  | cron (expr : CronExpr)
  | window (w : WindowSched)

inductive Admission where
  | all (drain : Bool)
  | none
  | windowed (closeAt : Int) (onClose : WindowClose)
  deriving DecidableEq

/-- `ScheduleTrack`. -/
structure Track where
  lastFire : Option Int
  windowOpen : Bool
  deriving DecidableEq

def freshTrack : Track := ⟨none, false⟩

/-- A fire since the last evaluation; the first one only sets the watermark. -/
def freshFire (expr : CronExpr) (now : Int) (lastFire : Option Int) : Bool :=
  (expr.prevFire now).any fun fire => lastFire.getD now < fire

namespace Schedule

/-- `admission`: what is admitted, and the new watermark. -/
def admission (schedule : Schedule) (now : Int) (lastFire : Option Int) : Admission × Option Int :=
  match schedule with
  | .immediate => (.all false, lastFire)
  | .cron expr => (if freshFire expr now lastFire then .all true else .none, some now)
  | .window w =>
      match w.windowState now with
      | .opened until_ => (.windowed until_ w.onClose, lastFire)
      | .closed _ => (.none, lastFire)

end Schedule

/-- `ScheduleTransition`. -/
structure Transition where
  triggered : Bool
  windowOpened : Bool
  windowClosed : Bool
  deriving DecidableEq

def noTransition : Transition := ⟨false, false, false⟩

def transitionOf (windowOpen : Bool) : Admission → Transition
  | .all true => { noTransition with triggered := true }
  | .windowed _ _ => { noTransition with windowOpened := !windowOpen }
  | .all false | .none => { noTransition with windowClosed := windowOpen }

def windowAfter (windowOpen : Bool) : Admission → Bool
  | .all true => windowOpen
  | .windowed _ _ => true
  | .all false | .none => false

/-- `evaluate_schedule`, under the lock of the track. -/
def evaluateSchedule (schedule : Schedule) (now : Int) (track : Track) :
    (Admission × Transition) × Track :=
  let out := schedule.admission now track.lastFire
  ((out.1, transitionOf track.windowOpen out.1), ⟨out.2, windowAfter track.windowOpen out.1⟩)

end FileReplicator.Scheduling
