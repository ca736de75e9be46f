import FileReplicator.TimedTicks
import FileReplicator.WindowEvents

/-!
# The close of a window

A tick in a window looks at its deadline before each claim. The deadline is as
late as the tick was when it set it, and what is claimed before it may be
started after it. Without these two delays nothing is taken past the close.
-/

namespace FileReplicator.WindowClose

open Effects Interleaving Scheduling TimedTicks
open Operations (Setup)

/-- Where a tick is in its window: its deadline is still ahead at the last check, or it has items
of its batch left to start. A free tick has no window. -/
inductive Stage where
  | free
  | bound
  | checked
  | holding (left : Nat)
  deriving DecidableEq

def Stage.pressing : Stage → Bool
  | .checked | .holding _ => true
  | _ => false

def holds (left : Nat) : Stage := if left = 0 then .bound else .holding left

def evaluated : Admission → Stage
  | .all _ => .free
  | _ => .bound

/-! ## A tick keeps to its checks -/

def allowedTick (stage : Stage) : ScheduledTicks.Op → Prop
  | .inner (.store (.claimReady _ _)) => stage = .free ∨ stage = .checked
  | .inner (.spawnBatch items _) => stage = .free ∨ stage = holds items.length
  | _ => True

inductive Move where
  | keeps
  | becomes (stage : Stage)
  | started

def Stage.move : Stage → Move → Stage
  | .free, _ => .free
  | stage, .keeps => stage
  | _, .becomes stage => stage
  | .holding left, .started => holds (left - 1)
  | stage, .started => stage

def checkedOr (passed : Bool) : Stage := if passed then .bound else .checked

def moveTick : (operation : ScheduledTicks.Op) → ScheduledTicks.Ret operation → Move
  | .evaluate _, out => .becomes (evaluated out.1)
  | .inner .deadlinePassed, passed => .becomes (checkedOr passed)
  | .inner (.store (.claimReady _ _)), .ok batch => .becomes (holds batch.length)
  | .inner (.store (.claimReady _ _)), .error _ => .becomes .bound
  | .inner (.spawnBatch _ _), _ => .becomes .bound
  | _, _ => .keeps

def learnTick (stage : Stage) (operation : ScheduledTicks.Op) (ret : ScheduledTicks.Ret operation) :
    Stage :=
  stage.move (moveTick operation ret)

/-- The tick, as if the start of a batch was one call. -/
def tickDiscipline : Discipline ScheduledTicks.Op ScheduledTicks.Ret Stage :=
  ⟨allowedTick, fun _ _ => True, learnTick⟩

theorem allowed_free (operation : ScheduledTicks.Op) : allowedTick .free operation := by
  unfold allowedTick
  split
  · exact Or.inl rfl
  · exact Or.inl rfl
  · exact trivial

theorem free_keeps {α : Type} (program : ScheduledTicks.Program α) :
    Keeps tickDiscipline program .free fun _ after => after = .free := by
  induction program with
  | done value => rfl
  | call operation next ih =>
      refine ⟨allowed_free operation, fun ret _ => ?_⟩
      exact ih ret

section Calls

variable {α : Type} (stage : Stage) (post : α → Stage → Prop)

theorem call_keeps (operation : ScheduledTicks.Op)
    (next : ScheduledTicks.Ret operation → ScheduledTicks.Program α)
    (allowed : allowedTick stage operation)
    (later : ∀ ret, Keeps tickDiscipline (next ret) (learnTick stage operation ret) post) :
    Keeps tickDiscipline (Prog.perform operation >>= next) stage post :=
  ⟨allowed, fun ret _ => later ret⟩

theorem inner_keeps (operation : Operations.Op)
    (next : Operations.Ret operation → ScheduledTicks.Program α)
    (allowed : allowedTick stage (.inner operation))
    (later : ∀ ret, Keeps tickDiscipline (next ret) (learnTick stage (.inner operation) ret) post) :
    Keeps tickDiscipline (ScheduledTicks.lift (Prog.perform operation) >>= next) stage post :=
  ⟨allowed, fun ret _ => later ret⟩

end Calls

theorem plain_keeps {α : Type} (program : Operations.Program α)
    (plain : TickCalls.Plain (fun _ => True) program) (stage : Stage) :
    Keeps tickDiscipline (ScheduledTicks.lift program) stage fun _ _ => True := by
  induction program generalizing stage with
  | done value => exact trivial
  | call operation next ih =>
      obtain ⟨⟨is, _⟩, later⟩ := plain
      refine ⟨?_, fun ret _ => ih ret (later ret) _⟩
      show allowedTick stage (.inner operation)
      unfold allowedTick
      split
      · rename_i same
        cases same
        cases is
      · rename_i same
        cases same
        cases is
      · exact trivial

theorem announce_keeps (condition : Bool) (events : ScheduledTicks.Program Unit) (stage : Stage)
    (keeps : ∀ stage, Keeps tickDiscipline events stage fun _ after => after = stage) :
    Keeps tickDiscipline (ScheduledTicks.announceIf condition events) stage fun _ after =>
      after = stage := by
  cases condition with
  | true => exact keeps stage
  | false => rfl

theorem emit_keeps (event : ScheduledTicks.Announcement) (stage : Stage) :
    Keeps tickDiscipline (ScheduledTicks.emit event) stage fun _ after => after = stage := by
  refine ⟨trivial, fun _ _ => ?_⟩
  cases stage <;> rfl

variable (setup : Setup)

theorem close_keeps (batch : List Domain.WorkItem) (now : Int) (onClose : Operations.WindowClose)
    (stage : Stage) :
    Keeps tickDiscipline (ScheduledTicks.lift (Instance.closeBatch setup batch now onClose)) stage
      fun _ _ => True := by
  unfold Instance.closeBatch
  split
  · refine ⟨trivial, fun _ _ => ?_⟩
    refine ⟨trivial, fun _ _ => ?_⟩
    exact plain_keeps _ (TickCalls.plain_of_tidy _ _
      (TickCalls.tidy_revert setup _ (fun _ => trivial) now _)) _
  · exact ⟨trivial, fun _ _ => trivial⟩

theorem batch_keeps (batch : List Domain.WorkItem) (now : Int) (onClose : Operations.WindowClose)
    (stage : Stage) (mine : stage = .free ∨ stage = holds batch.length) :
    Keeps tickDiscipline (ScheduledTicks.runBatchWindowed setup batch now onClose) stage
      fun _ _ => True := by
  apply inner_keeps _ _ (.spawnBatch batch now) _ mine
  intro _
  apply inner_keeps _ _ (.nextOfBatch true) _ trivial
  intro event
  cases event with
  | drained => exact trivial
  | closed =>
      apply call_keeps _ _ .shut _ trivial
      intro _
      apply keeps_bind
      apply keeps_mono _ _ _ _ _ (emit_keeps _ _)
      rintro _ _ rfl
      apply keeps_bind
      apply keeps_mono _ _ _ _ _ (close_keeps setup batch now onClose _)
      intro _ _ _
      exact ⟨trivial, fun _ _ => trivial⟩

theorem windowed_keeps (onClose : Operations.WindowClose) (now : Int) (fuel : Nat) (stage : Stage) :
    Keeps tickDiscipline (ScheduledTicks.runWindowed setup onClose now fuel) stage
      fun _ _ => True := by
  induction fuel generalizing stage with
  | zero => exact trivial
  | succ fuel ih =>
      apply inner_keeps _ _ .deadlinePassed _ trivial
      intro passed
      cases passed with
      | true => exact trivial
      | false =>
          -- the deadline is ahead
          have checked : learnTick stage (.inner .deadlinePassed) false = .free ∨
              learnTick stage (.inner .deadlinePassed) false = .checked := by
            cases stage with
            | free => exact Or.inl rfl
            | _ => exact Or.inr rfl
          apply keeps_bind
          refine ⟨checked, fun claimed _ => ?_⟩
          cases claimed with
          | error e => exact trivial
          | ok batch =>
              cases batch with
              | nil => exact trivial
              | cons item rest =>
                  show Keeps _ (ScheduledTicks.runBatchWindowed setup (item :: rest) now onClose >>=
                    fun closed => if closed then return ()
                      else ScheduledTicks.runWindowed setup onClose now fuel) _ _
                  apply keeps_bind
                  apply keeps_mono _ _ _ _ _
                    (batch_keeps setup (item :: rest) now onClose _ _)
                  · intro closed after _
                    cases closed with
                    | true => exact trivial
                    | false => exact ih after
                  · rcases checked with same | same
                    · exact Or.inl ((congrArg (fun stage => learnTick stage _ _) same).trans rfl)
                    · exact Or.inr ((congrArg (fun stage => learnTick stage _ _) same).trans rfl)

theorem serve_keeps (fuel : Nat) (now : Int) (out : Admission × Transition) (stage : Stage)
    (all : ∀ drain, out.1 = .all drain → stage = .free) :
    Keeps tickDiscipline (ScheduledTicks.serve setup fuel now out) stage fun _ _ => True := by
  have announced : Keeps tickDiscipline (ScheduledTicks.announce out.2) stage fun _ after =>
      after = stage := by
    apply keeps_bind
    apply keeps_mono _ _ _ _ _ (announce_keeps _ _ stage (emit_keeps _))
    rintro _ _ rfl
    apply keeps_bind
    apply keeps_mono _ _ _ _ _ (announce_keeps _ _ _ (emit_keeps _))
    rintro _ _ rfl
    apply announce_keeps
    intro stage
    apply keeps_bind
    apply keeps_mono _ _ _ _ _ (emit_keeps _ stage)
    rintro _ _ rfl
    exact emit_keeps _ _
  have admitted : Keeps tickDiscipline (ScheduledTicks.runAdmission setup fuel now out.1) stage
      fun _ _ => True := by
    cases admission : out.1 with
    | all drain =>
        rw [all drain admission]
        exact keeps_mono _ _ _ _ _ (free_keeps _) fun _ _ _ => trivial
    | none => exact trivial
    | windowed closeAt onClose => exact windowed_keeps setup onClose now fuel stage
  apply keeps_bind
  apply keeps_mono _ _ _ _ _ announced
  rintro _ _ rfl
  apply keeps_bind
  apply keeps_mono _ _ _ _ _ admitted
  intro _ after _
  apply keeps_mono _ _ _ _ _ (announce_keeps _ _ after (emit_keeps _))
  exact fun _ _ _ => trivial

theorem prepare_plain (now : Int) (redriveCleanup : Bool) :
    TickCalls.Plain (fun _ => True) (ScheduledTicks.prepare setup now redriveCleanup) := by
  apply within_bind
  · exact TickCalls.plain_rowless _ _ rfl rfl
  · intro ready
    apply within_bind
    · exact TickCalls.plain_enqueue _ now ready
    · intro _
      apply within_bind
      · exact within_best_effort _ _ (TickCalls.plain_of_tidy _ _
          (TickCalls.tidy_promote _ (fun _ => trivial) now))
      · intro _
        exact within_best_effort _ _
          (TickCalls.plain_of_tidy _ _
            (TickCalls.tidy_drive setup _ (fun _ => trivial) now redriveCleanup))

def start (spec : ScheduledTicks.Spec) : Stage := if spec.ignoreWindow then .free else .bound

theorem tick_keeps (spec : ScheduledTicks.Spec) :
    Keeps tickDiscipline (ScheduledTicks.runTick setup spec.now spec.ignoreWindow spec.redriveCleanup
      spec.fuel) (start spec) fun _ _ => True := by
  cases ignores : spec.ignoreWindow with
  | true =>
      rw [start, if_pos ignores]
      exact keeps_mono _ _ _ _ _ (free_keeps _) fun _ _ _ => trivial
  | false =>
      apply inner_keeps _ _ .isActive _ trivial
      intro active
      cases active with
      | false => exact trivial
      | true =>
          apply call_keeps _ _ .lock _ trivial
          intro _
          apply keeps_bind
          apply keeps_mono _ _ _ _ _ (plain_keeps _ (prepare_plain setup spec.now spec.redriveCleanup) _)
          intro _ stage _
          apply call_keeps _ _ (.evaluate spec.now) _ trivial
          intro out
          apply keeps_bind
          apply keeps_mono _ _ _ _ _ (serve_keeps setup spec.fuel spec.now out _ _)
          · intro _ _ _
            exact ⟨trivial, fun _ _ => trivial⟩
          · intro drain all
            obtain ⟨admission, transition⟩ := out
            cases all
            cases stage <;> rfl

/-! ## Item by item -/

def allowed (stage : Stage) : Op → Prop
  | .scheduled (.inner .deadlinePassed) | .scheduled (.inner (.spawnBatch _ _)) => False
  | .scheduled operation => allowedTick stage operation
  | .start _ _ => stage = .free ∨ ∃ left, stage = .holding left
  | _ => True

def moveOf : (operation : Op) → Ret operation → Move
  | .scheduled operation, ret => moveTick operation ret
  | .passed, passed => .becomes (checkedOr passed)
  | .start _ _, _ => .started
  | _, _ => .keeps

def learn (stage : Stage) (operation : Op) (ret : Ret operation) : Stage :=
  stage.move (moveOf operation ret)

def discipline : Discipline Op Ret Stage := ⟨allowed, fun _ _ => True, learn⟩

theorem start_each_free (now : Int) (batch : List Domain.WorkItem) :
    Keeps discipline (startEach now batch) .free fun _ after => after = .free := by
  induction batch with
  | nil => rfl
  | cons item rest ih => exact ⟨trivial, fun _ _ => ⟨Or.inl rfl, fun _ _ => ih⟩⟩

theorem start_each_keeps (now : Int) (batch : List Domain.WorkItem) :
    Keeps discipline (startEach now batch) (holds batch.length) fun _ after => after = .bound := by
  induction batch with
  | nil => rfl
  | cons item rest ih => exact ⟨trivial, fun _ _ => ⟨Or.inr ⟨_, rfl⟩, fun _ _ => ih⟩⟩

theorem timed_keeps (stage : Stage) (operation : ScheduledTicks.Op)
    (may : allowedTick stage operation) :
    Keeps discipline (timed operation) stage fun ret after =>
      True ∧ after = learnTick stage operation ret := by
  cases operation with
  | inner operation =>
      cases operation with
      | deadlinePassed =>
          refine ⟨trivial, fun _ _ => ⟨trivial, fun passed _ => ⟨trivial, ?_⟩⟩⟩
          cases stage <;> rfl
      | spawnBatch items now =>
          rcases may with rfl | rfl
          · apply keeps_mono _ _ _ _ _ (start_each_free now items)
            rintro _ _ rfl
            exact ⟨trivial, rfl⟩
          · apply keeps_mono _ _ _ _ _ (start_each_keeps now items)
            rintro _ _ rfl
            refine ⟨trivial, ?_⟩
            unfold holds
            split <;> rfl
      | _ => exact ⟨may, fun _ _ => ⟨trivial, rfl⟩⟩
  | _ => exact ⟨may, fun _ _ => ⟨trivial, rfl⟩⟩

theorem main_keeps (spec : ScheduledTicks.Spec) :
    Keeps discipline (main setup spec) (start spec) fun _ _ => True :=
  keeps_into tickDiscipline discipline timed timed_keeps _ _ _ (tick_keeps setup spec)

/-! ## Every run -/

variable (w : WindowSched)

abbrev ticks := machine setup (.window w) discipline start

/-- The next call sets the deadline, unless it is set. -/
def arms : TimedTicks.Program Unit → Bool
  | .call .arm _ => true
  | _ => false

/-- No delay where one shifts the close: a tick sets its deadline at the moment that it was started
for, and no time passes between a check and the claim that follows it, or the last start of what
was claimed. -/
def Prompt (c : State Stage) : TimedTicks.Choice → Prop
  | .env (.wait ms) => ms = 0 ∨ ∀ t ∈ c.threads, t.notes.pressing = false
  | .run id _ => ∀ t ∈ c.threads, t.id = id → arms t.prog = true →
      c.state.deadline id = none → c.state.clock = t.spec.now
  | _ => True

/-- What is known of a window while it is open: its deadline is no later than the close, or it is
over. -/
def Armed (world : World) (id : Nat) : Prop :=
  ∀ deadline, world.deadline id = some deadline →
    ∃ closeAt, world.closeAt id = some closeAt ∧ (deadline ≤ closeAt ∨ deadline ≤ world.clock)

structure Sound (c : State Stage) : Prop where
  orderly : Orderly (ticks setup w) c
  /-- The window of a tick that may take items is open. -/
  pressing : ∀ t ∈ c.threads, t.notes.pressing = true →
    ∃ closeAt, c.state.closeAt t.id = some closeAt ∧ c.state.clock < closeAt
  free : ∀ t ∈ c.threads, t.notes = .free → t.spec.ignoreWindow = true
  armed : ∀ id, Armed c.state id

/-- What a call leaves of what a tick knows of its window. -/
structure Known (id : Nat) (stage : Stage) (world : World) : Prop where
  pressing : stage.pressing = true →
    ∃ closeAt, world.closeAt id = some closeAt ∧ world.clock < closeAt
  armed : Armed world id

theorem evaluated_bound (now : Int) (track : Track) :
    evaluated (Scheduling.evaluateSchedule (.window w) now track).1.1 = .bound := by
  simp only [Scheduling.evaluateSchedule, Schedule.admission]
  split <;> rfl

theorem move_keeps (stage : Stage) : stage.move .keeps = stage := by
  cases stage <;> rfl

theorem learn_free (id : Nat) (spec : ScheduledTicks.Spec) (world : World) (stage : Stage)
    (operation : Op) (answer : ScheduledTicks.Answer) (ret : Ret operation)
    (effect : Effect World ScheduledTicks.Spec)
    (performed : perform (.window w) id spec world operation answer = some (ret, effect))
    (same : learn stage operation ret = .free) : stage = .free := by
  have moves : moveOf operation ret ≠ .becomes .free := by
    intro move
    unfold moveOf at move
    split at move
    · rename_i operation ret
      unfold moveTick at move
      split at move
      · cases performed
        rw [evaluated_bound] at move
        cases move
      · rw [checkedOr] at move
        split at move <;> cases move
      · rw [holds] at move
        split at move <;> cases move
      · cases move
      · cases move
      · cases move
    · rw [checkedOr] at move
      split at move <;> cases move
    · cases move
    · cases move
  unfold learn at same
  cases stage with
  | free => rfl
  | _ =>
      exfalso
      cases move : moveOf operation ret with
      | keeps => rw [move] at same; cases same
      | becomes stage =>
          rw [move] at same
          exact moves (move.trans (congrArg Move.becomes same))
      | started =>
          rw [move] at same
          first
            | cases same
            | (simp only [Stage.move, holds] at same; split at same <;> cases same)

theorem known_after (id : Nat) (spec : ScheduledTicks.Spec) (world : World) (stage : Stage)
    (operation : Op) (answer : ScheduledTicks.Answer) (ret : Ret operation)
    (effect : Effect World ScheduledTicks.Spec) (known : Known id stage world)
    (may : allowed stage operation)
    (prompt : operation = .arm → world.deadline id = none → world.clock = spec.now)
    (performed : perform (.window w) id spec world operation answer = some (ret, effect)) :
    Known id (learn stage operation ret) effect.state := by
  -- a call that leaves the world as it is, and presses no more than before
  have quiet : ∀ after : World, after.closeAt = world.closeAt → after.deadline = world.deadline →
      after.clock = world.clock → ∀ next : Stage, (next.pressing = true → stage.pressing = true) →
        Known id next after := by
    intro after hclose hdeadline hclock next presses
    constructor
    · intro pressing
      rw [hclose, hclock]
      exact known.pressing (presses pressing)
    · unfold Armed
      rw [hclose, hdeadline, hclock]
      exact known.armed
  have keeps : (stage.move .keeps).pressing = true → stage.pressing = true := by
    rw [move_keeps]
    exact fun pressing => pressing
  cases operation with
  | scheduled operation =>
      cases operation with
      | inner operation =>
          cases operation with
          | deadlinePassed => exact may.elim
          | spawnBatch items now => exact may.elim
          | store operation =>
              cases performed
              cases operation with
              | claimReady limit now =>
                  apply quiet _ rfl rfl rfl
                  -- only a tick that has checked its deadline claims
                  intro pressing
                  rcases may with rfl | rfl
                  · cases pressing
                  · rfl
              | _ => exact quiet _ rfl rfl rfl _ keeps
          | _ => cases performed; exact quiet _ rfl rfl rfl _ keeps
      | evaluate now =>
          cases performed
          constructor
          · intro pressing
            have bound := evaluated_bound w now world.track
            change (stage.move (.becomes (evaluated _))).pressing = true at pressing
            rw [bound] at pressing
            cases stage <;> cases pressing
          · intro deadline armed
            simp [changes, TimedTicks.set] at armed
      | lock =>
          simp only [perform] at performed
          split at performed
          · cases performed
          · cases performed
            exact quiet { world with ticking := true } rfl rfl rfl _ keeps
      | unlock =>
          cases performed
          exact quiet { world with ticking := false } rfl rfl rfl _ keeps
      | shut =>
          cases performed
          exact quiet { world with track := { world.track with windowOpen := false } } rfl rfl rfl _
            keeps
      | emit event =>
          cases performed
          exact quiet world rfl rfl rfl _ keeps
  | arm =>
      simp only [perform] at performed
      split at performed
      · rename_i closeAt unset open_
        cases performed
        constructor
        · intro pressing
          exact known.pressing (keeps pressing)
        · -- set in time, it is the close, or the window is over already
          intro deadline armed
          have now := prompt rfl unset
          simp only [changes, TimedTicks.set, if_true, Option.some.injEq, deadlineFor] at armed
          refine ⟨closeAt, open_, ?_⟩
          simp only [changes]
          omega
      · cases performed
        exact quiet world rfl rfl rfl _ keeps
  | passed =>
      obtain ⟨deadline, armed, same⟩ := Option.map_eq_some_iff.mp performed
      cases same
      refine ⟨fun pressing => ?_, known.armed⟩
      obtain ⟨closeAt, hclose, before⟩ := known.armed deadline armed
      have ahead : ¬deadline ≤ world.clock := by
        intro passed
        change (stage.move (.becomes (checkedOr (decide (deadline ≤ world.clock))))).pressing = true
          at pressing
        rw [decide_eq_true passed] at pressing
        cases stage <;> cases pressing
      exact ⟨closeAt, hclose, by simp only [changes]; omega⟩
  | acquireSlot =>
      cases performed
      exact quiet world rfl rfl rfl _ keeps
  | start item now =>
      cases performed
      apply quiet world rfl rfl rfl
      intro pressing
      rcases may with rfl | ⟨left, rfl⟩
      · cases pressing
      · rfl

theorem sound_settle (c : State Stage) (sound : Sound setup w c)
    (t : Thread Op Ret ScheduledTicks.Spec Stage) (operation : Op) (ret : Ret operation)
    (effect : Effect World ScheduledTicks.Spec) (next : Ret operation → Prog Op Ret Unit)
    (choice : TimedTicks.Choice)
    (calls : Calls (ticks setup w) c t operation ret effect next choice)
    (prompt : Prompt c choice) :
    Sound setup w ((ticks setup w).settle c ((ticks setup w).resumed t operation ret next) effect) := by
  obtain ⟨answer, rfl, performed⟩ := calls.choice
  have plain := plain_of_perform _ t.id t.spec c.state operation answer ret effect performed
  have may := calls_allowed (ticks setup w) c t operation ret effect next _ calls sound.orderly
  have arming : operation = .arm → c.state.deadline t.id = none → c.state.clock = t.spec.now := by
    rintro rfl
    exact prompt t calls.member rfl (by rw [calls.prog]; rfl)
  have known := known_after w t.id t.spec c.state t.notes operation answer ret effect
    ⟨sound.pressing t calls.member, sound.armed t.id⟩ may arming performed
  have starts : ∀ spec ∈ effect.spawned, Keeps (ticks setup w).discipline ((ticks setup w).main spec)
      ((ticks setup w).start spec) fun _ notes => (ticks setup w).finished notes := by
    intro spec spawned
    rw [plain.alone] at spawned
    cases spawned
  constructor
  · exact orderly_settle (ticks setup w) c t operation ret effect next _ calls sound.orderly trivial
      starts
  · intro u hu pressing
    rcases mem_settle (ticks setup w) c _ u effect hu with ⟨same, _⟩ |
      ⟨before, hbefore, other, same, _⟩ | ⟨new, hnew, same⟩
    · rw [same.notes] at pressing
      rw [same.id]
      exact known.pressing pressing
    · rw [same.notes] at pressing
      rw [same.id]
      show ∃ closeAt, effect.state.closeAt before.id = some closeAt ∧ effect.state.clock < closeAt
      rw [(plain.others before.id other).1, plain.clock]
      exact sound.pressing before hbefore pressing
    · rw [plain.alone] at hnew
      cases hnew
  · intro u hu free
    rcases mem_settle (ticks setup w) c _ u effect hu with ⟨same, _⟩ |
      ⟨before, hbefore, _, same, _⟩ | ⟨new, hnew, same⟩
    · rw [same.notes] at free
      rw [same.spec]
      exact sound.free t calls.member
        (learn_free w t.id t.spec c.state t.notes operation answer ret effect performed free)
    · rw [same.notes] at free
      rw [same.spec]
      exact sound.free before hbefore free
    · rw [plain.alone] at hnew
      cases hnew
  · intro id
    by_cases mine : id = t.id
    · subst mine
      exact known.armed
    · intro deadline armed
      change effect.state.deadline id = some deadline at armed
      show ∃ closeAt, effect.state.closeAt id = some closeAt ∧
        (deadline ≤ closeAt ∨ deadline ≤ effect.state.clock)
      rw [(plain.others id mine).2] at armed
      rw [(plain.others id mine).1, plain.clock]
      exact sound.armed id deadline armed

theorem sound_absorb (c : State Stage) (sound : Sound setup w c) (event : Event)
    (reaction : Reaction World ScheduledTicks.Spec) (prompt : Prompt c (.env event))
    (reacted : react c.state event = some reaction) :
    Sound setup w ((ticks setup w).absorb c reaction) := by
  have same : reaction.state.closeAt = c.state.closeAt ∧
      reaction.state.deadline = c.state.deadline ∧ c.state.clock ≤ reaction.state.clock := by
    cases event <;> cases reacted
    · exact ⟨rfl, rfl, by simp only; omega⟩
    · exact ⟨rfl, rfl, Int.le_refl _⟩
    · exact ⟨rfl, rfl, Int.le_refl _⟩
    · exact ⟨rfl, rfl, Int.le_refl _⟩
  constructor
  · exact orderly_absorb (ticks setup w) c reaction sound.orderly fun spec _ => main_keeps setup spec
  · intro u hu pressing
    rcases mem_absorb (ticks setup w) c reaction u hu with
      ⟨_, before, hbefore, kept⟩ | ⟨new, hnew, kept⟩
    · rw [kept.notes] at pressing
      rw [kept.id]
      obtain ⟨closeAt, hclose, ahead⟩ := sound.pressing before hbefore pressing
      refine ⟨closeAt, ?_, ?_⟩
      · show reaction.state.closeAt before.id = some closeAt
        rw [same.1]
        exact hclose
      · cases event with
        | wait ms =>
            cases reacted
            rcases prompt with rfl | quiet
            · show c.state.clock + ((0 : Nat) : Int) < closeAt
              omega
            · rw [quiet before hbefore] at pressing
              cases pressing
        | _ => cases reacted; exact ahead
    · obtain ⟨_, _, _, _, started, _⟩ := mem_spawn_from (ticks setup w) _ _ new hnew
      rw [kept.notes, started] at pressing
      change (start new.spec).pressing = true at pressing
      rw [start] at pressing
      split at pressing <;> cases pressing
  · intro u hu free
    rcases mem_absorb (ticks setup w) c reaction u hu with
      ⟨_, before, hbefore, kept⟩ | ⟨new, hnew, kept⟩
    · rw [kept.notes] at free
      rw [kept.spec]
      exact sound.free before hbefore free
    · obtain ⟨_, _, _, _, started, _⟩ := mem_spawn_from (ticks setup w) _ _ new hnew
      rw [kept.notes, started] at free
      rw [kept.spec]
      change start new.spec = .free at free
      rw [start] at free
      split at free
      · assumption
      · cases free
  · intro id deadline armed
    change reaction.state.deadline id = some deadline at armed
    show ∃ closeAt, reaction.state.closeAt id = some closeAt ∧
      (deadline ≤ closeAt ∨ deadline ≤ reaction.state.clock)
    rw [same.2.1] at armed
    rw [same.1]
    obtain ⟨closeAt, hclose, before⟩ := sound.armed id deadline armed
    exact ⟨closeAt, hclose, before.imp_right fun past => Int.le_trans past same.2.2⟩

theorem sound_step (c after : State Stage) (choice : TimedTicks.Choice) (sound : Sound setup w c)
    (prompt : Prompt c choice) (stepped : (ticks setup w).step c choice = some after) :
    Sound setup w after := by
  rcases step_cases (ticks setup w) c after choice stepped with
    ⟨t, operation, ret, effect, next, calls, rfl⟩ | ⟨id, _, _, rfl⟩ |
    ⟨event, reaction, rfl, reacted, rfl⟩
  · exact sound_settle setup w c sound t operation ret effect next choice calls prompt
  · refine ⟨orderly_without _ c id sound.orderly, fun u hu pressing => ?_, fun u hu free => ?_,
      sound.armed⟩
    · obtain ⟨before, hbefore, _, same⟩ := mem_without (ticks setup w) c id u hu
      rw [same.notes] at pressing
      rw [same.id]
      exact sound.pressing before hbefore pressing
    · obtain ⟨before, hbefore, _, same⟩ := mem_without (ticks setup w) c id u hu
      rw [same.notes] at free
      rw [same.spec]
      exact sound.free before hbefore free
  · exact sound_absorb setup w c sound event reaction prompt reacted

theorem sound_begins (c : State Stage) (begins : Begins c) : Sound setup w c := by
  have none : ∀ t, t ∉ c.threads := by
    intro t member
    rw [begins.threads] at member
    cases member
  refine ⟨fun t member => absurd member (none t), fun t member => absurd member (none t),
    fun t member => absurd member (none t), fun id deadline armed => ?_⟩
  rw [begins.deadline] at armed
  cases armed

abbrev smallTicks := ticks (Runs.smallSetup Runs.plainCompletion) WindowEvents.halfHours

def prompt (c : State Stage) : TimedTicks.Choice → Bool
  | .env (.wait ms) => decide (ms = 0) || c.threads.all fun t => !t.notes.pressing
  | .run id _ => c.threads.all fun t => !decide (t.id = id) || !arms t.prog ||
      (c.state.deadline id).isSome || decide (c.state.clock = t.spec.now)
  | _ => true

theorem prompt_sound (c : State Stage) (choice : TimedTicks.Choice)
    (check : prompt c choice = true) : Prompt c choice := by
  unfold prompt at check
  split at check
  · rw [Bool.or_eq_true] at check
    refine check.imp of_decide_eq_true fun quiet t member => ?_
    simpa using List.all_eq_true.mp quiet t member
  · intro t member mine arming unset
    have here := List.all_eq_true.mp check t member
    rw [decide_eq_true mine, arming, unset] at here
    simpa using here
  · unfold Prompt
    split
    · rename_i event other _
      exact absurd rfl (other _)
    · rename_i event _ other
      exact absurd rfl (other _ _)
    · exact trivial

/-- Two seconds pass while the first batch is copied, and half a second before the next check. -/
def betweenBatches : List TimedTicks.Choice :=
  [.env (.wait 1000), .env (.periodic 2)] ++ goes 0 13 [oneItem] ++ [.env (.wait 2000)] ++
    goes 0 2 [oneItem] ++ [.env (.wait 500)] ++ goes 0 1 [oneItem]

/-- Two seconds pass while the spool is walked, and the window has one second left when the tick is
started. -/
def acrossClose : List TimedTicks.Choice :=
  [.env (.wait 1799000), .env (.periodic 1)] ++ goes 0 6 [oneItem] ++ [.env (.wait 2000)] ++
    goes 0 4 [oneItem]

end FileReplicator.WindowClose
