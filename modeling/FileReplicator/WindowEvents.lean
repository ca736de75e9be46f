import FileReplicator.Exclusion
import FileReplicator.Runs
import FileReplicator.ScheduledTicks

/-!
# Events of a window

The window events of an instance, in every order of its ticks: an opening, a
close, its completion, and so on. A close is announced by the tick that finds it
or in the middle of a batch; either way the tick that announces it still holds the
lock when it announces the completion.
-/

namespace FileReplicator.WindowEvents

open Effects Interleaving Exclusion Operations ScheduledTicks
open Scheduling hiding Admission

/-! ## What is announced -/

inductive Phase where
  | complete
  | flowing
  | closing
  deriving DecidableEq

def ofWindow : Announcement → Bool
  | .windowOpened | .windowClosed => true
  | .scheduleComplete mode => mode = "window"
  | .scheduleTriggered => false

def oneWindow : List Announcement := [.windowOpened, .windowClosed, .scheduleComplete "window"]

/-- So many windows opened, closed and completed. -/
def windows (n : Nat) : List Announcement := (List.replicate n oneWindow).flatten

def Phase.begun : Phase → List Announcement
  | .complete => []
  | .flowing => [.windowOpened]
  | .closing => [.windowOpened, .windowClosed]

/-- The window events so far: windows, and what is announced of the last one. -/
def Stands (said : List Announcement) (phase : Phase) : Prop :=
  ∃ n, said.filter ofWindow = windows n ++ phase.begun

theorem stands_silent (said : List Announcement) (phase : Phase) (event : Announcement)
    (stands : Stands said phase) (other : ofWindow event = false) : Stands (said ++ [event]) phase := by
  obtain ⟨n, same⟩ := stands
  exact ⟨n, by rw [List.filter_append, same, List.filter_singleton, other]; simp⟩

theorem stands_said (said : List Announcement) (phase : Phase) (event : Announcement)
    (stands : Stands said phase) (window : ofWindow event = true) :
    ∃ n, (said ++ [event]).filter ofWindow = windows n ++ (phase.begun ++ [event]) := by
  obtain ⟨n, same⟩ := stands
  exact ⟨n, by rw [List.filter_append, same, List.filter_singleton, window]; simp⟩

theorem stands_opened (said : List Announcement) (stands : Stands said .complete) :
    Stands (said ++ [.windowOpened]) .flowing :=
  stands_said said .complete .windowOpened stands rfl

theorem stands_closed (said : List Announcement) (stands : Stands said .flowing) :
    Stands (said ++ [.windowClosed]) .closing :=
  stands_said said .flowing .windowClosed stands rfl

theorem windows_succ (n : Nat) : windows (n + 1) = windows n ++ oneWindow := by
  rw [windows, List.replicate_succ', List.flatten_append]
  simp [windows]

theorem stands_completed (said : List Announcement) (stands : Stands said .closing) :
    Stands (said ++ [.scheduleComplete "window"]) .complete := by
  obtain ⟨n, same⟩ := stands_said said .closing (.scheduleComplete "window") stands (by decide)
  refine ⟨n + 1, ?_⟩
  rw [same, windows_succ, Phase.begun, List.append_nil]
  rfl

/-! ## What a tick announces -/

/-- Where a tick is in announcing what the schedule told it. -/
inductive Stage where
  | outside
  | entered
  | opening
  | flowing
  | closing
  | completing
  | quiet
  deriving DecidableEq

def Stage.settled : Stage → Bool
  | .entered | .flowing | .quiet => true
  | _ => false

def isWindowed : Scheduling.Admission → Bool
  | .windowed _ _ => true
  | _ => false

def told (evaluated : Scheduling.Admission × Transition) : Stage :=
  if evaluated.2.windowOpened then .opening
  else if evaluated.2.windowClosed then .closing
  else if isWindowed evaluated.1 then .flowing
  else .quiet

def emitted (stage : Stage) : Announcement → Stage
  | .windowOpened => .flowing
  | .windowClosed => .completing
  | .scheduleComplete mode => if mode = "window" then .quiet else stage
  | .scheduleTriggered => stage

def mayEmit (stage : Stage) : Announcement → Prop
  | .windowOpened => stage = .opening
  | .windowClosed => stage = .closing
  | .scheduleComplete mode => mode = "window" → stage = .completing
  | .scheduleTriggered => True

/-- A window opens only into a window, and a close is found only outside of one. -/
def Coherent (evaluated : Scheduling.Admission × Transition) : Prop :=
  (evaluated.2.windowOpened = true → isWindowed evaluated.1 = true) ∧
    (evaluated.2.windowClosed = true → isWindowed evaluated.1 = false)

def discipline : Discipline ScheduledTicks.Op ScheduledTicks.Ret Stage where
  allowed := fun stage operation =>
    match operation with
    | .inner _ => True
    | .lock => stage = .outside
    | .unlock => stage.settled = true
    | .evaluate _ => stage = .entered
    | .emit event => stage ≠ .outside ∧ mayEmit stage event
    | .shut => stage = .flowing
  possible := fun operation ret =>
    match operation, ret with
    | .evaluate _, evaluated => Coherent evaluated
    | _, _ => True
  learn := fun stage operation ret =>
    match operation, ret with
    | .inner _, _ => stage
    | .lock, _ => .entered
    | .unlock, _ => .outside
    | .evaluate _, evaluated => told evaluated
    | .emit event, _ => emitted stage event
    | .shut, _ => .closing

variable (setup : Setup)

theorem keeps_lift {α : Type} (program : Operations.Program α) (stage : Stage)
    (post : α → Stage → Prop) (holds : ∀ value, post value stage) :
    Keeps discipline (lift program) stage post := by
  induction program with
  | done value => exact holds value
  | call operation next ih => exact ⟨trivial, fun ret _ => ih ret⟩

theorem batch_keeps (batch : List Domain.WorkItem) (now : Int) (onClose : WindowClose) :
    Keeps discipline (runBatchWindowed setup batch now onClose) .flowing fun closed stage =>
      if closed then stage = .quiet else stage = .flowing := by
  apply keeps_bind
  refine keeps_lift _ _ _ fun _ => ?_
  apply keeps_bind
  refine keeps_lift _ _ _ fun event => ?_
  cases event with
  | drained => exact rfl
  | closed =>
      apply keeps_bind
      refine ⟨rfl, fun _ _ => ?_⟩
      apply keeps_bind
      refine ⟨⟨Stage.noConfusion, rfl⟩, fun _ _ => ?_⟩
      apply keeps_bind
      refine keeps_lift _ _ _ fun _ => ?_
      apply keeps_bind
      exact ⟨⟨Stage.noConfusion, fun _ => rfl⟩, fun _ _ => rfl⟩

theorem windowed_keeps (onClose : WindowClose) (now : Int) (fuel : Nat) :
    Keeps discipline (runWindowed setup onClose now fuel) .flowing fun _ stage =>
      stage.settled = true := by
  induction fuel with
  | zero => exact rfl
  | succ fuel ih =>
      apply keeps_bind
      refine keeps_lift _ _ _ fun passed => ?_
      cases passed with
      | true => exact rfl
      | false =>
          apply keeps_bind
          refine keeps_lift _ _ _ fun claimed => ?_
          cases claimed with
          | error e => exact rfl
          | ok batch =>
              cases batch with
              | nil => exact rfl
              | cons item rest =>
                  apply keeps_bind
                  apply keeps_mono _ _ _ _ _ (batch_keeps setup (item :: rest) now onClose)
                  intro closed stage after
                  cases closed with
                  | true =>
                      show stage.settled = true
                      rw [show stage = .quiet from after]
                      rfl
                  | false =>
                      rw [show stage = .flowing from after]
                      exact ih

theorem admission_keeps (fuel : Nat) (now : Int) (admitted : Scheduling.Admission) (stage : Stage)
    (settled : stage.settled = true) (window : isWindowed admitted = true → stage = .flowing) :
    Keeps discipline (runAdmission setup fuel now admitted) stage fun _ after =>
      after.settled = true := by
  cases admitted with
  | all drain => exact keeps_lift _ _ _ fun _ => settled
  | none => exact settled
  | windowed closeAt onClose =>
      rw [window rfl]
      exact windowed_keeps setup onClose now fuel

theorem triggered_keeps (condition : Bool) (event : Announcement) (stage : Stage)
    (inside : stage ≠ .outside) (may : mayEmit stage event) (same : emitted stage event = stage) :
    Keeps discipline (announceIf condition (emit event)) stage fun _ after => after = stage := by
  cases condition with
  | true => exact ⟨⟨inside, may⟩, fun _ _ => same⟩
  | false => exact rfl

/-- After the announcements nothing is left of what the evaluation told. -/
def Served (evaluated : Scheduling.Admission × Transition) (stage : Stage) : Prop :=
  stage.settled = true ∧ (isWindowed evaluated.1 = true → stage = .flowing)

theorem told_inside (evaluated : Scheduling.Admission × Transition) : told evaluated ≠ .outside := by
  unfold told
  split
  · exact Stage.noConfusion
  · split
    · exact Stage.noConfusion
    · split <;> exact Stage.noConfusion

theorem announce_keeps (evaluated : Scheduling.Admission × Transition)
    (coherent : Coherent evaluated) :
    Keeps discipline (announce evaluated.2) (told evaluated) fun _ stage =>
      Served evaluated stage := by
  apply keeps_bind
  apply keeps_mono _ _ _ _ _ (triggered_keeps evaluated.2.triggered .scheduleTriggered _
    (told_inside evaluated) trivial rfl)
  rintro _ stage rfl
  cases opened : evaluated.2.windowOpened with
  | true =>
      have windowed := coherent.1 opened
      have unclosed : evaluated.2.windowClosed = false := by
        cases closed : evaluated.2.windowClosed with
        | false => rfl
        | true =>
            rw [coherent.2 closed] at windowed
            cases windowed
      have stage : told evaluated = .opening := by simp [told, opened]
      apply keeps_bind
      refine ⟨⟨told_inside evaluated, stage⟩, fun _ _ => ?_⟩
      rw [unclosed]
      exact ⟨rfl, fun _ => rfl⟩
  | false =>
      apply keeps_bind
      cases closed : evaluated.2.windowClosed with
      | true =>
          have stage : told evaluated = .closing := by simp [told, opened, closed]
          apply keeps_bind
          refine ⟨⟨told_inside evaluated, stage⟩, fun _ _ => ?_⟩
          refine ⟨⟨Stage.noConfusion, fun _ => rfl⟩, fun _ _ => ⟨rfl, fun windowed => ?_⟩⟩
          rw [coherent.2 closed] at windowed
          cases windowed
      | false =>
          cases windowed : isWindowed evaluated.1 with
          | true =>
              have stage : told evaluated = .flowing := by simp [told, opened, closed, windowed]
              rw [stage]
              exact ⟨rfl, fun _ => rfl⟩
          | false =>
              have stage : told evaluated = .quiet := by simp [told, opened, closed, windowed]
              rw [stage]
              exact ⟨rfl, fun flowing => absurd (windowed.symm.trans flowing) Bool.false_ne_true⟩

theorem settled_inside (stage : Stage) (settled : stage.settled = true) : stage ≠ .outside := by
  rintro rfl
  cases settled

theorem serve_keeps (fuel : Nat) (now : Int) (evaluated : Scheduling.Admission × Transition)
    (stage : Stage)
    (announces : Keeps discipline (announce evaluated.2) stage fun _ after => Served evaluated after) :
    Keeps discipline (serve setup fuel now evaluated) stage fun _ after => after.settled = true := by
  apply keeps_bind
  apply keeps_mono _ _ _ _ _ announces
  rintro _ after ⟨settled, window⟩
  apply keeps_bind
  apply keeps_mono _ _ _ _ _ (admission_keeps setup fuel now evaluated.1 after settled window)
  intro _ last settled
  apply keeps_mono _ _ _ _ _ (triggered_keeps evaluated.2.triggered (.scheduleComplete "cron") last
    (settled_inside last settled) (fun same => absurd same (by decide)) rfl)
  rintro _ _ rfl
  exact settled

theorem tick_keeps (now : Int) (ignoreWindow redriveCleanup : Bool) (fuel : Nat) :
    Keeps discipline (runTick setup now ignoreWindow redriveCleanup fuel) .outside fun _ stage =>
      stage = .outside := by
  have served : ∀ evaluated stage, (Keeps discipline (announce evaluated.2) stage fun _ after =>
      Served evaluated after) → Keeps discipline (serve setup fuel now evaluated >>= fun _ => unlock)
        stage fun _ after => after = .outside := by
    intro evaluated stage announces
    apply keeps_bind
    apply keeps_mono _ _ _ _ _ (serve_keeps setup fuel now evaluated stage announces)
    exact fun _ after settled => ⟨settled, fun _ _ => rfl⟩
  apply keeps_bind
  refine keeps_lift _ _ _ fun active => ?_
  cases active with
  | false => exact rfl
  | true =>
      apply keeps_bind
      refine ⟨rfl, fun _ _ => ?_⟩
      apply keeps_bind
      refine keeps_lift _ _ _ fun _ => ?_
      apply keeps_bind
      cases ignoreWindow with
      | true => exact served _ .entered ⟨rfl, fun windowed => by cases windowed⟩
      | false => exact ⟨rfl, fun evaluated coherent => served evaluated _ (announce_keeps evaluated coherent)⟩

/-! ## Every run -/

variable (schedule : Scheduling.Schedule)

abbrev ticks := machine setup schedule discipline (fun stage => stage = .outside) .outside

abbrev State := ScheduledTicks.State Stage

theorem coherent_evaluation (now : Int) (track : Track) :
    Coherent (Scheduling.evaluateSchedule schedule now track).1 := by
  simp only [Scheduling.evaluateSchedule]
  generalize (schedule.admission now track.lastFire).1 = admitted
  constructor
  · intro opened
    cases admitted with
    | all drain => cases drain <;> cases opened
    | none => cases opened
    | windowed closeAt onClose => rfl
  · intro closed
    cases admitted with
    | all drain => rfl
    | none => rfl
    | windowed closeAt onClose => cases closed

def tickLock : Lock (ticks setup schedule) where
  locked := World.ticking
  inside := fun stage => stage ≠ .outside
  takes := fun operation => match operation with | .lock => true | _ => false
  starts := fun _ => rfl
  taken := by
    intro t live world operation answer ret effect performed takes
    cases operation with
    | lock =>
        simp only [ticks, machine, perform] at performed
        split at performed
        · cases performed
        · rename_i free
          cases performed
          exact ⟨by simpa using free, rfl⟩
    | _ => cases takes
  entered := by
    intro stage operation ret takes may outside
    have out : stage = .outside := by simpa using outside
    subst out
    cases operation with
    | inner operation => rfl
    | lock => cases takes
    | unlock => cases may
    | evaluate now => cases may
    | emit event => exact absurd rfl may.1
    | shut => cases may
  given := by
    intro t live world operation answer ret effect performed takes may locked after
    cases operation with
    | lock => cases takes
    | unlock => exact ⟨by simpa using settled_inside t.notes may, rfl⟩
    | _ =>
        cases performed
        exact absurd (locked.symm.trans after) Bool.noConfusion
  left := by
    intro live world event reaction reacted
    cases event <;> cases reacted <;> exact Or.inr rfl

@[simp] theorem lock_inside (stage : Stage) :
    (tickLock setup schedule).inside stage = true ↔ stage ≠ .outside :=
  decide_eq_true_iff

@[simp] theorem lock_outside (stage : Stage) :
    (tickLock setup schedule).inside stage = false ↔ stage = .outside := by
  simp [tickLock]

/-- How the shared flag and the announcements stand to what the tick inside is about to do. -/
def Fits (stage : Stage) (windowOpen : Bool) (said : List Announcement) : Prop :=
  match stage with
  | .outside | .entered | .quiet => Stands said (if windowOpen then .flowing else .complete)
  | .flowing => windowOpen = true ∧ Stands said .flowing
  | .opening => windowOpen = true ∧ Stands said .complete
  | .closing => windowOpen = false ∧ Stands said .flowing
  | .completing => windowOpen = false ∧ Stands said .closing

theorem stands_of_fits (stage : Stage) (windowOpen : Bool) (said : List Announcement)
    (fits : Fits stage windowOpen said) : ∃ phase, Stands said phase := by
  cases stage with
  | outside | entered | quiet => exact ⟨_, fits⟩
  | _ => exact ⟨_, fits.2⟩

structure Sound (c : State) : Prop where
  distinct : Distinct c
  orderly : Orderly (ticks setup schedule) c
  exclusive : Exclusive (tickLock setup schedule) c
  inside : ∀ t ∈ c.threads, t.notes ≠ .outside →
    Fits t.notes c.state.track.windowOpen c.state.said
  free : c.state.ticking = false → Fits .outside c.state.track.windowOpen c.state.said
  stands : ∃ phase, Stands c.state.said phase

theorem fits_settled (stage : Stage) (windowOpen : Bool) (said : List Announcement)
    (settled : stage.settled = true) (fits : Fits stage windowOpen said) :
    Fits .outside windowOpen said := by
  cases stage with
  | entered => exact fits
  | quiet => exact fits
  | flowing =>
      obtain ⟨rfl, stands⟩ := fits
      exact stands
  | _ => cases settled

theorem fits_evaluated (now : Int) (track : Track) (said : List Announcement)
    (fits : Fits .entered track.windowOpen said) :
    Fits (told (Scheduling.evaluateSchedule schedule now track).1)
      (Scheduling.evaluateSchedule schedule now track).2.windowOpen said := by
  simp only [Scheduling.evaluateSchedule]
  generalize (schedule.admission now track.lastFire).1 = admitted
  generalize track.windowOpen = windowOpen at fits ⊢
  cases admitted with
  | all drain =>
      cases drain with
      | true => exact fits
      | false =>
          cases windowOpen with
          | true => exact ⟨rfl, fits⟩
          | false => exact fits
  | none =>
      cases windowOpen with
      | true => exact ⟨rfl, fits⟩
      | false => exact fits
  | windowed closeAt onClose => cases windowOpen <;> exact ⟨rfl, fits⟩

theorem fits_silent (stage : Stage) (windowOpen : Bool) (said : List Announcement)
    (event : Announcement) (other : ofWindow event = false) (fits : Fits stage windowOpen said) :
    Fits stage windowOpen (said ++ [event]) := by
  cases stage with
  | outside | entered | quiet => exact stands_silent said _ event fits other
  | _ => exact ⟨fits.1, stands_silent said _ event fits.2 other⟩

theorem fits_emitted (stage : Stage) (windowOpen : Bool) (said : List Announcement)
    (event : Announcement) (may : mayEmit stage event) (fits : Fits stage windowOpen said) :
    Fits (emitted stage event) windowOpen (said ++ [event]) := by
  cases event with
  | scheduleTriggered => exact fits_silent stage windowOpen said _ rfl fits
  | windowOpened =>
      rw [show stage = .opening from may] at fits
      exact ⟨fits.1, stands_opened said fits.2⟩
  | windowClosed =>
      rw [show stage = .closing from may] at fits
      exact ⟨fits.1, stands_closed said fits.2⟩
  | scheduleComplete mode =>
      by_cases window : mode = "window"
      · subst window
        rw [show stage = .completing from may rfl] at fits
        obtain ⟨rfl, stands⟩ := fits
        exact stands_completed said stands
      · simp only [emitted, if_neg window]
        exact fits_silent stage windowOpen said _ (decide_eq_false window) fits

theorem fits_call (stage : Stage) (world : World) (operation : ScheduledTicks.Op) (answer : Answer)
    (ret : ScheduledTicks.Ret operation) (effect : Effect World Spec)
    (performed : perform schedule world operation answer = some (ret, effect))
    (may : discipline.allowed stage operation)
    (fits : Fits stage world.track.windowOpen world.said) :
    Fits (discipline.learn stage operation ret) effect.state.track.windowOpen effect.state.said := by
  cases operation with
  | inner operation =>
      cases performed
      exact fits
  | lock =>
      simp only [perform] at performed
      split at performed
      · cases performed
      · cases performed
        rw [show stage = .outside from may] at fits
        exact fits
  | unlock =>
      cases performed
      exact fits_settled stage _ _ may fits
  | evaluate now =>
      cases performed
      rw [show stage = .entered from may] at fits
      exact fits_evaluated schedule now world.track world.said fits
  | emit event =>
      cases performed
      exact fits_emitted stage _ _ event may.2 fits
  | shut =>
      cases performed
      rw [show stage = .flowing from may] at fits
      exact ⟨rfl, fits.2⟩

theorem untouched (world : World) (operation : ScheduledTicks.Op) (answer : Answer)
    (ret : ScheduledTicks.Ret operation) (effect : Effect World Spec)
    (performed : perform schedule world operation answer = some (ret, effect))
    (may : discipline.allowed .outside operation) :
    effect.state.track = world.track ∧ effect.state.said = world.said := by
  cases operation with
  | inner operation =>
      cases performed
      exact ⟨rfl, rfl⟩
  | lock =>
      simp only [perform] at performed
      split at performed
      · cases performed
      · cases performed
        exact ⟨rfl, rfl⟩
  | emit event => exact absurd rfl may.1
  | _ => cases may

theorem starts_nothing (world : World) (operation : ScheduledTicks.Op) (answer : Answer)
    (ret : ScheduledTicks.Ret operation) (effect : Effect World Spec)
    (performed : perform schedule world operation answer = some (ret, effect)) :
    effect.spawned = [] ∧ discipline.possible operation ret := by
  cases operation with
  | lock =>
      simp only [perform] at performed
      split at performed
      · cases performed
      · cases performed
        exact ⟨rfl, trivial⟩
  | evaluate now =>
      cases performed
      exact ⟨rfl, coherent_evaluation schedule now world.track⟩
  | _ =>
      cases performed
      exact ⟨rfl, trivial⟩

theorem fits_caller (c : State) (sound : Sound setup schedule c)
    (t : Thread ScheduledTicks.Op ScheduledTicks.Ret Spec Stage) (member : t ∈ c.threads)
    (mine : t.notes ≠ .outside ∨ c.state.ticking = false) :
    Fits t.notes c.state.track.windowOpen c.state.said := by
  by_cases out : t.notes = .outside
  · rw [out]
    exact sound.free (mine.resolve_left fun inside => inside out)
  · exact sound.inside t member out

theorem sound_settle (c : State) (sound : Sound setup schedule c)
    (t : Thread ScheduledTicks.Op ScheduledTicks.Ret Spec Stage) (operation : ScheduledTicks.Op)
    (ret : ScheduledTicks.Ret operation) (effect : Effect World Spec)
    (next : ScheduledTicks.Ret operation → ScheduledTicks.Program Unit) (choice : Step)
    (calls : Calls (ticks setup schedule) c t operation ret effect next choice) :
    Sound setup schedule ((ticks setup schedule).settle c
      ((ticks setup schedule).resumed t operation ret next) effect) := by
  have may := calls_allowed (ticks setup schedule) c t operation ret effect next choice calls
    sound.orderly
  obtain ⟨answer, chosen, performed⟩ := calls.choice
  obtain ⟨nothing, possible⟩ := starts_nothing schedule c.state operation answer ret effect performed
  constructor
  · exact distinct_settle (ticks setup schedule) c _ effect sound.distinct
  · refine orderly_settle (ticks setup schedule) c t operation ret effect next choice calls
      sound.orderly possible ?_
    rw [nothing]
    exact fun spec none => by cases none
  · exact exclusive_settle (tickLock setup schedule) c t operation ret effect next choice calls
      sound.orderly sound.exclusive
  · intro u hu inside
    have holds : (tickLock setup schedule).inside u.notes = true := by simpa using inside
    rcases inside_settle (tickLock setup schedule) c t operation ret effect next u hu holds with
      ⟨_, notes⟩ | ⟨before, hbefore, other, same, was⟩
    · -- the caller was inside before, or it has just taken the lock
      rw [notes]
      refine fits_call schedule t.notes c.state operation answer ret effect performed may ?_
      refine fits_caller setup schedule c sound t calls.member ?_
      by_cases out : t.notes = .outside
      · refine Or.inr ?_
        cases takes : (tickLock setup schedule).takes operation with
        | true =>
            exact ((tickLock setup schedule).taken t _ _ operation answer ret effect performed
              takes).1
        | false =>
            have stays := (tickLock setup schedule).entered t.notes operation ret takes may
              (by simpa using out)
            rw [notes, stays] at holds
            cases holds
      · exact Or.inl out
    · -- another tick is inside, so the caller is not
      have out : t.notes = .outside := by
        by_contra inside_t
        exact other (sound.exclusive.one before hbefore t calls.member was (by simpa using inside_t))
      rw [out] at may
      obtain ⟨track, said⟩ := untouched schedule c.state operation answer ret effect performed may
      show Fits u.notes effect.state.track.windowOpen effect.state.said
      rw [track, said, same.notes]
      exact sound.inside before hbefore (by simpa using was)
  · intro free
    cases before : c.state.ticking with
    | false =>
        have out : t.notes = .outside := by
          simpa using nobody_inside (tickLock setup schedule) c sound.exclusive before t calls.member
        rw [out] at may
        obtain ⟨track, said⟩ := untouched schedule c.state operation answer ret effect performed may
        show Fits .outside effect.state.track.windowOpen effect.state.said
        rw [track, said]
        exact sound.free before
    | true =>
        have notlock : (tickLock setup schedule).takes operation = false := by
          cases takes : (tickLock setup schedule).takes operation with
          | false => rfl
          | true =>
              have was := ((tickLock setup schedule).taken t _ _ operation answer ret effect performed
                takes).1
              exact absurd (was.symm.trans before) Bool.noConfusion
        obtain ⟨mine, gave⟩ := (tickLock setup schedule).given t _ _ operation answer ret effect
          performed notlock may before free
        have fits := fits_call schedule t.notes c.state operation answer ret effect performed may
          (sound.inside t calls.member (by simpa using mine))
        have out := (lock_outside setup schedule _).mp gave
        rwa [show discipline.learn t.notes operation ret = .outside from out] at fits
  · by_cases out : t.notes = .outside
    · rw [out] at may
      obtain ⟨_, said⟩ := untouched schedule c.state operation answer ret effect performed may
      show ∃ phase, Stands effect.state.said phase
      rw [said]
      exact sound.stands
    · exact stands_of_fits _ _ _ (fits_call schedule t.notes c.state operation answer ret effect
        performed may (sound.inside t calls.member out))

theorem sound_step (c after : State) (choice : Step) (sound : Sound setup schedule c) (_ : True)
    (stepped : (ticks setup schedule).step c choice = some after) : Sound setup schedule after := by
  rcases step_cases (ticks setup schedule) c after choice stepped with
    ⟨t, operation, ret, effect, next, calls, rfl⟩ | ⟨id, _, _, rfl⟩ |
    ⟨event, reaction, _, reacted, rfl⟩
  · exact sound_settle setup schedule c sound t operation ret effect next choice calls
  · constructor
    · exact distinct_without (ticks setup schedule) c id sound.distinct
    · exact orderly_without (ticks setup schedule) c id sound.orderly
    · exact exclusive_without (tickLock setup schedule) c id sound.exclusive
    · intro u hu inside
      obtain ⟨before, hbefore, _, same⟩ := mem_without (ticks setup schedule) c id u hu
      rw [same.notes] at inside ⊢
      exact sound.inside before hbefore inside
    · exact sound.free
    · exact sound.stands
  · have same : reaction.stops = false ∧ reaction.state.ticking = c.state.ticking ∧
        reaction.state.track = c.state.track ∧ reaction.state.said = c.state.said := by
      cases event <;> cases reacted <;> exact ⟨rfl, rfl, rfl, rfl⟩
    obtain ⟨_, ticking, track, said⟩ := same
    constructor
    · exact distinct_absorb (ticks setup schedule) c reaction sound.distinct
    · exact orderly_absorb (ticks setup schedule) c reaction sound.orderly
        fun spec _ => tick_keeps setup spec.now spec.ignoreWindow spec.redriveCleanup spec.fuel
    · exact exclusive_absorb (tickLock setup schedule) c event reaction reacted sound.exclusive
    · intro u hu inside
      show Fits u.notes reaction.state.track.windowOpen reaction.state.said
      rw [track, said]
      rcases mem_absorb (ticks setup schedule) c reaction u hu with ⟨_, before, hbefore, same⟩ |
        ⟨new, hnew, same⟩
      · rw [same.notes] at inside ⊢
        exact sound.inside before hbefore inside
      · obtain ⟨_, _, _, _, notes, _⟩ := mem_spawn_from (ticks setup schedule) _ _ new hnew
        exact absurd (same.notes.trans notes) inside
    · intro free
      show Fits .outside reaction.state.track.windowOpen reaction.state.said
      rw [track, said]
      exact sound.free (ticking.symm.trans free)
    · show ∃ phase, Stands reaction.state.said phase
      rw [said]
      exact sound.stands

theorem sound_begins (c : State) (begins : Begins c) : Sound setup schedule c := by
  have nobody : ∀ t, t ∉ c.threads := by
    intro t
    rw [begins.threads]
    exact List.not_mem_nil
  constructor
  · refine ⟨fun t member => absurd member (nobody t), ?_⟩
    rw [begins.threads]
    exact List.nodup_nil
  · exact fun t member => absurd member (nobody t)
  · exact ⟨fun t member => absurd member (nobody t), fun t member => absurd member (nobody t)⟩
  · exact fun t member => absurd member (nobody t)
  · intro _
    rw [begins.track, begins.silent]
    exact ⟨0, rfl⟩
  · rw [begins.silent]
    exact ⟨.complete, 0, rfl⟩

theorem sound_reached (c : State)
    (reached : Reached (ticks setup schedule) Begins (fun _ _ => True) c) : Sound setup schedule c :=
  invariant_of_reached (ticks setup schedule) Begins (fun _ _ => True) (Sound setup schedule)
    (sound_begins setup schedule) (sound_step setup schedule) c reached

theorem begun_part (phase : Phase) : phase.begun <+: oneWindow := by
  cases phase with
  | complete => exact List.nil_prefix
  | flowing => exact ⟨[.windowClosed, .scheduleComplete "window"], rfl⟩
  | closing => exact ⟨[.scheduleComplete "window"], rfl⟩

/-- The window events of a run are a window after the other, each opened, closed and completed in
this order; and only a tick that is under way leaves a close to be completed. -/
theorem windows_alternate (c : State)
    (reached : Reached (ticks setup schedule) Begins (fun _ _ => True) c) :
    (∃ n, c.state.said.filter ofWindow <+: windows n) ∧
      (c.state.ticking = false →
        ∃ n, c.state.said.filter ofWindow = windows n ∨
          c.state.said.filter ofWindow = windows n ++ [.windowOpened]) := by
  have sound := sound_reached setup schedule c reached
  constructor
  · obtain ⟨phase, n, same⟩ := sound.stands
    refine ⟨n + 1, ?_⟩
    rw [same, windows_succ]
    exact (List.prefix_append_right_inj _).mpr (begun_part phase)
  · intro free
    have fits := sound.free free
    cases windowOpen : c.state.track.windowOpen with
    | true =>
        rw [windowOpen] at fits
        obtain ⟨n, same⟩ := fits
        exact ⟨n, Or.inr same⟩
    | false =>
        rw [windowOpen] at fits
        obtain ⟨n, same⟩ := fits
        exact ⟨n, Or.inl (same.trans (List.append_nil _))⟩

def halfHours : Scheduling.WindowSched where
  open_ := ⟨fun now => some (now / 3600000 * 3600000), fun now => some (now / 3600000 * 3600000 + 3600000),
    fun now => some ((now + 3599999) / 3600000 * 3600000)⟩
  close := .duration 1800000
  onClose := .finishCurrent

/-- One file is claimed, and the window closes while it is replicated. -/
def untilClosed : List Step :=
  [.env (.periodic 1)] ++ go 0 9 ++
    [.run 0 fun operation =>
      match operation with
      | .store (.claimReady _ _) => .ok [⟨"plant", "a", .inProgress, 0, 0, 0, 0, 0, none, 0, 0⟩]
      | other => nothingToDo other] ++
    go 0 1 ++
    [.run 0 fun operation =>
      match operation with
      | .nextOfBatch _ => .closed
      | other => nothingToDo other] ++
    go 0 5

/-- The window opens again an hour later, and is found closed after that. -/
def untilClosedAgain : List Step :=
  untilClosed ++ [.env (.wait 3600000), .env (.periodic 1)] ++ go 1 11 ++
    [.env (.wait 1800000), .env (.periodic 1)] ++ go 2 10

theorem windows_alternate_twice :
    ∃ c, Reached (ticks (Runs.smallSetup Runs.plainCompletion) (.window halfHours)) Begins
        (fun _ _ => True) c ∧
      c.state.said = [.windowOpened, .windowClosed, .scheduleComplete "window", .windowOpened,
        .windowClosed, .scheduleComplete "window"] ∧
      (∃ n, c.state.said.filter ofWindow <+: windows n) ∧
      (c.state.ticking = false →
        ∃ n, c.state.said.filter ofWindow = windows n ∨
          c.state.said.filter ofWindow = windows n ++ [.windowOpened]) := by
  obtain ⟨c, reached, said⟩ := exists_of_run
    (ticks (Runs.smallSetup Runs.plainCompletion) (.window halfHours)) Begins (fun _ _ => True)
    (fun _ _ => true) (fun _ _ _ => trivial)
    (fun c => c.state.said = [.windowOpened, .windowClosed, .scheduleComplete "window", .windowOpened,
      .windowClosed, .scheduleComplete "window"]) untilClosedAgain (smallStart Stage)
    (small_begins Stage) (by decide)
  exact ⟨c, reached, of_decide_eq_true said,
    windows_alternate (Runs.smallSetup Runs.plainCompletion) (.window halfHours) c reached⟩

end FileReplicator.WindowEvents
