import FileReplicator.Runs
import FileReplicator.ScheduledTicks

/-!
# Fires of a cron schedule

Which occurrences let a tick drain the backlog. The watermark is the instant of the
last evaluation, in the order of the lock; an evaluation that comes late sets it
back, and what lies between fires once more.
-/

namespace FileReplicator.CronFires

open Effects Interleaving Operations Scheduling ScheduledTicks

structure Evaluation where
  now : Int
  /-- The watermark it found. -/
  lastFire : Option Int
  drains : Bool
  deriving DecidableEq

/-- The occurrences that let an evaluation drain the backlog. -/
def Causes (occurs : Int → Prop) (e : Evaluation) (fire : Int) : Prop :=
  e.drains = true ∧ occurs fire ∧ e.lastFire.getD e.now < fire ∧ fire ≤ e.now

def free : Discipline ScheduledTicks.Op ScheduledTicks.Ret Unit where
  allowed := fun _ _ => True
  possible := fun _ _ => True
  learn := fun n _ _ => n

abbrev State := ScheduledTicks.State Unit

variable (setup : Setup) (expr : CronExpr)

abbrev ticks := machine setup (.cron expr) free (fun _ => True) ()

/-- The evaluations so far, in the order in which they were made. -/
def heed (operation : ScheduledTicks.Op) (c : State) (h : List Evaluation) : List Evaluation :=
  match operation with
  | .evaluate now =>
      h ++ [⟨now, c.state.track.lastFire,
        ((Schedule.cron expr).admission now c.state.track.lastFire).1 = .all true⟩]
  | _ => h

def evaluations : Chronicle ScheduledTicks.Op ScheduledTicks.Ret World Spec Unit Answer Event
    (List Evaluation) :=
  chronicle [] (fun _ operation _ c _ h => heed expr operation c h) fun _ _ _ h => h

/-- No evaluation of this step sets the watermark back over an occurrence. -/
def Timely (occurs : Int → Prop) (_ : List Evaluation) (c : State) (choice : Step) : Prop :=
  ∀ t ∈ c.threads, ∀ answer now next, choice = .run t.id answer →
    t.prog = .call (.evaluate now) next →
      ∀ mark, c.state.track.lastFire = some mark → ∀ fire, occurs fire → ¬(now < fire ∧ fire ≤ mark)

structure Sound (occurs : Int → Prop) (h : List Evaluation) (c : State) : Prop where
  distinct : Distinct c
  /-- The watermark has not gone back over an occurrence. -/
  ahead : ∀ e ∈ h, ∃ mark, c.state.track.lastFire = some mark ∧
    ∀ fire, occurs fire → fire ≤ e.now → fire ≤ mark
  apart : h.Pairwise fun earlier later =>
    ∀ fire, fire ≤ earlier.now → ¬Causes occurs later fire
  caused : ∀ e ∈ h, e.drains = true → ∃ fire, Causes occurs e fire

theorem kept_watermark (world : World) (operation : ScheduledTicks.Op) (answer : Answer)
    (ret : ScheduledTicks.Ret operation) (effect : Effect World Spec)
    (performed : perform (.cron expr) world operation answer = some (ret, effect))
    (other : ∀ now, operation ≠ .evaluate now) :
    effect.state.track.lastFire = world.track.lastFire := by
  cases operation with
  | evaluate now => exact absurd rfl (other now)
  | lock =>
      simp only [perform] at performed
      split at performed
      · cases performed
      · cases performed
        rfl
  | _ =>
      cases performed
      rfl

theorem drain_cause (occurs : Int → Prop) (finds : FindsLast expr occurs) (now : Int)
    (lastFire : Option Int) (drains : ((Schedule.cron expr).admission now lastFire).1 = .all true) :
    ∃ fire, occurs fire ∧ lastFire.getD now < fire ∧ fire ≤ now := by
  have fresh : freshFire expr now lastFire = true := by
    simp only [Schedule.admission] at drains
    split at drains
    · assumption
    · cases drains
  obtain ⟨fire, found, later⟩ := (Option.any_eq_true _ _).mp fresh
  obtain ⟨occurrence, before, _⟩ := finds.found now fire found
  exact ⟨fire, occurrence, of_decide_eq_true later, before⟩

theorem sound_evaluate (occurs : Int → Prop) (finds : FindsLast expr occurs)
    (h : List Evaluation) (c after : State) (now : Int) (sound : Sound occurs h c)
    (timely : ∀ mark, c.state.track.lastFire = some mark →
      ∀ fire, occurs fire → ¬(now < fire ∧ fire ≤ mark))
    (distinct : Distinct after) (marked : after.state.track.lastFire = some now) :
    Sound occurs (h ++ [⟨now, c.state.track.lastFire,
      ((Schedule.cron expr).admission now c.state.track.lastFire).1 = .all true⟩]) after := by
  constructor
  · exact distinct
  · intro e member
    refine ⟨now, marked, fun fire occurrence before => ?_⟩
    rcases List.mem_append.mp member with earlier | last
    · obtain ⟨mark, found, covered⟩ := sound.ahead e earlier
      by_contra beyond
      exact timely mark found fire occurrence ⟨not_le.mp beyond, covered fire occurrence before⟩
    · rwa [List.mem_singleton.mp last] at before
  · refine List.pairwise_append.mpr ⟨sound.apart, List.pairwise_singleton _ _, ?_⟩
    intro e earlier last hlast fire before cause
    rw [List.mem_singleton.mp hlast] at cause
    obtain ⟨_, occurrence, beyond, _⟩ := cause
    obtain ⟨mark, found, covered⟩ := sound.ahead e earlier
    rw [found, Option.getD_some] at beyond
    exact absurd (covered fire occurrence before) (not_le.mpr beyond)
  · intro e member drains
    rcases List.mem_append.mp member with earlier | last
    · exact sound.caused e earlier drains
    · rw [List.mem_singleton.mp last] at drains ⊢
      obtain ⟨fire, occurrence, beyond, before⟩ :=
        drain_cause expr occurs finds now c.state.track.lastFire (of_decide_eq_true drains)
      exact ⟨fire, drains, occurrence, beyond, before⟩

theorem sound_same (occurs : Int → Prop) (h : List Evaluation) (c after : State)
    (sound : Sound occurs h c) (distinct : Distinct after)
    (same : after.state.track.lastFire = c.state.track.lastFire) : Sound occurs h after := by
  refine ⟨distinct, ?_, sound.apart, sound.caused⟩
  rw [same]
  exact sound.ahead

theorem react_watermark (world : World) (event : Event) (reaction : Reaction World Spec)
    (reacted : react world event = some reaction) :
    reaction.state.track = world.track := by
  cases event <;> cases reacted <;> rfl

theorem sound_step (occurs : Int → Prop) (finds : FindsLast expr occurs) (h : List Evaluation)
    (c after : State) (choice : Step) (sound : Sound occurs h c) (timely : Timely occurs h c choice)
    (stepped : (ticks setup expr).step c choice = some after) :
    Sound occurs ((evaluations expr).follow c choice after h) after := by
  rcases step_cases (ticks setup expr) c after choice stepped with
    ⟨t, operation, ret, effect, next, calls, rfl⟩ | ⟨id, rfl, _, rfl⟩ |
    ⟨event, reaction, rfl, reacted, rfl⟩
  · have distinct := distinct_settle (ticks setup expr) c
      ((ticks setup expr).resumed t operation ret next) effect sound.distinct
    obtain ⟨answer, rfl, performed⟩ := calls.choice
    have followed : (evaluations expr).follow c (.run t.id answer)
        ((ticks setup expr).settle c ((ticks setup expr).resumed t operation ret next) effect) h =
          heed expr operation c h :=
      follow_call [] _ _ c _ sound.distinct t calls.member operation next calls.prog answer h
    rw [followed]
    cases operation with
    | evaluate now =>
        cases performed
        exact sound_evaluate expr occurs finds h c _ now sound
          (timely t calls.member answer now next rfl calls.prog) distinct rfl
    | _ =>
        refine sound_same occurs h c _ sound distinct ?_
        exact kept_watermark expr c.state _ answer ret effect performed fun now same => by cases same
  · exact sound_same occurs h c _ sound (distinct_without (ticks setup expr) c id sound.distinct) rfl
  · refine sound_same occurs h c _ sound
      (distinct_absorb (ticks setup expr) c reaction sound.distinct) ?_
    exact congrArg Track.lastFire (react_watermark c.state event reaction reacted)

theorem sound_begins (occurs : Int → Prop) (c : State) (begins : Begins c) : Sound occurs [] c := by
  refine ⟨⟨?_, ?_⟩, fun e none => ?_, List.Pairwise.nil, fun e none => ?_⟩
  · intro t member
    rw [begins.threads] at member
    cases member
  · rw [begins.threads]
    exact List.nodup_nil
  · cases none
  · cases none

theorem sound_of_tracked (occurs : Int → Prop) (finds : FindsLast expr occurs)
    (h : List Evaluation) (c : State)
    (tracked : Tracked (ticks setup expr) (evaluations expr) Begins (Timely occurs) h c) :
    Sound occurs h c :=
  invariant_of_tracked (ticks setup expr) (evaluations expr) Begins (Timely occurs) (Sound occurs)
    (sound_begins occurs) (sound_step setup expr occurs finds) h c tracked

/-- Where no evaluation sets the watermark back over an occurrence, an occurrence that an evaluation
has reached causes no later one to drain the backlog; and nothing else does. -/
theorem fires_once (occurs : Int → Prop) (finds : FindsLast expr occurs) (h : List Evaluation)
    (c : State)
    (tracked : Tracked (ticks setup expr) (evaluations expr) Begins (Timely occurs) h c) :
    (∀ fire, h.Pairwise fun earlier later => ¬(Causes occurs earlier fire ∧ Causes occurs later fire)) ∧
      (h.Pairwise fun earlier later => ∀ fire, fire ≤ earlier.now → ¬Causes occurs later fire) ∧
      ∀ e ∈ h, e.drains = true → ∃ fire, Causes occurs e fire := by
  have sound := sound_of_tracked setup expr occurs finds h c tracked
  refine ⟨fun fire => ?_, sound.apart, sound.caused⟩
  refine sound.apart.imp fun apart both => ?_
  exact apart fire both.1.2.2.2 both.2

/-! ## Runs -/

def hour : Int := 3600000

/-- `0 * * * *`. -/
def hourly : CronExpr where
  prevFire := fun now => some (now / hour * hour)
  nextFire := fun now => some (now / hour * hour + hour)
  nextFireInclusive := fun now => some (if now % hour = 0 then now else now / hour * hour + hour)

def onTheHour (now : Int) : Prop := now % hour = 0

theorem hourly_finds : FindsLast hourly onTheHour := by
  constructor
  · intro now fire found
    cases found
    simp only [onTheHour, hour]
    refine ⟨?_, ?_, fun other occurrence before => ?_⟩
    · omega
    · omega
    · omega
  · intro now missing
    cases missing

/-- The step of a run with hourly fires, checked by the watermark alone. -/
def timelyAt (_ : List Evaluation) (c : State) : Step → Bool
  | .run id _ => c.threads.all fun t => t.id ≠ id ||
      match t.prog with
      | .call (.evaluate now) _ => c.state.track.lastFire.all fun mark => mark ≤ now
      | _ => true
  | _ => true

theorem timely_of_check (occurs : Int → Prop) (h : List Evaluation) (c : State) (choice : Step)
    (checked : timelyAt h c choice = true) : Timely occurs h c choice := by
  rintro t member answer now next rfl prog mark found fire _ ⟨beyond, before⟩
  have now_at := List.all_eq_true.mp checked t member
  simp only [prog, found, ne_eq, not_true_eq_false, decide_false, Bool.false_or, Option.all_some,
    decide_eq_true_eq] at now_at
  omega

/-- The first tick sets the watermark; the next one comes after the full hour. -/
def untilDrained : List Step :=
  [.env (.periodic 1)] ++ go 0 8 ++ [.env (.wait 3600000), .env (.periodic 1)] ++ go 1 11

theorem fires_once_hourly :
    ∃ h c, Tracked (ticks (Runs.smallSetup Runs.plainCompletion) hourly) (evaluations hourly) Begins
        (Timely onTheHour) h c ∧
      h = [⟨0, none, false⟩, ⟨3600000, some 0, true⟩] ∧
      (∀ fire, h.Pairwise fun earlier later =>
        ¬(Causes onTheHour earlier fire ∧ Causes onTheHour later fire)) ∧
      (h.Pairwise fun earlier later => ∀ fire, fire ≤ earlier.now → ¬Causes onTheHour later fire) ∧
      ∀ e ∈ h, e.drains = true → ∃ fire, Causes onTheHour e fire := by
  obtain ⟨h, c, tracked, made⟩ := exists_of_tracked_run
    (ticks (Runs.smallSetup Runs.plainCompletion) hourly) (evaluations hourly) Begins
    (Timely onTheHour) timelyAt (timely_of_check onTheHour)
    (fun h _ => h = [⟨0, none, false⟩, ⟨3600000, some 0, true⟩]) untilDrained (smallStart Unit)
    (small_begins Unit) (by decide)
  exact ⟨h, c, tracked, of_decide_eq_true made,
    fires_once (Runs.smallSetup Runs.plainCompletion) hourly onTheHour hourly_finds h c tracked⟩

/-- A trigger reads the clock just before the full hour and gets the lock after a tick that has read
it just after; the tick after both drains the backlog again. -/
def untilDrainedAgain : List Step :=
  [.env (.periodic 1)] ++ go 0 8 ++ [.env (.wait 3599999), .env (.trigger false 1),
    .env (.wait 1), .env (.periodic 1)] ++ go 2 11 ++ go 1 8 ++
    [.env (.wait 1), .env (.periodic 1)] ++ go 3 11

theorem fire_repeated :
    ∃ h c, Tracked (ticks (Runs.smallSetup Runs.plainCompletion) hourly) (evaluations hourly) Begins
        (fun _ _ _ => True) h c ∧
      ¬∀ fire, h.Pairwise fun earlier later =>
        ¬(Causes onTheHour earlier fire ∧ Causes onTheHour later fire) := by
  obtain ⟨h, c, tracked, made⟩ := exists_of_tracked_run
    (ticks (Runs.smallSetup Runs.plainCompletion) hourly) (evaluations hourly) Begins
    (fun _ _ _ => True) (fun _ _ _ => true) (fun _ _ _ _ => trivial)
    (fun h _ => h = [⟨0, none, false⟩, ⟨3600000, some 0, true⟩, ⟨3599999, some 3600000, false⟩,
      ⟨3600001, some 3599999, true⟩]) untilDrainedAgain (smallStart Unit) (small_begins Unit)
    (by decide)
  refine ⟨h, c, tracked, fun apart => ?_⟩
  have same := of_decide_eq_true made
  subst same
  have both := List.pairwise_iff_getElem.mp (apart 3600000) 1 3 (by decide) (by decide) (by decide)
  exact both ⟨⟨rfl, rfl, by decide, by decide⟩, ⟨rfl, rfl, by decide, by decide⟩⟩

end FileReplicator.CronFires
