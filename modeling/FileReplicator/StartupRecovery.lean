import FileReplicator.Runs

/-!
# Startup recovery and new work

The run loop ticks once its recovery is over; a trigger ticks at once. As long as
triggers wait as well, recovery is alone with what it has started.
-/

namespace FileReplicator.StartupRecovery

open Domain DurableStore Effects Interleaving Operations Instance Protocol Steps Runs

variable (setup : Setup)

/-! ## What ticks have done since startup -/

structure Work where
  /-- The rows that ticks have claimed or completed. -/
  taken : List String
  /-- The actions they have started. -/
  actions : List Nat

def idle : Work := ⟨[], []⟩

def Work.claim (work : Work) (rows : List WorkItem) : Work :=
  { work with taken := work.taken ++ rows.map WorkItem.relpath }

/-- What a call of a tick, or of one of its items, adds. -/
def Work.add (work : Work) (world : World) : Op → Answer → Work
  | .store (.claimReady limit now), .asIs => work.claim (world.store.claimed limit now)
  | .store operation, .asIs =>
      match persists .completed operation with
      | some relpath => { work with taken := work.taken ++ [relpath] }
      | none => work
  | .startAction _, .asIs => { work with actions := work.actions ++ [world.handles] }
  | _, _ => work

def heed (t : Running) (operation : Op) (answer : Answer) (c _ : State) (work : Work) : Work :=
  if isRecover t.spec then work else work.add c.state operation answer

def pass (event : Event) (_ _ : State) (work : Work) : Work :=
  match event with
  | .boot _ => idle
  | _ => work

abbrev working : Chronicle Op Ret World Spec Notes Answer Event Work := chronicle idle heed pass

/-! ## Recovery first -/

def changesState : StoreOp → Option String
  | .setState relpath _ _ | .rollUpItem relpath _ _ _ _ _ | .recordCleanupAttempt relpath _ _ _ _ =>
      some relpath
  | _ => none

def isWork (work : Work) : Spec → Bool
  | .tick _ _ _ _ | .item _ _ _ | .attempt _ _ => true
  | .action handle _ => handle ∈ work.actions
  | _ => false

/-- While a recovery runs, it changes no row that a tick has claimed or completed, and no tick is at
work. -/
def First (work : Work) (c : State) : Prop :=
  ∀ t ∈ c.threads, isRecover t.spec = true →
    (∀ operation next relpath, t.prog = .call (.store operation) next →
      changesState operation = some relpath → relpath ∉ work.taken) ∧
    ∀ u ∈ c.threads, isWork work u.spec = false

/-- No trigger is served while a recovery runs. -/
def Waits (c : State) (choice : Step) : Prop :=
  ∀ now ignoreWindow fuel, choice = .env (.trigger now ignoreWindow fuel) →
    ∀ t ∈ c.threads, isRecover t.spec = false

/-- Nothing runs in a process that is down, and a recovery is the first to run. -/
structure Alone (work : Work) (c : State) : Prop where
  base : Base setup c
  down : c.state.up = false → c.threads = []
  first : ∀ t ∈ c.threads, isRecover t.spec = true →
    work = idle ∧ ∀ u ∈ c.threads, isWork idle u.spec = false

theorem spawned_aside (c : State) (base : Base setup c) (t : Running) (member : t ∈ c.threads)
    (operation : Op) (ret : Ret operation) (effect : Effect World Spec)
    (may : allowed setup t.notes operation)
    (did : Did setup t (Machine.live c) c.state operation ret effect) (spec : Spec)
    (spawned : spec ∈ effect.spawned) :
    isRecover spec = false ∧ (isWork idle spec = true → isWork idle t.spec = true) := by
  have role := base.roles t member
  cases did with
  | spawnedAttempts contexts =>
      obtain ⟨ctx, _, rfl⟩ := List.mem_map.mp spawned
      obtain ⟨relpath, mine, _⟩ := may
      rw [mine] at role
      refine ⟨rfl, fun _ => ?_⟩
      cases own : t.spec with
      | item owner item now => rfl
      | _ =>
          rw [own] at role
          cases role
  | spawnedBatch items now =>
      obtain ⟨item, _, rfl⟩ := List.mem_map.mp spawned
      rw [may.1] at role
      refine ⟨rfl, fun _ => ?_⟩
      cases own : t.spec with
      | tick now ignoreWindow redriveCleanup fuel => rfl
      | _ =>
          rw [own] at role
          cases role
  | startedAction ctx =>
      rw [List.mem_singleton.mp spawned]
      exact ⟨rfl, fun work => by cases work⟩
  | startedQuarantine job =>
      rw [List.mem_singleton.mp spawned]
      exact ⟨rfl, fun work => by cases work⟩
  | _ => cases spawned

theorem pooled_adds_nothing (c : State) (base : Base setup c) (t : Running) (member : t ∈ c.threads)
    (aside : isWork idle t.spec = false) (other : isRecover t.spec = false) (operation : Op)
    (may : allowed setup t.notes operation) (answer : Answer) (work : Work) :
    work.add c.state operation answer = work := by
  have role := base.roles t member
  have pooled : hasRows t.notes.role = false ∧ t.notes.role ≠ .tick := by
    rw [role]
    cases own : t.spec with
    | action handle ctx => exact ⟨rfl, Role.noConfusion⟩
    | quarantine handle job => exact ⟨rfl, Role.noConfusion⟩
    | recover now =>
        rw [own] at other
        cases other
    | _ =>
        rw [own] at aside
        cases aside
  have rowless := base.rowless t member pooled.1
  cases operation with
  | store operation =>
      cases operation with
      | claimReady limit now => exact absurd may.1 pooled.2
      | setState relpath state now =>
          cases state with
          | completed =>
              obtain ⟨ctx, done, stage, _⟩ := may
              rw [rowless.stage] at stage
              cases stage
          | _ => cases answer <;> rfl
      | rollUpItem relpath state attempts gate error now =>
          rw [may.1] at pooled
          cases pooled.1
      | recordCleanupAttempt relpath error state gate now =>
          obtain ⟨rfl, _⟩ := may
          cases answer <;> rfl
      | _ => cases answer <;> rfl
  | startAction ctx =>
      have stage := may.1
      rw [rowless.stage] at stage
      cases stage
  | _ => rfl

theorem alone_begins (c : State) (begins : Begins c) : Alone setup idle c := by
  constructor
  · exact base_begins setup c begins
  · exact fun _ => begins.threads
  · intro t ht
    rw [begins.threads] at ht
    cases ht

theorem alone_settle (work : Work) (c : State) (alone : Alone setup work c) (t : Running)
    (operation : Op) (ret : Ret operation) (effect : Effect World Spec)
    (next : Ret operation → Program Unit) (choice : Step)
    (calls : Calls (engine setup) c t operation ret effect next choice) :
    Alone setup
      (working.follow c choice
        ((engine setup).settle c ((engine setup).resumed t operation ret next) effect) work)
      ((engine setup).settle c ((engine setup).resumed t operation ret next) effect) := by
  have did := calls_did setup c t operation ret effect next choice calls
  have may := calls_allowed (engine setup) c t operation ret effect next choice calls alone.base.orderly
  obtain ⟨answer, rfl, _⟩ := calls.choice
  rw [follow_call idle heed pass c _ alone.base.distinct t calls.member operation next calls.prog answer
    work]
  constructor
  case base => exact base_settle setup c alone.base t operation ret effect next _ calls
  case down =>
    intro down
    have was : c.state.up = false := (did_up setup t _ c.state operation ret effect did).symm.trans down
    have none := calls.member
    rw [alone.down was] at none
    cases none
  case first =>
    -- a recovery that runs after the call has run before it, and so nobody has been at work
    intro u hu recovers
    have before : ∃ v ∈ c.threads, isRecover v.spec = true := by
      rcases mem_settle (engine setup) c _ u effect hu with ⟨same, _⟩ | ⟨v, hv, _, same, _⟩ |
        ⟨new, hnew, same⟩
      · exact ⟨t, calls.member, by rw [← recovers, same.spec]; rfl⟩
      · exact ⟨v, hv, by rw [← same.spec, recovers]⟩
      · obtain ⟨spawned, _⟩ := mem_spawn_from (engine setup) _ _ new hnew
        have aside := (spawned_aside setup c alone.base t calls.member operation ret effect may did
          new.spec spawned).1
        rw [same.spec, aside] at recovers
        cases recovers
    obtain ⟨v, hv, running⟩ := before
    obtain ⟨rfl, nobody⟩ := alone.first v hv running
    constructor
    · rw [heed]
      split
      · rfl
      · rename_i other
        exact pooled_adds_nothing setup c alone.base t calls.member (nobody t calls.member)
          (by simpa using other) operation may answer idle
    · intro w hw
      rcases mem_settle (engine setup) c _ w effect hw with ⟨same, _⟩ | ⟨old, hold, _, same, _⟩ |
        ⟨new, hnew, same⟩
      · rw [same.spec]
        exact nobody t calls.member
      · rw [same.spec]
        exact nobody old hold
      · obtain ⟨spawned, _⟩ := mem_spawn_from (engine setup) _ _ new hnew
        have started := (spawned_aside setup c alone.base t calls.member operation ret effect may did
          new.spec spawned).2
        rw [same.spec]
        cases at_work : isWork idle new.spec with
        | false => rfl
        | true =>
            have mine := started at_work
            rw [nobody t calls.member] at mine
            cases mine

theorem alone_without (work : Work) (c : State) (alone : Alone setup work c) (id : Nat) :
    Alone setup work ((engine setup).without c id) := by
  constructor
  case base => exact base_without setup c alone.base id
  case down =>
    intro down
    show (engine setup).abortOrphans _ = []
    rw [alone.down down]
    rfl
  case first =>
    intro u hu recovers
    obtain ⟨v, hv, _, same⟩ := mem_without (engine setup) c id u hu
    obtain ⟨blank, nobody⟩ := alone.first v hv (by rw [← same.spec, recovers])
    refine ⟨blank, fun w hw => ?_⟩
    obtain ⟨old, hold, _, same⟩ := mem_without (engine setup) c id w hw
    rw [same.spec]
    exact nobody old hold

theorem absorbed_spec (c : State) (reaction : Reaction World Spec) (u : Running)
    (member : u ∈ ((engine setup).absorb c reaction).threads) :
    (∃ v ∈ c.threads, v.spec = u.spec) ∨ u.spec ∈ reaction.spawned := by
  rcases mem_absorb (engine setup) c reaction u member with ⟨_, v, hv, same⟩ | ⟨new, hnew, same⟩
  · exact Or.inl ⟨v, hv, same.spec.symm⟩
  · obtain ⟨spawned, _⟩ := mem_spawn_from (engine setup) _ _ new hnew
    exact Or.inr (by rw [same.spec]; exact spawned)

theorem alone_aside (work : Work) (c : State) (alone : Alone setup work c)
    (reaction : Reaction World Spec) (base : Base setup ((engine setup).absorb c reaction))
    (up : reaction.state.up = c.state.up) (spawned : reaction.spawned = []) :
    Alone setup work ((engine setup).absorb c reaction) := by
  constructor
  case base => exact base
  case down =>
    intro down
    have none := alone.down (up.symm.trans down)
    refine List.eq_nil_iff_forall_not_mem.mpr fun u hu => ?_
    rcases absorbed_spec setup c reaction u hu with ⟨v, hv, _⟩ | new
    · rw [none] at hv
      cases hv
    · rw [spawned] at new
      cases new
  case first =>
    intro u hu recovers
    rcases absorbed_spec setup c reaction u hu with ⟨v, hv, same⟩ | new
    · obtain ⟨blank, nobody⟩ := alone.first v hv (by rw [same, recovers])
      refine ⟨blank, fun w hw => ?_⟩
      rcases absorbed_spec setup c reaction w hw with ⟨old, hold, same⟩ | new
      · rw [← same]
        exact nobody old hold
      · rw [spawned] at new
        cases new
    · rw [spawned] at new
      cases new

theorem alone_tick (work : Work) (c : State)
    (nobody : ∀ t ∈ c.threads, isRecover t.spec = false) (now : Int)
    (ignoreWindow redriveCleanup : Bool) (fuel : Nat) (up : c.state.up = true)
    (base : Base setup ((engine setup).absorb c
      ⟨c.state, false, [.tick now ignoreWindow redriveCleanup fuel]⟩)) :
    Alone setup work ((engine setup).absorb c
      ⟨c.state, false, [.tick now ignoreWindow redriveCleanup fuel]⟩) := by
  constructor
  case base => exact base
  case down =>
    intro down
    have still : c.state.up = false := down
    rw [up] at still
    cases still
  case first =>
    intro u hu recovers
    rcases absorbed_spec setup c _ u hu with ⟨v, hv, same⟩ | new
    · rw [← same, nobody v hv] at recovers
      cases recovers
    · rw [List.mem_singleton.mp new] at recovers
      cases recovers

theorem alone_absorb (work : Work) (c : State) (alone : Alone setup work c) (event : Event)
    (waits : Waits c (.env event)) (reaction : Reaction World Spec)
    (reacted : react c.state (Machine.live c) event = some reaction) :
    Alone setup (pass event c ((engine setup).absorb c reaction) work)
      ((engine setup).absorb c reaction) := by
  have base := base_absorb setup c alone.base event reaction reacted
  cases event with
  | crash =>
      cases reacted
      constructor
      case base => exact base
      case down => exact fun _ => rfl
      case first => exact fun u hu => by cases hu
  | boot now =>
      simp only [react] at reacted
      split at reacted
      · cases reacted
      · rename_i down
        cases reacted
        have none := alone.down (by simpa using down)
        constructor
        case base => exact base
        case down => exact fun down => by cases down
        case first =>
          refine fun u hu recovers => ⟨rfl, fun w hw => ?_⟩
          rcases absorbed_spec setup c _ w hw with ⟨v, hv, _⟩ | new
          · rw [none] at hv
            cases hv
          · rw [List.mem_singleton.mp new]
            rfl
  | periodic now fuel =>
      simp only [react] at reacted
      split at reacted
      · rename_i may
        simp only [Bool.and_eq_true, Bool.not_eq_true'] at may
        cases reacted
        refine alone_tick setup work c (fun t ht => ?_) now false false fuel may.1 base
        have absent := List.any_eq_false.mp may.2 t.spec (List.mem_map_of_mem ht)
        simpa using absent
      · cases reacted
  | trigger now ignoreWindow fuel =>
      simp only [react] at reacted
      split at reacted
      · rename_i up
        cases reacted
        exact alone_tick setup work c (waits now ignoreWindow fuel rfl) now ignoreWindow true fuel
          up base
      · cases reacted
  | touch path node =>
      cases reacted
      exact alone_aside setup work c alone _ base rfl rfl
  | alter relpath label object =>
      cases reacted
      exact alone_aside setup work c alone _ base rfl rfl
  | setActive active =>
      cases reacted
      exact alone_aside setup work c alone _ base rfl rfl

theorem alone_step (work : Work) (c after : State) (choice : Step) (alone : Alone setup work c)
    (waits : Waits c choice) (stepped : (engine setup).step c choice = some after) :
    Alone setup (working.follow c choice after work) after := by
  rcases step_cases (engine setup) c after choice stepped with
    ⟨t, operation, ret, effect, next, calls, rfl⟩ | ⟨id, rfl, _, rfl⟩ |
    ⟨event, reaction, rfl, reacted, rfl⟩
  · exact alone_settle setup work c alone t operation ret effect next choice calls
  · exact alone_without setup work c alone id
  · exact alone_absorb setup work c alone event waits reaction reacted

/-- In every run in which triggers wait for the recovery, a recovery changes no row that a tick of
its process has claimed or completed, and runs beside no tick and nothing that one has started. -/
theorem recovery_first (work : Work) (c : State)
    (tracked : Tracked (engine setup) working Begins (fun _ => Waits) work c) : First work c := by
  have alone := invariant_of_tracked (engine setup) working Begins (fun _ => Waits) (Alone setup)
    (alone_begins setup)
    (alone_step setup)
    work c tracked
  intro t ht recovers
  obtain ⟨rfl, nobody⟩ := alone.first t ht recovers
  exact ⟨fun _ _ _ _ _ => List.not_mem_nil, nobody⟩

/-! ## Two processes -/

/-- The first process is stopped before the cleanup of its item, and the next one starts. -/
def untilRestarted : List Step :=
  [.env (.boot 0)] ++ go 0 [.asIs, .asIs] ++ [.env (.trigger 0 false 1)] ++
    go 1 [.asIs, .asIs, .found [⟨"a", 0, 0⟩], .asIs, .asIs, .asIs, .asIs,
      .scheduled (.windowed .pauseResume), .asIs, .asIs, .asIs] ++
    go 2 [.asIs, .asIs] ++ go 3 [.asIs, .asIs, .asIs, .asIs, .asIs, .asIs] ++
    go 2 [.number 0, .asIs, .asIs] ++ [.env .crash, .env (.boot 5)]

def untilListed : List Step := untilRestarted ++ go 4 [.asIs]

/-- A trigger's tick cleans up and completes the item first. -/
def untilOvertaken : List Step :=
  untilListed ++ [.env (.trigger 6 false 1)] ++
    go 5 [.asIs, .asIs, .found [], .asIs, .asIs, .asIs, .asIs, .asIs, .asIs] ++
    go 6 [.disk (.asIs 0), .disk (.asIs 0), .asIs] ++ go 5 [.asIs, .asIs]

def waitsAt (c : State) : Step → Bool
  | .env (.trigger _ _ _) => !c.threads.any fun t => isRecover t.spec
  | _ => true

theorem waits_of_check (c : State) (choice : Step) (checked : waitsAt c choice = true) :
    Waits c choice := by
  rintro now ignoreWindow fuel rfl t ht
  have absent := List.any_eq_false.mp (Bool.not_eq_true' _ ▸ checked) t ht
  simpa using absent

/-- A recovery is about to change the state of this row. -/
def writing (relpath : String) (t : Running) : Bool :=
  isRecover t.spec &&
    match t.prog with
    | .call (.store operation) _ => changesState operation = some relpath
    | _ => false

theorem writing_prog (relpath : String) (t : Running) (writes : writing relpath t = true) :
    isRecover t.spec = true ∧ ∃ operation next, t.prog = .call (.store operation) next ∧
      changesState operation = some relpath := by
  rw [writing, Bool.and_eq_true] at writes
  obtain ⟨recovers, writes⟩ := writes
  refine ⟨recovers, ?_⟩
  split at writes
  · rename_i operation next prog
    exact ⟨operation, next, prog, of_decide_eq_true writes⟩
  · cases writes

theorem recovery_first_restarted :
    ∃ work c, Tracked (engine (smallSetup plainCompletion)) working Begins (fun _ => Waits) work c ∧
      c.threads.any (writing "a") = true ∧ First work c := by
  obtain ⟨work, c, tracked, writes⟩ := exists_of_tracked_run (engine (smallSetup plainCompletion))
    working Begins (fun _ => Waits) (fun _ => waitsAt) (fun _ => waits_of_check)
    (fun _ c => c.threads.any (writing "a")) untilListed (smallStart oneFile) (small_begins oneFile)
    (by decide +kernel)
  exact ⟨work, c, tracked, writes, recovery_first (smallSetup plainCompletion) work c tracked⟩

/-- A trigger that does not wait completes an item that the recovery then takes back. -/
theorem recovery_overtaken :
    ∃ work c, Tracked (engine (smallSetup plainCompletion)) working Begins (fun _ _ _ => True) work c ∧
      ¬First work c := by
  obtain ⟨work, c, tracked, found⟩ := exists_of_tracked_run (engine (smallSetup plainCompletion))
    working Begins (fun _ _ _ => True) (fun _ _ _ => true) (fun _ _ _ _ => trivial)
    (fun work c => work.taken.contains "a" && c.threads.any (writing "a")) untilOvertaken
    (smallStart oneFile) (small_begins oneFile) (by decide +kernel)
  refine ⟨work, c, tracked, fun first => ?_⟩
  rw [Bool.and_eq_true] at found
  obtain ⟨t, ht, writes⟩ := List.any_eq_true.mp found.2
  obtain ⟨recovers, operation, next, prog, row⟩ := writing_prog "a" t writes
  exact (first t ht recovers).1 operation next "a" prog row (List.contains_iff_mem.mp found.1)

end FileReplicator.StartupRecovery
