import FileReplicator.Recovery

/-!
# Recovery in an instance

A recovery that is the only one to write to the store, among the actions it
starts and whatever happens outside. What it ensures by itself holds at its end,
and it can always be led to its end.
-/

namespace FileReplicator.RecoveryRuns

open Domain DurableStore Effects FileTree SourceActions Operations Worker Interleaving Instance
open FileReplicator.Sequential Recovery Steps Runs Rows

variable (setup : Setup)

/-! ## The threads -/

inductive Duty where
  | none
  | acting
  | moving
  | ended
  deriving DecidableEq

/-- A thread of the pool works on the file system and then leaves its outcome. -/
def onDuty : Duty → Op → Bool
  | .none, _ => true
  | .acting, .fs _ | .acting, .endAction _ => true
  | .moving, .fs _ | .moving, .endQuarantine => true
  | _, _ => false

def learnDuty : Duty → Op → Duty
  | .acting, .endAction _ => .ended
  | .moving, .endQuarantine => .ended
  | n, _ => n

def pool : Discipline Op Ret Duty where
  allowed n operation := onDuty n operation = true
  possible _ _ := True
  learn n operation _ := learnDuty n operation

def onPool : Spec → Bool
  | .action _ _ | .quarantine _ _ => true
  | _ => false

def duty : Spec → Duty
  | .action _ _ => .acting
  | .quarantine _ _ => .moving
  | _ => .none

def Duty.over : Duty → Bool
  | .none | .ended => true
  | _ => false

def solo : Machine Op Ret World Spec Duty Answer Event :=
  machine setup pool (fun n => n.over = true) duty

abbrev Worker := Thread Op Ret Spec Duty

abbrev Among := Config Op Ret World Spec Duty

def lone (world : World) (now : Int) : Among :=
  ⟨world, [⟨0, .recover now, false, .none, main setup (.recover now)⟩], 1⟩

theorem free_keeps {α : Type} (program : Program α) (post : α → Duty → Prop)
    (holds : ∀ value, post value .none) : Keeps pool program .none post := by
  induction program with
  | done value => exact holds value
  | call operation next ih => exact ⟨rfl, fun ret _ => ih ret⟩

theorem disk_keeps {α : Type} (program : FsProg α) (n : Duty) (busy : n = .acting ∨ n = .moving) :
    Keeps pool (onDisk program) n fun _ after => after = n := by
  induction program with
  | done value => exact rfl
  | call operation next ih =>
      rcases busy with rfl | rfl
      · exact ⟨rfl, fun ret _ => ih ret⟩
      · exact ⟨rfl, fun ret _ => ih ret⟩

theorem main_keeps_pool (spec : Spec) :
    Keeps pool (main setup spec) (duty spec) fun _ after => after.over = true := by
  cases spec with
  | action handle ctx =>
      apply keeps_bind pool
      apply keeps_mono pool _ _ _ _ (disk_keeps _ .acting (Or.inl rfl))
      rintro result _ rfl
      exact ⟨rfl, fun _ _ => rfl⟩
  | quarantine handle job =>
      apply keeps_bind pool
      apply keeps_mono pool _ _ _ _ (disk_keeps _ .moving (Or.inr rfl))
      rintro result _ rfl
      exact ⟨rfl, fun _ _ => rfl⟩
  | _ => exact free_keeps _ _ fun _ => rfl

theorem bind_going {α : Type} (program : Program α) (next : α → Program Unit)
    (going : ∀ value, (next value).isDone = false) : (program >>= next).isDone = false := by
  cases program with
  | done value => exact going value
  | call operation rest => rfl

theorem main_going (spec : Spec) (pooled : onPool spec = true) :
    (main setup spec).isDone = false := by
  cases spec with
  | action handle ctx => exact bind_going _ _ fun _ => rfl
  | quarantine handle job => exact bind_going _ _ fun _ => rfl
  | _ => cases pooled

/-! ## What may happen -/

/-- Nothing else happens in the instance, and no statement of the store is refused. -/
structure Undisturbed (c : Among) (choice : Choice Answer Event) : Prop where
  outside : ∀ event, choice = .env event →
    (∃ path node, event = .touch path node) ∨
      (∃ relpath label object, event = .alter relpath label object) ∨
      ∃ active, event = .setActive active
  granted : ∀ t ∈ c.threads, ∀ text, choice = .run t.id (.refused text) →
    ∀ operation next, t.prog ≠ .call (.store operation) next

abbrev Failures := List (String × String)

def heedVerdict (c : Among) (h : Failures) : Op → Answer → Failures
  | .verify item label expected policy, answer =>
      match verifies setup c.state item label expected policy answer with
      | some (.error _) => (item.relpath, label) :: h
      | _ => h
  | _, _ => h

/-- The destinations that have failed a verification. -/
def verdicts : Chronicle Op Ret World Spec Duty Answer Event Failures :=
  chronicle [] (fun _ operation answer c _ h => heedVerdict setup c h operation answer)
    fun _ _ _ h => h

/-- The recovery of an instance and its pool, and nobody else. -/
structure Lone (c : Among) : Prop where
  distinct : Distinct c
  orderly : Orderly (solo setup) c
  younger : 0 < c.next
  going : ∀ u ∈ c.threads, u.prog.isDone = false
  pooled : ∀ u ∈ c.threads, u.id ≠ 0 →
    onPool u.spec = true ∧ (u.notes = duty u.spec ∨ u.notes = .ended)
  apart : ∀ u ∈ c.threads, u.id = 0 → onPool u.spec = false
  kept : ∀ u ∈ c.threads, u.aborted = false ∧ owner u.spec = Option.none

def Awaited (c : Among) : Waiting → Prop
  | .nothing => True
  | .action handle =>
      (∃ u ∈ c.threads, ∃ ctx, u.spec = .action handle ctx) ∨ c.state.outcomes handle ≠ Option.none
  | .quarantine handle =>
      (∃ u ∈ c.threads, ∃ job, u.spec = .quarantine handle job) ∨ c.state.quarantined handle = true

structure Sees (h : Failures) (c : Among) (s : Seen) : Prop where
  lone : Lone setup c
  store : s.store = c.state.store
  failed : s.failed = h
  awaited : Awaited c s.waiting

theorem learn_duty_cases (n : Duty) (operation : Op) :
    learnDuty n operation = n ∨ learnDuty n operation = .ended := by
  unfold learnDuty
  split
  · exact Or.inr rfl
  · exact Or.inr rfl
  · exact Or.inl rfl

theorem lone_settle (c : Among) (lone : Lone setup c) (t : Worker) (operation : Op)
    (ret : Ret operation) (effect : Effect World Spec) (next : Ret operation → Program Unit)
    (choice : Choice Answer Event)
    (calls : Calls (solo setup) c t operation ret effect next choice)
    (spawned : ∀ spec ∈ effect.spawned, onPool spec = true)
    (spares : ∀ id spec, effect.fate id spec ≠ .aborted) :
    Lone setup ((solo setup).settle c ((solo setup).resumed t operation ret next) effect) := by
  have origin : ∀ u ∈ ((solo setup).settle c ((solo setup).resumed t operation ret next)
      effect).threads,
      (u.id = t.id ∧ u.spec = t.spec ∧ u.notes = learnDuty t.notes operation) ∨
      (∃ before ∈ c.threads, u.id = before.id ∧ u.spec = before.spec ∧ u.notes = before.notes) ∨
      (c.next ≤ u.id ∧ onPool u.spec = true ∧ u.notes = duty u.spec) := by
    intro u hu
    rcases mem_settle (solo setup) c _ u effect hu with ⟨same, _⟩ | ⟨before, hbefore, _, same, _⟩ |
      ⟨new, hnew, same⟩
    · exact Or.inl ⟨same.id, same.spec, same.notes⟩
    · exact Or.inr (Or.inl ⟨before, hbefore, same.id, same.spec, same.notes⟩)
    · obtain ⟨hspec, first, _, _, notes, _⟩ := mem_spawn_from (solo setup) _ _ new hnew
      have here := spawned new.spec hspec
      refine Or.inr (Or.inr ⟨same.id ▸ first, same.spec ▸ here, ?_⟩)
      rw [same.notes, notes, same.spec]
      rfl
  have younger := lone.younger
  have unowned : ∀ u ∈ ((solo setup).settle c ((solo setup).resumed t operation ret next)
      effect).threads, owner u.spec = Option.none := by
    intro u hu
    rcases origin u hu with ⟨_, spec, _⟩ | ⟨before, hbefore, _, spec, _⟩ | ⟨_, here, _⟩
    · rw [spec]
      exact (lone.kept t calls.member).2
    · rw [spec]
      exact (lone.kept before hbefore).2
    · cases spec : u.spec with
      | item owner item now =>
          rw [spec] at here
          cases here
      | attempt owner ctx =>
          rw [spec] at here
          cases here
      | _ => rfl
  constructor
  · exact distinct_settle (solo setup) c _ effect lone.distinct
  · exact orderly_settle (solo setup) c t operation ret effect next choice calls lone.orderly trivial
      fun spec _ => main_keeps_pool setup spec
  · show 0 < c.next + effect.spawned.length
    omega
  · intro u hu
    rcases mem_settle (solo setup) c _ u effect hu with ⟨same, going⟩ | ⟨before, hbefore, _, same, _⟩ |
      ⟨new, hnew, same⟩
    · rw [same.prog]
      exact going
    · rw [same.prog]
      exact lone.going before hbefore
    · obtain ⟨hspec, _, _, _, _, prog⟩ := mem_spawn_from (solo setup) _ _ new hnew
      rw [same.prog, prog]
      exact main_going setup new.spec (spawned new.spec hspec)
  · intro u hu other
    rcases origin u hu with ⟨id, spec, notes⟩ | ⟨before, hbefore, id, spec, notes⟩ | ⟨_, here, notes⟩
    · obtain ⟨pool, duties⟩ := lone.pooled t calls.member (id ▸ other)
      rw [spec, notes]
      refine ⟨pool, ?_⟩
      rcases learn_duty_cases t.notes operation with same | ended
      · rw [same]
        exact duties
      · exact Or.inr ended
    · rw [spec, notes]
      exact lone.pooled before hbefore (id ▸ other)
    · exact ⟨here, Or.inl notes⟩
  · intro u hu zero
    rcases origin u hu with ⟨id, spec, _⟩ | ⟨before, hbefore, id, spec, _⟩ | ⟨first, _, _⟩
    · rw [spec]
      exact lone.apart t calls.member (id ▸ zero)
    · rw [spec]
      exact lone.apart before hbefore (id ▸ zero)
    · omega
  · intro u hu
    refine ⟨?_, unowned u hu⟩
    rcases unowned_settle (solo setup) c _ u effect (fun id spec _ => spares id spec) hu (unowned u hu) with rfl | old | new
    · exact (lone.kept t calls.member).1
    · exact (lone.kept u old).1
    · exact (mem_spawn_from (solo setup) _ _ u new).2.2.2.1

theorem lone_absorb (c : Among) (lone : Lone setup c) (reaction : Reaction World Spec)
    (going : reaction.stops = false) (nobody : reaction.spawned = []) :
    Lone setup ((solo setup).absorb c reaction) := by
  have origin : ∀ u ∈ ((solo setup).absorb c reaction).threads, u ∈ c.threads := by
    intro u hu
    have unowned : owner u.spec = Option.none := by
      rcases mem_absorb (solo setup) c reaction u hu with ⟨_, before, hbefore, same⟩ |
        ⟨new, hnew, _⟩
      · rw [same.spec]
        exact (lone.kept before hbefore).2
      · rw [nobody] at hnew
        cases hnew
    have here := unowned_orphan (solo setup) _ u hu unowned
    simpa [going, nobody, Machine.spawnFrom] using here
  constructor
  · exact distinct_absorb (solo setup) c reaction lone.distinct
  · exact orderly_absorb (solo setup) c reaction lone.orderly fun spec _ => main_keeps_pool setup spec
  · have younger := lone.younger
    show 0 < c.next + reaction.spawned.length
    omega
  · exact fun u hu => lone.going u (origin u hu)
  · exact fun u hu => lone.pooled u (origin u hu)
  · exact fun u hu => lone.apart u (origin u hu)
  · exact fun u hu => lone.kept u (origin u hu)

/-- What its call does to what it sees, and whom it starts. -/
structure Answered (h : Failures) (c : Among) (s : Seen) (operation : Op) (ret : Ret operation)
    (effect : Effect World Spec) (answer : Answer) (after : Seen) : Prop where
  does : Does s operation ret after
  store : after.store = effect.state.store
  failed : after.failed = heedVerdict setup c h operation answer
  spawned : ∀ spec ∈ effect.spawned, onPool spec = true
  spares : ∀ id spec, effect.fate id spec ≠ .aborted
  awaited : after.waiting = .nothing ∨
    (∃ handle ctx, after.waiting = .action handle ∧ .action handle ctx ∈ effect.spawned) ∨
    ∃ handle job, after.waiting = .quarantine handle ∧ .quarantine handle job ∈ effect.spawned

theorem nobody_pooled : ∀ spec ∈ ([] : List Spec), onPool spec = true :=
  fun _ nobody => by cases nobody

theorem answered_statement (h : Failures) (c : Among) (s : Seen) (sees : Sees setup h c s)
    (operation : StoreOp) (ret : Ret (.store operation)) (effect : Effect World Spec)
    (answer : Answer) (idle : s.waiting = .nothing) (granted : ∀ text, answer ≠ .refused text)
    (performed : runStatement c.state operation answer = some (ret, effect)) :
    ∃ after, Answered setup h c s (.store operation) ret effect answer after := by
  cases answer with
  | asIs =>
      cases performed
      rw [← sees.store]
      exact ⟨_, .statement operation, rfl, sees.failed, nobody_pooled, fun _ _ => by simp [changes],
        Or.inl idle⟩
  | refused text => exact absurd rfl (granted text)
  | _ => cases performed

theorem answered_verify (h : Failures) (c : Among) (s : Seen) (sees : Sees setup h c s)
    (item : WorkItem) (label : String) (expected : Delivered) (policy : Verify)
    (ret : Except ReplError Unit) (effect : Effect World Spec) (answer : Answer)
    (idle : s.waiting = .nothing)
    (performed : (verifies setup c.state item label expected policy answer).map
      (fun out => (out, changes c.state)) = some (ret, effect)) :
    ∃ after, Answered setup h c s (.verify item label expected policy) ret effect answer after := by
  obtain ⟨verdict, verified, same⟩ := Option.map_eq_some_iff.mp performed
  cases same
  refine ⟨_, .verified item label expected policy ret, ?_, ?_, nobody_pooled,
    fun _ _ => by simp [changes], ?_⟩
  · cases ret <;> exact sees.store
  · rw [heedVerdict, verified]
    cases ret with
    | ok passed => exact sees.failed
    | error e => exact congrArg _ sees.failed
  · cases ret <;> exact Or.inl idle

theorem answered_call (h : Failures) (c : Among) (t : Worker) (s : Seen) (sees : Sees setup h c s)
    (operation : Op) (ret : Ret operation) (effect : Effect World Spec) (answer : Answer)
    (may : Recovery.may s operation)
    (granted : ∀ text, answer = .refused text → ∀ statement, operation ≠ .store statement)
    (performed : perform setup c.state t (Machine.live c) operation answer = some (ret, effect)) :
    ∃ after, Answered setup h c s operation ret effect answer after := by
  cases operation with
  | store operation =>
      exact answered_statement setup h c s sees operation ret effect answer may
        (fun text same => granted text same operation rfl) performed
  | verify item label expected policy =>
      exact answered_verify setup h c s sees item label expected policy ret effect answer may
        performed
  | draw =>
      cases did_retold setup t _ _ _ _ _ _ performed
      exact ⟨_, .drawn _, sees.store, sees.failed, nobody_pooled,
        fun _ _ => by simp [changes], Or.inl may⟩
  | reportQuarantined relpath =>
      cases did_retold setup t _ _ _ _ _ _ performed
      exact ⟨_, .reported relpath, sees.store, sees.failed, nobody_pooled,
        fun _ _ => by simp [changes], Or.inl may⟩
  | startAction ctx =>
      cases did_retold setup t _ _ _ _ _ _ performed
      refine ⟨_, .startedAction ctx _, sees.store, sees.failed, ?_, fun _ _ => by simp [spawns], ?_⟩
      · intro spec member
        rw [List.mem_singleton.mp member]
        rfl
      · exact Or.inr (Or.inl ⟨_, ctx, rfl, List.mem_singleton_self _⟩)
  | awaitAction handle =>
      have does := Does.awaitedAction (s := s) handle ret
      cases did_retold setup t _ _ _ _ _ _ performed with
      | awaited =>
          exact ⟨_, does, sees.store, sees.failed, nobody_pooled,
            fun _ _ => by simp [changes], Or.inl rfl⟩
      | awaitPanicked =>
          refine ⟨_, does, sees.store, sees.failed, nobody_pooled, ?_, Or.inl rfl⟩
          intro id spec
          show endsAction handle id spec ≠ .aborted
          unfold endsAction
          split <;> simp
  | startQuarantine job =>
      cases did_retold setup t _ _ _ _ _ _ performed
      refine ⟨_, .startedQuarantine job _, sees.store, sees.failed, ?_, fun _ _ => by simp [spawns], ?_⟩
      · intro spec member
        rw [List.mem_singleton.mp member]
        rfl
      · exact Or.inr (Or.inr ⟨_, job, rfl, List.mem_singleton_self _⟩)
  | awaitQuarantine handle =>
      have does := Does.awaitedQuarantine (s := s) handle ret
      cases did_retold setup t _ _ _ _ _ _ performed with
      | awaitedQuarantine =>
          exact ⟨_, does, sees.store, sees.failed, nobody_pooled,
            fun _ _ => by simp [changes], Or.inl rfl⟩
      | quarantinePanicked =>
          refine ⟨_, does, sees.store, sees.failed, nobody_pooled, ?_, Or.inl rfl⟩
          intro id spec
          show endsQuarantine handle id spec ≠ .aborted
          unfold endsQuarantine
          split <;> simp
  | _ => exact may.elim

theorem sees_own (h : Failures) (c : Among) (t : Worker) (operation : Op) (ret : Ret operation)
    (effect : Effect World Spec) (next : Ret operation → Program Unit) (choice : Choice Answer Event)
    (s : Seen) (undisturbed : Undisturbed c choice)
    (calls : Calls (solo setup) c t operation ret effect next choice) (sees : Sees setup h c s)
    (may : Recovery.may s operation) :
    ∃ after, Does s operation ret after ∧
      Sees setup ((verdicts setup).follow c choice
        ((solo setup).settle c ((solo setup).resumed t operation ret next) effect) h)
        ((solo setup).settle c ((solo setup).resumed t operation ret next) effect) after := by
  obtain ⟨answer, rfl, performed⟩ := calls.choice
  obtain ⟨after, answered⟩ := answered_call setup h c t s sees operation ret effect answer may
    (by
      rintro text rfl statement rfl
      exact undisturbed.granted t calls.member text rfl statement next calls.prog) performed
  refine ⟨after, answered.does, ?_, answered.store, ?_, ?_⟩
  · exact lone_settle setup c sees.lone t operation ret effect next _ calls answered.spawned
      answered.spares
  · rw [verdicts, follow_call _ _ _ c _ sees.lone.distinct t calls.member operation next calls.prog]
    exact answered.failed
  · have started : ∀ spec ∈ effect.spawned, ∃ u ∈ ((solo setup).settle c
        ((solo setup).resumed t operation ret next) effect).threads, u.spec = spec := by
      intro spec member
      obtain ⟨new, hnew, same⟩ := spawned_of_mem (solo setup) c.next effect.spawned spec member
      obtain ⟨u, hu, kept⟩ := spawned_stays (solo setup) c
        ((solo setup).resumed t operation ret next) new effect hnew
      exact ⟨u, hu, kept.spec.trans same⟩
    rcases answered.awaited with nothing | ⟨handle, ctx, waiting, member⟩ |
      ⟨handle, job, waiting, member⟩
    · rw [nothing]
      trivial
    · rw [waiting]
      obtain ⟨u, hu, spec⟩ := started _ member
      exact Or.inl ⟨u, hu, ctx, spec⟩
    · rw [waiting]
      obtain ⟨u, hu, spec⟩ := started _ member
      exact Or.inl ⟨u, hu, job, spec⟩

/-! ## What others do to it -/

/-- A call of the pool: it changes files or leaves an outcome. -/
structure PoolCall (c : Among) (t : Worker) (operation : Op) (effect : Effect World Spec) : Prop where
  store : effect.state.store = c.state.store
  outcomes : ∀ handle, c.state.outcomes handle ≠ Option.none →
    effect.state.outcomes handle ≠ Option.none
  quarantined : ∀ handle, c.state.quarantined handle = true → effect.state.quarantined handle = true
  spawned : effect.spawned = []
  stays : ∀ id spec, effect.fate id spec = .stays
  left : (∀ n, learnDuty n operation = n) ∨
    (∀ handle ctx, t.spec = .action handle ctx → effect.state.outcomes handle ≠ Option.none) ∧
      ∀ handle job, t.spec = .quarantine handle job → effect.state.quarantined handle = true
  silent : ∀ item label expected policy, operation ≠ .verify item label expected policy

theorem duty_cases (n : Duty) (operation : Op) (busy : n ≠ .none)
    (duty : onDuty n operation = true) :
    (n = .acting ∨ n = .moving) ∧
      ((∃ disk, operation = .fs disk) ∨ (∃ result, operation = .endAction result) ∨
        operation = .endQuarantine) := by
  unfold onDuty at duty
  split at duty
  · exact absurd rfl busy
  · exact ⟨Or.inl rfl, Or.inl ⟨_, rfl⟩⟩
  · exact ⟨Or.inl rfl, Or.inr (Or.inl ⟨_, rfl⟩)⟩
  · exact ⟨Or.inr rfl, Or.inl ⟨_, rfl⟩⟩
  · exact ⟨Or.inr rfl, Or.inr (Or.inr rfl)⟩
  · cases duty

theorem pool_call (c : Among) (t : Worker) (operation : Op) (ret : Ret operation)
    (effect : Effect World Spec) (answer : Answer) (busy : t.notes ≠ .none)
    (duty : onDuty t.notes operation = true)
    (performed : perform setup c.state t (Machine.live c) operation answer = some (ret, effect)) :
    PoolCall c t operation effect := by
  rcases (duty_cases t.notes operation busy duty).2 with ⟨disk, rfl⟩ | ⟨result, rfl⟩ | rfl
  · cases did_retold setup t _ _ _ _ _ _ performed
    exact ⟨rfl, fun _ was => was, fun _ was => was, rfl, fun _ _ => rfl,
      Or.inl fun n => by cases n <;> rfl, fun _ _ _ _ => Op.noConfusion⟩
  · cases did_retold setup t _ _ _ _ _ _ performed with
    | endedAction handle ctx spec =>
        change t.spec = _ at spec
        refine ⟨rfl, fun other was => ?_, fun _ was => was, rfl, fun _ _ => rfl,
          Or.inr ⟨fun other ctx' here => ?_, fun other job here => ?_⟩, fun _ _ _ _ => Op.noConfusion⟩
        · show (if other = handle then some result else c.state.outcomes other) ≠ Option.none
          split
          · exact Option.some_ne_none result
          · exact was
        · rw [spec] at here
          cases here
          show (if handle = handle then some result else _) ≠ Option.none
          rw [if_pos rfl]
          exact Option.some_ne_none result
        · rw [spec] at here
          cases here
  · cases did_retold setup t _ _ _ _ _ _ performed with
    | endedQuarantine handle job spec =>
        change t.spec = _ at spec
        refine ⟨rfl, fun _ was => was, fun other was => ?_, rfl, fun _ _ => rfl,
          Or.inr ⟨fun other ctx here => ?_, fun other job' here => ?_⟩, fun _ _ _ _ => Op.noConfusion⟩
        · show (if other = handle then true else c.state.quarantined other) = true
          split
          · rfl
          · exact was
        · rw [spec] at here
          cases here
        · rw [spec] at here
          cases here
          show (if handle = handle then true else _) = true
          rw [if_pos rfl]

theorem pooled_busy (c : Among) (lone : Lone setup c) (t : Worker) (member : t ∈ c.threads)
    (other : t.id ≠ 0) : t.notes ≠ .none := by
  obtain ⟨pooled, duties⟩ := lone.pooled t member other
  rcases duties with same | ended
  · rw [same]
    cases spec : t.spec with
    | action handle ctx => exact Duty.noConfusion
    | quarantine handle job => exact Duty.noConfusion
    | _ =>
        rw [spec] at pooled
        cases pooled
  · rw [ended]
    exact Duty.noConfusion

theorem left_at_end (c : Among) (lone : Lone setup c) (t : Worker) (operation : Op)
    (ret : Ret operation) (effect : Effect World Spec) (next : Ret operation → Program Unit)
    (choice : Choice Answer Event)
    (calls : Calls (solo setup) c t operation ret effect next choice)
    (working : t.notes = .acting ∨ t.notes = .moving) (pool : PoolCall c t operation effect)
    (ended : (next ret).isDone = true) :
    (∀ handle ctx, t.spec = .action handle ctx → effect.state.outcomes handle ≠ Option.none) ∧
      ∀ handle job, t.spec = .quarantine handle job → effect.state.quarantined handle = true := by
  apply pool.left.resolve_left
  intro same
  have keeps := calls_keep (solo setup) c t operation ret effect next _ calls lone.orderly
  have last := keeps.2 ret trivial
  cases program : next ret with
  | call operation' next' =>
      rw [program] at ended
      cases ended
  | done value =>
      rw [program] at last
      change (learnDuty t.notes operation).over = true at last
      rw [same] at last
      rcases working with acting | moving
      · rw [acting] at last
        cases last
      · rw [moving] at last
        cases last

/-- Whoever was there is there after a call of the pool, or has left its outcome. -/
theorem awaited_settle (c : Among) (lone : Lone setup c) (t : Worker) (operation : Op)
    (ret : Ret operation) (effect : Effect World Spec) (next : Ret operation → Program Unit)
    (choice : Choice Answer Event)
    (calls : Calls (solo setup) c t operation ret effect next choice)
    (working : t.notes = .acting ∨ t.notes = .moving) (pool : PoolCall c t operation effect)
    (waiting : Waiting) (awaited : Awaited c waiting) :
    Awaited ((solo setup).settle c ((solo setup).resumed t operation ret next) effect) waiting := by
  have remains : ∀ u ∈ c.threads, (∃ v ∈ ((solo setup).settle c
      ((solo setup).resumed t operation ret next) effect).threads, v.spec = u.spec) ∨
      (u = t ∧ (next ret).isDone = true) := by
    intro u hu
    by_cases same : u.id = t.id
    · obtain rfl := eq_of_same_id c lone.distinct u t hu calls.member same
      cases ended : (next ret).isDone with
      | true => exact Or.inr ⟨rfl, rfl⟩
      | false =>
          obtain ⟨v, hv, kept⟩ := caller_stays (solo setup) c u hu operation ret next effect ended
          exact Or.inl ⟨v, hv, kept.spec⟩
    · have stays : effect.fate u.id u.spec ≠ .gone := by
        rw [pool.stays]
        exact Fate.noConfusion
      obtain ⟨v, hv, kept⟩ := other_stays (solo setup) c
        ((solo setup).resumed t operation ret next) u hu same effect stays
      exact Or.inl ⟨v, hv, kept.spec⟩
  have left := left_at_end setup c lone t operation ret effect next choice calls working pool
  cases waiting with
  | nothing => trivial
  | action handle =>
      rcases awaited with ⟨u, hu, ctx, spec⟩ | there
      · rcases remains u hu with ⟨v, hv, same⟩ | ⟨rfl, ended⟩
        · exact Or.inl ⟨v, hv, ctx, same.trans spec⟩
        · exact Or.inr ((left ended).1 handle ctx spec)
      · exact Or.inr (pool.outcomes handle there)
  | quarantine handle =>
      rcases awaited with ⟨u, hu, job, spec⟩ | there
      · rcases remains u hu with ⟨v, hv, same⟩ | ⟨rfl, ended⟩
        · exact Or.inl ⟨v, hv, job, same.trans spec⟩
        · exact Or.inr ((left ended).2 handle job spec)
      · exact Or.inr (pool.quarantined handle there)

theorem sees_pool (h : Failures) (c : Among) (s : Seen) (sees : Sees setup h c s) (t : Worker)
    (operation : Op) (ret : Ret operation) (effect : Effect World Spec)
    (next : Ret operation → Program Unit) (choice : Choice Answer Event)
    (calls : Calls (solo setup) c t operation ret effect next choice) (other : t.id ≠ 0) :
    Sees setup ((verdicts setup).follow c choice
        ((solo setup).settle c ((solo setup).resumed t operation ret next) effect) h)
      ((solo setup).settle c ((solo setup).resumed t operation ret next) effect) s ∧
    ∀ u ∈ c.threads, u.id = 0 → ∃ v ∈ ((solo setup).settle c
      ((solo setup).resumed t operation ret next) effect).threads, SameThread u v := by
  have may : onDuty t.notes operation = true :=
    calls_allowed (solo setup) c t operation ret effect next choice calls sees.lone.orderly
  have busy := pooled_busy setup c sees.lone t calls.member other
  obtain ⟨working, _⟩ := duty_cases t.notes operation busy may
  obtain ⟨answer, rfl, performed⟩ := calls.choice
  have pool := pool_call setup c t operation ret effect answer busy may performed
  constructor
  · constructor
    · apply lone_settle setup c sees.lone t operation ret effect next _ calls
      · rw [pool.spawned]
        exact nobody_pooled
      · intro id spec
        rw [pool.stays]
        exact Fate.noConfusion
    · exact sees.store.trans pool.store.symm
    · rw [verdicts, follow_call _ _ _ c _ sees.lone.distinct t calls.member operation next calls.prog]
      cases operation with
      | verify item label expected policy => exact absurd rfl (pool.silent _ _ _ _)
      | _ => exact sees.failed
    · exact awaited_settle setup c sees.lone t operation ret effect next _ calls working pool
        s.waiting sees.awaited
  · intro u hu zero
    apply other_stays (solo setup) c ((solo setup).resumed t operation ret next) u hu _ effect
    · rw [pool.stays]
      exact Fate.noConfusion
    · rw [zero]
      exact fun same => other same.symm

theorem sees_outside (h : Failures) (c : Among) (s : Seen) (sees : Sees setup h c s) (event : Event)
    (reaction : Reaction World Spec) (undisturbed : Undisturbed c (.env event))
    (reacted : react c.state (Machine.live c) event = some reaction) :
    Sees setup h ((solo setup).absorb c reaction) s ∧
    ∀ u ∈ c.threads, u.id = 0 → ∃ v ∈ ((solo setup).absorb c reaction).threads, SameThread u v := by
  have aside : reaction.stops = false ∧ reaction.spawned = [] ∧
      reaction.state.store = c.state.store ∧ reaction.state.outcomes = c.state.outcomes ∧
      reaction.state.quarantined = c.state.quarantined := by
    rcases undisturbed.outside event rfl with ⟨path, node, rfl⟩ | ⟨relpath, label, object, rfl⟩ |
      ⟨active, rfl⟩
    · cases reacted
      exact ⟨rfl, rfl, rfl, rfl, rfl⟩
    · cases reacted
      exact ⟨rfl, rfl, rfl, rfl, rfl⟩
    · cases reacted
      exact ⟨rfl, rfl, rfl, rfl, rfl⟩
  obtain ⟨going, nobody, store, outcomes, quarantined⟩ := aside
  have stays := absorbed_stays (solo setup) c reaction going
  refine ⟨⟨lone_absorb setup c sees.lone reaction going nobody, sees.store.trans store.symm,
    sees.failed, ?_⟩, fun u hu _ => stays u hu⟩
  have awaited := sees.awaited
  cases waiting : s.waiting with
  | nothing => trivial
  | action handle =>
      rw [waiting] at awaited
      rcases awaited with ⟨u, hu, ctx, spec⟩ | there
      · obtain ⟨v, hv, same⟩ := stays u hu
        exact Or.inl ⟨v, hv, ctx, same.spec.trans spec⟩
      · exact Or.inr (outcomes ▸ there)
  | quarantine handle =>
      rw [waiting] at awaited
      rcases awaited with ⟨u, hu, job, spec⟩ | there
      · obtain ⟨v, hv, same⟩ := stays u hu
        exact Or.inl ⟨v, hv, job, same.spec.trans spec⟩
      · exact Or.inr (quarantined ▸ there)

theorem solo_recovery :
    Solo undisturbed (solo setup) (verdicts setup) (fun _ => Undisturbed) 0 (Sees setup) := by
  constructor
  · intro h c t operation ret effect next choice s met calls _ sees may
    exact sees_own setup h c t operation ret effect next choice s met calls sees may
  · intro h c after choice s met stepped foreign sees
    rcases step_cases (solo setup) c after choice stepped with
      ⟨t, operation, ret, effect, next, calls, rfl⟩ | ⟨id, _, ⟨t, ht, _, aborted⟩, _⟩ |
      ⟨event, reaction, rfl, reacted, rfl⟩
    · obtain ⟨answer, runs, _⟩ := calls.choice
      apply sees_pool setup h c s sees t operation ret effect next choice calls
      intro zero
      rw [zero] at runs
      exact foreign answer runs
    · rw [(sees.lone.kept t ht).1] at aborted
      cases aborted
    · exact sees_outside setup h c s sees event reaction met reacted

/-! ## It can be led to its end -/

inductive Leads (c : Among) : Among → Prop where
  | here : Leads c c
  | call (middle after : Among) (id : Nat) (answer : Answer) (leads : Leads c middle)
      (granted : ∀ text, answer ≠ .refused text)
      (stepped : (solo setup).step middle (.run id answer) = some after) : Leads c after

theorem leads_trans (c middle after : Among) (first : Leads setup c middle)
    (second : Leads setup middle after) : Leads setup c after := by
  induction second with
  | here => exact first
  | call before last id answer _ granted stepped ih =>
      exact .call before last id answer ih granted stepped

theorem step_of_perform (c : Among) (distinct : Distinct c) (t : Worker) (member : t ∈ c.threads)
    (operation : Op) (next : Ret operation → Program Unit) (prog : t.prog = .call operation next)
    (answer : Answer) (out : Ret operation × Effect World Spec)
    (performed : perform setup c.state t (Machine.live c) operation answer = some out) :
    (solo setup).step c (.run t.id answer) =
        some ((solo setup).settle c ((solo setup).resumed t operation out.1 next) out.2) ∧
      Calls (solo setup) c t operation out.1 out.2 next (.run t.id answer) := by
  constructor
  · simp only [Machine.step, find_thread c distinct t member, prog]
    rw [show (solo setup).perform t (Machine.live c) c.state operation answer = some out from performed]
    rfl
  · exact ⟨member, prog, answer, rfl, performed⟩

theorem pool_answered (c : Among) (lone : Lone setup c) (t : Worker) (member : t ∈ c.threads)
    (other : t.id ≠ 0) (operation : Op) (next : Ret operation → Program Unit)
    (prog : t.prog = .call operation next) :
    ∃ answer out, (∀ text, answer ≠ .refused text) ∧
      perform setup c.state t (Machine.live c) operation answer = some out := by
  have keeps := lone.orderly t member
  rw [prog] at keeps
  have may : onDuty t.notes operation = true := keeps.1
  obtain ⟨pooled, duties⟩ := lone.pooled t member other
  have busy := pooled_busy setup c lone t member other
  obtain ⟨working, calls⟩ := duty_cases t.notes operation busy may
  have mine : t.notes = duty t.spec := by
    rcases duties with same | ended
    · exact same
    · rw [ended] at working
      rcases working with wrong | wrong <;> cases wrong
  rw [mine] at may
  rcases calls with ⟨disk, rfl⟩ | ⟨result, rfl⟩ | rfl
  · exact ⟨.disk (.asIs 0), _, fun _ => Answer.noConfusion, rfl⟩
  · cases spec : t.spec with
    | action handle ctx =>
        refine ⟨.asIs, ((), changes { c.state with
          outcomes := fun h => if h = handle then some result else c.state.outcomes h }),
          fun _ => Answer.noConfusion, ?_⟩
        simp only [perform, spec]
    | quarantine handle job =>
        rw [spec] at may
        cases may
    | _ =>
        rw [spec] at pooled
        cases pooled
  · cases spec : t.spec with
    | action handle ctx =>
        rw [spec] at may
        cases may
    | quarantine handle job =>
        refine ⟨.asIs, ((), changes { c.state with
          quarantined := fun h => if h = handle then true else c.state.quarantined h }),
          fun _ => Answer.noConfusion, ?_⟩
        simp only [perform, spec]
    | _ =>
        rw [spec] at pooled
        cases pooled

/-- The outcome of a thread of the pool is there. -/
def Left (c : Among) (spec : Spec) : Prop :=
  (∀ handle ctx, spec = .action handle ctx → c.state.outcomes handle ≠ Option.none) ∧
    ∀ handle job, spec = .quarantine handle job → c.state.quarantined handle = true

/-- A thread of the pool can be led to its end, and the recovery has seen nothing of it. -/
theorem pool_ends (h : Failures) (s : Seen) (program : Program Unit) (c : Among)
    (sees : Sees setup h c s) (t : Worker) (member : t ∈ c.threads) (other : t.id ≠ 0)
    (prog : t.prog = program) (main : Worker) (present : main ∈ c.threads) (zero : main.id = 0) :
    ∃ after h', Leads setup c after ∧ Sees setup h' after s ∧ Left after t.spec ∧
      ∃ v ∈ after.threads, SameThread main v := by
  induction program generalizing c t main with
  | done value =>
      have going := sees.lone.going t member
      rw [prog] at going
      cases going
  | call operation next ih =>
      obtain ⟨answer, out, granted, performed⟩ :=
        pool_answered setup c sees.lone t member other operation next prog
      obtain ⟨stepped, calls⟩ := step_of_perform setup c sees.lone.distinct t member operation next
        prog answer out performed
      obtain ⟨sees_later, stays⟩ := sees_pool setup h c s sees t operation out.1 out.2 next _ calls
        other
      obtain ⟨main', present', same⟩ := stays main present zero
      have leads : Leads setup c ((solo setup).settle c
          ((solo setup).resumed t operation out.1 next) out.2) :=
        .call c _ t.id answer .here granted stepped
      have may : onDuty t.notes operation = true :=
        calls_allowed (solo setup) c t operation out.1 out.2 next _ calls sees.lone.orderly
      have busy := pooled_busy setup c sees.lone t member other
      have pool := pool_call setup c t operation out.1 out.2 answer busy may performed
      have quiet : (verdicts setup).follow c (.run t.id answer) ((solo setup).settle c
          ((solo setup).resumed t operation out.1 next) out.2) h = h := by
        rw [verdicts, follow_call _ _ _ c _ sees.lone.distinct t member operation next prog]
        cases operation with
        | verify item label expected policy => exact absurd rfl (pool.silent _ _ _ _)
        | _ => rfl
      cases ended : (next out.1).isDone with
      | true =>
          have left := left_at_end setup c sees.lone t operation out.1 out.2 next _ calls
            (duty_cases t.notes operation busy may).1 pool ended
          exact ⟨_, _, leads, sees_later, left, main', present', same⟩
      | false =>
          obtain ⟨v, hv, kept⟩ := caller_stays (solo setup) c t member operation out.1 next out.2 ended
          rw [quiet] at sees_later
          obtain ⟨after, h', more, sees_after, left, u, hu, also⟩ := ih out.1 _ sees_later v hv
            (by rw [kept.id]; exact other) kept.prog main' present' (same.id.trans zero)
          refine ⟨after, h', leads_trans setup _ _ _ leads more, sees_after, ?_, u, hu,
            also.id.trans same.id, also.spec.trans same.spec, also.notes.trans same.notes,
            also.prog.trans same.prog, fun was => also.aborted (same.aborted was)⟩
          rw [kept.spec] at left
          exact left

/-- The next call of the recovery is answered, once what it awaits has left its outcome. -/
theorem main_answered (c : Among) (s : Seen) (t : Worker) (operation : Op)
    (may : Recovery.may s operation)
    (left : (∀ handle, s.waiting = .action handle → c.state.outcomes handle ≠ Option.none) ∧
      ∀ handle, s.waiting = .quarantine handle → c.state.quarantined handle = true) :
    ∃ answer out, (∀ text, answer ≠ .refused text) ∧
      perform setup c.state t (Machine.live c) operation answer = some out := by
  cases operation with
  | store operation => exact ⟨.asIs, _, fun _ => Answer.noConfusion, rfl⟩
  | verify item label expected policy => exact ⟨.asIs, _, fun _ => Answer.noConfusion, rfl⟩
  | draw => exact ⟨.number 0, _, fun _ => Answer.noConfusion, rfl⟩
  | reportQuarantined relpath => exact ⟨.asIs, _, fun _ => Answer.noConfusion, rfl⟩
  | startAction ctx => exact ⟨.asIs, _, fun _ => Answer.noConfusion, rfl⟩
  | startQuarantine job => exact ⟨.asIs, _, fun _ => Answer.noConfusion, rfl⟩
  | awaitAction handle =>
      obtain ⟨result, ended⟩ := Option.ne_none_iff_exists'.mp (left.1 handle may)
      refine ⟨.asIs, (.ok result, changes c.state), fun _ => Answer.noConfusion, ?_⟩
      simp only [perform, awaitOutcome, ended, Option.map_some]
  | awaitQuarantine handle =>
      refine ⟨.asIs, (.ok (), changes c.state), fun _ => Answer.noConfusion, ?_⟩
      simp only [perform, awaitQuarantined, left.2 handle may, if_true]
  | _ => exact may.elim

theorem awaited_ends (h : Failures) (c : Among) (s : Seen) (sees : Sees setup h c s) (t : Worker)
    (member : t ∈ c.threads) (zero : t.id = 0) :
    ∃ after h', Leads setup c after ∧ Sees setup h' after s ∧
      ((∀ handle, s.waiting = .action handle → after.state.outcomes handle ≠ Option.none) ∧
        ∀ handle, s.waiting = .quarantine handle → after.state.quarantined handle = true) ∧
      ∃ v ∈ after.threads, SameThread t v := by
  have awaited := sees.awaited
  have pooled : ∀ u ∈ c.threads, onPool u.spec = true → u.id ≠ 0 := by
    intro u hu pool same
    rw [sees.lone.apart u hu same] at pool
    cases pool
  cases waiting : s.waiting with
  | nothing => exact ⟨c, h, .here, sees, ⟨fun _ => Waiting.noConfusion, fun _ => Waiting.noConfusion⟩,
      t, member, same_thread_refl t⟩
  | action handle =>
      rw [waiting] at awaited
      rcases awaited with ⟨u, hu, ctx, spec⟩ | there
      · have other : u.id ≠ 0 := pooled u hu (by rw [spec]; rfl)
        obtain ⟨after, h', leads, sees', left, stays⟩ :=
          pool_ends setup h s u.prog c sees u hu other rfl t member zero
        refine ⟨after, h', leads, sees', ⟨fun other same => ?_, fun _ => Waiting.noConfusion⟩, stays⟩
        cases same
        exact left.1 handle ctx spec
      · refine ⟨c, h, .here, sees, ⟨fun other same => ?_, fun _ => Waiting.noConfusion⟩, t, member,
          same_thread_refl t⟩
        cases same
        exact there
  | quarantine handle =>
      rw [waiting] at awaited
      rcases awaited with ⟨u, hu, job, spec⟩ | there
      · have other : u.id ≠ 0 := pooled u hu (by rw [spec]; rfl)
        obtain ⟨after, h', leads, sees', left, stays⟩ :=
          pool_ends setup h s u.prog c sees u hu other rfl t member zero
        refine ⟨after, h', leads, sees', ⟨fun _ => Waiting.noConfusion, fun other same => ?_⟩, stays⟩
        cases same
        exact left.2 handle job spec
      · refine ⟨c, h, .here, sees, ⟨fun _ => Waiting.noConfusion, fun other same => ?_⟩, t, member,
          same_thread_refl t⟩
        cases same
        exact there

theorem undisturbed_of_granted (c : Among) (id : Nat) (answer : Answer)
    (granted : ∀ text, answer ≠ .refused text) : Undisturbed c (.run id answer) := by
  constructor
  · intro event outside
    cases outside
  · intro t _ text refused
    exact absurd (Choice.run.inj refused).2 (granted text)

theorem main_ends (post : Seen → Prop) (program : Program Unit) (h : Failures) (c : Among) (s : Seen)
    (sees : Sees setup h c s) (t : Worker) (member : t ∈ c.threads) (zero : t.id = 0)
    (prog : t.prog = program)
    (ensures : Ensures undisturbed program s fun _ after => post after) :
    ∃ after, Leads setup c after ∧ ∀ v ∈ after.threads, v.id ≠ 0 := by
  induction program generalizing h c s t with
  | done value =>
      have going := sees.lone.going t member
      rw [prog] at going
      cases going
  | call operation next ih =>
      obtain ⟨middle, h', first, sees', left, u, hu, same⟩ :=
        awaited_ends setup h c s sees t member zero
      obtain ⟨answer, out, granted, performed⟩ :=
        main_answered setup middle s u operation ensures.1 left
      obtain ⟨stepped, calls⟩ := step_of_perform setup middle sees'.lone.distinct u hu operation next
        (same.prog.trans prog) answer out performed
      have calm := undisturbed_of_granted middle u.id answer granted
      obtain ⟨later, does, sees_later⟩ := sees_own setup h' middle u operation out.1 out.2 next _ s calm
        calls sees' ensures.1
      have leads := leads_trans setup c middle _ first
        (.call middle _ u.id answer .here granted stepped)
      have zero' : u.id = 0 := same.id.trans zero
      cases ended : (next out.1).isDone with
      | true =>
          refine ⟨_, leads, fun v hv => ?_⟩
          rcases mem_settle (solo setup) middle _ v out.2 hv with ⟨_, going⟩ |
            ⟨before, _, other, kept, _⟩ | ⟨new, hnew, kept⟩
          · rw [show ((solo setup).resumed u operation out.1 next).prog = next out.1 from rfl,
              ended] at going
            cases going
          · rw [kept.id, ← zero']
            exact other
          · have young := (mem_spawn_from (solo setup) _ _ new hnew).2.1
            have older := sees'.lone.younger
            rw [kept.id]
            omega
      | false =>
          obtain ⟨v, hv, kept⟩ :=
            caller_stays (solo setup) middle u hu operation out.1 next out.2 ended
          obtain ⟨after, more, gone⟩ := ih out.1 _ _ later sees_later v hv (kept.id.trans zero')
            kept.prog (ensures.2 out.1 later does)
          exact ⟨after, leads_trans setup _ _ _ leads more, gone⟩

/-! ## What it restores -/

/-- No row is in a state that only recovery leads on. -/
def Settled (store : Store) : Prop :=
  ∀ r row, store.items r = some row → interrupted row.state = false

/-- The store after a recovery, and the destinations that failed in it. -/
structure Restored (before after : Store) (failures : Failures) : Prop where
  settled : Settled after
  moved : ∀ r row, before.items r = some row → ∃ later, after.items r = some later ∧
    Settles setup (∃ label, (r, label) ∈ failures) row.state later.state
  others : ∀ r, (∀ row, before.items r = some row → interrupted row.state = false) →
    after.items r = before.items r

theorem restored_of_recovered (before : Store) (s : Seen) (recovered : Recovered setup before s) :
    Restored setup before s.store s.failed := by
  refine ⟨fun r row here => ?_, recovered.moved, recovered.others⟩
  cases found : before.items r with
  | none =>
      have same := recovered.others r fun row some => by rw [found] at some; cases some
      rw [here, found] at same
      cases same
  | some first =>
      obtain ⟨later, there, settles⟩ := recovered.moved r first found
      rw [here] at there
      cases there
      exact settles_uninterrupted setup _ _ _ settles

theorem lone_start (world : World) (now : Int) : Lone setup (lone setup world now) := by
  have only : ∀ u ∈ (lone setup world now).threads,
      u = ⟨0, .recover now, false, .none, main setup (.recover now)⟩ := by
    intro u hu
    exact List.mem_singleton.mp hu
  constructor
  · constructor
    · intro u hu
      rw [only u hu]
      exact Nat.zero_lt_one
    · exact List.nodup_singleton 0
  · intro u hu
    rw [only u hu]
    exact main_keeps_pool setup (.recover now)
  · exact Nat.zero_lt_one
  · intro u hu
    rw [only u hu]
    rfl
  · intro u hu other
    rw [only u hu] at other
    exact absurd rfl other
  · intro u hu _
    rw [only u hu]
    rfl
  · intro u hu
    rw [only u hu]
    exact ⟨rfl, rfl⟩

/-- The runs of a recovery alone in an instance. -/
abbrev Recovering (world : World) (now : Int) : Failures → Among → Prop :=
  Tracked (solo setup) (verdicts setup) (fun c => c = lone setup world now) fun _ => Undisturbed

def Over (before : Store) (s : Seen) : Prop := Recovered setup before s ∧ Table s.store

theorem recovery_ensured (world : World) (table : Table world.store) (now : Int) (h : Failures)
    (c : Among) (recovering : Recovering setup world now h c) :
    Ensured undisturbed 0 (Sees setup) (Over setup world.store) h c := by
  apply invariant_of_tracked (solo setup) (verdicts setup) _ _ _ ?_ ?_ h c recovering
  · rintro c rfl
    refine Or.inl ⟨_, List.mem_singleton_self _, rfl, ⟨world.store, [], .nothing⟩, ?_, ?_⟩
    · exact ⟨lone_start setup world now, rfl, rfl, trivial⟩
    · apply ensures_best_effort
      apply succeeds_mono undisturbed _ _ _ _
        (recover_succeeds setup now ⟨world.store, [], .nothing⟩ table rfl rfl)
      rintro _ after ⟨recovered, later, _⟩
      exact ⟨recovered, later⟩
  · intro h c after choice ensured met stepped
    have lone : Lone setup c := by
      rcases ensured with ⟨_, _, _, s, sees, _⟩ | ⟨_, s, sees, _⟩
      · exact sees.lone
      · exact sees.lone
    exact ensured_step undisturbed 0 (Sees setup) (solo_recovery setup) _ h c after choice
      lone.distinct lone.younger met stepped ensured

/-! ## A second recovery -/

theorem nothing_incomplete (store : Store) (settled : Settled store) :
    store.recoverIncomplete = [] := by
  apply List.eq_nil_iff_forall_not_mem.mpr
  intro it member
  obtain ⟨wanted, row, found, same⟩ := store.mem_select _ it member
  have state : it.state = row.state := by rw [same]; rfl
  have calm := settled it.relpath row found
  rw [state] at wanted
  simp only [Bool.or_eq_true, decide_eq_true_eq] at wanted
  rcases wanted with (busy | busy) | busy
  · rw [busy] at calm
    cases calm
  · rw [busy] at calm
    cases calm
  · rw [busy] at calm
    cases calm

theorem nothing_exhausted (store : Store) (settled : Settled store) :
    store.listByState .exhausted = [] := by
  apply List.eq_nil_iff_forall_not_mem.mpr
  intro it member
  obtain ⟨row, found, state, _⟩ := store.mem_list_by_state .exhausted it member
  have calm := settled it.relpath row found
  rw [state] at calm
  cases calm

/-- A recovery that found no row of its first list. -/
def emptyHanded (now : Int) : Program Unit :=
  bestEffort (listByState .exhausted >>= fun left => exhaustEach setup now left)

theorem recover_opens (now : Int) :
    ∃ next, main setup (.recover now) = .call (.store .recoverIncomplete) next ∧
      next (.ok []) = emptyHanded setup now :=
  ⟨_, rfl, rfl⟩

theorem empty_handed_opens (now : Int) :
    ∃ next, emptyHanded setup now = .call (.store (.listByState .exhausted)) next ∧
      next (.ok []) = .done () :=
  ⟨_, rfl, rfl⟩

/-- Calls that are answered, and nothing from outside. -/
def Answers (_ : Among) (choice : Choice Answer Event) : Prop :=
  ∃ id answer, choice = .run id answer ∧ ∀ text, answer ≠ .refused text

theorem second_recovery (world : World) (settled : Settled world.store) (now : Int) (c : Among)
    (reached : Reached (solo setup) (fun c => c = lone setup world now) Answers c) :
    c.state = world ∧ ∀ u ∈ c.threads,
      u.prog = main setup (.recover now) ∨ u.prog = emptyHanded setup now := by
  apply invariant_of_reached (solo setup) _ Answers _ ?_ ?_ c reached
  · rintro c rfl
    refine ⟨rfl, fun u hu => Or.inl ?_⟩
    rw [List.mem_singleton.mp hu]
  · rintro c after choice ⟨same, programs⟩ ⟨id, answer, rfl, granted⟩ stepped
    rcases step_cases (solo setup) c after _ stepped with
      ⟨t, operation, ret, effect, next, calls, rfl⟩ | ⟨_, killed, _⟩ | ⟨_, _, outside, _⟩
    · obtain ⟨answer', here, performed⟩ := calls.choice
      cases here
      -- both queries of a settled store come back empty
      have answered : effect = changes world ∧
          (next ret = emptyHanded setup now ∨ next ret = .done ()) := by
        change perform setup c.state t (Machine.live c) operation answer = some (ret, effect) at performed
        rw [same] at performed
        rcases programs t calls.member with first | second
        · obtain ⟨opening, opens, found⟩ := recover_opens setup now
          have call := calls.prog.symm.trans (first.trans opens)
          cases call
          cases answer with
          | asIs =>
              cases performed
              refine ⟨rfl, Or.inl ?_⟩
              rw [← found, ← nothing_incomplete world.store settled]
              rfl
          | refused text => exact absurd rfl (granted text)
          | _ => cases performed
        · obtain ⟨opening, opens, found⟩ := empty_handed_opens setup now
          have call := calls.prog.symm.trans (second.trans opens)
          cases call
          cases answer with
          | asIs =>
              cases performed
              refine ⟨rfl, Or.inr ?_⟩
              rw [← found, ← nothing_exhausted world.store settled]
              rfl
          | refused text => exact absurd rfl (granted text)
          | _ => cases performed
      obtain ⟨rfl, leads⟩ := answered
      refine ⟨rfl, fun u hu => ?_⟩
      rcases mem_settle (solo setup) c _ u (changes world) hu with ⟨kept, going⟩ |
        ⟨before, hbefore, _, kept, _⟩ | ⟨new, hnew, _⟩
      · rw [kept.prog]
        rcases leads with empty | ended
        · exact Or.inr empty
        · rw [show ((solo setup).resumed t operation ret next).prog = next ret from rfl, ended] at going
          cases going
      · rw [kept.prog]
        exact programs before hbefore
      · cases hnew
    · cases killed
    · cases outside

/-- A recovery that is alone in its instance, with no statement refused: at its end every interrupted
row is where it belongs and no other row has changed, a recovery started then changes nothing, and
from every state on the way it can be led to its end. -/
theorem recovery_restores (world : World) (table : Table world.store) (now : Int) (h : Failures)
    (c : Among) (recovering : Recovering setup world now h c) :
    ((∀ t ∈ c.threads, t.id ≠ 0) → Restored setup world.store c.state.store h ∧
      ∀ again after, Reached (solo setup) (fun c' => c' = lone setup c.state again) Answers after →
        after.state = c.state) ∧
    ∃ after, Leads setup c after ∧ ∀ t ∈ after.threads, t.id ≠ 0 := by
  rcases recovery_ensured setup world table now h c recovering with
    ⟨t, ht, zero, s, sees, ensures⟩ | ⟨gone, s, sees, recovered, _⟩
  · constructor
    · intro gone
      exact absurd zero (gone t ht)
    · exact main_ends setup _ t.prog h c s sees t ht zero rfl ensures
  · constructor
    · intro _
      have restored := restored_of_recovered setup world.store s recovered
      rw [sees.store, sees.failed] at restored
      refine ⟨restored, fun again after reached => ?_⟩
      exact (second_recovery setup c.state restored.settled again after reached).1
    · exact ⟨c, .here, gone⟩

/-- A file was verified before the crash, and its object is gone. -/
def lostWorld : World :=
  { smallWorld oneFile with
    store := ((emptyStore "plant").upsertReady "a" 0 0 0).setState "a" .verified 0 }

theorem lost_table : Table lostWorld.store := by
  constructor
  · apply keyed_update
    apply keyed_upsert
    exact ⟨List.nodup_nil, fun _ none => by cases none⟩
  · apply listed_update
    apply listed_upsert
    exact listed_empty "plant"

def undisturbedAt (_ : Failures) (c : Among) : Choice Answer Event → Bool
  | .run _ (.refused _) => false
  | .run id _ => c.threads.any fun t => t.id = id
  | _ => false

theorem undisturbed_of_check (h : Failures) (c : Among) (choice : Choice Answer Event)
    (checked : undisturbedAt h c choice = true) : Undisturbed c choice := by
  unfold undisturbedAt at checked
  split at checked
  · cases checked
  · rename_i id answer granted
    exact undisturbed_of_granted c id answer fun text refused => granted text refused
  · cases checked

/-- The object is missed, and the item goes back to be delivered again. -/
def untilRequeued : List (Choice Answer Event) :=
  [.asIs, .asIs, .asIs, .asIs, .asIs, .asIs, .asIs].map (Choice.run 0)

theorem lost_object_restored :
    ∃ h c, Recovering (smallSetup plainCompletion) lostWorld 5 h c ∧
      (c.threads.isEmpty && h = [("a", "local")] &&
        (c.state.store.items "a").any fun row => row.state = .ready) = true ∧
      Restored (smallSetup plainCompletion) lostWorld.store c.state.store h := by
  obtain ⟨h, c, recovering, reached⟩ := exists_of_tracked_run (solo (smallSetup plainCompletion))
    (verdicts (smallSetup plainCompletion)) (fun c => c = lone (smallSetup plainCompletion) lostWorld 5)
    (fun _ => Undisturbed) undisturbedAt undisturbed_of_check
    (fun h c => c.threads.isEmpty && h = [("a", "local")] &&
      (c.state.store.items "a").any fun row => row.state = .ready)
    untilRequeued _ rfl (by decide)
  refine ⟨h, c, recovering, reached, ?_⟩
  apply ((recovery_restores (smallSetup plainCompletion) lostWorld lost_table 5 h c recovering).1 ?_).1
  intro t ht
  simp only [Bool.and_eq_true, List.isEmpty_iff] at reached
  rw [reached.1.1] at ht
  cases ht

end FileReplicator.RecoveryRuns
