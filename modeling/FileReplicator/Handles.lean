import FileReplicator.Runs

/-!
# Handles of the blocking pool

An action ends with the call that leaves its outcome. So an outcome under a
handle means that the action of that handle is not running any more, in every
run.
-/

namespace FileReplicator.Handles

open Domain Effects SourceActions Operations Worker Interleaving Instance Protocol Steps Runs

variable (setup : Setup)

/-! ## The last call of an action -/

def endsThread : Op → Bool
  | .endAction _ => true
  | .endQuarantine => true
  | _ => false

/-- Nothing is called after the call that ends a thread. -/
def last : Discipline Op Ret Bool where
  allowed finished _ := finished = false
  possible := fun _ _ => True
  learn finished operation _ := finished || endsThread operation

theorem on_disk_last {α : Type} (program : FileTree.FsProg α) :
    Keeps last (onDisk program) false fun _ finished => finished = false := by
  induction program with
  | done value => exact rfl
  | call operation next ih => exact ⟨rfl, fun ret _ => ih ret⟩

theorem action_last (ctx : CleanupCtx) :
    Keeps last (runAction setup ctx) false fun _ _ => True := by
  rw [runAction]
  apply keeps_bind
  apply keeps_mono _ _ _ _ _ (on_disk_last _)
  intro result finished going
  exact ⟨going, fun _ _ => trivial⟩

theorem quarantine_last (job : QuarantineJob) :
    Keeps last (runQuarantine setup job) false fun _ _ => True := by
  rw [runQuarantine]
  apply keeps_bind
  apply keeps_mono _ _ _ _ _ (on_disk_last _)
  intro result finished going
  exact ⟨going, fun _ _ => trivial⟩

theorem done_of_finished (prog : Program Unit) (keeps : Keeps last prog true fun _ _ => True) :
    prog.isDone = true := by
  cases prog with
  | done _ => rfl
  | call operation next => exact absurd keeps.1 (Bool.noConfusion)

/-- What runs on the blocking pool under a handle. -/
def pooled : Spec → Option Nat
  | .action handle _ => some handle
  | .quarantine handle _ => some handle
  | _ => none

theorem pooled_last (spec : Spec) (handle : Nat) (own : pooled spec = some handle) :
    Keeps last (main setup spec) false fun _ _ => True := by
  cases spec with
  | action _ ctx => exact action_last setup ctx
  | quarantine _ job => exact quarantine_last setup job
  | _ => cases own

/-! ## Every run -/

structure Pool (c : State) : Prop where
  below : ∀ t ∈ c.threads, ∀ handle, pooled t.spec = some handle → handle < c.state.handles
  unique : ∀ t ∈ c.threads, ∀ u ∈ c.threads, ∀ handle, pooled t.spec = some handle →
    pooled u.spec = some handle → t.id = u.id
  used : ∀ handle, c.state.outcomes handle ≠ none → handle < c.state.handles
  ended : ∀ handle, c.state.outcomes handle ≠ none → ∀ t ∈ c.threads,
    pooled t.spec ≠ some handle
  closing : ∀ t ∈ c.threads, ∀ handle, pooled t.spec = some handle →
    Keeps last t.prog false fun _ _ => True

theorem pool_begins (c : State) (begins : Begins c) : Pool c := by
  have nobody : ∀ t, t ∉ c.threads := by
    intro t
    rw [begins.threads]
    exact List.not_mem_nil
  constructor
  · intro t ht
    exact absurd ht (nobody t)
  · intro t ht
    exact absurd ht (nobody t)
  · intro handle some
    exact absurd (begins.outcomes handle) some
  · intro handle some
    exact absurd (begins.outcomes handle) some
  · intro t ht
    exact absurd ht (nobody t)

/-- A call that neither starts nor ends an action leaves the pool as it is. -/
def Leaves (world : World) (effect : Effect World Spec) : Prop :=
  effect.state.handles = world.handles ∧ effect.state.outcomes = world.outcomes ∧
    ∀ spec ∈ effect.spawned, pooled spec = none

theorem did_pool (t : Running) (live : List Spec) (world : World) (operation : Op)
    (ret : Ret operation) (effect : Effect World Spec)
    (did : Did setup t live world operation ret effect) :
    Leaves world effect ∨
    (effect.state.handles = world.handles + 1 ∧ effect.state.outcomes = world.outcomes ∧
      ∃ spec, effect.spawned = [spec] ∧ pooled spec = some world.handles) ∨
    (∃ handle, pooled t.spec = some handle ∧ endsThread operation = true ∧
      effect.state.handles = world.handles ∧ effect.spawned = [] ∧
      ∀ h, effect.state.outcomes h ≠ none → h = handle ∨ world.outcomes h ≠ none) := by
  cases did with
  | undelivered item label resume left error after stored =>
      rcases stored with rfl | ⟨bytes, _, rfl⟩
      · exact Or.inl ⟨rfl, rfl, fun _ none => by cases none⟩
      · exact Or.inl ⟨rfl, rfl, fun _ none => by cases none⟩
  | spawnedAttempts contexts =>
      refine Or.inl ⟨rfl, rfl, fun spec hspec => ?_⟩
      obtain ⟨ctx, _, rfl⟩ := List.mem_map.mp hspec
      rfl
  | spawnedBatch items now =>
      refine Or.inl ⟨rfl, rfl, fun spec hspec => ?_⟩
      obtain ⟨item, _, rfl⟩ := List.mem_map.mp hspec
      rfl
  | startedAction ctx => exact Or.inr (Or.inl ⟨rfl, rfl, _, rfl, rfl⟩)
  | startedQuarantine job => exact Or.inr (Or.inl ⟨rfl, rfl, _, rfl, rfl⟩)
  | endedAction handle ctx spec result =>
      refine Or.inr (Or.inr ⟨handle, by rw [spec]; rfl, rfl, rfl, rfl, fun h some => ?_⟩)
      by_cases same : h = handle
      · exact Or.inl same
      · simp only [changes, same, if_false] at some
        exact Or.inr some
  | endedQuarantine handle job spec =>
      exact Or.inr (Or.inr ⟨handle, by rw [spec]; rfl, rfl, rfl, rfl, fun h some => Or.inr some⟩)
  | _ => exact Or.inl ⟨rfl, rfl, fun _ none => by cases none⟩

/-- A thread after a call, as far as the pool goes: one that was there, or one just started. -/
theorem pool_member (c : State) (t u : Running) (operation : Op) (ret : Ret operation)
    (next : Ret operation → Program Unit) (effect : Effect World Spec)
    (hu : u ∈ ((engine setup).settle c ((engine setup).resumed t operation ret next) effect).threads) :
    (u.spec = t.spec ∧ u.id = t.id ∧ u.prog = next ret ∧ (next ret).isDone = false) ∨
    (∃ before ∈ c.threads, before.id ≠ t.id ∧ u.spec = before.spec ∧ u.id = before.id ∧
      u.prog = before.prog) ∨
    (u.spec ∈ effect.spawned ∧ u.prog = main setup u.spec ∧ c.next ≤ u.id ∧
      u.id < c.next + effect.spawned.length) := by
  rcases mem_settle (engine setup) c _ u effect hu with ⟨same, going⟩ |
    ⟨before, hbefore, other, same, _⟩ | ⟨new, hnew, same⟩
  · exact Or.inl ⟨same.spec, same.id, same.prog, going⟩
  · exact Or.inr (Or.inl ⟨before, hbefore, other, same.spec, same.id, same.prog⟩)
  · obtain ⟨hspec, first, later, _, _, prog⟩ := mem_spawn_from (engine setup) _ _ new hnew
    refine Or.inr (Or.inr ?_)
    rw [same.spec, same.prog, same.id]
    exact ⟨hspec, prog, first, later⟩

theorem closing_settle (c : State) (pool : Pool c) (t : Running) (operation : Op)
    (ret : Ret operation) (effect : Effect World Spec) (next : Ret operation → Program Unit)
    (choice : Step) (calls : Calls (engine setup) c t operation ret effect next choice)
    (handle : Nat) (own : pooled t.spec = some handle) :
    Keeps last (next ret) (endsThread operation) fun _ _ => True := by
  have keeps := pool.closing t calls.member handle own
  rw [calls.prog] at keeps
  have later := keeps.2 ret trivial
  rwa [show last.learn false operation ret = endsThread operation from Bool.false_or _] at later

theorem going_on (c : State) (pool : Pool c) (t : Running) (operation : Op) (ret : Ret operation)
    (effect : Effect World Spec) (next : Ret operation → Program Unit) (choice : Step)
    (calls : Calls (engine setup) c t operation ret effect next choice) (handle : Nat)
    (own : pooled t.spec = some handle) (unfinished : (next ret).isDone = false) :
    endsThread operation = false ∧ Keeps last (next ret) false fun _ _ => True := by
  have later := closing_settle setup c pool t operation ret effect next choice calls handle own
  cases ends : endsThread operation with
  | true =>
      rw [ends] at later
      rw [done_of_finished _ later] at unfinished
      cases unfinished
  | false =>
      rw [ends] at later
      exact ⟨rfl, later⟩

theorem pooled_after (c : State) (pool : Pool c) (t u : Running) (operation : Op)
    (ret : Ret operation) (effect : Effect World Spec) (next : Ret operation → Program Unit)
    (choice : Step) (calls : Calls (engine setup) c t operation ret effect next choice)
    (hu : u ∈ ((engine setup).settle c ((engine setup).resumed t operation ret next) effect).threads)
    (handle : Nat) (own : pooled u.spec = some handle) :
    (∃ before ∈ c.threads, u.id = before.id ∧ pooled before.spec = some handle ∧
      (before.id = t.id → endsThread operation = false)) ∨
    (u.spec ∈ effect.spawned ∧ c.next ≤ u.id ∧ u.id < c.next + effect.spawned.length) := by
  rcases pool_member setup c t u operation ret next effect hu with ⟨spec, id, _, unfinished⟩ |
    ⟨before, hbefore, other, spec, id, _⟩ | ⟨new, _, first, later⟩
  · exact Or.inl ⟨t, calls.member, id, spec ▸ own, fun _ =>
      (going_on setup c pool t operation ret effect next choice calls handle (spec ▸ own)
        unfinished).1⟩
  · exact Or.inl ⟨before, hbefore, id, spec ▸ own, fun same => absurd same other⟩
  · exact Or.inr ⟨new, first, later⟩

theorem closing_after (c : State) (pool : Pool c) (t u : Running) (operation : Op)
    (ret : Ret operation) (effect : Effect World Spec) (next : Ret operation → Program Unit)
    (choice : Step) (calls : Calls (engine setup) c t operation ret effect next choice)
    (hu : u ∈ ((engine setup).settle c ((engine setup).resumed t operation ret next) effect).threads)
    (handle : Nat) (own : pooled u.spec = some handle) :
    Keeps last u.prog false fun _ _ => True := by
  rcases pool_member setup c t u operation ret next effect hu with ⟨spec, _, prog, unfinished⟩ |
    ⟨before, hbefore, _, spec, _, prog⟩ | ⟨_, prog, _⟩
  · rw [prog]
    exact (going_on setup c pool t operation ret effect next choice calls handle (spec ▸ own)
      unfinished).2
  · rw [prog]
    exact pool.closing before hbefore handle (spec ▸ own)
  · rw [prog]
    exact pooled_last setup u.spec handle own

theorem pool_settle (c : State) (pool : Pool c) (t : Running) (operation : Op) (ret : Ret operation)
    (effect : Effect World Spec) (next : Ret operation → Program Unit) (choice : Step)
    (calls : Calls (engine setup) c t operation ret effect next choice) :
    Pool ((engine setup).settle c ((engine setup).resumed t operation ret next) effect) := by
  have did := calls_did setup c t operation ret effect next choice calls
  have after := fun u hu => pooled_after setup c pool t u operation ret effect next choice calls hu
  have closing := fun u hu =>
    closing_after setup c pool t u operation ret effect next choice calls hu
  rcases did_pool setup t _ _ operation ret effect did with
    ⟨handles, outcomes, none⟩ | ⟨handles, outcomes, spec, spawned, fresh⟩ |
    ⟨mine, own, ends, handles, spawned, outcomes⟩
  · -- nobody is started on the pool
    have old := fun u hu handle own => (after u hu handle own).resolve_right fun new => by
      rw [none u.spec new.1] at own
      cases own
    refine ⟨?_, ?_, ?_, ?_, closing⟩
    · intro u hu handle own
      obtain ⟨before, hbefore, _, same, _⟩ := old u hu handle own
      exact handles ▸ pool.below before hbefore handle same
    · intro u hu v hv handle hown vown
      obtain ⟨before, hbefore, uid, same, _⟩ := old u hu handle hown
      obtain ⟨other, hother, vid, too, _⟩ := old v hv handle vown
      rw [uid, vid]
      exact pool.unique before hbefore other hother handle same too
    · intro handle some
      exact handles ▸ pool.used handle (outcomes ▸ some)
    · intro handle some u hu own
      obtain ⟨before, hbefore, _, same, _⟩ := old u hu handle own
      exact pool.ended handle (outcomes ▸ some) before hbefore same
  · -- the new one has a handle that was free
    have new : ∀ u : Running, ∀ handle, pooled u.spec = some handle → u.spec ∈ effect.spawned →
        c.next ≤ u.id ∧ u.id < c.next + effect.spawned.length →
        handle = c.state.handles ∧ u.id = c.next := by
      intro u handle own hspec bounds
      rw [spawned, List.mem_singleton] at hspec
      rw [hspec, fresh, Option.some.injEq] at own
      rw [spawned, List.length_singleton] at bounds
      exact ⟨own.symm, by omega⟩
    refine ⟨?_, ?_, ?_, ?_, closing⟩
    · intro u hu handle own
      show handle < effect.state.handles
      rcases after u hu handle own with ⟨before, hbefore, _, same, _⟩ | ⟨hspec, bounds⟩
      · have := pool.below before hbefore handle same
        omega
      · have := (new u handle own hspec bounds).1
        omega
    · intro u hu v hv handle hown vown
      rcases after u hu handle hown with ⟨before, hbefore, uid, same, _⟩ | ⟨uspec, ubounds⟩ <;>
        rcases after v hv handle vown with ⟨other, hother, vid, too, _⟩ | ⟨vspec, vbounds⟩
      · rw [uid, vid]
        exact pool.unique before hbefore other hother handle same too
      · have := pool.below before hbefore handle same
        have := (new v handle vown vspec vbounds).1
        omega
      · have := pool.below other hother handle too
        have := (new u handle hown uspec ubounds).1
        omega
      · rw [(new u handle hown uspec ubounds).2, (new v handle vown vspec vbounds).2]
    · intro handle some
      have := pool.used handle (outcomes ▸ some)
      show handle < effect.state.handles
      omega
    · intro handle some u hu own
      rcases after u hu handle own with ⟨before, hbefore, _, same, _⟩ | ⟨hspec, bounds⟩
      · exact pool.ended handle (outcomes ▸ some) before hbefore same
      · have := pool.used handle (outcomes ▸ some)
        have := (new u handle own hspec bounds).1
        omega
  · -- the caller has ended
    have old : ∀ u ∈ ((engine setup).settle c ((engine setup).resumed t operation ret next)
        effect).threads, ∀ handle, pooled u.spec = some handle →
        ∃ before ∈ c.threads, u.id = before.id ∧ pooled before.spec = some handle ∧
          before.id ≠ t.id := by
      intro u hu handle own
      rcases after u hu handle own with ⟨before, hbefore, id, same, going⟩ | ⟨hspec, _⟩
      · refine ⟨before, hbefore, id, same, fun again => ?_⟩
        rw [going again] at ends
        cases ends
      · rw [spawned] at hspec
        cases hspec
    refine ⟨?_, ?_, ?_, ?_, closing⟩
    · intro u hu handle own
      obtain ⟨before, hbefore, _, same, _⟩ := old u hu handle own
      exact handles ▸ pool.below before hbefore handle same
    · intro u hu v hv handle hown vown
      obtain ⟨before, hbefore, uid, same, _⟩ := old u hu handle hown
      obtain ⟨other, hother, vid, too, _⟩ := old v hv handle vown
      rw [uid, vid]
      exact pool.unique before hbefore other hother handle same too
    · intro handle some
      show handle < effect.state.handles
      rw [handles]
      rcases outcomes handle some with rfl | earlier
      · exact pool.below t calls.member handle own
      · exact pool.used handle earlier
    · intro handle some u hu hown
      obtain ⟨before, hbefore, _, same, other⟩ := old u hu handle hown
      rcases outcomes handle some with rfl | earlier
      · exact other (pool.unique before hbefore t calls.member handle same own)
      · exact pool.ended handle earlier before hbefore same

theorem pool_without (c : State) (pool : Pool c) (id : Nat) : Pool ((engine setup).without c id) := by
  have member := fun u hu => mem_without (engine setup) c id u hu
  constructor
  · intro u hu handle own
    obtain ⟨before, hbefore, _, same⟩ := member u hu
    exact pool.below before hbefore handle (same.spec ▸ own)
  · intro u hu v hv handle hown vown
    obtain ⟨before, hbefore, _, same⟩ := member u hu
    obtain ⟨other, hother, _, too⟩ := member v hv
    rw [same.id, too.id]
    exact pool.unique before hbefore other hother handle (same.spec ▸ hown) (too.spec ▸ vown)
  · exact pool.used
  · intro handle some u hu own
    obtain ⟨before, hbefore, _, same⟩ := member u hu
    exact pool.ended handle some before hbefore (same.spec ▸ own)
  · intro u hu handle own
    obtain ⟨before, hbefore, _, same⟩ := member u hu
    rw [same.prog]
    exact pool.closing before hbefore handle (same.spec ▸ own)

theorem react_pool (live : List Spec) (world : World) (event : Event)
    (reaction : Reaction World Spec) (reacted : react world live event = some reaction) :
    reaction.state.handles = world.handles ∧
      (∀ h, reaction.state.outcomes h ≠ none → world.outcomes h ≠ none) ∧
      ∀ spec ∈ reaction.spawned, pooled spec = none := by
  cases event with
  | touch path node =>
      cases reacted
      exact ⟨rfl, fun _ some => some, fun _ none => by cases none⟩
  | alter relpath label object =>
      cases reacted
      exact ⟨rfl, fun _ some => some, fun _ none => by cases none⟩
  | setActive active =>
      cases reacted
      exact ⟨rfl, fun _ some => some, fun _ none => by cases none⟩
  | crash =>
      cases reacted
      exact ⟨rfl, fun _ some => absurd rfl some, fun _ none => by cases none⟩
  | boot now =>
      simp only [react] at reacted
      split at reacted
      · cases reacted
      · cases reacted
        refine ⟨rfl, fun _ some => some, fun spec hspec => ?_⟩
        rw [List.mem_singleton.mp hspec]
        rfl
  | periodic now fuel =>
      simp only [react] at reacted
      split at reacted
      · cases reacted
        refine ⟨rfl, fun _ some => some, fun spec hspec => ?_⟩
        rw [List.mem_singleton.mp hspec]
        rfl
      · cases reacted
  | trigger now ignoreWindow fuel =>
      simp only [react] at reacted
      split at reacted
      · cases reacted
        refine ⟨rfl, fun _ some => some, fun spec hspec => ?_⟩
        rw [List.mem_singleton.mp hspec]
        rfl
      · cases reacted

theorem pool_absorb (c : State) (pool : Pool c) (event : Event) (reaction : Reaction World Spec)
    (reacted : react c.state (Machine.live c) event = some reaction) :
    Pool ((engine setup).absorb c reaction) := by
  obtain ⟨handles, outcomes, none⟩ := react_pool _ _ event reaction reacted
  have member : ∀ u ∈ ((engine setup).absorb c reaction).threads, ∀ handle,
      pooled u.spec = some handle → ∃ before ∈ c.threads, SameThread before u := by
    intro u hu handle own
    rcases mem_absorb (engine setup) c reaction u hu with ⟨_, before, hbefore, same⟩ |
      ⟨new, hnew, same⟩
    · exact ⟨before, hbefore, same⟩
    · rw [same.spec, none new.spec (mem_spawn_from (engine setup) _ _ new hnew).1] at own
      cases own
  constructor
  · intro u hu handle own
    obtain ⟨before, hbefore, same⟩ := member u hu handle own
    show handle < reaction.state.handles
    rw [handles]
    exact pool.below before hbefore handle (same.spec ▸ own)
  · intro u hu v hv handle hown vown
    obtain ⟨before, hbefore, same⟩ := member u hu handle hown
    obtain ⟨other, hother, too⟩ := member v hv handle vown
    rw [same.id, too.id]
    exact pool.unique before hbefore other hother handle (same.spec ▸ hown) (too.spec ▸ vown)
  · intro handle some
    show handle < reaction.state.handles
    rw [handles]
    exact pool.used handle (outcomes handle some)
  · intro handle some u hu own
    obtain ⟨before, hbefore, same⟩ := member u hu handle own
    exact pool.ended handle (outcomes handle some) before hbefore (same.spec ▸ own)
  · intro u hu handle own
    obtain ⟨before, hbefore, same⟩ := member u hu handle own
    rw [same.prog]
    exact pool.closing before hbefore handle (same.spec ▸ own)

theorem pool_step (c after : State) (choice : Step) (pool : Pool c)
    (stepped : (engine setup).step c choice = some after) : Pool after := by
  rcases step_cases (engine setup) c after choice stepped with
    ⟨t, operation, ret, effect, next, calls, rfl⟩ | ⟨id, _, _, rfl⟩ |
    ⟨event, reaction, _, reacted, rfl⟩
  · exact pool_settle setup c pool t operation ret effect next choice calls
  · exact pool_without setup c pool id
  · exact pool_absorb setup c pool event reaction reacted

end FileReplicator.Handles
