import FileReplicator.Protocol

/-!
# What a call does

Said once for every operation: what it returns, what it changes in the world,
which threads it starts and which it ends. Everything that holds over runs is
derived from this.
-/

namespace FileReplicator.Steps

open Domain DurableStore Effects FileTree SourceActions Operations Worker Interleaving Instance
open Protocol

variable (setup : Setup)

abbrev Running := Thread Op Ret Spec Notes

abbrev State := Config Op Ret World Spec Notes

abbrev Step := Choice Answer Event

def endsAttempt (id : Nat) (label : String) (_ : Nat) (spec : Spec) : Fate :=
  if isAttempt id label spec then .gone else .stays

def endsAction (handle : Nat) (_ : Nat) (spec : Spec) : Fate :=
  if isAction handle spec then .gone else .stays

def endsQuarantine (handle : Nat) (_ : Nat) (spec : Spec) : Fate :=
  if isQuarantine handle spec then .gone else .stays

def abortsItems (id : Nat) (_ : Nat) (spec : Spec) : Fate :=
  if isItemOf id spec then .aborted else .stays

/-- The calls of a thread, one for each way they can end. -/
inductive Did (t : Running) (live : List Spec) (world : World) :
    (operation : Op) → Ret operation → Effect World Spec → Prop where
  | statement (operation : StoreOp) :
      Did t live world (.store operation) (.ok (callStore world.store operation).1)
        (changes { world with store := (callStore world.store operation).2 })
  | refused (operation : StoreOp) (text : String) :
      Did t live world (.store operation) (.error (.state text)) (changes world)
  | disk (operation : FsOp) (answer : FsAnswer) :
      Did t live world (.fs operation) (callFs world.tree operation answer).1
        (changes { world with tree := (callFs world.tree operation answer).2 })
  | delivered (item : WorkItem) (label : String) (resume : Option ResumeState) (bytes : Bytes)
      (source : sourceBytes setup world item.relpath = some bytes) :
      Did t live world (.deliver item label resume) (.ok (setup.deliveredAs label bytes))
        (changes (setObject world item.relpath label (some bytes)))
  | undelivered (item : WorkItem) (label : String) (resume left : Option ResumeState)
      (error : ReplError) (after : World)
      (stored : after = { world with store := world.store.setResume item.relpath label left } ∨
        ∃ bytes, sourceBytes setup world item.relpath = some bytes ∧
          after = setObject { world with store := world.store.setResume item.relpath label left }
            item.relpath label (some bytes)) :
      Did t live world (.deliver item label resume) (.error error) (changes after)
  | checked (item : WorkItem) (label : String) (expected : Delivered) (policy : Verify) :
      Did t live world (.verify item label expected policy)
        (setup.check label expected policy (world.objects item.relpath label)) (changes world)
  | unchecked (item : WorkItem) (label : String) (expected : Delivered) (policy : Verify)
      (error : ReplError) :
      Did t live world (.verify item label expected policy) (.error error) (changes world)
  | aborted (item : WorkItem) (label : String) (resume : ResumeState) (ret : Except ReplError Unit) :
      Did t live world (.abort item label resume) ret (changes world)
  | drawn (n : Nat) : Did t live world .draw n (changes world)
  | spawnedAttempts (contexts : List AttemptCtx) :
      Did t live world (.spawnAttempts contexts) ()
        (spawns world (contexts.map (Spec.attempt t.id)))
  | joined (n : Nat) (result : AttemptResult) (found : (world.attempts t.id)[n]? = some result) :
      Did t live world .joinAttempt (some (.ok result)) (changes { world with
        attempts := fun i =>
          if i = t.id then (world.attempts t.id).eraseIdx n else world.attempts i })
  | joinPanicked (label : String) (present : live.any (isAttempt t.id label) = true) :
      Did t live world .joinAttempt (some (.error label)) ⟨world, [], endsAttempt t.id label⟩
  | joinedAll (finished : attemptsOver live t.id = true) (nobody : world.attempts t.id = []) :
      Did t live world .joinAttempt none (changes world)
  | endedAttempt (owner : Nat) (ctx : AttemptCtx) (spec : t.spec = .attempt owner ctx)
      (result : AttemptResult) :
      Did t live world (.endAttempt result) () (changes { world with
        attempts := fun i => if i = owner then world.attempts i ++ [result] else world.attempts i })
  | startedAction (ctx : CleanupCtx) :
      Did t live world (.startAction ctx) world.handles
        (spawns { world with handles := world.handles + 1 } [.action world.handles ctx])
  | awaited (handle : Nat) (result : Except ReplError CleanupDone)
      (ended : world.outcomes handle = some result) :
      Did t live world (.awaitAction handle) (.ok result) (changes world)
  | awaitPanicked (handle : Nat) (text : String) (present : live.any (isAction handle) = true) :
      Did t live world (.awaitAction handle) (.error text) ⟨world, [], endsAction handle⟩
  | endedAction (handle : Nat) (ctx : CleanupCtx) (spec : t.spec = .action handle ctx)
      (result : Except ReplError CleanupDone) :
      Did t live world (.endAction result) () (changes { world with
        outcomes := fun h => if h = handle then some result else world.outcomes h })
  | startedQuarantine (job : QuarantineJob) :
      Did t live world (.startQuarantine job) world.handles
        (spawns { world with handles := world.handles + 1 } [.quarantine world.handles job])
  | awaitedQuarantine (handle : Nat) (ended : world.quarantined handle = true) :
      Did t live world (.awaitQuarantine handle) (.ok ()) (changes world)
  | quarantinePanicked (handle : Nat) (text : String)
      (present : live.any (isQuarantine handle) = true) :
      Did t live world (.awaitQuarantine handle) (.error text) ⟨world, [], endsQuarantine handle⟩
  | endedQuarantine (handle : Nat) (job : QuarantineJob) (spec : t.spec = .quarantine handle job) :
      Did t live world .endQuarantine () (changes { world with
        quarantined := fun h => if h = handle then true else world.quarantined h })
  | reported (relpath : String) :
      Did t live world (.reportQuarantined relpath) () (changes world)
  | activity : Did t live world .isActive world.active (changes world)
  | locked (free : world.ticking = false) :
      Did t live world .lockTick () (changes { world with ticking := true })
  | unlocked : Did t live world .unlockTick () (changes { world with ticking := false })
  | discovered (candidates : List Candidate)
      (found : candidates.all (candidateIs setup world) = true) :
      Did t live world .discover candidates (changes world)
  | scheduled (admission : Admission) :
      Did t live world .evaluateSchedule admission (changes world)
  | spawnedBatch (items : List WorkItem) (now : Int) :
      Did t live world (.spawnBatch items now) ()
        (spawns world (items.map fun item => .item t.id item now))
  | deadline (passed : Bool) : Did t live world .deadlinePassed passed (changes world)
  | drained (closable : Bool) (finished : isDrained live t.id = true) :
      Did t live world (.nextOfBatch closable) .drained (changes world)
  | closed : Did t live world (.nextOfBatch true) .closed (changes world)
  | abortedBatch : Did t live world .abortBatch () ⟨world, [], abortsItems t.id⟩

variable (t : Running) (live : List Spec) (world : World)

theorem did_deliver (item : WorkItem) (label : String) (resume : Option ResumeState)
    (answer : Answer) (ret : Except ReplError Delivered) (after : World)
    (performed : delivers setup world item label answer = some (ret, after)) :
    Did setup t live world (.deliver item label resume) ret (changes after) := by
  cases answer with
  | asIs =>
      obtain ⟨bytes, source, same⟩ := Option.map_eq_some_iff.mp performed
      cases same
      exact .delivered item label resume bytes source
  | failed error published left =>
      simp only [delivers] at performed
      split at performed
      · obtain ⟨bytes, source, same⟩ := Option.map_eq_some_iff.mp performed
        cases same
        exact .undelivered item label resume left error _ (Or.inr ⟨bytes, source, rfl⟩)
      · cases performed
        exact .undelivered item label resume left error _ (Or.inl rfl)
  | _ => cases performed

theorem did_join (answer : Answer) (out : Option (Except String AttemptResult) × Effect World Spec)
    (performed : joinOne world live t.id answer = some out) :
    Did setup t live world .joinAttempt out.1 out.2 := by
  cases answer with
  | number n =>
      obtain ⟨result, found, rfl⟩ := Option.map_eq_some_iff.mp performed
      exact .joined n result found
  | refused label =>
      simp only [joinOne] at performed
      split at performed
      · rename_i present
        cases performed
        exact .joinPanicked label present
      · cases performed
  | asIs =>
      simp only [joinOne] at performed
      split at performed
      · rename_i finished
        cases performed
        rw [Bool.and_eq_true, List.isEmpty_iff] at finished
        exact .joinedAll finished.1 finished.2
      · cases performed
  | _ => cases performed

theorem did_await (handle : Nat) (answer : Answer)
    (out : Except String (Except ReplError CleanupDone) × Effect World Spec)
    (performed : awaitOutcome world live handle answer = some out) :
    Did setup t live world (.awaitAction handle) out.1 out.2 := by
  cases answer with
  | asIs =>
      obtain ⟨result, ended, rfl⟩ := Option.map_eq_some_iff.mp performed
      exact .awaited handle result ended
  | refused text =>
      simp only [awaitOutcome] at performed
      split at performed
      · rename_i present
        cases performed
        exact .awaitPanicked handle text present
      · cases performed
  | _ => cases performed

theorem did_await_quarantine (handle : Nat) (answer : Answer)
    (out : Except String Unit × Effect World Spec)
    (performed : awaitQuarantined world live handle answer = some out) :
    Did setup t live world (.awaitQuarantine handle) out.1 out.2 := by
  cases answer with
  | asIs =>
      simp only [awaitQuarantined] at performed
      split at performed
      · rename_i ended
        cases performed
        exact .awaitedQuarantine handle ended
      · cases performed
  | refused text =>
      simp only [awaitQuarantined] at performed
      split at performed
      · rename_i present
        cases performed
        exact .quarantinePanicked handle text present
      · cases performed
  | _ => cases performed

theorem did_batch (closable : Bool) (answer : Answer) (out : BatchEvent × Effect World Spec)
    (performed : batchNext world live t.id closable answer = some out) :
    Did setup t live world (.nextOfBatch closable) out.1 out.2 := by
  cases answer with
  | asIs =>
      simp only [batchNext] at performed
      split at performed
      · rename_i finished
        cases performed
        exact .drained closable finished
      · cases performed
  | closed =>
      simp only [batchNext] at performed
      split at performed
      · rename_i may
        cases performed
        subst may
        exact .closed
      · cases performed
  | _ => cases performed

theorem did_statement (operation : StoreOp) (answer : Answer)
    (out : Except ReplError (StoreRet operation) × Effect World Spec)
    (performed : runStatement world operation answer = some out) :
    Did setup t live world (.store operation) out.1 out.2 := by
  cases answer with
  | asIs =>
      cases performed
      exact .statement operation
  | refused text =>
      cases performed
      exact .refused operation text
  | _ => cases performed

theorem did_of_perform (operation : Op) (answer : Answer) (ret : Ret operation)
    (effect : Effect World Spec)
    (performed : perform setup world t live operation answer = some (ret, effect)) :
    Did setup t live world operation ret effect := by
  cases operation with
  | store operation => exact did_statement setup t live world operation answer _ performed
  | fs operation =>
      cases answer with
      | disk answer => cases performed; exact .disk operation answer
      | _ => cases performed
  | deliver item label resume =>
      obtain ⟨out, delivered, same⟩ := Option.map_eq_some_iff.mp performed
      cases same
      exact did_deliver setup t live world item label resume answer _ _ delivered
  | verify item label expected policy =>
      obtain ⟨out, verified, same⟩ := Option.map_eq_some_iff.mp performed
      cases same
      cases answer with
      | asIs => cases verified; exact .checked item label expected policy
      | failed error _ _ => cases verified; exact .unchecked item label expected policy error
      | _ => cases verified
  | abort item label resume =>
      cases answer with
      | asIs => cases performed; exact .aborted item label resume _
      | failed error _ _ => cases performed; exact .aborted item label resume _
      | _ => cases performed
  | draw =>
      cases answer with
      | number n => cases performed; exact .drawn _
      | _ => cases performed
  | spawnAttempts contexts =>
      cases answer with
      | asIs => cases performed; exact .spawnedAttempts contexts
      | _ => cases performed
  | joinAttempt => exact did_join setup t live world answer _ performed
  | endAttempt result =>
      cases answer with
      | asIs =>
          simp only [perform] at performed
          split at performed
          · rename_i owner ctx spec
            cases performed
            exact .endedAttempt owner ctx spec result
          · cases performed
      | _ => cases performed
  | startAction ctx =>
      cases answer with
      | asIs => cases performed; exact .startedAction ctx
      | _ => cases performed
  | awaitAction handle => exact did_await setup t live world handle answer _ performed
  | endAction result =>
      cases answer with
      | asIs =>
          simp only [perform] at performed
          split at performed
          · rename_i handle ctx spec
            cases performed
            exact .endedAction handle ctx spec result
          · cases performed
      | _ => cases performed
  | startQuarantine job =>
      cases answer with
      | asIs => cases performed; exact .startedQuarantine job
      | _ => cases performed
  | awaitQuarantine handle => exact did_await_quarantine setup t live world handle answer _ performed
  | endQuarantine =>
      cases answer with
      | asIs =>
          simp only [perform] at performed
          split at performed
          · rename_i handle job spec
            cases performed
            exact .endedQuarantine handle job spec
          · cases performed
      | _ => cases performed
  | reportQuarantined relpath =>
      cases answer with
      | asIs => cases performed; exact .reported relpath
      | _ => cases performed
  | isActive =>
      cases answer with
      | asIs => cases performed; exact .activity
      | _ => cases performed
  | lockTick =>
      cases answer with
      | asIs =>
          simp only [perform] at performed
          split at performed
          · cases performed
          · rename_i free
            cases performed
            exact .locked (by simpa using free)
      | _ => cases performed
  | unlockTick =>
      cases answer with
      | asIs => cases performed; exact .unlocked
      | _ => cases performed
  | discover =>
      cases answer with
      | found candidates =>
          simp only [perform] at performed
          split at performed
          · rename_i found
            cases performed
            exact .discovered _ found
          · cases performed
      | _ => cases performed
  | evaluateSchedule =>
      cases answer with
      | scheduled admission => cases performed; exact .scheduled _
      | _ => cases performed
  | spawnBatch items now =>
      cases answer with
      | asIs => cases performed; exact .spawnedBatch items now
      | _ => cases performed
  | deadlinePassed =>
      cases answer with
      | asIs => cases performed; exact .deadline false
      | passed => cases performed; exact .deadline true
      | _ => cases performed
  | nextOfBatch closable => exact did_batch setup t live world closable answer _ performed
  | abortBatch =>
      cases answer with
      | asIs => cases performed; exact .abortedBatch
      | _ => cases performed

theorem did_up (t : Running) (live : List Spec) (world : World) (operation : Op)
    (ret : Ret operation) (effect : Effect World Spec)
    (did : Did setup t live world operation ret effect) : effect.state.up = world.up := by
  cases did with
  | undelivered item label resume left error after stored =>
      rcases stored with rfl | ⟨bytes, _, rfl⟩ <;> rfl
  | _ => rfl

theorem did_tree (t : Running) (live : List Spec) (world : World) (operation : Op)
    (ret : Ret operation) (effect : Effect World Spec)
    (did : Did setup t live world operation ret effect) (other : ∀ call, operation ≠ .fs call) :
    effect.state.tree = world.tree := by
  cases did with
  | disk operation answer => exact absurd rfl (other operation)
  | undelivered item label resume left error after stored =>
      rcases stored with rfl | ⟨bytes, _, rfl⟩
      · rfl
      · rfl
  | _ => rfl

/-- A call leaves the object of a destination, or makes it what the source of its item is. -/
theorem did_objects (t : Running) (live : List Spec) (world : World) (operation : Op)
    (ret : Ret operation) (effect : Effect World Spec)
    (did : Did setup t live world operation ret effect) (relpath label : String) :
    effect.state.objects relpath label = world.objects relpath label ∨
      ∃ bytes, sourceBytes setup world relpath = some bytes ∧
        effect.state.objects relpath label = some bytes := by
  cases did with
  | delivered item l resume bytes source =>
      simp only [changes, setObject]
      split
      · rename_i own
        exact Or.inr ⟨bytes, own.1 ▸ source, rfl⟩
      · exact Or.inl rfl
  | undelivered item l resume left error after stored =>
      rcases stored with rfl | ⟨bytes, source, rfl⟩
      · exact Or.inl rfl
      · simp only [changes, setObject]
        split
        · rename_i own
          exact Or.inr ⟨bytes, own.1 ▸ source, rfl⟩
        · exact Or.inl rfl
  | _ => exact Or.inl rfl

theorem react_tree (live : List Spec) (world : World) (event : Event)
    (reaction : Reaction World Spec) (reacted : react world live event = some reaction) :
    (∃ path node, event = .touch path node ∧ reaction.state.tree = put world.tree path node) ∨
      reaction.state.tree = world.tree := by
  cases event with
  | touch path node =>
      cases reacted
      exact Or.inl ⟨path, node, rfl, rfl⟩
  | boot now =>
      simp only [react] at reacted
      split at reacted
      · cases reacted
      · cases reacted
        exact Or.inr rfl
  | periodic now fuel =>
      simp only [react] at reacted
      split at reacted
      · cases reacted
        exact Or.inr rfl
      · cases reacted
  | trigger now ignoreWindow fuel =>
      simp only [react] at reacted
      split at reacted
      · cases reacted
        exact Or.inr rfl
      · cases reacted
  | _ =>
      cases reacted
      exact Or.inr rfl

theorem react_objects (live : List Spec) (world : World) (event : Event)
    (reaction : Reaction World Spec) (reacted : react world live event = some reaction) :
    (∃ relpath label object, event = .alter relpath label object ∧
        reaction.state = setObject world relpath label object) ∨
      reaction.state.objects = world.objects := by
  cases event with
  | alter relpath label object =>
      cases reacted
      exact Or.inl ⟨relpath, label, object, rfl, rfl⟩
  | boot now =>
      simp only [react] at reacted
      split at reacted
      · cases reacted
      · cases reacted
        exact Or.inr rfl
  | periodic now fuel =>
      simp only [react] at reacted
      split at reacted
      · cases reacted
        exact Or.inr rfl
      · cases reacted
  | trigger now ignoreWindow fuel =>
      simp only [react] at reacted
      split at reacted
      · cases reacted
        exact Or.inr rfl
      · cases reacted
  | _ =>
      cases reacted
      exact Or.inr rfl

theorem did_gone (t : Running) (live : List Spec) (world : World) (operation : Op)
    (ret : Ret operation) (effect : Effect World Spec)
    (did : Did setup t live world operation ret effect) (id : Nat) (spec : Spec)
    (gone : effect.fate id spec = .gone) :
    (∃ owner ctx, spec = .attempt owner ctx) ∨ (∃ handle ctx, spec = .action handle ctx) ∨
      ∃ handle job, spec = .quarantine handle job := by
  cases did with
  | joinPanicked label present =>
      simp only [endsAttempt] at gone
      split at gone
      · rename_i mine
        cases spec with
        | attempt owner ctx => exact Or.inl ⟨owner, ctx, rfl⟩
        | _ => cases mine
      · cases gone
  | awaitPanicked handle text present =>
      simp only [endsAction] at gone
      split at gone
      · rename_i mine
        cases spec with
        | action handle ctx => exact Or.inr (Or.inl ⟨handle, ctx, rfl⟩)
        | _ => cases mine
      · cases gone
  | quarantinePanicked handle text present =>
      simp only [endsQuarantine] at gone
      split at gone
      · rename_i mine
        cases spec with
        | quarantine handle job => exact Or.inr (Or.inr ⟨handle, job, rfl⟩)
        | _ => cases mine
      · cases gone
  | abortedBatch =>
      simp only [abortsItems] at gone
      split at gone <;> cases gone
  | _ => cases gone

theorem did_aborts (t : Running) (live : List Spec) (world : World) (operation : Op)
    (ret : Ret operation) (effect : Effect World Spec)
    (did : Did setup t live world operation ret effect) (id : Nat) (spec : Spec)
    (aborted : effect.fate id spec = .aborted) :
    operation = .abortBatch ∧ ∃ item now, spec = .item t.id item now := by
  cases did with
  | joinPanicked label present =>
      simp only [endsAttempt] at aborted
      split at aborted <;> cases aborted
  | awaitPanicked handle text present =>
      simp only [endsAction] at aborted
      split at aborted <;> cases aborted
  | quarantinePanicked handle text present =>
      simp only [endsQuarantine] at aborted
      split at aborted <;> cases aborted
  | abortedBatch =>
      simp only [abortsItems] at aborted
      split at aborted
      · rename_i mine
        cases spec with
        | item owner item now =>
            obtain rfl : owner = t.id := of_decide_eq_true mine
            exact ⟨rfl, item, now, rfl⟩
        | _ => cases mine
      · cases aborted
  | _ => cases aborted

/-- A thread as it started, further on in its program: what a call does depends on no notes. -/
def retold {Other : Type} (t : Thread Op Ret Spec Other) : Running :=
  ⟨t.id, t.spec, t.aborted, start t.spec, t.prog⟩

theorem perform_retold {Other : Type} (t : Thread Op Ret Spec Other) (live : List Spec)
    (world : World) (operation : Op) (answer : Answer) :
    perform setup world t live operation answer =
      perform setup world (retold t) live operation answer := by
  cases operation <;> cases answer <;> rfl

theorem did_retold {Other : Type} (t : Thread Op Ret Spec Other) (live : List Spec) (world : World)
    (operation : Op) (answer : Answer) (ret : Ret operation) (effect : Effect World Spec)
    (performed : perform setup world t live operation answer = some (ret, effect)) :
    Did setup (retold t) live world operation ret effect := by
  rw [perform_retold] at performed
  exact did_of_perform setup (retold t) live world operation answer ret effect performed

end FileReplicator.Steps
