import FileReplicator.LifecycleEvents
import FileReplicator.Steadiness

/-!
# What is to be told

Which event tells of which statement, and what a thread has to know to tell it. Every
thread tells what the store has taken from it before it makes the next statement that
is to be told, and before its end.
-/

namespace FileReplicator.Telling

open Domain DurableStore Effects FileTree SourceActions Retry Interleaving Steadiness LifecycleEvents
open Operations (Setup AttemptCtx DestOutcome QuarantineJob StoreOp)
open EventPlans (Event)
open Instance (Spec World)

variable (setup : Setup)

/-! ## What is to be told -/

structure Notes where
  /-- The attempt that it makes, if it makes one, and whether that has begun. -/
  attempt : Option AttemptCtx
  fresh : Bool
  /-- What has become of the delivery. -/
  outcome : Option (Except ReplError Delivered)
  action : Option CleanupCtx
  result : Option (Except ReplError CleanupDone)
  completed : Option String
  job : Option QuarantineJob
  /-- What the store has taken and is still to be told. -/
  owed : Option Told

/-- What is known before the event; the number of the attempts at an action is the row's. -/
def fact : Told → Told
  | .fileCleanupFailed path action _ lastError => .fileCleanupFailed path action 0 lastError
  | event => event

namespace Notes

def completion (n : Notes) : Option Told :=
  match n.completed, n.action, n.result with
  | some relpath, some ctx, some (.ok done) =>
      if ctx.relpath = relpath then some (completionEvent relpath done) else none
  | _, _, _ => none

def quarantined (n : Notes) (relpath : String) : Option Told :=
  match n.job with
  | some job =>
      if job.ctx.relpath = relpath then
        some (.fileQuarantined relpath job.ctx.attempts job.ctx.lastError (quarantinePath setup relpath))
      else none
  | none => none

def denied (n : Notes) (label : String) : Option Told :=
  match n.outcome with
  | some (.error e) =>
      if isPermissionDenied e then some (.permissionDenied label "egress" e.text) else none
  | _ => none

def replicated (n : Notes) (relpath label : String) : Option Told :=
  match n.attempt, n.outcome with
  | some ctx, some (.ok delivered) =>
      some (.replicationCompleted relpath ctx.item.size label delivered.bytes)
  | _, _ => none

/-- What a statement is told as, once it is taken. -/
def statement (n : Notes) : StoreOp → Option Told
  | .loadResume relpath label =>
      if n.fresh then n.attempt.map fun ctx =>
        .replicationStarted relpath ctx.item.size label (nextAttempt ctx.attemptsSoFar)
      else none
  | .setDestPhase relpath label .verified => n.replicated relpath label
  | .recordDestAttempt relpath label error .pending gate =>
      n.attempt.map fun ctx =>
        .replicationFailed relpath label (nextAttempt ctx.attemptsSoFar) error (some gate)
  | .recordDestAttempt relpath label error .exhausted _ =>
      n.attempt.map fun ctx =>
        .retriesExhausted relpath label (nextAttempt ctx.attemptsSoFar) error
  | .bumpStats replicated _ _ => if replicated = 1 then n.completion else none
  | .recordCleanupAttempt relpath error _ gate _ =>
      if gate = cleanupNoRetry then
        some (.fileCleanupFailed relpath (actionName setup.completion.onSuccess) 0 error)
      else none
  | .setState relpath .quarantined _ => n.quarantined setup relpath
  | _ => none

def tells (n : Notes) : StoreOp → Bool
  | .loadResume _ _ => n.fresh
  | .setDestPhase _ _ .verified => n.attempt.isSome
  | .recordDestAttempt _ _ _ _ _ => true
  | .bumpStats replicated _ _ => replicated ≠ 0
  | .recordCleanupAttempt _ _ _ gate _ => gate = cleanupNoRetry
  | .setState _ .quarantined _ => true
  | _ => false

def due (n : Notes) : (operation : Op) → Ret operation → Option Told
  | .work (.store operation), .ok _ => n.statement setup operation
  | .shouldLog label _, true => n.denied label
  | _, _ => none

def observe (n : Notes) : (operation : Op) → Ret operation → Notes
  | .work (.store (.loadResume _ _)), _ => { n with fresh := false }
  | .work (.store (.setState relpath .completed _)), .ok _ => { n with completed := some relpath }
  | .work (.deliver _ _ _), result => { n with outcome := some result }
  | .work (.verify _ _ _ _), .error e => { n with outcome := some (.error e) }
  | .work (.startAction ctx), _ => { n with action := some ctx }
  | .work (.awaitAction _), joined => { n with result := some (Worker.joinOutcome joined) }
  | .work (.startQuarantine job), _ => { n with job := some job }
  | _, _ => n

def owedAfter (n : Notes) : (operation : Op) → Ret operation → Option Told
  | .emit _, _ => none
  | operation, ret => (n.due setup operation ret).or n.owed

def learn (n : Notes) (operation : Op) (ret : Ret operation) : Notes :=
  { n.observe operation ret with owed := n.owedAfter setup operation ret }

end Notes

/-- No back-off from here on reaches the end of the clock, where a gate would say that nothing is
retried. -/
def Timely (now : Int) : Prop := now + max setup.retry.maxDelayMs 1 < maxI64

/-- What is to be told is told before the next that is to be told. -/
def allowed (n : Notes) : Op → Prop
  | .work (.store operation) =>
      n.tells operation = true → n.owed = none ∧ (n.statement setup operation).isSome = true
  | .work (.spawnBatch _ now) => Timely setup now
  | .work _ => True
  | .shouldLog label _ => n.owed = none ∧ (n.denied label).isSome = true
  | .emit event => n.owed = some (fact event)

def teller : Discipline Op Ret Notes where
  allowed := allowed setup
  possible := fun _ _ => True
  learn := Notes.learn setup

def blank : Notes := ⟨none, false, none, none, none, none, none, none⟩

def start : Spec → Notes
  | .attempt _ ctx => { blank with attempt := some ctx, fresh := true }
  | _ => blank

/-! ## The threads tell it -/

structure Calm (n : Notes) : Prop where
  owed : n.owed = none
  attempt : n.attempt = none
  fresh : n.fresh = false

def Quiet : Operations.Op → Prop
  | .store (.setState _ state _) => state ≠ .quarantined
  | .store (.bumpStats replicated _ _) => replicated = 0
  | .store (.recordCleanupAttempt _ _ _ gate _) => gate ≠ cleanupNoRetry
  | .store (.recordDestAttempt _ _ _ _ _) => False
  | .spawnBatch _ now => Timely setup now
  | _ => True

theorem quiet_tells (n : Notes) (calm : Calm n) (operation : StoreOp)
    (quiet : Quiet setup (.store operation)) : n.tells operation = false := by
  cases operation with
  | loadResume relpath label => exact calm.fresh
  | setDestPhase relpath label phase =>
      cases phase with
      | verified => exact congrArg Option.isSome calm.attempt
      | _ => rfl
  | recordDestAttempt relpath label error phase gate => exact absurd quiet id
  | bumpStats replicated failed bytes => exact decide_eq_false fun some => some quiet
  | recordCleanupAttempt relpath error state gate now => exact decide_eq_false quiet
  | setState relpath state now =>
      cases state with
      | quarantined => exact absurd rfl quiet
      | _ => rfl
  | _ => rfl

theorem untold (n : Notes) (operation : StoreOp) (silent : n.tells operation = false) :
    n.statement setup operation = none := by
  cases operation with
  | loadResume relpath label => exact if_neg (by rw [show n.fresh = false from silent]; decide)
  | setDestPhase relpath label phase =>
      cases phase with
      | verified =>
          show n.replicated relpath label = none
          have idle : n.attempt.isSome = false := silent
          rw [Notes.replicated]
          cases attempt : n.attempt with
          | none => rfl
          | some ctx =>
              rw [attempt] at idle
              cases idle
      | _ => rfl
  | recordDestAttempt relpath label error phase gate => cases silent
  | bumpStats replicated failed bytes =>
      have zero : replicated = 0 := by simpa [Notes.tells] using silent
      exact if_neg (by rw [zero]; decide)
  | recordCleanupAttempt relpath error state gate now => exact if_neg (of_decide_eq_false silent)
  | setState relpath state now =>
      cases state with
      | quarantined => cases silent
      | _ => rfl
  | _ => rfl

theorem observe_frame (n : Notes) (operation : Op) (ret : Ret operation) :
    (n.observe operation ret).attempt = n.attempt ∧
      (n.fresh = false → (n.observe operation ret).fresh = false) := by
  unfold Notes.observe
  split
  · exact ⟨rfl, fun _ => rfl⟩
  all_goals exact ⟨rfl, id⟩

theorem quiet_plain (operation : Operations.Op) (quiet : Quiet setup operation) :
    Plain (teller setup) Calm (.work operation) := by
  intro n calm
  have frame : ∀ ret : Ret (.work operation), n.due setup (.work operation) ret = none →
      Calm (n.learn setup (.work operation) ret) := by
    intro ret nothing
    have kept := observe_frame n (.work operation) ret
    refine ⟨?_, kept.1.trans calm.attempt, kept.2 calm.fresh⟩
    show (n.due setup (.work operation) ret).or n.owed = none
    rw [nothing, calm.owed]
    rfl
  cases operation with
  | store operation =>
      have silent := quiet_tells setup n calm operation quiet
      refine ⟨fun tells => absurd (silent.symm.trans tells) nofun, fun ret _ => frame ret ?_⟩
      cases ret with
      | ok value => exact untold setup n operation silent
      | error e => rfl
  | spawnBatch items now => exact ⟨quiet, fun ret _ => frame ret rfl⟩
  | _ => exact ⟨trivial, fun ret _ => frame ret rfl⟩

/-! What a thread does as before. -/

def inner : Discipline Operations.Op Operations.Ret Notes where
  allowed := fun n operation => allowed setup n (.work operation)
  possible := fun _ _ => True
  learn := fun n operation ret => n.learn setup (.work operation) ret

theorem keeps_lift {α : Type} (program : Operations.Program α) (n : Notes) (post : α → Notes → Prop)
    (keeps : Keeps (inner setup) program n post) : Keeps (teller setup) (lift program) n post :=
  keeps_into (inner setup) (teller setup) (fun operation => Prog.perform (Op.work operation))
    (fun _ _ may => ⟨may, fun _ _ => ⟨trivial, rfl⟩⟩) program n post keeps

theorem steady_lift {α : Type} (program : Operations.Program α)
    (quiet : Within (Quiet setup) program) : Steady (teller setup) Calm (lift program) := by
  intro n calm
  exact keeps_lift setup program n _
    (steady_within (inner setup) Calm (Quiet setup) program
      (fun operation quiet => quiet_plain setup operation quiet) quiet n calm)

structure Owing (event : Told) (n : Notes) : Prop where
  owed : n.owed = some event
  attempt : n.attempt = none
  fresh : n.fresh = false

theorem tell_owed (event : Told) (n : Notes) (owing : Owing (fact event) n) :
    Keeps (teller setup) (emit event) n fun _ after => Calm after :=
  ⟨owing.owed, fun _ _ => ⟨rfl, owing.attempt, owing.fresh⟩⟩

/-! Completion. -/

theorem learn_still (n : Notes) (operation : Operations.Op) (ret : Operations.Ret operation)
    (seen : n.observe (.work operation) ret = n)
    (nothing : n.due setup (.work operation) ret = none) :
    n.learn setup (.work operation) ret = n := by
  have owed : n.owedAfter setup (.work operation) ret = n.owed := by
    show (n.due setup (.work operation) ret).or n.owed = n.owed
    rw [nothing]
    rfl
  rw [Notes.learn, seen, owed]

theorem keeps_silent (operation : StoreOp) (n : Notes)
    (post : Except ReplError (Operations.StoreRet operation) → Notes → Prop)
    (silent : n.tells operation = false)
    (seen : ∀ ret, n.observe (.work (.store operation)) ret = n) (holds : ∀ ret, post ret n) :
    Keeps (inner setup) (Operations.statement operation).run n post := by
  refine ⟨fun tells => absurd (silent.symm.trans tells) nofun, fun ret _ => ?_⟩
  show post ret (n.learn setup (.work (.store operation)) ret)
  rw [learn_still setup n (.store operation) ret (seen ret)]
  · exact holds ret
  · cases ret with
    | ok value => exact untold setup n operation silent
    | error e => rfl

/-- What holds after a task that is done, and after one that is refused. -/
def Either {α : Type} (taken refused : Notes → Prop) : Except ReplError α → Notes → Prop
  | .ok _ => taken
  | .error _ => refused

theorem owes_statement (operation : StoreOp) (event : Told) (n : Notes) (nothing : n.owed = none)
    (is : n.statement setup operation = some event)
    (seen : ∀ ret, n.observe (.work (.store operation)) ret = n) :
    Keeps (inner setup) (Operations.statement operation).run n
      (Either (fun after => after = { n with owed := some event }) fun after => after = n) := by
  refine ⟨fun _ => ⟨nothing, by rw [is]; rfl⟩, fun ret _ => ?_⟩
  cases ret with
  | error e => exact learn_still setup n (.store operation) (.error e) (seen _) rfl
  | ok value =>
      show { n.observe (.work (.store operation)) (.ok value) with
        owed := (n.statement setup operation).or n.owed } = _
      rw [seen, is]
      rfl

theorem keeps_told {α : Type} (operation : StoreOp) (event : Told) (n : Notes)
    (nothing : n.owed = none) (is : n.statement setup operation = some (fact event))
    (seen : ∀ ret, n.observe (.work (.store operation)) ret = n) (rest : Work α)
    (post : Except ReplError α → Notes → Prop) (goes : Keeps (teller setup) rest.run n post)
    (refused : ∀ e, post (.error e) n) :
    Keeps (teller setup) (lifted (Operations.statement operation) >>= fun _ =>
      always (emit event) >>= fun _ => rest).run n post := by
  apply keeps_task_bind
  apply keeps_mono _ _ _ _ _ (keeps_lift setup _ _ _ (owes_statement setup operation _ n nothing is seen))
  intro result after holds
  cases result with
  | error e => exact (show after = n from holds) ▸ refused e
  | ok value =>
      obtain rfl : after = _ := holds
      apply keeps_task_bind
      apply keeps_always
      refine ⟨rfl, fun _ _ => ?_⟩
      have same : Notes.mk n.attempt n.fresh n.outcome n.action n.result n.completed n.job none = n := by
        rw [← nothing]
      show Keeps (teller setup) rest.run (Notes.mk n.attempt n.fresh n.outcome n.action n.result
        n.completed n.job none) post
      rw [same]
      exact goes

structure Done (relpath : String) (done : CleanupDone) (n : Notes) : Prop where
  calm : Calm n
  completion : n.completion = some (completionEvent relpath done)

theorem completion_eq (n : Notes) (relpath : String) (ctx : CleanupCtx) (done : CleanupDone)
    (completed : n.completed = some relpath) (action : n.action = some ctx)
    (here : ctx.relpath = relpath) (result : n.result = some (.ok done)) :
    n.completion = some (completionEvent relpath done) := by
  rw [Notes.completion, completed, action, result]
  exact if_pos here

/-- The action on this file has been awaited, and this is its result. -/
structure Acted (relpath : String) (result : Except ReplError CleanupDone) (n : Notes) : Prop where
  calm : Calm n
  action : ∃ ctx, n.action = some ctx ∧ ctx.relpath = relpath
  result : n.result = some result

theorem finish_owes (item : WorkItem) (done : CleanupDone) (now : Int) (n : Notes)
    (acted : Acted item.relpath (.ok done) n) :
    Keeps (inner setup) (Worker.finishCompleted item now).run n
      (Either (Owing (completionEvent item.relpath done)) Calm) := by
  obtain ⟨calm, ⟨ctx, action, here⟩, result⟩ := acted
  apply keeps_task_bind
  have plain := quiet_plain setup (.store (.setState item.relpath .completed now)) nofun n calm
  refine ⟨plain.1, fun set _ => ?_⟩
  cases set with
  | error e => exact plain.2 (.error e) trivial
  | ok set =>
      have is : Done item.relpath done ((inner setup).learn n
          (Operations.Op.store (.setState item.relpath .completed now)) (Except.ok set)) := by
        refine ⟨plain.2 (.ok set) trivial, ?_⟩
        exact completion_eq _ item.relpath ctx done rfl action here result
      generalize (inner setup).learn n _ _ = n at is ⊢
      apply keeps_task_bind
      apply keeps_always
      apply keeps_best_effort
      refine keeps_silent setup (.clearResumeAll item.relpath) n _ rfl (fun _ => rfl) fun _ => ?_
      apply keeps_task_bind
      apply keeps_always
      apply keeps_best_effort
      refine keeps_silent setup (.clearDestStates item.relpath) n _ rfl (fun _ => rfl) fun _ => ?_
      apply keeps_task_bind
      have statement : n.statement setup (.bumpStats 1 0 (UInt64.ofNat item.size).toInt64) =
          some (completionEvent item.relpath done) := by
        show (if (1 : Int64) = 1 then n.completion else none) = _
        rw [if_pos rfl]
        exact is.completion
      apply keeps_mono _ _ _ _ _ (owes_statement setup _ _ n is.calm.owed statement fun _ => rfl)
      intro counted after holds
      cases counted with
      | ok counted =>
          obtain rfl : after = _ := holds
          exact ⟨rfl, is.calm.attempt, is.calm.fresh⟩
      | error e => exact (show after = n from holds) ▸ is.calm

theorem finish_steady (item : WorkItem) (done : CleanupDone) (now : Int) (n : Notes)
    (acted : Acted item.relpath (.ok done) n) :
    Keeps (teller setup) (LifecycleEvents.finishCompleted item done now).run n fun _ after => Calm after := by
  apply keeps_task_bind
  apply keeps_mono _ _ _ _ _ (keeps_lift setup _ _ _ (finish_owes setup item done now n acted))
  intro result after owing
  cases result with
  | error e => exact owing
  | ok state =>
      apply keeps_task_bind
      apply keeps_always
      refine tell_owed setup _ _ ?_
      cases done with
      | deleted => exact owing
      | archived target => exact owing

theorem gate_timely (now : Int) (timely : Timely setup now) (permanent : Bool) (attempts draw : Nat)
    (gate : Int) (retried : setup.retry.decideCleanup permanent attempts now draw = .retry gate) :
    gate ≠ cleanupNoRetry := by
  unfold RetryPolicy.decideCleanup at retried
  dsimp only at retried
  split at retried
  · cases retried
  · split at retried
    · cases retried
    · obtain rfl := RetryDecision.retry.inj retried
      unfold Timely at timely
      have drawn : setup.retry.backoffMs (nextAttempt attempts) draw ≤ max setup.retry.maxDelayMs 1 := by
        unfold RetryPolicy.backoffMs RetryPolicy.backoffCap
        dsimp only
        omega
      have whole : asI64 (setup.retry.backoffMs (nextAttempt attempts) draw) ≤
          setup.retry.backoffMs (nextAttempt attempts) draw := by
        unfold asI64
        split <;> omega
      unfold saturatingAdd cleanupNoRetry
      have far : minI64 < maxI64 := by decide
      omega

/-! What gives nothing to tell. -/

abbrev Silent {α : Type} (program : Operations.Program α) : Prop := Within (Quiet setup) program

theorem silent_statement (operation : StoreOp) (quiet : Quiet setup (.store operation)) :
    Silent setup (Operations.statement operation).run :=
  within_perform _ (Operations.Op.store operation) quiet

theorem silent_checksum (relpath : String) (labels : List String) :
    Silent setup (Worker.deliveredChecksum relpath labels) := by
  induction labels with
  | nil => exact trivial
  | cons label rest ih =>
      apply within_bind
      · exact silent_statement setup _ trivial
      intro loaded
      split
      · exact ih
      · exact trivial

theorem silent_join (left : Nat) (tally : Worker.Tally) : Silent setup (Worker.joinAll left tally).run := by
  induction left generalizing tally with
  | zero => exact trivial
  | succ left ih =>
      apply within_task_bind
      · exact within_always _ _ ⟨trivial, fun _ => trivial⟩
      intro result
      cases result with
      | none => exact trivial
      | some result => exact within_task_bind _ _ _ trivial fun outcome => ih _

theorem silent_abort (item : WorkItem) (label : String) :
    Silent setup (Worker.abortAndClearResume item label) := by
  apply within_bind
  · exact silent_statement setup _ trivial
  intro loaded
  apply within_bind
  · unfold Worker.abortLoaded
    split
    · exact within_best_effort _ _ ⟨trivial, fun _ => trivial⟩
    · exact trivial
  · exact fun _ => within_best_effort _ _ (silent_statement setup _ trivial)

theorem silent_abort_each (item : WorkItem) (labels : List String) :
    Silent setup (Worker.abortEach item labels) := by
  induction labels with
  | nil => exact trivial
  | cons label rest ih => exact within_bind _ _ _ (silent_abort setup item label) fun _ => ih

theorem silent_reverify_each (it : WorkItem) (labels : List String) :
    Silent setup (Worker.reverifyEach it labels).run := by
  induction labels with
  | nil => exact trivial
  | cons label rest ih =>
      apply within_task_bind
      · apply within_task_bind
        · exact silent_statement setup _ trivial
        intro resume
        apply within_task_bind
        · exact within_always _ _ ⟨trivial, fun _ => trivial⟩
        intro verdict
        cases verdict with
        | ok passed => exact within_task_bind _ _ _ (silent_statement setup _ trivial) fun _ => trivial
        | error e =>
            apply within_task_bind
            · exact silent_statement setup _ trivial
            intro _
            apply within_task_bind
            · exact within_always _ _ (within_best_effort _ _ (silent_statement setup _ trivial))
            · exact fun _ => trivial
      · exact fun ok => within_task_bind _ _ _ ih fun _ => trivial

theorem silent_reverify (it : WorkItem) :
    Silent setup (Worker.reverifyPersistedVerified setup it).run := by
  apply within_task_bind
  · exact silent_statement setup _ trivial
  · exact fun existing => within_task_bind _ _ _ (silent_reverify_each setup it _) fun _ => trivial

theorem silent_promote_each (now : Int) (rows : List WorkItem) :
    Silent setup (Instance.promoteEach now rows).run := by
  induction rows with
  | nil => exact trivial
  | cons item rest ih => exact within_task_bind _ _ _ (silent_statement setup _ nofun) fun _ => ih

theorem silent_promote (now : Int) : Silent setup (bestEffort (Instance.promoteDue now)) := by
  apply within_best_effort
  apply within_task_bind
  · exact silent_statement setup _ trivial
  · exact fun failed => silent_promote_each setup now _

theorem silent_enqueue (now : Int) (candidates : List Operations.Candidate) :
    Silent setup (Instance.enqueueEach now candidates) := by
  induction candidates with
  | nil => exact trivial
  | cons c rest ih =>
      exact within_bind _ _ _ (within_best_effort _ _ (silent_statement setup _ trivial)) fun _ => ih

theorem silent_disk {α : Type} (program : FsProg α) : Silent setup (Operations.onDisk program) := by
  induction program with
  | done value => exact trivial
  | call operation next ih => exact ⟨trivial, ih⟩

/-! What tells. -/

variable (now : Int) (timely : Timely setup now)

theorem exhausted_steady (item : WorkItem) (lastError : String) (attempts : Nat) (now : Int) :
    Steady (teller setup) Calm
      (LifecycleEvents.finishExhausted setup item lastError attempts now).run := by
  unfold LifecycleEvents.finishExhausted
  split
  · apply steady_task_bind
    · exact steady_lift setup _ (silent_statement setup _ nofun)
    · exact fun _ => steady_return _ _ _
  · intro n calm
    -- the job that is started is the one that is told
    apply keeps_task_bind
    apply keeps_always
    apply keeps_lift
    refine ⟨trivial, fun handle _ => ?_⟩
    apply keeps_task_bind
    apply keeps_always
    apply keeps_lift
    refine ⟨trivial, fun joined _ => ?_⟩
    have calm' : Calm { n with job := some (Worker.quarantineJob setup item lastError attempts now) } :=
      ⟨calm.owed, calm.attempt, calm.fresh⟩
    have same : (inner setup).learn ((inner setup).learn n
        (.startQuarantine (Worker.quarantineJob setup item lastError attempts now)) handle)
        (.awaitQuarantine handle) joined =
        { n with job := some (Worker.quarantineJob setup item lastError attempts now) } := rfl
    rw [same]
    refine keeps_told setup (.setState item.relpath .quarantined now) _ _ calm'.owed ?_
      (fun _ => rfl) _ _ calm' fun _ => calm'
    exact if_pos (Eq.refl item.relpath)

include timely

theorem failure_steady (item : WorkItem) (e : ReplError) :
    Steady (teller setup) Calm (LifecycleEvents.recordCleanupFailure setup item e now).run := by
  apply steady_task_bind
  · exact steady_always _ _ _ (steady_lift setup _ ⟨trivial, fun _ => trivial⟩)
  intro jitter
  cases decided : setup.retry.decideCleanup e.isPermanent item.cleanupAttempts now jitter with
  | retry gate =>
      apply steady_task_bind
      · refine steady_lift setup _ ⟨?_, fun _ => trivial⟩
        exact gate_timely setup now timely _ _ _ gate decided
      · exact fun _ => steady_return _ _ _
  | giveUp =>
      intro n calm
      refine keeps_told setup (.recordCleanupAttempt item.relpath e.text .cleanupFailed cleanupNoRetry now)
        _ n calm.owed ?_ (fun _ => rfl) _ _ calm fun _ => calm
      rw [Notes.statement, if_pos rfl]
      rfl

theorem cleanup_steady (item : WorkItem) :
    Steady (teller setup) Calm (LifecycleEvents.runCleanup setup item now).run := by
  apply steady_task_bind
  · exact steady_lift setup _ (silent_statement setup _ nofun)
  intro _
  apply steady_task_bind
  · exact steady_always _ _ _ (steady_lift setup _ (silent_checksum setup _ _))
  intro checksum n calm
  apply keeps_task_bind
  apply keeps_always
  apply keeps_lift
  refine ⟨trivial, fun handle _ => ?_⟩
  apply keeps_task_bind
  apply keeps_always
  apply keeps_lift
  refine ⟨trivial, fun outcome _ => ?_⟩
  have acted : Acted item.relpath (Worker.joinOutcome outcome) ((inner setup).learn
      ((inner setup).learn n (.startAction (Worker.cleanupCtx setup item checksum)) handle)
      (.awaitAction handle) outcome) :=
    ⟨⟨calm.owed, calm.attempt, calm.fresh⟩, ⟨_, rfl, rfl⟩, rfl⟩
  change Keeps (teller setup) (settleCleanup setup item now (Worker.joinOutcome outcome)).run _ _
  generalize Worker.joinOutcome outcome = result at acted ⊢
  cases result with
  | ok done => exact finish_steady setup item done now _ acted
  | error e => exact failure_steady setup now timely item e _ acted.calm

theorem cleanup_each_steady (rows : List WorkItem) :
    Steady (teller setup) Calm (LifecycleEvents.cleanupEach setup now rows).run := by
  induction rows with
  | nil => exact steady_return _ _ _
  | cons item rest ih =>
      exact steady_task_bind _ _ _ _ (cleanup_steady setup now timely item) fun _ => ih

theorem drive_steady (redriveAll : Bool) :
    Steady (teller setup) Calm (LifecycleEvents.driveCleanup setup now redriveAll).run := by
  apply steady_task_bind
  · exact steady_lift setup _ (silent_statement setup _ trivial)
  intro pending
  apply steady_task_bind
  · exact steady_lift setup _ (silent_statement setup _ trivial)
  · exact fun failed => cleanup_each_steady setup now timely _

theorem item_steady (item : WorkItem) :
    Steady (teller setup) Calm (LifecycleEvents.processItem setup item now) := by
  apply steady_best_effort
  apply steady_task_bind
  · exact steady_lift setup _ (silent_statement setup _ trivial)
  intro existing
  apply steady_task_bind
  · refine steady_lift setup _ (within_task_bind _ _ _ ?_ fun _ => silent_join setup _ _)
    exact within_always _ _ ⟨trivial, fun _ => trivial⟩
  intro tally
  unfold LifecycleEvents.conclude
  split
  · apply steady_task_bind
    · exact steady_always _ _ _ (steady_lift setup _ (silent_abort_each setup _ _))
    intro _
    apply steady_task_bind
    · exact steady_lift setup _ (silent_statement setup _ trivial)
    intro _
    apply steady_task_bind
    · refine steady_lift setup _ ?_
      unfold Worker.countFailure
      split
      · exact silent_statement setup _ rfl
      · exact trivial
    · exact fun _ => exhausted_steady setup item _ _ now
  · split
    · apply steady_task_bind
      · exact steady_lift setup _ (silent_statement setup _ nofun)
      · exact fun _ => cleanup_steady setup now timely item
    · refine steady_lift setup _ ?_
      exact within_task_bind _ _ _ (silent_statement setup _ trivial) fun _ => trivial

theorem recover_verified_steady (it : WorkItem) :
    Steady (teller setup) Calm (LifecycleEvents.recoverVerified setup it now).run := by
  apply steady_task_bind
  · exact steady_lift setup _ (silent_reverify_each setup it _)
  intro allOk
  cases allOk with
  | true => exact steady_task_bind _ _ _ _ (cleanup_steady setup now timely it) fun _ => steady_return _ _ _
  | false => exact steady_lift setup _ (silent_statement setup _ nofun)

theorem recover_one_steady (it : WorkItem) :
    Steady (teller setup) Calm (LifecycleEvents.recoverOne setup now it).run := by
  unfold LifecycleEvents.recoverOne
  split
  · exact recover_verified_steady setup now timely it
  · exact steady_task_bind _ _ _ _ (cleanup_steady setup now timely it) fun _ => steady_return _ _ _
  · apply steady_task_bind
    · exact steady_lift setup _ (silent_reverify setup it)
    · exact fun _ => steady_lift setup _ (silent_statement setup _ nofun)
  · exact steady_return _ _ _

theorem recover_steady :
    Steady (teller setup) Calm (bestEffort (LifecycleEvents.recover setup now)) := by
  have each : ∀ rows, Steady (teller setup) Calm (LifecycleEvents.recoverEach setup now rows).run := by
    intro rows
    induction rows with
    | nil => exact steady_return _ _ _
    | cons it rest ih =>
        exact steady_task_bind _ _ _ _ (recover_one_steady setup now timely it) fun _ => ih
  have exhaust : ∀ rows, Steady (teller setup) Calm (LifecycleEvents.exhaustEach setup now rows).run := by
    intro rows
    induction rows with
    | nil => exact steady_return _ _ _
    | cons it rest ih =>
        exact steady_task_bind _ _ _ _ (exhausted_steady setup it _ _ now) fun _ => ih
  apply steady_best_effort
  apply steady_task_bind
  · exact steady_lift setup _ (silent_statement setup _ trivial)
  intro rows
  apply steady_task_bind
  · exact each rows
  intro _
  apply steady_task_bind
  · exact steady_lift setup _ (silent_statement setup _ trivial)
  · exact exhaust

/-! Ticks. -/

theorem pause_revert_steady (relpaths : List String) :
    Steady (teller setup) Calm (LifecycleEvents.pauseRevert setup now relpaths) := by
  induction relpaths with
  | nil => exact steady_return _ _ _
  | cons relpath rest ih =>
      apply steady_bind
      · exact steady_lift setup _ (silent_statement setup _ trivial)
      intro loaded
      refine steady_bind _ _ _ _ ?_ fun _ => ih
      unfold LifecycleEvents.revertLoaded
      split
      · unfold LifecycleEvents.revertRow
        split
        · exact steady_best_effort _ _ _ (steady_lift setup _ (silent_statement setup _ nofun))
        · exact steady_best_effort _ _ _ (recover_verified_steady setup now timely _)
        · exact steady_best_effort _ _ _ (cleanup_steady setup now timely _)
        · exact steady_return _ _ _
      · exact steady_return _ _ _

theorem silent_admitted (drain : Bool) (fuel : Nat) :
    Silent setup (Instance.runAdmitted setup drain now fuel) := by
  induction fuel with
  | zero => exact trivial
  | succ fuel ih =>
      apply within_bind
      · exact silent_statement setup _ trivial
      intro claimed
      split
      · exact trivial
      · exact trivial
      · refine within_bind _ _ _ ⟨timely, fun _ => ⟨trivial, fun _ => trivial⟩⟩ fun _ => ?_
        cases drain with
        | true => exact ih
        | false => exact trivial

theorem windowed_steady (onClose : Operations.WindowClose) (fuel : Nat) :
    Steady (teller setup) Calm (LifecycleEvents.runWindowed setup onClose now fuel) := by
  induction fuel with
  | zero => exact steady_return _ _ _
  | succ fuel ih =>
      rw [LifecycleEvents.runWindowed]
      apply steady_bind
      · exact steady_lift setup _ ⟨trivial, fun _ => trivial⟩
      intro passed
      cases passed with
      | true => exact steady_return _ _ _
      | false =>
          apply steady_bind
          · exact steady_lift setup _ (silent_statement setup _ trivial)
          intro claimed
          split
          · exact steady_return _ _ _
          · exact steady_return _ _ _
          · apply steady_bind
            · apply steady_bind
              · exact steady_lift setup _ ⟨timely, fun _ => trivial⟩
              intro _
              apply steady_bind
              · exact steady_lift setup _ ⟨trivial, fun _ => trivial⟩
              intro event
              cases event with
              | drained => exact steady_return _ _ _
              | closed =>
                  refine steady_bind _ _ _ _ ?_ fun _ => steady_return _ _ _
                  unfold LifecycleEvents.closeBatch
                  split
                  · apply steady_bind
                    · exact steady_lift setup _ ⟨trivial, fun _ => trivial⟩
                    intro _
                    apply steady_bind
                    · exact steady_lift setup _ ⟨trivial, fun _ => trivial⟩
                    · exact fun _ => pause_revert_steady setup now timely _
                  · apply steady_bind
                    · exact steady_lift setup _ ⟨trivial, fun _ => trivial⟩
                    · exact fun _ => steady_return _ _ _
            · intro closed
              cases closed with
              | true => exact steady_return _ _ _
              | false => exact ih

theorem tick_steady (ignoreWindow redriveCleanup : Bool) (fuel : Nat) :
    Steady (teller setup) Calm (LifecycleEvents.runTick setup now ignoreWindow redriveCleanup fuel) := by
  apply steady_bind
  · exact steady_lift setup _ ⟨trivial, fun _ => trivial⟩
  intro active
  cases active with
  | false => exact steady_return _ _ _
  | true =>
      apply steady_bind
      · exact steady_lift setup _ ⟨trivial, fun _ => trivial⟩
      intro _
      apply steady_bind
      · exact steady_lift setup _ ⟨trivial, fun _ => trivial⟩
      intro ready
      apply steady_bind
      · exact steady_lift setup _ (silent_enqueue setup now ready)
      intro _
      apply steady_bind
      · exact steady_lift setup _ (silent_promote setup now)
      intro _
      apply steady_bind
      · exact steady_best_effort _ _ _ (drive_steady setup now timely redriveCleanup)
      intro _
      apply steady_bind
      · refine steady_lift setup _ ?_
        cases ignoreWindow with
        | true => exact trivial
        | false => exact ⟨trivial, fun _ => trivial⟩
      intro admitted
      apply steady_bind
      · cases admitted with
        | all drain => exact steady_lift setup _ (silent_admitted setup now timely drain fuel)
        | none => exact steady_return _ _ _
        | windowed onClose => exact windowed_steady setup now timely onClose fuel
      · exact fun _ => steady_lift setup _ ⟨trivial, fun _ => trivial⟩

omit timely

/-! Attempts. -/

/-- The attempt has begun, and this has become of its delivery. -/
structure Trying (ctx : AttemptCtx) (outcome : Except ReplError Delivered) (n : Notes) : Prop where
  owed : n.owed = none
  attempt : n.attempt = some ctx
  fresh : n.fresh = false
  outcome : n.outcome = some outcome

theorem deliver_tried (ctx : AttemptCtx) (resume : Option ResumeState) (n : Notes)
    (nothing : n.owed = none) (attempt : n.attempt = some ctx) (begun : n.fresh = false) :
    Keeps (inner setup) (Worker.deliverAndVerify setup ctx resume).run n
      fun outcome after => Trying ctx outcome after := by
  apply keeps_task_bind
  refine ⟨trivial, fun delivered _ => ?_⟩
  cases delivered with
  | error e => exact ⟨nothing, attempt, begun, rfl⟩
  | ok delivered =>
      apply keeps_task_bind
      refine ⟨trivial, fun verdict _ => ?_⟩
      cases verdict with
      | error e => exact ⟨nothing, attempt, begun, rfl⟩
      | ok passed => exact ⟨nothing, attempt, begun, rfl⟩

theorem abort_keeps (item : WorkItem) (label : String) (n : Notes) (begun : n.fresh = false) :
    Keeps (inner setup) (Worker.abortAndClearResume item label) n fun _ after => after = n := by
  have loaded : ∀ ret, n.observe (.work (.store (.loadResume item.relpath label))) ret = n := by
    intro ret
    show { n with fresh := false } = n
    rw [← begun]
  apply keeps_bind
  refine keeps_silent setup (.loadResume item.relpath label) n _ begun loaded fun resume => ?_
  have cleared : Keeps (inner setup) (bestEffort (Operations.clearResume item.relpath label)) n
      fun _ after => after = n := by
    apply keeps_best_effort
    exact keeps_silent setup (.clearResume item.relpath label) n _ rfl (fun _ => rfl) fun _ => rfl
  apply keeps_bind
  unfold Worker.abortLoaded
  split
  · apply keeps_best_effort
    refine ⟨trivial, fun aborted _ => ?_⟩
    exact cleared
  · exact cleared

theorem denied_keeps (ctx : AttemptCtx) (e : ReplError) (n : Notes) (trying : Trying ctx (.error e) n) :
    Keeps (teller setup) (reportDenied ctx e) n fun _ after => after = n := by
  unfold reportDenied
  split
  · rename_i is
    have denied : n.denied ctx.label = some (.permissionDenied ctx.label "egress" e.text) := by
      rw [Notes.denied, trying.outcome]
      exact if_pos is
    apply keeps_bind
    refine ⟨⟨trying.owed, by rw [denied]; rfl⟩, fun logged _ => ?_⟩
    have unchanged : Notes.mk n.attempt n.fresh n.outcome n.action n.result n.completed n.job none = n := by
      rw [← trying.owed]
    cases logged with
    | true =>
        have owed : (n.denied ctx.label).or n.owed =
            some (.permissionDenied ctx.label "egress" e.text) := by
          rw [denied]
          rfl
        exact ⟨owed, fun _ _ => unchanged⟩
    | false =>
        show Notes.mk n.attempt n.fresh n.outcome n.action n.result n.completed n.job n.owed = n
        rfl
  · rfl

structure Ended (n : Notes) : Prop where
  owed : n.owed = none
  fresh : n.fresh = false

theorem failed_ends (ctx : AttemptCtx) (e : ReplError) (n : Notes) (trying : Trying ctx (.error e) n) :
    Keeps (teller setup) (LifecycleEvents.failedAttempt setup ctx e).run n fun _ after => Ended after := by
  apply keeps_task_bind
  apply keeps_always
  apply keeps_mono _ _ _ _ _ (denied_keeps setup ctx e n trying)
  rintro _ _ rfl
  rename_i n
  apply keeps_task_bind
  apply keeps_always
  apply keeps_lift
  refine ⟨trivial, fun jitter _ => ?_⟩
  show Keeps (teller setup) (ExceptT.run _) n _
  have ended : Ended n := ⟨trying.owed, trying.fresh⟩
  generalize setup.retry.decide _ _ _ jitter = decision
  cases decision with
  | retry gate =>
      refine keeps_told setup (.recordDestAttempt ctx.item.relpath ctx.label e.text .pending gate) _ n
        trying.owed ?_ (fun _ => rfl) _ _ ended fun _ => ended
      show n.attempt.map _ = _
      rw [trying.attempt]
      rfl
  | giveUp =>
      have statement : n.statement setup
          (.recordDestAttempt ctx.item.relpath ctx.label e.text .exhausted ctx.now) =
          some (.retriesExhausted ctx.item.relpath ctx.label (nextAttempt ctx.attemptsSoFar) e.text) := by
        show n.attempt.map _ = _
        rw [trying.attempt]
        rfl
      apply keeps_task_bind
      apply keeps_mono _ _ _ _ _ (keeps_lift setup _ _ _
        (owes_statement setup _ _ n trying.owed statement fun _ => rfl))
      intro recorded after holds
      cases recorded with
      | error e => exact (show after = n from holds) ▸ ended
      | ok recorded =>
          obtain rfl : after = _ := holds
          apply keeps_task_bind
          apply keeps_always
          apply keeps_lift
          have begun : (Notes.mk n.attempt n.fresh n.outcome n.action n.result n.completed n.job
              (some (.retriesExhausted ctx.item.relpath ctx.label (nextAttempt ctx.attemptsSoFar)
                e.text))).fresh = false := trying.fresh
          apply keeps_mono _ _ _ _ _ (abort_keeps setup ctx.item ctx.label _ begun)
          rintro _ _ rfl
          apply keeps_task_bind
          apply keeps_always
          exact ⟨rfl, fun _ _ => ⟨rfl, trying.fresh⟩⟩

theorem delivered_ends (ctx : AttemptCtx) (delivered : Delivered) (n : Notes)
    (trying : Trying ctx (.ok delivered) n) :
    Keeps (teller setup) (LifecycleEvents.deliveredAttempt ctx delivered).run n
      fun _ after => Ended after := by
  have ended : Ended n := ⟨trying.owed, trying.fresh⟩
  have statement : n.statement setup (.setDestPhase ctx.item.relpath ctx.label .verified) =
      some (.replicationCompleted ctx.item.relpath ctx.item.size ctx.label delivered.bytes) := by
    show n.replicated _ _ = _
    rw [Notes.replicated, trying.attempt, trying.outcome]
  have settled : Keeps (inner setup) (Worker.deliveredAttempt ctx delivered).run n
      (Either (fun after => after = { n with owed := some (.replicationCompleted ctx.item.relpath
        ctx.item.size ctx.label delivered.bytes) }) fun after => after = n) := by
    apply keeps_task_bind
    apply keeps_always
    apply keeps_best_effort
    refine keeps_silent setup (.saveResume ctx.item.relpath ctx.label _) n _ rfl (fun _ => rfl)
      fun _ => ?_
    apply keeps_task_bind
    apply keeps_mono _ _ _ _ _ (owes_statement setup _ _ n trying.owed statement fun _ => rfl)
    intro result after holds
    cases result with
    | ok value => exact holds
    | error e => exact holds
  apply keeps_task_bind
  apply keeps_mono _ _ _ _ _ (keeps_lift setup _ _ _ settled)
  intro result after holds
  cases result with
  | error e => exact (show after = n from holds) ▸ ended
  | ok value =>
      obtain rfl : after = _ := holds
      apply keeps_task_bind
      apply keeps_always
      exact ⟨rfl, fun _ _ => ⟨rfl, trying.fresh⟩⟩

theorem attempt_ends (owner : Nat) (ctx : AttemptCtx) :
    Keeps (teller setup) (LifecycleEvents.runAttempt setup ctx) (start (.attempt owner ctx))
      fun _ after => after.owed = none := by
  have ran : Keeps (teller setup) (LifecycleEvents.runOneDest setup ctx).run (start (.attempt owner ctx))
      fun _ after => Ended after := by
    apply keeps_task_bind
    apply keeps_lift
    refine ⟨fun _ => ⟨rfl, rfl⟩, fun resume _ => ?_⟩
    cases resume with
    | error e => exact ⟨rfl, rfl⟩
    | ok resume =>
        apply keeps_task_bind
        apply keeps_always
        refine ⟨rfl, fun _ _ => ?_⟩
        apply keeps_task_bind
        apply keeps_always
        apply keeps_lift
        apply keeps_mono _ _ _ _ _ (deliver_tried setup ctx resume _ rfl rfl rfl)
        intro outcome after trying
        cases outcome with
        | ok delivered => exact delivered_ends setup ctx delivered after trying
        | error e => exact failed_ends setup ctx e after trying
  apply keeps_bind
  apply keeps_mono _ _ _ _ _ ran
  intro result after ended
  exact ⟨trivial, fun _ _ => ended.owed⟩

/-- The clock of a thread that may try something again later. -/
def TimelySpec : Spec → Prop
  | .recover now | .tick now _ _ _ | .item _ _ now => Timely setup now
  | _ => True

/-- Every thread tells what it gives to tell before it gives more, and before its end. -/
theorem main_keeps (spec : Spec) (timely : TimelySpec setup spec) :
    Keeps (teller setup) (LifecycleEvents.main setup spec) (start spec) fun _ n => n.owed = none := by
  have calm : Calm blank := ⟨rfl, rfl, rfl⟩
  have steady : ∀ {program : Program Unit}, Steady (teller setup) Calm program →
      Keeps (teller setup) program blank fun _ n => n.owed = none := fun steady =>
    keeps_mono _ _ _ _ _ (steady blank calm) fun _ _ still => still.owed
  cases spec with
  | recover now => exact steady (recover_steady setup now timely)
  | tick now ignoreWindow redriveCleanup fuel =>
      exact steady (tick_steady setup now timely ignoreWindow redriveCleanup fuel)
  | item owner item now => exact steady (item_steady setup now timely item)
  | attempt owner ctx => exact attempt_ends setup owner ctx
  | action handle ctx =>
      refine steady (steady_lift setup _ (within_bind _ _ _ (silent_disk setup _) fun _ => ?_))
      exact ⟨trivial, fun _ => trivial⟩
  | quarantine handle job =>
      refine steady (steady_lift setup _ (within_bind _ _ _ (silent_disk setup _) fun _ => ?_))
      exact ⟨trivial, fun _ => trivial⟩

end FileReplicator.Telling
