import FileReplicator.EventPlans
import FileReplicator.Instance

/-!
# The events of a file's life

The threads of an instance with the events that they emit on the way: an attempt
that starts and how it ends, a source that is deleted or archived, a clean-up that
is given up, a file that goes to quarantine. Progress is not told here. Without its
events each thread is the one it was.
-/

namespace FileReplicator.LifecycleEvents

open Domain DurableStore Effects FileTree SourceActions Retry DurationText
open Operations (Setup AttemptCtx DestOutcome WindowClose Admission Candidate)
open EventPlans (Event)
open Instance (Spec)

abbrev Told := Event Int Float64

inductive Op where
  | work (operation : Operations.Op)
  /-- `PermissionLog::should_log`, for a denied permission. -/
  | shouldLog (path : String) (now : Int)
  | emit (event : Told)

abbrev Ret : Op → Type
  | .work operation => Operations.Ret operation
  | .shouldLog _ _ => Bool
  | .emit _ => Unit

abbrev Program (α : Type) := Prog Op Ret α

abbrev Work (α : Type) := Task Op Ret ReplError α

def shouldLog (path : String) (now : Int) : Program Bool := Prog.perform (Op.shouldLog path now)

def emit (event : Told) : Program Unit := Prog.perform (Op.emit event)

def lift {α : Type} (program : Operations.Program α) : Program α :=
  program.into fun operation => Prog.perform (Op.work operation)

def lifted {α : Type} (task : Operations.Work α) : Work α := ExceptT.mk (lift task.run)

section

variable (setup : Setup)

def display (path : Path) : String := "/".intercalate path

def isPermissionDenied : ReplError → Bool
  | .permissionDenied _ | .io .permissionDenied _ => true
  | _ => false

/-- The log goes by destinations; the event gives the label for the path. -/
def reportDenied (ctx : AttemptCtx) (e : ReplError) : Program Unit :=
  if isPermissionDenied e then do
    if ← shouldLog ctx.label ctx.now then emit (.permissionDenied ctx.label "egress" e.text)
    else return ()
  else return ()

def failedAttempt (ctx : AttemptCtx) (e : ReplError) : Work (String × DestOutcome) := do
  always (reportDenied ctx e)
  let jitter ← always (lift Operations.draw)
  match setup.retry.decide { ctx.item with attempts := ctx.attemptsSoFar } e.isPermanent ctx.now
      jitter with
  | .retry nextAttemptAt => do
      lifted (Operations.recordDestAttempt ctx.item.relpath ctx.label e.text .pending nextAttemptAt)
      always (emit (.replicationFailed ctx.item.relpath ctx.label (nextAttempt ctx.attemptsSoFar)
        e.text (some nextAttemptAt)))
      return (ctx.label, .retry nextAttemptAt e.text)
  | .giveUp => do
      lifted (Operations.recordDestAttempt ctx.item.relpath ctx.label e.text .exhausted ctx.now)
      always (lift (Worker.abortAndClearResume ctx.item ctx.label))
      always (emit (.retriesExhausted ctx.item.relpath ctx.label (nextAttempt ctx.attemptsSoFar)
        e.text))
      return (ctx.label, .giveUp e.text (nextAttempt ctx.attemptsSoFar))

def deliveredAttempt (ctx : AttemptCtx) (delivered : Delivered) : Work (String × DestOutcome) := do
  let settled ← lifted (Worker.deliveredAttempt ctx delivered)
  always (emit (.replicationCompleted ctx.item.relpath ctx.item.size ctx.label delivered.bytes))
  return settled

def settleAttempt (ctx : AttemptCtx) : Except ReplError Delivered → Work (String × DestOutcome)
  | .ok delivered => deliveredAttempt ctx delivered
  | .error e => failedAttempt setup ctx e

def runOneDest (ctx : AttemptCtx) : Work (String × DestOutcome) := do
  let resume ← lifted (Operations.loadResume ctx.item.relpath ctx.label)
  always (emit (.replicationStarted ctx.item.relpath ctx.item.size ctx.label
    (nextAttempt ctx.attemptsSoFar)))
  let outcome ← always (lift (Worker.deliverAndVerify setup ctx resume).run)
  settleAttempt setup ctx outcome

/-! ## Completion -/

/-- The source-side event, of the action that happened. -/
def completionEvent (relpath : String) : CleanupDone → Told
  | .deleted => .fileDeleted relpath
  | .archived target => .fileArchived relpath (target.map display)

def finishCompleted (item : WorkItem) (done : CleanupDone) (now : Int) : Work ItemState := do
  let state ← lifted (Worker.finishCompleted item now)
  always (emit (completionEvent item.relpath done))
  return state

/-- `CleanupCtx::action`. -/
def actionName : OnSuccess → String
  | .delete => "delete"
  | .archive => "archive"

def recordCleanupFailure (item : WorkItem) (error : ReplError) (now : Int) : Work ItemState := do
  let jitter ← always (lift Operations.draw)
  match setup.retry.decideCleanup error.isPermanent item.cleanupAttempts now jitter with
  | .retry nextAttemptAt => do
      lifted (Operations.recordCleanupAttempt item.relpath error.text .cleanupFailed nextAttemptAt now)
      return .cleanupFailed
  | .giveUp => do
      lifted (Operations.recordCleanupAttempt item.relpath error.text .cleanupFailed cleanupNoRetry now)
      always (emit (.fileCleanupFailed item.relpath (actionName setup.completion.onSuccess)
        (nextAttempt item.cleanupAttempts) error.text))
      return .cleanupFailed

def settleCleanup (item : WorkItem) (now : Int) : Except ReplError CleanupDone → Work ItemState
  | .ok done => finishCompleted item done now
  | .error e => recordCleanupFailure setup item e now

def runCleanup (item : WorkItem) (now : Int) : Work ItemState := do
  lifted (Operations.setState item.relpath .cleanupPending now)
  let checksum ← always (lift (Worker.deliveredChecksum item.relpath setup.labels))
  let handle ← always (lift (Operations.startAction (Worker.cleanupCtx setup item checksum)))
  let outcome ← always (lift (Operations.awaitAction handle))
  settleCleanup setup item now (Worker.joinOutcome outcome)

def cleanupEach (now : Int) : List WorkItem → Work Unit
  | [] => return ()
  | item :: rest => do
      let _ ← runCleanup setup item now
      cleanupEach now rest

def driveCleanup (now : Int) (redriveAll : Bool) : Work Unit := do
  let pending ← lifted (Operations.listByState .cleanupPending)
  let failed ← lifted (Operations.listByState .cleanupFailed)
  cleanupEach setup now (pending ++ failed.filter fun item => redriveAll || item.nextAttemptAt ≤ now)

def quarantinePath (relpath : String) : Option String :=
  setup.completion.failedDir.map fun dir => display (joinRel dir relpath)

def finishExhausted (item : WorkItem) (lastError : String) (attempts : Nat) (now : Int) :
    Work ItemState :=
  match setup.completion.onExhausted with
  | .retainInPlace => do
      lifted (Operations.setState item.relpath .retained now)
      return .retained
  | .quarantine => do
      let handle ← always (lift (Operations.startQuarantine
        (Worker.quarantineJob setup item lastError attempts now)))
      let _ ← always (lift (Operations.awaitQuarantine handle))
      lifted (Operations.setState item.relpath .quarantined now)
      always (emit (.fileQuarantined item.relpath attempts lastError
        (quarantinePath setup item.relpath)))
      return .quarantined

def exhaustEach (now : Int) : List WorkItem → Work Unit
  | [] => return ()
  | item :: rest => do
      let _ ← finishExhausted setup item (item.lastError.getD "exhausted") item.attempts now
      exhaustEach now rest

def exhaustItem (item : WorkItem) (existing : String → Option DestState) (now : Int)
    (tally : Worker.Tally) : Work ItemState := do
  always (lift (Worker.abortEach item
    (tally.retries.map (·.1) ++ Worker.notDueLabels setup existing now)))
  lifted (Operations.rollUpItem item.relpath .exhausted (Worker.maxAttempts tally.giveups) now
    (some (Worker.giveUpText tally.giveups)) now)
  lifted (Worker.countFailure (Worker.newlyExhausted existing tally.giveups))
  finishExhausted setup item (Worker.giveUpText tally.giveups) (Worker.maxAttempts tally.giveups) now

def completeItem (item : WorkItem) (now : Int) : Work ItemState := do
  lifted (Operations.setState item.relpath .verified now)
  runCleanup setup item now

def conclude (item : WorkItem) (existing : String → Option DestState) (now : Int)
    (tally : Worker.Tally) : Work ItemState :=
  if tally.giveups ≠ [] then exhaustItem setup item existing now tally
  else if tally.verified.length = setup.labels.length then completeItem setup item now
  else lifted (Worker.retryItem setup item existing now tally)

def runPipeline (item : WorkItem) (now : Int) : Work ItemState := do
  let existing ← lifted (Operations.destStates item.relpath)
  let tally ← lifted (Worker.fanOut setup item existing now)
  conclude setup item existing now tally

def processItem (item : WorkItem) (now : Int) : Program Unit :=
  bestEffort (runPipeline setup item now)

def recoverVerified (it : WorkItem) (now : Int) : Work Unit := do
  let allOk ← lifted (Worker.reverifyEach it setup.labels)
  if allOk then
    let _ ← runCleanup setup it now
    return ()
  else lifted (Operations.setState it.relpath .ready now)

def recoverOne (now : Int) (it : WorkItem) : Work Unit :=
  match it.state with
  | .verified => recoverVerified setup it now
  | .cleanupPending => do
      let _ ← runCleanup setup it now
      return ()
  | .inProgress => do
      lifted (Worker.reverifyPersistedVerified setup it)
      lifted (Operations.setState it.relpath .ready now)
  | _ => return ()

def recoverEach (now : Int) : List WorkItem → Work Unit
  | [] => return ()
  | it :: rest => do
      recoverOne setup now it
      recoverEach now rest

def recover (now : Int) : Work Unit := do
  let rows ← lifted Operations.recoverIncomplete
  recoverEach setup now rows
  let left ← lifted (Operations.listByState .exhausted)
  exhaustEach setup now left

/-! ## A tick -/

def revertRow (now : Int) (row : WorkItem) : Program Unit :=
  match row.state with
  | .inProgress => bestEffort (lifted (Operations.setState row.relpath .ready now))
  | .verified => bestEffort (recoverVerified setup row now)
  | .cleanupPending => bestEffort (runCleanup setup row now)
  | _ => return ()

def revertLoaded (now : Int) : Except ReplError (Option WorkItem) → Program Unit
  | .ok (some row) => revertRow setup now row
  | _ => return ()

def pauseRevert (now : Int) : List String → Program Unit
  | [] => return ()
  | relpath :: rest => do
      let row ← lift (Operations.getRow relpath).run
      revertLoaded setup now row
      pauseRevert now rest

def closeBatch (batch : List WorkItem) (now : Int) (onClose : WindowClose) : Program Unit :=
  if onClose = .pauseResume ∧ setup.supportsResume = true then do
    lift Operations.abortBatch
    let _ ← lift (Operations.nextOfBatch false)
    pauseRevert setup now (batch.map WorkItem.relpath)
  else do
    let _ ← lift (Operations.nextOfBatch false)
    return ()

def runBatchWindowed (batch : List WorkItem) (now : Int) (onClose : WindowClose) :
    Program Bool := do
  lift (Operations.spawnBatch batch now)
  match ← lift (Operations.nextOfBatch true) with
  | .drained => return false
  | .closed => do
      closeBatch setup batch now onClose
      return true

def runWindowed (onClose : WindowClose) (now : Int) : Nat → Program Unit
  | 0 => return ()
  | fuel + 1 => do
      if ← lift Operations.deadlinePassed then return ()
      else
        match ← lift (Operations.claimReady setup.perLimit now).run with
        | .error _ => return ()
        | .ok [] => return ()
        | .ok batch => do
            if ← runBatchWindowed setup batch now onClose then return ()
            else runWindowed onClose now fuel

def runAdmission (fuel : Nat) (now : Int) : Admission → Program Unit
  | .all drain => lift (Instance.runAdmitted setup drain now fuel)
  | .none => return ()
  | .windowed onClose => runWindowed setup onClose now fuel

def tickBody (now : Int) (ignoreWindow redriveCleanup : Bool) (fuel : Nat) : Program Unit := do
  lift Operations.lockTick
  let ready ← lift Operations.discover
  lift (Instance.enqueueEach now ready)
  lift (bestEffort (Instance.promoteDue now))
  bestEffort (driveCleanup setup now redriveCleanup)
  let admitted ← lift (Instance.admission ignoreWindow)
  runAdmission setup fuel now admitted
  lift Operations.unlockTick

def runTick (now : Int) (ignoreWindow redriveCleanup : Bool) (fuel : Nat) : Program Unit := do
  if ← lift Operations.isActive then tickBody setup now ignoreWindow redriveCleanup fuel
  else return ()

def runAttempt (ctx : AttemptCtx) : Program Unit := do
  let result ← (runOneDest setup ctx).run
  lift (Operations.endAttempt result)

def main : Spec → Program Unit
  | .recover now => bestEffort (recover setup now)
  | .tick now ignoreWindow redriveCleanup fuel =>
      runTick setup now ignoreWindow redriveCleanup fuel
  | .item _ item now => processItem setup item now
  | .attempt _ ctx => runAttempt setup ctx
  | .action _ ctx => lift (Instance.runAction setup ctx)
  | .quarantine _ job => lift (Instance.runQuarantine setup job)

end

/-! ## The same without events -/

def silence (logs : String → Int → Bool) : (operation : Op) → Operations.Program (Ret operation)
  | .work operation => Prog.perform operation
  | .shouldLog path now => .done (logs path now)
  | .emit (.fileQuarantined path _ _ _) => Operations.reportQuarantined path
  | .emit _ => .done ()

variable (logs : String → Int → Bool)

def forget {α : Type} (program : Program α) : Operations.Program α := program.into (silence logs)

theorem forget_bind {α β : Type} (program : Program α) (next : α → Program β) :
    forget logs (program >>= next) = forget logs program >>= fun value => forget logs (next value) :=
  Prog.into_bind _ _ _

theorem forget_lift {α : Type} (program : Operations.Program α) : forget logs (lift program) = program := by
  induction program with
  | done value => rfl
  | call operation next ih => exact congrArg (Prog.call operation) (funext ih)

theorem forget_then {α β : Type} {program : Program α} {plain : Operations.Program α}
    {next : α → Program β} {after : α → Operations.Program β} (same : forget logs program = plain)
    (rest : ∀ value, forget logs (next value) = after value) :
    forget logs (program >>= next) = plain >>= after := by
  rw [forget_bind, same]
  exact congrArg _ (funext rest)

theorem forget_task {α β : Type} {task : Work α} {plain : Operations.Work α}
    {next : α → Work β} {after : α → Operations.Work β} (same : forget logs task.run = plain.run)
    (rest : ∀ value, forget logs (next value).run = (after value).run) :
    forget logs (task >>= next).run = (plain >>= after).run := by
  rw [ExceptT.run_bind, ExceptT.run_bind]
  refine forget_then logs same fun result => ?_
  cases result with
  | ok value => exact rest value
  | error e => rfl

theorem forget_always {α : Type} {program : Program α} {plain : Operations.Program α}
    (same : forget logs program = plain) :
    forget logs (always program : Work α).run = (always plain : Operations.Work α).run :=
  forget_then logs same fun _ => rfl

theorem forget_effort {α : Type} {task : Work α} {plain : Operations.Work α}
    (same : forget logs task.run = plain.run) :
    forget logs (bestEffort task) = bestEffort plain :=
  forget_then logs same fun _ => rfl

theorem forget_lifted {α : Type} (task : Operations.Work α) :
    forget logs (lifted task).run = task.run :=
  forget_lift logs task.run

section

variable (setup : Setup)

theorem forget_denied (ctx : AttemptCtx) (e : ReplError) :
    forget logs (reportDenied ctx e) = .done () := by
  unfold reportDenied
  split
  · show forget logs (if logs ctx.label ctx.now then emit _ else return ()) = _
    split
    · rfl
    · rfl
  · rfl

theorem forget_told {β : Type} {program : Program Unit} {next : Unit → Work β}
    {plain : Operations.Work β} (silent : forget logs program = .done ())
    (rest : forget logs (next ()).run = plain.run) :
    forget logs (always program >>= next).run = plain.run := by
  have nothing : forget logs (always program : Work Unit).run = (pure () : Operations.Work Unit).run :=
    forget_always logs silent
  exact forget_task logs nothing fun _ => rest

theorem forget_last {α : Type} (task : Operations.Work α) (tell : α → Program Unit)
    (silent : ∀ value, forget logs (tell value) = .done ()) :
    forget logs (lifted task >>= fun value => always (tell value) >>= fun _ => pure value).run =
      task.run := by
  have kept : ∀ program : Operations.Program (Except ReplError α),
      (program >>= fun result => match result with
        | .ok value => .done (.ok value)
        | .error e => .done (.error e)) = program := by
    intro program
    induction program with
    | done result => cases result <;> rfl
    | call operation rest ih => exact congrArg (Prog.call operation) (funext ih)
  refine Eq.trans ?_ (kept task.run)
  rw [ExceptT.run_bind]
  refine forget_then logs (forget_lifted logs task) fun result => ?_
  cases result with
  | ok value =>
      show _ = (pure value : Operations.Work α).run
      exact forget_told logs (silent value) rfl
  | error e => rfl

theorem forget_failed (ctx : AttemptCtx) (e : ReplError) :
    forget logs (failedAttempt setup ctx e).run = (Worker.failedAttempt setup ctx e).run := by
  refine forget_told logs (forget_denied logs ctx e) ?_
  refine forget_task logs (forget_always logs (forget_lift logs _)) fun jitter => ?_
  dsimp only
  generalize setup.retry.decide _ _ _ jitter = decision
  cases decision with
  | retry nextAttemptAt =>
      refine forget_task logs (forget_lifted logs _) fun _ => ?_
      exact forget_told logs rfl rfl
  | giveUp =>
      refine forget_task logs (forget_lifted logs _) fun _ => ?_
      refine forget_task logs (forget_always logs (forget_lift logs _)) fun _ => ?_
      exact forget_told logs rfl rfl

theorem forget_attempt (ctx : AttemptCtx) :
    forget logs (runAttempt setup ctx) = Instance.runAttempt setup ctx := by
  refine forget_then logs ?_ fun result => forget_lift logs _
  refine forget_task logs (forget_lifted logs _) fun resume => ?_
  refine forget_told logs rfl ?_
  refine forget_task logs (forget_always logs (forget_lift logs _)) fun outcome => ?_
  cases outcome with
  | ok delivered => exact forget_last logs _ _ fun _ => rfl
  | error e => exact forget_failed logs setup ctx e

theorem forget_cleanup_failure (item : WorkItem) (e : ReplError) (now : Int) :
    forget logs (recordCleanupFailure setup item e now).run =
      (Worker.recordCleanupFailure setup item e now).run := by
  refine forget_task logs (forget_always logs (forget_lift logs _)) fun jitter => ?_
  generalize setup.retry.decideCleanup _ _ now jitter = decision
  cases decision with
  | retry nextAttemptAt => exact forget_task logs (forget_lifted logs _) fun _ => rfl
  | giveUp =>
      refine forget_task logs (forget_lifted logs _) fun _ => ?_
      exact forget_told logs rfl rfl

theorem forget_cleanup (item : WorkItem) (now : Int) :
    forget logs (runCleanup setup item now).run = (Worker.runCleanup setup item now).run := by
  refine forget_task logs (forget_lifted logs _) fun _ => ?_
  refine forget_task logs (forget_always logs (forget_lift logs _)) fun checksum => ?_
  refine forget_task logs (forget_always logs (forget_lift logs _)) fun handle => ?_
  refine forget_task logs (forget_always logs (forget_lift logs _)) fun outcome => ?_
  cases Worker.joinOutcome outcome with
  | ok done => exact forget_last logs _ _ fun _ => by cases done <;> rfl
  | error e => exact forget_cleanup_failure logs setup item e now

theorem forget_cleanup_each (now : Int) (rows : List WorkItem) :
    forget logs (cleanupEach setup now rows).run = (Worker.cleanupEach setup now rows).run := by
  induction rows with
  | nil => rfl
  | cons item rest ih => exact forget_task logs (forget_cleanup logs setup item now) fun _ => ih

theorem forget_exhausted (item : WorkItem) (lastError : String) (attempts : Nat) (now : Int) :
    forget logs (finishExhausted setup item lastError attempts now).run =
      (Worker.finishExhausted setup item lastError attempts now).run := by
  unfold finishExhausted Worker.finishExhausted
  cases setup.completion.onExhausted with
  | retainInPlace => exact forget_task logs (forget_lifted logs _) fun _ => rfl
  | quarantine =>
      refine forget_task logs (forget_always logs (forget_lift logs _)) fun handle => ?_
      refine forget_task logs (forget_always logs (forget_lift logs _)) fun joined => ?_
      refine forget_task logs (forget_lifted logs _) fun _ => ?_
      exact forget_task logs (forget_always logs rfl) fun _ => rfl

theorem forget_exhaust_each (now : Int) (rows : List WorkItem) :
    forget logs (exhaustEach setup now rows).run = (Worker.exhaustEach setup now rows).run := by
  induction rows with
  | nil => rfl
  | cons item rest ih =>
      exact forget_task logs (forget_exhausted logs setup item _ _ now) fun _ => ih

theorem forget_item (item : WorkItem) (now : Int) :
    forget logs (processItem setup item now) = Worker.processItem setup item now := by
  apply forget_effort
  refine forget_task logs (forget_lifted logs _) fun existing => ?_
  refine forget_task logs (forget_lifted logs _) fun tally => ?_
  unfold conclude Worker.conclude
  split
  · refine forget_task logs (forget_always logs (forget_lift logs _)) fun _ => ?_
    refine forget_task logs (forget_lifted logs _) fun _ => ?_
    refine forget_task logs (forget_lifted logs _) fun _ => ?_
    exact forget_exhausted logs setup item _ _ now
  · split
    · exact forget_task logs (forget_lifted logs _) fun _ => forget_cleanup logs setup item now
    · exact forget_lifted logs _

theorem forget_recover_verified (it : WorkItem) (now : Int) :
    forget logs (recoverVerified setup it now).run = (Worker.recoverVerified setup it now).run := by
  refine forget_task logs (forget_lifted logs _) fun allOk => ?_
  cases allOk with
  | true => exact forget_task logs (forget_cleanup logs setup it now) fun _ => rfl
  | false => exact forget_lifted logs _

theorem forget_recover_one (now : Int) (it : WorkItem) :
    forget logs (recoverOne setup now it).run = (Worker.recoverOne setup now it).run := by
  unfold recoverOne Worker.recoverOne
  cases it.state with
  | verified => exact forget_recover_verified logs setup it now
  | cleanupPending => exact forget_task logs (forget_cleanup logs setup it now) fun _ => rfl
  | inProgress =>
      exact forget_task logs (forget_lifted logs _) fun _ => forget_lifted logs _
  | _ => rfl

theorem forget_recover (now : Int) :
    forget logs (bestEffort (recover setup now)) = bestEffort (Worker.recover setup now) := by
  have each : ∀ rows, forget logs (recoverEach setup now rows).run =
      (Worker.recoverEach setup now rows).run := by
    intro rows
    induction rows with
    | nil => rfl
    | cons it rest ih => exact forget_task logs (forget_recover_one logs setup now it) fun _ => ih
  apply forget_effort
  refine forget_task logs (forget_lifted logs _) fun rows => ?_
  refine forget_task logs (each rows) fun _ => ?_
  exact forget_task logs (forget_lifted logs _) fun left => forget_exhaust_each logs setup now left

theorem forget_pause_revert (now : Int) (relpaths : List String) :
    forget logs (pauseRevert setup now relpaths) = Instance.pauseRevert setup now relpaths := by
  induction relpaths with
  | nil => rfl
  | cons relpath rest ih =>
      refine forget_then logs (forget_lift logs _) fun loaded => ?_
      refine forget_then logs ?_ fun _ => ih
      cases loaded with
      | error e => rfl
      | ok found =>
          cases found with
          | none => rfl
          | some row =>
              show forget logs (revertRow setup now row) = Instance.revertRow setup now row
              unfold revertRow Instance.revertRow
              cases row.state with
              | inProgress => exact forget_effort logs (forget_lifted logs _)
              | verified => exact forget_effort logs (forget_recover_verified logs setup row now)
              | cleanupPending => exact forget_effort logs (forget_cleanup logs setup row now)
              | _ => rfl

theorem forget_windowed (onClose : WindowClose) (now : Int) (fuel : Nat) :
    forget logs (runWindowed setup onClose now fuel) = Instance.runWindowed setup onClose now fuel := by
  induction fuel with
  | zero => rfl
  | succ fuel ih =>
      refine forget_then logs (forget_lift logs _) fun passed => ?_
      cases passed with
      | true => rfl
      | false =>
          refine forget_then logs (forget_lift logs _) fun claimed => ?_
          cases claimed with
          | error e => rfl
          | ok batch =>
              cases batch with
              | nil => rfl
              | cons first others =>
                  refine forget_then logs ?_ fun closed => ?_
                  · refine forget_then logs (forget_lift logs _) fun _ => ?_
                    refine forget_then logs (forget_lift logs _) fun event => ?_
                    cases event with
                    | drained => rfl
                    | closed =>
                        refine forget_then logs ?_ fun _ => rfl
                        unfold closeBatch Instance.closeBatch
                        split
                        · refine forget_then logs (forget_lift logs _) fun _ => ?_
                          refine forget_then logs (forget_lift logs _) fun _ => ?_
                          exact forget_pause_revert logs setup now _
                        · exact forget_then logs (forget_lift logs _) fun _ => rfl
                  · cases closed with
                    | true => rfl
                    | false => exact ih

theorem forget_tick (now : Int) (ignoreWindow redriveCleanup : Bool) (fuel : Nat) :
    forget logs (runTick setup now ignoreWindow redriveCleanup fuel) =
      Instance.runTick setup now ignoreWindow redriveCleanup fuel := by
  refine forget_then logs (forget_lift logs _) fun active => ?_
  cases active with
  | false => rfl
  | true =>
      refine forget_then logs (forget_lift logs _) fun _ => ?_
      refine forget_then logs (forget_lift logs _) fun ready => ?_
      refine forget_then logs (forget_lift logs _) fun _ => ?_
      refine forget_then logs (forget_lift logs _) fun _ => ?_
      refine forget_then logs (forget_effort logs ?_) fun _ => ?_
      · refine forget_task logs (forget_lifted logs _) fun pending => ?_
        refine forget_task logs (forget_lifted logs _) fun failed => ?_
        exact forget_cleanup_each logs setup now _
      · refine forget_then logs (forget_lift logs _) fun admitted => ?_
        refine forget_then logs ?_ fun _ => forget_lift logs _
        cases admitted with
        | all drain => exact forget_lift logs _
        | none => rfl
        | windowed onClose => exact forget_windowed logs setup onClose now fuel

theorem forget_main (spec : Spec) : forget logs (main setup spec) = Instance.main setup spec := by
  cases spec with
  | recover now => exact forget_recover logs setup now
  | tick now ignoreWindow redriveCleanup fuel =>
      exact forget_tick logs setup now ignoreWindow redriveCleanup fuel
  | item owner item now => exact forget_item logs setup item now
  | attempt owner ctx => exact forget_attempt logs setup ctx
  | action handle ctx => exact forget_lift logs _
  | quarantine handle job => exact forget_lift logs _

end

end FileReplicator.LifecycleEvents
