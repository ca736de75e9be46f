import FileReplicator.Operations

/-!
# The worker

The per-file pipeline: fan-out, completion, exhaustion and crash recovery. Events
and metrics other than the quarantine report are left out.
-/

namespace FileReplicator.Worker

open Domain DurableStore Effects SourceActions Retry Operations

variable (setup : Setup)

/-! ## Completion -/

/-- The `Delivered` a `Verified` checkpoint holds. -/
def persistedDelivered : Option ResumeState → Option Delivered
  | some ⟨_, .verified delivered⟩ => some delivered
  | _ => none

def checkpointChecksum : Except ReplError (Option ResumeState) → Checksum
  | .ok resume => ((persistedDelivered resume).map Delivered.checksum).getD .none
  | .error _ => .none

/-- `delivered_checksum`: the first one recorded. -/
def deliveredChecksum (relpath : String) : List String → Program Checksum
  | [] => return .none
  | label :: rest => do
      let loaded ← (loadResume relpath label).run
      if checkpointChecksum loaded = .none then deliveredChecksum relpath rest
      else return checkpointChecksum loaded

def cleanupCtx (item : WorkItem) (checksum : Checksum) : CleanupCtx where
  onSuccess := setup.completion.onSuccess
  src := setup.absSource item.relpath
  archiveDir := setup.completion.archiveDir
  relpath := item.relpath
  collision := setup.completion.onCollision
  verify := setup.completion.verify
  expectedSize := item.size
  expectedChecksum := checksum

def joinOutcome : Except String (Except ReplError CleanupDone) → Except ReplError CleanupDone
  | .ok result => result
  | .error text => .error (.transient ("completion task join failed: " ++ text))

def finishCompleted (item : WorkItem) (now : Int) : Work ItemState := do
  setState item.relpath .completed now
  always (bestEffort (clearResumeAll item.relpath))
  always (bestEffort (clearDestStates item.relpath))
  bumpStats 1 0 (UInt64.ofNat item.size).toInt64
  return .completed

def cleanupGate : RetryDecision → Int
  | .retry nextAttemptAt => nextAttemptAt
  | .giveUp => cleanupNoRetry

def recordCleanupFailure (item : WorkItem) (error : ReplError) (now : Int) : Work ItemState := do
  let jitter ← always draw
  recordCleanupAttempt item.relpath error.text .cleanupFailed
    (cleanupGate (setup.retry.decideCleanup error.isPermanent item.cleanupAttempts now jitter)) now
  return .cleanupFailed

def settleCleanup (item : WorkItem) (now : Int) : Except ReplError CleanupDone → Work ItemState
  | .ok _ => finishCompleted item now
  | .error e => recordCleanupFailure setup item e now

def runCleanup (item : WorkItem) (now : Int) : Work ItemState := do
  setState item.relpath .cleanupPending now
  let checksum ← always (deliveredChecksum item.relpath setup.labels)
  let handle ← always (startAction (cleanupCtx setup item checksum))
  let outcome ← always (awaitAction handle)
  settleCleanup setup item now (joinOutcome outcome)

def cleanupEach (now : Int) : List WorkItem → Work Unit
  | [] => return ()
  | item :: rest => do
      let _ ← runCleanup setup item now
      cleanupEach now rest

def driveCleanup (now : Int) (redriveAll : Bool) : Work Unit := do
  let pending ← listByState .cleanupPending
  let failed ← listByState .cleanupFailed
  cleanupEach setup now (pending ++ failed.filter fun item => redriveAll || item.nextAttemptAt ≤ now)

def quarantineJob (item : WorkItem) (lastError : String) (attempts : Nat) (now : Int) :
    QuarantineJob where
  failedDir := setup.completion.failedDir
  src := setup.absSource item.relpath
  collision := setup.completion.onCollision
  ctx :=
    { instanceId := setup.instanceId
      relpath := item.relpath
      lastError := lastError
      attempts := attempts
      firstSeen := item.discoveredAt
      lastTry := now
      destination := setup.destLabelsJoined
      bytesDone := item.bytesDone }

def finishExhausted (item : WorkItem) (lastError : String) (attempts : Nat) (now : Int) :
    Work ItemState :=
  match setup.completion.onExhausted with
  | .retainInPlace => do
      setState item.relpath .retained now
      return .retained
  | .quarantine => do
      let handle ← always (startQuarantine (quarantineJob setup item lastError attempts now))
      let _ ← always (awaitQuarantine handle)
      setState item.relpath .quarantined now
      always (reportQuarantined item.relpath)
      return .quarantined

def exhaustEach (now : Int) : List WorkItem → Work Unit
  | [] => return ()
  | item :: rest => do
      let _ ← finishExhausted setup item (item.lastError.getD "exhausted") item.attempts now
      exhaustEach now rest

/-! ## One destination -/

def phaseOf (existing : String → Option DestState) (label : String) : DestPhase :=
  ((existing label).map DestState.phase).getD .pending

def attemptsOf (existing : String → Option DestState) (label : String) : Nat :=
  ((existing label).map DestState.attempts).getD 0

def nextAttemptOf (existing : String → Option DestState) (label : String) : Int :=
  ((existing label).map DestState.nextAttemptAt).getD 0

def abortLoaded (item : WorkItem) (label : String) :
    Except ReplError (Option ResumeState) → Program Unit
  | .ok (some resume) => bestEffort (abort item label resume)
  | _ => return ()

def abortAndClearResume (item : WorkItem) (label : String) : Program Unit := do
  let loaded ← (loadResume item.relpath label).run
  abortLoaded item label loaded
  bestEffort (clearResume item.relpath label)

def abortEach (item : WorkItem) : List String → Program Unit
  | [] => return ()
  | label :: rest => do
      abortAndClearResume item label
      abortEach item rest

def failedAttempt (ctx : AttemptCtx) (e : ReplError) : Work (String × DestOutcome) := do
  let jitter ← always draw
  match setup.retry.decide { ctx.item with attempts := ctx.attemptsSoFar } e.isPermanent ctx.now
      jitter with
  | .retry nextAttemptAt => do
      recordDestAttempt ctx.item.relpath ctx.label e.text .pending nextAttemptAt
      return (ctx.label, .retry nextAttemptAt e.text)
  | .giveUp => do
      recordDestAttempt ctx.item.relpath ctx.label e.text .exhausted ctx.now
      always (abortAndClearResume ctx.item ctx.label)
      return (ctx.label, .giveUp e.text (nextAttempt ctx.attemptsSoFar))

def deliverAndVerify (ctx : AttemptCtx) (resume : Option ResumeState) : Work Delivered := do
  let delivered ← deliver ctx.item ctx.label resume
  verify ctx.item ctx.label delivered setup.completion.verify
  return delivered

def deliveredAttempt (ctx : AttemptCtx) (delivered : Delivered) : Work (String × DestOutcome) := do
  always (bestEffort (saveResume ctx.item.relpath ctx.label
    ⟨delivered.bytes, .verified delivered⟩))
  setDestPhase ctx.item.relpath ctx.label .verified
  return (ctx.label, .verified)

def settleAttempt (ctx : AttemptCtx) : Except ReplError Delivered → Work (String × DestOutcome)
  | .ok delivered => deliveredAttempt ctx delivered
  | .error e => failedAttempt setup ctx e

def runOneDest (ctx : AttemptCtx) : Work (String × DestOutcome) := do
  let resume ← loadResume ctx.item.relpath ctx.label
  let outcome ← always (deliverAndVerify setup ctx resume).run
  settleAttempt setup ctx outcome

/-! ## The pipeline -/

structure Tally where
  verified : List String
  giveups : List (String × String × Nat)
  retries : List (String × Int × String)
  deriving DecidableEq

def Tally.count (tally : Tally) : String × DestOutcome → Tally
  | (label, .verified) => { tally with verified := tally.verified.insert label }
  | (label, .retry nextAttemptAt err) =>
      { tally with retries := tally.retries ++ [(label, nextAttemptAt, err)] }
  | (label, .giveUp err attempts) =>
      { tally with giveups := tally.giveups ++ [(label, err, attempts)] }

/-- The result of one `join_next`; the first fault ends the round. -/
def joined : Except String AttemptResult → Except ReplError (String × DestOutcome)
  | .ok result => result
  | .error text => .error (.transient ("destination task join failed: " ++ text))

/-- The loop over `join_next`: each spawned task gives one result. -/
def joinAll : Nat → Tally → Work Tally
  | 0, tally => return tally
  | left + 1, tally => do
      match ← always joinAttempt with
      | none => return tally
      | some result => do
          let outcome ← ExceptT.mk (pure (joined result))
          joinAll left (tally.count outcome)

def dueLabels (existing : String → Option DestState) (now : Int) : List String :=
  setup.labels.filter fun label =>
    phaseOf existing label ≠ .verified && nextAttemptOf existing label ≤ now

def notDueLabels (existing : String → Option DestState) (now : Int) : List String :=
  setup.labels.filter fun label =>
    phaseOf existing label ≠ .verified && !(nextAttemptOf existing label ≤ now)

def verifiedLabels (existing : String → Option DestState) : List String :=
  setup.labels.filter fun label => phaseOf existing label = .verified

def attemptCtx (item : WorkItem) (existing : String → Option DestState) (now : Int)
    (label : String) : AttemptCtx where
  item := item
  label := label
  now := now
  attemptsSoFar := attemptsOf existing label

/-- The attempts of one round, run side by side. -/
def fanOut (item : WorkItem) (existing : String → Option DestState) (now : Int) : Work Tally := do
  let due := dueLabels setup existing now
  always (spawnAttempts (due.map (attemptCtx item existing now)))
  joinAll due.length ⟨verifiedLabels setup existing, [], []⟩

def giveUpText (giveups : List (String × String × Nat)) : String :=
  "; ".intercalate (giveups.map fun g => g.1 ++ ": " ++ g.2.1)

def maxAttempts (giveups : List (String × String × Nat)) : Nat :=
  (giveups.map fun g => g.2.2).foldl max 0

def newlyExhausted (existing : String → Option DestState)
    (giveups : List (String × String × Nat)) : Bool :=
  giveups.any fun g => phaseOf existing g.1 ≠ .exhausted

def countFailure (newly : Bool) : Work Unit :=
  if newly then bumpStats 0 1 0 else return ()

def exhaustItem (item : WorkItem) (existing : String → Option DestState) (now : Int)
    (tally : Tally) : Work ItemState := do
  always (abortEach item (tally.retries.map (·.1) ++ notDueLabels setup existing now))
  rollUpItem item.relpath .exhausted (maxAttempts tally.giveups) now
    (some (giveUpText tally.giveups)) now
  countFailure (newlyExhausted existing tally.giveups)
  finishExhausted setup item (giveUpText tally.giveups) (maxAttempts tally.giveups) now

def earliest (now : Int) : List Int → Int
  | [] => now
  | first :: rest => rest.foldl min first

def retryItem (item : WorkItem) (existing : String → Option DestState) (now : Int)
    (tally : Tally) : Work ItemState := do
  rollUpItem item.relpath .failed (nextAttempt item.attempts)
    (earliest now (tally.retries.map (·.2.1) ++
      (notDueLabels setup existing now).map (nextAttemptOf existing)))
    ((tally.retries.getLast?.map (·.2.2)).or item.lastError) now
  return .failed

def completeItem (item : WorkItem) (now : Int) : Work ItemState := do
  setState item.relpath .verified now
  runCleanup setup item now

def conclude (item : WorkItem) (existing : String → Option DestState) (now : Int)
    (tally : Tally) : Work ItemState :=
  if tally.giveups ≠ [] then exhaustItem setup item existing now tally
  else if tally.verified.length = setup.labels.length then completeItem setup item now
  else retryItem setup item existing now tally

def runPipeline (item : WorkItem) (now : Int) : Work ItemState := do
  let existing ← destStates item.relpath
  let tally ← fanOut setup item existing now
  conclude setup item existing now tally

/-- A fault of the store leaves the item for recovery. -/
def processItem (item : WorkItem) (now : Int) : Program Unit :=
  bestEffort (runPipeline setup item now)

/-! ## Recovery -/

def expectedOf (it : WorkItem) (resume : Option ResumeState) : Delivered × Verify :=
  match persistedDelivered resume with
  | some delivered => (delivered, .checksum)
  | none => (⟨it.size, .none, []⟩, .size)

def keepVerified (it : WorkItem) (label : String) : Work Bool := do
  setDestPhase it.relpath label .verified
  return true

def demote (it : WorkItem) (label : String) : Work Bool := do
  setDestPhase it.relpath label .pending
  always (bestEffort (clearResume it.relpath label))
  return false

def settleReverify (it : WorkItem) (label : String) : Except ReplError Unit → Work Bool
  | .ok () => keepVerified it label
  | .error _ => demote it label

def reverifyOneDest (it : WorkItem) (label : String) : Work Bool := do
  let resume ← loadResume it.relpath label
  let verdict ← always (verify it label (expectedOf it resume).1 (expectedOf it resume).2).run
  settleReverify it label verdict

def reverifyEach (it : WorkItem) : List String → Work Bool
  | [] => return true
  | label :: rest => do
      let ok ← reverifyOneDest it label
      let others ← reverifyEach it rest
      return ok && others

def recoverVerified (it : WorkItem) (now : Int) : Work Unit := do
  let allOk ← reverifyEach it setup.labels
  if allOk then
    let _ ← runCleanup setup it now
    return ()
  else setState it.relpath .ready now

def reverifyPersistedVerified (it : WorkItem) : Work Unit := do
  let existing ← destStates it.relpath
  let _ ← reverifyEach it (verifiedLabels setup existing)
  return ()

def recoverOne (now : Int) (it : WorkItem) : Work Unit :=
  match it.state with
  | .verified => recoverVerified setup it now
  | .cleanupPending => do
      let _ ← runCleanup setup it now
      return ()
  | .inProgress => do
      reverifyPersistedVerified setup it
      setState it.relpath .ready now
  | _ => return ()

def recoverEach (now : Int) : List WorkItem → Work Unit
  | [] => return ()
  | it :: rest => do
      recoverOne setup now it
      recoverEach now rest

def recover (now : Int) : Work Unit := do
  let rows ← recoverIncomplete
  recoverEach setup now rows
  let left ← listByState .exhausted
  exhaustEach setup now left

end FileReplicator.Worker
