import FileReplicator.Worker

/-!
# One instance

A tick, what starts ticks, and the threads that run at once: the startup
recovery, ticks of the schedule and of triggers, the items of a batch, the
attempts of an item, and the file-system actions of the blocking pool, which
outlive whoever waits for them. A process stops anywhere and starts again.
-/

namespace FileReplicator.Instance

open Domain DurableStore Effects FileTree SourceActions Operations Worker Interleaving

variable (setup : Setup)

/-! ## A tick -/

/-- A file that cannot be enqueued is left for the next scan. -/
def enqueueEach (now : Int) : List Candidate → Program Unit
  | [] => return ()
  | c :: rest => do
      bestEffort (upsertReady c.relpath c.size c.mtimeMs now)
      enqueueEach now rest

def promoteEach (now : Int) : List WorkItem → Work Unit
  | [] => return ()
  | item :: rest => do
      setState item.relpath .ready now
      promoteEach now rest

def promoteDue (now : Int) : Work Unit := do
  let failed ← listByState .failed
  promoteEach now (failed.filter fun item => item.nextAttemptAt ≤ now)

def revertRow (now : Int) (row : WorkItem) : Program Unit :=
  match row.state with
  | .inProgress => bestEffort (setState row.relpath .ready now)
  | .verified => bestEffort (recoverVerified setup row now)
  | .cleanupPending => bestEffort (runCleanup setup row now)
  | _ => return ()

def revertLoaded (now : Int) : Except ReplError (Option WorkItem) → Program Unit
  | .ok (some row) => revertRow setup now row
  | _ => return ()

def pauseRevert (now : Int) : List String → Program Unit
  | [] => return ()
  | relpath :: rest => do
      let row ← (getRow relpath).run
      revertLoaded setup now row
      pauseRevert now rest

def runBatch (batch : List WorkItem) (now : Int) : Program Unit := do
  spawnBatch batch now
  let _ ← nextOfBatch false
  return ()

/-- The loop of `run_admitted`; `fuel` bounds its rounds. -/
def runAdmitted (drain : Bool) (now : Int) : Nat → Program Unit
  | 0 => return ()
  | fuel + 1 => do
      match ← (claimReady setup.perLimit now).run with
      | .error _ => return ()
      | .ok [] => return ()
      | .ok batch => do
          runBatch batch now
          if drain then runAdmitted drain now fuel else return ()

def closeBatch (batch : List WorkItem) (now : Int) (onClose : WindowClose) : Program Unit :=
  if onClose = .pauseResume ∧ setup.supportsResume = true then do
    abortBatch
    let _ ← nextOfBatch false
    pauseRevert setup now (batch.map WorkItem.relpath)
  else do
    let _ ← nextOfBatch false
    return ()

def runBatchWindowed (batch : List WorkItem) (now : Int) (onClose : WindowClose) :
    Program Bool := do
  spawnBatch batch now
  match ← nextOfBatch true with
  | .drained => return false
  | .closed => do
      closeBatch setup batch now onClose
      return true

/-- The loop of `run_windowed`; `fuel` bounds its rounds. -/
def runWindowed (onClose : WindowClose) (now : Int) : Nat → Program Unit
  | 0 => return ()
  | fuel + 1 => do
      if ← deadlinePassed then return ()
      else
        match ← (claimReady setup.perLimit now).run with
        | .error _ => return ()
        | .ok [] => return ()
        | .ok batch => do
            if ← runBatchWindowed setup batch now onClose then return ()
            else runWindowed onClose now fuel

def runAdmission (fuel : Nat) (now : Int) : Admission → Program Unit
  | .all drain => runAdmitted setup drain now fuel
  | .none => return ()
  | .windowed onClose => runWindowed setup onClose now fuel

def admission (ignoreWindow : Bool) : Program Admission :=
  if ignoreWindow then return .all true else evaluateSchedule

def tickBody (now : Int) (ignoreWindow redriveCleanup : Bool) (fuel : Nat) : Program Unit := do
  lockTick
  let ready ← discover
  enqueueEach now ready
  bestEffort (promoteDue now)
  bestEffort (driveCleanup setup now redriveCleanup)
  let admitted ← admission ignoreWindow
  runAdmission setup fuel now admitted
  unlockTick

def runTick (now : Int) (ignoreWindow redriveCleanup : Bool) (fuel : Nat) : Program Unit := do
  if ← isActive then tickBody setup now ignoreWindow redriveCleanup fuel
  else return ()

inductive Spec where
  | recover (now : Int)
  | tick (now : Int) (ignoreWindow redriveCleanup : Bool) (fuel : Nat)
  | item (owner : Nat) (item : WorkItem) (now : Int)
  | attempt (owner : Nat) (ctx : AttemptCtx)
  | action (handle : Nat) (ctx : CleanupCtx)
  | quarantine (handle : Nat) (job : QuarantineJob)

def runAttempt (ctx : AttemptCtx) : Program Unit := do
  let result ← (runOneDest setup ctx).run
  endAttempt result

def runAction (ctx : CleanupCtx) : Program Unit := do
  let result ← onDisk (applySuccessAction setup.digest ctx).run
  endAction result

def runQuarantine (job : QuarantineJob) : Program Unit := do
  onDisk (applyQuarantineAction setup.render job.failedDir job.src job.collision job.ctx)
  endQuarantine

def main : Spec → Program Unit
  | .recover now => bestEffort (recover setup now)
  | .tick now ignoreWindow redriveCleanup fuel =>
      runTick setup now ignoreWindow redriveCleanup fuel
  | .item _ item now => processItem setup item now
  | .attempt _ ctx => runAttempt setup ctx
  | .action _ ctx => runAction setup ctx
  | .quarantine _ job => runQuarantine setup job

/-- A dropped worker future aborts its tasks; what runs on the blocking pool has no owner. -/
def owner : Spec → Option Nat
  | .item owner _ _ => some owner
  | .attempt owner _ => some owner
  | _ => none

/-! ## The world -/

structure World where
  store : Store
  tree : Tree
  /-- The object of a relpath at a destination. -/
  objects : String → String → Option Bytes
  active : Bool
  up : Bool
  ticking : Bool
  handles : Nat
  /-- Outcomes of the actions that have ended, by handle. -/
  outcomes : Nat → Option (Except ReplError CleanupDone)
  quarantined : Nat → Bool
  /-- Results of ended attempts that nobody has joined, by the thread that spawned them. -/
  attempts : Nat → List AttemptResult

/-- The answer that decides how a call ends where the world does not. -/
inductive Answer where
  | asIs
  | refused (text : String)
  | disk (answer : FsAnswer)
  | number (n : Nat)
  | failed (error : ReplError) (published : Bool) (left : Option ResumeState)
  | found (candidates : List Candidate)
  | scheduled (admission : Admission)
  | closed
  | passed
  deriving DecidableEq

inductive Event where
  /-- Someone else changes the local file system at one path. -/
  | touch (path : Path) (node : Option Node)
  /-- An object of a destination changes. -/
  | alter (relpath label : String) (object : Option Bytes)
  | setActive (active : Bool)
  | crash
  | boot (now : Int)
  /-- A tick of the run loop. -/
  | periodic (now : Int) (fuel : Nat)
  | trigger (now : Int) (ignoreWindow : Bool) (fuel : Nat)

abbrev Call (operation : Op) := Option (Ret operation × Effect World Spec)

/-- A call that changes the world and nothing else. -/
def changes (world : World) : Effect World Spec := ⟨world, [], fun _ _ => .stays⟩

def spawns (world : World) (specs : List Spec) : Effect World Spec :=
  ⟨world, specs, fun _ _ => .stays⟩

section Calls

variable (world : World)

def sourceBytes (relpath : String) : Option Bytes :=
  match world.tree (setup.absSource relpath) with
  | some (.file bytes _) => some bytes
  | _ => none

def setObject (relpath label : String) (object : Option Bytes) : World :=
  { world with
    objects := fun r l => if r = relpath ∧ l = label then object else world.objects r l }

/-- A delivery puts the bytes of the source at the destination. -/
def delivers (item : WorkItem) (label : String) : Answer → Option (Except ReplError Delivered × World)
  | .asIs =>
      (sourceBytes setup world item.relpath).map fun bytes =>
        (.ok (setup.deliveredAs label bytes), setObject world item.relpath label (some bytes))
  | .failed error published left =>
      -- The backend writes this row itself, under its bare kind, which is the label but for further
      -- destinations of one kind. A loaded row is only handed on to the backend.
      let stored := { world with store := world.store.setResume item.relpath label left }
      if published then
        (sourceBytes setup world item.relpath).map fun bytes =>
          (.error error, setObject stored item.relpath label (some bytes))
      else some (.error error, stored)
  | _ => none

def verifies (item : WorkItem) (label : String) (expected : Delivered) (policy : Verify) :
    Answer → Option (Except ReplError Unit)
  | .asIs => some (setup.check label expected policy (world.objects item.relpath label))
  | .failed error _ _ => some (.error error)
  | _ => none

def candidateIs (c : Candidate) : Bool :=
  match world.tree (setup.absSource c.relpath) with
  | some (.file bytes mtimeMs) => c.size = bytes.length && c.mtimeMs = mtimeMs
  | _ => false

def isDrained (live : List Spec) (id : Nat) : Bool :=
  live.all fun spec =>
    match spec with
    | .item owner _ _ => owner ≠ id
    | _ => true

def attemptsOver (live : List Spec) (id : Nat) : Bool :=
  live.all fun spec =>
    match spec with
    | .attempt owner _ => owner ≠ id
    | _ => true

def isAction (handle : Nat) : Spec → Bool
  | .action h _ => h = handle
  | _ => false

def isQuarantine (handle : Nat) : Spec → Bool
  | .quarantine h _ => h = handle
  | _ => false

def isAttempt (id : Nat) (label : String) : Spec → Bool
  | .attempt owner ctx => owner = id && ctx.label = label
  | _ => false

def isItemOf (id : Nat) : Spec → Bool
  | .item owner _ _ => owner = id
  | _ => false

def joinOne (live : List Spec) (id : Nat) : Answer → Call .joinAttempt
  | .number n =>
      ((world.attempts id)[n]?).map fun result =>
        (some (.ok result), changes { world with
          attempts := fun i => if i = id then (world.attempts id).eraseIdx n else world.attempts i })
  | .refused label =>
      -- the task of this destination has panicked
      if live.any (isAttempt id label) then
        some (some (.error label), ⟨world, [], fun _ spec =>
          if isAttempt id label spec then .gone else .stays⟩)
      else none
  | .asIs =>
      if attemptsOver live id && (world.attempts id).isEmpty then some (none, changes world) else none
  | _ => none

def awaitOutcome (live : List Spec) (handle : Nat) : Answer → Call (.awaitAction handle)
  | .asIs => (world.outcomes handle).map fun result => (.ok result, changes world)
  | .refused text =>
      if live.any (isAction handle) then
        some (.error text, ⟨world, [], fun _ spec =>
          if isAction handle spec then .gone else .stays⟩)
      else none
  | _ => none

def awaitQuarantined (live : List Spec) (handle : Nat) : Answer → Call (.awaitQuarantine handle)
  | .asIs => if world.quarantined handle then some (.ok (), changes world) else none
  | .refused text =>
      if live.any (isQuarantine handle) then
        some (.error text, ⟨world, [], fun _ spec =>
          if isQuarantine handle spec then .gone else .stays⟩)
      else none
  | _ => none

def runStatement (operation : StoreOp) : Answer → Call (.store operation)
  | .asIs =>
      let out := callStore world.store operation
      some (.ok out.1, changes { world with store := out.2 })
  | .refused text => some (.error (.state text), changes world)
  | _ => none

def batchNext (live : List Spec) (id : Nat) (closable : Bool) :
    Answer → Call (.nextOfBatch closable)
  | .asIs => if isDrained live id then some (.drained, changes world) else none
  | .closed => if closable then some (.closed, changes world) else none
  | _ => none

/-- One call of a thread: its result and its effect. -/
def perform {Notes : Type} (t : Thread Op Ret Spec Notes) (live : List Spec) :
    (operation : Op) → Answer → Call operation
  | .store operation, answer => runStatement world operation answer
  | .fs operation, .disk answer =>
      let out := callFs world.tree operation answer
      some (out.1, changes { world with tree := out.2 })
  | .deliver item label _, answer =>
      (delivers setup world item label answer).map fun out => (out.1, changes out.2)
  | .verify item label expected policy, answer =>
      (verifies setup world item label expected policy answer).map fun out => (out, changes world)
  | .abort _ _ _, .asIs => some (.ok (), changes world)
  | .abort _ _ _, .failed error _ _ => some (.error error, changes world)
  | .draw, .number n => some (n, changes world)
  | .spawnAttempts contexts, .asIs =>
      some ((), spawns world (contexts.map (Spec.attempt t.id)))
  | .joinAttempt, answer => joinOne world live t.id answer
  | .endAttempt result, .asIs =>
      match t.spec with
      | .attempt owner _ =>
          some ((), changes { world with
            attempts := fun i => if i = owner then world.attempts i ++ [result] else world.attempts i })
      | _ => none
  | .startAction ctx, .asIs =>
      some (world.handles, spawns { world with handles := world.handles + 1 }
        [.action world.handles ctx])
  | .awaitAction handle, answer => awaitOutcome world live handle answer
  | .endAction result, .asIs =>
      match t.spec with
      | .action handle _ =>
          some ((), changes { world with
            outcomes := fun h => if h = handle then some result else world.outcomes h })
      | _ => none
  | .startQuarantine job, .asIs =>
      some (world.handles, spawns { world with handles := world.handles + 1 }
        [.quarantine world.handles job])
  | .awaitQuarantine handle, answer => awaitQuarantined world live handle answer
  | .endQuarantine, .asIs =>
      match t.spec with
      | .quarantine handle _ =>
          some ((), changes { world with
            quarantined := fun h => if h = handle then true else world.quarantined h })
      | _ => none
  | .reportQuarantined _, .asIs => some ((), changes world)
  | .isActive, .asIs => some (world.active, changes world)
  | .lockTick, .asIs =>
      if world.ticking then none else some ((), changes { world with ticking := true })
  | .unlockTick, .asIs => some ((), changes { world with ticking := false })
  | .discover, .found candidates =>
      if candidates.all (candidateIs setup world) then some (candidates, changes world) else none
  | .evaluateSchedule, .scheduled admission => some (admission, changes world)
  | .spawnBatch items now, .asIs =>
      some ((), spawns world (items.map fun item => .item t.id item now))
  | .deadlinePassed, .asIs => some (false, changes world)
  | .deadlinePassed, .passed => some (true, changes world)
  | .nextOfBatch closable, answer => batchNext world live t.id closable answer
  | .abortBatch, .asIs =>
      some ((), ⟨world, [], fun _ spec => if isItemOf t.id spec then .aborted else .stays⟩)
  | _, _ => none

def isRecover : Spec → Bool
  | .recover _ => true
  | _ => false

def react (live : List Spec) : Event → Option (Reaction World Spec)
  | .touch path node => some ⟨{ world with tree := put world.tree path node }, false, []⟩
  | .alter relpath label object => some ⟨setObject world relpath label object, false, []⟩
  | .setActive active => some ⟨{ world with active := active }, false, []⟩
  | .crash =>
      some ⟨{ world with
        up := false
        ticking := false
        outcomes := fun _ => none
        quarantined := fun _ => false
        attempts := fun _ => [] }, true, []⟩
  | .boot now =>
      if world.up then none else some ⟨{ world with up := true }, false, [.recover now]⟩
  | .periodic now fuel =>
      -- the run loop ticks once its recovery is over
      if world.up && !live.any isRecover then some ⟨world, false, [.tick now false false fuel]⟩
      else none
  | .trigger now ignoreWindow fuel =>
      if world.up then some ⟨world, false, [.tick now ignoreWindow true fuel]⟩ else none

end Calls

/-- The instance with any discipline over its threads. -/
def machine {Notes : Type} (discipline : Discipline Op Ret Notes) (finished : Notes → Prop)
    (start : Spec → Notes) : Machine Op Ret World Spec Notes Answer Event where
  discipline := discipline
  finished := finished
  main := main setup
  start := start
  owner := owner
  perform := fun t live world operation answer => perform setup world t live operation answer
  react := fun live world event => react world live event

end FileReplicator.Instance
