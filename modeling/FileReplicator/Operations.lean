import FileReplicator.DestinationLabels
import FileReplicator.DurableStore
import FileReplicator.Interleaving
import FileReplicator.Retry
import FileReplicator.SourceActions

/-!
# The operations of one instance

What the threads of an instance call: statements of the store, the destinations,
the local file system, and each other. A statement may be refused as a whole; a
destination is what its own `deliver` and `verify` make of the object.
-/

namespace FileReplicator.Operations

open Domain DurableStore Effects FileTree SourceActions Retry

/-- `CompletionCfg`. -/
structure Completion where
  onSuccess : OnSuccess
  archiveDir : Option Path
  onExhausted : OnExhausted
  failedDir : Option Path
  onCollision : Collision
  verify : Verify

/-- One instance, and the parts of it that are not in this model: the hash, the JSON of a sidecar,
and what each destination reports of an object and accepts for one. -/
structure Setup where
  instanceId : String
  dests : List DestinationLabels.Kind
  supportsResume : Bool
  completion : Completion
  ingressRoot : Path
  retry : RetryPolicy
  perLimit : Nat
  digest : Algorithm → Bytes → Checksum
  render : QuarantineCtx → Bytes
  deliveredAs : String → Bytes → Delivered
  check : String → Delivered → Verify → Option Bytes → Except ReplError Unit

namespace Setup

variable (setup : Setup)

def labels : List String := DestinationLabels.labelDestinations setup.dests

def absSource (relpath : String) : Path := joinRel setup.ingressRoot relpath

def destLabelsJoined : String := "+".intercalate setup.labels

theorem labels_nodup : setup.labels.Nodup := DestinationLabels.labels_nodup setup.dests

end Setup

inductive StoreOp where
  | destStates (relpath : String)
  | getRow (relpath : String)
  | loadResume (relpath dest : String)
  | saveResume (relpath dest : String) (checkpoint : ResumeState)
  | clearResume (relpath dest : String)
  | clearResumeAll (relpath : String)
  | clearDestStates (relpath : String)
  | setDestPhase (relpath dest : String) (phase : DestPhase)
  | recordDestAttempt (relpath dest error : String) (phase : DestPhase) (nextAttemptAt : Int)
  | setState (relpath : String) (state : ItemState) (now : Int)
  | rollUpItem (relpath : String) (state : ItemState) (attempts : Nat) (nextAttemptAt : Int)
      (lastError : Option String) (now : Int)
  | recordCleanupAttempt (relpath error : String) (state : ItemState) (nextAttemptAt now : Int)
  | setBytesDone (relpath : String) (bytes : Nat) (now : Int)
  | bumpStats (replicated failed bytes : Int64)
  | upsertReady (relpath : String) (size : Nat) (mtimeMs now : Int)
  | claimReady (limit : Nat) (now : Int)
  | recoverIncomplete
  | listByState (state : ItemState)

abbrev StoreRet : StoreOp → Type
  | .destStates _ => String → Option DestState
  | .getRow _ => Option WorkItem
  | .loadResume _ _ => Option ResumeState
  | .claimReady _ _ => List WorkItem
  | .recoverIncomplete => List WorkItem
  | .listByState _ => List WorkItem
  | _ => Unit

def callStore (store : Store) : (op : StoreOp) → StoreRet op × Store
  | .destStates r => (store.dests r, store)
  | .getRow r => (store.get r, store)
  | .loadResume r d => (store.resume r d, store)
  | .saveResume r d checkpoint => ((), store.saveResume r d checkpoint)
  | .clearResume r d => ((), store.clearResume r d)
  | .clearResumeAll r => ((), store.clearResumeAll r)
  | .clearDestStates r => ((), store.clearDestStates r)
  | .setDestPhase r d phase => ((), store.setDestPhase r d phase)
  | .recordDestAttempt r d error phase gate => ((), store.recordDestAttempt r d error phase gate)
  | .setState r state now => ((), store.setState r state now)
  | .rollUpItem r state attempts gate error now =>
      ((), store.rollUpItem r state attempts gate error now)
  | .recordCleanupAttempt r error state gate now =>
      ((), store.recordCleanupAttempt r error state gate now)
  | .setBytesDone r bytes now => ((), store.setBytesDone r bytes now)
  | .bumpStats replicated failed bytes => ((), store.bumpStats replicated failed bytes)
  | .upsertReady r size mtimeMs now => ((), store.upsertReady r size mtimeMs now)
  | .claimReady limit now => store.claimReady limit now
  | .recoverIncomplete => (store.recoverIncomplete, store)
  | .listByState state => (store.listByState state, store)

/-! ## Operations -/

inductive DestOutcome where
  | verified
  | retry (nextAttemptAt : Int) (err : String)
  | giveUp (err : String) (attempts : Nat)
  deriving DecidableEq

/-- `DestAttemptCtx`. -/
structure AttemptCtx where
  item : WorkItem
  label : String
  now : Int
  attemptsSoFar : Nat
  deriving DecidableEq

structure QuarantineJob where
  failedDir : Option Path
  src : Path
  collision : Collision
  ctx : QuarantineCtx
  deriving DecidableEq

structure Candidate where
  relpath : String
  size : Nat
  mtimeMs : Int
  deriving DecidableEq

inductive WindowClose where
  | finishCurrent
  | pauseResume
  deriving DecidableEq

inductive Admission where
  | all (drain : Bool)
  | none
  | windowed (onClose : WindowClose)
  deriving DecidableEq

inductive BatchEvent where
  | drained
  | closed
  deriving DecidableEq

abbrev AttemptResult := Except ReplError (String × DestOutcome)

inductive Op where
  | store (operation : StoreOp)
  | fs (operation : FsOp)
  | deliver (item : WorkItem) (label : String) (resume : Option ResumeState)
  | verify (item : WorkItem) (label : String) (expected : Delivered) (policy : Verify)
  | abort (item : WorkItem) (label : String) (resume : ResumeState)
  | draw
  | spawnAttempts (contexts : List AttemptCtx)
  | joinAttempt
  | endAttempt (result : AttemptResult)
  | startAction (ctx : CleanupCtx)
  | awaitAction (handle : Nat)
  | endAction (result : Except ReplError CleanupDone)
  | startQuarantine (job : QuarantineJob)
  | awaitQuarantine (handle : Nat)
  | endQuarantine
  | reportQuarantined (relpath : String)
  | isActive
  | lockTick
  | unlockTick
  | discover
  | evaluateSchedule
  | spawnBatch (items : List WorkItem) (now : Int)
  | deadlinePassed
  | nextOfBatch (closable : Bool)
  | abortBatch

abbrev Ret : Op → Type
  | .store operation => Except ReplError (StoreRet operation)
  | .fs operation => FsRet operation
  | .deliver _ _ _ => Except ReplError Delivered
  | .verify _ _ _ _ => Except ReplError Unit
  | .abort _ _ _ => Except ReplError Unit
  | .draw => Nat
  | .joinAttempt => Option (Except String AttemptResult)
  | .startAction _ => Nat
  | .awaitAction _ => Except String (Except ReplError CleanupDone)
  | .startQuarantine _ => Nat
  | .awaitQuarantine _ => Except String Unit
  | .isActive => Bool
  | .discover => List Candidate
  | .evaluateSchedule => Admission
  | .deadlinePassed => Bool
  | .nextOfBatch _ => BatchEvent
  | _ => Unit

abbrev Program (α : Type) := Prog Op Ret α

abbrev Work (α : Type) := Task Op Ret ReplError α

/-! The operations as steps of a task or a program. -/

def statement (operation : StoreOp) : Work (StoreRet operation) :=
  ExceptT.mk (Prog.perform (Op.store operation))

def destStates (relpath : String) : Work (String → Option DestState) :=
  statement (.destStates relpath)

def getRow (relpath : String) : Work (Option WorkItem) := statement (.getRow relpath)

def loadResume (relpath dest : String) : Work (Option ResumeState) :=
  statement (.loadResume relpath dest)

def saveResume (relpath dest : String) (checkpoint : ResumeState) : Work Unit :=
  statement (.saveResume relpath dest checkpoint)

def clearResume (relpath dest : String) : Work Unit := statement (.clearResume relpath dest)

def clearResumeAll (relpath : String) : Work Unit := statement (.clearResumeAll relpath)

def clearDestStates (relpath : String) : Work Unit := statement (.clearDestStates relpath)

def setDestPhase (relpath dest : String) (phase : DestPhase) : Work Unit :=
  statement (.setDestPhase relpath dest phase)

def recordDestAttempt (relpath dest error : String) (phase : DestPhase) (nextAttemptAt : Int) :
    Work Unit :=
  statement (.recordDestAttempt relpath dest error phase nextAttemptAt)

def setState (relpath : String) (state : ItemState) (now : Int) : Work Unit :=
  statement (.setState relpath state now)

def rollUpItem (relpath : String) (state : ItemState) (attempts : Nat) (nextAttemptAt : Int)
    (lastError : Option String) (now : Int) : Work Unit :=
  statement (.rollUpItem relpath state attempts nextAttemptAt lastError now)

def recordCleanupAttempt (relpath error : String) (state : ItemState) (nextAttemptAt now : Int) :
    Work Unit :=
  statement (.recordCleanupAttempt relpath error state nextAttemptAt now)

def bumpStats (replicated failed bytes : Int64) : Work Unit :=
  statement (.bumpStats replicated failed bytes)

def upsertReady (relpath : String) (size : Nat) (mtimeMs now : Int) : Work Unit :=
  statement (.upsertReady relpath size mtimeMs now)

def claimReady (limit : Nat) (now : Int) : Work (List WorkItem) := statement (.claimReady limit now)

def recoverIncomplete : Work (List WorkItem) := statement .recoverIncomplete

def listByState (state : ItemState) : Work (List WorkItem) := statement (.listByState state)

def deliver (item : WorkItem) (label : String) (resume : Option ResumeState) : Work Delivered :=
  ExceptT.mk (Prog.perform (Op.deliver item label resume))

def verify (item : WorkItem) (label : String) (expected : Delivered) (policy : Verify) : Work Unit :=
  ExceptT.mk (Prog.perform (Op.verify item label expected policy))

def abort (item : WorkItem) (label : String) (resume : ResumeState) : Work Unit :=
  ExceptT.mk (Prog.perform (Op.abort item label resume))

def draw : Program Nat := Prog.perform Op.draw

def spawnAttempts (contexts : List AttemptCtx) : Program Unit :=
  Prog.perform (Op.spawnAttempts contexts)

def joinAttempt : Program (Option (Except String AttemptResult)) := Prog.perform Op.joinAttempt

def endAttempt (result : AttemptResult) : Program Unit := Prog.perform (Op.endAttempt result)

def startAction (ctx : CleanupCtx) : Program Nat := Prog.perform (Op.startAction ctx)

def awaitAction (handle : Nat) : Program (Except String (Except ReplError CleanupDone)) :=
  Prog.perform (Op.awaitAction handle)

def endAction (result : Except ReplError CleanupDone) : Program Unit :=
  Prog.perform (Op.endAction result)

def startQuarantine (job : QuarantineJob) : Program Nat := Prog.perform (Op.startQuarantine job)

def awaitQuarantine (handle : Nat) : Program (Except String Unit) :=
  Prog.perform (Op.awaitQuarantine handle)

def endQuarantine : Program Unit := Prog.perform Op.endQuarantine

def reportQuarantined (relpath : String) : Program Unit :=
  Prog.perform (Op.reportQuarantined relpath)

def isActive : Program Bool := Prog.perform Op.isActive

def lockTick : Program Unit := Prog.perform Op.lockTick

def unlockTick : Program Unit := Prog.perform Op.unlockTick

def discover : Program (List Candidate) := Prog.perform Op.discover

def evaluateSchedule : Program Admission := Prog.perform Op.evaluateSchedule

def spawnBatch (items : List WorkItem) (now : Int) : Program Unit :=
  Prog.perform (Op.spawnBatch items now)

def deadlinePassed : Program Bool := Prog.perform Op.deadlinePassed

/-- The batch is drained, or the window closes while it runs. -/
def nextOfBatch (closable : Bool) : Program BatchEvent := Prog.perform (Op.nextOfBatch closable)

def abortBatch : Program Unit := Prog.perform Op.abortBatch

/-- A program of file-system calls as one of an instance. -/
def onDisk {α : Type} (program : FsProg α) : Program α :=
  program.into fun operation => Prog.perform (Op.fs operation)

end FileReplicator.Operations
