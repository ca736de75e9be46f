import FileReplicator.Instance

/-!
# What each thread keeps to

The notes a thread has of its own calls: which rows are on its list, which
destinations it takes to be verified, and how far it is with the action it runs.
From them follows which calls it makes at all. Every thread of an instance keeps
to this, whatever the others do.
-/

namespace FileReplicator.Protocol

open Domain DurableStore Effects FileTree SourceActions Operations Worker Instance

variable (setup : Setup)

inductive Role where
  | recover
  | tick
  | item (relpath : String)
  | attempt (relpath label : String)
  | action (ctx : CleanupCtx)
  | quarantine (job : QuarantineJob)
  deriving DecidableEq

inductive Stage where
  | idle
  | marked (relpath : String)
  | acting (handle : Nat) (ctx : CleanupCtx)
  | acted (ctx : CleanupCtx) (done : CleanupDone)
  | failed (ctx : CleanupCtx)
  | moving (handle : Nat) (job : QuarantineJob)
  | moved (job : QuarantineJob) (joined : Bool)
  deriving DecidableEq

/-- What an action has seen of its own file-system calls. -/
structure Disk where
  /-- What it was told of the source. -/
  present : Option Bool
  /-- The last path it was told to be free once it had found no source. -/
  absent : Option Path
  measured : Option (Path × Nat)
  hashed : Option (Path × Bytes)
  deriving DecidableEq

inductive Place where
  | looking
  /-- The source is there. -/
  | there
  /-- The plain name is free. -/
  | free
  /-- The source could not be renamed. -/
  | fallen
  | copied (tmp : Path)
  /-- The copy could not be renamed. -/
  | again (tmp : Path)
  /-- The copy has taken its name, and the source is still there. -/
  | doubled
  /-- The source is gone. -/
  | moved
  /-- The sidecar is written. -/
  | settled
  /-- A name was taken, or a call it cannot do without has failed. -/
  | off
  deriving DecidableEq

structure Notes where
  role : Role
  /-- The rows that are still on the list. -/
  todo : List String
  /-- `Failed` rows it has listed. -/
  promoting : List String
  /-- Destinations of rows it takes to be verified. -/
  sure : List (String × String)
  /-- Destinations that are not verified, or that it has looked at. -/
  cleared : List (String × String)
  stage : Stage
  /-- The destination whose `verify` has passed last. -/
  passed : Option (String × String)
  delivered : Bool
  disk : Disk
  place : Place
  /-- The item it has recorded last as quarantined. -/
  recorded : Option String
  deriving DecidableEq

/-! ## Learning -/

def noDisk : Disk := ⟨none, none, none, none⟩

def allLabels (relpath : String) : List (String × String) :=
  setup.labels.map fun label => (relpath, label)

def labelsOf (rows : List WorkItem) : List (String × String) :=
  rows.flatMap fun it => allLabels setup it.relpath

namespace Notes

variable (n : Notes)

def leave (relpath : String) : Notes :=
  { n with
    todo := n.todo.erase relpath
    promoting := n.promoting.erase relpath
    stage := .idle }

def look (relpath label : String) (phase : DestPhase) : Notes :=
  { n with
    sure :=
      if phase = .verified then (relpath, label) :: n.sure
      else n.sure.filter fun p => p ≠ (relpath, label)
    cleared := (relpath, label) :: n.cleared }

def enter (rows : List WorkItem) (sure : List (String × String)) : Notes :=
  { n with todo := rows.map WorkItem.relpath, sure := sure }

end Notes

def learnStates (n : Notes) (relpath : String) (existing : String → Option DestState) : Notes :=
  match n.role with
  | .item _ =>
      { n with sure := (verifiedLabels setup existing).map (fun l => (relpath, l)) ++ n.sure }
  | _ =>
      { n with
        cleared :=
          ((setup.labels.filter fun l => phaseOf existing l ≠ .verified).map fun l => (relpath, l)) ++
            n.cleared }

def learnState (n : Notes) (relpath : String) : ItemState → Notes
  | .cleanupPending => { n with stage := .marked relpath }
  | .verified => n
  | .quarantined => { n.leave relpath with recorded := some relpath }
  | _ => n.leave relpath

def toRevert (found : Option WorkItem) : List WorkItem :=
  found.toList.filter fun row => row.state ≠ .ready

def learnRow (n : Notes) (found : Option WorkItem) : Notes :=
  n.enter (toRevert found) (labelsOf setup ((toRevert found).filter fun row => row.state = .cleanupPending))

def learnList (n : Notes) (rows : List WorkItem) : ItemState → Notes
  | .failed => { n with promoting := rows.map WorkItem.relpath }
  | .cleanupPending => n.enter rows (labelsOf setup rows)
  | .cleanupFailed =>
      { n with
        todo := n.todo ++ rows.map WorkItem.relpath
        sure := n.sure ++ labelsOf setup rows }
  | _ => n.enter rows []

def learnStatement (n : Notes) : (operation : StoreOp) → StoreRet operation → Notes
  | .destStates relpath, existing => learnStates setup n relpath existing
  | .getRow _, row => learnRow setup n row
  | .setDestPhase relpath label phase, _ => n.look relpath label phase
  | .setState relpath state _, _ => learnState n relpath state
  | .rollUpItem relpath state _ _ _ _, _ => if state = .failed then n.leave relpath else n
  | .recordCleanupAttempt relpath _ _ _ _, _ => n.leave relpath
  | .claimReady _ _, rows => n.enter rows []
  | .recoverIncomplete, rows =>
      n.enter rows (labelsOf setup (rows.filter fun it => it.state = .cleanupPending))
  | .listByState state, rows => learnList setup n rows state
  | _, _ => n

/-- A refused statement ends what the thread was doing. -/
def learnRefused (n : Notes) : StoreOp → Notes
  | .setState _ _ _ | .recordCleanupAttempt _ _ _ _ _ => { n with stage := .idle }
  | _ => n

def learnDisk (src : Path) (d : Disk) : (operation : FsOp) → FsRet operation → Disk
  | .pathExists path, found =>
      if path = src ∧ d.present = none then { d with present := some found }
      else if found = false ∧ d.present = some false then { d with absent := some path }
      else d
  | .fileLen path, .ok n => { d with measured := some (path, n) }
  | .readFile path, .ok bytes => { d with hashed := some (path, bytes) }
  | _, _ => d

def plainPath (job : QuarantineJob) : Path := joinRel (job.failedDir.getD []) job.ctx.relpath

/-- How a call of a quarantine ends, as far as it matters to what comes next. -/
def advance (job : QuarantineJob) : Place → (operation : FsOp) → FsRet operation → Place
  | .looking, .pathExists _, found => if found then .there else .moved
  | .there, .pathExists _, found =>
      if found = false then .free else if job.collision = .overwrite then .there else .off
  | .there, .createDirAll _, .error _ => .off
  | .there, .removeFile _, result => if result.isOk then .free else .off
  | .free, .rename _ _, result => if result.isOk then .moved else .fallen
  | .fallen, .copy _ tmp, result => if result.isOk then .copied tmp else .off
  | .copied tmp, .rename _ _, result => if result.isOk then .doubled else .again tmp
  | .again _, .rename _ _, result => if result.isOk then .doubled else .off
  | .again _, .removeFile _, .error _ => .off
  | .doubled, .removeFile _, result => if result.isOk then .moved else .off
  | .moved, .writeFile _ _, result => if result.isOk then .settled else .off
  | place, _, _ => place

def Role.src : Role → Path
  | .action ctx => ctx.src
  | .quarantine job => job.src
  | _ => []

def learnPlace (role : Role) (place : Place) (operation : FsOp) (ret : FsRet operation) : Place :=
  match role with
  | .quarantine job => advance job place operation ret
  | _ => place

def learnJoined (n : Notes) : Option (Except String AttemptResult) → Notes
  | some (.ok (.ok (label, .verified))) =>
      match n.role with
      | .item relpath => { n with sure := (relpath, label) :: n.sure }
      | _ => n
  | _ => n

def learnOutcome (n : Notes) : Except String (Except ReplError CleanupDone) → Notes
  | .ok (.ok done) =>
      match n.stage with
      | .acting _ ctx => { n with stage := .acted ctx done }
      | _ => n
  | _ =>
      match n.stage with
      | .acting _ ctx => { n with stage := .failed ctx }
      | _ => n

def learnMoved (n : Notes) (result : Except String Unit) : Notes :=
  match n.stage with
  | .moving _ job => { n with stage := .moved job result.isOk }
  | _ => n

def learn (n : Notes) : (operation : Op) → Ret operation → Notes
  | .store operation, .ok ret => learnStatement setup n operation ret
  | .store operation, .error _ => learnRefused n operation
  | .fs operation, ret =>
      { n with
        disk := learnDisk n.role.src n.disk operation ret
        place := learnPlace n.role n.place operation ret }
  | .deliver _ _ _, .ok _ => { n with delivered := true }
  | .verify item label _ _, .ok _ => { n with passed := some (item.relpath, label) }
  | .verify _ _ _ _, .error _ => { n with passed := none }
  | .joinAttempt, result => learnJoined n result
  | .startAction ctx, handle => { n with stage := .acting handle ctx }
  | .awaitAction _, result => learnOutcome n result
  | .startQuarantine job, handle => { n with stage := .moving handle job }
  | .awaitQuarantine _, result => learnMoved n result
  | .spawnBatch _ _, _ => { n with todo := [] }
  | _, _ => n

/-! ## What is allowed -/

/-- A thread that drives rows on its own account. -/
def Role.drives : Role → Bool
  | .recover | .tick => true
  | _ => false

def Notes.surely (n : Notes) (relpath : String) : Prop :=
  ∀ label ∈ setup.labels, (relpath, label) ∈ n.sure

def allowedState (n : Notes) (relpath : String) : ItemState → Prop
  | .cleanupPending => n.stage = .idle ∧ relpath ∈ n.todo ∧ n.surely setup relpath
  | .verified => n.role = .item relpath ∧ n.stage = .idle ∧ relpath ∈ n.todo ∧ n.surely setup relpath
  | .completed =>
      ∃ ctx done, n.stage = .acted ctx done ∧ ctx.relpath = relpath ∧ relpath ∈ n.todo
  | .ready =>
      n.stage = .idle ∧
        ((n.role = .tick ∧ (relpath ∈ n.promoting ∨ relpath ∈ n.todo)) ∨
          (n.role = .recover ∧ relpath ∈ n.todo ∧
            ∀ label ∈ setup.labels, (relpath, label) ∈ n.cleared))
  | .retained => n.stage = .idle ∧ relpath ∈ n.todo
  | .quarantined =>
      ∃ job joined, n.stage = .moved job joined ∧ job.ctx.relpath = relpath ∧ relpath ∈ n.todo
  | _ => False

def allowedPhase (n : Notes) (relpath label : String) (phase : DestPhase) : Prop :=
  (n.role = .attempt relpath label ∧ phase = .verified ∧ n.delivered = true ∧
      n.passed = some (relpath, label)) ∨
    (n.role.drives = true ∧ n.stage = .idle ∧ relpath ∈ n.todo ∧ phase ≠ .exhausted ∧
      (phase = .verified → n.passed = some (relpath, label)))

def allowedStatement (n : Notes) : StoreOp → Prop
  | .destStates relpath =>
      n.stage = .idle ∧ relpath ∈ n.todo ∧ (n.role = .item relpath ∨ n.role = .recover)
  | .getRow _ => n.role = .tick ∧ n.stage = .idle
  | .saveResume relpath label _ => n.role = .attempt relpath label
  | .setDestPhase relpath label phase => allowedPhase n relpath label phase
  | .recordDestAttempt relpath label _ phase _ =>
      n.role = .attempt relpath label ∧ phase ≠ .verified
  | .setState relpath state _ => allowedState setup n relpath state
  | .rollUpItem relpath state _ _ _ _ =>
      n.role = .item relpath ∧ n.stage = .idle ∧ relpath ∈ n.todo ∧
        (state = .failed ∨ state = .exhausted)
  | .recordCleanupAttempt relpath _ state _ _ =>
      state = .cleanupFailed ∧ relpath ∈ n.todo ∧ ∃ ctx, n.stage = .failed ctx ∧ ctx.relpath = relpath
  | .upsertReady _ _ _ _ => n.role = .tick ∧ n.stage = .idle ∧ n.todo = [] ∧ n.promoting = []
  | .claimReady _ _ => n.role = .tick ∧ n.stage = .idle
  | .recoverIncomplete => n.role = .recover ∧ n.stage = .idle ∧ n.todo = []
  | .listByState state =>
      n.stage = .idle ∧
        ((n.role = .tick ∧ (state = .failed ∨ state = .cleanupPending ∨ state = .cleanupFailed)) ∨
          (n.role = .recover ∧ state = .exhausted))
  | .clearDestStates _ | .clearResumeAll _ | .clearResume _ _ | .loadResume _ _
  | .bumpStats _ _ _ => True
  -- progress is persisted within a delivery, which is one call here
  | .setBytesDone _ _ _ => False

/-- Where the archive may have the file of an action. -/
def archiveNames (ctx : CleanupCtx) (dir : Path) : List Path :=
  joinRel dir ctx.relpath :: suffixes.map (suffixed (joinRel dir ctx.relpath))

/-- The check of `verify_archived` as the action has seen it pass. -/
def Checked (ctx : CleanupCtx) (d : Disk) (path : Path) : Prop :=
  d.measured = some (path, ctx.expectedSize) ∧
    (ctx.verify = .checksum → ∀ algo, algorithmOf ctx.expectedChecksum = some algo →
      ∃ bytes, d.hashed = some (path, bytes) ∧
        verifyChecksum ctx.expectedChecksum (setup.digest algo bytes) = .ok ())

def Proved (ctx : CleanupCtx) (d : Disk) : Except ReplError CleanupDone → Prop
  | .ok (.archived (some path)) =>
      Checked setup ctx d path ∧ ∃ dir, ctx.archiveDir = some dir ∧ path ∈ archiveNames ctx dir
  | .ok (.archived none) =>
      d.present = some false ∧ d.measured = none ∧
        ∃ dir, ctx.archiveDir = some dir ∧ d.absent = some (joinRel dir ctx.relpath)
  | .ok .deleted => ctx.onSuccess = .delete
  | .error _ => True

/-- What the action of a cleanup may call: it measures the archive once, and changes nothing from
then on or once it has found no source. -/
def mayAct (ctx : CleanupCtx) (d : Disk) : FsOp → Prop
  | .pathExists _ | .nanos => True
  | .fileLen path =>
      d.measured = none ∧ ∃ dir, ctx.archiveDir = some dir ∧ path ∈ archiveNames ctx dir
  | .readFile path => ∃ n, d.measured = some (path, n)
  | _ => d.measured = none ∧ d.present ≠ some false

def mayMove (job : QuarantineJob) : Place → FsOp → Prop
  | .looking, operation => operation = .pathExists job.src
  | .there, operation =>
      (∃ path, operation = .createDirAll path) ∨ operation = .pathExists (plainPath job) ∨
        (operation = .removeFile (plainPath job) ∧ job.collision = .overwrite)
  | .free, operation => operation = .rename job.src (plainPath job)
  | .fallen, operation =>
      operation = .nanos ∨ ∃ tag, operation = .copy job.src (moveTempPath (plainPath job) tag)
  | .copied tmp, operation => operation = .rename tmp (plainPath job)
  | .again tmp, operation =>
      operation = .pathExists (plainPath job) ∨ operation = .removeFile (plainPath job) ∨
        operation = .rename tmp (plainPath job)
  | .doubled, operation => operation = .removeFile job.src
  | .moved, operation =>
      (∃ path, operation = .createDirAll path) ∨
        operation = .writeFile (sidecarPath (plainPath job)) (setup.render job.ctx)
  | .settled, _ => False
  | .off, _ => True

def allowedDisk (n : Notes) (operation : FsOp) : Prop :=
  (∃ ctx, n.role = .action ctx ∧ mayAct ctx n.disk operation) ∨
    ∃ job, n.role = .quarantine job ∧ mayMove setup job n.place operation

/-- A quarantine that ends has written its sidecar, unless it had nowhere to go or went wrong. -/
def Settled (job : QuarantineJob) (place : Place) : Prop :=
  job.failedDir = none ∨ place = .settled ∨ place = .off

def allowed (n : Notes) : Op → Prop
  | .store operation => allowedStatement setup n operation
  | .fs operation => allowedDisk setup n operation
  | .deliver item label _ => n.role = .attempt item.relpath label
  | .verify item label _ _ =>
      n.role = .attempt item.relpath label ∨
        (n.role.drives = true ∧ n.stage = .idle ∧ item.relpath ∈ n.todo)
  | .spawnAttempts contexts =>
      ∃ relpath, n.role = .item relpath ∧ relpath ∈ n.todo ∧ n.stage = .idle ∧
        ∀ ctx ∈ contexts, ctx.item.relpath = relpath ∧ ctx.label ∈ setup.labels
  | .joinAttempt => ∃ relpath, n.role = .item relpath ∧ relpath ∈ n.todo ∧ n.stage = .idle
  | .endAttempt result =>
      ∃ relpath label, n.role = .attempt relpath label ∧
        ∀ found outcome, result = .ok (found, outcome) →
          found = label ∧ (outcome = .verified → (relpath, label) ∈ n.sure)
  | .startAction ctx =>
      n.stage = .marked ctx.relpath ∧ ctx.relpath ∈ n.todo ∧ n.surely setup ctx.relpath ∧
        ∃ item checksum, ctx = cleanupCtx setup item checksum
  | .awaitAction handle => ∃ ctx, n.stage = .acting handle ctx
  | .endAction result => ∃ ctx, n.role = .action ctx ∧ Proved setup ctx n.disk result
  | .startQuarantine job =>
      n.stage = .idle ∧ job.ctx.relpath ∈ n.todo ∧
        ∃ item lastError attempts now, job = quarantineJob setup item lastError attempts now
  | .awaitQuarantine handle => ∃ job, n.stage = .moving handle job
  | .endQuarantine => ∃ job, n.role = .quarantine job ∧ Settled job n.place
  | .reportQuarantined relpath => n.recorded = some relpath
  | .spawnBatch items _ =>
      n.role = .tick ∧ n.stage = .idle ∧ items.map WorkItem.relpath = n.todo ∧
        (items.map WorkItem.relpath).Nodup
  | .nextOfBatch _ => n.role = .tick ∧ n.stage = .idle ∧ n.todo = []
  | .abortBatch => n.role = .tick ∧ n.stage = .idle ∧ n.todo = []
  | _ => True

/-- What the store promises of its answers, and the attempts of theirs. -/
def possible : (operation : Op) → Ret operation → Prop
  | .store (.claimReady _ _), .ok rows => (rows.map WorkItem.relpath).Nodup
  | .store .recoverIncomplete, .ok rows => (rows.map WorkItem.relpath).Nodup
  | .store (.getRow relpath), .ok (some row) => row.relpath = relpath
  | .joinAttempt, some (.ok (.ok (label, _))) => label ∈ setup.labels
  | _, _ => True

def discipline : Discipline Op Ret Notes where
  allowed := allowed setup
  possible := possible setup
  learn := learn setup

def freshNotes (role : Role) (todo : List String) : Notes :=
  ⟨role, todo, [], [], [], .idle, none, false, noDisk, .looking, none⟩

def start : Spec → Notes
  | .recover _ => freshNotes .recover []
  | .tick _ _ _ _ => freshNotes .tick []
  | .item _ item _ => freshNotes (.item item.relpath) [item.relpath]
  | .attempt _ ctx => freshNotes (.attempt ctx.item.relpath ctx.label) []
  | .action _ ctx => freshNotes (.action ctx) []
  | .quarantine _ job => freshNotes (.quarantine job) []

/-- The instance, with the notes of its threads. -/
abbrev engine := machine setup (discipline setup) (fun n => n.stage = .idle) start

end FileReplicator.Protocol
