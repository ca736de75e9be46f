import FileReplicator.FileTree

/-!
# The completion actions

Moving a source to its archive or quarantine place, deleting it, and the proof
that the archived copy is there. Each is a program of file-system calls that may
be stopped between any two of them.
-/

namespace FileReplicator.SourceActions

open Domain Effects FileTree

abbrev Action (α : Type) := Task FsOp FsRet ReplError α

inductive Collision where
  | suffix
  | overwrite
  | fail
  deriving DecidableEq, Repr

inductive OnSuccess where
  | archive
  | delete
  deriving DecidableEq, Repr

inductive OnExhausted where
  | retainInPlace
  | quarantine
  deriving DecidableEq, Repr

/-- `classify_io` on the error of a file-system call. -/
def classifyIoError (e : IoError) : ReplError := ReplError.classifyIo e.kind e.text

/-- `classify_cleanup_io`: a locked file is transient here. -/
def classifyCleanupIo (e : IoError) : ReplError :=
  match e.kind with
  | .permissionDenied | .resourceBusy => .transient e.text
  | _ => classifyIoError e

section Moving

variable {α : Type} (classify : IoError → ReplError)

def tryFs (program : FsProg (Except IoError α)) : Action α :=
  ExceptT.mk (program >>= fun result => pure (result.mapError classify))

def freeSuffix (dst : Path) : List Nat → Action Path
  | [] => throw (.permanent ("no free suffixed name for " ++ "/".intercalate dst))
  | i :: rest => do
      if ← always (pathExists (suffixed dst i)) then freeSuffix dst rest
      else return suffixed dst i

def suffixes : List Nat := List.range' 1 9999

def resolveCollision (dst : Path) (collision : Collision) : Action Path := do
  if ← always (pathExists dst) then
    match collision with
    | .overwrite => do
        tryFs classify (removeFile dst)
        return dst
    | .fail => throw (.permanent ("destination already exists: " ++ "/".intercalate dst))
    | .suffix => freeSuffix dst suffixes
  else return dst

/-- A failed step of the fallback: the temp file is removed as far as that works. -/
def dropTemp (tmp : Path) (e : IoError) : Action Unit := do
  let _ ← always (removeFile tmp)
  throw (classify e)

/-- A step of the fallback whose failure drops the temp file. -/
def orDropTemp (tmp : Path) (program : FsProg (Except IoError Unit)) : Action Unit := do
  match ← always program with
  | .ok () => return ()
  | .error e => dropTemp classify tmp e

def removeExisting (tmp target : Path) : Action Unit := do
  if ← always (pathExists target) then orDropTemp classify tmp (removeFile target)
  else return ()

/-- The temp file takes its name; a target in the way is removed first. -/
def publishTemp (tmp target : Path) : Action Unit := do
  match ← always (rename tmp target) with
  | .ok () => return ()
  | .error _ => do
      removeExisting classify tmp target
      orDropTemp classify tmp (rename tmp target)

def moveByCopy (src target : Path) : Action Path := do
  let tag ← always nanos
  orDropTemp classify (moveTempPath target tag) (copy src (moveTempPath target tag))
  publishTemp classify (moveTempPath target tag) target
  tryFs classify (removeFile src)
  return target

def createParent (dst : Path) : Action Unit :=
  if dst = [] then return () else tryFs classify (createDirAll dst.dropLast)

def moveFile (src dst : Path) (collision : Collision) : Action Path := do
  createParent classify dst
  let target ← resolveCollision classify dst collision
  match ← always (rename src target) with
  | .ok () => return target
  | .error _ => moveByCopy classify src target

end Moving

/-! ## The success action -/

/-- `CleanupCtx`, with the hash of the integrity module as a parameter of its users. -/
structure CleanupCtx where
  onSuccess : OnSuccess
  src : Path
  archiveDir : Option Path
  relpath : String
  collision : Collision
  verify : Verify
  expectedSize : Nat
  expectedChecksum : Checksum
  deriving DecidableEq

inductive CleanupDone where
  | deleted
  | archived (target : Option Path)
  deriving DecidableEq

def verifySize (expected actual : Nat) : Except ReplError Unit :=
  if expected = actual then .ok ()
  else .error (.integrity
    ("size mismatch: expected " ++ toString expected ++ ", got " ++ toString actual))

def verifyChecksum (expected actual : Checksum) : Except ReplError Unit :=
  if expected = .none ∨ actual = .none then .ok ()
  else if expected = actual then .ok ()
  else .error (.integrity "checksum mismatch")

def permanentMismatch : ReplError → ReplError
  | .integrity text => .permanent ("archived copy mismatch: " ++ text)
  | other => other

def algorithmOf : Checksum → Option Algorithm
  | .crc32c _ => some .crc32c
  | .sha256 _ => some .sha256
  | .none => none

section Success

variable (digest : Algorithm → Bytes → Checksum)

/-- The checksum half of `verify_archived`. -/
def rehash (target : Path) (ctx : CleanupCtx) : Action Unit :=
  match algorithmOf ctx.expectedChecksum with
  | none => return ()
  | some algo => do
      let bytes ← tryFs classifyCleanupIo (readFile target)
      ExceptT.mk (pure ((verifyChecksum ctx.expectedChecksum (digest algo bytes)).mapError
        permanentMismatch))

def verifyArchived (target : Path) (ctx : CleanupCtx) : Action Unit := do
  let len ← tryFs classifyCleanupIo (fileLen target)
  ExceptT.mk (pure ((verifySize ctx.expectedSize len).mapError permanentMismatch))
  if ctx.verify = .checksum then rehash digest target ctx else return ()

def stillPresentText (src : Path) : String :=
  "delete returned success but the source is still present: " ++ "/".intercalate src

/-- A source that is gone already was removed by an earlier attempt. -/
def removalOutcome : Except IoError Unit → Action Unit
  | .ok () => return ()
  | .error e => if e.kind = .notFound then return () else throw (classifyCleanupIo e)

def deleteSource (ctx : CleanupCtx) : Action CleanupDone := do
  let removed ← always (removeFile ctx.src)
  removalOutcome removed
  if ← always (pathExists ctx.src) then throw (.transient (stillPresentText ctx.src))
  else return .deleted

def noArchiveDirText (relpath : String) : String :=
  "onSuccess=archive requires completion.archiveDir; cannot archive " ++ relpath

/-- The source is gone: an earlier attempt moved it, to the plain name or to another. -/
def findArchived (ctx : CleanupCtx) (dst : Path) : Action CleanupDone := do
  if ← always (pathExists dst) then
    verifyArchived digest dst ctx
    return .archived (some dst)
  else return .archived none

def archiveSource (ctx : CleanupCtx) (dir : Path) : Action CleanupDone := do
  if ← always (pathExists ctx.src) then
    let target ← moveFile classifyCleanupIo ctx.src (joinRel dir ctx.relpath) ctx.collision
    verifyArchived digest target ctx
    return .archived (some target)
  else findArchived digest ctx (joinRel dir ctx.relpath)

def applySuccessAction (ctx : CleanupCtx) : Action CleanupDone :=
  match ctx.onSuccess with
  | .delete => deleteSource ctx
  | .archive =>
      match ctx.archiveDir with
      | none => throw (.permanent (noArchiveDirText ctx.relpath))
      | some dir => archiveSource digest ctx dir

end Success

structure QuarantineCtx where
  instanceId : String
  relpath : String
  lastError : String
  attempts : Nat
  firstSeen : Int
  lastTry : Int
  destination : String
  bytesDone : Nat
  deriving DecidableEq

def sidecarPath (dst : Path) : Path :=
  withFileName dst (dst.getLast?.getD "" ++ ".error.json")

section Quarantine

-- The pretty JSON of a sidecar, as serde_json writes it.
variable (render : QuarantineCtx → Bytes)

def writeErrorSidecar (dst : Path) (ctx : QuarantineCtx) : FsProg Unit := do
  let _ ← createDirAll (sidecarPath dst).dropLast
  let _ ← writeFile (sidecarPath dst) (render ctx)
  return ()

def moveIfThere (src dst : Path) (collision : Collision) : FsProg Unit := do
  if ← pathExists src then bestEffort (moveFile classifyIoError src dst collision)
  else return ()

def applyQuarantineAction (failedDir : Option Path) (src : Path) (collision : Collision)
    (ctx : QuarantineCtx) : FsProg Unit :=
  match failedDir with
  | none => return ()
  | some dir => do
      moveIfThere src (joinRel dir ctx.relpath) collision
      writeErrorSidecar render (joinRel dir ctx.relpath) ctx

end Quarantine

end FileReplicator.SourceActions
