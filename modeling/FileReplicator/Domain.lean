import Mathlib.Data.List.Basic

/-!
# Shared domain types

The vocabulary every module speaks: the lifecycle of a tracked file, the work
item a claim hands out, the checkpoint kept for one destination, the result of a
delivery, and the error classes the retry engine tells apart. Texts of events
and metrics are outside this model; texts of errors are kept.
-/

namespace FileReplicator.Domain

abbrev Bytes := List UInt8

inductive ItemState where
  | ready
  | inProgress
  | verified
  | cleanupPending
  | cleanupFailed
  | completed
  | failed
  | exhausted
  | quarantined
  | retained
  deriving DecidableEq, Repr

namespace ItemState

def asStr : ItemState → String
  | ready => "ready"
  | inProgress => "in_progress"
  | verified => "verified"
  | cleanupPending => "cleanup_pending"
  | cleanupFailed => "cleanup_failed"
  | completed => "completed"
  | failed => "failed"
  | exhausted => "exhausted"
  | quarantined => "quarantined"
  | retained => "retained"

def fromStr : String → Option ItemState
  | "ready" => some ready
  | "in_progress" => some inProgress
  | "verified" => some verified
  | "cleanup_pending" => some cleanupPending
  | "cleanup_failed" => some cleanupFailed
  | "completed" => some completed
  | "failed" => some failed
  | "exhausted" => some exhausted
  | "quarantined" => some quarantined
  | "retained" => some retained
  | _ => none

def isTerminal : ItemState → Bool
  | completed | quarantined | retained => true
  | _ => false

theorem from_str_as_str (s : ItemState) : fromStr s.asStr = some s := by
  cases s <;> rfl

end ItemState

inductive DestPhase where
  | pending
  | verified
  | exhausted
  deriving DecidableEq, Repr

namespace DestPhase

def asStr : DestPhase → String
  | pending => "pending"
  | verified => "verified"
  | exhausted => "exhausted"

def fromStr : String → Option DestPhase
  | "pending" => some pending
  | "verified" => some verified
  | "exhausted" => some exhausted
  | _ => none

theorem from_str_as_str (p : DestPhase) : fromStr p.asStr = some p := by
  cases p <;> rfl

end DestPhase

inductive Algorithm where
  | crc32c
  | sha256
  deriving DecidableEq, Repr

def Algorithm.name : Algorithm → String
  | .crc32c => "CRC32C"
  | .sha256 => "SHA256"

inductive Checksum where
  | crc32c (value : UInt32)
  | sha256 (value : Vector UInt8 32)
  | none
  deriving DecidableEq, Repr

/-- The `completion.verify` policy. -/
inductive Verify where
  | checksum
  | size
  | none
  deriving DecidableEq, Repr

/-- The opaque delivery handle: a JSON object, with the values a backend put in it as strings. -/
abbrev Handle := List (String × String)

structure Delivered where
  bytes : Nat
  checksum : Checksum
  handle : Handle
  deriving DecidableEq, Repr

/-- S3's opaque upload id and a GCS session URI: names the server hands out. -/
abbrev UploadId := Nat

structure S3CompletedPart where
  partNumber : Nat
  eTag : String
  checksum : Option String
  deriving DecidableEq, Repr

structure S3ResumeToken where
  uploadId : UploadId
  key : String
  partSize : Nat
  totalSize : Nat
  mtimeMs : Int
  completed : List S3CompletedPart
  deriving DecidableEq, Repr

structure AzureResumeToken where
  blob : String
  blockSize : Nat
  size : Nat
  mtimeMs : Int
  bytesCommitted : Nat
  deriving DecidableEq, Repr

structure GcsResumeToken where
  bucket : String
  object : String
  sessionUri : UploadId
  size : Nat
  mtimeMs : Int
  bytesCommitted : Nat
  deriving DecidableEq, Repr

/-- The token the ftps and sftp backends keep for their temp file. -/
structure TempResumeToken where
  tempPath : String
  size : Nat
  mtimeMs : Int
  bytesCommitted : Nat
  deriving DecidableEq, Repr

structure HttpResumeToken where
  url : String
  size : Nat
  mtimeMs : Int
  bytesCommitted : Nat
  deriving DecidableEq, Repr

/-- `ResumeState::token`: a JSON object with one key, which says who wrote it. -/
inductive Token where
  | verified (delivered : Delivered)
  | s3 (token : S3ResumeToken)
  | azure (token : AzureResumeToken)
  | gcs (token : GcsResumeToken)
  | sftp (token : TempResumeToken)
  | ftps (token : TempResumeToken)
  | http (token : HttpResumeToken)
  | temp (path : String)
  deriving DecidableEq, Repr

structure ResumeState where
  bytesCommitted : Nat
  token : Token
  deriving DecidableEq, Repr

structure WorkItem where
  instanceId : String
  relpath : String
  state : ItemState
  size : Nat
  discoveredAt : Int
  attempts : Nat
  cleanupAttempts : Nat
  nextAttemptAt : Int
  lastError : Option String
  bytesDone : Nat
  updatedAt : Int
  deriving DecidableEq, Repr

structure DestState where
  dest : String
  phase : DestPhase
  attempts : Nat
  nextAttemptAt : Int
  lastError : Option String
  deriving DecidableEq, Repr

/-- The `io::ErrorKind`s the classification tells apart. -/
inductive IoKind where
  | notFound
  | permissionDenied
  | resourceBusy
  | other
  deriving DecidableEq, Repr

inductive ReplError where
  | transient (text : String)
  | permanent (text : String)
  | permissionDenied (text : String)
  | integrity (text : String)
  | state (text : String)
  | io (kind : IoKind) (text : String)
  deriving DecidableEq, Repr

namespace ReplError

def ioKindIsPermanent : IoKind → Bool
  | .notFound | .permissionDenied => true
  | _ => false

def isTransient : ReplError → Bool
  | transient _ | integrity _ => true
  | io kind _ => !ioKindIsPermanent kind
  | permanent _ | permissionDenied _ | state _ => false

def isPermanent : ReplError → Bool
  | permanent _ | permissionDenied _ => true
  | io kind _ => ioKindIsPermanent kind
  | transient _ | integrity _ | state _ => false

/-- `classify_io`. The text is the operating system's own, with the kind appended. -/
def classifyIo (kind : IoKind) (text : String) : ReplError :=
  match kind with
  | .permissionDenied => permissionDenied text
  | .notFound => permanent text
  | _ => transient text

def text : ReplError → String
  | transient t => "transient: " ++ t
  | permanent t => "permanent: " ++ t
  | permissionDenied t => "permission denied: " ++ t
  | integrity t => "integrity: " ++ t
  | state t => "state: " ++ t
  | io _ t => t

end ReplError

/-- How one `deliver` call ends; `interrupted` when the process stops inside it. -/
inductive DeliverResult where
  | ok (delivered : Delivered)
  | err (error : ReplError)
  | interrupted
  deriving DecidableEq, Repr

end FileReplicator.Domain
