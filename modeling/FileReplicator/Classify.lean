import FileReplicator.Domain

/-!
# Error classes of the network backends

How a refused or unanswered request becomes an error of the retry engine. The
azure, gcs and http backends classify by status alone; s3 looks at its error
codes first.
-/

namespace FileReplicator.Classify

open Domain

def statusText (tag : String) (status : Nat) : String :=
  tag ++ " status " ++ toString status

/-- The status bands that `classify_azure`, `classify_gcs` and `classify_http` share. -/
def classifyStatus (tag : String) (status : Option Nat) (transport : Bool) : ReplError :=
  match transport, status with
  | true, none => .transient (tag ++ " transport failure")
  | true, some s => .transient (tag ++ " transport failure (" ++ toString s ++ ")")
  | false, some s =>
      if s ≥ 500 ∨ s = 429 ∨ s = 408 then .transient (statusText tag s)
      else if 400 ≤ s ∧ s < 500 then .permanent (statusText tag s)
      else .transient (statusText tag s ++ " (unclassified)")
  | false, none => .transient (tag ++ " error (unclassified)")

def classifyAzure : Option Nat → Bool → ReplError := classifyStatus "azure"

def classifyGcs : Option Nat → Bool → ReplError := classifyStatus "gcs"

def isPermanentCode (code : String) : Bool :=
  code ∈ ["NoSuchBucket", "NoSuchKey", "AccessDenied", "AccessDeniedException", "AllAccessDisabled",
    "InvalidAccessKeyId", "SignatureDoesNotMatch", "InvalidRequest", "InvalidArgument",
    "InvalidBucketName", "EntityTooLarge", "EntityTooSmall", "MethodNotAllowed",
    "PreconditionFailed", "KMS.DisabledException", "KMSInvalidStateException"]

def isTransientCode (code : String) : Bool :=
  code ∈ ["SlowDown", "RequestTimeout", "RequestTimeTooSkewed", "Throttling", "ThrottlingException",
    "RequestLimitExceeded", "TooManyRequests", "ServiceUnavailable", "InternalError", "BadDigest",
    "XAmzContentChecksumMismatch", "XAmzContentSHA256Mismatch"]

def codeSuffix (code : Option String) : String :=
  (code.map fun c => " (" ++ c ++ ")").getD ""

/-- The part of `classify_s3` that no listed code decides. -/
def classifyS3Status (code : Option String) (status : Option Nat) : ReplError :=
  let byCode : ReplError :=
    match code with
    | some c => .permanent ("s3 error: " ++ c)
    | none => .transient "s3 error (unclassified)"
  match status with
  | some s =>
      if s ≥ 500 ∨ s = 429 then .transient ("s3 http " ++ toString s ++ codeSuffix code)
      else if s ≥ 400 then .permanent ("s3 http " ++ toString s ++ codeSuffix code)
      else byCode
  | none => byCode

def classifyS3 (code : Option String) (status : Option Nat) (transport : Bool) : ReplError :=
  if transport then .transient ("s3 transport failure" ++ codeSuffix code)
  else
    match code with
    | some c =>
        if isPermanentCode c then .permanent ("s3 error: " ++ c)
        else if isTransientCode c then .transient ("s3 error: " ++ c)
        else classifyS3Status code status
    | none => classifyS3Status code status

def isPermanentKind (kind : String) : Bool :=
  kind ∈ ["auth", "permission_denied", "host_key_mismatch", "no_such_file", "bad_message",
    "op_unsupported"]

def isTransientKind (kind : String) : Bool :=
  kind ∈ ["no_connection", "connection_lost", "timeout", "failure"]

def classifySftp (kind : String) (transport : Bool) : ReplError :=
  if transport then .transient ("sftp transport failure (" ++ kind ++ ")")
  else if kind = "permission_denied" then .permissionDenied ("sftp error: " ++ kind)
  else if isPermanentKind kind then .permanent ("sftp error: " ++ kind)
  else if isTransientKind kind then .transient ("sftp error: " ++ kind)
  else .transient ("sftp error (unclassified): " ++ kind)

def isPermanentFtpCode (code : Nat) : Bool := code ∈ [530, 532, 550, 551, 552, 553]

def isTransientFtpCode (code : Nat) : Bool := code ∈ [421, 425, 426, 450, 451, 452]

def classifyFtps (code : Option Nat) (transport : Bool) : ReplError :=
  match transport, code with
  | true, none => .transient "ftps transport failure"
  | true, some c => .transient ("ftps transport failure (" ++ toString c ++ ")")
  | false, some c =>
      if isPermanentFtpCode c then .permanent ("ftps error: " ++ toString c)
      else if isTransientFtpCode c then .transient ("ftps error: " ++ toString c)
      else .transient ("ftps error (unclassified): " ++ toString c)
  | false, none => .transient "ftps error (unclassified)"

end FileReplicator.Classify
