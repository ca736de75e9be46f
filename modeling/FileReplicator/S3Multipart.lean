import Mathlib.Data.List.Sort
import FileReplicator.Classify
import FileReplicator.ObjectPath
import FileReplicator.PartPlanning

/-!
# S3 uploads

The s3 backend against one key of a bucket: multipart uploads under ids the
service hands out, and the object itself. Parts are uploaded several at a time;
a script says which of the requests in flight is answered next, and how.
-/

namespace FileReplicator.S3Multipart

open Domain SourceFile Classify PartPlanning ByteRanges

def mib : Nat := 1024 * 1024

def s3Limits : Limits where
  minPart := 5 * mib
  maxPart := 5 * 1024 * mib
  maxCount := 10000
  positive := by decide
  ordered := by decide
  counted := by decide
  counts := by decide
  reaches := by decide

structure MultipartParams where
  threshold : Nat
  partSize : Nat
  maxConcurrent : Nat
  deriving DecidableEq

def MultipartParams.resolve (thresholdBytes partSizeBytes maxConcurrentParts : Option Nat) :
    MultipartParams where
  threshold := thresholdBytes.getD (16 * mib)
  partSize := clamp s3Limits.minPart s3Limits.maxPart (partSizeBytes.getD (16 * mib))
  maxConcurrent := max (maxConcurrentParts.getD 4) 1

structure S3Dest where
  keyPrefix : String
  multipart : MultipartParams
  algo : Algorithm

def S3Dest.plan (dest : S3Dest) (src : Source) : UploadPlan :=
  planUpload s3Limits dest.multipart.threshold dest.multipart.partSize src.size

def buildHandle (key : String) (s3Checksum : Option String) (algo : Algorithm) (multipart : Bool) :
    Handle :=
  [("key", key), ("s3Checksum", s3Checksum.getD "null"), ("algo", algo.name),
    ("multipart", toString multipart)]

def sourceChanged (origSize : Nat) (origMtimeMs : Int) (nowSize : Nat) (nowMtimeMs : Int) : Bool :=
  origSize ≠ nowSize || origMtimeMs ≠ nowMtimeMs

namespace Token

def fromResume (r : ResumeState) : Option S3ResumeToken :=
  match r.token with
  | .s3 token => some token
  | _ => none

def bytesCommitted (token : S3ResumeToken) (numParts total : Nat) : Nat :=
  (token.completed.map fun p => partLen p.partNumber token.partSize numParts total).sum

def toResume (token : S3ResumeToken) (numParts total : Nat) : ResumeState :=
  { bytesCommitted := bytesCommitted token numParts total, token := .s3 token }

def matchesSource (token : S3ResumeToken) (key : String) (partSize totalSize : Nat) (mtimeMs : Int) :
    Bool :=
  token.key = key && token.partSize = partSize && token.totalSize = totalSize &&
    token.mtimeMs = mtimeMs

end Token

/-- The part numbers of `1..=num_parts` that are not completed, in order. -/
def missingParts (numParts : Nat) (completed : List S3CompletedPart) : List Nat :=
  ((List.range numParts).map (· + 1)).filter fun n =>
    n ∉ completed.map S3CompletedPart.partNumber

/-! ## The service -/

/-- What an endpoint does with flexible checksums, and how it names a part's bytes. -/
structure S3Service where
  validates : Bool
  eTagOf : Bytes → String
  checksumOf : Algorithm → Bytes → String

structure Upload where
  algo : Algorithm
  parts : Nat → Option Bytes

structure S3Server where
  uploads : UploadId → Option Upload
  nextId : UploadId
  object : Option Bytes

structure Failure where
  code : Option String
  status : Option Nat
  transport : Bool
  deriving DecidableEq

def mapSdk (failure : Failure) : ReplError :=
  classifyS3 failure.code failure.status failure.transport

def isNoSuchUpload (failure : Failure) : Bool := failure.code = some "NoSuchUpload"

def isNotFound (failure : Failure) : Bool :=
  failure.code = some "NoSuchKey" || failure.code = some "NotFound" || failure.status = some 404

def noSuchUpload : Failure := ⟨some "NoSuchUpload", some 404, false⟩

def invalidRequest : Failure := ⟨some "InvalidRequest", some 400, false⟩

def invalidPart : Failure := ⟨some "InvalidPart", some 400, false⟩

inductive PutAnswer where
  | accept (echo : Option String)
  | fails (applied : Bool) (failure : Failure)

inductive CreateAnswer where
  | accept
  | noId
  | fails (failure : Failure)

inductive PartAnswer where
  /-- The part is stored, and the response carries an ETag or it does not. -/
  | accept (named : Bool)
  | fails (applied : Bool) (failure : Failure)
  /-- The service has swept the upload before the request. -/
  | sweep

inductive CompleteAnswer where
  | accept (echo : Option String)
  | fails (applied : Bool) (failure : Failure)
  | sweep

inductive HeadAnswer where
  | seen (echo : Option String)
  | fails (failure : Failure)

namespace S3Server

def setUpload (server : S3Server) (id : UploadId) (upload : Option Upload) : S3Server :=
  { server with uploads := fun i => if i = id then upload else server.uploads i }

def storePart (server : S3Server) (id : UploadId) (upload : Upload) (number : Nat) (body : Bytes) :
    S3Server :=
  server.setUpload id
    (some { upload with parts := fun n => if n = number then some body else upload.parts n })

end S3Server

section Service

variable (service : S3Service)

/-- Whether an upload takes parts with this checksum algorithm. -/
def takesAlgo (upload : Upload) (algo : Algorithm) : Bool :=
  !service.validates || upload.algo = algo

/-- `UploadPart`: the service after it, and the ETag and checksum of the response. -/
def uploadPart (server : S3Server) (id : UploadId) (algo : Algorithm) (number : Nat) (body : Bytes)
    (answer : PartAnswer) : S3Server × Except Failure (Option String × Option String) :=
  match answer, server.uploads id with
  | .sweep, _ => (server.setUpload id none, .error noSuchUpload)
  | .fails _ failure, none => (server, .error failure)
  | .accept _, none => (server, .error noSuchUpload)
  | .fails applied failure, some upload =>
      if applied && takesAlgo service upload algo then
        (server.storePart id upload number body, .error failure)
      else (server, .error failure)
  | .accept named, some upload =>
      if takesAlgo service upload algo then
        (server.storePart id upload number body,
          .ok (if named then some (service.eTagOf body) else none,
            if service.validates then some (service.checksumOf algo body) else none))
      else (server, .error invalidRequest)

/-- Whether the upload has the part a completion lists, with the ETag and the checksum given. -/
def hasPart (upload : Upload) (algo : Algorithm) (part : S3CompletedPart) : Bool :=
  match upload.parts part.partNumber with
  | none => false
  | some bytes =>
      service.eTagOf bytes = part.eTag &&
        (!service.validates ||
          match part.checksum with
          | none => true
          | some c => upload.algo = algo && service.checksumOf upload.algo bytes = c)

/-- The parts of a list are in ascending order, each number once. -/
def ascending : List Nat → Bool
  | [] => true
  | [_] => true
  | a :: b :: rest => a < b && ascending (b :: rest)

/-- The effect of `CompleteMultipartUpload`, where the service accepts the list: the listed parts
put together are the object, and the upload is gone. -/
def complete (server : S3Server) (id : UploadId) (algo : Algorithm) (parts : List S3CompletedPart) :
    Except Failure S3Server :=
  match server.uploads id with
  | none => .error noSuchUpload
  | some upload =>
      if parts.all (hasPart service upload algo) &&
          ascending (parts.map S3CompletedPart.partNumber) then
        .ok { server.setUpload id none with
          object := some ((parts.map fun p => (upload.parts p.partNumber).getD []).flatten) }
      else .error invalidPart

/-- `CompleteMultipartUpload`: the service after it, and the object checksum of the response. -/
def completeUpload (server : S3Server) (id : UploadId) (algo : Algorithm)
    (parts : List S3CompletedPart) (answer : CompleteAnswer) :
    S3Server × Except Failure (Option String) :=
  match answer with
  | .sweep => (server.setUpload id none, .error noSuchUpload)
  | .accept echo =>
      match complete service server id algo parts with
      | .ok after => (after, .ok echo)
      | .error failure => (server, .error failure)
  | .fails applied failure =>
      match complete service server id algo parts with
      | .ok after => (if applied then after else server, .error failure)
      | .error _ => (server, .error failure)

end Service

/-! ## run_multipart_attempt -/

inductive MpuResult where
  | ok (delivered : Delivered)
  | gone
  | fatal (error : ReplError)
  | interrupted
  deriving DecidableEq

structure MpuRun where
  result : MpuResult
  server : S3Server
  row : Option ResumeState

/-- For each answer to come, which of the requests in flight it answers; then the commit's. -/
structure AttemptScript where
  parts : List (Nat × PartAnswer)
  complete : CompleteAnswer

/-- Under the lock: push the part and keep the list sorted by number. -/
def recordPart (completed : List S3CompletedPart) (part : S3CompletedPart) : List S3CompletedPart :=
  (completed ++ [part]).insertionSort fun a b => a.partNumber ≤ b.partNumber

section Attempt

variable (service : S3Service) (dest : S3Dest) (src : Source) (key : String)

def tokenRow (count : Nat) (token : S3ResumeToken) : Option ResumeState :=
  some (Token.toResume token count src.size)

def partBody (count : Nat) (token : S3ResumeToken) (number : Nat) : Bytes :=
  slice src.bytes ((number - 1) * token.partSize) (partLen number token.partSize count src.size)

/-- The part whose request is answered next: one of the first `max_concurrent` outstanding. -/
def inFlight (outstanding : List Nat) (pick : Nat) : Option Nat :=
  let flight := outstanding.take (max dest.multipart.maxConcurrent 1)
  flight[pick % flight.length]?

def failedRequest (failure : Failure) : MpuResult :=
  if isNoSuchUpload failure then .gone else .fatal (mapSdk failure)

/-- After the last part: complete with the ordered part list. -/
def finishAttempt (count : Nat) (token : S3ResumeToken) (server : S3Server)
    (answer : CompleteAnswer) : MpuRun :=
  match completeUpload service server token.uploadId dest.algo token.completed answer with
  | (after, .error failure) => ⟨failedRequest failure, after, tokenRow src count token⟩
  | (after, .ok echo) =>
      if sourceChanged src.size src.mtimeMs src.size src.mtimeMs then
        ⟨.fatal (.transient ("s3 source changed during multipart upload of " ++ key ++
          "; re-planning")), after, tokenRow src count token⟩
      else
        ⟨.ok { bytes := src.size, checksum := .none, handle := buildHandle key echo dest.algo true },
          after, tokenRow src count token⟩

/-- The part loop. `token.completed` is the shared list of parts, which the row always holds. -/
def uploadParts (count : Nat) (answer : CompleteAnswer) (outstanding : List Nat)
    (token : S3ResumeToken) (server : S3Server) : List (Nat × PartAnswer) → MpuRun
  | [] =>
      if outstanding = [] then finishAttempt service dest src key count token server answer
      else ⟨.interrupted, server, tokenRow src count token⟩
  | (pick, part) :: rest =>
      match inFlight dest outstanding pick with
      | none => finishAttempt service dest src key count token server answer
      | some number =>
          let body := partBody src count token number
          match uploadPart service server token.uploadId dest.algo number body part with
          | (after, .error failure) => ⟨failedRequest failure, after, tokenRow src count token⟩
          | (after, .ok (none, _)) =>
              ⟨.fatal (.transient ("s3 UploadPart " ++ toString number ++
                ": response had no ETag")), after, tokenRow src count token⟩
          | (after, .ok (some eTag, checksum)) =>
              let done := recordPart token.completed ⟨number, eTag, checksum⟩
              uploadParts count answer (outstanding.erase number) { token with completed := done }
                after rest

def runMultipartAttempt (count : Nat) (token : S3ResumeToken) (server : S3Server)
    (script : AttemptScript) : MpuRun :=
  uploadParts service dest src key count script.complete (missingParts count token.completed) token
    server script.parts

end Attempt

/-! ## deliver -/

/-- The service's answers to one `deliver`: to a single put; to the resumed upload and the look at
the object when that upload is gone; to the new upload. -/
structure DeliverScript where
  single : PutAnswer
  resumed : AttemptScript
  head : HeadAnswer
  create : CreateAnswer
  fresh : AttemptScript

structure DeliverRun where
  result : DeliverResult
  server : S3Server
  row : Option ResumeState

section Deliver

variable (service : S3Service) (dest : S3Dest) (src : Source) (relpath : String)

def recoverCompletedObject (key : String) (server : S3Server) (answer : HeadAnswer) :
    Except ReplError (Option Delivered) :=
  match answer, server.object with
  | .seen echo, some bytes =>
      if bytes.length = src.size then
        .ok (some { bytes := src.size, checksum := .none,
                    handle := buildHandle key echo dest.algo true })
      else .ok none
  | .seen _, none => .ok none
  | .fails failure, _ => if isNotFound failure then .ok none else .error (mapSdk failure)

/-- `create_mpu`: a new upload and its token, written ahead. -/
def createMpu (key : String) (partSize : Nat) (server : S3Server) (answer : CreateAnswer) :
    Except ReplError (S3ResumeToken × S3Server) :=
  match answer with
  | .accept =>
      .ok ({ uploadId := server.nextId, key := key, partSize := partSize, totalSize := src.size,
             mtimeMs := src.mtimeMs, completed := [] },
        { server.setUpload server.nextId (some ⟨dest.algo, fun _ => none⟩) with
          nextId := server.nextId + 1 })
  | .noId => .error (.transient "s3 CreateMultipartUpload: no uploadId")
  | .fails failure => .error (mapSdk failure)

def reusable (key : String) (partSize : Nat) (resume : Option ResumeState) : Option S3ResumeToken :=
  (resume.bind Token.fromResume).filter fun token =>
    Token.matchesSource token key partSize src.size src.mtimeMs

def putFresh (key : String) (partSize count : Nat) (row : Option ResumeState) (server : S3Server)
    (create : CreateAnswer) (script : AttemptScript) : DeliverRun :=
  match createMpu dest src key partSize server create with
  | .error e => ⟨.err e, server, row⟩
  | .ok (token, created) =>
      let run := runMultipartAttempt service dest src key count token created script
      match run.result with
      | .ok d => ⟨.ok d, run.server, run.row⟩
      | .fatal e => ⟨.err e, run.server, run.row⟩
      | .interrupted => ⟨.interrupted, run.server, run.row⟩
      | .gone =>
          ⟨.err (.transient "s3 multipart uploadId disappeared during a fresh upload"), run.server,
            run.row⟩

def putMultipart (key : String) (partSize count : Nat) (resume : Option ResumeState)
    (server : S3Server) (script : DeliverScript) : DeliverRun :=
  match reusable src key partSize resume with
  | none =>
      putFresh service dest src key partSize count resume server script.create script.fresh
  | some token =>
      let run := runMultipartAttempt service dest src key count token server script.resumed
      match run.result with
      | .ok d => ⟨.ok d, run.server, run.row⟩
      | .fatal e => ⟨.err e, run.server, run.row⟩
      | .interrupted => ⟨.interrupted, run.server, run.row⟩
      | .gone =>
          match recoverCompletedObject dest src key run.server script.head with
          | .error e => ⟨.err e, run.server, run.row⟩
          | .ok (some d) => ⟨.ok d, run.server, run.row⟩
          | .ok none =>
              putFresh service dest src key partSize count none run.server script.create
                script.fresh

def putSingle (key : String) (resume : Option ResumeState) (server : S3Server)
    (answer : PutAnswer) : DeliverRun :=
  let stored : S3Server := { server with object := some src.bytes }
  match answer with
  | .fails applied failure =>
      ⟨.err (mapSdk failure), if applied then stored else server, resume⟩
  | .accept echo =>
      if sourceChanged src.size src.mtimeMs src.size src.mtimeMs then
        ⟨.err (.transient ("s3 source changed during upload of " ++ key ++
          "; re-planning against the current bytes")), stored, resume⟩
      else
        ⟨.ok { bytes := src.size, checksum := .none, handle := buildHandle key echo dest.algo false },
          stored, resume⟩

def deliver (resume : Option ResumeState) (server : S3Server) (script : DeliverScript) :
    DeliverRun :=
  let key := ObjectPath.objectKey dest.keyPrefix relpath
  match dest.plan src with
  | .single => putSingle dest src key resume server script.single
  | .parts partSize count =>
      putMultipart service dest src key partSize count resume server script

end Deliver

end FileReplicator.S3Multipart
