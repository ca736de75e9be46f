import FileReplicator.ChunkBounds
import FileReplicator.Classify
import FileReplicator.ObjectPath
import FileReplicator.PartPlanning

/-!
# Azure staged blocks

The azure backend against one blob of a storage account: blocks staged under
their number, a block list that commits them, and the blob itself. A script
holds the service's answer to each request.
-/

namespace FileReplicator.AzureBlocks

open Domain ByteRanges SourceFile ChunkBounds Classify PartPlanning

def mib : Nat := 1024 * 1024

def azureLimits : Limits where
  minPart := 1
  maxPart := 4000 * mib
  maxCount := 50000
  positive := by decide
  ordered := by decide
  counted := by decide
  counts := by decide
  reaches := by decide

structure AzureBlockParams where
  threshold : Nat
  blockSize : Nat
  deriving DecidableEq

def AzureBlockParams.resolve (thresholdBytes blockSizeBytes : Option Nat) : AzureBlockParams where
  threshold := thresholdBytes.getD (16 * mib)
  blockSize := clamp azureLimits.minPart azureLimits.maxPart (blockSizeBytes.getD (16 * mib))

structure AzureDest where
  keyPrefix : String
  blocks : AzureBlockParams
  algo : Algorithm

def AzureDest.plan (dest : AzureDest) (src : Source) : UploadPlan :=
  planUpload azureLimits dest.blocks.threshold dest.blocks.blockSize src.size

def buildHandle (blob : String) (algo : Algorithm) : Handle :=
  [("blob", blob), ("algo", algo.name)]

namespace Token

def fromResume (r : ResumeState) : Option AzureResumeToken :=
  match r.token with
  | .azure token => some token
  | _ => none

def toResume (token : AzureResumeToken) : ResumeState :=
  { bytesCommitted := token.bytesCommitted, token := .azure token }

def matchesSource (token : AzureResumeToken) (blob : String) (blockSize size : Nat) (mtimeMs : Int) :
    Bool :=
  token.blob = blob && token.blockSize = blockSize && token.size = size && token.mtimeMs = mtimeMs

end Token

/-! ## The service -/

/-- The uncommitted blocks of the blob by number, and the committed blob. -/
structure AzureServer where
  staged : Nat → Option Bytes
  object : Option Bytes

/-- How the service meets a request that may change something. -/
inductive Answer where
  /-- It does it and says so. -/
  | accept
  /-- The client sees no answer; it may have been done. -/
  | lost (applied : Bool)
  /-- The client sees a refusal; an earlier try of the same request may have been done. -/
  | refuse (applied : Bool) (code : Nat)
  deriving DecidableEq

def refusal (code : Nat) : Option Nat := some (max code 400)

namespace AzureServer

def stage (server : AzureServer) (number : Nat) (body : Bytes) : AzureServer :=
  { server with staged := fun n => if n = number then some body else server.staged n }

/-- A whole blob in one request; it takes the place of anything staged. -/
def write (_ : AzureServer) (body : Bytes) : AzureServer :=
  { staged := fun _ => none, object := some body }

/-- `Put Block List` over the uncommitted blocks `1 … count`: all must be there. -/
def commit (server : AzureServer) (count : Nat) : Option AzureServer :=
  (collectParts server.staged count).map fun whole => { staged := fun _ => none, object := some whole }

/-- A request whose effect always works: the service after it, and how it failed if it did. -/
def request (server applied : AzureServer) : Answer → AzureServer × Option (Option Nat)
  | .accept => (applied, none)
  | .lost done => (if done then applied else server, some none)
  | .refuse done code => (if done then applied else server, some (refusal code))

/-- `Put Block List`: refused with a 400 where a block is missing. -/
def putBlockList (server : AzureServer) (count : Nat) (answer : Answer) :
    AzureServer × Option (Option Nat) :=
  match server.commit count with
  | some committed => server.request committed answer
  | none =>
      match answer with
      | .accept => (server, some (some 400))
      | .lost _ => (server, some none)
      | .refuse _ code => (server, some (refusal code))

end AzureServer

/-- `map_azure`: the status of the response, or a transport failure. -/
def mapAzure (failure : Option Nat) : ReplError :=
  match failure with
  | some status => classifyAzure (some status) false
  | none => classifyAzure none true

/-- How `get_properties` is met: truthfully, or not at all. -/
inductive PropsAnswer where
  | seen
  | failed (failure : Option Nat)
  deriving DecidableEq

def blobCommittedAtSize (server : AzureServer) (size : Nat) : PropsAnswer → Except ReplError Bool
  | .seen =>
      match server.object with
      | some bytes => .ok (bytes.length = size)
      | none => .ok false
  | .failed (some 404) => .ok false
  | .failed failure => .error (mapAzure failure)

/-! ## deliver -/

structure DeliverScript where
  single : Answer
  blocks : List Answer
  list : Answer
  props : PropsAnswer

structure DeliverRun where
  result : DeliverResult
  server : AzureServer
  row : Option ResumeState

inductive StageResult where
  | staged
  | err (error : ReplError)
  | interrupted
  deriving DecidableEq

/-- What the staging loop leaves: how it ended, the offset it got to, the bytes it hashed and the
service. -/
structure StageRun where
  result : StageResult
  committed : Nat
  hashed : Bytes
  server : AzureServer

section Deliver

variable (digest : Algorithm → Bytes → Checksum) (dest : AzureDest) (src : Source)
variable (relpath blob : String) (blockSize : Nat)

def checkpoint (committed : Nat) : ResumeState :=
  Token.toResume
    { blob := blob, blockSize := blockSize, size := src.size, mtimeMs := src.mtimeMs,
      bytesCommitted := committed }

/-- One turn of the staging loop: the bytes staged and the next offset, or the error that ends
it. -/
def stageNext (committed : Nat) (server : AzureServer) (answer : Answer) :
    AzureServer × Except ReplError (Bytes × Nat) :=
  let bounds := chunkBounds committed blockSize src.size
  match readSourceRange src relpath bounds.1 (chunkLen bounds) with
  | .error e => (server, .error e)
  | .ok buf =>
      let number := bounds.1 / blockSize + 1
      let sent := server.request (server.stage number buf) answer
      match sent.2 with
      | none => (sent.1, .ok (buf, bounds.2 + 1))
      | some failure => (sent.1, .error (mapAzure failure))

/-- The `while committed < size` loop; the resume row always holds `committed`. -/
def stageBlocks (committed : Nat) (hashed : Bytes) (server : AzureServer) :
    List Answer → StageRun
  | [] =>
      if committed < src.size then ⟨.interrupted, committed, hashed, server⟩
      else ⟨.staged, committed, hashed, server⟩
  | answer :: rest =>
      if committed < src.size then
        match stageNext src relpath blockSize committed server answer with
        | (after, .error e) => ⟨.err e, committed, hashed, after⟩
        | (after, .ok (buf, next)) => stageBlocks next (hashed ++ buf) after rest
      else ⟨.staged, committed, hashed, server⟩

def reusable (resume : Option ResumeState) : Option AzureResumeToken :=
  (resume.bind Token.fromResume).filter fun token =>
    Token.matchesSource token blob blockSize src.size src.mtimeMs

def startOffset (resume : Option ResumeState) : Nat :=
  ((reusable src blob blockSize resume).map fun token => min token.bytesCommitted src.size).getD 0

def delivered (hashed : Bytes) : Delivered where
  bytes := src.size
  checksum := digest dest.algo hashed
  handle := buildHandle blob dest.algo

/-- The end of `deliver_blocks`: commit the list, or find that it had been committed before. -/
def commitBlocks (numBlocks : Nat) (hashed : Bytes) (server : AzureServer)
    (row : Option ResumeState) (list : Answer) (props : PropsAnswer) : DeliverRun :=
  match server.putBlockList numBlocks list with
  | (after, none) => ⟨.ok (delivered digest dest src blob hashed), after, none⟩
  | (after, some failure) =>
      match blobCommittedAtSize after src.size props with
      | .ok true => ⟨.ok (delivered digest dest src blob hashed), after, none⟩
      | .ok false => ⟨.err (mapAzure failure), after, row⟩
      | .error e => ⟨.err e, after, row⟩

def deliverBlocks (numBlocks : Nat) (resume : Option ResumeState) (server : AzureServer)
    (script : DeliverScript) : DeliverRun :=
  let start := startOffset src blob blockSize resume
  let run := stageBlocks src relpath blockSize start (src.bytes.take start) server script.blocks
  let row := some (checkpoint src blob blockSize run.committed)
  match run.result with
  | .interrupted => ⟨.interrupted, run.server, row⟩
  | .err e => ⟨.err e, run.server, row⟩
  | .staged =>
      commitBlocks digest dest src blob numBlocks run.hashed run.server row script.list script.props

def deliver (resume : Option ResumeState) (server : AzureServer) (script : DeliverScript) :
    DeliverRun :=
  let blob := ObjectPath.objectKey dest.keyPrefix relpath
  match dest.plan src with
  | .single =>
      match server.request (server.write src.bytes) script.single with
      | (after, none) => ⟨.ok (delivered digest dest src blob src.bytes), after, none⟩
      | (after, some failure) => ⟨.err (mapAzure failure), after, resume⟩
  | .parts blockSize numBlocks =>
      deliverBlocks digest dest src relpath blob blockSize numBlocks resume server script

end Deliver

end FileReplicator.AzureBlocks
