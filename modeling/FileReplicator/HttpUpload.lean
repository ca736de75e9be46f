import FileReplicator.ChunkBounds
import FileReplicator.Classify
import FileReplicator.TempResume

/-!
# Ranged uploads over http

The http backend sends ranges to the final url, after it has asked how much of
the object is there. Whatever was cut off before, the object is a head of the
source, so what is `Ok` is the whole of it.
-/

namespace FileReplicator.HttpUpload

open Domain SourceFile ByteRanges ChunkBounds Classify TempUpload

def classifyHttp : Option Nat → Bool → ReplError := classifyStatus "http"

def defaultChunkBytes : Nat := 8 * 1024 * 1024

/-- The chunk size of a configuration, as `build` takes it. -/
def resolveChunkBytes (cfg : Option Nat) : Nat := max (cfg.getD defaultChunkBytes) 1

structure HttpDest where
  baseUrl : String
  resumable : Bool
  chunkBytes : Nat
  algo : Algorithm
  fits : chunkBytes < word

namespace HttpToken

def fromResume (r : ResumeState) : Option HttpResumeToken :=
  match r.token with
  | .http token => some token
  | _ => none

def toResume (token : HttpResumeToken) : ResumeState :=
  { bytesCommitted := token.bytesCommitted, token := .http token }

def matchesSource (token : HttpResumeToken) (url : String) (size : Nat) (mtimeMs : Int) : Bool :=
  token.url = url && token.size = size && token.mtimeMs = mtimeMs

end HttpToken

def buildHandle (url : String) (algo : Algorithm) : Handle := [("url", url), ("algo", algo.name)]

/-- What the server holds for the url, and the resume row. -/
structure HttpRemote where
  object : Option Bytes
  row : Option ResumeState
  deriving DecidableEq

/-- What becomes of one request with a body. A server that fails may have written some of it. -/
inductive SendAnswer where
  | accepted (tail : Nat) (saved : Bool)
  | refused (kept tail : Nat) (status : Nat)
  | lost (kept tail : Nat)
  /-- The process stops; the server has that much of the body. -/
  | cut (kept tail : Nat)
  | unread (error : ReplError)
  deriving DecidableEq

/-- How the server answers `HEAD`: truthfully, or not at all. -/
inductive HeadAnswer where
  | seen
  | lost
  deriving DecidableEq

inductive RemoteLen where
  | len (n : Nat)
  | gone
  | unknown
  deriving DecidableEq

def putRange (object : Option Bytes) (offset : Nat) (body : Bytes) (tail : Nat) : Option Bytes :=
  some (writeAt (object.getD []) offset body tail)

def reconcileRemoteLen (object : Option Bytes) : HeadAnswer → Except ReplError RemoteLen
  | .seen =>
      match object with
      | some held => .ok (.len held.length)
      | none => .ok .gone
  | .lost => .error (classifyHttp none true)

def reconcile (committed : Nat) : RemoteLen → Nat
  | .len remote => min committed remote
  | .gone => 0
  | .unknown => committed

/-! ## deliver -/

structure DeliverScript where
  metadata : Option ReplError
  client : Option ReplError
  head : HeadAnswer
  /-- The local bytes before the offset cannot be read again. -/
  rehash : Option ReplError
  /-- Whether the checkpoint before the first range is saved. -/
  begun : Bool
  chunks : List SendAnswer
  cleared : Bool

structure HttpRun where
  result : DeliverResult
  after : HttpRemote
  deriving DecidableEq

inductive SendEnd where
  | finished
  | failed (error : ReplError)
  | interrupted
  deriving DecidableEq

structure SendRun where
  ending : SendEnd
  hashed : Bytes
  after : HttpRemote
  deriving DecidableEq

section Deliver

variable (buildUrl : String → String → Except ReplError String)
  (digest : Algorithm → Bytes → Checksum) (dest : HttpDest) (relpath : String) (src : Source)
  (url : String)

def checkpoint (committed : Nat) : ResumeState :=
  HttpToken.toResume
    { url := url, size := src.size, mtimeMs := src.mtimeMs, bytesCommitted := committed }

/-- `persist_checkpoint`: best-effort. -/
def persist (saved : Bool) (row : Option ResumeState) (committed : Nat) : Option ResumeState :=
  if saved then some (checkpoint src url committed) else row

/-- `clear_checkpoint`. -/
def clear (cleared : Bool) (row : Option ResumeState) : Option ResumeState :=
  if cleared then none else row

/-- One request: the object after it, and how the client fares. -/
def sendChunk (object : Option Bytes) (offset : Nat) (body : Bytes) :
    SendAnswer → Option Bytes × SendEnd
  | .accepted tail _ => (putRange object offset body tail, .finished)
  | .refused kept tail status =>
      (putRange object offset (body.take kept) tail, .failed (classifyHttp (some (max status 300)) false))
  | .lost kept tail =>
      (putRange object offset (body.take kept) tail, .failed (classifyHttp none true))
  | .cut kept tail => (putRange object offset (body.take kept) tail, .interrupted)
  | .unread error => (object, .failed error)

/-- Whether the store took the checkpoint after a range. -/
def savedBy : SendAnswer → Bool
  | .accepted _ saved => saved
  | _ => false

/-- The `while committed < size` loop. -/
def sendChunks (committed : Nat) (hashed : Bytes) (remote : HttpRemote) : List SendAnswer → SendRun
  | [] => ⟨if committed < src.size then .interrupted else .finished, hashed, remote⟩
  | answer :: rest =>
      if committed < src.size then
        let bounds := chunkBounds committed dest.chunkBytes src.size
        match readSourceRange src relpath bounds.1 (chunkLen bounds) with
        | .error e => ⟨.failed e, hashed, remote⟩
        | .ok buf =>
            match sendChunk remote.object bounds.1 buf answer with
            | (object, .finished) =>
                let next := wrapAdd bounds.2 1
                sendChunks next (hashed ++ buf)
                  ⟨object, persist src url (savedBy answer) remote.row next⟩ rest
            | (object, ending) => ⟨ending, hashed, { remote with object := object }⟩
      else ⟨.finished, hashed, remote⟩

def delivered (hashed : Bytes) : Delivered where
  bytes := src.size
  checksum := digest dest.algo hashed
  handle := buildHandle url dest.algo

def conclude (run : SendRun) (cleared : Bool) : HttpRun :=
  match run.ending with
  | .finished =>
      ⟨.ok (delivered digest dest src url run.hashed),
        { run.after with row := clear cleared run.after.row }⟩
  | .failed e => ⟨.err e, run.after⟩
  | .interrupted => ⟨.interrupted, run.after⟩

/-- The first answer of a script; without one the process stops before the request. -/
def firstAnswer (script : DeliverScript) : SendAnswer := script.chunks.headD (.cut 0 0)

/-- One request for a whole body: it takes the place of the object. -/
def putWhole (remote : HttpRemote) (answer : SendAnswer) : SendRun :=
  let sent := sendChunk none 0 src.bytes answer
  match answer with
  | .unread _ => ⟨sent.2, src.bytes, remote⟩
  | _ => ⟨sent.2, src.bytes, { remote with object := sent.1 }⟩

def putEmpty (remote : HttpRemote) (answer : SendAnswer) : SendRun :=
  let sent := sendChunk remote.object 0 [] answer
  ⟨sent.2, [], { remote with object := sent.1 }⟩

def reusable (resume : Option ResumeState) : Option HttpResumeToken :=
  (resume.bind HttpToken.fromResume).filter fun token =>
    HttpToken.matchesSource token url src.size src.mtimeMs

/-- The offset of the checkpoint, before the server is asked. -/
def startOffset (resume : Option ResumeState) : Nat :=
  ((reusable src url resume).map fun token => min token.bytesCommitted src.size).getD 0

def resumeOffset (remote : HttpRemote) (head : HeadAnswer) : Except ReplError Nat :=
  let committed := startOffset src url remote.row
  if committed > 0 then
    (reconcileRemoteLen remote.object head).map (reconcile committed)
  else .ok committed

def deliverRanged (remote : HttpRemote) (script : DeliverScript) : HttpRun :=
  match resumeOffset src url remote script.head with
  | .error e => ⟨.err e, remote⟩
  | .ok committed =>
      match if committed > 0 then script.rehash else none with
      | some e => ⟨.err e, remote⟩
      | none =>
          if src.size = 0 then
            conclude digest dest src url (putEmpty remote (firstAnswer script)) script.cleared
          else
            conclude digest dest src url
              (sendChunks dest relpath src url committed (src.bytes.take committed)
                { remote with row := persist src url script.begun remote.row committed } script.chunks)
              script.cleared

def deliver (remote : HttpRemote) (script : DeliverScript) : HttpRun :=
  match script.metadata with
  | some e => ⟨.err e, remote⟩
  | none =>
      match buildUrl dest.baseUrl relpath with
      | .error e => ⟨.err e, remote⟩
      | .ok url =>
          match script.client with
          | some e => ⟨.err e, remote⟩
          | none =>
              if dest.resumable then deliverRanged digest dest relpath src url remote script
              else
                conclude digest dest src url (putWhole src remote (firstAnswer script)) script.cleared

end Deliver

end FileReplicator.HttpUpload
