import FileReplicator.ChunkBounds
import FileReplicator.Classify
import FileReplicator.ObjectPath

/-!
# GCS resumable sessions

The upload loop of the gcs backend against a server that keeps its own count. A
script holds the server's answer to each chunk PUT; where a script ends, the
process was interrupted. The `Range` header of a 308 is only logged by the code,
so it leaves no trace here.
-/

namespace FileReplicator.GcsSession

open Domain ByteRanges SourceFile ChunkBounds Classify

def mib : Nat := 1024 * 1024

def defaultChunkBytes : Nat := 8 * mib

def chunkAlign : Nat := 256 * 1024

def resolveChunkBytes (cfg : Option Nat) : Nat :=
  let raw := max (cfg.getD defaultChunkBytes) chunkAlign
  raw / chunkAlign * chunkAlign

structure Session where
  held : Bytes
  finalized : Option Bytes
  deriving DecidableEq

structure GcsServer where
  sessions : UploadId → Option Session
  nextUri : UploadId
  object : Option Bytes

inductive PutAnswer where
  /-- It keeps at most the first `keep` bytes of what it has, and answers 308. -/
  | commit (keep : Nat)
  /-- It keeps all it has, and finalizes the object if that is every byte. -/
  | finish
  /-- As one of the two above, but no answer arrives. -/
  | lost (finishes : Bool) (keep : Nat)
  /-- It refuses with a status from 400 on. -/
  | refuse (code : Nat)
  /-- It has dropped the session. -/
  | expire
  deriving DecidableEq

/-- The bytes a session has after a PUT at `start`: one that leaves a gap adds nothing, one that
overlaps adds what is new. -/
def Session.received (session : Session) (start : Nat) (body : Bytes) : Bytes :=
  if start ≤ session.held.length then
    session.held ++ body.drop (session.held.length - start)
  else session.held

def Session.commit (session : Session) (start keep : Nat) (body : Bytes) : Session × Nat :=
  match session.finalized with
  | some _ => (session, 200)
  | none => ({ session with held := (session.received start body).take keep }, 308)

def Session.finish (session : Session) (start total : Nat) (body : Bytes) : Session × Nat :=
  match session.finalized with
  | some _ => (session, 200)
  | none =>
      let got := session.received start body
      if got.length = total then ({ held := got, finalized := some got }, 200)
      else ({ session with held := got }, 308)

namespace GcsServer

def setSession (server : GcsServer) (uri : UploadId) (session : Option Session) : GcsServer :=
  { server with sessions := fun u => if u = uri then session else server.sessions u }

/-- The session after a PUT. A session that becomes final makes its bytes the object. -/
def settle (server : GcsServer) (uri : UploadId) (before after : Session) : GcsServer :=
  { server.setSession uri (some after) with
    object := if before.finalized = none ∧ after.finalized ≠ none then after.finalized
      else server.object }

/-- One chunk PUT: the server after it and the status the client sees, if it sees one. -/
def put (server : GcsServer) (uri : UploadId) (start total : Nat) (body : Bytes)
    (answer : PutAnswer) : GcsServer × Option Nat :=
  match answer, server.sessions uri with
  | .refuse code, _ => (server, some (max code 400))
  | .expire, _ => (server.setSession uri none, some 404)
  | .lost _ _, none => (server, none)
  | .commit _, none => (server, some 404)
  | .finish, none => (server, some 404)
  | .commit keep, some session =>
      let after := session.commit start keep body
      (server.settle uri session after.1, some after.2)
  | .finish, some session =>
      let after := session.finish start total body
      (server.settle uri session after.1, some after.2)
  | .lost finishes keep, some session =>
      let after := if finishes then session.finish start total body
        else session.commit start keep body
      (server.settle uri session after.1, none)

def finalized (server : GcsServer) (uri : UploadId) : Option Bytes :=
  (server.sessions uri).bind Session.finalized

end GcsServer

inductive SessionErr where
  | gone
  | fatal (error : ReplError)
  deriving DecidableEq

/-- `send_chunk`, given the status of the response. -/
def sendChunk (status : Option Nat) : Except SessionErr Unit :=
  match status with
  | none => .error (.fatal (classifyGcs none true))
  | some code =>
      if code = 308 then .ok ()
      else if 200 ≤ code ∧ code < 300 then .ok ()
      else if code = 404 ∨ code = 410 then .error .gone
      else .error (.fatal (classifyGcs (some code) false))

structure GcsDest where
  bucket : String
  keyPrefix : String
  algo : Algorithm
  chunkBytes : Nat
  chunkFits : chunkBytes < word

def buildHandle (dest : GcsDest) (object : String) : Handle :=
  [("bucket", dest.bucket), ("object", object), ("algo", dest.algo.name)]

namespace Token

def fromResume (r : ResumeState) : Option GcsResumeToken :=
  match r.token with
  | .gcs token => some token
  | _ => none

def toResume (token : GcsResumeToken) : ResumeState :=
  { bytesCommitted := token.bytesCommitted, token := .gcs token }

def matchesSource (token : GcsResumeToken) (bucket object : String) (size : Nat) (mtimeMs : Int) :
    Bool :=
  token.bucket = bucket && token.object = object && token.size = size && token.mtimeMs = mtimeMs

end Token

inductive SessionResult where
  | ok (delivered : Delivered)
  | gone
  | fatal (error : ReplError)
  | interrupted
  deriving DecidableEq

/-- A session run: its result, the server after it, and the resume row it leaves. -/
structure SessionRun where
  result : SessionResult
  server : GcsServer
  row : Option ResumeState

section Run

variable (digest : Algorithm → Bytes → Checksum) (dest : GcsDest) (src : Source)
variable (relpath object : String) (uri : UploadId)

def checkpoint (committed : Nat) : ResumeState :=
  Token.toResume
    { bucket := dest.bucket, object := object, sessionUri := uri, size := src.size,
      mtimeMs := src.mtimeMs, bytesCommitted := committed }

/-- The end of `run_session`, when nothing is left to send. -/
def sessionDone (hashed : Bytes) (server : GcsServer) : SessionRun where
  result := .ok
    { bytes := src.size, checksum := digest dest.algo hashed, handle := buildHandle dest object }
  server := server
  row := none

/-- What the loop makes of the status of a PUT. -/
def afterPut (next : Nat) (buf : Bytes) (sent : GcsServer × Option Nat) :
    Except (SessionResult × GcsServer) (Nat × Bytes × GcsServer) :=
  match sendChunk sent.2 with
  | .error .gone => .error (.gone, sent.1)
  | .error (.fatal e) => .error (.fatal e, sent.1)
  | .ok () => .ok (next, buf, sent.1)

/-- One turn of the loop: the next offset, the bytes sent and the server after them, or how the
run ends and the server it leaves. -/
def sendNext (committed : Nat) (server : GcsServer) (answer : PutAnswer) :
    Except (SessionResult × GcsServer) (Nat × Bytes × GcsServer) :=
  let bounds := chunkBounds committed dest.chunkBytes src.size
  match readSourceRange src relpath bounds.1 (chunkLen bounds) with
  | .error e => .error (.fatal e, server)
  | .ok buf => afterPut (bounds.2 + 1) buf (server.put uri bounds.1 src.size buf answer)

/-- The `while committed < size` loop; the resume row always holds `committed`. -/
def sendChunks (committed : Nat) (hashed : Bytes) (server : GcsServer) :
    List PutAnswer → SessionRun
  | [] =>
      if committed < src.size then
        ⟨.interrupted, server, some (checkpoint dest src object uri committed)⟩
      else sessionDone digest dest src object hashed server
  | answer :: rest =>
      if committed < src.size then
        match sendNext dest src relpath uri committed server answer with
        | .error (result, after) =>
            ⟨result, after, some (checkpoint dest src object uri committed)⟩
        | .ok (next, buf, after) => sendChunks next (hashed ++ buf) after rest
      else sessionDone digest dest src object hashed server

def runSession (committed : Nat) (server : GcsServer) (script : List PutAnswer) : SessionRun :=
  sendChunks digest dest src relpath object uri committed (src.bytes.take committed) server script

end Run

/-! ## deliver -/

inductive InitAnswer where
  | accept
  | noLocation
  | refuse (code : Nat)
  | lost
  deriving DecidableEq

/-- `init_session`: a new session under a uri the server has not used. -/
def initSession (server : GcsServer) (answer : InitAnswer) : Except ReplError (UploadId × GcsServer) :=
  match answer with
  | .accept =>
      .ok (server.nextUri,
        { server.setSession server.nextUri (some ⟨[], none⟩) with nextUri := server.nextUri + 1 })
  | .noLocation => .error (.transient "gcs resumable session response missing Location header")
  | .refuse code => .error (classifyGcs (some (max code 400)) false)
  | .lost => .error (classifyGcs none true)

/-- The server's answers to one `deliver`: to the one-shot PUT of an empty file, to opening a
session and its chunks, and to opening a second session and its chunks. -/
structure DeliverScript where
  media : Option Nat
  init : InitAnswer
  puts : List PutAnswer
  reinit : InitAnswer
  reputs : List PutAnswer

structure DeliverRun where
  result : DeliverResult
  server : GcsServer
  row : Option ResumeState

def disappeared : ReplError :=
  .transient "gcs resumable session disappeared during a fresh upload"

section Deliver

variable (digest : Algorithm → Bytes → Checksum) (dest : GcsDest) (src : Source)
variable (relpath : String)

/-- A run of a session just opened: nothing may be gone there. -/
def settleFresh (run : SessionRun) : DeliverRun :=
  match run.result with
  | .ok d => ⟨.ok d, run.server, run.row⟩
  | .fatal e => ⟨.err e, run.server, run.row⟩
  | .gone => ⟨.err disappeared, run.server, run.row⟩
  | .interrupted => ⟨.interrupted, run.server, run.row⟩

def runFresh (row : Option ResumeState) (server : GcsServer) (init : InitAnswer)
    (puts : List PutAnswer) : DeliverRun :=
  match initSession server init with
  | .error e => ⟨.err e, server, row⟩
  | .ok (uri, opened) =>
      settleFresh
        (runSession digest dest src relpath (ObjectPath.objectKey dest.keyPrefix relpath) uri 0
          opened puts)

/-- The persisted token, when it names this object and this version of the source. -/
def reusable (resume : Option ResumeState) : Option GcsResumeToken :=
  (resume.bind Token.fromResume).filter fun token =>
    Token.matchesSource token dest.bucket (ObjectPath.objectKey dest.keyPrefix relpath) src.size
      src.mtimeMs

def deliver (resume : Option ResumeState) (server : GcsServer) (script : DeliverScript) :
    DeliverRun :=
  let object := ObjectPath.objectKey dest.keyPrefix relpath
  if src.size = 0 then
    match script.media with
    | none => ⟨.err (classifyGcs none true), server, resume⟩
    | some code =>
        if 200 ≤ code ∧ code < 300 then
          ⟨.ok { bytes := 0, checksum := digest dest.algo [], handle := buildHandle dest object },
            { server with object := some [] }, none⟩
        else ⟨.err (classifyGcs (some code) false), server, resume⟩
  else
    match reusable dest src relpath resume with
    | none => runFresh digest dest src relpath resume server script.init script.puts
    | some token =>
        let run := runSession digest dest src relpath object token.sessionUri
          (min token.bytesCommitted src.size) server script.puts
        match run.result with
        | .ok d => ⟨.ok d, run.server, run.row⟩
        | .fatal e => ⟨.err e, run.server, run.row⟩
        | .interrupted => ⟨.interrupted, run.server, run.row⟩
        -- The session is gone: drop the checkpoint and start over.
        | .gone => runFresh digest dest src relpath none run.server script.reinit script.reputs

end Deliver

end FileReplicator.GcsSession
