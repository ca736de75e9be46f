import FileReplicator.ObjectPath
import FileReplicator.Publishing
import FileReplicator.SourceFile

/-!
# Uploads through a temp file

The sftp and the ftps backend stream into a hidden temp file, resume it at a
persisted offset, and publish it by a rename. An attempt may fail or be cut off
at every call; a server keeps what it wrote, or any head of it.
-/

namespace FileReplicator.TempUpload

open Domain SourceFile ByteRanges Publishing

def chunkSize : Nat := 64 * 1024

def checkpointEvery : Nat := 1024 * 1024

inductive Flavor where
  | sftp
  | ftps
  deriving DecidableEq

namespace Flavor

def tag : Flavor → String
  | sftp => "sftp"
  | ftps => "ftps"

def wrap : Flavor → TempResumeToken → Token
  | sftp, token => .sftp token
  | ftps, token => .ftps token

/-- `from_resume`: the token under the flavor's own key. -/
def fromResume : Flavor → ResumeState → Option TempResumeToken
  | sftp, r => match r.token with
      | .sftp token => some token
      | _ => none
  | ftps, r => match r.token with
      | .ftps token => some token
      | _ => none

def toResume (flavor : Flavor) (token : TempResumeToken) : ResumeState :=
  { bytesCommitted := token.bytesCommitted, token := flavor.wrap token }

theorem from_to_resume (flavor : Flavor) (token : TempResumeToken) :
    flavor.fromResume (flavor.toResume token) = some token := by
  cases flavor <;> rfl

end Flavor

def matchesSource (token : TempResumeToken) (tempPath : String) (size : Nat) (mtimeMs : Int) : Bool :=
  token.tempPath = tempPath && token.size = size && token.mtimeMs = mtimeMs

/-- `temp_path`: hidden, beside the remote path. -/
def tempPathOf (remote suffix : String) : String :=
  let chars := remote.toList
  let filename := (chars.reverse.takeWhile (· ≠ '/')).reverse
  let dir := chars.take (chars.length - (filename.length + 1))
  let name := '.' :: filename ++ suffix.toList
  String.ofList (if dir = [] then name else dir ++ '/' :: name)

structure TempDest where
  baseDir : String
  tempSuffix : String
  algo : Algorithm

def TempDest.remote (dest : TempDest) (relpath : String) : String :=
  ObjectPath.objectKey dest.baseDir relpath

def TempDest.temp (dest : TempDest) (relpath : String) : String :=
  tempPathOf (dest.remote relpath) dest.tempSuffix

def buildHandle (remote : String) (algo : Algorithm) : Handle :=
  [("remotePath", remote), ("algo", algo.name)]

structure Remote where
  temp : Option Bytes
  final : Option Bytes
  row : Option ResumeState

/-! ## Streaming -/

/-- A write at an offset: the bytes before it stay, and some of those after it. -/
def writeAt (held : Bytes) (offset : Nat) (data : Bytes) (tail : Nat) : Bytes :=
  held.take offset ++ data ++ (held.drop (offset + data.length)).take tail

inductive ChunkAnswer where
  | written (count tail : Nat) (saved : Bool)
  | refused (count applied tail : Nat) (error : ReplError)
  | unread (error : ReplError)
  | stop

structure Transfer where
  held : Bytes
  row : Option ResumeState
  total : Nat
  sinceCheckpoint : Nat
  hashed : Bytes

inductive StreamEnd where
  | finished
  | failed (error : ReplError)
  | interrupted

/-- What one `read` of the source returns: between one byte and a full buffer. -/
def readChunk (src : Source) (offset count : Nat) : Bytes :=
  slice src.bytes offset (min (max count 1) chunkSize)

section Attempt

variable (flavor : Flavor) (digest : Algorithm → Bytes → Checksum) (dest : TempDest) (src : Source)
  (relpath : String)

def checkpoint (committed : Nat) : ResumeState :=
  flavor.toResume
    { tempPath := dest.temp relpath
      size := src.size
      mtimeMs := src.mtimeMs
      bytesCommitted := committed }

/-- `persist_checkpoint`: best-effort. -/
def persist (saved : Bool) (row : Option ResumeState) (committed : Nat) : Option ResumeState :=
  if saved then some (checkpoint flavor dest src relpath committed) else row

def advance (t : Transfer) (count tail : Nat) (saved : Bool) : Transfer :=
  let chunk := readChunk src t.total count
  let total := t.total + chunk.length
  let since := t.sinceCheckpoint + chunk.length
  let due := checkpointEvery ≤ since
  { held := writeAt t.held t.total chunk tail
    row := persist flavor dest src relpath (due && saved) t.row total
    total := total
    sinceCheckpoint := if due then 0 else since
    hashed := t.hashed ++ chunk }

def streamChunks (t : Transfer) : List ChunkAnswer → Transfer × StreamEnd
  | [] => if src.size ≤ t.total then (t, .finished) else (t, .interrupted)
  | answer :: rest =>
      if src.size ≤ t.total then (t, .finished)
      else
        match answer with
        | .stop => (t, .interrupted)
        | .unread error => (t, .failed error)
        | .refused count applied tail error =>
            ({ t with
                held := writeAt t.held t.total ((readChunk src t.total count).take applied) tail },
              .failed error)
        | .written count tail saved => streamChunks (advance flavor dest src relpath t count tail saved) rest

/-! ## One attempt -/

structure AttemptScript (Error : Type) where
  connect : Option ReplError
  /-- Whether the size of the temp file is answered. -/
  stat : Bool
  opened : Option ReplError
  begun : Bool
  chunks : List ChunkAnswer
  closing : Option ReplError
  publish : Publishing.Script Error
  /-- The process stops after so many calls of the publish step. -/
  calls : Option Nat
  cleared : Bool

structure Attempt where
  result : DeliverResult
  after : Remote

def resumable (row : Option ResumeState) : Option TempResumeToken :=
  (row.bind flavor.fromResume).filter fun token =>
    matchesSource token (dest.temp relpath) src.size src.mtimeMs

def resumeOffset (remote : Remote) (stat : Bool) : Nat :=
  match resumable flavor dest src relpath remote.row, remote.temp with
  | some token, some held =>
      if stat then min (min held.length token.bytesCommitted) src.size else 0
  | _, _ => 0

/-- The temp file as it is opened: truncated unless an offset is resumed. -/
def openedTemp (remote : Remote) (committed : Nat) : Bytes :=
  if committed = 0 then [] else remote.temp.getD []

def sizeChangedText (total : Nat) : String :=
  flavor.tag ++ " source size changed during transfer: expected " ++ toString src.size ++
    ", streamed " ++ toString total

variable {Error : Type} (host : Host Error)

/-- The paths after the first calls of the publish step. -/
def publishUntil (paths : Paths) (script : Publishing.Script Error) : Nat → Paths
  | 0 => paths
  | 1 => (rename host paths script.first).1
  | 2 =>
      match rename host paths script.first with
      | (renamed, .ok _) => renamed
      | (after, .error _) => (removeFinal host after script.remove).1
  | _ => (publish host paths script).1

def publishUpload (t : Transfer) (final : Option Bytes) (script : AttemptScript Error) : Attempt :=
  let paths : Paths := ⟨final, some t.held, false⟩
  match script.calls with
  | some calls =>
      let stopped := publishUntil host paths script.publish calls
      ⟨.interrupted, ⟨stopped.temp, stopped.final, t.row⟩⟩
  | none =>
      match publish host paths script.publish with
      | (after, .error error) => ⟨.err error, ⟨after.temp, after.final, t.row⟩⟩
      | (after, .ok _) =>
          ⟨.ok
            { bytes := t.total
              checksum := digest dest.algo t.hashed
              handle := buildHandle (dest.remote relpath) dest.algo },
            ⟨after.temp, after.final, if script.cleared then none else t.row⟩⟩

def streamAndPublish (t : Transfer) (final : Option Bytes) (script : AttemptScript Error) : Attempt :=
  match streamChunks flavor dest src relpath t script.chunks with
  | (t, .interrupted) => ⟨.interrupted, ⟨some t.held, final, t.row⟩⟩
  | (t, .failed error) => ⟨.err error, ⟨some t.held, final, t.row⟩⟩
  | (t, .finished) =>
      let changed : ReplError := .transient (sizeChangedText flavor src t.total)
      match flavor, script.closing with
      | .sftp, closing =>
          if t.total ≠ src.size then ⟨.err changed, ⟨some t.held, final, t.row⟩⟩
          else
            match closing with
            | some error => ⟨.err error, ⟨some t.held, final, t.row⟩⟩
            | none => publishUpload digest dest relpath host t final script
      | .ftps, some error => ⟨.err error, ⟨some t.held, final, t.row⟩⟩
      | .ftps, none =>
          if t.total ≠ src.size then ⟨.err changed, ⟨some t.held, final, t.row⟩⟩
          else publishUpload digest dest relpath host t final script

def startTransfer (remote : Remote) (committed : Nat) (row : Option ResumeState) : Transfer where
  held := openedTemp remote committed
  row := row
  total := committed
  sinceCheckpoint := 0
  hashed := src.bytes.take committed

/-- `deliver`. The ftps backend persists its first checkpoint before it opens the temp file, the
sftp backend after. -/
def deliver (remote : Remote) (script : AttemptScript Error) : Attempt :=
  match script.connect with
  | some error => ⟨.err error, remote⟩
  | none =>
      let committed := resumeOffset flavor dest src relpath remote script.stat
      let row := persist flavor dest src relpath script.begun remote.row committed
      match flavor, script.opened with
      | .sftp, some error => ⟨.err error, remote⟩
      | .ftps, some error => ⟨.err error, { remote with row := row }⟩
      | _, none =>
          streamAndPublish flavor digest dest src relpath host
            (startTransfer src remote committed row) remote.final script

end Attempt

end FileReplicator.TempUpload
