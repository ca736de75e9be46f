import FileReplicator.AzureBlocks
import FileReplicator.GcsSession
import FileReplicator.HttpUpload
import FileReplicator.KeyMapping
import FileReplicator.S3Multipart
import FileReplicator.SourceActions

/-!
# Verification

What the backends ask of the remote side before the source of an object is
touched: whether it is there, how long it is, what it hashes to. Requests may
fail, and bodies may be cut off.
-/

namespace FileReplicator.Verification

open Domain Classify SourceActions

/-! ## Hashing -/

/-- What the two states of a `Hasher` finish with. -/
structure Hashes where
  crc32c : Bytes → UInt32
  sha256 : Bytes → Vector UInt8 32

def Hashes.finish (hashes : Hashes) : Algorithm → Bytes → Checksum
  | .crc32c, bytes => .crc32c (hashes.crc32c bytes)
  | .sha256, bytes => .sha256 (hashes.sha256 bytes)

/-- A body as it arrives, and the error that cuts it off. -/
structure Download (ε : Type) where
  chunks : List Bytes
  cut : Option ε

namespace Download

variable {ε : Type} (classify : ε → ReplError)

def close (download : Download ε) : Except ReplError Unit :=
  match download.cut with
  | some e => .error (classify e)
  | none => .ok ()

/-- `while let Some(chunk) = ..`: how much has come, and what the hasher has taken. -/
def foldChunks (close : Except ReplError Unit) (downloaded : Nat) (hashed : Bytes) :
    List Bytes → Except ReplError (Nat × Bytes)
  | [] => do
      close
      return (downloaded, hashed)
  | chunk :: rest => foldChunks close (downloaded + chunk.length) (hashed ++ chunk) rest

/-- `loop { let n = read(..); if n == 0 { break } .. }`. -/
def foldReads (close : Except ReplError Unit) (total : Nat) (hashed : Bytes) :
    List Bytes → Except ReplError (Nat × Bytes)
  | [] => do
      close
      return (total, hashed)
  | chunk :: rest =>
      if chunk = [] then .ok (total, hashed)
      else foldReads close (total + chunk.length) (hashed ++ chunk) rest

def hashChunks (download : Download ε) : Except ReplError (Nat × Bytes) :=
  foldChunks (download.close classify) 0 [] download.chunks

def hashReads (download : Download ε) : Except ReplError (Nat × Bytes) :=
  foldReads (download.close classify) 0 [] download.chunks

end Download

/-! ## The backends -/

/-- An error that says nothing about the object. -/
def Neutral (e : ReplError) : Prop := ∀ text, e ≠ .integrity text

abbrev Trouble := { e : ReplError // Neutral e }

inductive Reply (α : Type) where
  | lost
  | refused (status : Nat)
  | success (value : α)

def Reply.read {α : Type} (classify : Option Nat → Bool → ReplError) :
    Reply α → Except ReplError α
  | lost => .error (classify none true)
  | refused status => .error (classify (some status) false)
  | success value => .ok value

structure Delivery where
  relpath : String
  delivered : Delivered

section

variable (hashes : Hashes) (d : Delivery)

/-- The end of `verify` for a body that is hashed again. -/
def checkDownload (algo : Algorithm) (got : Nat × Bytes) : Except ReplError Unit := do
  verifySize d.delivered.bytes got.1
  verifyChecksum d.delivered.checksum (hashes.finish algo got.2)

namespace Local

structure Side where
  metadata : List Char → Except FileTree.IoError Nat
  openFile : List Char → Except FileTree.IoError (Download FileTree.IoError)

variable (root : List Char) (algo : Algorithm) (side : Side)

def target : List Char := KeyMapping.finalPath root d.relpath

def verify : Verify → Except ReplError Unit
  | .none => .ok ()
  | .size => do
      let len ← (side.metadata (target d root)).mapError classifyIoError
      verifySize d.delivered.bytes len
  | .checksum => do
      let algo := (algorithmOf d.delivered.checksum).getD algo
      let file ← (side.openFile (target d root)).mapError classifyIoError
      let got ← file.hashReads classifyIoError
      verifyChecksum d.delivered.checksum (hashes.finish algo got.2)

end Local

namespace S3

structure Head where
  contentLength : Option Int
  checksumCrc32c : Option String
  checksumSha256 : Option String

structure Side where
  /-- `checksum_mode` asks for the checksum of the object. -/
  headObject : String → Bool → Except S3Multipart.Failure Head

/-- A handle has no `s3Checksum` when it says `null`. -/
def handleS3Checksum (handle : Handle) : Option String :=
  (handle.lookup "s3Checksum").filter (· ≠ "null")

def responseChecksum (algo : Algorithm) (head : Head) : Option String :=
  match algo with
  | .crc32c => head.checksumCrc32c
  | .sha256 => head.checksumSha256

def compareObjectChecksum (expected actual : String) : Except ReplError Unit :=
  if expected = actual then .ok ()
  else .error (.integrity
    ("s3 object checksum mismatch: expected " ++ expected ++ ", got " ++ actual))

variable (dest : S3Multipart.S3Dest) (side : Side)

def target : String :=
  (d.delivered.handle.lookup "key").getD (ObjectPath.objectKey dest.keyPrefix d.relpath)

/-- The comparison of the checksums, if both sides know one. -/
def compare (algo : Algorithm) (head : Head) : Except ReplError Unit :=
  match handleS3Checksum d.delivered.handle with
  | some expected =>
      match responseChecksum algo head with
      | some actual => compareObjectChecksum expected actual
      | none => .ok ()
  | none => .ok ()

def verify (policy : Verify) : Except ReplError Unit := do
  let head ← (side.headObject (target d dest) (policy = .checksum)).mapError S3Multipart.mapSdk
  match policy with
  | .none => .ok ()
  | .size => verifySize d.delivered.bytes (head.contentLength.getD (-1)).toNat
  | .checksum => do
      match head.contentLength with
      | some len => verifySize d.delivered.bytes len.toNat
      | none => .ok ()
      compare d dest.algo head

end S3

namespace Http

structure Side where
  client : Except Trouble Unit
  /-- `reqwest::Url::parse`. -/
  parse : String → Except String Unit
  buildUrl : String → String → Option String
  /-- The answer, with its `Content-Length` if that is a number. -/
  head : String → Reply (Option Nat)
  get : String → Reply (Download Unit)

variable (dest : HttpUpload.HttpDest) (side : Side)

def target : Option String :=
  (d.delivered.handle.lookup "url").orElse fun _ => side.buildUrl dest.baseUrl d.relpath

def asked (url : String) : Except ReplError Unit := do
  (side.parse url).mapError fun e =>
    .permanent ("invalid delivered url '" ++ url ++ "': " ++ e)
  side.client.mapError Subtype.val

def size (url : String) : Except ReplError Nat := do
  let len ← (side.head url).read HttpUpload.classifyHttp
  match len with
  | some len => .ok len
  | none => .error (.transient "http HEAD response missing Content-Length")

def verify (policy : Verify) : Except ReplError Unit :=
  if policy = .none then .ok ()
  else
    match target d dest side with
    | none => .error (.permanent "no url recorded on the delivered handle")
    | some url => do
        asked side url
        if policy = .size then do
          let len ← size side url
          verifySize d.delivered.bytes len
        else do
          let body ← (side.get url).read HttpUpload.classifyHttp
          let got ← body.hashChunks fun _ => HttpUpload.classifyHttp none true
          checkDownload hashes d dest.algo got

end Http

namespace Azure

structure Side where
  /-- The length of the blob; a refusal has the status of the response, if there is one. -/
  getProperties : String → Except (Option Nat) Nat
  get : String → Download (Option Nat)

variable (dest : AzureBlocks.AzureDest) (side : Side)

def target : String :=
  (d.delivered.handle.lookup "blob").getD (KeyMapping.blobPath dest.keyPrefix d.relpath)

def verify : Verify → Except ReplError Unit
  | .none => .ok ()
  | .size => do
      let len ← (side.getProperties (target d dest)).mapError AzureBlocks.mapAzure
      verifySize d.delivered.bytes len
  | .checksum => do
      let got ← (side.get (target d dest)).hashChunks AzureBlocks.mapAzure
      checkDownload hashes d dest.algo got

end Azure

namespace Gcs

/-- The `size` field if it is a number, and the text of the `crc32c` field. -/
structure Metadata where
  size : Option Nat
  crc32c : Option String

structure Side where
  client : Except Trouble Unit
  objectUrl : String × String → Except String Unit
  /-- The metadata, unless what comes is not JSON. -/
  metadata : String × String → Reply (Option Metadata)
  get : String × String → Reply (Download Unit)
  /-- `base64::STANDARD.decode`. -/
  decode : String → Option Bytes

variable (dest : GcsSession.GcsDest) (side : Side)

/-- `u32::from_be_bytes` of four bytes. -/
def fromBeBytes : Bytes → Option UInt32
  | [a, b, c, e] => some (UInt32.ofNat (((a.toNat * 256 + b.toNat) * 256 + c.toNat) * 256 + e.toNat))
  | _ => none

def b64ToCrc32c (text : String) : Option UInt32 := (side.decode text).bind fromBeBytes

def handleObject (handle : Handle) : Option (String × String) := do
  let bucket ← handle.lookup "bucket"
  let object ← handle.lookup "object"
  return (bucket, object)

def target : String × String :=
  (handleObject d.delivered.handle).getD
    (dest.bucket, KeyMapping.objectPath dest.keyPrefix d.relpath)

def fetchMetadata (key : String × String) : Except ReplError Metadata := do
  (side.objectUrl key).mapError ReplError.permanent
  let found ← (side.metadata key).read classifyGcs
  match found with
  | some metadata => .ok metadata
  | none => .error (.transient "gcs metadata response was not valid JSON")

def sizeOf (metadata : Metadata) : Except ReplError Nat :=
  match metadata.size with
  | some size => .ok size
  | none => .error (.transient "gcs metadata 'size' was not numeric")

def crc32cOf (metadata : Metadata) : Except ReplError Checksum :=
  match metadata.crc32c.bind (b64ToCrc32c side) with
  | some value => .ok (.crc32c value)
  | none => .error (.transient "gcs metadata missing a valid 'crc32c' field")

def downloadAndHash (key : String × String) : Except ReplError (Nat × Bytes) := do
  (side.objectUrl key).mapError ReplError.permanent
  let body ← (side.get key).read classifyGcs
  body.hashChunks fun _ => classifyGcs none true

def verify (policy : Verify) : Except ReplError Unit :=
  if policy = .none then .ok ()
  else do
    side.client.mapError Subtype.val
    if policy = .size then do
      let metadata ← fetchMetadata side (target d dest)
      let size ← sizeOf metadata
      verifySize d.delivered.bytes size
    else
      match dest.algo with
      | .crc32c => do
          let metadata ← fetchMetadata side (target d dest)
          let size ← sizeOf metadata
          verifySize d.delivered.bytes size
          let actual ← crc32cOf side metadata
          verifyChecksum d.delivered.checksum actual
      | .sha256 => do
          let got ← downloadAndHash side (target d dest)
          checkDownload hashes d .sha256 got

end Gcs

namespace Sftp

structure Side where
  session : Except Trouble Unit
  /-- The size among the attributes of the file; a refusal has the kind of the error. -/
  metadata : String → Except String (Option Nat)
  openFile : String → Except String (Download FileTree.IoError)

variable (dest : TempUpload.TempDest) (side : Side)

def target : String :=
  (d.delivered.handle.lookup "remotePath").getD (KeyMapping.Sftp.remotePath dest.baseDir d.relpath)

def mapSftp (kind : String) : ReplError := classifySftp kind false

def verify (policy : Verify) : Except ReplError Unit := do
  side.session.mapError Subtype.val
  let size ← (side.metadata (target d dest)).mapError mapSftp
  match policy with
  | .none => .ok ()
  | .size => verifySize d.delivered.bytes (size.getD 0)
  | .checksum => do
      verifySize d.delivered.bytes (size.getD 0)
      let file ← (side.openFile (target d dest)).mapError mapSftp
      let got ← file.hashReads classifyIoError
      verifyChecksum d.delivered.checksum (hashes.finish dest.algo got.2)

end Sftp

namespace Ftps

structure Side where
  connectAndLogin : Except Trouble Unit
  size : String → Except Publishing.FtpError Nat
  retr : String → Except Publishing.FtpError (Download Publishing.FtpError)
  /-- The reply that ends the transfer. -/
  finalize : String → Except Publishing.FtpError Unit

variable (dest : TempUpload.TempDest) (side : Side)

def target : String :=
  (d.delivered.handle.lookup "remotePath").getD (KeyMapping.Ftps.remotePath dest.baseDir d.relpath)

def verify (policy : Verify) : Except ReplError Unit := do
  side.connectAndLogin.mapError Subtype.val
  let size ← (side.size (target d dest)).mapError Publishing.mapFtp
  match policy with
  | .none => .ok ()
  | .size => verifySize d.delivered.bytes size
  | .checksum => do
      verifySize d.delivered.bytes size
      let file ← (side.retr (target d dest)).mapError Publishing.mapFtp
      let got ← file.hashReads Publishing.mapFtp
      (side.finalize (target d dest)).mapError Publishing.mapFtp
      verifyChecksum d.delivered.checksum (hashes.finish dest.algo got.2)

end Ftps

inductive Backend where
  | localDir (root : List Char) (algo : Algorithm) (side : Local.Side)
  | s3 (dest : S3Multipart.S3Dest) (side : S3.Side)
  | http (dest : HttpUpload.HttpDest) (side : Http.Side)
  | azure (dest : AzureBlocks.AzureDest) (side : Azure.Side)
  | gcs (dest : GcsSession.GcsDest) (side : Gcs.Side)
  | sftp (dest : TempUpload.TempDest) (side : Sftp.Side)
  | ftps (dest : TempUpload.TempDest) (side : Ftps.Side)

namespace Backend

def verify (policy : Verify) : Backend → Except ReplError Unit
  | .localDir root algo side => Local.verify hashes d root algo side policy
  | .s3 dest side => S3.verify d dest side policy
  | .http dest side => Http.verify hashes d dest side policy
  | .azure dest side => Azure.verify hashes d dest side policy
  | .gcs dest side => Gcs.verify hashes d dest side policy
  | .sftp dest side => Sftp.verify hashes d dest side policy
  | .ftps dest side => Ftps.verify hashes d dest side policy

end Backend

end

end FileReplicator.Verification
