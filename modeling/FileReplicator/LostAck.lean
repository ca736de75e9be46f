import FileReplicator.AzureResume
import FileReplicator.S3Resume

/-!
# Commits whose answer is lost

Both backends that commit in one request take an object of the right size at
the key for their own, when the upload is gone or the commit fails. When that
is right.
-/

namespace FileReplicator.LostAck

open Domain SourceFile S3Multipart AzureBlocks

variable (service : S3Service) (digest : Algorithm → Bytes → Checksum)
variable (relpath keyPrefix : String) (versions : Source → Prop) (src : Source)

/-- Whatever the service answers to an S3 delivery, `Ok` means that the object is the source. -/
def S3OkIsSource (multipart : MultipartParams) (algo : Algorithm) (state : S3Resume.State) : Prop :=
  ∀ script,
    let run := S3Multipart.deliver service ⟨keyPrefix, multipart, algo⟩ src relpath state.2 state.1
      script
    (∃ d, run.result = .ok d) → run.server.object = some src.bytes

def AzureOkIsSource (blocks : AzureBlockParams) (algo : Algorithm) (state : AzureResume.State) :
    Prop :=
  ∀ script,
    let run := AzureBlocks.deliver digest ⟨keyPrefix, blocks, algo⟩ src relpath state.2 state.1 script
    (∃ d, run.result = .ok d) → run.server.object = some src.bytes

/-- After any history of the key, `Ok` is true exactly where the object already there cannot be
mistaken for the source. -/
theorem ok_is_source_iff (multipart : MultipartParams) (blocks : AzureBlockParams)
    (algo : Algorithm) (s3 : S3Resume.State) (azure : AzureResume.State)
    (versioned : Versioned versions) (member : versions src)
    (s3Reached : S3Resume.Reached service relpath keyPrefix versions s3)
    (azureReached : AzureResume.Reached digest relpath keyPrefix versions azure) :
    (S3OkIsSource service relpath keyPrefix src multipart algo s3 ↔
      S3Resume.NotMistaken ⟨keyPrefix, multipart, algo⟩ src relpath s3) ∧
    (AzureOkIsSource digest relpath keyPrefix src blocks algo azure ↔
      AzureResume.NotMistaken ⟨keyPrefix, blocks, algo⟩ src azure.1.object) := by
  constructor
  · exact S3Resume.s3_ok_is_source_iff service ⟨keyPrefix, multipart, algo⟩ src relpath versions
      versioned member s3
      (S3Resume.sound_of_reached service relpath keyPrefix versions versioned s3 s3Reached)
  · exact AzureResume.azure_ok_is_source_iff digest ⟨keyPrefix, blocks, algo⟩ src relpath versions
      azure
      (AzureResume.sound_of_reached digest relpath keyPrefix versions versioned azure azureReached)
      member

/-! ## Concrete histories -/

def newFile : Source := ⟨[1, 2, 3], 7, three_bytes_fit⟩

def onlyNew (v : Source) : Prop := v = newFile

theorem only_new_versioned : Versioned onlyNew := by
  rintro a b rfl rfl _ _
  rfl

def echoService : S3Service := ⟨false, fun _ => "tag", fun _ _ => ""⟩

def noDigest (_ : Algorithm) (_ : Bytes) : Checksum := .none

def alwaysMultipart : MultipartParams := MultipartParams.resolve (some 0) none none

def alwaysBlocks : AzureBlockParams := AzureBlockParams.resolve (some 0) none

def emptyS3 (object : Option Bytes) : S3Resume.State :=
  ({ uploads := fun _ => none, nextId := 0, object := object }, none)

def emptyAzure (object : Option Bytes) : AzureResume.State :=
  ({ staged := fun _ => none, object := object }, none)

/-- The upload of the new file is created, and the process dies before the first part. -/
def openUpload : S3Multipart.DeliverScript :=
  ⟨.accept none, ⟨[], .sweep⟩, .seen none, .accept, ⟨[], .sweep⟩⟩

/-- The service sweeps the upload; the object it then shows is the old one. -/
def sweepUpload : S3Multipart.DeliverScript :=
  ⟨.accept none, ⟨[(0, .sweep)], .sweep⟩, .seen none, .accept, ⟨[], .sweep⟩⟩

def opened : S3Resume.State :=
  let run := S3Multipart.deliver echoService ⟨"", alwaysMultipart, .crc32c⟩ newFile "a.txt" none
    (emptyS3 (some [9, 9, 9])).1 openUpload
  (run.server, run.row)

/-- The one block is staged and the block list is refused; the blob is the old one. -/
def refuseList : AzureBlocks.DeliverScript := ⟨.accept, [.accept], .refuse false 503, .seen⟩

def refused : AzureResume.State :=
  let run := AzureBlocks.deliver noDigest ⟨"", alwaysBlocks, .crc32c⟩ newFile "a.txt" none
    (emptyAzure (some [9, 9])).1 refuseList
  (run.server, run.row)

/-- An upload over an older file of the same size, and one over a file of another size. -/
theorem ok_is_source_resumed :
    opened.2.isSome = true ∧ refused.2.isSome = true ∧
    (S3OkIsSource echoService "a.txt" "" newFile alwaysMultipart .crc32c opened ↔
      S3Resume.NotMistaken ⟨"", alwaysMultipart, .crc32c⟩ newFile "a.txt" opened) ∧
    (AzureOkIsSource noDigest "a.txt" "" newFile alwaysBlocks .crc32c refused ↔
      AzureResume.NotMistaken ⟨"", alwaysBlocks, .crc32c⟩ newFile refused.1.object) :=
  ⟨by decide, by decide,
    ok_is_source_iff echoService noDigest "a.txt" "" onlyNew newFile alwaysMultipart alwaysBlocks
      .crc32c opened refused only_new_versioned rfl
      (.delivered (emptyS3 (some [9, 9, 9])) newFile alwaysMultipart .crc32c openUpload rfl
        (.start (some [9, 9, 9])))
      (.delivered (emptyAzure (some [9, 9])) newFile alwaysBlocks .crc32c refuseList rfl
        (.start (some [9, 9])))⟩

/-- An older file of the same size at the key is taken for the new one by both backends. -/
theorem old_object_mistaken :
    (¬∀ (service : S3Service) (relpath keyPrefix : String) (versions : Source → Prop)
        (src : Source) (multipart : MultipartParams) (algo : Algorithm) (state : S3Resume.State),
        Versioned versions → versions src →
        S3Resume.Reached service relpath keyPrefix versions state →
        S3OkIsSource service relpath keyPrefix src multipart algo state) ∧
    ¬∀ (digest : Algorithm → Bytes → Checksum) (relpath keyPrefix : String)
        (versions : Source → Prop) (src : Source) (blocks : AzureBlockParams) (algo : Algorithm)
        (state : AzureResume.State), Versioned versions → versions src →
        AzureResume.Reached digest relpath keyPrefix versions state →
        AzureOkIsSource digest relpath keyPrefix src blocks algo state := by
  constructor
  · intro truth
    have hsource := truth echoService "a.txt" "" onlyNew newFile alwaysMultipart .crc32c opened
      only_new_versioned rfl
      (.delivered (emptyS3 (some [9, 9, 9])) newFile alwaysMultipart .crc32c openUpload rfl
        (.start (some [9, 9, 9]))) sweepUpload
      ⟨{ bytes := 3, checksum := .none,
         handle := S3Multipart.buildHandle "a.txt" none .crc32c true }, by decide⟩
    revert hsource
    decide
  · intro truth
    have hsource := truth noDigest "a.txt" "" onlyNew newFile alwaysBlocks .crc32c
      (emptyAzure (some [9, 9, 9])) only_new_versioned rfl (.start (some [9, 9, 9])) refuseList
      ⟨{ bytes := 3, checksum := .none, handle := AzureBlocks.buildHandle "a.txt" .crc32c },
        by decide⟩
    revert hsource
    decide

end FileReplicator.LostAck
