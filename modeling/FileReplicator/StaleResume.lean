import FileReplicator.GcsResume
import FileReplicator.LostAck
import FileReplicator.S3Healing

/-!
# Stale resume state

A persisted token outlives what the service has kept of its upload, or meets
settings other than those it was written under. From which states healthy
deliveries still get the source there, for each backend that resumes an upload.
-/

namespace FileReplicator.StaleResume

open Domain ByteRanges SourceFile Healing LostAck

/-- Some finite number of healthy deliveries, with only transient errors in between, ends with the
source at the key. -/
def S3Heals (service : S3Multipart.S3Service) (dest : S3Multipart.S3Dest) (src : Source)
    (relpath : String) : S3Resume.State → Prop :=
  Heals (S3Healing.attempt service dest src relpath) (S3Healing.Full src)

def AzureHeals (digest : Algorithm → Bytes → Checksum) (dest : AzureBlocks.AzureDest)
    (src : Source) (relpath : String) : AzureResume.State → Prop :=
  Heals (AzureResume.attempt digest dest src relpath) (AzureResume.Full src)

def GcsHeals (digest : Algorithm → Bytes → Checksum) (dest : GcsSession.GcsDest)
    (src : Source) (relpath : String) : GcsResume.State → Prop :=
  Heals (GcsResume.attempt digest dest src relpath) (GcsResume.Full src)

section Settings

variable (service : S3Multipart.S3Service) (digest : Algorithm → Bytes → Checksum)
variable (relpath keyPrefix bucket : String) (versions : Source → Prop) (src : Source)
variable (multipart : S3Multipart.MultipartParams) (blocks : AzureBlocks.AzureBlockParams)
variable (algo : Algorithm) (chunkBytes : Nat) (chunkFits : chunkBytes < word)

/-- After any history, under any settings of the present delivery: each backend heals exactly from
its recoverable states. -/
theorem stale_resume_heals_iff (versioned : Versioned versions) (member : versions src)
    (s3 : S3Resume.State) (s3Reached : S3Resume.Reached service relpath keyPrefix versions s3)
    (azure : AzureResume.State)
    (azureReached : AzureResume.Reached digest relpath keyPrefix versions azure)
    (gcs : GcsResume.State)
    (gcsReached : GcsResume.Reached digest relpath bucket keyPrefix versions gcs) :
    (S3Heals service ⟨keyPrefix, multipart, algo⟩ src relpath s3 ↔
      S3Healing.Recoverable service ⟨keyPrefix, multipart, algo⟩ src relpath s3) ∧
    (AzureHeals digest ⟨keyPrefix, blocks, algo⟩ src relpath azure ↔
      AzureResume.Recoverable ⟨keyPrefix, blocks, algo⟩ src relpath azure) ∧
    (GcsHeals digest ⟨bucket, keyPrefix, algo, chunkBytes, chunkFits⟩ src relpath gcs ↔
      GcsResume.Recoverable ⟨bucket, keyPrefix, algo, chunkBytes, chunkFits⟩ src relpath gcs) := by
  refine ⟨?_, ?_, ?_⟩
  · exact S3Healing.s3_heals_iff service _ src relpath versions s3
      (S3Resume.sound_of_reached service relpath keyPrefix versions versioned s3 s3Reached) member
  · exact AzureResume.azure_heals_iff digest _ src relpath versions azure
      (AzureResume.sound_of_reached digest relpath keyPrefix versions versioned azure azureReached)
      member
  · have sound := GcsResume.sound_of_reached digest relpath bucket keyPrefix versions versioned gcs
      gcsReached
    exact GcsResume.gcs_heals_iff digest _ src relpath gcs fun token usable =>
      GcsResume.honest_of_sound _ src relpath versions member gcs sound token usable

end Settings

/-! ## Concrete histories -/

def emptyGcs : GcsResume.State :=
  ({ sessions := fun _ => none, nextUri := 0, object := none }, none)

def anyDest : GcsSession.GcsDest :=
  ⟨"bucket", "", .crc32c, GcsSession.resolveChunkBytes none, by decide⟩

/-- The one part is uploaded, and the completion meets a busy service. -/
def uploadPart : S3Multipart.DeliverScript :=
  ⟨.accept none, ⟨[], .sweep⟩, .seen none, .accept,
    ⟨[(0, .accept true)], .fails false ⟨some "SlowDown", some 503, false⟩⟩⟩

def partUploaded : S3Resume.State :=
  let run := S3Multipart.deliver echoService ⟨"", alwaysMultipart, .crc32c⟩ newFile "a.txt" none
    (emptyS3 none).1 uploadPart
  (run.server, run.row)

/-- The service has lost the part and still has the upload. -/
def partLost : S3Resume.State :=
  ({ partUploaded.1 with
      uploads := fun id => if true then (partUploaded.1.uploads id).map fun upload =>
        { upload with parts := fun n => if false then upload.parts n else none }
        else none }, partUploaded.2)

theorem s3_part_lost_reached :
    S3Resume.Reached echoService "a.txt" "" onlyNew partLost :=
  .swept partUploaded (fun _ => true) (fun _ _ => false)
    (.delivered (emptyS3 none) newFile alwaysMultipart .crc32c uploadPart rfl (.start none))

/-- The block is staged, and the process dies before the list is committed. -/
def stageBlock : AzureBlocks.DeliverScript := ⟨.accept, [.accept], .refuse false 503, .seen⟩

def blockStaged : AzureResume.State :=
  let run := AzureBlocks.deliver noDigest ⟨"", alwaysBlocks, .crc32c⟩ newFile "a.txt" none
    (emptyAzure none).1 stageBlock
  (run.server, run.row)

/-- The service has discarded the uncommitted block. -/
def blockLost : AzureResume.State :=
  ({ blockStaged.1 with staged := fun n => if false then blockStaged.1.staged n else none },
    blockStaged.2)

theorem azure_block_lost_reached :
    AzureResume.Reached noDigest "a.txt" "" onlyNew blockLost :=
  .dropped blockStaged (fun _ => false)
    (.delivered (emptyAzure none) newFile alwaysBlocks .crc32c stageBlock rfl (.start none))

/-- A session is opened, and the process dies before the first chunk. -/
def openSession : GcsSession.DeliverScript := ⟨none, .accept, [], .accept, []⟩

def sessionOpened : GcsResume.State :=
  let run := GcsSession.deliver noDigest anyDest newFile "a.txt" none emptyGcs.1 openSession
  (run.server, run.row)

/-- The server keeps the file's one chunk without finalizing; the client dies after its checkpoint;
the server drops the session. -/
def sessionLost : GcsResume.State :=
  let object := ObjectPath.objectKey anyDest.keyPrefix "a.txt"
  ((GcsSession.runSession noDigest anyDest newFile "a.txt" object 0 0 sessionOpened.1
      [.commit 3]).server.setSession 0 none,
    some (GcsSession.checkpoint anyDest newFile object 0 newFile.size))

theorem gcs_session_lost_reached :
    GcsResume.Reached noDigest "a.txt" "bucket" "" onlyNew sessionLost := by
  have hopened : GcsResume.Reached noDigest "a.txt" "bucket" "" onlyNew sessionOpened :=
    .delivered emptyGcs newFile anyDest openSession rfl rfl rfl (.start none)
  have husable : GcsSession.reusable anyDest newFile "a.txt" sessionOpened.2 =
      some { bucket := "bucket", object := "a.txt", sessionUri := 0, size := 3, mtimeMs := 7,
             bytesCommitted := 0 } := by decide
  have member : onlyNew newFile := rfl
  have hcounted := GcsResume.Reached.uncleared sessionOpened newFile anyDest _ [.commit 3]
    rfl rfl member husable hopened
  exact .dropped _ 0 hcounted

theorem stale_resume_heals_lost :
    (partLost.2.isSome = true ∧ blockLost.2.isSome = true ∧ sessionLost.2.isSome = true) ∧
    (S3Heals echoService ⟨"", alwaysMultipart, .crc32c⟩ newFile "a.txt" partLost ↔
      S3Healing.Recoverable echoService ⟨"", alwaysMultipart, .crc32c⟩ newFile "a.txt" partLost) ∧
    (AzureHeals noDigest ⟨"", alwaysBlocks, .crc32c⟩ newFile "a.txt" blockLost ↔
      AzureResume.Recoverable ⟨"", alwaysBlocks, .crc32c⟩ newFile "a.txt" blockLost) ∧
    (GcsHeals noDigest anyDest newFile "a.txt" sessionLost ↔
      GcsResume.Recoverable anyDest newFile "a.txt" sessionLost) :=
  ⟨by decide +kernel, stale_resume_heals_iff echoService noDigest "a.txt" "" "bucket" onlyNew newFile
    alwaysMultipart alwaysBlocks .crc32c anyDest.chunkBytes anyDest.chunkFits only_new_versioned rfl
    partLost s3_part_lost_reached blockLost azure_block_lost_reached sessionLost
    gcs_session_lost_reached⟩

/-- A part, a block or a session lost after it was counted is never sent again: two backends fail
for good, and the third reports a success without an object. -/
theorem lost_upload_not_healed :
    (¬∀ (service : S3Multipart.S3Service) (dest : S3Multipart.S3Dest) (versions : Source → Prop)
        (src : Source) (relpath : String) (state : S3Resume.State), Versioned versions →
        versions src → S3Resume.Reached service relpath dest.keyPrefix versions state →
        S3Heals service dest src relpath state) ∧
    (¬∀ (digest : Algorithm → Bytes → Checksum) (dest : AzureBlocks.AzureDest)
        (versions : Source → Prop) (src : Source) (relpath : String) (state : AzureResume.State),
        Versioned versions → versions src →
        AzureResume.Reached digest relpath dest.keyPrefix versions state →
        AzureHeals digest dest src relpath state) ∧
    ¬∀ (digest : Algorithm → Bytes → Checksum) (dest : GcsSession.GcsDest)
        (versions : Source → Prop) (src : Source) (relpath : String) (state : GcsResume.State),
        Versioned versions → versions src →
        GcsResume.Reached digest relpath dest.bucket dest.keyPrefix versions state →
        GcsHeals digest dest src relpath state := by
  refine ⟨fun heals => ?_, fun heals => ?_, fun heals => ?_⟩
  · have hheals := heals echoService ⟨"", alwaysMultipart, .crc32c⟩ onlyNew newFile "a.txt" partLost
      only_new_versioned rfl s3_part_lost_reached
    rw [S3Heals, heals_iff_of_err _ _ _ (.permanent "s3 http 400 (InvalidPart)")
      (by decide)] at hheals
    exact absurd hheals.1 (by decide)
  · have hheals := heals noDigest ⟨"", alwaysBlocks, .crc32c⟩ onlyNew newFile "a.txt" blockLost
      only_new_versioned rfl azure_block_lost_reached
    rw [AzureHeals, heals_iff_of_err _ _ _ (.permanent "azure status 400")
      (by decide)] at hheals
    exact absurd hheals.1 (by decide)
  · have hheals := heals noDigest anyDest onlyNew newFile "a.txt" sessionLost only_new_versioned rfl
      gcs_session_lost_reached
    rw [GcsHeals, heals_iff_of_ok _ _ _
      { bytes := 3, checksum := .none, handle := GcsSession.buildHandle anyDest "a.txt" }
      (by decide +kernel)] at hheals
    have hobject : (GcsResume.attempt noDigest anyDest newFile "a.txt" sessionLost).2.1.object =
        none := by decide
    rw [GcsResume.Full, hobject] at hheals
    exact absurd hheals (by simp)

end FileReplicator.StaleResume
