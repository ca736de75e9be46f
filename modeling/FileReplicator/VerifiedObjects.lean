import FileReplicator.Verdicts
import FileReplicator.Verification

/-!
# Verified objects

What a verification says of the object at the remote side, when what is answered
is true of it: it is accepted only if it is as it was delivered, and it is blamed
only if it is not.
-/

namespace FileReplicator.Verification

open Domain Classify SourceActions Verdicts

theorem neutral_status (tag : String) (status : Option Nat) (transport : Bool) :
    Neutral (classifyStatus tag status transport) := by
  intro text
  unfold classifyStatus
  split
  · exact nofun
  · exact nofun
  · split
    · exact nofun
    · split <;> exact nofun
  · exact nofun

theorem neutral_sdk (failure : S3Multipart.Failure) : Neutral (S3Multipart.mapSdk failure) := by
  intro text
  unfold S3Multipart.mapSdk classifyS3 classifyS3Status
  grind

theorem neutral_io (e : FileTree.IoError) : Neutral (classifyIoError e) := by
  intro text
  unfold classifyIoError ReplError.classifyIo
  cases e.kind <;> exact nofun

theorem neutral_sftp (kind : String) : Neutral (classifySftp kind false) := by
  intro text
  unfold classifySftp
  grind

theorem neutral_ftp (e : Publishing.FtpError) : Neutral (Publishing.mapFtp e) := by
  intro text
  cases e with
  | connectionError => exact nofun
  | unexpectedResponse code =>
      unfold Publishing.mapFtp classifyFtps
      grind

theorem blameless_read {α : Type} (reply : Reply α) (classify : Option Nat → Bool → ReplError)
    (neutral : ∀ status transport, Neutral (classify status transport)) :
    Blameless Neutral (reply.read classify) := by
  intro e is
  cases reply with
  | lost => exact Except.error.inj is ▸ neutral none true
  | refused status => exact Except.error.inj is ▸ neutral (some status) false
  | success value => cases is

theorem judges_size (expected actual : Nat) :
    Judges Neutral (verifySize expected actual) (expected = actual) True :=
  judges_if _ _ _

theorem judges_checksum (expected actual : Checksum) (hashed : actual ≠ .none) :
    Judges Neutral (verifyChecksum expected actual) (expected = .none ∨ expected = actual) True := by
  unfold verifyChecksum
  by_cases unknown : expected = .none
  · rw [if_pos (Or.inl unknown)]
    exact judges_accept _ _ (Or.inl unknown)
  · rw [if_neg (not_or.mpr ⟨unknown, hashed⟩)]
    exact judges_mono _ _ _ _ _ (judges_if (expected = actual) True _) (or_iff_right unknown).symm id

theorem finish_hashed (hashes : Hashes) (algo : Algorithm) (bytes : Bytes) :
    hashes.finish algo bytes ≠ .none := by
  cases algo <;> exact nofun

namespace Download

variable {ε : Type} (classify : ε → ReplError)

/-- What arrives is of the object, and all of it unless it is cut off. -/
structure Of (download : Download ε) (bytes : Bytes) : Prop where
  some : ∀ chunk ∈ download.chunks, chunk ≠ []
  whole : download.cut = none → download.chunks.flatten = bytes

theorem fold_chunks_eq (close : Except ReplError Unit) (downloaded : Nat) (hashed : Bytes)
    (chunks : List Bytes) :
    foldChunks close downloaded hashed chunks =
      close >>= fun _ => .ok (downloaded + chunks.flatten.length, hashed ++ chunks.flatten) := by
  induction chunks generalizing downloaded hashed with
  | nil => simp [foldChunks, pure, Except.pure]
  | cons chunk rest ih => simp [foldChunks, ih, Nat.add_assoc]

theorem fold_reads_eq (close : Except ReplError Unit) (total : Nat) (hashed : Bytes)
    (chunks : List Bytes) (some : ∀ chunk ∈ chunks, chunk ≠ []) :
    foldReads close total hashed chunks = foldChunks close total hashed chunks := by
  induction chunks generalizing total hashed with
  | nil => rfl
  | cons chunk rest ih =>
      rw [foldReads, if_neg (some chunk List.mem_cons_self), foldChunks,
        ih _ _ fun other member => some other (List.mem_cons_of_mem chunk member)]

variable (download : Download ε) (bytes : Bytes) (of : download.Of bytes)

include of

theorem hash_chunks_spec :
    download.hashChunks classify =
      download.close classify >>= fun _ => .ok (bytes.length, bytes) := by
  rw [hashChunks, fold_chunks_eq]
  cases cut : download.cut with
  | some e => simp [close, cut, bind, Except.bind]
  | none => simp [close, cut, bind, Except.bind, of.whole cut]

theorem hash_reads_spec :
    download.hashReads classify =
      download.close classify >>= fun _ => .ok (bytes.length, bytes) := by
  rw [hashReads, fold_reads_eq _ _ _ _ of.some]
  exact hash_chunks_spec classify download bytes of

omit of in
theorem judges_body (neutral : ∀ e, Neutral (classify e))
    (hashed : Except ReplError (Nat × Bytes))
    (spec : hashed = download.close classify >>= fun _ => .ok (bytes.length, bytes))
    (rest : Nat × Bytes → Except ReplError Unit) (good answered : Prop)
    (judges : Judges Neutral (rest (bytes.length, bytes)) good answered) :
    Judges Neutral (hashed >>= rest) good (download.cut = none ∧ answered) := by
  subst spec
  cases cut : download.cut with
  | some e =>
      have closed : download.close classify = .error (classify e) := by rw [close, cut]
      rw [closed]
      refine ⟨nofun, fun other is => Or.inl (Except.error.inj is ▸ neutral e), ?_⟩
      rintro ⟨whole, _⟩
      cases whole
  | none =>
      have closed : download.close classify = .ok () := by rw [close, cut]
      rw [closed]
      exact judges_mono _ _ _ _ _ judges Iff.rfl fun all => all.2

end Download

section

variable (hashes : Hashes) (d : Delivery)

/-! ## What a verification tells -/

/-- The delivery is the object, as far as its size and its checksum tell. -/
def Matches (algo : Algorithm) (bytes : Bytes) : Prop :=
  d.delivered.bytes = bytes.length ∧
    (d.delivered.checksum = .none ∨ d.delivered.checksum = hashes.finish algo bytes)

def Holds (object : Option Bytes) (like : Bytes → Prop) : Prop := ∃ bytes, object = some bytes ∧ like bytes

def Intact (looks : Bool) (same : Bytes → Prop) (object : Option Bytes) : Verify → Prop
  | .none => looks = true → Holds object fun _ => True
  | .size => Holds object fun bytes => d.delivered.bytes = bytes.length
  | .checksum => Holds object same

section

variable (looks : Bool) (same : Bytes → Prop) (object : Option Bytes) (bytes : Bytes)
  (is : object = some bytes)

include is

theorem holds_iff (like : Bytes → Prop) : like bytes ↔ Holds object like := by
  constructor
  · exact fun holds => ⟨bytes, is, holds⟩
  · rintro ⟨other, also, holds⟩
    rw [Option.some_inj.mp (is.symm.trans also)]
    exact holds

theorem judges_sized :
    Judges Neutral (verifySize d.delivered.bytes bytes.length) (Intact d looks same object .size) True :=
  judges_mono _ _ _ _ _ (judges_size d.delivered.bytes bytes.length)
    (holds_iff object bytes is fun bytes => d.delivered.bytes = bytes.length) fun _ => trivial

theorem judges_same (result : Except ReplError Unit) (answered : Prop)
    (judges : Judges Neutral result (same bytes) answered) :
    Judges Neutral result (Intact d looks same object .checksum) answered :=
  judges_mono _ _ _ _ _ judges (holds_iff object bytes is same) id

end

section

variable {ε : Type} (classify : ε → ReplError) (neutral : ∀ e, Neutral (classify e))
  (file : Download ε) (algo : Algorithm) (bytes : Bytes) (of : file.Of bytes)

include neutral of

theorem judges_reread :
    Judges Neutral (file.hashReads classify >>= fun got =>
        verifyChecksum d.delivered.checksum (hashes.finish algo got.2))
      (d.delivered.checksum = .none ∨ d.delivered.checksum = hashes.finish algo bytes)
      (file.cut = none) :=
  judges_mono _ _ _ _ _
    (Download.judges_body classify file bytes neutral _ (Download.hash_reads_spec classify file bytes of)
      (fun got => verifyChecksum d.delivered.checksum (hashes.finish algo got.2)) _ _
      (judges_checksum d.delivered.checksum _ (finish_hashed hashes algo bytes)))
    Iff.rfl fun whole => ⟨whole, trivial⟩

theorem judges_download :
    Judges Neutral (file.hashChunks classify >>= checkDownload hashes d algo) (Matches hashes d algo bytes)
      (file.cut = none) := by
  have sized := judges_size d.delivered.bytes bytes.length
  have same := judges_checksum d.delivered.checksum _ (finish_hashed hashes algo bytes)
  refine judges_mono _ _ _ _ _ (Download.judges_body classify file bytes neutral _
    (Download.hash_chunks_spec classify file bytes of) (checkDownload hashes d algo) _ _
    (judges_both _ _ _ _ _ _ sized fun _ => same)) Iff.rfl ?_
  exact fun whole => ⟨whole, trivial, trivial⟩

end

namespace Local

variable (root : List Char) (algo : Algorithm) (side : Side)

structure Truthful (object : Option Bytes) : Prop where
  metadata : ∀ len, side.metadata (target d root) = .ok len →
    Holds object fun bytes => len = bytes.length
  content : ∀ file, side.openFile (target d root) = .ok file → Holds object file.Of

def Answered : Verify → Prop
  | .none => True
  | .size => ∃ len, side.metadata (target d root) = .ok len
  | .checksum => ∃ file, side.openFile (target d root) = .ok file ∧ file.cut = none

/-- The length is not compared when the content is. -/
def Same (bytes : Bytes) : Prop :=
  d.delivered.checksum = .none ∨
    d.delivered.checksum = hashes.finish ((algorithmOf d.delivered.checksum).getD algo) bytes

theorem verify_judges (object : Option Bytes) (truthful : Truthful d root side object)
    (policy : Verify) :
    Judges Neutral (verify hashes d root algo side policy) (Intact d false (Same hashes d algo) object policy)
      (Answered d root side policy) := by
  cases policy with
  | none => exact judges_accept _ _ nofun
  | size =>
      refine judges_mono _ _ _ _ _ (judges_ask _ _ _ True (blameless_map _ _ neutral_io) ?_) Iff.rfl
        ?_
      · intro len found
        obtain ⟨bytes, is, rfl⟩ := truthful.metadata len (ok_of_map _ _ _ found)
        exact judges_sized d false _ object bytes is
      · rintro ⟨len, found⟩
        exact ⟨⟨len, by rw [found]; rfl⟩, trivial⟩
  | checksum =>
      refine judges_mono _ _ _ _ _ (judges_ask _ _ _
        (∀ file, side.openFile (target d root) = .ok file → file.cut = none)
        (blameless_map _ _ neutral_io) ?_) Iff.rfl ?_
      · intro file opened
        obtain ⟨bytes, is, of⟩ := truthful.content file (ok_of_map _ _ _ opened)
        refine judges_mono _ _ _ _ _ (judges_same d false (Same hashes d algo) object bytes is _ _
          (judges_reread hashes d classifyIoError neutral_io file _ bytes of)) Iff.rfl ?_
        exact fun whole => whole file (ok_of_map _ _ _ opened)
      · rintro ⟨file, opened, whole⟩
        refine ⟨⟨file, by rw [opened]; rfl⟩, fun other also => ?_⟩
        rw [← Except.ok.inj (opened.symm.trans also)]
        exact whole

end Local

namespace S3

variable (dest : S3Multipart.S3Dest) (side : Side)

structure Truthful (object : Option Bytes) : Prop where
  head : ∀ mode head, side.headObject (target d dest) mode = .ok head →
    Holds object fun bytes => head.contentLength = some bytes.length

def Answered (policy : Verify) : Prop :=
  ∃ head, side.headObject (target d dest) (policy = .checksum) = .ok head

/-- What the service tells now is what it told on delivery, if it told anything at both times. -/
def Same (bytes : Bytes) : Prop :=
  d.delivered.bytes = bytes.length ∧
    ∀ head expected actual, side.headObject (target d dest) true = .ok head →
      handleS3Checksum d.delivered.handle = some expected →
      responseChecksum dest.algo head = some actual → expected = actual

theorem compare_judges (algo : Algorithm) (head : Head) :
    Judges Neutral (compare d algo head)
      (∀ expected actual, handleS3Checksum d.delivered.handle = some expected →
        responseChecksum algo head = some actual → expected = actual) True := by
  unfold compare
  cases handleS3Checksum d.delivered.handle with
  | none => exact judges_accept _ _ nofun
  | some expected =>
      cases responseChecksum algo head with
      | none => exact judges_accept _ _ nofun
      | some actual =>
          refine judges_mono _ _ _ _ _ (judges_if (expected = actual) True _) ?_ id
          exact ⟨by rintro same _ _ ⟨⟩ ⟨⟩; exact same, fun all => all expected actual rfl rfl⟩

theorem verify_judges (object : Option Bytes) (truthful : Truthful d dest side object)
    (policy : Verify) :
    Judges Neutral (verify d dest side policy) (Intact d true (Same d dest side) object policy)
      (Answered d dest side policy) := by
  refine judges_mono _ _ _ _ _ (judges_ask _ _ _ True (blameless_map _ _ neutral_sdk) ?_) Iff.rfl ?_
  · intro head told
    have told := ok_of_map _ _ _ told
    obtain ⟨bytes, is, len⟩ := truthful.head _ head told
    cases policy with
    | none => exact judges_accept _ _ fun _ => ⟨bytes, is, trivial⟩
    | size =>
        show Judges Neutral (verifySize d.delivered.bytes (head.contentLength.getD (-1)).toNat) _ _
        rw [len]
        exact judges_sized d true _ object bytes is
    | checksum =>
        dsimp only
        rw [len]
        have same := judges_both _ _ _ _ _ _ (judges_size d.delivered.bytes bytes.length) fun _ =>
          compare_judges d dest.algo head
        refine judges_same d true (Same d dest side) object bytes is _ _
          (judges_mono _ _ _ _ _ same (and_congr_right fun _ => ?_) fun _ => ⟨trivial, trivial⟩)
        constructor
        · intro agree other expected actual also
          rw [← Except.ok.inj (told.symm.trans also)]
          exact agree expected actual
        · exact fun agree expected actual => agree head expected actual told
  · rintro ⟨head, told⟩
    exact ⟨⟨head, by rw [told]; rfl⟩, trivial⟩

end S3

theorem success_of_read {α : Type} (reply : Reply α) (classify : Option Nat → Bool → ReplError)
    (value : α) (is : reply.read classify = .ok value) : reply = .success value := by
  cases reply with
  | success inner => exact congrArg Reply.success (Except.ok.inj is)
  | _ => cases is

namespace Http

variable (dest : HttpUpload.HttpDest) (side : Side)

structure Truthful (object : Option Bytes) : Prop where
  head : ∀ url len, target d dest side = some url → side.head url = .success (some len) →
    Holds object fun bytes => len = bytes.length
  content : ∀ url body, target d dest side = some url → side.get url = .success body →
    Holds object body.Of

def Answered : Verify → Prop
  | .none => True
  | .size => ∃ url len, target d dest side = some url ∧ asked side url = .ok () ∧
      side.head url = .success (some len)
  | .checksum => ∃ url body, target d dest side = some url ∧ asked side url = .ok () ∧
      side.get url = .success body ∧ body.cut = none

theorem blameless_asked (url : String) : Blameless Neutral (asked side url) :=
  blameless_bind _ _ (blameless_map _ _ fun _ => nofun) fun _ =>
    blameless_map _ _ fun trouble => trouble.property

theorem size_spec (url : String) : Blameless Neutral (size side url) ∧
    ∀ len, size side url = .ok len ↔ side.head url = .success (some len) := by
  unfold size
  constructor
  · refine blameless_bind _ _ (blameless_read _ _ (neutral_status "http")) fun told => ?_
    cases told with
    | none => exact fun e is => Except.error.inj is ▸ nofun
    | some len => exact nofun
  · intro len
    cases side.head url with
    | success told => cases told <;> simp [Reply.read, bind, Except.bind]
    | _ => simp [Reply.read, bind, Except.bind]

theorem verify_judges (object : Option Bytes) (truthful : Truthful d dest side object)
    (policy : Verify) :
    Judges Neutral (verify hashes d dest side policy)
      (Intact d false (Matches hashes d dest.algo) object policy) (Answered d dest side policy) := by
  unfold verify
  by_cases nothing : policy = .none
  · rw [if_pos nothing, nothing]
    exact judges_accept _ _ nofun
  · rw [if_neg nothing]
    cases found : target d dest side with
    | none =>
        refine ⟨nofun, fun e is => Or.inl (Except.error.inj is ▸ nofun), fun answered => ?_⟩
        cases policy with
        | none => exact absurd rfl nothing
        | size =>
            obtain ⟨url, _, is, _⟩ := answered
            cases found.symm.trans is
        | checksum =>
            obtain ⟨url, _, is, _⟩ := answered
            cases found.symm.trans is
    | some url =>
        dsimp only
        cases policy with
        | none => exact absurd rfl nothing
        | size =>
            obtain ⟨blameless, seen⟩ := size_spec side url
            refine judges_mono _ _ _ _ _ (judges_ask _ _ _ _ (blameless_asked side url) fun _ _ =>
              judges_ask _ _ _ True blameless ?_) Iff.rfl ?_
            · intro len told
              obtain ⟨bytes, is, rfl⟩ := truthful.head url len found ((seen len).mp told)
              exact judges_sized d false _ object bytes is
            · rintro ⟨other, len, is, asked, told⟩
              obtain rfl := Option.some_inj.mp (found.symm.trans is)
              exact ⟨⟨(), asked⟩, ⟨len, (seen len).mpr told⟩, trivial⟩
        | checksum =>
            refine judges_mono _ _ _ _ _ (judges_ask _ _ _ _ (blameless_asked side url) fun _ _ =>
              judges_ask _ _ _ (∀ body, side.get url = .success body → body.cut = none)
                (blameless_read _ _ (neutral_status "http")) ?_) Iff.rfl ?_
            · intro body told
              have told := success_of_read _ _ _ told
              obtain ⟨bytes, is, of⟩ := truthful.content url body found told
              exact judges_mono _ _ _ _ _ (judges_same d false _ object bytes is _ _
                (judges_download hashes d _ (fun _ => neutral_status "http" none true) body dest.algo
                  bytes of)) Iff.rfl fun whole => whole body told
            · rintro ⟨other, body, is, asked, told, whole⟩
              obtain rfl := Option.some_inj.mp (found.symm.trans is)
              refine ⟨⟨(), asked⟩, ⟨body, by rw [told]; rfl⟩, fun again also => ?_⟩
              rw [told] at also
              cases also
              exact whole

end Http

namespace Azure

variable (dest : AzureBlocks.AzureDest) (side : Side)

structure Truthful (object : Option Bytes) : Prop where
  properties : ∀ len, side.getProperties (target d dest) = .ok len →
    Holds object fun bytes => len = bytes.length
  /-- A blob that is not there is refused, which cuts the body off. -/
  content : (side.get (target d dest)).cut = none → Holds object (side.get (target d dest)).Of

def Answered : Verify → Prop
  | .none => True
  | .size => ∃ len, side.getProperties (target d dest) = .ok len
  | .checksum => (side.get (target d dest)).cut = none

theorem neutral_azure (failure : Option Nat) : Neutral (AzureBlocks.mapAzure failure) := by
  cases failure with
  | none => exact neutral_status "azure" none true
  | some status => exact neutral_status "azure" (some status) false

theorem verify_judges (object : Option Bytes) (truthful : Truthful d dest side object)
    (policy : Verify) :
    Judges Neutral (verify hashes d dest side policy)
      (Intact d false (Matches hashes d dest.algo) object policy) (Answered d dest side policy) := by
  cases policy with
  | none => exact judges_accept _ _ nofun
  | size =>
      refine judges_mono _ _ _ _ _ (judges_ask _ _ _ True (blameless_map _ _ neutral_azure) ?_)
        Iff.rfl ?_
      · intro len told
        obtain ⟨bytes, is, rfl⟩ := truthful.properties len (ok_of_map _ _ _ told)
        exact judges_sized d false _ object bytes is
      · rintro ⟨len, told⟩
        exact ⟨⟨len, by rw [told]; rfl⟩, trivial⟩
  | checksum =>
      cases cut : (side.get (target d dest)).cut with
      | none =>
          obtain ⟨bytes, is, of⟩ := truthful.content cut
          exact judges_same d false _ object bytes is _ _
            (judges_download hashes d _ neutral_azure _ dest.algo bytes of)
      | some failure =>
          have refused : (side.get (target d dest)).hashChunks AzureBlocks.mapAzure =
              .error (AzureBlocks.mapAzure failure) := by
            simp [Download.hashChunks, Download.fold_chunks_eq, Download.close, cut, bind, Except.bind]
          show Judges Neutral ((side.get (target d dest)).hashChunks AzureBlocks.mapAzure >>= _) _ _
          rw [refused]
          refine ⟨nofun, fun e is => Or.inl (Except.error.inj is ▸ neutral_azure failure), ?_⟩
          intro whole
          cases cut.symm.trans whole

end Azure

namespace Gcs

variable (dest : GcsSession.GcsDest) (side : Side)

/-- The service tells the length and the checksum of the object. -/
structure Truthful (object : Option Bytes) : Prop where
  metadata : ∀ metadata, side.metadata (target d dest) = .success (some metadata) →
    Holds object fun bytes => (∀ size, metadata.size = some size → size = bytes.length) ∧
      ∀ value, metadata.crc32c.bind (b64ToCrc32c side) = some value → value = hashes.crc32c bytes
  content : ∀ body, side.get (target d dest) = .success body → Holds object body.Of

/-- What a client gets: the body, or the metadata with its numbers. -/
def Asked (policy : Verify) : Prop :=
  side.objectUrl (target d dest) = .ok () ∧
    if policy = .checksum ∧ dest.algo = .sha256 then
      ∃ body, side.get (target d dest) = .success body ∧ body.cut = none
    else
      ∃ metadata, side.metadata (target d dest) = .success (some metadata) ∧
        metadata.size.isSome ∧
          (policy = .checksum → (metadata.crc32c.bind (b64ToCrc32c side)).isSome)

def Answered (policy : Verify) : Prop :=
  policy = .none ∨ side.client = .ok () ∧ Asked d dest side policy

theorem fetch_spec (key : String × String) : Blameless Neutral (fetchMetadata side key) ∧
    ∀ metadata, fetchMetadata side key = .ok metadata ↔
      side.objectUrl key = .ok () ∧ side.metadata key = .success (some metadata) := by
  unfold fetchMetadata
  constructor
  · refine blameless_bind _ _ (blameless_map _ _ fun _ => nofun) fun _ =>
      blameless_bind _ _ (blameless_read _ _ (neutral_status "gcs")) fun found => ?_
    cases found with
    | none => exact fun e is => Except.error.inj is ▸ nofun
    | some metadata => exact nofun
  · intro metadata
    cases side.objectUrl key with
    | error e => simp [Except.mapError, bind, Except.bind]
    | ok valid =>
        cases side.metadata key with
        | success found => cases found <;> simp [Reply.read, Except.mapError, bind, Except.bind]
        | _ => simp [Reply.read, Except.mapError, bind, Except.bind]

theorem size_of_spec (metadata : Metadata) : Blameless Neutral (sizeOf metadata) ∧
    ∀ size, sizeOf metadata = .ok size ↔ metadata.size = some size := by
  unfold sizeOf
  cases metadata.size with
  | none => exact ⟨fun e is => Except.error.inj is ▸ nofun, fun size => ⟨nofun, nofun⟩⟩
  | some size => exact ⟨nofun, fun other => by simp⟩

theorem crc32c_of_spec (metadata : Metadata) : Blameless Neutral (crc32cOf side metadata) ∧
    ∀ actual, crc32cOf side metadata = .ok actual ↔
      ∃ value, metadata.crc32c.bind (b64ToCrc32c side) = some value ∧ actual = .crc32c value := by
  unfold crc32cOf
  cases metadata.crc32c.bind (b64ToCrc32c side) with
  | none => exact ⟨fun e is => Except.error.inj is ▸ nofun, fun actual => by simp⟩
  | some value => exact ⟨nofun, fun actual => by simp [eq_comm]⟩

theorem sized_only (key : String × String) :
    (fetchMetadata side key >>= fun metadata => sizeOf metadata >>= fun size =>
        verifySize d.delivered.bytes size >>= fun _ => .ok ()) =
      fetchMetadata side key >>= fun metadata => sizeOf metadata >>= fun size =>
        verifySize d.delivered.bytes size := by
  congr 1
  funext metadata
  congr 1
  funext size
  cases verifySize d.delivered.bytes size <;> rfl

theorem sized_judges (object : Option Bytes) (truthful : Truthful hashes d dest side object)
    (rest : Metadata → Except ReplError Unit) (like : Bytes → Prop) (answered : Prop)
    (judges : ∀ metadata bytes, object = some bytes →
      side.metadata (target d dest) = .success (some metadata) →
      Judges Neutral (rest metadata) (like bytes) answered) :
    Judges Neutral (fetchMetadata side (target d dest) >>= fun metadata =>
        sizeOf metadata >>= fun size => verifySize d.delivered.bytes size >>= fun _ => rest metadata)
      (Holds object fun bytes => d.delivered.bytes = bytes.length ∧ like bytes)
      ((∃ metadata, side.objectUrl (target d dest) = .ok () ∧
          side.metadata (target d dest) = .success (some metadata) ∧ metadata.size.isSome) ∧
        answered) := by
  obtain ⟨blameless, fetched⟩ := fetch_spec side (target d dest)
  refine judges_mono _ _ _ _ _ (judges_ask _ _ _ ((∀ metadata,
    side.metadata (target d dest) = .success (some metadata) → metadata.size.isSome) ∧ answered)
    blameless ?_) Iff.rfl ?_
  · intro metadata got
    have told := ((fetched metadata).mp got).2
    obtain ⟨bytes, is, len, _⟩ := truthful.metadata metadata told
    obtain ⟨careful, sized⟩ := size_of_spec metadata
    refine judges_mono _ _ _ _ _ (judges_ask _ _ _ (True ∧ answered) careful ?_) Iff.rfl ?_
    · intro size known
      obtain rfl := len size ((sized size).mp known)
      exact judges_mono _ _ _ _ _ (judges_both _ _ _ _ _ _ (judges_size d.delivered.bytes bytes.length)
        fun _ => judges metadata bytes is told) (holds_iff object bytes is fun bytes =>
          d.delivered.bytes = bytes.length ∧ like bytes) id
    · rintro ⟨all, also⟩
      obtain ⟨size, known⟩ := Option.isSome_iff_exists.mp (all metadata told)
      exact ⟨⟨size, (sized size).mpr known⟩, trivial, also⟩
  · rintro ⟨⟨metadata, valid, told, some⟩, also⟩
    refine ⟨⟨metadata, (fetched metadata).mpr ⟨valid, told⟩⟩, fun other again => ?_, also⟩
    rw [told] at again
    cases again
    exact some

theorem download_judges (object : Option Bytes) (truthful : Truthful hashes d dest side object) :
    Judges Neutral (downloadAndHash side (target d dest) >>= checkDownload hashes d .sha256)
      (Intact d false (Matches hashes d .sha256) object .checksum)
      (∃ body, side.objectUrl (target d dest) = .ok () ∧
        side.get (target d dest) = .success body ∧ body.cut = none) := by
  unfold downloadAndHash
  simp only [bind_assoc]
  refine judges_mono _ _ _ _ _ (judges_ask _ _ _ _ (blameless_map _ _ fun _ => nofun) fun _ _ =>
    judges_ask _ _ _ (∀ body, side.get (target d dest) = .success body → body.cut = none)
      (blameless_read _ _ (neutral_status "gcs")) ?_) Iff.rfl ?_
  · intro body told
    have told := success_of_read _ _ _ told
    obtain ⟨bytes, is, of⟩ := truthful.content body told
    exact judges_mono _ _ _ _ _ (judges_same d false _ object bytes is _ _
      (judges_download hashes d _ (fun _ => neutral_status "gcs" none true) body .sha256 bytes of))
      Iff.rfl fun whole => whole body told
  · rintro ⟨body, valid, told, whole⟩
    refine ⟨⟨(), by rw [valid]; rfl⟩, ⟨body, by rw [told]; rfl⟩, fun again also => ?_⟩
    rw [told] at also
    cases also
    exact whole

theorem verify_judges (object : Option Bytes) (truthful : Truthful hashes d dest side object)
    (policy : Verify) :
    Judges Neutral (verify hashes d dest side policy)
      (Intact d false (Matches hashes d dest.algo) object policy) (Answered d dest side policy) := by
  unfold verify Answered
  by_cases nothing : policy = .none
  · rw [if_pos nothing, nothing]
    exact judges_accept _ _ nofun
  · rw [if_neg nothing]
    refine judges_mono _ _ _ _ _ (judges_ask _ _ _ (Asked d dest side policy)
      (blameless_map _ _ fun trouble => trouble.property) fun _ _ => ?_) Iff.rfl ?_
    · cases policy with
      | none => exact absurd rfl nothing
      | size =>
          have sized := sized_judges hashes d dest side object truthful (fun _ => .ok ())
            (fun _ => True) True fun _ _ _ _ => judges_accept _ _ trivial
          refine judges_mono _ _ _ _ _ (sized_only d side (target d dest) ▸ sized) ?_ ?_
          · exact exists_congr fun bytes => and_congr_right fun _ => iff_of_eq (and_true _)
          · rintro ⟨valid, metadata, told, some, _⟩
            exact ⟨⟨metadata, valid, told, some⟩, trivial⟩
      | checksum =>
          rw [if_neg (by decide)]
          unfold Asked
          cases algo : dest.algo with
          | crc32c =>
              rw [if_neg (by decide)]
              have sized := sized_judges hashes d dest side object truthful
                (fun metadata => crc32cOf side metadata >>= verifyChecksum d.delivered.checksum)
                (fun bytes => d.delivered.checksum = .none ∨
                  d.delivered.checksum = hashes.finish .crc32c bytes)
                (∀ metadata, side.metadata (target d dest) = .success (some metadata) →
                  (metadata.crc32c.bind (b64ToCrc32c side)).isSome) ?_
              · refine judges_mono _ _ _ _ _ sized Iff.rfl ?_
                rintro ⟨valid, metadata, told, some, summed⟩
                refine ⟨⟨metadata, valid, told, some⟩, fun other again => ?_⟩
                rw [told] at again
                cases again
                exact summed rfl
              · intro metadata bytes is told
                obtain ⟨blameless, summed⟩ := crc32c_of_spec side metadata
                refine judges_mono _ _ _ _ _ (judges_ask _ _ _ True blameless ?_) Iff.rfl ?_
                · intro actual known
                  obtain ⟨value, decoded, rfl⟩ := (summed actual).mp known
                  obtain ⟨same, also, _, crc⟩ := truthful.metadata metadata told
                  obtain rfl := Option.some_inj.mp (is.symm.trans also)
                  rw [crc value decoded]
                  exact judges_checksum _ _ (finish_hashed hashes .crc32c bytes)
                · intro all
                  obtain ⟨value, decoded⟩ := Option.isSome_iff_exists.mp (all metadata told)
                  exact ⟨⟨_, (summed _).mpr ⟨value, decoded, rfl⟩⟩, trivial⟩
          | sha256 =>
              rw [if_pos ⟨rfl, rfl⟩]
              refine judges_mono _ _ _ _ _ (download_judges hashes d dest side object truthful)
                Iff.rfl ?_
              rintro ⟨valid, body, told, whole⟩
              exact ⟨body, valid, told, whole⟩
    · rintro (none | ⟨client, asked⟩)
      · exact absurd none nothing
      · exact ⟨⟨(), by rw [client]; rfl⟩, asked⟩

end Gcs

namespace Sftp

variable (dest : TempUpload.TempDest) (side : Side)

structure Truthful (object : Option Bytes) : Prop where
  metadata : ∀ size, side.metadata (target d dest) = .ok size →
    Holds object fun bytes => size = some bytes.length
  content : ∀ file, side.openFile (target d dest) = .ok file → Holds object file.Of

def Answered (policy : Verify) : Prop :=
  side.session = .ok () ∧ (∃ size, side.metadata (target d dest) = .ok size) ∧
    (policy = .checksum → ∃ file, side.openFile (target d dest) = .ok file ∧ file.cut = none)

theorem verify_judges (object : Option Bytes) (truthful : Truthful d dest side object)
    (policy : Verify) :
    Judges Neutral (verify hashes d dest side policy)
      (Intact d true (Matches hashes d dest.algo) object policy) (Answered d dest side policy) := by
  refine judges_mono _ _ _ _ _ (judges_ask _ _ _ _
    (blameless_map _ _ fun trouble => trouble.property) fun _ _ =>
      judges_ask _ _ _ (policy = .checksum → ∃ file, side.openFile (target d dest) = .ok file ∧
        file.cut = none) (blameless_map _ _ neutral_sftp) ?_) Iff.rfl ?_
  · intro size told
    obtain ⟨bytes, is, rfl⟩ := truthful.metadata size (ok_of_map _ _ _ told)
    cases policy with
    | none => exact judges_accept _ _ fun _ => ⟨bytes, is, trivial⟩
    | size =>
        exact judges_mono _ _ _ _ _ (judges_sized d true _ object bytes is) Iff.rfl fun _ => trivial
    | checksum =>
        refine judges_same d true _ object bytes is _ _ (judges_mono _ _ _ _ _ (judges_both _ _ _ _ _ _
          (judges_size d.delivered.bytes bytes.length) fun _ => judges_ask _ _ _
            (∀ file, side.openFile (target d dest) = .ok file → file.cut = none)
            (blameless_map _ _ neutral_sftp) ?_) Iff.rfl ?_)
        · intro file opened
          have opened := ok_of_map _ _ _ opened
          obtain ⟨content, also, of⟩ := truthful.content file opened
          obtain rfl := Option.some_inj.mp (is.symm.trans also)
          exact judges_mono _ _ _ _ _ (judges_reread hashes d classifyIoError neutral_io file dest.algo
            bytes of) Iff.rfl fun whole => whole file opened
        · intro asked
          obtain ⟨file, opened, whole⟩ := asked rfl
          refine ⟨trivial, ⟨file, by rw [opened]; rfl⟩, fun other again => ?_⟩
          rw [opened] at again
          cases again
          exact whole
  · rintro ⟨session, ⟨size, told⟩, asked⟩
    exact ⟨⟨(), by rw [session]; rfl⟩, ⟨size, by rw [told]; rfl⟩, asked⟩

end Sftp

namespace Ftps

variable (dest : TempUpload.TempDest) (side : Side)

structure Truthful (object : Option Bytes) : Prop where
  size : ∀ size, side.size (target d dest) = .ok size → Holds object fun bytes => size = bytes.length
  content : ∀ file, side.retr (target d dest) = .ok file → Holds object file.Of

def Answered (policy : Verify) : Prop :=
  side.connectAndLogin = .ok () ∧ (∃ size, side.size (target d dest) = .ok size) ∧
    (policy = .checksum → side.finalize (target d dest) = .ok () ∧
      ∃ file, side.retr (target d dest) = .ok file ∧ file.cut = none)

theorem verify_judges (object : Option Bytes) (truthful : Truthful d dest side object)
    (policy : Verify) :
    Judges Neutral (verify hashes d dest side policy)
      (Intact d true (Matches hashes d dest.algo) object policy) (Answered d dest side policy) := by
  refine judges_mono _ _ _ _ _ (judges_ask _ _ _ _
    (blameless_map _ _ fun trouble => trouble.property) fun _ _ =>
      judges_ask _ _ _ (policy = .checksum → side.finalize (target d dest) = .ok () ∧
        ∃ file, side.retr (target d dest) = .ok file ∧ file.cut = none)
        (blameless_map _ _ neutral_ftp) ?_) Iff.rfl ?_
  · intro size told
    obtain ⟨bytes, is, rfl⟩ := truthful.size size (ok_of_map _ _ _ told)
    cases policy with
    | none => exact judges_accept _ _ fun _ => ⟨bytes, is, trivial⟩
    | size =>
        exact judges_mono _ _ _ _ _ (judges_sized d true _ object bytes is) Iff.rfl fun _ => trivial
    | checksum =>
        refine judges_same d true _ object bytes is _ _ (judges_mono _ _ _ _ _ (judges_both _ _ _ _ _ _
          (judges_size d.delivered.bytes bytes.length) fun _ => judges_ask _ _ _
            (side.finalize (target d dest) = .ok () ∧
              ∀ file, side.retr (target d dest) = .ok file → file.cut = none)
            (blameless_map _ _ neutral_ftp) ?_) Iff.rfl ?_)
        · intro file opened
          have opened := ok_of_map _ _ _ opened
          obtain ⟨content, also, of⟩ := truthful.content file opened
          obtain rfl := Option.some_inj.mp (is.symm.trans also)
          have same := judges_checksum d.delivered.checksum _ (finish_hashed hashes dest.algo bytes)
          refine judges_mono _ _ _ _ _ (Download.judges_body Publishing.mapFtp file bytes neutral_ftp _
            (Download.hash_reads_spec Publishing.mapFtp file bytes of) (fun got =>
              (side.finalize (target d dest)).mapError Publishing.mapFtp >>= fun _ =>
                verifyChecksum d.delivered.checksum (hashes.finish dest.algo got.2)) _ _
            (judges_ask _ _ _ _ (blameless_map _ _ neutral_ftp) fun _ _ => same)) Iff.rfl ?_
          rintro ⟨closed, whole⟩
          exact ⟨whole file opened, ⟨(), by rw [closed]; rfl⟩, trivial⟩
        · intro asked
          obtain ⟨closed, file, opened, whole⟩ := asked rfl
          refine ⟨trivial, ⟨file, by rw [opened]; rfl⟩, closed, fun other again => ?_⟩
          rw [opened] at again
          cases again
          exact whole
  · rintro ⟨session, ⟨size, told⟩, asked⟩
    exact ⟨⟨(), by rw [session]; rfl⟩, ⟨size, by rw [told]; rfl⟩, asked⟩

end Ftps

namespace Backend

/-- What is answered about the target is true of the object that is there. -/
def Truthful (object : Option Bytes) : Backend → Prop
  | .localDir root _ side => Local.Truthful d root side object
  | .s3 dest side => S3.Truthful d dest side object
  | .http dest side => Http.Truthful d dest side object
  | .azure dest side => Azure.Truthful d dest side object
  | .gcs dest side => Gcs.Truthful hashes d dest side object
  | .sftp dest side => Sftp.Truthful d dest side object
  | .ftps dest side => Ftps.Truthful d dest side object

/-- Every request that the policy needs is answered. -/
def Answered (policy : Verify) : Backend → Prop
  | .localDir root _ side => Local.Answered d root side policy
  | .s3 dest side => S3.Answered d dest side policy
  | .http dest side => Http.Answered d dest side policy
  | .azure dest side => Azure.Answered d dest side policy
  | .gcs dest side => Gcs.Answered d dest side policy
  | .sftp dest side => Sftp.Answered d dest side policy
  | .ftps dest side => Ftps.Answered d dest side policy

/-- Whether the policy `none` makes a request. -/
def looks : Backend → Bool
  | .s3 _ _ | .sftp _ _ | .ftps _ _ => true
  | _ => false

/-- What the policy `checksum` compares. -/
def Same (bytes : Bytes) : Backend → Prop
  | .localDir _ algo _ => Local.Same hashes d algo bytes
  | .s3 dest side => S3.Same d dest side bytes
  | .http dest _ => Matches hashes d dest.algo bytes
  | .azure dest _ => Matches hashes d dest.algo bytes
  | .gcs dest _ => Matches hashes d dest.algo bytes
  | .sftp dest _ => Matches hashes d dest.algo bytes
  | .ftps dest _ => Matches hashes d dest.algo bytes

end Backend

/-- Whatever the remote side leaves unanswered or cuts off: what a backend accepts is intact under the
policy, what it blames is not, and an intact object is accepted once everything is answered. -/
theorem verified_intact (b : Backend) (policy : Verify) (object : Option Bytes)
    (truthful : b.Truthful hashes d object) :
    (b.verify hashes d policy = .ok () →
        Intact d b.looks (b.Same hashes d ·) object policy) ∧
      (∀ text, b.verify hashes d policy = .error (.integrity text) →
        ¬ Intact d b.looks (b.Same hashes d ·) object policy) ∧
      (b.Answered d policy → Intact d b.looks (b.Same hashes d ·) object policy →
        b.verify hashes d policy = .ok ()) := by
  have judges : Judges Neutral (b.verify hashes d policy) (Intact d b.looks (b.Same hashes d ·) object policy)
      (b.Answered d policy) := by
    cases b with
    | localDir root algo side =>
        exact Local.verify_judges hashes d root algo side object truthful policy
    | s3 dest side => exact S3.verify_judges d dest side object truthful policy
    | http dest side => exact Http.verify_judges hashes d dest side object truthful policy
    | azure dest side => exact Azure.verify_judges hashes d dest side object truthful policy
    | gcs dest side => exact Gcs.verify_judges hashes d dest side object truthful policy
    | sftp dest side => exact Sftp.verify_judges hashes d dest side object truthful policy
    | ftps dest side => exact Ftps.verify_judges hashes d dest side object truthful policy
  refine ⟨judges.accepts, fun text is => ?_, judges.complete⟩
  exact (judges.blames _ is).resolve_left fun neutral => neutral text rfl

end

def digits : Bytes := [49, 50, 51, 52, 53, 54, 55, 56, 57]

def digitsHashes : Hashes where
  crc32c := fun bytes => if bytes = digits then 0xe3069283 else 0
  sha256 := fun _ => Vector.replicate 32 0

def digitsSide : Sftp.Side where
  session := .ok ()
  metadata := fun _ => .ok (some 9)
  openFile := fun _ => .ok ⟨[[49, 50, 51, 52], [53, 54, 55, 56, 57]], none⟩

def digitsDelivery : Delivery where
  relpath := "digits"
  delivered := ⟨9, .crc32c 0xe3069283, TempUpload.buildHandle "out/digits" .crc32c⟩

theorem verified_intact_digits :
    (Backend.sftp ⟨"out", ".part", .crc32c⟩ digitsSide).verify digitsHashes digitsDelivery .checksum =
      .ok () := by
  have truthful : Backend.Truthful digitsHashes digitsDelivery (some digits)
      (.sftp ⟨"out", ".part", .crc32c⟩ digitsSide) := by
    refine ⟨?_, ?_⟩
    · rintro size ⟨⟩
      exact ⟨digits, rfl, rfl⟩
    · rintro file ⟨⟩
      exact ⟨digits, rfl, by decide, fun _ => rfl⟩
  refine (verified_intact digitsHashes digitsDelivery _ .checksum (some digits) truthful).2.2 ?_ ?_
  · exact ⟨rfl, ⟨some 9, rfl⟩, fun _ => ⟨_, rfl, rfl⟩⟩
  · exact ⟨digits, rfl, rfl, Or.inr (by decide)⟩

end FileReplicator.Verification
