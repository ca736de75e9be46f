import FileReplicator.Healing
import FileReplicator.S3Multipart

/-!
# Resuming and recovering an S3 upload

What the parts on the service are worth after any history of deliveries, and
what the recovery of a vanished upload makes of an object that was there before.
-/

namespace FileReplicator.S3Resume

open Domain ByteRanges SourceFile PartPlanning S3Multipart Healing

variable (service : S3Service) (dest : S3Dest) (src : Source) (key relpath : String)

def numbers (token : S3ResumeToken) : List Nat :=
  token.completed.map S3CompletedPart.partNumber

def partCount (token : S3ResumeToken) : Nat := src.size ⌈/⌉ token.partSize

/-- The parts of an upload hold their bytes of the source. -/
def OwnParts (partSize : Nat) (upload : Upload) : Prop :=
  ∀ index < src.size ⌈/⌉ partSize, ∀ bytes, upload.parts (index + 1) = some bytes →
    bytes = partBytes src partSize (index + 1)

/-- A token that belongs to this source: its list is in order and within the plan, and its upload
holds parts of the source only. -/
structure GoodToken (server : S3Server) (token : S3ResumeToken) : Prop where
  positive : 0 < token.partSize
  size : token.totalSize = src.size
  mtime : token.mtimeMs = src.mtimeMs
  ascends : (numbers token).Pairwise (· < ·)
  planned : ∀ n ∈ numbers token, 1 ≤ n ∧ n ≤ partCount src token
  own : ∀ upload, server.uploads token.uploadId = some upload → OwnParts src token.partSize upload

abbrev State := S3Server × Option ResumeState

def Sound (versions : Source → Prop) (state : State) : Prop :=
  ∀ token, state.2.bind Token.fromResume = some token →
    ∀ src, versions src → token.totalSize = src.size → token.mtimeMs = src.mtimeMs →
      GoodToken src state.1 token

/-- The resume row counts a token of this source. -/
def RowGood (server : S3Server) (row : Option ResumeState) : Prop :=
  ∀ token, row.bind Token.fromResume = some token → GoodToken src server token

/-- The parts that are not in the list are still to be uploaded, each once. -/
structure Working (server : S3Server) (token : S3ResumeToken) (outstanding : List Nat) : Prop where
  good : GoodToken src server token
  once : outstanding.Nodup
  split : ∀ n, n ∈ outstanding ↔ 1 ≤ n ∧ n ≤ partCount src token ∧ n ∉ numbers token

theorem record_part_numbers (token : S3ResumeToken) (part : S3CompletedPart) (n : Nat) :
    n ∈ (recordPart token.completed part).map S3CompletedPart.partNumber ↔
      n = part.partNumber ∨ n ∈ numbers token := by
  have hperm := List.perm_insertionSort
    (fun a b : S3CompletedPart => a.partNumber ≤ b.partNumber) (token.completed ++ [part])
  have hmem := (hperm.map S3CompletedPart.partNumber).mem_iff (a := n)
  unfold recordPart
  rw [hmem]
  simp [numbers, or_comm]

theorem record_part_ascends (token : S3ResumeToken) (part : S3CompletedPart)
    (ascends : (numbers token).Pairwise (· < ·)) (fresh : part.partNumber ∉ numbers token) :
    ((recordPart token.completed part).map S3CompletedPart.partNumber).Pairwise (· < ·) := by
  have hperm := List.perm_insertionSort
    (fun a b : S3CompletedPart => a.partNumber ≤ b.partNumber) (token.completed ++ [part])
  have hnodup : ((recordPart token.completed part).map S3CompletedPart.partNumber).Nodup := by
    refine (hperm.map S3CompletedPart.partNumber).nodup_iff.mpr ?_
    rw [List.map_append, List.nodup_append]
    refine ⟨ascends.imp Nat.ne_of_lt, by simp, ?_⟩
    intro a ha b hb
    simp only [List.map_cons, List.map_nil, List.mem_singleton] at hb
    rintro rfl
    exact fresh (hb ▸ ha)
  have : Std.Total (fun a b : S3CompletedPart => a.partNumber ≤ b.partNumber) :=
    ⟨fun a b => Nat.le_total _ _⟩
  have : IsTrans S3CompletedPart (fun a b => a.partNumber ≤ b.partNumber) :=
    ⟨fun a b c => Nat.le_trans⟩
  have hle := List.pairwise_insertionSort
    (fun a b : S3CompletedPart => a.partNumber ≤ b.partNumber) (token.completed ++ [part])
  have hmap : ((recordPart token.completed part).map S3CompletedPart.partNumber).Pairwise
      (· ≤ ·) := List.pairwise_map.mpr hle
  exact hmap.imp₂ (fun a b le ne => Nat.lt_of_le_of_ne le ne) hnodup

theorem ascending_iff (ns : List Nat) : ascending ns = true ↔ ns.Pairwise (· < ·) := by
  rw [← List.isChain_iff_pairwise]
  induction ns with
  | nil => simp [ascending]
  | cons a rest ih =>
      cases rest with
      | nil => simp [ascending]
      | cons b rest => simp only [ascending, Bool.and_eq_true, decide_eq_true_eq, ih,
          List.isChain_cons_cons]

theorem numbers_of_all (token : S3ResumeToken) (server : S3Server)
    (working : Working src server token []) :
    numbers token = (List.range (partCount src token)).map (· + 1) := by
  refine List.Pairwise.eq_of_mem_iff working.good.ascends ?_ ?_
  · rw [List.pairwise_map]
    exact List.pairwise_lt_range.imp fun h => by omega
  · intro n
    have hsplit := working.split n
    simp only [List.not_mem_nil, false_iff, not_and, not_not] at hsplit
    simp only [List.mem_map, List.mem_range]
    constructor
    · intro member
      have := working.good.planned n member
      exact ⟨n - 1, by omega, by omega⟩
    · rintro ⟨index, lt, rfl⟩
      exact hsplit (by omega) (by omega)

theorem part_body_eq (token : S3ResumeToken) (positive : 0 < token.partSize) (number : Nat)
    (first : 1 ≤ number) (last : number ≤ partCount src token) :
    partBody src (partCount src token) token number = partBytes src token.partSize number :=
  read_part_eq src number token.partSize positive first last

theorem own_store_part (partSize number : Nat) (upload : Upload) (own : OwnParts src partSize upload) :
    OwnParts src partSize { upload with
      parts := fun n => if n = number then some (partBytes src partSize number)
        else upload.parts n } := by
  intro index below bytes found
  simp only at found
  split at found
  · rename_i heq
    rw [heq]
    exact (Option.some.inj found).symm
  · exact own index below bytes found

/-- A part request changes only its upload, and leaves only parts of the source there. -/
theorem upload_part_spec (server : S3Server) (token : S3ResumeToken) (number : Nat)
    (answer : PartAnswer) (good : GoodToken src server token) :
    let sent := uploadPart service server token.uploadId dest.algo number
      (partBytes src token.partSize number) answer
    sent.1.object = server.object ∧ GoodToken src sent.1 token := by
  have kept : ∀ server' : S3Server, server'.object = server.object →
      (∀ upload, server'.uploads token.uploadId = some upload →
        OwnParts src token.partSize upload) →
      server'.object = server.object ∧ GoodToken src server' token :=
    fun server' hobject hown => ⟨hobject, { good with own := hown }⟩
  unfold uploadPart
  split
  · exact kept _ rfl fun upload found => by simp [S3Server.setUpload] at found
  · exact ⟨rfl, good⟩
  · exact ⟨rfl, good⟩
  · rename_i applied failure upload hupload
    split
    · refine kept _ rfl fun after found => ?_
      simp only [S3Server.storePart, S3Server.setUpload, if_true, Option.some.injEq] at found
      exact found ▸ own_store_part src token.partSize number upload (good.own upload hupload)
    · exact ⟨rfl, good⟩
  · rename_i named upload hupload
    split
    · refine kept _ rfl fun after found => ?_
      simp only [S3Server.storePart, S3Server.setUpload, if_true, Option.some.injEq] at found
      exact found ▸ own_store_part src token.partSize number upload (good.own upload hupload)
    · exact ⟨rfl, good⟩

theorem working_record (server : S3Server) (token : S3ResumeToken) (outstanding : List Nat)
    (number : Nat) (eTag : String) (checksum : Option String)
    (working : Working src server token outstanding) (member : number ∈ outstanding) :
    Working src server
      { token with completed := recordPart token.completed ⟨number, eTag, checksum⟩ }
      (outstanding.erase number) := by
  obtain ⟨first, last, fresh⟩ := (working.split number).mp member
  have hnumbers := record_part_numbers token ⟨number, eTag, checksum⟩
  refine ⟨⟨working.good.positive, working.good.size, working.good.mtime,
    record_part_ascends token ⟨number, eTag, checksum⟩ working.good.ascends fresh, ?_,
    working.good.own⟩, working.once.erase number, ?_⟩
  · intro n hn
    rcases (hnumbers n).mp hn with rfl | hold
    · exact ⟨first, last⟩
    · exact working.good.planned n hold
  · intro n
    rw [working.once.mem_erase_iff, working.split n]
    change _ ↔ 1 ≤ n ∧ n ≤ partCount src token ∧
      n ∉ (recordPart token.completed ⟨number, eTag, checksum⟩).map S3CompletedPart.partNumber
    rw [hnumbers n, not_or]
    constructor
    · rintro ⟨hne, h1, h2, h3⟩
      exact ⟨h1, h2, hne, h3⟩
    · rintro ⟨h1, h2, hne, h3⟩
      exact ⟨hne, h1, h2, h3⟩

theorem missing_parts_working (server : S3Server) (token : S3ResumeToken)
    (good : GoodToken src server token) :
    Working src server token (missingParts (partCount src token) token.completed) := by
  refine ⟨good, ?_, ?_⟩
  · refine List.Nodup.filter _ (List.Nodup.map ?_ List.nodup_range)
    exact fun a b h => by simpa using h
  · intro n
    simp only [missingParts, List.mem_filter, List.mem_map, List.mem_range, decide_eq_true_eq]
    constructor
    · rintro ⟨⟨index, lt, rfl⟩, hnot⟩
      exact ⟨by omega, by omega, by simpa [numbers] using hnot⟩
    · rintro ⟨h1, h2, hnot⟩
      exact ⟨⟨n - 1, by omega, by omega⟩, by simpa [numbers] using hnot⟩

theorem complete_is_source (server after : S3Server) (token : S3ResumeToken) (algo : Algorithm)
    (working : Working src server token [])
    (accepted : complete service server token.uploadId algo token.completed = .ok after) :
    after.object = some src.bytes ∧ after.uploads token.uploadId = none := by
  unfold complete at accepted
  split at accepted
  · cases accepted
  · rename_i upload hupload
    split at accepted
    · rename_i hvalid
      simp only [Bool.and_eq_true, List.all_eq_true] at hvalid
      cases accepted
      refine ⟨?_, by simp [S3Server.setUpload]⟩
      have own := working.good.own upload hupload
      have hparts : (token.completed.map fun p => (upload.parts p.partNumber).getD []) =
          (numbers token).map fun n => (upload.parts n).getD [] := by
        rw [numbers, List.map_map]
        rfl
      have hbytes : ∀ n ∈ numbers token,
          (upload.parts n).getD [] = partBytes src token.partSize n := by
        intro n hn
        obtain ⟨part, hpart, rfl⟩ := List.mem_map.mp hn
        have hvalidPart := hvalid.1 part hpart
        obtain ⟨first, last⟩ := working.good.planned part.partNumber hn
        obtain ⟨index, hindex⟩ : ∃ index, part.partNumber = index + 1 :=
          ⟨part.partNumber - 1, by omega⟩
        unfold hasPart at hvalidPart
        split at hvalidPart
        · simp at hvalidPart
        · rename_i bytes hfound
          rw [hfound, Option.getD_some, hindex]
          exact own index (by unfold partCount at last; omega) bytes (hindex ▸ hfound)
      rw [hparts, List.map_congr_left hbytes, numbers_of_all src token server working,
        List.map_map]
      exact congrArg some (all_parts_flatten src token.partSize working.good.positive)
    · cases accepted

/-- What an attempt leaves: a token of its own source in the row, an object that is either the one
before or the source, and the source if it is `Ok`. -/
structure AttemptSpec (server : S3Server) (run : MpuRun) : Prop where
  ok : ∀ d, run.result = .ok d → run.server.object = some src.bytes
  object : run.server.object = server.object ∨ run.server.object = some src.bytes
  row : RowGood src run.server run.row

theorem row_good_of_token (server : S3Server) (token : S3ResumeToken) (count : Nat)
    (good : GoodToken src server token) : RowGood src server (tokenRow src count token) := by
  intro other found
  simp only [tokenRow, Token.toResume, Option.bind_some, Token.fromResume,
    Option.some.injEq] at found
  exact found ▸ good

theorem failed_request_not_ok (failure : Failure) (d : Delivered) :
    failedRequest failure ≠ .ok d := by
  unfold failedRequest
  split <;> simp

theorem finish_attempt_spec (server : S3Server) (token : S3ResumeToken) (answer : CompleteAnswer)
    (working : Working src server token []) :
    AttemptSpec src server
      (finishAttempt service dest src key (partCount src token) token server answer) := by
  have hgone : ∀ after : S3Server, after.uploads token.uploadId = none →
      GoodToken src after token := fun after gone =>
    { working.good with own := fun upload found => by simp [gone] at found }
  have hfailed : ∀ (after : S3Server) (failure : Failure),
      after = server ∨ (after.uploads token.uploadId = none ∧
        (after.object = server.object ∨ after.object = some src.bytes)) →
      AttemptSpec src server ⟨failedRequest failure, after,
        tokenRow src (partCount src token) token⟩ := by
    intro after failure hafter
    refine ⟨fun d hd => absurd hd (failed_request_not_ok failure d), ?_, ?_⟩
    · rcases hafter with rfl | ⟨_, hobject⟩
      · exact Or.inl rfl
      · exact hobject
    · refine row_good_of_token src after token _ ?_
      rcases hafter with rfl | ⟨gone, _⟩
      · exact working.good
      · exact hgone after gone
  unfold finishAttempt
  cases answer with
  | sweep =>
      exact hfailed _ _ (Or.inr ⟨by simp [S3Server.setUpload], Or.inl rfl⟩)
  | accept echo =>
      cases hcomplete : complete service server token.uploadId dest.algo token.completed with
      | error failure =>
          simp only [completeUpload, hcomplete]
          exact hfailed server failure (Or.inl rfl)
      | ok after =>
          obtain ⟨hobject, hnone⟩ :=
            complete_is_source service src server after token dest.algo working hcomplete
          have hsame : sourceChanged src.size src.mtimeMs src.size src.mtimeMs = false := by
            simp [sourceChanged]
          simp only [completeUpload, hcomplete, hsame]
          exact ⟨fun d _ => hobject, Or.inr hobject, row_good_of_token src after token _
            (hgone after hnone)⟩
  | fails applied failure =>
      cases hcomplete : complete service server token.uploadId dest.algo token.completed with
      | error other =>
          simp only [completeUpload, hcomplete]
          exact hfailed server failure (Or.inl rfl)
      | ok after =>
          obtain ⟨hobject, hnone⟩ :=
            complete_is_source service src server after token dest.algo working hcomplete
          simp only [completeUpload, hcomplete]
          cases applied with
          | true => exact hfailed after failure (Or.inr ⟨hnone, Or.inr hobject⟩)
          | false => exact hfailed server failure (Or.inl rfl)

theorem in_flight_mem (outstanding : List Nat) (pick number : Nat)
    (next : inFlight dest outstanding pick = some number) : number ∈ outstanding :=
  List.mem_of_mem_take (List.mem_of_getElem? next)

theorem in_flight_none (outstanding : List Nat) (pick : Nat)
    (none_left : inFlight dest outstanding pick = none) : outstanding = [] := by
  simp only [inFlight, List.getElem?_eq_none_iff] at none_left
  by_contra some_left
  have hpos : 0 < (outstanding.take (max dest.multipart.maxConcurrent 1)).length := by
    rw [List.length_take]
    have := List.length_pos_iff.mpr some_left
    omega
  have := Nat.mod_lt pick hpos
  omega

theorem upload_parts_spec (script : List (Nat × PartAnswer)) (answer : CompleteAnswer)
    (outstanding : List Nat) (token : S3ResumeToken) (server : S3Server)
    (working : Working src server token outstanding) :
    AttemptSpec src server
      (uploadParts service dest src key (partCount src token) answer outstanding token server
        script) := by
  induction script generalizing outstanding token server with
  | nil =>
      rw [uploadParts]
      split
      · rename_i hdone
        exact finish_attempt_spec service dest src key server token answer (hdone ▸ working)
      · exact ⟨fun d hd => by simp at hd, Or.inl rfl,
          row_good_of_token src server token _ working.good⟩
  | cons event rest ih =>
      obtain ⟨pick, part⟩ := event
      rw [uploadParts]
      cases hnext : inFlight dest outstanding pick with
      | none =>
          exact finish_attempt_spec service dest src key server token answer
            (in_flight_none dest outstanding pick hnext ▸ working)
      | some number =>
          have member := in_flight_mem dest outstanding pick number hnext
          obtain ⟨first, last, _⟩ := (working.split number).mp member
          obtain ⟨hobject, hgood⟩ := upload_part_spec service dest src server token number part
            working.good
          rw [← part_body_eq src token working.good.positive number first last] at hobject hgood
          simp only
          generalize uploadPart service server token.uploadId dest.algo number
            (partBody src (partCount src token) token number) part = sent at hobject hgood ⊢
          obtain ⟨after, response⟩ := sent
          simp only at hobject hgood
          have hrow := row_good_of_token src after token (partCount src token) hgood
          match response with
          | .error failure =>
              exact ⟨fun d hd => absurd hd (failed_request_not_ok failure d), Or.inl hobject, hrow⟩
          | .ok (none, _) => exact ⟨fun d hd => by simp at hd, Or.inl hobject, hrow⟩
          | .ok (some eTag, checksum) =>
              have hworking : Working src after token outstanding :=
                ⟨hgood, working.once, working.split⟩
              have hspec := ih (outstanding.erase number) _ after
                (working_record src after token outstanding number eTag checksum hworking member)
              exact ⟨hspec.ok, hobject ▸ hspec.object, hspec.row⟩

theorem run_attempt_spec (token : S3ResumeToken) (server : S3Server) (script : AttemptScript)
    (good : GoodToken src server token) :
    AttemptSpec src server
      (runMultipartAttempt service dest src key (partCount src token) token server script) :=
  upload_parts_spec service dest src key script.parts script.complete _ token server
    (missing_parts_working src server token good)

/-! ## One delivery -/

theorem good_created (partSize : Nat) (server : S3Server) (positive : 0 < partSize) :
    GoodToken src
      { server.setUpload server.nextId (some ⟨dest.algo, fun _ => none⟩) with
        nextId := server.nextId + 1 }
      { uploadId := server.nextId, key := key, partSize := partSize, totalSize := src.size,
        mtimeMs := src.mtimeMs, completed := [] } where
  positive := positive
  size := rfl
  mtime := rfl
  ascends := List.Pairwise.nil
  planned := fun n hn => by simp [numbers] at hn
  own := by
    intro upload found
    simp only [S3Server.setUpload, if_true, Option.some.injEq] at found
    subst found
    exact fun index _ bytes hbytes => by simp at hbytes

theorem s3_plan_parts (partSize count : Nat) (plan : dest.plan src = .parts partSize count) :
    0 < partSize ∧ count = src.size ⌈/⌉ partSize :=
  plan_parts s3Limits _ _ src.size partSize count src.fits plan

theorem good_of_reusable (versions : Source → Prop) (state : State) (sound : Sound versions state)
    (member : versions src) (partSize : Nat) (token : S3ResumeToken)
    (usable : reusable src key partSize state.2 = some token) :
    GoodToken src state.1 token ∧ token.partSize = partSize := by
  obtain ⟨hfrom, hmatch⟩ := Option.filter_eq_some_iff.mp usable
  simp only [Token.matchesSource, Bool.and_eq_true, decide_eq_true_eq] at hmatch
  obtain ⟨⟨⟨_, hpart⟩, hsize⟩, hmtime⟩ := hmatch
  exact ⟨sound token hfrom src member hsize hmtime, hpart⟩

theorem sound_of_row_good (versions : Source → Prop) (versioned : Versioned versions)
    (member : versions src) (server : S3Server) (row : Option ResumeState)
    (rowGood : RowGood src server row) : Sound versions (server, row) := by
  intro token htoken v hv hsize hmtime
  have good := rowGood token htoken
  have heq := versioned src v member hv (good.size ▸ hsize) (good.mtime ▸ hmtime)
  exact heq ▸ good

/-- What a delivery leaves: a sound row, and with an `Ok` the source, unless the service looked at
an object of the source's size that was there before. -/
structure DeliverSpec (versions : Source → Prop) (mistakes : Prop) (before : S3Server)
    (run : DeliverRun) : Prop where
  ok : ∀ d, run.result = .ok d → run.server.object = some src.bytes ∨
    (mistakes ∧ run.server.object = before.object ∧
      ∃ other, before.object = some other ∧ other.length = src.size)
  sound : Sound versions (run.server, run.row)

section Deliver

variable (versions : Source → Prop) (versioned : Versioned versions) (member : versions src)

include versioned member in
theorem put_fresh_spec (partSize : Nat) (row : Option ResumeState) (before server : S3Server)
    (create : CreateAnswer) (script : AttemptScript) (mistakes : Prop) (positive : 0 < partSize)
    (sound : Sound versions (server, row)) :
    DeliverSpec src versions mistakes before
      (putFresh service dest src key partSize (src.size ⌈/⌉ partSize) row server create script) := by
  cases create with
  | fails failure => exact ⟨fun d hd => by simp [putFresh, createMpu] at hd, sound⟩
  | noId => exact ⟨fun d hd => by simp [putFresh, createMpu] at hd, sound⟩
  | accept =>
      have hspec := run_attempt_spec service dest src key _ _ script
        (good_created dest src key partSize server positive)
      have hsound := sound_of_row_good src versions versioned member _ _ hspec.row
      simp only [putFresh, createMpu]
      change AttemptSpec src _ (runMultipartAttempt service dest src key (src.size ⌈/⌉ partSize) _ _
        script) at hspec
      split
      · rename_i d hresult
        exact ⟨fun d' _ => Or.inl (hspec.ok d hresult), hsound⟩
      · exact ⟨fun d hd => by simp at hd, hsound⟩
      · exact ⟨fun d hd => by simp at hd, hsound⟩
      · exact ⟨fun d hd => by simp at hd, hsound⟩

/-- What the recovery of a vanished upload finds: an object of the right size, if it says so. -/
theorem recover_completed_some (server : S3Server) (answer : HeadAnswer) (d : Delivered)
    (found : recoverCompletedObject dest src key server answer = .ok (some d)) :
    ∃ other, server.object = some other ∧ other.length = src.size := by
  unfold recoverCompletedObject at found
  split at found
  · split at found
    · rename_i bytes hobject hsize
      exact ⟨bytes, hobject, hsize⟩
    · simp at found
  · simp at found
  · split at found <;> simp at found

include versioned member in
theorem put_multipart_spec (state : State) (sound : Sound versions state)
    (partSize : Nat) (positive : 0 < partSize) (script : DeliverScript) :
    DeliverSpec src versions (reusable src key partSize state.2 ≠ none) state.1
      (putMultipart service dest src key partSize (src.size ⌈/⌉ partSize) state.2 state.1
        script) := by
  unfold putMultipart
  cases husable : reusable src key partSize state.2 with
  | none =>
      exact put_fresh_spec service dest src key versions versioned member partSize state.2 state.1
        state.1 script.create script.fresh _ positive sound
  | some token =>
      obtain ⟨good, rfl⟩ := good_of_reusable src key versions state sound member partSize token
        husable
      have hspec := run_attempt_spec service dest src key token state.1 script.resumed good
      have hsound := sound_of_row_good src versions versioned member _ _ hspec.row
      simp only
      change AttemptSpec src _ (runMultipartAttempt service dest src key
        (src.size ⌈/⌉ token.partSize) _ _ _) at hspec
      split
      · rename_i d hresult
        exact ⟨fun d' _ => Or.inl (hspec.ok d hresult), hsound⟩
      · exact ⟨fun d hd => by simp at hd, hsound⟩
      · exact ⟨fun d hd => by simp at hd, hsound⟩
      · split
        · exact ⟨fun d hd => by simp at hd, hsound⟩
        · rename_i d hrecover
          obtain ⟨other, hobject, hsize⟩ :=
            recover_completed_some dest src key _ script.head d hrecover
          refine ⟨fun _ _ => ?_, hsound⟩
          rcases hspec.object with hsame | hsource
          · exact Or.inr ⟨by simp, hsame, other, hsame ▸ hobject, hsize⟩
          · exact Or.inl hsource
        · exact put_fresh_spec service dest src key versions versioned member token.partSize none
            state.1 _ script.create script.fresh _ positive (fun other found => by simp at found)

include versioned member in
theorem deliver_spec (state : State) (sound : Sound versions state) (script : DeliverScript) :
    DeliverSpec src versions
      (∃ partSize count, dest.plan src = .parts partSize count ∧
        reusable src (ObjectPath.objectKey dest.keyPrefix relpath) partSize state.2 ≠ none)
      state.1 (deliver service dest src relpath state.2 state.1 script) := by
  unfold deliver
  cases plan : dest.plan src with
  | single =>
      have hsame : sourceChanged src.size src.mtimeMs src.size src.mtimeMs = false := by
        simp [sourceChanged]
      have hrow : ∀ object, Sound versions ({ state.1 with object := object }, state.2) :=
        fun object token htoken v hv hsize hmtime =>
          let good := sound token htoken v hv hsize hmtime
          ⟨good.positive, good.size, good.mtime, good.ascends, good.planned, good.own⟩
      simp only [putSingle, hsame]
      cases script.single with
      | accept echo => exact ⟨fun _ _ => Or.inl rfl, hrow _⟩
      | fails applied failure =>
          refine ⟨fun d hd => by simp at hd, ?_⟩
          cases applied
          · exact sound
          · exact hrow _
  | parts partSize count =>
      obtain ⟨positive, rfl⟩ := s3_plan_parts dest src partSize count plan
      have hspec := put_multipart_spec service dest src
        (ObjectPath.objectKey dest.keyPrefix relpath) versions versioned member state sound partSize
        positive script
      exact ⟨fun d hd => (hspec.ok d hd).imp id fun ⟨usable, rest⟩ =>
        ⟨⟨partSize, _, rfl, usable⟩, rest⟩, hspec.sound⟩

end Deliver

/-- Any history of one key before a delivery: deliveries of versions of the file with any settings
and any answers, requests of an ended attempt that arrive late, uploads and parts the service swept,
an object somebody else wrote, a cleared resume row. -/
inductive Reached (keyPrefix : String) (versions : Source → Prop) : State → Prop where
  | start (object : Option Bytes) :
      Reached keyPrefix versions
        ({ uploads := fun _ => none, nextId := 0, object := object }, none)
  | delivered (state : State) (src : Source) (multipart : MultipartParams) (algo : Algorithm)
      (script : DeliverScript) (member : versions src)
      (reached : Reached keyPrefix versions state) :
      Reached keyPrefix versions
        ((deliver service ⟨keyPrefix, multipart, algo⟩ src relpath state.2 state.1 script).server,
          (deliver service ⟨keyPrefix, multipart, algo⟩ src relpath state.2 state.1 script).row)
  | late (state : State) (token : S3ResumeToken) (upload : Upload) (src : Source) (number : Nat)
      (member : versions src) (row : state.2.bind Token.fromResume = some token)
      (size : token.totalSize = src.size) (mtime : token.mtimeMs = src.mtimeMs)
      (found : state.1.uploads token.uploadId = some upload)
      (reached : Reached keyPrefix versions state) :
      Reached keyPrefix versions
        (state.1.storePart token.uploadId upload number (partBytes src token.partSize number),
          state.2)
  | swept (state : State) (keepsUpload : UploadId → Bool) (keepsPart : UploadId → Nat → Bool)
      (reached : Reached keyPrefix versions state) :
      Reached keyPrefix versions
        ({ state.1 with
            uploads := fun id => if keepsUpload id then (state.1.uploads id).map fun upload =>
              { upload with parts := fun n => if keepsPart id n then upload.parts n else none }
              else none }, state.2)
  | replaced (state : State) (object : Option Bytes) (reached : Reached keyPrefix versions state) :
      Reached keyPrefix versions ({ state.1 with object := object }, state.2)
  | cleared (state : State) (reached : Reached keyPrefix versions state) :
      Reached keyPrefix versions (state.1, none)

theorem sound_of_reached (keyPrefix : String) (versions : Source → Prop)
    (versioned : Versioned versions) (state : State)
    (reached : Reached service relpath keyPrefix versions state) : Sound versions state := by
  induction reached with
  | start object => exact fun token htoken => by simp at htoken
  | delivered state src multipart algo script member _ ih =>
      exact (deliver_spec service ⟨keyPrefix, multipart, algo⟩ src relpath versions versioned member
        state ih script).sound
  | late state token upload src number member row size mtime found _ ih =>
      intro other hother v hv hsize hmtime
      rw [row, Option.some.injEq] at hother
      subst hother
      have hsrc := versioned src v member hv (size ▸ hsize) (mtime ▸ hmtime)
      subst hsrc
      have good := ih token row src hv hsize hmtime
      refine { good with own := fun after hafter => ?_ }
      simp only [S3Server.storePart, S3Server.setUpload, if_true, Option.some.injEq] at hafter
      exact hafter ▸ own_store_part src token.partSize number upload (good.own upload found)
  | swept state keepsUpload keepsPart _ ih =>
      intro token htoken v hv hsize hmtime
      have good := ih token htoken v hv hsize hmtime
      refine { good with own := fun after hafter => ?_ }
      simp only at hafter
      split at hafter
      · obtain ⟨upload, hupload, rfl⟩ := Option.map_eq_some_iff.mp hafter
        intro index below bytes found
        simp only at found
        split at found
        · exact good.own upload hupload index below bytes found
        · simp at found
      · simp at hafter
  | replaced state object _ ih =>
      intro token htoken v hv hsize hmtime
      have good := ih token htoken v hv hsize hmtime
      exact ⟨good.positive, good.size, good.mtime, good.ascends, good.planned, good.own⟩
  | cleared state _ _ => exact fun token htoken => by simp at htoken

/-- The object before the delivery is not mistaken for the source: no persisted upload is resumed,
or the object has another size or is the source. -/
def NotMistaken (state : State) : Prop :=
  (∀ partSize count, dest.plan src = .parts partSize count →
      reusable src (ObjectPath.objectKey dest.keyPrefix relpath) partSize state.2 = none) ∨
    ∀ other, state.1.object = some other → other.length = src.size → other = src.bytes

theorem sweep_is_gone (count : Nat) (token : S3ResumeToken) (server : S3Server) :
    ∃ after row, runMultipartAttempt service dest src key count token server ⟨[(0, .sweep)], .sweep⟩ =
      ⟨.gone, after, row⟩ ∧ after.object = server.object := by
  unfold runMultipartAttempt
  rw [uploadParts]
  split
  · exact ⟨_, _, rfl, rfl⟩
  · exact ⟨_, _, rfl, rfl⟩

/-- Whatever the service answers, an `Ok` means that the object is the source exactly if the object
before could not be mistaken for it. -/
theorem s3_ok_is_source_iff (versions : Source → Prop) (versioned : Versioned versions)
    (member : versions src) (state : State) (sound : Sound versions state) :
    (∀ script, (∃ d, (deliver service dest src relpath state.2 state.1 script).result = .ok d) →
      (deliver service dest src relpath state.2 state.1 script).server.object = some src.bytes) ↔
      NotMistaken dest src relpath state := by
  constructor
  · intro truth
    by_contra mistaken
    simp only [NotMistaken, not_or, not_forall] at mistaken
    obtain ⟨⟨partSize, count, plan, usable⟩, other, hobject, hsize, hother⟩ := mistaken
    obtain ⟨token, husable⟩ := Option.ne_none_iff_exists'.mp usable
    obtain ⟨after, row, hrun, hsame⟩ := sweep_is_gone service dest src
      (ObjectPath.objectKey dest.keyPrefix relpath) count token state.1
    have hwrong := truth ⟨.accept none, ⟨[(0, .sweep)], .sweep⟩, .seen none, .noId, ⟨[], .sweep⟩⟩
    simp only [deliver, plan, putMultipart, husable, hrun, recoverCompletedObject, hsame, hobject,
      hsize, if_true] at hwrong
    exact hother (Option.some.inj (hwrong ⟨_, rfl⟩))
  · rintro clear script ⟨d, hd⟩
    rcases (deliver_spec service dest src relpath versions versioned member state sound script).ok
      d hd with done | ⟨⟨partSize, count, plan, usable⟩, hsame, other, hobject, hsize⟩
    · exact done
    · rcases clear with unused | same
      · exact absurd (unused partSize count plan) usable
      · rw [hsame, hobject, same other hobject hsize]

end FileReplicator.S3Resume
