import FileReplicator.S3Resume

/-!
# Resuming an S3 upload on a healthy service

A healthy service does what it is asked. Whether repeated deliveries get the
source there depends on what it has kept of the upload a persisted token names.
-/

namespace FileReplicator.S3Healing

open Domain ByteRanges SourceFile PartPlanning S3Multipart S3Resume Healing

variable (service : S3Service) (dest : S3Dest) (src : Source) (key relpath : String)

/-- As many accepted part requests as an attempt can make, then an accepted completion. -/
def healthyAttempt (count : Nat) : AttemptScript where
  parts := List.replicate count (0, .accept true)
  complete := .accept none

def healthyScript (count : Nat) : DeliverScript where
  single := .accept none
  resumed := healthyAttempt count
  head := .seen none
  create := .accept
  fresh := healthyAttempt count

/-- The number of part requests the plan of this source can need. -/
def planCount : Nat :=
  match dest.plan src with
  | .single => 0
  | .parts _ count => count

def attempt (state : State) : DeliverResult × State :=
  let run := deliver service dest src relpath state.2 state.1 (healthyScript (planCount dest src))
  (run.result, run.server, run.row)

def Full (state : State) : Prop :=
  state.1.object = some src.bytes

def HasParts (upload : Upload) (completed : List S3CompletedPart) : Prop :=
  ∀ part ∈ completed, hasPart service upload dest.algo part = true

/-- What the service has kept of the upload suffices: nothing is missing and the parts listed are
there, or the rest can still be uploaded with the present checksum algorithm. -/
def Completes (upload : Upload) (count : Nat) (completed : List S3CompletedPart) : Prop :=
  (missingParts count completed = [] ∨ takesAlgo service upload dest.algo = true) ∧
    HasParts service dest upload completed

/-- Healthy deliveries get the source there: no persisted upload is resumed, or the service has
dropped it entirely and no other object of the same size is mistaken for the source, or it has kept
enough of it. -/
def Recoverable (state : State) : Prop :=
  match dest.plan src with
  | .single => True
  | .parts partSize count =>
      match reusable src (ObjectPath.objectKey dest.keyPrefix relpath) partSize state.2 with
      | none => True
      | some token =>
          match state.1.uploads token.uploadId with
          | none => ∀ other, state.1.object = some other → other.length = src.size →
              other = src.bytes
          | some upload => Completes service dest upload count token.completed

theorem in_flight_first (number : Nat) (rest : List Nat) :
    inFlight dest (number :: rest) 0 = some number := by
  have hmax : max dest.multipart.maxConcurrent 1 = (max dest.multipart.maxConcurrent 1 - 1) + 1 := by
    omega
  simp only [inFlight, Nat.zero_mod]
  rw [hmax, List.take_succ_cons, List.getElem?_cons_zero]

/-- Recording the part just stored neither helps nor hurts the parts listed before. -/
theorem has_parts_record (token : S3ResumeToken) (upload : Upload) (number : Nat) (body : Bytes)
    (takes : takesAlgo service upload dest.algo = true) (fresh : number ∉ numbers token) :
    HasParts service dest
        { upload with parts := fun n => if n = number then some body else upload.parts n }
        (recordPart token.completed ⟨number, service.eTagOf body,
          if service.validates then some (service.checksumOf dest.algo body) else none⟩) ↔
      HasParts service dest upload token.completed := by
  have hmem : ∀ part, part ∈ recordPart token.completed ⟨number, service.eTagOf body,
        if service.validates then some (service.checksumOf dest.algo body) else none⟩ ↔
      part ∈ token.completed ∨ part = ⟨number, service.eTagOf body,
        if service.validates then some (service.checksumOf dest.algo body) else none⟩ := by
    intro part
    unfold recordPart
    rw [List.mem_insertionSort, List.mem_append, List.mem_singleton]
  have hold : ∀ part ∈ token.completed,
      hasPart service { upload with
        parts := fun n => if n = number then some body else upload.parts n } dest.algo part =
        hasPart service upload dest.algo part := by
    intro part hpart
    have hne : part.partNumber ≠ number := by
      rintro rfl
      exact fresh (List.mem_map_of_mem hpart)
    simp only [hasPart, hne, if_false]
  have hnew : hasPart service { upload with
      parts := fun n => if n = number then some body else upload.parts n } dest.algo
        ⟨number, service.eTagOf body,
          if service.validates then some (service.checksumOf dest.algo body) else none⟩ = true := by
    unfold takesAlgo at takes
    cases hvalidates : service.validates with
    | false => simp [hasPart, hvalidates]
    | true =>
        simp only [hvalidates, Bool.not_true, Bool.false_or, decide_eq_true_eq] at takes
        simp [hasPart, hvalidates, takes]
  constructor
  · intro has part hpart
    rw [← hold part hpart]
    exact has part ((hmem part).mpr (Or.inl hpart))
  · intro has part hpart
    rcases (hmem part).mp hpart with hlisted | rfl
    · rw [hold part hlisted]
      exact has part hlisted
    · exact hnew

/-- With the upload there and its algorithm unchanged, the loop stores every missing part and comes
to the commit. -/
theorem upload_parts_healthy (count : Nat) (answer : CompleteAnswer) (outstanding : List Nat)
    (token : S3ResumeToken) (server : S3Server) (upload : Upload)
    (found : server.uploads token.uploadId = some upload)
    (working : Working src server token outstanding)
    (takes : outstanding = [] ∨ takesAlgo service upload dest.algo = true)
    (enough : outstanding.length ≤ count) :
    ∃ token' server' upload',
      uploadParts service dest src key (partCount src token) answer outstanding token server
          (List.replicate count (0, .accept true)) =
        finishAttempt service dest src key (partCount src token) token' server' answer ∧
      partCount src token' = partCount src token ∧
      server'.uploads token'.uploadId = some upload' ∧ server'.object = server.object ∧
      Working src server' token' [] ∧
      (HasParts service dest upload' token'.completed ↔
        HasParts service dest upload token.completed) := by
  induction count generalizing outstanding token server upload with
  | zero =>
      have hnil : outstanding = [] := List.length_eq_zero_iff.mp (by omega)
      subst hnil
      exact ⟨token, server, upload, by rw [List.replicate_zero, uploadParts, if_pos rfl], rfl, found,
        rfl, working, Iff.rfl⟩
  | succ count ih =>
      rw [List.replicate_succ, uploadParts]
      cases outstanding with
      | nil =>
          exact ⟨token, server, upload, by simp [inFlight], rfl, found, rfl, working, Iff.rfl⟩
      | cons number rest =>
          have htakes := takes.resolve_left (by simp)
          obtain ⟨first, last, fresh⟩ := (working.split number).mp List.mem_cons_self
          obtain ⟨_, hgood⟩ := upload_part_spec service dest src server token number
            (.accept true) working.good
          have hbody := part_body_eq src token working.good.positive number first last
          have hstored : uploadPart service server token.uploadId dest.algo number
              (partBytes src token.partSize number) (.accept true) =
              (server.storePart token.uploadId upload number (partBytes src token.partSize number),
                .ok (some (service.eTagOf (partBytes src token.partSize number)),
                  if service.validates then
                    some (service.checksumOf dest.algo (partBytes src token.partSize number))
                  else none)) := by
            simp only [uploadPart, found, htakes, if_true]
          rw [hstored] at hgood
          have hworking : Working src
              (server.storePart token.uploadId upload number (partBytes src token.partSize number))
              token (number :: rest) := ⟨hgood, working.once, working.split⟩
          have hrecorded := working_record src _ token _ number
            (service.eTagOf (partBytes src token.partSize number))
            (if service.validates then
              some (service.checksumOf dest.algo (partBytes src token.partSize number)) else none)
            hworking List.mem_cons_self
          rw [in_flight_first]
          simp only [hbody, hstored]
          obtain ⟨token', server', upload', hrun, hcount, hfound, hobject, hfinal, hhas⟩ :=
            ih _ _ _
              { upload with
                parts := fun n => if n = number then (some (partBytes src token.partSize number))
                  else upload.parts n }
              (by simp [S3Server.storePart, S3Server.setUpload]) hrecorded (Or.inr htakes)
              (by simp only [List.erase_cons_head]; simp only [List.length_cons] at enough; omega)
          refine ⟨token', server', upload', hrun, hcount, hfound, hobject, hfinal, hhas.trans ?_⟩
          exact has_parts_record service dest token upload number _ htakes fresh

/-! ## One healthy attempt -/

theorem finish_accepted (count : Nat) (token : S3ResumeToken) (server after : S3Server)
    (accepted : complete service server token.uploadId dest.algo token.completed = .ok after) :
    ∃ d row, finishAttempt service dest src key count token server (.accept none) =
      ⟨.ok d, after, row⟩ := by
  have hsame : sourceChanged src.size src.mtimeMs src.size src.mtimeMs = false := by
    simp [sourceChanged]
  refine ⟨{ bytes := src.size, checksum := .none, handle := buildHandle key none dest.algo true },
    tokenRow src count token, ?_⟩
  simp only [finishAttempt, completeUpload, accepted, hsame]
  rfl

theorem finish_refused (count : Nat) (token : S3ResumeToken) (server : S3Server)
    (failure : Failure)
    (refused : complete service server token.uploadId dest.algo token.completed = .error failure) :
    ∃ row, finishAttempt service dest src key count token server (.accept none) =
      ⟨failedRequest failure, server, row⟩ :=
  ⟨tokenRow src count token, by simp only [finishAttempt, completeUpload, refused]⟩

theorem complete_cases (server : S3Server) (token : S3ResumeToken) (upload : Upload)
    (found : server.uploads token.uploadId = some upload)
    (working : Working src server token []) :
    (HasParts service dest upload token.completed ∧
        ∃ after, complete service server token.uploadId dest.algo token.completed = .ok after) ∨
      (¬HasParts service dest upload token.completed ∧
        complete service server token.uploadId dest.algo token.completed = .error invalidPart) := by
  have hascending := (ascending_iff (numbers token)).mpr working.good.ascends
  unfold numbers at hascending
  simp only [complete, found, hascending, Bool.and_true]
  by_cases has : HasParts service dest upload token.completed
  · exact Or.inl ⟨has, _, if_pos (List.all_eq_true.mpr has)⟩
  · exact Or.inr ⟨has, if_neg fun all => has (List.all_eq_true.mp all)⟩

theorem missing_length (count : Nat) (completed : List S3CompletedPart) :
    (missingParts count completed).length ≤ count := by
  unfold missingParts
  exact (List.length_filter_le _ _).trans (by simp)

/-- A healthy attempt on an upload that is there: it delivers the source if enough was kept, and
fails for good otherwise. -/
theorem healthy_attempt_found (count : Nat) (token : S3ResumeToken) (server : S3Server)
    (upload : Upload) (good : GoodToken src server token)
    (found : server.uploads token.uploadId = some upload) (planned : count = partCount src token) :
    let run := runMultipartAttempt service dest src key count token server (healthyAttempt count)
    (Completes service dest upload count token.completed ∧
        (∃ d, run.result = .ok d) ∧ run.server.object = some src.bytes) ∨
      (¬Completes service dest upload count token.completed ∧
        ∃ e, run.result = .fatal e ∧ e.isTransient = false) := by
  subst planned
  have hspec := run_attempt_spec service dest src key token server
    (healthyAttempt (partCount src token)) good
  have hworking := missing_parts_working src server token good
  by_cases takes : missingParts (partCount src token) token.completed = [] ∨
      takesAlgo service upload dest.algo = true
  · obtain ⟨token', server', upload', hrun, _, hfound, _, hfinal, hhas⟩ :=
      upload_parts_healthy service dest src key (partCount src token) (.accept none) _ token server
        upload found hworking takes (missing_length _ _)
    change runMultipartAttempt service dest src key (partCount src token) token server
      (healthyAttempt (partCount src token)) = _ at hrun
    simp only
    rcases complete_cases service dest src server' token' upload' hfound hfinal with
      ⟨has, after, haccepted⟩ | ⟨hasnot, hrefused⟩
    · obtain ⟨d, row, hfinish⟩ :=
        finish_accepted service dest src key (partCount src token) token' server' after haccepted
      rw [hrun, hfinish] at hspec ⊢
      exact Or.inl ⟨⟨takes, hhas.mp has⟩, ⟨d, rfl⟩, hspec.ok d rfl⟩
    · obtain ⟨row, hfinish⟩ :=
        finish_refused service dest src key (partCount src token) token' server' _ hrefused
      rw [hrun, hfinish]
      exact Or.inr ⟨fun completes => hasnot (hhas.mpr completes.2), _, rfl, by decide⟩
  · refine Or.inr ⟨fun completes => takes completes.1, ?_⟩
    rw [not_or, Bool.not_eq_true] at takes
    obtain ⟨number, rest, hmissing⟩ := List.exists_cons_of_ne_nil takes.1
    have hlength := missing_length (partCount src token) token.completed
    rw [hmissing, List.length_cons] at hlength
    obtain ⟨n, hn⟩ : ∃ n, partCount src token = n + 1 := ⟨partCount src token - 1, by omega⟩
    have hscript : (healthyAttempt (partCount src token)).parts =
        (0, .accept true) :: List.replicate n (0, .accept true) := by
      rw [healthyAttempt, hn, List.replicate_succ]
    refine ⟨mapSdk invalidRequest, ?_, by decide⟩
    simp only [runMultipartAttempt, hscript, hmissing]
    rw [uploadParts, in_flight_first]
    simp only [uploadPart, found, takes.2]
    rfl

theorem healthy_attempt_gone (count : Nat) (token : S3ResumeToken) (server : S3Server)
    (gone : server.uploads token.uploadId = none) :
    ∃ row, runMultipartAttempt service dest src key count token server (healthyAttempt count) =
      ⟨.gone, server, row⟩ := by
  refine ⟨tokenRow src count token, ?_⟩
  have hfinish : finishAttempt service dest src key count token server (.accept none) =
      ⟨.gone, server, tokenRow src count token⟩ := by
    simp [finishAttempt, completeUpload, complete, gone, failedRequest, isNoSuchUpload,
      noSuchUpload]
  cases hmissing : missingParts count token.completed with
  | nil =>
      simp only [runMultipartAttempt, healthyAttempt, hmissing]
      cases count with
      | zero => rw [List.replicate_zero, uploadParts, if_pos rfl, hfinish]
      | succ n =>
          rw [List.replicate_succ, uploadParts]
          simpa [inFlight] using hfinish
  | cons number rest =>
      have hlength := missing_length count token.completed
      rw [hmissing, List.length_cons] at hlength
      obtain ⟨n, rfl⟩ : ∃ n, count = n + 1 := ⟨count - 1, by omega⟩
      simp only [runMultipartAttempt, healthyAttempt, hmissing, List.replicate_succ]
      rw [uploadParts, in_flight_first]
      simp [uploadPart, gone, failedRequest, isNoSuchUpload, noSuchUpload]

theorem healthy_fresh (partSize : Nat) (row : Option ResumeState) (server : S3Server)
    (positive : 0 < partSize) :
    let run := putFresh service dest src key partSize (src.size ⌈/⌉ partSize) row server .accept
      (healthyAttempt (src.size ⌈/⌉ partSize))
    (∃ d, run.result = .ok d) ∧ run.server.object = some src.bytes := by
  have hgood := good_created dest src key partSize server positive
  rcases healthy_attempt_found service dest src key (src.size ⌈/⌉ partSize) _ _
      ⟨dest.algo, fun _ => none⟩ hgood (by simp [S3Server.setUpload]) rfl with
    ⟨_, ⟨d, hd⟩, hobject⟩ | ⟨hnot, _⟩
  · simp only [putFresh, createMpu, hd]
    exact ⟨⟨d, rfl⟩, hobject⟩
  · refine absurd ⟨Or.inr ?_, fun part hpart => by simp at hpart⟩ hnot
    simp [takesAlgo]

theorem s3_heals_iff (versions : Source → Prop) (state : State) (sound : Sound versions state)
    (member : versions src) :
    Heals (attempt service dest src relpath) (Full src) state ↔
      Recoverable service dest src relpath state := by
  cases plan : dest.plan src with
  | single =>
      have hsame : sourceChanged src.size src.mtimeMs src.size src.mtimeMs = false := by
        simp [sourceChanged]
      have hattempt : attempt service dest src relpath state =
          (.ok { bytes := src.size, checksum := .none,
                 handle := buildHandle (ObjectPath.objectKey dest.keyPrefix relpath) none dest.algo
                   false }, { state.1 with object := some src.bytes }, state.2) := by
        simp [attempt, deliver, plan, healthyScript, putSingle, hsame]
      refine iff_of_true ?_ (by simp [Recoverable, plan])
      rw [heals_iff_of_ok _ _ _ _ (congrArg Prod.fst hattempt), hattempt]
      rfl
  | parts partSize count =>
      obtain ⟨positive, rfl⟩ := s3_plan_parts dest src partSize count plan
      simp only [Recoverable, plan]
      have hfresh := fun row server => healthy_fresh service dest src
        (ObjectPath.objectKey dest.keyPrefix relpath) partSize row server positive
      have hplan : planCount dest src = src.size ⌈/⌉ partSize := by simp [planCount, plan]
      have hattempt : attempt service dest src relpath state =
          let run := putMultipart service dest src (ObjectPath.objectKey dest.keyPrefix relpath)
            partSize (src.size ⌈/⌉ partSize) state.2 state.1
            (healthyScript (src.size ⌈/⌉ partSize))
          (run.result, run.server, run.row) := by
        simp only [attempt, deliver, plan, hplan]
      have hfull : ∀ server row, (∃ d, (putFresh service dest src (ObjectPath.objectKey
            dest.keyPrefix relpath) partSize (src.size ⌈/⌉ partSize) row server .accept
            (healthyAttempt (src.size ⌈/⌉ partSize))).result = .ok d) →
          putMultipart service dest src (ObjectPath.objectKey dest.keyPrefix relpath) partSize
              (src.size ⌈/⌉ partSize) state.2 state.1 (healthyScript (src.size ⌈/⌉ partSize)) =
            putFresh service dest src (ObjectPath.objectKey dest.keyPrefix relpath) partSize
              (src.size ⌈/⌉ partSize) row server .accept
              (healthyAttempt (src.size ⌈/⌉ partSize)) →
          Heals (attempt service dest src relpath) (Full src) state := by
        rintro server row ⟨d, hd⟩ hput
        rw [hput] at hattempt
        rw [heals_iff_of_ok _ _ _ d (by rw [hattempt]; exact hd), hattempt]
        exact (hfresh row server).2
      cases husable : reusable src (ObjectPath.objectKey dest.keyPrefix relpath) partSize state.2 with
      | none =>
          refine iff_of_true ?_ trivial
          exact hfull state.1 state.2 (hfresh _ _).1
            (by simp only [putMultipart, husable, healthyScript])
      | some token =>
          obtain ⟨good, rfl⟩ := good_of_reusable src _ versions state sound member partSize token
            husable
          simp only
          cases hupload : state.1.uploads token.uploadId with
          | none =>
              obtain ⟨row, hrun⟩ := healthy_attempt_gone service dest src
                (ObjectPath.objectKey dest.keyPrefix relpath) (src.size ⌈/⌉ token.partSize) token
                state.1 hupload
              simp only
              by_cases sized : ∃ other, state.1.object = some other ∧ other.length = src.size
              · obtain ⟨other, hobject, hsize⟩ := sized
                have hput : putMultipart service dest src
                    (ObjectPath.objectKey dest.keyPrefix relpath) token.partSize
                    (src.size ⌈/⌉ token.partSize) state.2 state.1
                    (healthyScript (src.size ⌈/⌉ token.partSize)) =
                    ⟨.ok { bytes := src.size, checksum := .none,
                           handle := buildHandle (ObjectPath.objectKey dest.keyPrefix relpath) none
                             dest.algo true }, state.1, row⟩ := by
                  simp only [putMultipart, husable, healthyScript, hrun, recoverCompletedObject,
                    hobject, hsize, if_true]
                rw [hput] at hattempt
                rw [heals_iff_of_ok _ _ _ _ (congrArg Prod.fst hattempt), hattempt]
                simp only [Full, hobject, Option.some.injEq]
                exact ⟨fun same x hx _ => hx ▸ same, fun same => same other rfl hsize⟩
              · refine iff_of_true ?_ (fun other hobject hsize =>
                  absurd ⟨other, hobject, hsize⟩ sized)
                have hrecover : recoverCompletedObject dest src
                    (ObjectPath.objectKey dest.keyPrefix relpath) state.1 (.seen none) =
                      .ok none := by
                  cases hobject : state.1.object with
                  | none => simp only [recoverCompletedObject, hobject]
                  | some other =>
                      have hne : other.length ≠ src.size := fun eq => sized ⟨other, hobject, eq⟩
                      simp only [recoverCompletedObject, hobject, hne, if_false]
                exact hfull state.1 none (hfresh _ _).1
                  (by simp only [putMultipart, husable, healthyScript, hrun, hrecover])
          | some upload =>
              simp only
              rcases healthy_attempt_found service dest src
                  (ObjectPath.objectKey dest.keyPrefix relpath) (src.size ⌈/⌉ token.partSize) token
                  state.1 upload good hupload rfl with
                ⟨completes, ⟨d, hd⟩, hobject⟩ | ⟨hnot, e, he, final⟩
              · refine iff_of_true ?_ completes
                simp only [putMultipart, husable, healthyScript, hd] at hattempt
                rw [heals_iff_of_ok _ _ _ _ (congrArg Prod.fst hattempt), hattempt]
                exact hobject
              · refine iff_of_false ?_ hnot
                simp only [putMultipart, husable, healthyScript, he] at hattempt
                rw [heals_iff_of_err _ _ _ _ (congrArg Prod.fst hattempt)]
                exact fun heals => by simp [final] at heals

end FileReplicator.S3Healing
