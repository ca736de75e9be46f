import FileReplicator.GcsTruth
import FileReplicator.Healing

/-!
# Resuming a GCS upload on a healthy server

A healthy server answers every chunk by keeping all it can use. What a delivery
makes of a persisted token then depends on how much of the session is left.
-/

namespace FileReplicator.GcsResume

open Domain ByteRanges SourceFile ChunkBounds GcsSession GcsTruth Healing

variable (digest : Algorithm → Bytes → Checksum) (dest : GcsDest) (src : Source)
variable (relpath object : String) (uri : UploadId)

abbrev State := GcsServer × Option ResumeState

/-- A server that accepts everything, for as many chunks as a file can have. -/
def healthyScript : DeliverScript where
  media := some 200
  init := .accept
  puts := List.replicate src.size .finish
  reinit := .accept
  reputs := List.replicate src.size .finish

def attempt (state : State) : DeliverResult × State :=
  let run := deliver digest dest src relpath state.2 state.1 (healthyScript src)
  (run.result, run.server, run.row)

def Full (state : State) : Prop :=
  state.1.object = some src.bytes

theorem finish_answered (count committed : Nat) (inRange : InRange dest.chunkBytes committed)
    (enough : src.size ≤ committed + count) :
    ¬Unanswered dest src committed (List.replicate count .finish) := by
  induction count generalizing committed with
  | zero =>
      simp only [List.replicate_zero, Unanswered]
      omega
  | succ count ih =>
      rintro ⟨left, wraps | failed | later⟩
      · exact wraps inRange
      · exact absurd failed (by decide)
      · have inside := lt_next_offset dest.chunkBytes src committed left
        by_cases more : nextOffset dest.chunkBytes src committed < src.size
        · exact ih _ (in_range_next dest.chunkBytes src committed more) (by omega) later
        · cases count with
          | zero =>
              simp only [List.replicate_zero, Unanswered] at later
              exact more later
          | succ count => exact more later.1

theorem finish_completes (count held committed : Nat) (left : committed < src.size)
    (reached : committed ≤ held) (within : held ≤ src.size)
    (enough : src.size ≤ committed + count) :
    ServerCompletes dest src held committed (List.replicate count .finish) := by
  induction count generalizing held committed with
  | zero => omega
  | succ count ih =>
      have inside := lt_next_offset dest.chunkBytes src committed left
      have hnext := next_offset_le dest.chunkBytes src committed
      refine ⟨left, reached, ?_⟩
      by_cases whole : max held (nextOffset dest.chunkBytes src committed) = src.size
      · exact Or.inl whole
      · exact Or.inr (ih _ _ (by omega) (by omega) (by omega) (by omega))

/-! ## The object of a session -/

/-- Once the session is final, the object is what it finalized. -/
def Tracks (server : GcsServer) : Prop :=
  server.finalized uri ≠ none → server.object = server.finalized uri

theorem tracks_settle (server : GcsServer) (before after : Session)
    (found : server.sessions uri = some before) (tracks : Tracks uri server)
    (keeps : before.finalized ≠ none → after = before) :
    Tracks uri (server.settle uri before after) := by
  intro final
  have hfinal : (server.settle uri before after).finalized uri = after.finalized := by
    simp [GcsServer.finalized]
  rw [hfinal] at final ⊢
  by_cases fresh : before.finalized = none
  · simp [GcsServer.settle, fresh, final]
  · have hobject := tracks (by simpa [GcsServer.finalized, found] using fresh)
    rw [keeps fresh]
    simp only [GcsServer.settle, fresh, false_and, if_false]
    rw [hobject]
    simp [GcsServer.finalized, found]

theorem commit_final (session : Session) (start keep : Nat) (body : Bytes)
    (final : session.finalized ≠ none) : (session.commit start keep body).1 = session := by
  obtain ⟨bytes, hbytes⟩ := Option.ne_none_iff_exists'.mp final
  simp [Session.commit, hbytes]

theorem finish_final (session : Session) (start total : Nat) (body : Bytes)
    (final : session.finalized ≠ none) : (session.finish start total body).1 = session := by
  obtain ⟨bytes, hbytes⟩ := Option.ne_none_iff_exists'.mp final
  simp [Session.finish, hbytes]

theorem tracks_put (server : GcsServer) (start total : Nat) (body : Bytes) (answer : PutAnswer)
    (tracks : Tracks uri server) : Tracks uri (server.put uri start total body answer).1 := by
  cases hsession : server.sessions uri with
  | none =>
      cases answer with
      | expire => intro final; simp [GcsServer.put, GcsServer.finalized] at final
      | _ => simpa [GcsServer.put, hsession] using tracks
  | some session =>
      cases answer with
      | refuse code => simpa [GcsServer.put] using tracks
      | expire => intro final; simp [GcsServer.put, GcsServer.finalized] at final
      | commit keep =>
          simpa [GcsServer.put, hsession] using tracks_settle uri server session _ hsession tracks
            (commit_final session start keep body)
      | finish =>
          simpa [GcsServer.put, hsession] using tracks_settle uri server session _ hsession tracks
            (finish_final session start total body)
      | lost finishes keep =>
          cases finishes
          · simpa [GcsServer.put, hsession] using tracks_settle uri server session _ hsession tracks
              (commit_final session start keep body)
          · simpa [GcsServer.put, hsession] using tracks_settle uri server session _ hsession tracks
              (finish_final session start total body)

theorem tracks_send_chunks (script : List PutAnswer) (committed : Nat) (hashed : Bytes)
    (server : GcsServer) (tracks : Tracks uri server) :
    Tracks uri
      (sendChunks digest dest src relpath object uri committed hashed server script).server := by
  induction script generalizing committed hashed server with
  | nil =>
      rw [sendChunks]
      split <;> exact tracks
  | cons answer rest ih =>
      rw [sendChunks]
      split
      · rename_i left
        obtain ⟨_, e, hnext⟩ | ⟨_, hnext⟩ :=
          send_next_cases dest src relpath uri committed server answer left
        · simpa only [hnext] using tracks
        · have hput := tracks_put uri server committed src.size
            (nextChunk dest.chunkBytes src committed) answer tracks
          rw [hnext]
          obtain ⟨_, hafter⟩ | ⟨_, result, _, hafter⟩ :=
            after_put_cases (nextOffset dest.chunkBytes src committed) (nextChunk dest.chunkBytes src committed)
              (server.put uri committed src.size (nextChunk dest.chunkBytes src committed) answer)
          · simp only [hafter]
            exact ih _ _ _ hput
          · simp only [hafter]
            exact hput
      · exact tracks

theorem put_object (server : GcsServer) (start total : Nat) (body : Bytes) (answer : PutAnswer)
    (session : Session) (found : server.sessions uri = some session)
    (success : isSuccess answer = true)
    (same : session.finalized ≠ none ∨
      (server.put uri start total body answer).1.finalized uri = none) :
    (server.put uri start total body answer).1.object = server.object := by
  cases answer with
  | commit keep =>
      simp only [GcsServer.put, found, GcsServer.finalized, sessions_settle] at same ⊢
      rcases same with final | unsettled
      · simp [GcsServer.settle, final]
      · simp only [Option.bind_some] at unsettled
        simp [GcsServer.settle, unsettled]
  | finish =>
      simp only [GcsServer.put, found, GcsServer.finalized, sessions_settle] at same ⊢
      rcases same with final | unsettled
      · simp [GcsServer.settle, final]
      · simp only [Option.bind_some] at unsettled
        simp [GcsServer.settle, unsettled]
  | lost _ _ => exact absurd success (by simp [isSuccess])
  | refuse _ => exact absurd success (by simp [isSuccess])
  | expire => exact absurd success (by simp [isSuccess])

theorem send_chunks_object (script : List PutAnswer) (committed : Nat) (hashed : Bytes)
    (server : GcsServer) (session : Session) (found : server.sessions uri = some session)
    (answered : ¬Unanswered dest src committed script)
    (same : session.finalized ≠ none ∨
      (sendChunks digest dest src relpath object uri committed hashed server script).server.finalized
        uri = none) :
    (sendChunks digest dest src relpath object uri committed hashed server script).server.object =
      server.object := by
  induction script generalizing committed hashed server session with
  | nil =>
      rw [sendChunks]
      split <;> rfl
  | cons answer rest ih =>
      by_cases left : committed < src.size
      · simp only [Unanswered, left, true_and, not_or, not_not, Bool.not_eq_false] at answered
        obtain ⟨small, success, hrest⟩ := answered
        rw [send_chunks_succeeds digest dest src relpath object uri committed hashed server answer
          rest left small success (by simp [found])] at same ⊢
        obtain ⟨after, hafter, hkeep⟩ := put_keeps_session uri server committed src.size
          (nextChunk dest.chunkBytes src committed) answer session found success
        obtain ⟨last, _, _, hlast, hsame⟩ := ok_of_answered digest dest src relpath object uri rest
          (nextOffset dest.chunkBytes src committed) (hashed ++ nextChunk dest.chunkBytes src committed) _ after hafter
          hrest
        have hfirst : session.finalized ≠ none ∨ after.finalized = none := by
          refine same.imp id fun unsettled => ?_
          by_contra final
          simp only [GcsServer.finalized, hlast, Option.bind_some] at unsettled
          exact final (hsame final ▸ unsettled)
        have hput := put_object uri server committed src.size (nextChunk dest.chunkBytes src committed) answer
          session found success (by simpa [GcsServer.finalized, hafter] using hfirst)
        rw [← hput]
        refine ih _ _ _ after hafter hrest (same.imp (fun final => ?_) id)
        rw [hkeep final]
        exact final
      · rw [sendChunks, if_neg left]
        rfl

theorem healthy_run_whole (committed : Nat) (server : GcsServer) (session : Session)
    (found : server.sessions uri = some session) (honest : HonestServer src uri server)
    (unsettled : session.finalized = none) (left : committed < src.size)
    (reached : committed ≤ session.held.length) (inRange : InRange dest.chunkBytes committed) :
    ∃ d, (runSession digest dest src relpath object uri committed server
        (List.replicate src.size .finish)).result = .ok d ∧
      (runSession digest dest src relpath object uri committed server
        (List.replicate src.size .finish)).server.object = some src.bytes := by
  have answered := finish_answered dest src src.size committed inRange (by omega)
  have completes := finish_completes dest src src.size session.held.length committed left reached
    (honest session found).1.length_le (by omega)
  obtain ⟨after, d, hd, hafter, _⟩ := ok_of_answered digest dest src relpath object uri _ committed
    (src.bytes.take committed) server session found answered
  have final := (final_iff_completes digest dest src relpath object uri _ committed
    (src.bytes.take committed) server session found honest unsettled answered).mpr completes
  have tracks := tracks_send_chunks digest dest src relpath object uri
    (List.replicate src.size .finish) committed (src.bytes.take committed) server
    (fun done => absurd (by simp [GcsServer.finalized, found, unsettled]) done)
  have honestAfter := honest_send_chunks digest dest src relpath object uri
    (List.replicate src.size .finish) committed (src.bytes.take committed) server honest
  refine ⟨d, hd, ?_⟩
  rw [runSession, tracks final]
  simp only [GcsServer.finalized, hafter, Option.bind_some] at final ⊢
  obtain ⟨bytes, hbytes⟩ := Option.ne_none_iff_exists'.mp final
  rw [hbytes, (honestAfter after hafter).2 bytes hbytes]

/-- A run that starts past what the server holds, or on a final session, is `Ok` and changes no
object. -/
theorem healthy_run_idle (committed : Nat) (server : GcsServer) (session : Session)
    (found : server.sessions uri = some session) (honest : HonestServer src uri server)
    (inRange : InRange dest.chunkBytes committed)
    (idle : session.finalized ≠ none ∨ session.held.length < committed) :
    ∃ d, (runSession digest dest src relpath object uri committed server
        (List.replicate src.size .finish)).result = .ok d ∧
      (runSession digest dest src relpath object uri committed server
        (List.replicate src.size .finish)).server.object = server.object := by
  have answered := finish_answered dest src src.size committed inRange (by omega)
  obtain ⟨after, d, hd, _, _⟩ := ok_of_answered digest dest src relpath object uri _ committed
    (src.bytes.take committed) server session found answered
  refine ⟨d, hd, send_chunks_object digest dest src relpath object uri _ committed _ server session
    found answered ?_⟩
  by_cases final : session.finalized = none
  · have gap := idle.resolve_left (not_not.mpr final)
    refine Or.inr (by_contra fun done => ?_)
    exact not_completes_of_gap dest src _ _ _ gap
      ((final_iff_completes digest dest src relpath object uri _ committed
        (src.bytes.take committed) server session found honest final answered).mp done)
  · exact Or.inl final

theorem run_done (committed : Nat) (server : GcsServer) (script : List PutAnswer)
    (done : ¬committed < src.size) :
    runSession digest dest src relpath object uri committed server script =
      sessionDone digest dest src object (src.bytes.take committed) server := by
  cases script <;> rw [runSession, sendChunks, if_neg done]

theorem run_lost (committed : Nat) (server : GcsServer)
    (lost : server.sessions uri = none) (left : committed < src.size)
    (inRange : InRange dest.chunkBytes committed) :
    ∃ row, runSession digest dest src relpath object uri committed server
      (List.replicate src.size .finish) = ⟨.gone, server, row⟩ := by
  obtain ⟨count, hcount⟩ : ∃ count, src.size = count + 1 := ⟨src.size - 1, by omega⟩
  refine ⟨some (checkpoint dest src object uri committed), ?_⟩
  obtain ⟨wraps, _⟩ | ⟨_, hnext⟩ :=
    send_next_cases dest src relpath uri committed server .finish left
  · exact absurd inRange wraps
  · rw [runSession]
    simp only [hcount, List.replicate_succ]
    rw [sendChunks, if_pos left, hnext]
    simp [GcsServer.put, lost, afterPut, sendChunk]

theorem run_out_of_range (committed : Nat) (server : GcsServer) (left : committed < src.size)
    (wraps : ¬InRange dest.chunkBytes committed) :
    ∃ text, runSession digest dest src relpath object uri committed server
      (List.replicate src.size .finish) =
        ⟨.fatal (.transient text), server, some (checkpoint dest src object uri committed)⟩ := by
  obtain ⟨count, hcount⟩ : ∃ count, src.size = count + 1 := ⟨src.size - 1, by omega⟩
  obtain ⟨small, _⟩ | ⟨_, text, hread⟩ := read_chunk dest.chunkBytes dest.chunkFits src relpath committed left
  · exact absurd small wraps
  · refine ⟨text, ?_⟩
    rw [runSession]
    simp only [hcount, List.replicate_succ]
    rw [sendChunks, if_pos left]
    simp only [chunkBounds] at hread
    simp only [sendNext, chunkBounds, hread]

theorem run_fresh_full (server : GcsServer) (row : Option ResumeState) (nonempty : 0 < src.size) :
    ∃ d, (runFresh digest dest src relpath row server .accept
        (List.replicate src.size .finish)).result = .ok d ∧
      (runFresh digest dest src relpath row server .accept
        (List.replicate src.size .finish)).server.object = some src.bytes := by
  have hopen : ∀ opened : GcsServer, opened.sessions server.nextUri = some ⟨[], none⟩ →
      HonestServer src server.nextUri opened := by
    intro opened hopened session found
    rw [hopened, Option.some.injEq] at found
    subst found
    exact ⟨List.nil_prefix, fun bytes final => by simp at final⟩
  have hfound : ({ server.setSession server.nextUri (some ⟨[], none⟩) with
      nextUri := server.nextUri + 1 } : GcsServer).sessions server.nextUri = some ⟨[], none⟩ := by
    simp [GcsServer.setSession]
  obtain ⟨d, hd, hobject⟩ := healthy_run_whole digest dest src relpath
    (ObjectPath.objectKey dest.keyPrefix relpath) server.nextUri 0 _ _ hfound (hopen _ hfound) rfl
    nonempty (Nat.zero_le _) (in_range_zero dest.chunkBytes dest.chunkFits)
  refine ⟨d, ?_, ?_⟩
  · simp only [runFresh, initSession, settleFresh, hd]
  · simp only [runFresh, initSession, settleFresh, hd]
    exact hobject

/-! ## What a delivery makes of a token -/

/-- The states from which healthy attempts get the source delivered: no usable token, or one whose
session is gone altogether or still holds what the token counts. (An object that already is the
source stays so.) -/
def Recoverable (state : State) : Prop :=
  src.size = 0 ∨
    match reusable dest src relpath state.2 with
    | none => True
    | some token =>
        let committed := min token.bytesCommitted src.size
        (committed < src.size → InRange dest.chunkBytes committed) ∧
          (state.1.object = some src.bytes ∨
            (committed < src.size ∧
              match state.1.sessions token.sessionUri with
              | none => True
              | some session =>
                  session.finalized = none ∧ committed ≤ session.held.length))

/-- The session a usable token names was fed from this source. -/
def HonestToken (state : State) : Prop :=
  ∀ token, reusable dest src relpath state.2 = some token →
    HonestServer src token.sessionUri state.1

theorem deliver_of_reusable (server : GcsServer) (row : Option ResumeState) (token : GcsResumeToken)
    (nonempty : ¬src.size = 0) (usable : reusable dest src relpath row = some token) :
    deliver digest dest src relpath row server (healthyScript src) =
      let run := runSession digest dest src relpath (ObjectPath.objectKey dest.keyPrefix relpath)
        token.sessionUri (min token.bytesCommitted src.size) server
        (List.replicate src.size .finish)
      match run.result with
      | .ok d => ⟨.ok d, run.server, run.row⟩
      | .fatal e => ⟨.err e, run.server, run.row⟩
      | .interrupted => ⟨.interrupted, run.server, run.row⟩
      | .gone => runFresh digest dest src relpath none run.server .accept
          (List.replicate src.size .finish) := by
  rw [deliver, if_neg nonempty, usable]
  rfl

theorem reusable_checkpoint (committed : Nat) :
    reusable dest src relpath
      (some (checkpoint dest src (ObjectPath.objectKey dest.keyPrefix relpath) uri committed)) =
      some
        { bucket := dest.bucket, object := ObjectPath.objectKey dest.keyPrefix relpath,
          sessionUri := uri, size := src.size, mtimeMs := src.mtimeMs,
          bytesCommitted := committed } := by
  simp [reusable, checkpoint, Token.toResume, Token.fromResume, Token.matchesSource,
    Option.filter]

/-- A token whose next chunk passes the end of the address space stays stuck. -/
def Stuck (state : State) : Prop :=
  ¬src.size = 0 ∧ ∃ token, reusable dest src relpath state.2 = some token ∧
    min token.bytesCommitted src.size < src.size ∧
    ¬InRange dest.chunkBytes (min token.bytesCommitted src.size)

theorem stuck_attempt (state : State) (stuck : Stuck dest src relpath state) :
    (∃ e, (attempt digest dest src relpath state).1 = .err e) ∧
      Stuck dest src relpath (attempt digest dest src relpath state).2 := by
  obtain ⟨nonempty, token, usable, left, wraps⟩ := stuck
  obtain ⟨text, hrun⟩ := run_out_of_range digest dest src relpath
    (ObjectPath.objectKey dest.keyPrefix relpath) token.sessionUri
    (min token.bytesCommitted src.size) state.1 left wraps
  have hdeliver := deliver_of_reusable digest dest src relpath state.1 state.2 token nonempty usable
  rw [hrun] at hdeliver
  refine ⟨⟨.transient text, by simp only [attempt, hdeliver]⟩, nonempty, ?_⟩
  simp only [attempt, hdeliver]
  refine ⟨_, reusable_checkpoint dest src relpath token.sessionUri _, ?_⟩
  simp only [Nat.min_eq_left (Nat.le_of_lt left)]
  exact ⟨left, wraps⟩

theorem gcs_heals_iff (state : State)
    (honest : HonestToken dest src relpath state) :
    Heals (attempt digest dest src relpath) (Full src) state ↔
      Recoverable dest src relpath state := by
  by_cases empty : src.size = 0
  · refine iff_of_true ?_ (Or.inl empty)
    have hnil : src.bytes = [] := List.length_eq_zero_iff.mp empty
    rw [heals_iff_of_ok (attempt digest dest src relpath) (Full src) state _
      (by simp [attempt, deliver, empty, healthyScript]; rfl)]
    simp [Full, attempt, deliver, empty, healthyScript, hnil]
  cases husable : reusable dest src relpath state.2 with
  | none =>
      refine iff_of_true ?_ (Or.inr (by simp [husable]))
      obtain ⟨d, hd, hobject⟩ := run_fresh_full digest dest src relpath state.1 state.2 (by omega)
      have hdeliver : deliver digest dest src relpath state.2 state.1 (healthyScript src) =
          runFresh digest dest src relpath state.2 state.1 .accept
            (List.replicate src.size .finish) := by
        simp only [deliver, empty, if_false, husable, healthyScript]
      rw [heals_iff_of_ok _ _ _ d (by simp only [attempt, hdeliver, hd])]
      simpa only [Full, attempt, hdeliver] using hobject
  | some token =>
      have hhonest := honest token husable
      have hdeliver := deliver_of_reusable digest dest src relpath state.1 state.2 token empty husable
      simp only [Recoverable, empty, false_or, husable]
      by_cases left : min token.bytesCommitted src.size < src.size
      · by_cases inRange : InRange dest.chunkBytes (min token.bytesCommitted src.size)
        · simp only [left, inRange, forall_const, true_and]
          cases hsession : state.1.sessions token.sessionUri with
          | none =>
              refine iff_of_true ?_ (Or.inr trivial)
              obtain ⟨row, hrun⟩ := run_lost digest dest src relpath
                (ObjectPath.objectKey dest.keyPrefix relpath) token.sessionUri _ state.1 hsession
                left inRange
              rw [hrun] at hdeliver
              obtain ⟨d, hd, hobject⟩ :=
                run_fresh_full digest dest src relpath state.1 none (by omega)
              rw [heals_iff_of_ok _ _ _ d (by simp only [attempt, hdeliver, hd])]
              simpa only [Full, attempt, hdeliver] using hobject
          | some session =>
              by_cases idle : session.finalized ≠ none ∨
                  session.held.length < min token.bytesCommitted src.size
              · obtain ⟨d, hd, hobject⟩ := healthy_run_idle digest dest src relpath
                  (ObjectPath.objectKey dest.keyPrefix relpath) token.sessionUri _ state.1 session
                  hsession hhonest inRange idle
                rw [heals_iff_of_ok _ _ _ d (by simp only [attempt, hdeliver, hd])]
                simp only [Full, attempt, hdeliver, hd, hobject]
                refine ⟨Or.inl, fun ok => ok.resolve_right ?_⟩
                rintro ⟨unsettled, reached⟩
                rcases idle with final | gap
                · exact final unsettled
                · omega
              · simp only [not_or, not_not, not_lt] at idle
                refine iff_of_true ?_ (Or.inr idle)
                obtain ⟨d, hd, hobject⟩ := healthy_run_whole digest dest src relpath
                  (ObjectPath.objectKey dest.keyPrefix relpath) token.sessionUri _ state.1 session
                  hsession hhonest idle.1 left idle.2 inRange
                rw [heals_iff_of_ok _ _ _ d (by simp only [attempt, hdeliver, hd])]
                simp only [Full, attempt, hdeliver, hd, hobject]
        · refine iff_of_false ?_ (fun ok => inRange (ok.1 left))
          exact not_heals_of_stuck _ _ _ (stuck_attempt digest dest src relpath) state
            ⟨empty, token, husable, left, inRange⟩
      · have hrun := run_done digest dest src relpath
          (ObjectPath.objectKey dest.keyPrefix relpath) token.sessionUri _ state.1
          (List.replicate src.size .finish) left
        rw [hrun] at hdeliver
        rw [heals_iff_of_ok (attempt digest dest src relpath) (Full src) state _
          (by simp only [attempt, hdeliver, sessionDone]; rfl)]
        simp [left, Full, attempt, hdeliver, sessionDone]

/-! ## Histories -/

/-- A persisted token names a session that was fed from the version of the file it records. -/
def Sound (versions : Source → Prop) (state : State) : Prop :=
  ∀ token, state.2.bind Token.fromResume = some token →
    ∀ src, versions src → token.size = src.size → token.mtimeMs = src.mtimeMs →
      HonestServer src token.sessionUri state.1

/-- Any history of one object before a delivery: deliveries of versions of the file with any
settings and any answers, sessions the server dropped or cut short, an object somebody else wrote, a
cleared resume row. -/
inductive Reached (bucket keyPrefix : String) (versions : Source → Prop) : State → Prop where
  | start (object : Option Bytes) :
      Reached bucket keyPrefix versions
        ({ sessions := fun _ => none, nextUri := 0, object := object }, none)
  | delivered (state : State) (src : Source) (dest : GcsDest) (script : DeliverScript)
      (bucketSame : dest.bucket = bucket) (prefixSame : dest.keyPrefix = keyPrefix)
      (member : versions src) (reached : Reached bucket keyPrefix versions state) :
      Reached bucket keyPrefix versions
        ((deliver digest dest src relpath state.2 state.1 script).server,
          (deliver digest dest src relpath state.2 state.1 script).row)
  /-- A resumed run dies after its last checkpoint, before it clears the row. -/
  | uncleared (state : State) (src : Source) (dest : GcsDest) (token : GcsResumeToken)
      (script : List PutAnswer) (bucketSame : dest.bucket = bucket)
      (prefixSame : dest.keyPrefix = keyPrefix) (member : versions src)
      (usable : reusable dest src relpath state.2 = some token)
      (reached : Reached bucket keyPrefix versions state) :
      Reached bucket keyPrefix versions
        ((runSession digest dest src relpath (ObjectPath.objectKey dest.keyPrefix relpath)
            token.sessionUri (min token.bytesCommitted src.size) state.1 script).server,
          some (checkpoint dest src (ObjectPath.objectKey dest.keyPrefix relpath) token.sessionUri
            src.size))
  | dropped (state : State) (uri : UploadId) (reached : Reached bucket keyPrefix versions state) :
      Reached bucket keyPrefix versions (state.1.setSession uri none, state.2)
  | forgot (state : State) (uri : UploadId) (session : Session) (keep : Nat)
      (found : state.1.sessions uri = some session)
      (reached : Reached bucket keyPrefix versions state) :
      Reached bucket keyPrefix versions
        (state.1.setSession uri (some { session with held := session.held.take keep }), state.2)
  | replaced (state : State) (object : Option Bytes)
      (reached : Reached bucket keyPrefix versions state) :
      Reached bucket keyPrefix versions ({ state.1 with object := object }, state.2)
  | cleared (state : State) (reached : Reached bucket keyPrefix versions state) :
      Reached bucket keyPrefix versions (state.1, none)

/-- What a session run leaves in the resume row: nothing, or the token of that session. -/
def RowOf (row : Option ResumeState) : Prop :=
  row = none ∨ ∃ committed, row = some (checkpoint dest src object uri committed)

theorem send_chunks_row (script : List PutAnswer) (committed : Nat) (hashed : Bytes)
    (server : GcsServer) :
    RowOf dest src object uri
      (sendChunks digest dest src relpath object uri committed hashed server script).row := by
  induction script generalizing committed hashed server with
  | nil =>
      rw [sendChunks]
      split
      · exact Or.inr ⟨committed, rfl⟩
      · exact Or.inl rfl
  | cons answer rest ih =>
      rw [sendChunks]
      split
      · split
        · exact Or.inr ⟨committed, rfl⟩
        · exact ih _ _ _
      · exact Or.inl rfl

theorem sound_of_row (versions : Source → Prop) (versioned : Versioned versions)
    (member : versions src) (server : GcsServer) (row : Option ResumeState)
    (rowOf : RowOf dest src object uri row) (honest : HonestServer src uri server) :
    Sound versions (server, row) := by
  intro token htoken v hv hsize hmtime
  rcases rowOf with rfl | ⟨committed, rfl⟩
  · simp at htoken
  · simp only [checkpoint, Token.toResume, Option.bind_some, Token.fromResume,
      Option.some.injEq] at htoken
    subst htoken
    rw [← versioned src v member hv hsize hmtime]
    exact honest

theorem sound_run_session (versions : Source → Prop) (versioned : Versioned versions)
    (member : versions src) (committed : Nat) (server : GcsServer) (script : List PutAnswer)
    (honest : HonestServer src uri server) :
    Sound versions
      ((runSession digest dest src relpath object uri committed server script).server,
        (runSession digest dest src relpath object uri committed server script).row) :=
  sound_of_row dest src object uri versions versioned member _ _
    (send_chunks_row digest dest src relpath object uri script committed _ server)
    (honest_send_chunks digest dest src relpath object uri script committed _ server honest)

theorem sound_run_fresh (versions : Source → Prop) (versioned : Versioned versions)
    (member : versions src) (row : Option ResumeState) (server : GcsServer) (init : InitAnswer)
    (puts : List PutAnswer) (sound : Sound versions (server, row)) :
    Sound versions
      ((runFresh digest dest src relpath row server init puts).server,
        (runFresh digest dest src relpath row server init puts).row) := by
  have hsettled : ∀ run : SessionRun, (settleFresh run).server = run.server ∧
      (settleFresh run).row = run.row := by
    intro run
    unfold settleFresh
    split <;> exact ⟨rfl, rfl⟩
  unfold runFresh
  cases hinit : initSession server init with
  | error e => exact sound
  | ok opened =>
      obtain ⟨uri, opened⟩ := opened
      have honest : HonestServer src uri opened := by
        cases init with
        | accept =>
            simp only [initSession, Except.ok.injEq, Prod.mk.injEq] at hinit
            obtain ⟨rfl, rfl⟩ := hinit
            intro session found
            simp only [sessions_set, Option.some.injEq] at found
            subst found
            exact ⟨List.nil_prefix, fun bytes finalized => by simp at finalized⟩
        | _ => simp [initSession] at hinit
      simp only [hsettled]
      exact sound_run_session digest dest src relpath _ uri versions versioned member 0 opened puts
        honest

theorem honest_of_sound (versions : Source → Prop) (member : versions src) (state : State)
    (sound : Sound versions state) (token : GcsResumeToken)
    (usable : reusable dest src relpath state.2 = some token) :
    HonestServer src token.sessionUri state.1 := by
  obtain ⟨hfrom, hmatch⟩ := Option.filter_eq_some_iff.mp usable
  simp only [Token.matchesSource, Bool.and_eq_true, decide_eq_true_eq] at hmatch
  exact sound token hfrom src member hmatch.1.2 hmatch.2

theorem sound_deliver (versions : Source → Prop) (versioned : Versioned versions)
    (member : versions src) (state : State) (sound : Sound versions state)
    (script : DeliverScript) :
    Sound versions
      ((deliver digest dest src relpath state.2 state.1 script).server,
        (deliver digest dest src relpath state.2 state.1 script).row) := by
  unfold deliver
  split
  · split
    · exact sound
    · split
      · exact fun token htoken => by simp at htoken
      · exact sound
  · cases husable : reusable dest src relpath state.2 with
    | none => exact sound_run_fresh digest dest src relpath versions versioned member _ _ _ _ sound
    | some token =>
        have honest := honest_of_sound dest src relpath versions member state sound token husable
        have hrun := sound_run_session digest dest src relpath
          (ObjectPath.objectKey dest.keyPrefix relpath) token.sessionUri versions versioned member
          (min token.bytesCommitted src.size) state.1 script.puts honest
        simp only
        split
        · exact hrun
        · exact hrun
        · exact hrun
        · exact sound_run_fresh digest dest src relpath versions versioned member _ _ _ _
            (fun other hother => by simp at hother)

theorem sound_of_reached (bucket keyPrefix : String) (versions : Source → Prop)
    (versioned : Versioned versions) (state : State)
    (reached : Reached digest relpath bucket keyPrefix versions state) : Sound versions state := by
  induction reached with
  | start object => exact fun token htoken => by simp at htoken
  | delivered state src dest script _ _ member _ ih =>
      exact sound_deliver digest dest src relpath versions versioned member state ih script
  | uncleared state src dest token script _ _ member usable _ ih =>
      exact sound_of_row dest src _ token.sessionUri versions versioned member _ _
        (Or.inr ⟨src.size, rfl⟩)
        (honest_send_chunks digest dest src relpath _ token.sessionUri script _ _ state.1
          (honest_of_sound dest src relpath versions member state ih token usable))
  | dropped state uri _ ih =>
      intro token htoken v hv hsize hmtime session found
      simp only [GcsServer.setSession] at found
      split at found
      · simp at found
      · exact ih token htoken v hv hsize hmtime session found
  | forgot state uri session keep hsession _ ih =>
      intro token htoken v hv hsize hmtime after found
      simp only [GcsServer.setSession] at found
      split at found
      · rename_i same
        have honest := ih token htoken v hv hsize hmtime session (same ▸ hsession)
        rw [Option.some.injEq] at found
        subst found
        exact ⟨(List.take_prefix _ _).trans honest.1, honest.2⟩
      · exact ih token htoken v hv hsize hmtime after found
  | replaced state object _ ih => exact ih
  | cleared state _ _ => exact fun token htoken => by simp at htoken

end FileReplicator.GcsResume
