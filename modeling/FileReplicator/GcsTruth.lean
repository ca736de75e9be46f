import FileReplicator.GcsSession

/-!
# When a GCS session run tells the truth

`run_session` advances on its own count. This module says exactly for which
server behaviours an `Ok` from it means that the object is final and is the
source, whatever earlier runs of the same session left on the server.
-/

namespace FileReplicator.GcsTruth

open Domain ByteRanges SourceFile ChunkBounds GcsSession

variable (digest : Algorithm → Bytes → Checksum) (dest : GcsDest) (src : Source)
variable (relpath object : String) (uri : UploadId)

/-- Servers a session can be found on: it was opened for this source, then any number of runs
(with any settings, from any checkpoint, interrupted anywhere) sent to it, the server may have
dropped it or the end of what it held, and anybody may have replaced the object. -/
inductive Sent : GcsServer → Prop where
  | opened (server : GcsServer) (fresh : server.sessions uri = some ⟨[], none⟩) : Sent server
  | ran (server : GcsServer) (dest : GcsDest) (relpath object : String) (committed : Nat)
      (script : List PutAnswer) (sent : Sent server) :
      Sent (runSession digest dest src relpath object uri committed server script).server
  | dropped (server : GcsServer) (sent : Sent server) : Sent (server.setSession uri none)
  | forgot (server : GcsServer) (session : Session) (keep : Nat)
      (found : server.sessions uri = some session) (sent : Sent server) :
      Sent (server.setSession uri (some { session with held := session.held.take keep }))
  | replaced (server : GcsServer) (other : Option Bytes) (sent : Sent server) :
      Sent { server with object := other }

/-- The session holds a head of the source, and what it finalized is the source. -/
def Session.Honest (session : Session) : Prop :=
  session.held <+: src.bytes ∧ ∀ bytes, session.finalized = some bytes → bytes = src.bytes

def HonestServer (server : GcsServer) : Prop :=
  ∀ session, server.sessions uri = some session → Session.Honest src session

def isSuccess : PutAnswer → Bool
  | .commit _ | .finish => true
  | _ => false

/-- Some PUT of the run is not answered with success, or the run is cut short. -/
def Unanswered : Nat → List PutAnswer → Prop
  | committed, [] => committed < src.size
  | committed, answer :: rest =>
      committed < src.size ∧
        (¬InRange dest.chunkBytes committed ∨ isSuccess answer = false ∨
          Unanswered (nextOffset dest.chunkBytes src committed) rest)

/-- The server's own count: from `held` bytes on, no PUT leaves a gap, and one of them finds every
byte there and finalizes. -/
def ServerCompletes : Nat → Nat → List PutAnswer → Prop
  | _, _, [] => False
  | held, committed, answer :: rest =>
      committed < src.size ∧ committed ≤ held ∧
        let stop := nextOffset dest.chunkBytes src committed
        match answer with
        | .finish => max held stop = src.size ∨ ServerCompletes (max held stop) stop rest
        | .commit keep => ServerCompletes (min keep (max held stop)) stop rest
        | _ => False

/-- The behaviours of the server under which an `Ok` is true: it lost the session and the client
still has something to send, it had finalized the object before, some PUT fails, or its own count
gets to the end of the file. -/
def Truthful (committed : Nat) (server : GcsServer) (script : List PutAnswer) : Prop :=
  match server.sessions uri with
  | none => committed < src.size
  | some session =>
      session.finalized ≠ none ∨ Unanswered dest src committed script ∨
        ServerCompletes dest src session.held.length committed script

/-! ## One PUT -/

theorem received_of_reached (session : Session) (start stop : Nat)
    (isHead : session.held <+: src.bytes) (reached : start ≤ session.held.length)
    (inside : start < stop) :
    session.received start (slice src.bytes start (stop - start)) =
      src.bytes.take (max session.held.length stop) := by
  have hheld := prefix_eq_take _ _ isHead
  rw [Session.received, if_pos reached]
  by_cases short : session.held.length ≤ stop
  · rw [Nat.max_eq_right short]
    have hjoin := take_append_slice_drop src.bytes session.held.length start (stop - start)
      reached (by omega)
    rw [← hheld, show start + (stop - start) = stop by omega] at hjoin
    exact hjoin
  · have hslice : (slice src.bytes start (stop - start)).length ≤
        session.held.length - start := by
      rw [slice_length]
      omega
    rw [List.drop_of_length_le hslice, List.append_nil, Nat.max_eq_left (by omega), ← hheld]

theorem received_of_gap (session : Session) (start : Nat) (body : Bytes)
    (gap : session.held.length < start) : session.received start body = session.held := by
  rw [Session.received, if_neg (by omega)]

theorem received_is_prefix_of (session : Session) (start stop : Nat)
    (isHead : session.held <+: src.bytes) (inside : start < stop) :
    session.received start (slice src.bytes start (stop - start)) <+: src.bytes := by
  by_cases reached : start ≤ session.held.length
  · rw [received_of_reached src session start stop isHead reached inside]
    exact List.take_prefix _ _
  · rw [received_of_gap session start _ (by omega)]
    exact isHead

theorem honest_commit (session : Session) (start stop keep : Nat)
    (honest : Session.Honest src session) (inside : start < stop) :
    Session.Honest src
      (session.commit start keep (slice src.bytes start (stop - start))).1 := by
  unfold Session.commit
  split
  · exact honest
  · rename_i final
    refine ⟨(List.take_prefix _ _).trans (received_is_prefix_of src session start stop honest.1 inside), ?_⟩
    intro bytes finalized
    simp [final] at finalized

theorem honest_finish (session : Session) (start stop : Nat)
    (honest : Session.Honest src session) (inside : start < stop) :
    Session.Honest src
      (session.finish start src.size (slice src.bytes start (stop - start))).1 := by
  have hhead := received_is_prefix_of src session start stop honest.1 inside
  unfold Session.finish
  split
  · exact honest
  · rename_i final
    by_cases full : (session.received start (slice src.bytes start (stop - start))).length = src.size
    · simp only [full, if_true]
      refine ⟨hhead, ?_⟩
      rintro bytes ⟨rfl⟩
      exact hhead.eq_of_length full
    · simp only [full, if_false]
      refine ⟨hhead, ?_⟩
      intro bytes finalized
      simp [final] at finalized

@[simp] theorem sessions_set (server : GcsServer) (session : Option Session) :
    (server.setSession uri session).sessions uri = session := by
  simp [GcsServer.setSession]

@[simp] theorem sessions_settle (server : GcsServer) (before after : Session) :
    (server.settle uri before after).sessions uri = some after := by
  simp [GcsServer.settle]

theorem honest_put (server : GcsServer) (start stop : Nat) (answer : PutAnswer)
    (honest : HonestServer src uri server) (inside : start < stop) :
    HonestServer src uri
      (server.put uri start src.size (slice src.bytes start (stop - start)) answer).1 := by
  intro after found
  cases hsession : server.sessions uri with
  | none =>
      cases answer <;> simp [GcsServer.put, hsession] at found
  | some session =>
      have hhonest := honest session hsession
      have hcommit := fun keep => honest_commit src session start stop keep hhonest inside
      have hfinish := honest_finish src session start stop hhonest inside
      cases answer with
      | commit keep =>
          simp only [GcsServer.put, hsession, sessions_settle, Option.some.injEq] at found
          exact found ▸ hcommit keep
      | finish =>
          simp only [GcsServer.put, hsession, sessions_settle, Option.some.injEq] at found
          exact found ▸ hfinish
      | lost finishes keep =>
          simp only [GcsServer.put, hsession, sessions_settle, Option.some.injEq] at found
          cases finishes
          · exact found ▸ hcommit keep
          · exact found ▸ hfinish
      | refuse code =>
          simp only [GcsServer.put, hsession, Option.some.injEq] at found
          exact found ▸ hhonest
      | expire => simp [GcsServer.put] at found

theorem after_put_cases (next : Nat) (buf : Bytes) (sent : GcsServer × Option Nat) :
    (sendChunk sent.2 = .ok () ∧ afterPut next buf sent = .ok (next, buf, sent.1)) ∨
    ((∀ u, sendChunk sent.2 ≠ .ok u) ∧
      ∃ result, (∀ d, result ≠ .ok d) ∧ afterPut next buf sent = .error (result, sent.1)) := by
  unfold afterPut
  cases sendChunk sent.2 with
  | ok _ => exact Or.inl ⟨rfl, rfl⟩
  | error e =>
      refine Or.inr ⟨by simp, ?_⟩
      cases e with
      | gone => exact ⟨.gone, by simp, rfl⟩
      | fatal e => exact ⟨.fatal e, by simp, rfl⟩

/-- What one turn of the loop does: it fails without a request, or it sends exactly the next chunk
and takes the status at its word. -/
theorem send_next_cases (committed : Nat) (server : GcsServer) (answer : PutAnswer)
    (left : committed < src.size) :
    (¬InRange dest.chunkBytes committed ∧
      ∃ e, sendNext dest src relpath uri committed server answer = .error (.fatal e, server)) ∨
    (InRange dest.chunkBytes committed ∧
      sendNext dest src relpath uri committed server answer =
        afterPut (nextOffset dest.chunkBytes src committed) (nextChunk dest.chunkBytes src committed)
          (server.put uri committed src.size (nextChunk dest.chunkBytes src committed) answer)) := by
  obtain ⟨small, hnext, hread⟩ | ⟨wraps, text, hread⟩ :=
    read_chunk dest.chunkBytes dest.chunkFits src relpath committed left
  · refine Or.inr ⟨small, ?_⟩
    simp only [chunkBounds] at hnext hread
    simp only [sendNext, chunkBounds, hread, hnext]
  · refine Or.inl ⟨wraps, .transient text, ?_⟩
    simp only [chunkBounds] at hread
    simp only [sendNext, chunkBounds, hread]

theorem honest_send_chunks (script : List PutAnswer) (committed : Nat) (hashed : Bytes)
    (server : GcsServer) (honest : HonestServer src uri server) :
    HonestServer src uri
      (sendChunks digest dest src relpath object uri committed hashed server script).server := by
  induction script generalizing committed hashed server with
  | nil =>
      rw [sendChunks]
      split <;> exact honest
  | cons answer rest ih =>
      rw [sendChunks]
      split
      · rename_i left
        obtain ⟨_, e, hnext⟩ | ⟨_, hnext⟩ :=
          send_next_cases dest src relpath uri committed server answer left
        · simpa only [hnext] using honest
        · have hput := honest_put src uri server committed _ answer honest
            (lt_next_offset dest.chunkBytes src committed left)
          rw [hnext]
          obtain ⟨_, hafter⟩ | ⟨_, result, _, hafter⟩ :=
            after_put_cases (nextOffset dest.chunkBytes src committed) (nextChunk dest.chunkBytes src committed)
              (server.put uri committed src.size (nextChunk dest.chunkBytes src committed) answer)
          · simp only [hafter]
            exact ih _ _ _ hput
          · simp only [hafter]
            exact hput
      · exact honest

theorem honest_of_sent (server : GcsServer) (sent : Sent digest src uri server) :
    HonestServer src uri server := by
  induction sent with
  | opened server fresh =>
      intro session found
      rw [fresh, Option.some.injEq] at found
      subst found
      exact ⟨List.nil_prefix, fun bytes finalized => by simp at finalized⟩
  | ran server dest relpath object committed script _ ih =>
      exact honest_send_chunks digest dest src relpath object uri script committed _ server ih
  | dropped server _ _ =>
      intro session found
      simp at found
  | forgot server session keep known _ ih =>
      intro after found
      rw [sessions_set, Option.some.injEq] at found
      subst found
      exact ⟨(List.take_prefix _ _).trans (ih session known).1, (ih session known).2⟩
  | replaced server other _ ih => exact ih

theorem send_chunk_refuse (code : Nat) (u : Unit) : sendChunk (some (max code 400)) ≠ .ok u := by
  have h308 : max code 400 ≠ 308 := by omega
  have h2xx : ¬(200 ≤ max code 400 ∧ max code 400 < 300) := by omega
  rw [sendChunk, if_neg h308, if_neg h2xx]
  split <;> simp

/-- A PUT is met with success exactly when the server still has the session and does not fail. -/
theorem put_success_iff (server : GcsServer) (start total : Nat) (body : Bytes)
    (answer : PutAnswer) :
    sendChunk (server.put uri start total body answer).2 = .ok () ↔
      isSuccess answer = true ∧ server.sessions uri ≠ none := by
  have h308 : sendChunk (some 308) = .ok () := rfl
  have h200 : sendChunk (some 200) = .ok () := rfl
  have h404 : sendChunk (some 404) ≠ .ok () := by simp [sendChunk]
  have hnone : sendChunk none ≠ .ok () := by simp [sendChunk]
  cases hsession : server.sessions uri with
  | none =>
      cases answer <;> simp [GcsServer.put, hsession, isSuccess, h404, hnone, send_chunk_refuse]
  | some session =>
      cases answer with
      | commit keep =>
          simp only [GcsServer.put, hsession, isSuccess, Session.commit]
          cases session.finalized <;> simp [h308, h200]
      | finish =>
          simp only [GcsServer.put, hsession, isSuccess, Session.finish]
          cases session.finalized with
          | some _ => simp [h200]
          | none => simp only; split <;> simp [h308, h200]
      | lost finishes keep => simp [GcsServer.put, hsession, isSuccess, hnone]
      | refuse code => simp [GcsServer.put, isSuccess, send_chunk_refuse]
      | expire => simp [GcsServer.put, isSuccess, h404]

/-! ## The end of a run -/

/-- One turn, with the chunk's end in range, a session on the server and a successful answer. -/
theorem send_chunks_succeeds (committed : Nat) (hashed : Bytes) (server : GcsServer)
    (answer : PutAnswer) (rest : List PutAnswer) (left : committed < src.size)
    (small : InRange dest.chunkBytes committed) (success : isSuccess answer = true)
    (found : server.sessions uri ≠ none) :
    sendChunks digest dest src relpath object uri committed hashed server (answer :: rest) =
      sendChunks digest dest src relpath object uri (nextOffset dest.chunkBytes src committed)
        (hashed ++ nextChunk dest.chunkBytes src committed)
        (server.put uri committed src.size (nextChunk dest.chunkBytes src committed) answer).1 rest := by
  obtain ⟨wraps, _⟩ | ⟨_, hnext⟩ :=
    send_next_cases dest src relpath uri committed server answer left
  · exact absurd small wraps
  · have hput := (put_success_iff uri server committed src.size (nextChunk dest.chunkBytes src committed)
      answer).mpr ⟨success, found⟩
    rw [sendChunks, if_pos left, hnext]
    simp only [afterPut, hput]

theorem not_ok_of_unanswered (script : List PutAnswer) (committed : Nat) (hashed : Bytes)
    (server : GcsServer) (unanswered : Unanswered dest src committed script) (d : Delivered) :
    (sendChunks digest dest src relpath object uri committed hashed server script).result ≠
      .ok d := by
  induction script generalizing committed hashed server with
  | nil =>
      rw [sendChunks, if_pos (show committed < src.size from unanswered)]
      simp
  | cons answer rest ih =>
      obtain ⟨left, hwhy⟩ := unanswered
      rw [sendChunks, if_pos left]
      obtain ⟨_, e, hnext⟩ | ⟨small, hnext⟩ :=
        send_next_cases dest src relpath uri committed server answer left
      · simp [hnext]
      · rw [hnext]
        obtain ⟨hok, hafter⟩ | ⟨_, result, hresult, hafter⟩ :=
          after_put_cases (nextOffset dest.chunkBytes src committed) (nextChunk dest.chunkBytes src committed)
            (server.put uri committed src.size (nextChunk dest.chunkBytes src committed) answer)
        · have success := ((put_success_iff uri _ _ _ _ _).mp hok).1
          simp only [hafter]
          refine ih _ _ _ ?_
          rcases hwhy with wraps | failed | later
          · exact absurd small wraps
          · simp [success] at failed
          · exact later
        · simp only [hafter]
          exact hresult d

/-- A PUT with a successful answer leaves the session on the server, and a final one as it is. -/
theorem put_keeps_session (server : GcsServer) (start total : Nat) (body : Bytes)
    (answer : PutAnswer) (session : Session) (found : server.sessions uri = some session)
    (success : isSuccess answer = true) :
    ∃ after, (server.put uri start total body answer).1.sessions uri = some after ∧
      (session.finalized ≠ none → after = session) := by
  cases answer with
  | commit keep =>
      refine ⟨(session.commit start keep body).1, by simp [GcsServer.put, found], fun final => ?_⟩
      obtain ⟨bytes, hbytes⟩ := Option.ne_none_iff_exists'.mp final
      simp [Session.commit, hbytes]
  | finish =>
      refine ⟨(session.finish start total body).1, by simp [GcsServer.put, found], fun final => ?_⟩
      obtain ⟨bytes, hbytes⟩ := Option.ne_none_iff_exists'.mp final
      simp [Session.finish, hbytes]
  | lost _ _ => simp [isSuccess] at success
  | refuse _ => simp [isSuccess] at success
  | expire => simp [isSuccess] at success

/-- A run whose every PUT is answered with success returns `Ok`, and keeps a final session. -/
theorem ok_of_answered (script : List PutAnswer) (committed : Nat) (hashed : Bytes)
    (server : GcsServer) (session : Session) (found : server.sessions uri = some session)
    (answered : ¬Unanswered dest src committed script) :
    ∃ after d,
      (sendChunks digest dest src relpath object uri committed hashed server script).result =
        .ok d ∧
      (sendChunks digest dest src relpath object uri committed hashed server script).server.sessions
        uri = some after ∧
      (session.finalized ≠ none → after = session) := by
  induction script generalizing committed hashed server session with
  | nil =>
      rw [sendChunks, if_neg (show ¬committed < src.size from answered)]
      exact ⟨session, _, rfl, found, fun _ => rfl⟩
  | cons answer rest ih =>
      by_cases left : committed < src.size
      · simp only [Unanswered, left, true_and, not_or, not_not, Bool.not_eq_false] at answered
        obtain ⟨small, success, hrest⟩ := answered
        rw [send_chunks_succeeds digest dest src relpath object uri committed hashed server answer
          rest left small success (by simp [found])]
        obtain ⟨after, hafter, hkeep⟩ := put_keeps_session uri server committed src.size
          (nextChunk dest.chunkBytes src committed) answer session found success
        obtain ⟨final, d, hd, hfinal, hsame⟩ := ih _ _ _ after hafter hrest
        refine ⟨final, d, hd, hfinal, fun hsession => ?_⟩
        have heq := hkeep hsession
        rw [hsame (heq ▸ hsession), heq]
      · rw [sendChunks, if_neg left]
        exact ⟨session, _, rfl, found, fun _ => rfl⟩

theorem not_completes_of_gap (held committed : Nat) (script : List PutAnswer)
    (gap : held < committed) : ¬ServerCompletes dest src held committed script := by
  cases script with
  | nil => exact fun completes => completes
  | cons answer rest =>
      rintro ⟨_, reached, _⟩
      omega

/-- The server's count after a PUT it does not finalize at. -/
def countAfter (held committed : Nat) : Nat :=
  if committed ≤ held then max held (nextOffset dest.chunkBytes src committed) else held

theorem received_length (session : Session) (committed : Nat)
    (isHead : session.held <+: src.bytes) (left : committed < src.size) :
    (session.received committed (nextChunk dest.chunkBytes src committed)).length =
      countAfter dest src session.held.length committed := by
  have inside := lt_next_offset dest.chunkBytes src committed left
  have hsize := isHead.length_le
  have hnext := next_offset_le dest.chunkBytes src committed
  unfold countAfter
  split
  · rename_i reached
    rw [nextChunk, received_of_reached src session committed _ isHead reached inside,
      List.length_take]
    unfold Source.size at hnext
    omega
  · rw [received_of_gap _ _ _ (by omega)]

/-- The step of the server's count: with every PUT answered, a session that is not final becomes so
at this PUT, or goes on with the count the script says. -/
theorem server_completes_cons (held committed : Nat) (answer : PutAnswer)
    (rest : List PutAnswer) (left : committed < src.size) :
    ServerCompletes dest src held committed (answer :: rest) ↔
      match answer with
      | .finish => countAfter dest src held committed = src.size ∨
          ServerCompletes dest src (countAfter dest src held committed)
            (nextOffset dest.chunkBytes src committed) rest
      | .commit keep =>
          ServerCompletes dest src (min keep (countAfter dest src held committed))
            (nextOffset dest.chunkBytes src committed) rest
      | _ => False := by
  have inside := lt_next_offset dest.chunkBytes src committed left
  by_cases reached : committed ≤ held
  · cases answer <;> simp [ServerCompletes, countAfter, left, reached]
  · have hgap : ∀ n, n ≤ held → ¬ServerCompletes dest src n (nextOffset dest.chunkBytes src committed) rest :=
      fun n le => not_completes_of_gap dest src n _ rest (by omega)
    cases answer with
    | commit keep =>
        have hkeep := hgap (min keep held) (Nat.min_le_right _ _)
        simp [ServerCompletes, countAfter, reached, hkeep]
    | finish =>
        have hne : held ≠ src.size := by omega
        simp [ServerCompletes, countAfter, reached, hgap held le_rfl, hne]
    | lost _ _ => simp [ServerCompletes]
    | refuse _ => simp [ServerCompletes]
    | expire => simp [ServerCompletes]

/-- With every PUT answered, the object is final after the run exactly when the server's own count
completes. -/
theorem final_iff_completes (script : List PutAnswer) (committed : Nat) (hashed : Bytes)
    (server : GcsServer) (session : Session) (found : server.sessions uri = some session)
    (honest : HonestServer src uri server) (unsettled : session.finalized = none)
    (answered : ¬Unanswered dest src committed script) :
    (sendChunks digest dest src relpath object uri committed hashed server script).server.finalized
        uri ≠ none ↔
      ServerCompletes dest src session.held.length committed script := by
  induction script generalizing committed hashed server session with
  | nil =>
      rw [sendChunks, if_neg (show ¬committed < src.size from answered)]
      simp [sessionDone, GcsServer.finalized, found, unsettled, ServerCompletes]
  | cons answer rest ih =>
      by_cases left : committed < src.size
      · simp only [Unanswered, left, true_and, not_or, not_not, Bool.not_eq_false] at answered
        obtain ⟨small, success, hrest⟩ := answered
        have hhead := (honest session found).1
        have hlength := received_length dest src session committed hhead left
        have hput := honest_put src uri server committed _ answer honest
          (lt_next_offset dest.chunkBytes src committed left)
        rw [send_chunks_succeeds digest dest src relpath object uri committed hashed server answer
          rest left small success (by simp [found]),
          server_completes_cons dest src _ _ _ _ left]
        cases answer with
        | commit keep =>
            have hafter : (server.put uri committed src.size (nextChunk dest.chunkBytes src committed)
                (.commit keep)).1.sessions uri = some { session with
                  held := (session.received committed (nextChunk dest.chunkBytes src committed)).take keep } := by
              simp [GcsServer.put, found, Session.commit, unsettled]
            have hstep := ih _ (hashed ++ nextChunk dest.chunkBytes src committed) _ _ hafter hput unsettled hrest
            simpa [List.length_take, hlength] using hstep
        | finish =>
            by_cases full : countAfter dest src session.held.length committed = src.size
            · have hafter : (server.put uri committed src.size (nextChunk dest.chunkBytes src committed)
                  .finish).1.sessions uri = some
                    { held := session.received committed (nextChunk dest.chunkBytes src committed),
                      finalized := some
                        (session.received committed (nextChunk dest.chunkBytes src committed)) } := by
                simp [GcsServer.put, found, Session.finish, unsettled, hlength, full]
              obtain ⟨last, _, _, hlast, hsame⟩ := ok_of_answered digest dest src relpath object uri
                rest _ (hashed ++ nextChunk dest.chunkBytes src committed) _ _ hafter hrest
              have heq := hsame (by simp)
              simp [GcsServer.finalized, hlast, heq, full]
            · have hafter : (server.put uri committed src.size (nextChunk dest.chunkBytes src committed)
                  .finish).1.sessions uri = some { session with
                    held := session.received committed (nextChunk dest.chunkBytes src committed) } := by
                simp [GcsServer.put, found, Session.finish, unsettled, hlength, full]
              have hstep := ih _ (hashed ++ nextChunk dest.chunkBytes src committed) _ _ hafter hput unsettled hrest
              simpa [hlength, full] using hstep
        | lost _ _ => simp [isSuccess] at success
        | refuse _ => simp [isSuccess] at success
        | expire => simp [isSuccess] at success
      · rw [sendChunks, if_neg left]
        simp [sessionDone, GcsServer.finalized, found, unsettled, ServerCompletes, left]

theorem not_ok_of_lost (script : List PutAnswer) (committed : Nat) (hashed : Bytes)
    (server : GcsServer) (lost : server.sessions uri = none) (left : committed < src.size)
    (d : Delivered) :
    (sendChunks digest dest src relpath object uri committed hashed server script).result ≠
      .ok d := by
  cases script with
  | nil => rw [sendChunks, if_pos left]; simp
  | cons answer rest =>
      rw [sendChunks, if_pos left]
      obtain ⟨_, e, hnext⟩ | ⟨_, hnext⟩ :=
        send_next_cases dest src relpath uri committed server answer left
      · simp [hnext]
      · rw [hnext]
        obtain ⟨hok, _⟩ | ⟨_, result, hresult, hafter⟩ :=
          after_put_cases (nextOffset dest.chunkBytes src committed) (nextChunk dest.chunkBytes src committed)
            (server.put uri committed src.size (nextChunk dest.chunkBytes src committed) answer)
        · exact absurd lost ((put_success_iff uri _ _ _ _ _).mp hok).2
        · simp only [hafter]
          exact hresult d

/-- An `Ok` of `run_session` means a final object with the bytes of the source exactly under the
`Truthful` behaviours. -/
theorem run_session_ok_final_iff (committed : Nat) (server : GcsServer) (script : List PutAnswer)
    (sent : Sent digest src uri server) :
    ((∃ d, (runSession digest dest src relpath object uri committed server script).result =
        .ok d) →
      (runSession digest dest src relpath object uri committed server script).server.finalized uri =
        some src.bytes) ↔
      Truthful dest src uri committed server script := by
  have honest := honest_of_sent digest src uri server sent
  have hrun := honest_send_chunks digest dest src relpath object uri script committed
    (src.bytes.take committed) server honest
  unfold runSession
  cases hsession : server.sessions uri with
  | none =>
      simp only [Truthful, hsession]
      constructor
      · intro truth
        by_contra done
        have hnone : (sendChunks digest dest src relpath object uri committed
            (src.bytes.take committed) server script) =
              sessionDone digest dest src object (src.bytes.take committed) server := by
          cases script <;> rw [sendChunks, if_neg done]
        rw [hnone] at truth
        simp [sessionDone, GcsServer.finalized, hsession] at truth
      · rintro left ⟨d, hd⟩
        exact absurd hd (not_ok_of_lost digest dest src relpath object uri script committed _ server
          hsession left d)
  | some session =>
      simp only [Truthful, hsession]
      by_cases unanswered : Unanswered dest src committed script
      · refine iff_of_true ?_ (Or.inr (Or.inl unanswered))
        rintro ⟨d, hd⟩
        exact absurd hd (not_ok_of_unanswered digest dest src relpath object uri script committed _
          server unanswered d)
      · obtain ⟨after, d, hd, hafter, hsame⟩ := ok_of_answered digest dest src relpath object uri
          script committed (src.bytes.take committed) server session hsession unanswered
        have hfinal : (sendChunks digest dest src relpath object uri committed
            (src.bytes.take committed) server script).server.finalized uri = after.finalized := by
          simp [GcsServer.finalized, hafter]
        have hbytes : after.finalized = some src.bytes ↔ after.finalized ≠ none := by
          refine ⟨fun h => by simp [h], fun final => ?_⟩
          obtain ⟨bytes, hb⟩ := Option.ne_none_iff_exists'.mp final
          rw [hb, (hrun after hafter).2 bytes hb]
        rw [hfinal, hbytes]
        simp only [unanswered, false_or]
        constructor
        · intro truth
          by_cases unsettled : session.finalized = none
          · have hiff := final_iff_completes digest dest src relpath object uri script committed
              (src.bytes.take committed) server session hsession honest unsettled unanswered
            rw [hfinal] at hiff
            exact Or.inr (hiff.mp (truth ⟨d, hd⟩))
          · exact Or.inl unsettled
        · rintro (final | completes) _
          · rw [hsame final]
            exact final
          · by_cases unsettled : session.finalized = none
            · have hiff := final_iff_completes digest dest src relpath object uri script committed
                (src.bytes.take committed) server session hsession honest unsettled unanswered
              rw [hfinal] at hiff
              exact hiff.mpr completes
            · rw [hsame unsettled]
              exact unsettled

/-! ## Concrete runs -/

def threeBytes : Source := ⟨[1, 2, 3], 0, three_bytes_fit⟩

def smallDest : GcsDest := ⟨"bucket", "", .crc32c, resolveChunkBytes (some 0), by decide⟩

def openedServer : GcsServer where
  sessions := fun u => if u = 0 then some ⟨[], none⟩ else none
  nextUri := 1
  object := none

/-- The run of `openedServer` and one finishing answer. -/
def openedRun : SessionRun :=
  runSession (fun _ _ => .none) smallDest threeBytes "a.txt" "a.txt" 0 0 openedServer [.finish]

theorem opened_run_ok : ∃ d, openedRun.result = .ok d :=
  ⟨_, rfl⟩

theorem run_session_ok_final_whole :
    (∃ d, openedRun.result = .ok d) ∧ openedRun.server.finalized 0 = some threeBytes.bytes :=
  ⟨opened_run_ok, (run_session_ok_final_iff (fun _ _ => .none) smallDest threeBytes "a.txt" "a.txt"
    0 0 openedServer [.finish] (Sent.opened openedServer rfl)).mpr
    (Or.inr (Or.inr ⟨by decide, by decide, Or.inl (by decide)⟩)) opened_run_ok⟩

/-- The server keeps none of the three bytes and says so with a 308; the run is `Ok`. -/
theorem run_session_ok_without_object :
    ¬∀ (digest : Algorithm → Bytes → Checksum) (dest : GcsDest) (src : Source)
      (relpath object : String) (uri : UploadId) (committed : Nat) (server : GcsServer)
      (script : List PutAnswer), Sent digest src uri server →
        (∃ d, (runSession digest dest src relpath object uri committed server script).result =
          .ok d) →
        (runSession digest dest src relpath object uri committed server script).server.finalized
          uri = some src.bytes := by
  intro truth
  have hfinal := truth (fun _ _ => .none) smallDest threeBytes "a.txt" "a.txt" 0 0 openedServer
    [.commit 0] (Sent.opened openedServer rfl)
    ⟨{ bytes := 3, checksum := .none, handle := buildHandle smallDest "a.txt" }, by decide⟩
  revert hfinal
  decide

end FileReplicator.GcsTruth
