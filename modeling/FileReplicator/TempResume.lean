import FileReplicator.TempUpload

/-!
# Resumed temp files

Whatever happened to earlier attempts, a temp file that is resumed is a head of
the present source, so what an attempt publishes is the whole of it. The
induction is over the attempts and rewrites of one path.
-/

namespace FileReplicator.TempResume

open Domain SourceFile ByteRanges Publishing TempUpload

section Publish

variable {Error : Type} (host : Host Error)

/-- Where the two files can be once the publish step has begun. -/
structure From (prior : Option Bytes) (upload : Bytes) (paths : Paths) : Prop where
  final : paths.final = prior ∨ paths.final = none ∨ paths.final = some upload
  temp : paths.temp = none ∨ paths.temp = some upload

theorem from_rename (prior : Option Bytes) (upload : Bytes) (paths : Paths) (outcome : Outcome Error)
    (before : From prior upload paths) : From prior upload (rename host paths outcome).1 := by
  unfold rename
  split
  · exact before
  · rename_i held htemp
    have hheld : held = upload := by simpa [htemp] using before.temp
    exact ⟨Or.inr (Or.inr (by rw [hheld])), Or.inl rfl⟩
  · exact before
  · rename_i held applied htemp
    have hheld : held = upload := by simpa [htemp] using before.temp
    split
    · exact ⟨Or.inr (Or.inr (by rw [hheld])), Or.inl rfl⟩
    · exact before

theorem from_remove (prior : Option Bytes) (upload : Bytes) (paths : Paths) (outcome : Outcome Error)
    (before : From prior upload paths) : From prior upload (removeFinal host paths outcome).1 := by
  unfold removeFinal
  split
  · exact before
  · exact ⟨Or.inr (Or.inl rfl), before.temp⟩
  · exact before
  · rename_i object applied hfinal
    cases applied with
    | true => exact ⟨Or.inr (Or.inl rfl), before.temp⟩
    | false => exact ⟨hfinal ▸ before.final, before.temp⟩

theorem rename_ok (prior : Option Bytes) (upload : Bytes) (paths after : Paths)
    (outcome : Outcome Error) (before : From prior upload paths)
    (moved : rename host paths outcome = (after, .ok ())) : after.final = some upload := by
  unfold rename at moved
  split at moved
  · simp at moved
  · rename_i held htemp
    have hheld : held = upload := by simpa [htemp] using before.temp
    rw [← (Prod.mk.inj moved).1, hheld]
  · simp at moved
  · simp at moved

theorem publish_from (prior : Option Bytes) (upload : Bytes) (paths : Paths)
    (script : Publishing.Script Error) (before : From prior upload paths) :
    From prior upload (publish host paths script).1 ∧
      ((publish host paths script).2 = .ok () → (publish host paths script).1.final = some upload) := by
  have hfirst := from_rename host prior upload paths script.first before
  unfold publish
  cases first : rename host paths script.first with
  | mk after outcome =>
      rw [first] at hfirst
      cases outcome with
      | ok done => exact ⟨hfirst, fun _ => rename_ok host prior upload paths after _ before first⟩
      | error error =>
          have hremoved := from_remove host prior upload after script.remove hfirst
          have hsecond := from_rename host prior upload _ script.second hremoved
          simp only
          cases second : rename host (removeFinal host after script.remove).1 script.second with
          | mk last outcome =>
              rw [second] at hsecond
              cases outcome with
              | ok done =>
                  exact ⟨hsecond, fun _ => rename_ok host prior upload _ last _ hremoved second⟩
              | error error => exact ⟨hsecond, fun failed => by simp at failed⟩

theorem publish_until_from (prior : Option Bytes) (upload : Bytes) (paths : Paths)
    (script : Publishing.Script Error) (calls : Nat) (before : From prior upload paths) :
    From prior upload (publishUntil host paths script calls) := by
  have hfirst := from_rename host prior upload paths script.first before
  unfold publishUntil
  split
  · exact before
  · exact hfirst
  · split
    · rename_i renamed _ first
      rw [first] at hfirst
      exact hfirst
    · rename_i after _ first
      rw [first] at hfirst
      exact from_remove host prior upload after script.remove hfirst
  · exact (publish_from host prior upload paths script before).1

end Publish

/-! ## Streaming -/

section Attempt

variable (flavor : Flavor) (digest : Algorithm → Bytes → Checksum) (dest : TempDest)
  (relpath : String) (src : Source)

theorem write_at_head (held data : Bytes) (offset tail : Nat) (head : held <+: src.bytes)
    (reached : offset ≤ held.length) (next : data <+: src.bytes.drop offset) :
    writeAt held offset data tail <+: src.bytes := by
  have hheld := prefix_eq_take _ _ head
  have hbefore : held.take offset = src.bytes.take offset := by
    rw [hheld, List.take_take, Nat.min_eq_left reached]
  have hdata := prefix_eq_take _ _ next
  have hjoined : held.take offset ++ data = src.bytes.take (offset + data.length) := by
    rw [hbefore, List.take_add]
    exact congrArg _ hdata
  have hafter : (held.drop (offset + data.length)).take tail <+:
      src.bytes.drop (offset + data.length) :=
    (List.take_prefix _ _).trans (head.drop _)
  obtain ⟨rest, hrest⟩ := hafter
  rw [writeAt, hjoined]
  exact ⟨rest, by rw [List.append_assoc, hrest, List.take_append_drop]⟩

theorem write_at_length (held data : Bytes) (offset tail : Nat) (reached : offset ≤ held.length) :
    offset + data.length ≤ (writeAt held offset data tail).length := by
  simp only [writeAt, List.length_append, List.length_take]
  omega

theorem read_chunk_head (offset count : Nat) : readChunk src offset count <+: src.bytes.drop offset :=
  List.take_prefix _ _

/-- Every token of this backend in the row names a version that has been seen. -/
def Known (seen : List (Nat × Int)) (row : Option ResumeState) : Prop :=
  ∀ token, row.bind flavor.fromResume = some token → (token.size, token.mtimeMs) ∈ seen

structure Streaming (seen : List (Nat × Int)) (t : Transfer) : Prop where
  head : t.held <+: src.bytes
  reached : t.total ≤ t.held.length
  hashed : t.hashed = src.bytes.take t.total
  known : Known flavor seen t.row

theorem known_persist (seen : List (Nat × Int)) (saved : Bool) (row : Option ResumeState)
    (committed : Nat) (present : (src.size, src.mtimeMs) ∈ seen) (known : Known flavor seen row) :
    Known flavor seen (persist flavor dest src relpath saved row committed) := by
  unfold persist
  split
  · intro token found
    rw [Option.bind_some, checkpoint, Flavor.from_to_resume, Option.some.injEq] at found
    exact found ▸ present
  · exact known

theorem streaming_advance (seen : List (Nat × Int)) (t : Transfer) (count tail : Nat) (saved : Bool)
    (present : (src.size, src.mtimeMs) ∈ seen) (streaming : Streaming flavor src seen t) :
    Streaming flavor src seen (advance flavor dest src relpath t count tail saved) := by
  have next := read_chunk_head src t.total count
  constructor
  · exact write_at_head src t.held _ t.total tail streaming.head streaming.reached next
  · exact write_at_length t.held _ t.total tail streaming.reached
  · have hdata := prefix_eq_take _ _ next
    simp only [advance]
    rw [streaming.hashed, List.take_add]
    exact congrArg _ hdata
  · exact known_persist flavor dest relpath src seen _ _ _ present streaming.known

theorem streaming_chunks (seen : List (Nat × Int)) (answers : List ChunkAnswer) (t : Transfer)
    (present : (src.size, src.mtimeMs) ∈ seen) (streaming : Streaming flavor src seen t) :
    (streamChunks flavor dest src relpath t answers).1.held <+: src.bytes ∧
      Known flavor seen (streamChunks flavor dest src relpath t answers).1.row ∧
      ((streamChunks flavor dest src relpath t answers).2 = .finished →
        Streaming flavor src seen (streamChunks flavor dest src relpath t answers).1 ∧
          src.size ≤ (streamChunks flavor dest src relpath t answers).1.total) := by
  induction answers generalizing t with
  | nil =>
      rw [streamChunks]
      split
      · rename_i whole
        exact ⟨streaming.head, streaming.known, fun _ => ⟨streaming, whole⟩⟩
      · exact ⟨streaming.head, streaming.known, fun finished => by simp at finished⟩
  | cons answer rest ih =>
      unfold streamChunks
      split
      · rename_i whole
        exact ⟨streaming.head, streaming.known, fun _ => ⟨streaming, whole⟩⟩
      · cases answer with
        | stop => exact ⟨streaming.head, streaming.known, fun finished => by simp at finished⟩
        | unread error => exact ⟨streaming.head, streaming.known, fun finished => by simp at finished⟩
        | refused count applied tail error =>
            refine ⟨?_, streaming.known, fun finished => by simp at finished⟩
            refine write_at_head src t.held _ t.total tail streaming.head streaming.reached ?_
            exact (List.take_prefix _ _).trans (read_chunk_head src t.total count)
        | written count tail saved =>
            exact ih _ (streaming_advance flavor dest relpath src seen t count tail saved present
              streaming)

/-! ## One attempt -/

/-- A token that would be resumed goes with a temp file that is a head of the source. -/
def Sound (remote : Remote) : Prop :=
  ∀ token, resumable flavor dest src relpath remote.row = some token → 0 < token.bytesCommitted →
    ∀ held, remote.temp = some held → held <+: src.bytes

theorem sound_of_head (remote : Remote) (head : ∀ held, remote.temp = some held → held <+: src.bytes) :
    Sound flavor dest relpath src remote :=
  fun _ _ _ held found => head held found

/-- What an attempt leaves, whether it was cut off, failed or is `Ok`. -/
structure AttemptSpec (seen : List (Nat × Int)) (remote : Remote) (attempt : Attempt) : Prop where
  sound : Sound flavor dest relpath src attempt.after
  known : Known flavor seen attempt.after.row
  final : attempt.after.final = remote.final ∨ attempt.after.final = none ∨
    attempt.after.final = some src.bytes
  ok : ∀ d, attempt.result = .ok d → attempt.after.final = some src.bytes ∧ d.bytes = src.size ∧
    d.checksum = digest dest.algo src.bytes

variable {Error : Type} (host : Host Error)

theorem publish_upload_spec (seen : List (Nat × Int)) (remote : Remote) (t : Transfer)
    (script : AttemptScript Error) (streaming : Streaming flavor src seen t)
    (whole : t.total = src.size) :
    AttemptSpec flavor digest dest relpath src seen remote
      (publishUpload digest dest relpath host t remote.final script) := by
  have hheld : t.held = src.bytes := by
    refine streaming.head.eq_of_length (Nat.le_antisymm streaming.head.length_le ?_)
    have reached := streaming.reached
    rw [whole] at reached
    exact reached
  have hashed : t.hashed = src.bytes := by
    rw [streaming.hashed, whole]
    exact List.take_length
  have start : From remote.final t.held ⟨remote.final, some t.held, false⟩ :=
    ⟨Or.inl rfl, Or.inr rfl⟩
  have spec : ∀ (result : DeliverResult) (paths : Paths) (row : Option ResumeState),
      From remote.final t.held paths → Known flavor seen row →
      (∀ d, result = .ok d → paths.final = some src.bytes ∧ d.bytes = src.size ∧
        d.checksum = digest dest.algo src.bytes) →
      AttemptSpec flavor digest dest relpath src seen remote
        ⟨result, ⟨paths.temp, paths.final, row⟩⟩ := by
    intro result paths row reached known ok
    refine ⟨sound_of_head flavor dest relpath src _ ?_, known, ?_, ok⟩
    · intro held found
      simp only at found
      rcases reached.temp with gone | there
      · rw [gone] at found
        simp at found
      · rw [there, Option.some.injEq] at found
        rw [← found]
        exact streaming.head
    · exact hheld ▸ reached.final
  unfold publishUpload
  cases hcalls : script.calls with
  | some calls =>
      refine spec .interrupted _ t.row ?_ streaming.known fun d ok => by simp at ok
      exact publish_until_from host _ _ _ script.publish calls start
  | none =>
      obtain ⟨hfrom, hok⟩ := publish_from host _ _ _ script.publish start
      simp only
      generalize publish host ⟨remote.final, some t.held, false⟩ script.publish = out at hfrom hok ⊢
      obtain ⟨paths, outcome⟩ := out
      cases outcome with
      | error error => exact spec (.err error) paths t.row hfrom streaming.known fun d ok => by simp at ok
      | ok done =>
          refine spec (.ok _) paths _ hfrom ?_ ?_
          · split
            · exact fun token found => by simp at found
            · exact streaming.known
          · intro d same
            rw [DeliverResult.ok.injEq] at same
            subst same
            exact ⟨hheld ▸ hok rfl, whole, by rw [hashed]⟩

theorem stream_and_publish_spec (seen : List (Nat × Int)) (remote : Remote) (t : Transfer)
    (script : AttemptScript Error) (present : (src.size, src.mtimeMs) ∈ seen)
    (streaming : Streaming flavor src seen t) :
    AttemptSpec flavor digest dest relpath src seen remote
      (streamAndPublish flavor digest dest src relpath host t remote.final script) := by
  have hstream := streaming_chunks flavor dest relpath src seen script.chunks t present streaming
  unfold streamAndPublish
  generalize streamChunks flavor dest src relpath t script.chunks = out at hstream ⊢
  obtain ⟨last, ending⟩ := out
  obtain ⟨hhead, hknown, hfinished⟩ := hstream
  have failed : ∀ result : DeliverResult, (∀ d, result ≠ .ok d) →
      AttemptSpec flavor digest dest relpath src seen remote
        ⟨result, ⟨some last.held, remote.final, last.row⟩⟩ := by
    intro result no
    refine ⟨sound_of_head flavor dest relpath src _ ?_, hknown, Or.inl rfl, fun d ok => absurd ok (no d)⟩
    intro held found
    exact Option.some.inj found ▸ hhead
  cases ending with
  | interrupted => exact failed _ fun d => by simp
  | failed error => exact failed _ fun d => by simp
  | finished =>
      obtain ⟨hlast, hwhole⟩ := hfinished rfl
      have published : last.total = src.size →
          AttemptSpec flavor digest dest relpath src seen remote
            (publishUpload digest dest relpath host last remote.final script) :=
        publish_upload_spec flavor digest dest relpath src host seen remote last script hlast
      cases flavor with
      | sftp =>
          simp only
          split
          · exact failed _ fun d => by simp
          · rename_i same
            cases script.closing with
            | some error => exact failed _ fun d => by simp
            | none => exact published (by simpa using same)
      | ftps =>
          cases hclosing : script.closing with
          | some error => exact failed _ fun d => by simp
          | none =>
              simp only
              split
              · exact failed _ fun d => by simp
              · rename_i same
                exact published (by simpa using same)

theorem streaming_start (seen : List (Nat × Int)) (remote : Remote) (stat saved : Bool)
    (present : (src.size, src.mtimeMs) ∈ seen) (sound : Sound flavor dest relpath src remote)
    (known : Known flavor seen remote.row) :
    Streaming flavor src seen
      (startTransfer src remote (resumeOffset flavor dest src relpath remote stat)
        (persist flavor dest src relpath saved remote.row
          (resumeOffset flavor dest src relpath remote stat))) := by
  have hrow := known_persist flavor dest relpath src seen saved remote.row
    (resumeOffset flavor dest src relpath remote stat) present known
  generalize hcommitted : resumeOffset flavor dest src relpath remote stat = committed at hrow ⊢
  by_cases fresh : committed = 0
  · refine ⟨?_, ?_, rfl, hrow⟩
    · simp [startTransfer, openedTemp, fresh]
    · simp [startTransfer, fresh]
  · unfold resumeOffset at hcommitted
    split at hcommitted
    · rename_i token held usable found
      split at hcommitted
      · have hhead : held <+: src.bytes := sound token usable (by omega) held found
        have hopened : openedTemp remote committed = held := by simp [openedTemp, fresh, found]
        refine ⟨?_, ?_, rfl, hrow⟩
        · simpa [startTransfer, hopened] using hhead
        · simp only [startTransfer, hopened]
          omega
      · exact absurd hcommitted.symm fresh
    · exact absurd hcommitted.symm fresh

theorem sound_written_ahead (remote : Remote) (stat saved : Bool)
    (sound : Sound flavor dest relpath src remote) :
    Sound flavor dest relpath src
      { remote with
        row := persist flavor dest src relpath saved remote.row
          (resumeOffset flavor dest src relpath remote stat) } := by
  intro token usable committed held found
  unfold persist at usable
  split at usable
  · have htoken : token.bytesCommitted = resumeOffset flavor dest src relpath remote stat := by
      simp only [resumable, Option.bind_some, checkpoint, Flavor.from_to_resume] at usable
      rw [← Option.some.inj (Option.filter_eq_some_iff.mp usable).1]
    rw [htoken] at committed
    unfold resumeOffset at committed
    split at committed
    · rename_i earlier there hearlier hthere
      split at committed
      · simp only at found
        rw [hthere, Option.some.injEq] at found
        exact sound earlier hearlier (by omega) held (found ▸ hthere)
      · exact absurd committed (Nat.lt_irrefl 0)
    · exact absurd committed (Nat.lt_irrefl 0)
  · exact sound token usable committed held found

theorem deliver_spec (seen : List (Nat × Int)) (remote : Remote) (script : AttemptScript Error)
    (present : (src.size, src.mtimeMs) ∈ seen) (sound : Sound flavor dest relpath src remote)
    (known : Known flavor seen remote.row) :
    AttemptSpec flavor digest dest relpath src seen remote
      (deliver flavor digest dest src relpath host remote script) := by
  have hrow := known_persist flavor dest relpath src seen script.begun remote.row
    (resumeOffset flavor dest src relpath remote script.stat) present known
  have hstart := streaming_start flavor dest relpath src seen remote script.stat script.begun present
    sound known
  have hstream := stream_and_publish_spec flavor digest dest relpath src host seen remote _ script
    present hstart
  have unchanged : ∀ error, AttemptSpec flavor digest dest relpath src seen remote
      ⟨.err error, remote⟩ :=
    fun error => ⟨sound, known, Or.inl rfl, fun d ok => by simp at ok⟩
  unfold deliver
  cases script.connect with
  | some error => exact unchanged error
  | none =>
      cases hopened : script.opened with
      | none =>
          cases flavor with
          | sftp => exact hstream
          | ftps => exact hstream
      | some error =>
          cases flavor with
          | sftp => exact unchanged error
          | ftps =>
              exact ⟨sound_written_ahead .ftps dest relpath src remote script.stat script.begun sound,
                hrow, Or.inl rfl, fun d ok => by simp at ok⟩

/-! ## Any history of one path -/

/-- The attempts and rewrites of one path, oldest first: `seen` are the signatures the source has
had. The server may lose the end of the temp file, the worker may clear the row or put a verified
result in it, a give-up removes the temp file, and others may write the final path. -/
inductive Reached : List (Nat × Int) → Source → Remote → Prop where
  | start (src : Source) (temp final : Option Bytes) :
      Reached [(src.size, src.mtimeMs)] src ⟨temp, final, none⟩
  | attempted (seen : List (Nat × Int)) (src : Source) (remote : Remote)
      (script : AttemptScript Error) (reached : Reached seen src remote) :
      Reached seen src (deliver flavor digest dest src relpath host remote script).after
  | kept (seen : List (Nat × Int)) (src : Source) (remote : Remote) (count : Nat)
      (reached : Reached seen src remote) :
      Reached seen src { remote with temp := remote.temp.map (List.take count) }
  | removed (seen : List (Nat × Int)) (src : Source) (remote : Remote)
      (reached : Reached seen src remote) : Reached seen src { remote with temp := none }
  | rewritten (seen : List (Nat × Int)) (src new : Source) (remote : Remote)
      (fresh : (new.size, new.mtimeMs) ∉ seen) (reached : Reached seen src remote) :
      Reached ((new.size, new.mtimeMs) :: seen) new remote
  | replaced (seen : List (Nat × Int)) (src : Source) (remote : Remote) (final : Option Bytes)
      (reached : Reached seen src remote) : Reached seen src { remote with final := final }
  | rowSet (seen : List (Nat × Int)) (src : Source) (remote : Remote) (row : Option ResumeState)
      (foreign : row.bind flavor.fromResume = none) (reached : Reached seen src remote) :
      Reached seen src { remote with row := row }

theorem sound_of_reached (seen : List (Nat × Int)) (src : Source) (remote : Remote)
    (reached : Reached flavor digest dest relpath host seen src remote) :
    (src.size, src.mtimeMs) ∈ seen ∧ Sound flavor dest relpath src remote ∧
      Known flavor seen remote.row := by
  induction reached with
  | start src temp final =>
      refine ⟨by simp, ?_, fun token found => by simp at found⟩
      exact fun token usable => by simp [resumable] at usable
  | attempted seen src remote script _ ih =>
      obtain ⟨present, sound, known⟩ := ih
      have spec := deliver_spec flavor digest dest relpath src host seen remote script present sound
        known
      exact ⟨present, spec.sound, spec.known⟩
  | kept seen src remote count _ ih =>
      obtain ⟨present, sound, known⟩ := ih
      refine ⟨present, ?_, known⟩
      intro token usable committed held found
      obtain ⟨whole, hwhole, rfl⟩ := Option.map_eq_some_iff.mp found
      exact (List.take_prefix _ _).trans (sound token usable committed whole hwhole)
  | removed seen src remote _ ih =>
      exact ⟨ih.1, fun token _ _ held found => by simp at found, ih.2.2⟩
  | rewritten seen src new remote fresh _ ih =>
      obtain ⟨_, _, known⟩ := ih
      refine ⟨by simp, ?_, fun token found => List.mem_cons_of_mem _ (known token found)⟩
      intro token usable
      obtain ⟨found, matched⟩ := Option.filter_eq_some_iff.mp usable
      simp only [matchesSource, Bool.and_eq_true, decide_eq_true_eq] at matched
      have hseen := known token found
      rw [matched.1.2, matched.2] at hseen
      exact absurd hseen fresh
  | replaced seen src remote final _ ih => exact ih
  | rowSet seen src remote row foreign _ ih =>
      refine ⟨ih.1, ?_, fun token found => by rw [foreign] at found; simp at found⟩
      exact fun token usable => by simp [resumable, foreign] at usable

/-- After any history, an attempt that is `Ok` has published the present source with the checksum
of its bytes; and no attempt leaves anything else at the final path than what was there, nothing,
or the whole source. -/
theorem resume_publishes_source (seen : List (Nat × Int)) (src : Source) (remote : Remote)
    (script : AttemptScript Error)
    (reached : Reached flavor digest dest relpath host seen src remote) :
    let attempt := deliver flavor digest dest src relpath host remote script
    (∀ d, attempt.result = .ok d → attempt.after.final = some src.bytes ∧ d.bytes = src.size ∧
      d.checksum = digest dest.algo src.bytes) ∧
    (attempt.after.final = remote.final ∨ attempt.after.final = none ∨
      attempt.after.final = some src.bytes) := by
  obtain ⟨present, sound, known⟩ := sound_of_reached flavor digest dest relpath host seen src remote
    reached
  have spec := deliver_spec flavor digest dest relpath src host seen remote script present sound known
  exact ⟨spec.ok, spec.final⟩

end Attempt

def sampleFile : Source := ⟨[1, 2, 3], 5, three_bytes_fit⟩

def sampleDest : TempDest := ⟨"in", ".part", .crc32c⟩

def cutOff : AttemptScript String where
  connect := none
  stat := true
  opened := none
  begun := true
  chunks := [.written 2 0 true, .stop]
  closing := none
  publish := ⟨.done, .done, .done, true, .done⟩
  calls := none
  cleared := true

def answered : AttemptScript String := { cutOff with chunks := [.written 3 0 true] }

theorem resume_publishes_source_cut_off :
    (deliver .sftp (fun _ _ => .none) sampleDest sampleFile "a.txt" sftpHost
      (deliver .sftp (fun _ _ => .none) sampleDest sampleFile "a.txt" sftpHost
        ⟨none, some [9], none⟩ cutOff).after answered).after.final = some [1, 2, 3] := by
  have published := resume_publishes_source .sftp (fun _ _ => .none) sampleDest "a.txt" sftpHost
    _ sampleFile _ answered (.attempted _ _ _ cutOff (.start sampleFile none (some [9])))
  exact (published.1 ⟨3, .none, [("remotePath", "in/a.txt"), ("algo", "CRC32C")]⟩
    (by decide)).1

end FileReplicator.TempResume
