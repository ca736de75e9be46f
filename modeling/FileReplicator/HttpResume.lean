import FileReplicator.HttpUpload

/-!
# Resumed http uploads

The induction is over the attempts on one url: the loop keeps the object a head
of the source that is at least as long as the offset, and an attempt starts at
an offset the server has.
-/

namespace FileReplicator.HttpResume

open Domain SourceFile ByteRanges ChunkBounds HttpUpload
open TempUpload (writeAt)
open TempResume (write_at_head write_at_length sampleFile)

section Attempt

variable (buildUrl : String → String → Except ReplError String)
  (digest : Algorithm → Bytes → Checksum) (dest : HttpDest) (relpath : String) (src : Source)
  (url : String)

/-- What the server has of the object is a head of the source. -/
def HeadOf (object : Option Bytes) : Prop := object.getD [] <+: src.bytes

structure Sending (committed : Nat) (hashed : Bytes) (object : Option Bytes) : Prop where
  head : HeadOf src object
  reached : committed ≤ (object.getD []).length
  hashed : hashed = src.bytes.take committed

/-- Whatever becomes of a body that goes on with the source, the object is a head of it. -/
theorem send_chunk_head (object : Option Bytes) (offset : Nat) (body : Bytes) (answer : SendAnswer)
    (head : HeadOf src object) (reached : offset ≤ (object.getD []).length)
    (next : body <+: src.bytes.drop offset) : HeadOf src (sendChunk object offset body answer).1 := by
  have hput : ∀ sent tail, sent <+: src.bytes.drop offset →
      HeadOf src (putRange object offset sent tail) :=
    fun sent tail goesOn => write_at_head src _ sent offset tail head reached goesOn
  cases answer with
  | accepted tail saved => exact hput body tail next
  | refused kept tail status => exact hput _ tail ((List.take_prefix kept body).trans next)
  | lost kept tail => exact hput _ tail ((List.take_prefix kept body).trans next)
  | cut kept tail => exact hput _ tail ((List.take_prefix kept body).trans next)
  | unread error => exact head

theorem send_chunk_finished (object : Option Bytes) (offset : Nat) (body : Bytes)
    (answer : SendAnswer) (finished : (sendChunk object offset body answer).2 = .finished) :
    ∃ tail, (sendChunk object offset body answer).1 = putRange object offset body tail := by
  cases answer with
  | accepted tail saved => exact ⟨tail, rfl⟩
  | refused kept tail status => simp [sendChunk] at finished
  | lost kept tail => simp [sendChunk] at finished
  | cut kept tail => simp [sendChunk] at finished
  | unread error => simp [sendChunk] at finished

theorem next_chunk_head (chunkBytes committed : Nat) :
    nextChunk chunkBytes src committed <+: src.bytes.drop committed :=
  List.take_prefix _ _

theorem sending_next (committed : Nat) (hashed : Bytes) (object : Option Bytes) (answer : SendAnswer)
    (sending : Sending src committed hashed object) (left : committed < src.size)
    (finished : (sendChunk object committed (nextChunk dest.chunkBytes src committed) answer).2 =
      .finished) :
    Sending src (nextOffset dest.chunkBytes src committed)
      (hashed ++ nextChunk dest.chunkBytes src committed)
      (sendChunk object committed (nextChunk dest.chunkBytes src committed) answer).1 := by
  have hnext := lt_next_offset dest.chunkBytes src committed left
  have hend := next_offset_le dest.chunkBytes src committed
  have hlength : (nextChunk dest.chunkBytes src committed).length =
      nextOffset dest.chunkBytes src committed - committed :=
    slice_length_of_le _ _ _ (by unfold Source.size at hend; omega)
  constructor
  · exact send_chunk_head src object committed _ answer sending.head sending.reached
      (next_chunk_head src dest.chunkBytes committed)
  · obtain ⟨tail, hobject⟩ := send_chunk_finished object committed _ answer finished
    have hwritten := write_at_length (object.getD []) (nextChunk dest.chunkBytes src committed)
      committed tail sending.reached
    rw [hobject]
    simp only [putRange, Option.getD_some]
    omega
  · rw [sending.hashed, nextChunk, take_append_slice]
    congr 1
    omega

theorem send_chunks_spec (answers : List SendAnswer) (committed : Nat) (hashed : Bytes)
    (remote : HttpRemote) (sending : Sending src committed hashed remote.object) :
    let run := sendChunks dest relpath src url committed hashed remote answers
    HeadOf src run.after.object ∧
      (run.ending = .finished →
        ∃ last, src.size ≤ last ∧ Sending src last run.hashed run.after.object) := by
  induction answers generalizing committed hashed remote with
  | nil =>
      refine ⟨sending.head, fun finished => ⟨committed, ?_, sending⟩⟩
      by_contra left
      simp [sendChunks, Nat.lt_of_not_le left] at finished
  | cons answer rest ih =>
      rw [sendChunks]
      by_cases left : committed < src.size
      · have hbounds : (chunkBounds committed dest.chunkBytes src.size).1 = committed := rfl
        simp only [if_pos left, hbounds]
        rcases read_chunk dest.chunkBytes dest.fits src relpath committed left with
          ⟨inRange, hnext, hread⟩ | ⟨_, text, hread⟩
        · rw [hread]
          have hafter : wrapAdd (chunkBounds committed dest.chunkBytes src.size).2 1 =
              nextOffset dest.chunkBytes src committed := by
            have hend := next_offset_le dest.chunkBytes src committed
            have hsize := size_lt_word src
            rw [wrap_add_of_lt _ _ (by omega), hnext]
          simp only [hafter]
          have hhead := send_chunk_head src remote.object committed _ answer sending.head
            sending.reached (next_chunk_head src dest.chunkBytes committed)
          have hstep := sending_next dest src committed hashed remote.object answer sending left
          generalize sendChunk remote.object committed (nextChunk dest.chunkBytes src committed)
            answer = sent at hhead hstep ⊢
          obtain ⟨object, ending⟩ := sent
          cases ending with
          -- only a chunk that the server accepted lets the loop go on
          | finished => exact ih _ _ _ (hstep rfl)
          | failed error => exact ⟨hhead, fun finished => by simp at finished⟩
          | interrupted => exact ⟨hhead, fun finished => by simp at finished⟩
        · rw [hread]
          exact ⟨sending.head, fun finished => by simp at finished⟩
      -- nothing is left to send
      · rw [if_neg left]
        exact ⟨sending.head, fun _ => ⟨committed, Nat.le_of_not_lt left, sending⟩⟩

theorem whole_of_sending (last : Nat) (hashed : Bytes) (object : Option Bytes)
    (sending : Sending src last hashed object) (past : src.size ≤ last) (some : 0 < src.size) :
    object = .some src.bytes ∧ hashed = src.bytes := by
  have reached := sending.reached
  cases object with
  | none =>
      simp only [Option.getD_none, List.length_nil] at reached
      omega
  | some held =>
      have whole : held = src.bytes :=
        sending.head.eq_of_length (Nat.le_antisymm sending.head.length_le (past.trans reached))
      exact ⟨congrArg _ whole, sending.hashed.trans (List.take_of_length_le past)⟩

/-! ## One attempt -/

/-- What an attempt leaves, whether it was cut off, failed or is `Ok`. -/
structure AttemptSpec (run : HttpRun) : Prop where
  head : HeadOf src run.after.object
  ok : ∀ d, run.result = .ok d → run.after.object = some src.bytes ∧ d.bytes = src.size ∧
    d.checksum = digest dest.algo src.bytes

theorem conclude_spec (run : SendRun) (cleared : Bool) (head : HeadOf src run.after.object)
    (whole : run.ending = .finished → run.after.object = some src.bytes ∧ run.hashed = src.bytes) :
    AttemptSpec digest dest src (conclude digest dest src url run cleared) := by
  unfold conclude
  cases ending : run.ending with
  | finished =>
      obtain ⟨hobject, hhashed⟩ := whole ending
      refine ⟨head, fun d same => ?_⟩
      rw [DeliverResult.ok.injEq] at same
      exact same ▸ ⟨hobject, rfl, congrArg _ hhashed⟩
  | failed error => exact ⟨head, fun d same => by simp at same⟩
  | interrupted => exact ⟨head, fun d same => by simp at same⟩

theorem put_whole_spec (remote : HttpRemote) (answer : SendAnswer) (cleared : Bool)
    (head : HeadOf src remote.object) :
    AttemptSpec digest dest src
      (conclude digest dest src url (putWhole src remote answer) cleared) := by
  have hsent : HeadOf src (sendChunk none 0 src.bytes answer).1 :=
    send_chunk_head src none 0 src.bytes answer List.nil_prefix (Nat.zero_le _) List.prefix_rfl
  apply conclude_spec
  · cases answer with
    | unread error => exact head
    | accepted tail saved => exact hsent
    | refused kept tail status => exact hsent
    | lost kept tail => exact hsent
    | cut kept tail => exact hsent
  · intro finished
    cases answer with
    | accepted tail saved => simp [putWhole, sendChunk, putRange, writeAt]
    | refused kept tail status => simp [putWhole, sendChunk] at finished
    | lost kept tail => simp [putWhole, sendChunk] at finished
    | cut kept tail => simp [putWhole, sendChunk] at finished
    | unread error => simp [putWhole, sendChunk] at finished

theorem put_empty_spec (remote : HttpRemote) (answer : SendAnswer) (cleared : Bool)
    (head : HeadOf src remote.object) (empty : src.size = 0) :
    AttemptSpec digest dest src (conclude digest dest src url (putEmpty remote answer) cleared) := by
  have hempty : src.bytes = [] := List.length_eq_zero_iff.mp empty
  have hsent : HeadOf src (putEmpty remote answer).after.object :=
    send_chunk_head src remote.object 0 [] answer head (Nat.zero_le _) List.nil_prefix
  refine conclude_spec digest dest src url _ cleared hsent fun finished => ?_
  obtain ⟨tail, hobject⟩ := send_chunk_finished remote.object 0 [] answer finished
  have hafter : (putEmpty remote answer).after.object = putRange remote.object 0 [] tail := hobject
  have hwritten : writeAt (remote.object.getD []) 0 [] tail <+: src.bytes := by
    rw [hafter] at hsent
    exact hsent
  rw [hempty, List.prefix_nil] at hwritten
  refine ⟨?_, hempty.symm⟩
  rw [hafter, hempty, putRange, hwritten]

theorem resume_offset_le (remote : HttpRemote) (answer : HeadAnswer) (committed : Nat)
    (resumed : resumeOffset src url remote answer = .ok committed) :
    committed ≤ (remote.object.getD []).length := by
  simp only [resumeOffset] at resumed
  split at resumed
  · cases answer with
    | lost => simp [reconcileRemoteLen, Except.map] at resumed
    | seen =>
        cases hobject : remote.object with
        | none =>
            rw [hobject] at resumed
            simp only [reconcileRemoteLen, Except.map, reconcile, Except.ok.injEq] at resumed
            omega
        | some held =>
            rw [hobject] at resumed
            simp only [reconcileRemoteLen, Except.map, reconcile, Except.ok.injEq] at resumed
            rw [Option.getD_some]
            omega
  · rename_i fresh
    simp only [Except.ok.injEq] at resumed
    omega

theorem deliver_ranged_spec (remote : HttpRemote) (script : DeliverScript)
    (head : HeadOf src remote.object) :
    AttemptSpec digest dest src (deliverRanged digest dest relpath src url remote script) := by
  have failed : ∀ error, AttemptSpec digest dest src ⟨.err error, remote⟩ :=
    fun error => ⟨head, fun d same => by simp at same⟩
  unfold deliverRanged
  cases hresumed : resumeOffset src url remote script.head with
  | error error => exact failed error
  | ok committed =>
      have reached := resume_offset_le src url remote script.head committed hresumed
      simp only
      split
      · exact failed _
      · split
        · rename_i empty
          exact put_empty_spec digest dest src url remote _ script.cleared head empty
        · rename_i filled
          obtain ⟨hhead, hfinished⟩ := send_chunks_spec dest relpath src url script.chunks committed
            (src.bytes.take committed)
            { remote with row := persist src url script.begun remote.row committed }
            ⟨head, reached, rfl⟩
          refine conclude_spec digest dest src url _ script.cleared hhead fun finished => ?_
          obtain ⟨last, past, sending⟩ := hfinished finished
          exact whole_of_sending src last _ _ sending past (Nat.pos_of_ne_zero filled)

theorem deliver_spec (remote : HttpRemote) (script : DeliverScript)
    (head : HeadOf src remote.object) :
    AttemptSpec digest dest src (deliver buildUrl digest dest relpath src remote script) := by
  have failed : ∀ error, AttemptSpec digest dest src ⟨.err error, remote⟩ :=
    fun error => ⟨head, fun d same => by simp at same⟩
  unfold deliver
  cases script.metadata with
  | some error => exact failed error
  | none =>
      cases buildUrl dest.baseUrl relpath with
      | error error => exact failed error
      | ok url =>
          cases script.client with
          | some error => exact failed error
          | none =>
              simp only
              split
              · exact deliver_ranged_spec digest dest relpath src url remote script head
              · exact put_whole_spec digest dest src url remote _ script.cleared head

/-! ## Any history of one url -/

/-- The attempts on one url and the rewrites of its source. The url is empty at first; the server
may lose the end of the object or all of it; a rewritten source finds no object; what the store has
as the resume row is arbitrary. -/
inductive Reached : Source → HttpRemote → Prop where
  | start (src : Source) (row : Option ResumeState) : Reached src ⟨none, row⟩
  | attempted (src : Source) (remote : HttpRemote) (script : DeliverScript)
      (reached : Reached src remote) :
      Reached src (deliver buildUrl digest dest relpath src remote script).after
  | kept (src : Source) (remote : HttpRemote) (count : Nat) (reached : Reached src remote) :
      Reached src { remote with object := remote.object.map (List.take count) }
  | discarded (src : Source) (remote : HttpRemote) (reached : Reached src remote) :
      Reached src { remote with object := none }
  | rewritten (src new : Source) (remote : HttpRemote) (reached : Reached src remote) :
      Reached new { remote with object := none }
  | rowSet (src : Source) (remote : HttpRemote) (row : Option ResumeState)
      (reached : Reached src remote) : Reached src { remote with row := row }

theorem head_of_reached (src : Source) (remote : HttpRemote)
    (reached : Reached buildUrl digest dest relpath src remote) : HeadOf src remote.object := by
  induction reached with
  | start src row => exact List.nil_prefix
  | attempted src remote script _ ih =>
      exact (deliver_spec buildUrl digest dest relpath src remote script ih).head
  | kept src remote count _ ih =>
      cases hobject : remote.object with
      | none => exact List.nil_prefix
      | some held =>
          rw [hobject] at ih
          exact (List.take_prefix count held).trans ih
  | discarded src remote _ _ => exact List.nil_prefix
  -- a source that has been rewritten finds no object to resume
  | rewritten src new remote _ _ => exact List.nil_prefix
  | rowSet src remote row _ ih => exact ih

/-- After any history, an attempt that is `Ok` has left the present source at the url, with the
checksum of its bytes. -/
theorem resumed_is_source (remote : HttpRemote) (script : DeliverScript)
    (reached : Reached buildUrl digest dest relpath src remote) (d : Delivered)
    (ok : (deliver buildUrl digest dest relpath src remote script).result = .ok d) :
    (deliver buildUrl digest dest relpath src remote script).after.object = some src.bytes ∧
      d.bytes = src.size ∧ d.checksum = digest dest.algo src.bytes :=
  (deliver_spec buildUrl digest dest relpath src remote script
    (head_of_reached buildUrl digest dest relpath src remote reached)).ok d ok

end Attempt

def sampleDest : HttpDest := ⟨"http://host/in", true, 2, .crc32c, by decide⟩

def joined (base relpath : String) : Except ReplError String := .ok (base ++ "/" ++ relpath)

/-- The process stops after one chunk of two bytes. -/
def cutOff : DeliverScript where
  metadata := none
  client := none
  head := .seen
  rehash := none
  begun := true
  chunks := [.accepted 0 true, .cut 0 0]
  cleared := true

def answered : DeliverScript := { cutOff with chunks := [.accepted 0 true, .accepted 0 true] }

/-- The server has kept one byte of the two that were sent. -/
theorem resumed_is_source_cut_off :
    (deliver joined (fun _ _ => .none) sampleDest "a.txt" sampleFile
      ⟨some [1], (deliver joined (fun _ _ => .none) sampleDest "a.txt" sampleFile ⟨none, none⟩
        cutOff).after.row⟩ answered).after.object = some [1, 2, 3] := by
  have resumed := resumed_is_source joined (fun _ _ => .none) sampleDest "a.txt" sampleFile _ answered
    (.kept _ _ 1 (.attempted _ _ cutOff (.start sampleFile none)))
    ⟨3, .none, [("url", "http://host/in/a.txt"), ("algo", "CRC32C")]⟩ (by decide)
  exact resumed.1

end FileReplicator.HttpResume
