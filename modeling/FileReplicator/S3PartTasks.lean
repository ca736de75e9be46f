import FileReplicator.S3Resume

/-!
# Racing part tasks

The part uploads of an s3 attempt as tasks of their own: requests reach the
service in any order and at any later time, responses are recorded under the
lock in any order, and the tasks of a failed attempt may still get that far. A
run is any order of these steps, over any number of attempts and crashes.
-/

namespace FileReplicator.S3PartTasks

open Domain SourceFile PartPlanning S3Multipart S3Resume

/-- An `UploadPart` on its way. -/
structure PartRequest where
  uploadId : UploadId
  number : Nat
  body : Bytes

/-- One `run_multipart_attempt`: `token.completed` is the list under the lock. -/
structure PartRun where
  token : S3ResumeToken
  count : Nat
  maxConcurrent : Nat
  pending : List Nat
  /-- Spawned, not recorded. -/
  flying : List Nat
  /-- Recorded, not joined. -/
  recorded : List Nat
  finished : Bool

structure CompleteCall where
  token : S3ResumeToken
  count : Nat

structure World where
  accepted : UploadId → Nat → Option Bytes
  closed : UploadId → Bool
  nextId : UploadId
  /-- The part size each upload was planned with. -/
  partSizeOf : UploadId → Nat
  requests : List PartRequest
  row : Option ResumeState
  runs : List PartRun
  /-- The completions that were called. -/
  calls : List CompleteCall

def startWorld (row : Option ResumeState) : World where
  accepted := fun _ _ => none
  closed := fun _ => false
  nextId := 0
  partSizeOf := fun _ => 0
  requests := []
  row := row
  runs := []
  calls := []

def startRun (token : S3ResumeToken) (count maxConcurrent : Nat) : PartRun where
  token := token
  count := count
  maxConcurrent := maxConcurrent
  pending := missingParts count token.completed
  flying := []
  recorded := []
  finished := false

inductive Event where
  /-- `create_mpu` and the start of its attempt. -/
  | create (dest : S3Dest) (saved : Bool)
  | resume (dest : S3Dest)
  | spawn (run : Nat)
  /-- The service takes the part of a request. -/
  | accept (request : Nat)
  /-- A part task has its response, pushes the part and saves the checkpoint. -/
  | record (run number : Nat) (eTag : String) (checksum : Option String) (saved : Bool)
  | join (run number : Nat)
  /-- A task or the join failed: the attempt returns, the other tasks are aborted. -/
  | fail (run : Nat)
  | crash
  | complete (run : Nat) (applied : Bool)
  /-- Others clear the row, or keep something else in it. -/
  | setRow (row : Option ResumeState)
  /-- The upload is aborted or swept. -/
  | close (id : UploadId)

section Machine

variable (src : Source) (key : String)

/-- Attempts follow one another; the tasks of earlier ones may linger. -/
def idle (w : World) : Bool := w.runs.all PartRun.finished

def createUpload (w : World) (dest : S3Dest) (partSize count : Nat) (saved : Bool) : World :=
  let token : S3ResumeToken :=
    { uploadId := w.nextId, key := key, partSize := partSize, totalSize := src.size,
      mtimeMs := src.mtimeMs, completed := [] }
  { w with
    nextId := w.nextId + 1
    partSizeOf := fun id => if id = w.nextId then partSize else w.partSizeOf id
    row := if saved then tokenRow src count token else w.row
    runs := w.runs ++ [startRun token count dest.multipart.maxConcurrent] }

def setRun (w : World) (index : Nat) (run : PartRun) : World :=
  { w with runs := w.runs.set index run }

/-- The spawn loop's next part, while fewer than `max_concurrent` tasks are resident. -/
def spawnNext (run : PartRun) : Option (Nat × PartRun) :=
  if run.finished ∨ max run.maxConcurrent 1 ≤ run.flying.length + run.recorded.length then none
  else
    match run.pending with
    | [] => none
    | number :: rest =>
        some (number, { run with pending := rest, flying := run.flying ++ [number] })

def acceptPart (w : World) (request : PartRequest) : World :=
  { w with
    accepted := fun id n =>
      if id = request.uploadId ∧ n = request.number then some request.body else w.accepted id n }

def recordRun (run : PartRun) (number : Nat) (eTag : String) (checksum : Option String) : PartRun :=
  { run with
    token := { run.token with completed := recordPart run.token.completed ⟨number, eTag, checksum⟩ }
    flying := run.flying.erase number
    recorded := run.recorded ++ [number] }

def step (w : World) : Event → Option World
  | .create dest saved =>
      match dest.plan src with
      | .single => none
      | .parts partSize count =>
          if idle w then some (createUpload src key w dest partSize count saved) else none
  | .resume dest =>
      match dest.plan src with
      | .single => none
      | .parts partSize count =>
          match reusable src key partSize w.row with
          | none => none
          | some token =>
              if idle w then
                some { w with runs := w.runs ++ [startRun token count dest.multipart.maxConcurrent] }
              else none
  | .spawn index =>
      match w.runs[index]? with
      | none => none
      | some run => (spawnNext run).map fun next =>
          { setRun w index next.2 with
            requests := w.requests ++
              [⟨run.token.uploadId, next.1, partBody src run.count run.token next.1⟩] }
  | .accept index =>
      match w.requests[index]? with
      | none => none
      | some request => if w.closed request.uploadId then none else some (acceptPart w request)
  | .record index number eTag checksum saved =>
      match w.runs[index]? with
      | none => none
      | some run =>
          if number ∈ run.flying ∧ w.accepted run.token.uploadId number ≠ none then
            let after := recordRun run number eTag checksum
            some { setRun w index after with
              row := if saved then tokenRow src run.count after.token else w.row }
          else none
  | .join index number =>
      match w.runs[index]? with
      | none => none
      | some run =>
          if number ∈ run.recorded then
            some (setRun w index { run with recorded := run.recorded.erase number })
          else none
  | .fail index =>
      match w.runs[index]? with
      | none => none
      | some run => some (setRun w index { run with finished := true })
  | .crash => some { w with runs := [] }
  | .complete index applied =>
      match w.runs[index]? with
      | none => none
      | some run =>
          if run.finished = false ∧ run.pending = [] ∧ run.flying = [] ∧ run.recorded = [] then
            some { setRun w index { run with finished := true } with
              calls := w.calls ++ [⟨run.token, run.count⟩]
              closed := fun id => w.closed id || (applied && id = run.token.uploadId) }
          else none
  | .setRow row => if row.bind Token.fromResume = none then some { w with row := row } else none
  | .close id => some { w with closed := fun other => w.closed other || other = id }

def run (w : World) : List Event → Option World
  | [] => some w
  | event :: rest => (step src key w event).bind fun after => run after rest

/-- The worlds of the runs that start without an upload of this file. -/
inductive Reached : World → Prop where
  | start (row : Option ResumeState) (foreign : row.bind Token.fromResume = none) :
      Reached (startWorld row)
  | step (w after : World) (event : Event) (reached : Reached w)
      (stepped : step src key w event = some after) : Reached after

/-! ## What every step keeps -/

/-- A token whose list is in order, within the plan, and of parts the service has accepted. -/
structure TokenGood (w : World) (token : S3ResumeToken) : Prop where
  positive : 0 < token.partSize
  size : token.totalSize = src.size
  mtime : token.mtimeMs = src.mtimeMs
  known : token.uploadId < w.nextId
  layout : w.partSizeOf token.uploadId = token.partSize
  ascends : (numbers token).Pairwise (· < ·)
  planned : ∀ n ∈ numbers token, 1 ≤ n ∧ n ≤ partCount src token
  accepted : ∀ n ∈ numbers token, w.accepted token.uploadId n ≠ none

/-- Every part of the plan is in the list or still to be recorded, and not both. -/
structure RunGood (w : World) (run : PartRun) : Prop where
  token : TokenGood src w run.token
  count : run.count = partCount src run.token
  once : (run.pending ++ run.flying).Nodup
  split : ∀ n, n ∈ run.pending ++ run.flying ↔
    1 ≤ n ∧ n ≤ partCount src run.token ∧ n ∉ numbers run.token

/-- A completion's list is the plan, and each part was accepted with its own bytes. -/
structure CallGood (w : World) (call : CompleteCall) : Prop where
  whole : numbers call.token = (List.range call.count).map (· + 1)
  count : call.count = partCount src call.token
  own : ∀ n ∈ numbers call.token,
    w.accepted call.token.uploadId n = some (partBytes src call.token.partSize n)

structure Sound (w : World) : Prop where
  requests : ∀ r ∈ w.requests, r.uploadId < w.nextId ∧
    r.body = partBytes src (w.partSizeOf r.uploadId) r.number
  accepted : ∀ id n bytes, w.accepted id n = some bytes →
    id < w.nextId ∧ bytes = partBytes src (w.partSizeOf id) n
  row : ∀ token, w.row.bind Token.fromResume = some token → TokenGood src w token
  runs : ∀ run ∈ w.runs, RunGood src w run
  calls : ∀ call ∈ w.calls, CallGood src w call

structure Grows (w after : World) : Prop where
  known : w.nextId ≤ after.nextId
  layout : ∀ id < w.nextId, after.partSizeOf id = w.partSizeOf id
  accepted : ∀ id n, w.accepted id n ≠ none → after.accepted id n ≠ none
  same : ∀ id n bytes, w.accepted id n = some bytes → after.accepted id n = some bytes

theorem token_good_grows (w after : World) (token : S3ResumeToken) (grows : Grows w after)
    (good : TokenGood src w token) : TokenGood src after token :=
  { good with
    known := Nat.lt_of_lt_of_le good.known grows.known
    layout := (grows.layout _ good.known).trans good.layout
    accepted := fun n member => grows.accepted _ n (good.accepted n member) }

theorem run_good_grows (w after : World) (run : PartRun) (grows : Grows w after)
    (good : RunGood src w run) : RunGood src after run :=
  { good with token := token_good_grows src w after run.token grows good.token }

theorem call_good_grows (w after : World) (call : CompleteCall) (grows : Grows w after)
    (good : CallGood src w call) : CallGood src after call :=
  { good with own := fun n member => grows.same _ n _ (good.own n member) }

theorem token_of_row (count : Nat) (token other : S3ResumeToken)
    (found : (tokenRow src count token).bind Token.fromResume = some other) : other = token := by
  simpa [tokenRow, Token.toResume, Token.fromResume, eq_comm] using found

theorem start_run_good (w : World) (token : S3ResumeToken) (maxConcurrent : Nat)
    (good : TokenGood src w token) :
    RunGood src w (startRun token (partCount src token) maxConcurrent) := by
  refine ⟨good, rfl, ?_, ?_⟩
  · simp only [startRun, List.append_nil]
    refine List.Nodup.filter _ (List.Nodup.map ?_ List.nodup_range)
    exact fun a b same => by simpa using same
  · intro n
    simp only [startRun, List.append_nil, missingParts, List.mem_filter, List.mem_map,
      List.mem_range, decide_eq_true_eq]
    constructor
    · rintro ⟨⟨index, below, rfl⟩, absent⟩
      exact ⟨by omega, by omega, by simpa [numbers] using absent⟩
    · rintro ⟨first, last, absent⟩
      exact ⟨⟨n - 1, by omega, by omega⟩, by simpa [numbers] using absent⟩

theorem mem_set_run (runs : List PartRun) (index : Nat) (run other : PartRun)
    (member : other ∈ runs.set index run) : other = run ∨ other ∈ runs := by
  rcases List.mem_or_eq_of_mem_set member with old | new
  · exact Or.inr old
  · exact Or.inl new

theorem sound_of_kept (w after : World) (sound : Sound src w)
    (service : after.nextId = w.nextId ∧ after.partSizeOf = w.partSizeOf ∧
      after.accepted = w.accepted)
    (requests : ∀ r ∈ after.requests, r.uploadId < w.nextId ∧
      r.body = partBytes src (w.partSizeOf r.uploadId) r.number)
    (row : ∀ token, after.row.bind Token.fromResume = some token → TokenGood src w token)
    (runs : ∀ run ∈ after.runs, RunGood src w run)
    (calls : ∀ call ∈ after.calls, CallGood src w call) : Sound src after := by
  obtain ⟨hnext, hsizes, haccepted⟩ := service
  have grows : Grows w after := by
    refine ⟨Nat.le_of_eq hnext.symm, fun id _ => by rw [hsizes], ?_, ?_⟩
    · exact fun id n there => by rw [haccepted]; exact there
    · exact fun id n bytes there => by rw [haccepted]; exact there
  refine ⟨?_, ?_, fun token found => token_good_grows src w after token grows (row token found),
    fun run member => run_good_grows src w after run grows (runs run member),
    fun call member => call_good_grows src w after call grows (calls call member)⟩
  · rw [hnext, hsizes]
    exact requests
  · rw [hnext, hsizes, haccepted]
    exact sound.accepted

theorem run_good_set (w : World) (index : Nat) (run : PartRun) (sound : Sound src w)
    (good : RunGood src w run) : ∀ other ∈ (setRun w index run).runs, RunGood src w other := by
  intro other member
  rcases mem_set_run w.runs index run other member with rfl | old
  · exact good
  · exact sound.runs other old

theorem sound_set_run (w : World) (index : Nat) (run : PartRun) (sound : Sound src w)
    (good : RunGood src w run) : Sound src (setRun w index run) :=
  sound_of_kept src w _ sound ⟨rfl, rfl, rfl⟩ sound.requests sound.row
    (run_good_set src w index run sound good) sound.calls

theorem sound_create (w : World) (dest : S3Dest) (partSize count : Nat) (saved : Bool)
    (plan : dest.plan src = .parts partSize count) (sound : Sound src w) :
    Sound src (createUpload src key w dest partSize count saved) := by
  obtain ⟨positive, rfl⟩ := s3_plan_parts dest src partSize count plan
  have grows : Grows w (createUpload src key w dest partSize (src.size ⌈/⌉ partSize) saved) := by
    refine ⟨Nat.le_succ _, ?_, fun _ _ there => there, fun _ _ _ there => there⟩
    intro id below
    simp only [createUpload]
    rw [if_neg (Nat.ne_of_lt below)]
  have created : ∀ token : S3ResumeToken,
      token = { uploadId := w.nextId, key := key, partSize := partSize, totalSize := src.size,
                mtimeMs := src.mtimeMs, completed := [] } →
      TokenGood src (createUpload src key w dest partSize (src.size ⌈/⌉ partSize) saved) token := by
    rintro token rfl
    refine ⟨positive, rfl, rfl, Nat.lt_succ_self _, ?_, List.Pairwise.nil, ?_, ?_⟩
    · simp [createUpload]
    · exact fun n member => by simp [numbers] at member
    · exact fun n member => by simp [numbers] at member
  refine ⟨?_, ?_, ?_, ?_, ?_⟩
  · intro r member
    obtain ⟨below, body⟩ := sound.requests r member
    exact ⟨Nat.lt_succ_of_lt below, by rw [grows.layout _ below]; exact body⟩
  · intro id n bytes there
    obtain ⟨below, same⟩ := sound.accepted id n bytes there
    exact ⟨Nat.lt_succ_of_lt below, by rw [grows.layout _ below]; exact same⟩
  · intro token found
    simp only [createUpload] at found
    split at found
    · exact created token (token_of_row src _ _ token found)
    · exact token_good_grows src w _ token grows (sound.row token found)
  · intro run member
    simp only [createUpload, List.mem_append, List.mem_singleton] at member
    rcases member with old | rfl
    · exact run_good_grows src w _ run grows (sound.runs run old)
    · exact start_run_good src _ _ dest.multipart.maxConcurrent (created _ rfl)
  · exact fun call member => call_good_grows src w _ call grows (sound.calls call member)

theorem sound_resume (w : World) (token : S3ResumeToken) (partSize count maxConcurrent : Nat)
    (usable : reusable src key partSize w.row = some token) (hcount : count = src.size ⌈/⌉ partSize)
    (sound : Sound src w) :
    Sound src { w with runs := w.runs ++ [startRun token count maxConcurrent] } := by
  obtain ⟨found, matched⟩ := Option.filter_eq_some_iff.mp usable
  simp only [Token.matchesSource, Bool.and_eq_true, decide_eq_true_eq] at matched
  refine sound_of_kept src w _ sound ⟨rfl, rfl, rfl⟩ sound.requests sound.row ?_ sound.calls
  intro run member
  rcases List.mem_append.mp member with old | new
  · exact sound.runs run old
  · rw [List.mem_singleton.mp new, hcount, ← matched.1.1.2]
    exact start_run_good src w token maxConcurrent (sound.row token found)

theorem spawn_next_good (w : World) (run after : PartRun) (number : Nat) (good : RunGood src w run)
    (next : spawnNext run = some (number, after)) :
    RunGood src w after ∧ after.token = run.token ∧ 1 ≤ number ∧
      number ≤ partCount src run.token := by
  unfold spawnNext at next
  split at next
  · simp at next
  · split at next
    · simp at next
    · rename_i first rest hpending
      obtain ⟨rfl, rfl⟩ := Prod.mk.inj (Option.some.inj next)
      have hperm : (rest ++ (run.flying ++ [first])).Perm (run.pending ++ run.flying) := by
        rw [hpending, ← List.append_assoc]
        exact List.perm_append_singleton first (rest ++ run.flying)
      have member : first ∈ run.pending ++ run.flying := by simp [hpending]
      obtain ⟨low, high, _⟩ := (good.split first).mp member
      refine ⟨⟨good.token, good.count, hperm.nodup_iff.mpr good.once, ?_⟩, rfl, low, high⟩
      exact fun n => hperm.mem_iff.trans (good.split n)

theorem sound_spawn (w : World) (index number : Nat) (run after : PartRun) (sound : Sound src w)
    (member : run ∈ w.runs) (next : spawnNext run = some (number, after)) :
    Sound src { setRun w index after with
      requests := w.requests ++
        [⟨run.token.uploadId, number, partBody src run.count run.token number⟩] } := by
  have good := sound.runs run member
  obtain ⟨hafter, _, low, high⟩ := spawn_next_good src w run after number good next
  refine sound_of_kept src w _ sound ⟨rfl, rfl, rfl⟩ ?_ sound.row
    (run_good_set src w index after sound hafter) sound.calls
  intro r there
  rcases List.mem_append.mp there with old | new
  · exact sound.requests r old
  · rw [List.mem_singleton.mp new]
    refine ⟨good.token.known, ?_⟩
    simp only
    rw [good.count, part_body_eq src run.token good.token.positive number low high]
    exact congrArg (partBytes src · number) good.token.layout.symm

theorem sound_accept (w : World) (request : PartRequest) (sound : Sound src w)
    (member : request ∈ w.requests) : Sound src (acceptPart w request) := by
  obtain ⟨known, body⟩ := sound.requests request member
  have grows : Grows w (acceptPart w request) := by
    refine ⟨Nat.le_refl _, fun _ _ => rfl, ?_, ?_⟩
    · intro id n there
      simp only [acceptPart]
      split
      · simp
      · exact there
    · intro id n bytes there
      simp only [acceptPart]
      split
      · rename_i same
        obtain ⟨rfl, rfl⟩ := same
        rw [body, (sound.accepted _ _ bytes there).2]
      · exact there
  refine ⟨sound.requests, ?_, ?_, ?_, ?_⟩
  · intro id n bytes there
    simp only [acceptPart] at there
    split at there
    · rename_i same
      obtain ⟨rfl, rfl⟩ := same
      exact ⟨known, by rw [← Option.some.inj there]; exact body⟩
    · exact sound.accepted id n bytes there
  · exact fun token found => token_good_grows src w _ token grows (sound.row token found)
  · exact fun run there => run_good_grows src w _ run grows (sound.runs run there)
  · exact fun call there => call_good_grows src w _ call grows (sound.calls call there)

theorem record_run_good (w : World) (run : PartRun) (number : Nat) (eTag : String)
    (checksum : Option String) (good : RunGood src w run) (member : number ∈ run.flying)
    (there : w.accepted run.token.uploadId number ≠ none) :
    RunGood src w (recordRun run number eTag checksum) := by
  have inside : number ∈ run.pending ++ run.flying := List.mem_append_right _ member
  obtain ⟨first, last, fresh⟩ := (good.split number).mp inside
  have hnumbers := record_part_numbers run.token ⟨number, eTag, checksum⟩
  have outside : number ∉ run.pending := by
    intro early
    exact (List.nodup_append.mp good.once).2.2 number early number member rfl
  have herase : run.pending ++ run.flying.erase number = (run.pending ++ run.flying).erase number :=
    (List.erase_append_right _ outside).symm
  refine ⟨?_, good.count, ?_, ?_⟩
  · refine ⟨good.token.positive, good.token.size, good.token.mtime, good.token.known,
      good.token.layout,
      record_part_ascends run.token ⟨number, eTag, checksum⟩ good.token.ascends fresh, ?_, ?_⟩
    · intro n hn
      rcases (hnumbers n).mp hn with rfl | old
      · exact ⟨first, last⟩
      · exact good.token.planned n old
    · intro n hn
      rcases (hnumbers n).mp hn with rfl | old
      · exact there
      · exact good.token.accepted n old
  · simp only [recordRun]
    rw [herase]
    exact good.once.erase number
  · intro n
    simp only [recordRun]
    rw [herase, good.once.mem_erase_iff, good.split n]
    change _ ↔ 1 ≤ n ∧ n ≤ partCount src run.token ∧
      n ∉ (recordPart run.token.completed ⟨number, eTag, checksum⟩).map S3CompletedPart.partNumber
    rw [hnumbers n, not_or]
    constructor
    · rintro ⟨other, low, high, absent⟩
      exact ⟨low, high, other, absent⟩
    · rintro ⟨low, high, other, absent⟩
      exact ⟨other, low, high, absent⟩

/-- When nothing is left to record, the list is the plan and every part has its own bytes. -/
theorem call_good_of_run (w : World) (run : PartRun) (sound : Sound src w) (good : RunGood src w run)
    (none_left : run.pending ++ run.flying = []) : CallGood src w ⟨run.token, run.count⟩ := by
  refine ⟨?_, good.count, ?_⟩
  · rw [good.count]
    refine List.Pairwise.eq_of_mem_iff good.token.ascends ?_ ?_
    · rw [List.pairwise_map]
      exact List.pairwise_lt_range.imp fun lt => by omega
    · intro n
      have hsplit := good.split n
      rw [none_left] at hsplit
      simp only [List.not_mem_nil, false_iff, not_and, not_not] at hsplit
      simp only [List.mem_map, List.mem_range]
      constructor
      · intro member
        have := good.token.planned n member
        exact ⟨n - 1, by omega, by omega⟩
      · rintro ⟨index, below, rfl⟩
        exact hsplit (by omega) (by omega)
  · intro n member
    obtain ⟨bytes, there⟩ := Option.ne_none_iff_exists'.mp (good.token.accepted n member)
    rw [there, (sound.accepted _ n bytes there).2, good.token.layout]

theorem sound_step (w after : World) (event : Event) (sound : Sound src w)
    (stepped : step src key w event = some after) : Sound src after := by
  cases event with
  | create dest saved =>
      simp only [step] at stepped
      split at stepped
      · simp at stepped
      · rename_i partSize count plan
        split at stepped
        · exact Option.some.inj stepped ▸ sound_create src key w dest partSize count saved plan sound
        · simp at stepped
  | resume dest =>
      simp only [step] at stepped
      split at stepped
      · simp at stepped
      · rename_i partSize count plan
        split at stepped
        · simp at stepped
        · rename_i token usable
          split at stepped
          · obtain ⟨_, hcount⟩ := s3_plan_parts dest src partSize count plan
            exact Option.some.inj stepped ▸ sound_resume src key w token partSize count _ usable
              hcount sound
          · simp at stepped
  | spawn index =>
      simp only [step] at stepped
      split at stepped
      · simp at stepped
      · rename_i run found
        obtain ⟨⟨number, next⟩, hnext, rfl⟩ := Option.map_eq_some_iff.mp stepped
        exact sound_spawn src w index number run next sound (List.mem_of_getElem? found) hnext
  | accept index =>
      simp only [step] at stepped
      split at stepped
      · simp at stepped
      · rename_i request found
        split at stepped
        · simp at stepped
        · exact Option.some.inj stepped ▸ sound_accept src w request sound
            (List.mem_of_getElem? found)
  | record index number eTag checksum saved =>
      simp only [step] at stepped
      split at stepped
      · simp at stepped
      · rename_i run found
        split at stepped
        · rename_i arrived
          have good := record_run_good src w run number eTag checksum
            (sound.runs run (List.mem_of_getElem? found)) arrived.1 arrived.2
          rw [← Option.some.inj stepped]
          refine sound_of_kept src w _ sound ⟨rfl, rfl, rfl⟩ sound.requests ?_
            (run_good_set src w index _ sound good) sound.calls
          intro token there
          simp only at there
          split at there
          · rw [token_of_row src run.count _ token there]
            exact good.token
          · exact sound.row token there
        · simp at stepped
  | join index number =>
      simp only [step] at stepped
      split at stepped
      · simp at stepped
      · rename_i run found
        split at stepped
        · have good := sound.runs run (List.mem_of_getElem? found)
          exact Option.some.inj stepped ▸ sound_set_run src w index _ sound
            ⟨good.token, good.count, good.once, good.split⟩
        · simp at stepped
  | fail index =>
      simp only [step] at stepped
      split at stepped
      · simp at stepped
      · rename_i run found
        have good := sound.runs run (List.mem_of_getElem? found)
        exact Option.some.inj stepped ▸ sound_set_run src w index _ sound
          ⟨good.token, good.count, good.once, good.split⟩
  | crash =>
      rw [← Option.some.inj stepped]
      exact sound_of_kept src w _ sound ⟨rfl, rfl, rfl⟩ sound.requests sound.row
        (fun run member => by simp at member) sound.calls
  | complete index applied =>
      simp only [step] at stepped
      split at stepped
      · simp at stepped
      · rename_i run found
        split at stepped
        · rename_i ended
          have good := sound.runs run (List.mem_of_getElem? found)
          have hover : RunGood src w { run with finished := true } :=
            ⟨good.token, good.count, good.once, good.split⟩
          rw [← Option.some.inj stepped]
          refine sound_of_kept src w _ sound ⟨rfl, rfl, rfl⟩ sound.requests sound.row
            (run_good_set src w index _ sound hover) ?_
          intro call there
          rcases List.mem_append.mp there with old | new
          · exact sound.calls call old
          · rw [List.mem_singleton.mp new]
            exact call_good_of_run src w run sound good (by rw [ended.2.1, ended.2.2.1]; rfl)
        · simp at stepped
  | setRow row =>
      simp only [step] at stepped
      split at stepped
      · rename_i foreign
        rw [← Option.some.inj stepped]
        refine sound_of_kept src w _ sound ⟨rfl, rfl, rfl⟩ sound.requests ?_ sound.runs sound.calls
        intro token there
        rw [foreign] at there
        simp at there
      · simp at stepped
  | close id =>
      rw [← Option.some.inj stepped]
      exact sound_of_kept src w _ sound ⟨rfl, rfl, rfl⟩ sound.requests sound.row sound.runs
        sound.calls

theorem sound_of_reached (w : World) (reached : Reached src key w) : Sound src w := by
  induction reached with
  | start row foreign =>
      refine ⟨by simp [startWorld], by simp [startWorld], ?_, by simp [startWorld],
        by simp [startWorld]⟩
      intro token there
      simp only [startWorld] at there
      rw [foreign] at there
      simp at there
  | step w after event _ stepped ih => exact sound_step src key w after event ih stepped

/-- In every run: each completion is called with the parts `1, 2, ..., num_parts` in this order,
each accepted under its upload with its own bytes of the source; and the checkpoint lists only
parts the service has accepted. -/
theorem completions_are_whole (w : World) (reached : Reached src key w) :
    (∀ call ∈ w.calls,
      call.token.completed.map S3CompletedPart.partNumber = (List.range call.count).map (· + 1) ∧
      call.count = src.size ⌈/⌉ call.token.partSize ∧
      ∀ part ∈ call.token.completed, w.accepted call.token.uploadId part.partNumber =
        some (partBytes src call.token.partSize part.partNumber)) ∧
    (∀ token, w.row.bind Token.fromResume = some token → ∀ part ∈ token.completed,
      w.accepted token.uploadId part.partNumber ≠ none) := by
  have sound := sound_of_reached src key w reached
  refine ⟨?_, ?_⟩
  · intro call member
    have good := sound.calls call member
    exact ⟨good.whole, good.count, fun part inside => good.own _ (List.mem_map_of_mem inside)⟩
  · intro token found part inside
    exact (sound.row token found).accepted _ (List.mem_map_of_mem inside)

theorem reached_run (events : List Event) (w after : World) (reached : Reached src key w)
    (ran : run src key w events = some after) : Reached src key after := by
  induction events generalizing w with
  | nil => exact Option.some.inj ran ▸ reached
  | cons event rest ih =>
      rw [run] at ran
      obtain ⟨middle, stepped, later⟩ := Option.bind_eq_some_iff.mp ran
      exact ih middle (.step w middle event reached stepped) later

end Machine

/-! ## Two parts -/

def sampleDest : S3Dest := ⟨"", ⟨0, 5 * mib, 4⟩, .crc32c⟩

/-- The upload is created and both tasks are spawned; the second is answered first, and then the
process stops. -/
def cutOff : List Event :=
  [.spawn 0, .spawn 0, .accept 1, .record 0 2 "e" none true, .crash]

/-- The upload goes on with the first part alone. -/
def goesOn : List Event :=
  [.spawn 0, .accept 2, .record 0 1 "f" none true, .join 0 1, .complete 0 true]

section TwoParts

variable (src : Source)

def createdWorld : World := createUpload src "a.txt" (startWorld none) sampleDest (5 * mib) 2 true

def crashedWorld : World := (run src "a.txt" (createdWorld src) cutOff).getD (createdWorld src)

def keptToken : S3ResumeToken := ⟨0, "a.txt", 5 * mib, src.size, src.mtimeMs, [⟨2, "e", none⟩]⟩

def resumedWorld : World :=
  { crashedWorld src with runs := (crashedWorld src).runs ++ [startRun (keptToken src) 2 4] }

def completedWorld : World := (run src "a.txt" (resumedWorld src) goesOn).getD (resumedWorld src)

theorem completed_reached (planned : sampleDest.plan src = .parts (5 * mib) 2) :
    Reached src "a.txt" (completedWorld src) := by
  have created : Reached src "a.txt" (createdWorld src) := by
    refine .step (startWorld none) _ (.create sampleDest true) (.start none rfl) ?_
    simp only [step, planned]
    rfl
  have crashed : Reached src "a.txt" (crashedWorld src) :=
    reached_run src "a.txt" cutOff (createdWorld src) _ created (by rfl)
  have kept : reusable src "a.txt" (5 * mib) (crashedWorld src).row = some (keptToken src) := by
    have row : (crashedWorld src).row = tokenRow src 2 (keptToken src) := by rfl
    rw [row]
    simp [reusable, tokenRow, Token.toResume, Token.fromResume, Token.matchesSource, keptToken]
  have resumed : Reached src "a.txt" (resumedWorld src) := by
    refine .step (crashedWorld src) _ (.resume sampleDest) crashed ?_
    simp only [step, planned, kept]
    rfl
  exact reached_run src "a.txt" goesOn (resumedWorld src) _ resumed (by rfl)

theorem completed_calls : (completedWorld src).calls.map (fun call =>
    call.token.completed.map S3CompletedPart.partNumber) = [[1, 2]] := by
  rfl

end TwoParts

/-- A file of one byte more than the smallest part. -/
def sampleFile : Source := ⟨List.replicate (5 * mib + 1) 0, 5, by
  rw [List.length_replicate]
  decide⟩

/-- The parts are completed in their order, and not in that of their answers. -/
theorem completions_are_whole_resumed :
    (completedWorld sampleFile).calls.map (fun call =>
        call.token.completed.map S3CompletedPart.partNumber) = [[1, 2]] ∧
      ∀ call ∈ (completedWorld sampleFile).calls,
        call.token.completed.map S3CompletedPart.partNumber = (List.range call.count).map (· + 1) := by
  have size : sampleFile.size = 5 * mib + 1 := List.length_replicate
  have planned : sampleDest.plan sampleFile = .parts (5 * mib) 2 := by
    rw [S3Dest.plan, size]
    decide
  have whole := completions_are_whole sampleFile "a.txt" (completedWorld sampleFile)
    (completed_reached sampleFile planned)
  exact ⟨completed_calls sampleFile, fun call member => (whole.1 call member).1⟩

end FileReplicator.S3PartTasks
