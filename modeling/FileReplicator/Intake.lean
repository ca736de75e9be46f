import FileReplicator.TickCalls

/-!
# What a tick does with what it finds

A tick passes every file that its scan reports to the store before it does
anything else, one after the other, and it starts every row that it claims.
-/

namespace FileReplicator.Intake

open Domain Effects Operations Worker Instance TickCalls

variable (setup : Setup) (now : Int)

structure Notes where
  /-- What the last scan has reported and the tick has not passed to the store yet. -/
  pending : List Candidate
  /-- Rows it has claimed and not started. -/
  held : List WorkItem
  deriving DecidableEq

def idle : Notes := ⟨[], []⟩

/-- The calls that take a file in or start a batch. -/
def starts : Op → Bool
  | .store (.upsertReady _ _ _ _) | .spawnBatch _ _ => true
  | _ => false

def allowed (n : Notes) (operation : Op) : Prop :=
  match n.pending, n.held with
  | c :: _, _ => operation = .store (.upsertReady c.relpath c.size c.mtimeMs now)
  | [], item :: rest => operation = .spawnBatch (item :: rest) now
  | [], [] => starts operation = false

def learn (n : Notes) : (operation : Op) → Ret operation → Notes
  | .discover, found => { n with pending := found }
  | .store (.upsertReady _ _ _ _), _ => { n with pending := n.pending.tail }
  | .store (.claimReady _ _), .ok rows => { n with held := rows }
  | .spawnBatch _ _, _ => { n with held := [] }
  | _, _ => n

def intake : Discipline Op Ret Notes := ⟨allowed now, fun _ _ => True, learn⟩

theorem keeps_call {α : Type} (operation : Op) (next : Ret operation → Program α) (after : Notes)
    (post : α → Notes → Prop) (other : starts operation = false)
    (learned : ∀ ret, learn idle operation ret = after)
    (later : ∀ ret, Keeps (intake now) (next ret) after post) :
    Keeps (intake now) (Prog.perform operation >>= next) idle post := by
  refine ⟨other, fun ret _ => ?_⟩
  show Keeps (intake now) (next ret) (learn idle operation ret) post
  rw [learned ret]
  exact later ret

theorem tidy_keeps {α : Type} (mine : String → Prop) (program : Program α) (tidy : Tidy mine program)
    (post : α → Notes → Prop) (holds : ∀ value, post value idle) :
    Keeps (intake now) program idle post := by
  have kept : Keeps (intake now) program idle fun _ after => after = idle := by
    apply keeps_within (intake now) _ program idle _ tidy
    rintro operation ⟨⟨plain, _⟩, leaves⟩
    cases operation with
    | store operation =>
        cases operation with
        | upsertReady relpath size mtimeMs now => cases leaves
        | claimReady limit now => cases plain
        | _ => exact ⟨rfl, fun _ _ => rfl⟩
    | discover => cases leaves
    | spawnBatch items now => cases plain
    | _ => exact ⟨rfl, fun _ _ => rfl⟩
  refine keeps_mono _ _ _ _ _ kept ?_
  rintro value _ rfl
  exact holds value

/-- Every reported file is passed on, in the order of the report, whatever becomes of the others. -/
theorem enqueue_keeps (found : List Candidate) :
    Keeps (intake now) (enqueueEach now found) ⟨found, []⟩ fun _ after => after = idle := by
  induction found with
  | nil => rfl
  | cons c rest ih =>
      rw [enqueueEach]
      apply keeps_bind
      apply keeps_best_effort
      exact ⟨rfl, fun _ _ => ih⟩

/-! ## Batches -/

theorem spawn_keeps {α : Type} (item : WorkItem) (rest : List WorkItem) (next : Unit → Program α)
    (post : α → Notes → Prop) (later : Keeps (intake now) (next ()) idle post) :
    Keeps (intake now) (spawnBatch (item :: rest) now >>= next) ⟨[], item :: rest⟩ post :=
  ⟨rfl, fun _ _ => later⟩

theorem claim_keeps {α : Type} (next : Except ReplError (List WorkItem) → Program α)
    (post : α → Notes → Prop) (refused : ∀ e, Keeps (intake now) (next (.error e)) idle post)
    (claimed : ∀ rows, Keeps (intake now) (next (.ok rows)) ⟨[], rows⟩ post) :
    Keeps (intake now) ((claimReady setup.perLimit now).run >>= next) idle post := by
  refine ⟨rfl, fun result _ => ?_⟩
  cases result with
  | error e => exact refused e
  | ok rows => exact claimed rows

theorem admitted_keeps (drain : Bool) (fuel : Nat) :
    Keeps (intake now) (runAdmitted setup drain now fuel) idle fun _ after => after = idle := by
  induction fuel with
  | zero => rfl
  | succ fuel ih =>
      rw [runAdmitted]
      apply claim_keeps
      · exact fun _ => rfl
      intro rows
      cases rows with
      | nil => rfl
      | cons item rest =>
          apply keeps_bind
          apply spawn_keeps
          apply keeps_call _ _ _ idle _ rfl fun _ => rfl
          intro _
          cases drain with
          | true => exact ih
          | false => rfl

theorem close_keeps (batch : List WorkItem) (onClose : WindowClose) (post : Unit → Notes → Prop)
    (holds : post () idle) :
    Keeps (intake now) (closeBatch setup batch now onClose) idle post := by
  unfold closeBatch
  split
  · apply keeps_call _ _ _ idle _ rfl fun _ => rfl
    intro _
    apply keeps_call _ _ _ idle _ rfl fun _ => rfl
    exact fun _ => tidy_keeps now _ _ (tidy_revert setup _ (fun _ => trivial) now _) _ fun _ => holds
  · apply keeps_call _ _ _ idle _ rfl fun _ => rfl
    exact fun _ => holds

theorem windowed_keeps (onClose : WindowClose) (fuel : Nat) :
    Keeps (intake now) (runWindowed setup onClose now fuel) idle fun _ after => after = idle := by
  induction fuel with
  | zero => rfl
  | succ fuel ih =>
      rw [runWindowed]
      apply keeps_call _ _ _ idle _ rfl fun _ => rfl
      intro passed
      cases passed with
      | true => rfl
      | false =>
          apply claim_keeps
          · exact fun _ => rfl
          intro rows
          cases rows with
          | nil => rfl
          | cons item rest =>
              apply keeps_bind
              rw [runBatchWindowed]
              apply spawn_keeps
              apply keeps_call _ _ _ idle _ rfl fun _ => rfl
              intro event
              cases event with
              | drained => exact ih
              | closed =>
                  apply keeps_bind
                  exact close_keeps setup now _ onClose _ rfl

theorem admission_keeps (fuel : Nat) (admission : Admission) :
    Keeps (intake now) (runAdmission setup fuel now admission) idle fun _ after => after = idle := by
  cases admission with
  | all drain => exact admitted_keeps setup now drain fuel
  | none => rfl
  | windowed onClose => exact windowed_keeps setup now onClose fuel

theorem tick_keeps (ignoreWindow redriveCleanup : Bool) (fuel : Nat) :
    Keeps (intake now) (runTick setup now ignoreWindow redriveCleanup fuel) idle
      fun _ after => after = idle := by
  rw [runTick]
  apply keeps_call _ _ _ idle _ rfl fun _ => rfl
  intro active
  cases active with
  | false => rfl
  | true =>
      rw [if_pos rfl, tickBody]
      apply keeps_call _ _ _ idle _ rfl fun _ => rfl
      intro _
      refine ⟨rfl, fun ready _ => ?_⟩
      show Keeps (intake now) (enqueueEach now ready >>= _) ⟨ready, []⟩ _
      apply keeps_bind
      apply keeps_mono _ _ _ _ _ (enqueue_keeps now ready)
      rintro _ _ rfl
      apply keeps_bind
      apply tidy_keeps now (fun _ => True) _
        (within_best_effort _ _ (tidy_promote _ (fun _ => trivial) now))
      intro _
      apply keeps_bind
      apply tidy_keeps now (fun _ => True) _
        (within_best_effort _ _ (tidy_drive setup _ (fun _ => trivial) now redriveCleanup))
      intro _
      apply keeps_bind
      apply tidy_keeps now (fun _ => True) _ (tidy_admission _ ignoreWindow)
      intro admitted
      apply keeps_bind
      apply keeps_mono _ _ _ _ _ (admission_keeps setup now fuel admitted)
      rintro _ _ rfl
      exact ⟨rfl, fun _ _ => rfl⟩

end FileReplicator.Intake
