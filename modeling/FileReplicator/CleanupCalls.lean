import FileReplicator.Drains

/-!
# Who cleans up a row

A tick lists the failed rows first, then those whose cleanup is under way or due,
and cleans them up one by one, each from the copy that it has listed; then it
claims. An item cleans up its own row, from the copy that was claimed. No other
thread does either, as long as no statement is refused and no batch is aborted.
-/

namespace FileReplicator.CleanupCalls

open Domain DurableStore Effects SourceActions Retry Operations Worker Instance TickCalls Backlog
open Drains (Aside ofAside aside_perform aside_abort_each aside_attempt aside_action aside_quarantine)

variable (setup : Setup)

inductive Role where
  | aside
  /-- A tick without the lock. -/
  | outside
  /-- It has the lock; these rows were listed as failed. -/
  | promoting (rows : List String)
  /-- It has listed the rows whose cleanup is under way. -/
  | listing
  | cleaning
  /-- It claims, and holds a batch until it has started it. -/
  | claiming (held : List WorkItem)
  | item
  deriving DecidableEq

/-- How far a thread is with the completion action of a row, and the copy that it goes by. -/
inductive Stage where
  | free
  | marked (copy : WorkItem)
  | acting (copy : WorkItem) (handle : Nat)
  | acted (copy : WorkItem) (outcome : Except ReplError CleanupDone)
  deriving DecidableEq

def Stage.copy : Stage → Option WorkItem
  | .free => none
  | .marked copy | .acting copy _ | .acted copy _ => some copy

structure Notes where
  role : Role
  now : Int
  /-- The rows it is to clean up, as it has read them. -/
  copies : List WorkItem
  stage : Stage
  deriving DecidableEq

def start : Spec → Notes
  | .tick now _ _ _ => ⟨.outside, now, [], .free⟩
  | .item _ item now => ⟨.item, now, [item], .free⟩
  | _ => ⟨.aside, 0, [], .free⟩

def Notes.desk (n : Notes) : List WorkItem := n.stage.copy.toList ++ n.copies

/-- The states of a row that no cleanup has begun for. -/
def isYoung : ItemState → Bool
  | .cleanupPending | .cleanupFailed | .completed => false
  | _ => true

def learnMarked (n : Notes) : Notes :=
  match n.copies with
  | copy :: rest => { n with copies := rest, stage := .marked copy }
  | [] => n

def learnStarted (n : Notes) (handle : Nat) : Notes :=
  match n.stage with
  | .marked copy => { n with stage := .acting copy handle }
  | _ => n

def learnOutcome (n : Notes) (result : Except String (Except ReplError CleanupDone)) : Notes :=
  match n.stage with
  | .acting copy _ => { n with stage := .acted copy (joinOutcome result) }
  | _ => n

def learnList (n : Notes) (rows : List WorkItem) : ItemState → Notes
  | .failed => { n with role := .promoting (rows.map WorkItem.relpath) }
  | .cleanupPending => { n with role := .listing, copies := rows }
  | .cleanupFailed =>
      { n with
        role := .cleaning
        copies := n.copies ++ rows.filter fun item => item.nextAttemptAt ≤ n.now }
  | _ => n

def learn (n : Notes) : (operation : Op) → Ret operation → Notes
  | .lockTick, _ => { n with role := .promoting [] }
  | .unlockTick, _ => { n with role := .outside }
  | .store (.listByState state), .ok rows => learnList n rows state
  | .store (.claimReady _ _), .ok rows => { n with role := .claiming rows }
  | .spawnBatch _ _, _ => { n with role := .claiming [] }
  | .store (.setState _ .cleanupPending _), _ => learnMarked n
  | .store (.setState _ .completed _), _ => { n with stage := .free }
  | .store (.recordCleanupAttempt _ _ _ _ _), _ => { n with stage := .free }
  | .startAction _, handle => learnStarted n handle
  | .awaitAction _, result => learnOutcome n result
  | _, _ => n

/-! ## What is allowed -/

structure Notes.Idle (n : Notes) : Prop where
  copies : n.copies = []
  stage : n.stage = .free

def Role.claims : Role → Bool
  | .cleaning | .claiming _ => true
  | _ => false

def Role.cleans : Role → Bool
  | .cleaning | .item => true
  | _ => false

/-- The item is at its own row, whose cleanup it has not begun. -/
def Transfers (n : Notes) (relpath : String) (state : ItemState) : Prop :=
  n.role = .item ∧ n.stage = .free ∧ isYoung state = true ∧
    ∃ copy, n.copies = [copy] ∧ copy.relpath = relpath

def allowedState (n : Notes) (relpath : String) : ItemState → Prop
  | .cleanupPending =>
      n.role.cleans = true ∧ n.stage = .free ∧
        ∃ copy rest, n.copies = copy :: rest ∧ copy.relpath = relpath
  | .completed =>
      n.role.cleans = true ∧ ∃ copy done, n.stage = .acted copy (.ok done) ∧ copy.relpath = relpath
  | .ready => n.stage = .free ∧ ∃ rows, n.role = .promoting rows ∧ relpath ∈ rows
  | state => Transfers n relpath state

def allowedList (n : Notes) : ItemState → Prop
  | .failed => n.role = .promoting [] ∧ n.Idle
  | .cleanupPending => n.stage = .free ∧ ∃ rows, n.role = .promoting rows
  | .cleanupFailed => n.stage = .free ∧ n.role = .listing
  | _ => False

/-- A failure of the action is recorded with the gate that the copy's count and the tick's clock
give. -/
def Records (n : Notes) (relpath : String) (gate : Int) : Prop :=
  ∃ copy error jitter, n.stage = .acted copy (.error error) ∧ copy.relpath = relpath ∧
    gate = cleanupGate
      (setup.retry.decideCleanup error.isPermanent copy.cleanupAttempts n.now jitter)

def allowed (n : Notes) : Op → Prop
  | .unlockTick => n.Idle
  | .store (.upsertReady _ _ _ _) => n.role = .promoting [] ∧ n.Idle
  | .store (.listByState state) => allowedList n state
  | .store (.claimReady _ _) => n.role.claims = true ∧ n.Idle
  | .spawnBatch items at_ => n.role = .claiming items ∧ at_ = n.now
  | .store (.setState relpath state _) => allowedState n relpath state
  | .store (.rollUpItem relpath state _ _ _ _) => Transfers n relpath state
  | .store (.recordCleanupAttempt relpath _ state gate _) =>
      n.role.cleans = true ∧ state = .cleanupFailed ∧ Records setup n relpath gate
  | .startAction ctx =>
      n.role.cleans = true ∧ ∃ copy, n.stage = .marked copy ∧ copy.relpath = ctx.relpath
  | .awaitAction handle => n.role.cleans = true ∧ ∃ copy, n.stage = .acting copy handle
  | _ => True

/-- No statement is refused, and no batch is aborted. -/
def possible : (operation : Op) → Ret operation → Prop
  | .store _, .error _ => False
  | .abortBatch, _ => False
  | _, _ => True

def cleaning : Discipline Op Ret Notes := ⟨allowed setup, possible, learn⟩

/-- No action is left without its outcome recorded. -/
def Finished (n : Notes) : Prop := n.stage = .free

section Steps

variable (n : Notes)

theorem granted_keeps (operation : StoreOp)
    (post : Except ReplError (StoreRet operation) → Notes → Prop)
    (may : allowed setup n (.store operation))
    (holds : ∀ ret, post (.ok ret) (learn n (.store operation) (.ok ret))) :
    Keeps (cleaning setup) (statement operation).run n post := by
  refine ⟨may, fun ret possible => ?_⟩
  cases ret with
  | error e => exact possible.elim
  | ok ret => exact holds ret

theorem aside_keeps {α : Type} (program : Program α) (aside : Aside program) :
    Keeps (cleaning setup) program n fun _ after => after = n := by
  apply keeps_within (cleaning setup) _ program n _ aside
  intro operation is
  cases operation with
  | store operation => cases operation <;> first | exact ⟨trivial, fun _ _ => rfl⟩ | cases is
  | _ => first | exact ⟨trivial, fun _ _ => rfl⟩ | cases is

theorem checksum_keeps (relpath : String) (labels : List String) :
    Keeps (cleaning setup) (deliveredChecksum relpath labels) n fun _ after => after = n := by
  induction labels with
  | nil => exact rfl
  | cons label rest ih =>
      rw [deliveredChecksum]
      apply keeps_bind
      apply granted_keeps setup n (.loadResume relpath label)
      · exact trivial
      intro loaded
      split
      · exact ih
      · exact rfl

/-- The row is done with, whatever came of its action. -/
def Left (rest : List WorkItem) (result : Except ReplError ItemState) (after : Notes) : Prop :=
  after = { n with copies := rest, stage := .free } ∧ ∃ state, result = .ok state

theorem finish_completed_keeps (copy : WorkItem) (at_ : Int) (rest : List WorkItem)
    (done : CleanupDone) (cleans : n.role.cleans = true) (copies : n.copies = rest) (acted : n.stage = .acted copy (.ok done)) :
    Keeps (cleaning setup) (finishCompleted copy at_).run n (Left n rest) := by
  rw [finishCompleted]
  apply keeps_task_bind
  apply granted_keeps setup n (.setState _ _ _)
  · exact ⟨cleans, copy, done, acted, rfl⟩
  intro _
  apply keeps_task_bind
  apply keeps_always
  apply keeps_best_effort
  apply granted_keeps setup _ (.clearResumeAll _)
  · exact trivial
  intro _
  apply keeps_task_bind
  apply keeps_always
  apply keeps_best_effort
  apply granted_keeps setup _ (.clearDestStates _)
  · exact trivial
  intro _
  apply keeps_task_bind
  apply granted_keeps setup _ (.bumpStats _ _ _)
  · exact trivial
  intro _
  subst copies
  exact ⟨rfl, _, rfl⟩

theorem record_failure_keeps (copy : WorkItem) (rest : List WorkItem) (e : ReplError)
    (cleans : n.role.cleans = true) (copies : n.copies = rest) (acted : n.stage = .acted copy (.error e)) :
    Keeps (cleaning setup) (recordCleanupFailure setup copy e n.now).run n (Left n rest) := by
  rw [recordCleanupFailure]
  apply keeps_task_bind
  apply keeps_always
  refine ⟨trivial, fun jitter _ => ?_⟩
  apply keeps_task_bind
  apply granted_keeps setup n (.recordCleanupAttempt _ _ _ _ _)
  · exact ⟨cleans, rfl, copy, e, jitter, acted, rfl, rfl⟩
  intro _
  subst copies
  exact ⟨rfl, _, rfl⟩

theorem run_cleanup_keeps (copy : WorkItem) (rest : List WorkItem) (cleans : n.role.cleans = true)
    (first : n.copies = copy :: rest) (free : n.stage = .free) :
    Keeps (cleaning setup) (runCleanup setup copy n.now).run n (Left n rest) := by
  rw [runCleanup]
  apply keeps_task_bind
  apply granted_keeps setup n (.setState _ _ _)
  · exact ⟨cleans, free, copy, rest, first, rfl⟩
  intro _
  have marks : learn n (.store (.setState copy.relpath .cleanupPending n.now)) (.ok ()) =
      { n with copies := rest, stage := .marked copy } := by
    show learnMarked n = _
    rw [learnMarked, first]
  rw [marks]
  apply keeps_task_bind
  apply keeps_always
  apply keeps_mono _ _ _ _ _ (checksum_keeps setup _ copy.relpath setup.labels)
  rintro checksum _ rfl
  apply keeps_task_bind
  apply keeps_always
  refine ⟨⟨cleans, copy, rfl, rfl⟩, fun handle _ => ?_⟩
  apply keeps_task_bind
  apply keeps_always
  refine ⟨⟨cleans, copy, rfl⟩, fun result _ => ?_⟩
  show Keeps (cleaning setup) (settleCleanup setup copy n.now (joinOutcome result)).run
    { n with copies := rest, stage := .acted copy (joinOutcome result) } _
  cases joined : joinOutcome result with
  | ok done =>
      exact finish_completed_keeps setup
        { n with copies := rest, stage := .acted copy (.ok done) } copy n.now rest done cleans rfl rfl
  | error e =>
      exact record_failure_keeps setup
        { n with copies := rest, stage := .acted copy (.error e) } copy rest e cleans rfl rfl

theorem cleanup_each_keeps (copies : List WorkItem) (cleans : n.role.cleans = true)
    (listed : n.copies = copies) (free : n.stage = .free) :
    Keeps (cleaning setup) (cleanupEach setup n.now copies).run n fun _ after =>
      after = { n with copies := [] } := by
  induction copies generalizing n with
  | nil =>
      show n = { n with copies := [] }
      rw [← listed]
  | cons copy rest ih =>
      rw [cleanupEach]
      apply keeps_task_bind
      apply keeps_mono _ _ _ _ _ (run_cleanup_keeps setup n copy rest cleans listed free)
      rintro result _ ⟨rfl, state, rfl⟩
      apply keeps_mono _ _ _ _ _ (ih { n with copies := rest, stage := .free } cleans rfl rfl)
      rintro _ _ rfl
      rw [← free]

end Steps

/-! ## Ticks -/

section Ticks

variable (now : Int)

theorem enqueue_keeps (n : Notes) (candidates : List Candidate) (role : n.role = .promoting [])
    (idle : n.Idle) :
    Keeps (cleaning setup) (enqueueEach now candidates) n fun _ after => after = n := by
  induction candidates with
  | nil => exact rfl
  | cons c rest ih =>
      rw [enqueueEach]
      apply keeps_bind
      apply keeps_best_effort
      apply granted_keeps setup n (.upsertReady _ _ _ _)
      · exact ⟨role, idle⟩
      intro _
      exact ih

theorem promote_each_keeps (n : Notes) (names : List String) (rows : List WorkItem)
    (role : n.role = .promoting names) (free : n.stage = .free)
    (listed : ∀ item ∈ rows, item.relpath ∈ names) :
    Keeps (cleaning setup) (promoteEach now rows).run n fun _ after => after = n := by
  induction rows with
  | nil => exact rfl
  | cons item rest ih =>
      rw [promoteEach]
      apply keeps_task_bind
      apply granted_keeps setup n (.setState _ _ _)
      · exact ⟨free, names, role, listed item List.mem_cons_self⟩
      intro _
      exact ih fun other member => listed other (List.mem_cons_of_mem _ member)

theorem promote_keeps :
    Keeps (cleaning setup) (promoteDue now).run ⟨.promoting [], now, [], .free⟩ fun _ after =>
      ∃ names, after = ⟨.promoting names, now, [], .free⟩ := by
  rw [promoteDue]
  apply keeps_task_bind
  apply granted_keeps setup _ (.listByState .failed)
  · exact ⟨rfl, rfl, rfl⟩
  intro failed
  apply keeps_mono _ _ _ _ _ (promote_each_keeps setup now
    ⟨.promoting (failed.map WorkItem.relpath), now, [], .free⟩ _ _ rfl rfl ?_)
  · rintro _ _ rfl
    exact ⟨_, rfl⟩
  · exact fun item member => List.mem_map_of_mem (List.mem_filter.mp member).1

theorem drive_keeps (names : List String) :
    Keeps (cleaning setup) (driveCleanup setup now false).run ⟨.promoting names, now, [], .free⟩
      fun _ after => after = ⟨.cleaning, now, [], .free⟩ := by
  rw [driveCleanup]
  apply keeps_task_bind
  apply granted_keeps setup _ (.listByState .cleanupPending)
  · exact ⟨rfl, names, rfl⟩
  intro pending
  apply keeps_task_bind
  apply granted_keeps setup _ (.listByState .cleanupFailed)
  · exact ⟨rfl, rfl⟩
  intro failed
  exact cleanup_each_keeps setup ⟨.cleaning, now, pending ++ failed.filter fun item =>
    decide (item.nextAttemptAt ≤ now), .free⟩ _ rfl rfl rfl

/-- A tick that claims, and holds nothing that it has not started. -/
def Claims (n : Notes) : Prop := ∃ role, n = ⟨role, now, [], .free⟩ ∧ role.claims = true

theorem batch_keeps (batch : List WorkItem) :
    Keeps (cleaning setup) (runBatch batch now) ⟨.claiming batch, now, [], .free⟩ fun _ after =>
      Claims now after :=
  ⟨⟨rfl, rfl⟩, fun _ _ => ⟨trivial, fun _ _ => ⟨_, rfl, rfl⟩⟩⟩

theorem admitted_keeps (drain : Bool) (fuel : Nat) (n : Notes) (claims : Claims now n) :
    Keeps (cleaning setup) (runAdmitted setup drain now fuel) n fun _ after => Claims now after := by
  induction fuel generalizing n with
  | zero => exact claims
  | succ fuel ih =>
      obtain ⟨role, rfl, is⟩ := claims
      rw [runAdmitted]
      apply keeps_bind
      apply granted_keeps setup _ (.claimReady _ _)
      · exact ⟨is, rfl, rfl⟩
      intro batch
      cases batch with
      | nil => exact ⟨_, rfl, rfl⟩
      | cons item rest =>
          apply keeps_bind
          apply keeps_mono _ _ _ _ _ (batch_keeps setup now (item :: rest))
          intro _ after claims
          cases drain with
          | true => exact ih after claims
          | false => exact claims

theorem windowed_batch_keeps (batch : List WorkItem) (onClose : Operations.WindowClose) :
    Keeps (cleaning setup) (runBatchWindowed setup batch now onClose)
      ⟨.claiming batch, now, [], .free⟩ fun _ after => Claims now after := by
  refine ⟨⟨rfl, rfl⟩, fun _ _ => ⟨trivial, fun event _ => ?_⟩⟩
  cases event with
  | drained => exact ⟨_, rfl, rfl⟩
  | closed =>
      apply keeps_bind
      unfold closeBatch
      split
      · exact ⟨trivial, fun _ none => none.elim⟩
      · exact ⟨trivial, fun _ _ => ⟨_, rfl, rfl⟩⟩

theorem windowed_keeps (onClose : Operations.WindowClose) (fuel : Nat) (n : Notes)
    (claims : Claims now n) :
    Keeps (cleaning setup) (runWindowed setup onClose now fuel) n fun _ after => Claims now after := by
  induction fuel generalizing n with
  | zero => exact claims
  | succ fuel ih =>
      obtain ⟨role, rfl, is⟩ := claims
      rw [runWindowed]
      refine ⟨trivial, fun passed _ => ?_⟩
      cases passed with
      | true => exact ⟨role, rfl, is⟩
      | false =>
          show Keeps (cleaning setup) ((claimReady setup.perLimit now).run >>= _) _ _
          apply keeps_bind
          apply granted_keeps setup _ (.claimReady _ _)
          · exact ⟨is, rfl, rfl⟩
          intro batch
          cases batch with
          | nil => exact ⟨_, rfl, rfl⟩
          | cons item rest =>
              apply keeps_bind
              apply keeps_mono _ _ _ _ _ (windowed_batch_keeps setup now (item :: rest) onClose)
              intro closed after claims
              cases closed with
              | true => exact claims
              | false => exact ih after claims

theorem admission_keeps (fuel : Nat) (admission : Admission) (n : Notes) (claims : Claims now n) :
    Keeps (cleaning setup) (runAdmission setup fuel now admission) n fun _ after =>
      Claims now after := by
  cases admission with
  | all drain => exact admitted_keeps setup now drain fuel n claims
  | none => exact claims
  | windowed onClose => exact windowed_keeps setup now onClose fuel n claims

theorem tick_keeps (ignoreWindow : Bool) (fuel : Nat) :
    Keeps (cleaning setup) (runTick setup now ignoreWindow false fuel) ⟨.outside, now, [], .free⟩
      fun _ after => Finished after := by
  refine ⟨trivial, fun active _ => ?_⟩
  cases active with
  | false => exact rfl
  | true =>
      show Keeps (cleaning setup) (tickBody setup now ignoreWindow false fuel) _ _
      rw [tickBody]
      apply keeps_bind
      refine ⟨trivial, fun _ _ => ?_⟩
      apply keeps_bind
      refine ⟨trivial, fun ready _ => ?_⟩
      apply keeps_bind
      apply keeps_mono _ _ _ _ _ (enqueue_keeps setup now ⟨.promoting [], now, [], .free⟩ ready rfl
        ⟨rfl, rfl⟩)
      rintro _ _ rfl
      apply keeps_bind
      apply keeps_best_effort
      apply keeps_mono _ _ _ _ _ (promote_keeps setup now)
      rintro _ _ ⟨names, rfl⟩
      apply keeps_bind
      apply keeps_best_effort
      apply keeps_mono _ _ _ _ _ (drive_keeps setup now names)
      rintro _ _ rfl
      apply keeps_bind
      have admits : Keeps (cleaning setup) (admission ignoreWindow) ⟨.cleaning, now, [], .free⟩
          fun _ after => after = ⟨.cleaning, now, [], .free⟩ := by
        cases ignoreWindow with
        | true => exact rfl
        | false => exact ⟨trivial, fun _ _ => rfl⟩
      apply keeps_mono _ _ _ _ _ admits
      rintro admitted _ rfl
      apply keeps_bind
      apply keeps_mono _ _ _ _ _ (admission_keeps setup now fuel admitted _ ⟨.cleaning, rfl, rfl⟩)
      rintro _ _ ⟨role, rfl, is⟩
      exact ⟨⟨rfl, rfl⟩, fun _ _ => rfl⟩

end Ticks

/-! ## Items -/

section Items

variable (item : WorkItem) (now : Int)

abbrev atWork : Notes := ⟨.item, now, [item], .free⟩

theorem transfers_own (state : ItemState) (young : isYoung state = true) :
    Transfers (atWork item now) item.relpath state :=
  ⟨rfl, rfl, young, item, rfl, rfl⟩

theorem exhausted_keeps (text : String) (attempts : Nat) :
    Keeps (cleaning setup) (finishExhausted setup item text attempts now).run (atWork item now)
      fun _ after => after = atWork item now := by
  unfold finishExhausted
  split
  · apply keeps_task_bind
    apply granted_keeps setup _ (.setState _ _ _)
    · exact transfers_own item now .retained rfl
    intro _
    exact rfl
  · apply keeps_task_bind
    apply keeps_always
    refine ⟨trivial, fun handle _ => ?_⟩
    apply keeps_task_bind
    apply keeps_always
    refine ⟨trivial, fun result _ => ?_⟩
    apply keeps_task_bind
    apply granted_keeps setup _ (.setState _ _ _)
    · exact transfers_own item now .quarantined rfl
    intro _
    apply keeps_task_bind
    apply keeps_always
    exact ⟨trivial, fun _ _ => rfl⟩

theorem join_all_keeps (left : Nat) (tally : Tally) :
    Keeps (cleaning setup) (joinAll left tally).run (atWork item now) fun _ after =>
      after = atWork item now := by
  induction left generalizing tally with
  | zero => exact rfl
  | succ left ih =>
      rw [joinAll]
      apply keeps_task_bind
      apply keeps_always
      refine ⟨trivial, fun result _ => ?_⟩
      cases result with
      | none => exact rfl
      | some result =>
          apply keeps_task_bind
          show Keeps (cleaning setup) (Prog.done (joined result)) _ _
          cases joined result with
          | error e => exact rfl
          | ok outcome => exact ih _

theorem conclude_keeps (existing : String → Option DestState) (tally : Tally) :
    Keeps (cleaning setup) (conclude setup item existing now tally).run (atWork item now)
      fun _ after => Finished after := by
  unfold conclude
  split
  · rw [exhaustItem]
    apply keeps_task_bind
    apply keeps_always
    apply keeps_mono _ _ _ _ _ (aside_keeps setup _ _ (aside_abort_each item _))
    rintro _ _ rfl
    apply keeps_task_bind
    apply granted_keeps setup _ (.rollUpItem _ _ _ _ _ _)
    · exact transfers_own item now .exhausted rfl
    intro _
    apply keeps_task_bind
    have counts : Keeps (cleaning setup) (countFailure (newlyExhausted existing tally.giveups)).run
        (atWork item now) fun result after => after = atWork item now := by
      rw [countFailure]
      split
      · apply granted_keeps setup _ (.bumpStats _ _ _)
        · exact trivial
        intro _
        exact rfl
      · exact rfl
    apply keeps_mono _ _ _ _ _ counts
    rintro result _ rfl
    cases result with
    | error e => exact rfl
    | ok value =>
        apply keeps_mono _ _ _ _ _ (exhausted_keeps setup item now _ _)
        rintro _ _ rfl
        exact rfl
  · split
    · rw [completeItem]
      apply keeps_task_bind
      apply granted_keeps setup _ (.setState _ _ _)
      · exact transfers_own item now .verified rfl
      intro _
      apply keeps_mono _ _ _ _ _ (run_cleanup_keeps setup (atWork item now) item [] rfl rfl rfl)
      rintro _ _ ⟨rfl, _⟩
      exact rfl
    · rw [retryItem]
      apply keeps_task_bind
      apply granted_keeps setup _ (.rollUpItem _ _ _ _ _ _)
      · exact transfers_own item now .failed rfl
      intro _
      exact rfl

theorem item_keeps :
    Keeps (cleaning setup) (processItem setup item now) (atWork item now) fun _ after =>
      Finished after := by
  apply keeps_best_effort
  rw [runPipeline]
  apply keeps_task_bind
  apply granted_keeps setup _ (.destStates _)
  · exact trivial
  intro existing
  apply keeps_task_bind
  rw [fanOut]
  apply keeps_task_bind
  apply keeps_always
  refine ⟨trivial, fun _ _ => ?_⟩
  apply keeps_mono _ _ _ _ _ (join_all_keeps setup item now _ _)
  rintro result _ rfl
  cases result with
  | error e => exact rfl
  | ok tally => exact conclude_keeps setup item now existing tally

end Items

/-- The threads of a run in which nothing is recovered and nothing is forced. -/
def isOrdinary : Spec → Bool
  | .recover _ | .tick _ _ true _ => false
  | _ => true

theorem main_keeps (spec : Spec) (ordinary : isOrdinary spec = true) :
    Keeps (cleaning setup) (main setup spec) (start spec) fun _ after => Finished after := by
  have aside (program : Program Unit) (is : Aside program) :
      Keeps (cleaning setup) program ⟨.aside, 0, [], .free⟩ fun _ after => Finished after := by
    apply keeps_mono _ _ _ _ _ (aside_keeps setup _ program is)
    rintro _ _ rfl
    exact rfl
  cases spec with
  | recover now => cases ordinary
  | tick now ignoreWindow redriveCleanup fuel =>
      cases redriveCleanup with
      | true => cases ordinary
      | false => exact tick_keeps setup now ignoreWindow fuel
  | item owner item now => exact item_keeps setup item now
  | attempt owner ctx => exact aside _ (aside_attempt setup ctx)
  | action handle ctx => exact aside _ (aside_action setup ctx)
  | quarantine handle job => exact aside _ (aside_quarantine setup job)

end FileReplicator.CleanupCalls
