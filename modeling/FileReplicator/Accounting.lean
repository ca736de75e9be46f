import FileReplicator.Counting
import FileReplicator.Runs
import FileReplicator.Steadiness

/-!
# What the statistics say

A completion is counted after its state is written, in a statement of its own. In
between the process may stop or the statement be refused; so the statistic may fall
behind the completions, by as many as were lost this way, and is never ahead of
them.
-/

namespace FileReplicator.Accounting

open Domain Columns DurableStore Effects FileTree SourceActions Operations Worker Interleaving Instance
open Steadiness Counting

variable (setup : Setup)

inductive Due where
  | nothing
  | completion
  | exhaustion
  /-- It never counts. -/
  | never
  deriving DecidableEq

def learn : Due → (operation : Op) → Ret operation → Due
  | .never, _, _ => .never
  | due, .store (.clearResumeAll _), _ => due
  | due, .store (.clearDestStates _), _ => due
  | _, .store (.setState _ .completed _), .ok _ => .completion
  | _, .store (.rollUpItem _ .exhausted _ _ _ _), .ok _ => .exhaustion
  | _, _, _ => .nothing

def allowed (due : Due) : Op → Prop
  | .store (.clearResumeAll _) | .store (.clearDestStates _) => True
  | .store (.setState _ state _) => due ≠ .completion ∧ (due = .never → state ≠ .completed)
  | .store (.bumpStats replicated failed bytes) =>
      (due = .completion ∧ replicated = 1 ∧ failed = 0) ∨
        (due = .exhaustion ∧ replicated = 0 ∧ failed = 1 ∧ bytes = 0)
  | _ => due ≠ .completion

def counting : Discipline Op Ret Due := ⟨allowed, fun _ _ => True, learn⟩

def countsNothing : Spec → Bool
  | .attempt _ _ | .action _ _ | .quarantine _ _ => true
  | _ => false

def start (spec : Spec) : Due := if countsNothing spec then .never else .nothing

def books : Machine Op Ret World Spec Due Answer Event :=
  machine setup counting (fun due => due ≠ .completion) start

/-! ## Every thread counts what it completes -/

def isPlain : Op → Bool
  | .store (.setState _ state _) => state ≠ .completed
  | .store (.bumpStats _ _ _) => false
  | _ => true

def Settled (due : Due) : Prop := due ≠ .completion ∧ due ≠ .never

theorem allowed_plain (due : Due) (operation : Op) (plain : isPlain operation = true)
    (settled : due ≠ .completion) : allowed due operation := by
  cases operation with
  | store operation =>
      cases operation with
      | setState relpath state now => exact ⟨settled, fun _ => of_decide_eq_true plain⟩
      | bumpStats replicated failed bytes => cases plain
      | clearResumeAll relpath => exact trivial
      | clearDestStates relpath => exact trivial
      | _ => exact settled
  | _ => exact settled

theorem learn_plain (due : Due) (operation : Op) (ret : Ret operation)
    (plain : isPlain operation = true) (settled : Settled due) : Settled (learn due operation ret) := by
  unfold learn
  split
  · exact settled
  · exact settled
  · exact settled
  · cases plain
  · exact ⟨Due.noConfusion, Due.noConfusion⟩
  · exact ⟨Due.noConfusion, Due.noConfusion⟩

abbrev Settles {α : Type} (program : Program α) : Prop := Steady counting Settled program

theorem plain_settled (operation : Op) (plain : isPlain operation = true) :
    Plain counting Settled operation := fun due settled =>
  ⟨allowed_plain due operation plain settled.1, fun ret _ => learn_plain due operation ret plain settled⟩

theorem settles_call (operation : Op) (plain : isPlain operation = true) :
    Settles (Prog.perform operation) :=
  steady_perform _ _ operation (plain_settled operation plain)

theorem settles_statement (operation : StoreOp) (plain : isPlain (.store operation) = true) :
    Settles (statement operation).run :=
  settles_call (.store operation) plain

theorem learn_completed (due : Due) (settled : Settled due) (relpath : String) (now : Int)
    (answer : Except ReplError Unit) :
    learn due (.store (.setState relpath .completed now)) answer =
      if answer.isOk then .completion else .nothing := by
  cases due with
  | never => exact absurd rfl settled.2
  | _ => cases answer <;> rfl

theorem learn_exhausted (due : Due) (settled : Settled due) (relpath : String) (attempts : Nat)
    (gate : Int) (error : Option String) (now : Int) (answer : Except ReplError Unit) :
    learn due (.store (.rollUpItem relpath .exhausted attempts gate error now)) answer =
      if answer.isOk then .exhaustion else .nothing := by
  cases due with
  | never => exact absurd rfl settled.2
  | _ => cases answer <;> rfl

theorem settled_nothing : Settled .nothing := ⟨Due.noConfusion, Due.noConfusion⟩

theorem settled_exhaustion : Settled .exhaustion := ⟨Due.noConfusion, Due.noConfusion⟩

theorem settles_completed (item : WorkItem) (now : Int) : Settles (finishCompleted item now).run := by
  intro due settled
  apply keeps_task_bind
  refine ⟨⟨settled.1, fun never => absurd never settled.2⟩, fun done _ => ?_⟩
  have left := learn_completed due settled item.relpath now done
  change Keeps counting (Prog.done done) (learn due _ done) _
  rw [left]
  cases done with
  | error e => exact settled_nothing
  | ok done =>
      show Keeps counting _ Due.completion _
      apply keeps_task_bind
      apply keeps_always
      apply keeps_best_effort
      refine ⟨trivial, fun cleared _ => ?_⟩
      apply keeps_task_bind
      apply keeps_always
      apply keeps_best_effort
      refine ⟨trivial, fun forgotten _ => ?_⟩
      apply keeps_task_bind
      refine ⟨Or.inl ⟨rfl, rfl, rfl⟩, fun counted _ => ?_⟩
      cases counted with
      | error e => exact settled_nothing
      | ok counted => exact settled_nothing

theorem settles_checksum (relpath : String) (labels : List String) :
    Settles (deliveredChecksum relpath labels) := by
  induction labels with
  | nil => exact steady_return _ _ _
  | cons label rest ih =>
      apply steady_bind
      · exact settles_statement _ rfl
      intro loaded
      split
      · exact ih
      · exact steady_return _ _ _

theorem settles_cleanup (item : WorkItem) (now : Int) : Settles (runCleanup setup item now).run := by
  apply steady_task_bind
  · exact settles_statement _ rfl
  intro _
  apply steady_task_bind
  · exact steady_always _ _ _ (settles_checksum _ _)
  intro checksum
  apply steady_task_bind
  · exact steady_always _ _ _ (settles_call _ rfl)
  intro handle
  apply steady_task_bind
  · exact steady_always _ _ _ (settles_call _ rfl)
  intro outcome
  cases joinOutcome outcome with
  | ok done => exact settles_completed item now
  | error e =>
      apply steady_task_bind
      · exact steady_always _ _ _ (settles_call _ rfl)
      intro jitter
      apply steady_task_bind
      · exact settles_statement _ rfl
      · exact fun _ => steady_return _ _ _

theorem settles_cleanup_each (now : Int) (rows : List WorkItem) :
    Settles (cleanupEach setup now rows).run := by
  induction rows with
  | nil => exact steady_return _ _ _
  | cons item rest ih => exact steady_task_bind _ _ _ _ (settles_cleanup setup item now) fun _ => ih

theorem settles_exhausted (item : WorkItem) (lastError : String) (attempts : Nat) (now : Int) :
    Settles (finishExhausted setup item lastError attempts now).run := by
  unfold finishExhausted
  split
  · apply steady_task_bind
    · exact settles_statement _ rfl
    · exact fun _ => steady_return _ _ _
  · apply steady_task_bind
    · exact steady_always _ _ _ (settles_call _ rfl)
    intro handle
    apply steady_task_bind
    · exact steady_always _ _ _ (settles_call _ rfl)
    intro joined
    apply steady_task_bind
    · exact settles_statement _ rfl
    intro _
    apply steady_task_bind
    · exact steady_always _ _ _ (settles_call _ rfl)
    · exact fun _ => steady_return _ _ _

theorem settles_exhaust_each (now : Int) (rows : List WorkItem) :
    Settles (exhaustEach setup now rows).run := by
  induction rows with
  | nil => exact steady_return _ _ _
  | cons item rest ih =>
      exact steady_task_bind _ _ _ _ (settles_exhausted setup item _ _ now) fun _ => ih

theorem settles_promote_each (now : Int) (rows : List WorkItem) : Settles (promoteEach now rows).run := by
  induction rows with
  | nil => exact steady_return _ _ _
  | cons item rest ih => exact steady_task_bind _ _ _ _ (settles_statement _ rfl) fun _ => ih

theorem settles_abort_each (item : WorkItem) (labels : List String) :
    Settles (abortEach item labels) := by
  induction labels with
  | nil => exact steady_return _ _ _
  | cons label rest ih =>
      refine steady_bind _ _ _ _ ?_ fun _ => ih
      apply steady_bind
      · exact settles_statement _ rfl
      intro loaded
      apply steady_bind
      · unfold abortLoaded
        split
        · exact steady_best_effort _ _ _ (settles_call _ rfl)
        · exact steady_return _ _ _
      · exact fun _ => steady_best_effort _ _ _ (settles_statement _ rfl)

theorem settles_join (left : Nat) (tally : Tally) : Settles (joinAll left tally).run := by
  induction left generalizing tally with
  | zero => exact steady_return _ _ _
  | succ left ih =>
      apply steady_task_bind
      · exact steady_always _ _ _ (settles_call _ rfl)
      intro result
      cases result with
      | none => exact steady_return _ _ _
      | some result =>
          apply steady_task_bind
          · exact steady_return _ _ _
          · exact fun outcome => ih _

theorem settles_exhaust (item : WorkItem) (existing : String → Option DestState) (now : Int)
    (tally : Tally) : Settles (exhaustItem setup item existing now tally).run := by
  apply steady_task_bind
  · exact steady_always _ _ _ (settles_abort_each _ _)
  intro _ due settled
  apply keeps_task_bind
  refine ⟨settled.1, fun rolled _ => ?_⟩
  have left := learn_exhausted due settled item.relpath (maxAttempts tally.giveups) now
    (some (giveUpText tally.giveups)) now rolled
  change Keeps counting (Prog.done rolled) (learn due _ rolled) _
  rw [left]
  cases rolled with
  | error e => exact settled_nothing
  | ok rolled =>
      show Keeps counting _ Due.exhaustion _
      apply keeps_task_bind
      have counted : Keeps counting (countFailure (newlyExhausted existing tally.giveups)).run
          Due.exhaustion fun _ after => Settled after := by
        unfold countFailure
        split
        · refine ⟨Or.inr ⟨rfl, rfl, rfl, rfl⟩, fun counted _ => ?_⟩
          cases counted with
          | error e => exact settled_nothing
          | ok counted => exact settled_nothing
        · exact settled_exhaustion
      apply keeps_mono _ _ _ _ _ counted
      intro result after still
      cases result with
      | error e => exact still
      | ok counted => exact settles_exhausted setup item _ _ now after still

theorem settles_item (item : WorkItem) (now : Int) : Settles (processItem setup item now) := by
  apply steady_best_effort
  apply steady_task_bind
  · exact settles_statement _ rfl
  intro existing
  apply steady_task_bind
  · apply steady_task_bind
    · exact steady_always _ _ _ (settles_call _ rfl)
    · exact fun _ => settles_join _ _
  intro tally
  simp only [conclude]
  split
  · exact settles_exhaust setup item existing now tally
  · split
    · apply steady_task_bind
      · exact settles_statement _ rfl
      · exact fun _ => settles_cleanup setup item now
    · apply steady_task_bind
      · exact settles_statement _ rfl
      · exact fun _ => steady_return _ _ _

theorem settles_reverify_each (it : WorkItem) (labels : List String) :
    Settles (reverifyEach it labels).run := by
  induction labels with
  | nil => exact steady_return _ _ _
  | cons label rest ih =>
      apply steady_task_bind
      · apply steady_task_bind
        · exact settles_statement _ rfl
        intro resume
        apply steady_task_bind
        · exact steady_always _ _ _ (settles_call _ rfl)
        intro verdict
        cases verdict with
        | ok passed =>
            apply steady_task_bind
            · exact settles_statement _ rfl
            · exact fun _ => steady_return _ _ _
        | error e =>
            apply steady_task_bind
            · exact settles_statement _ rfl
            intro _
            apply steady_task_bind
            · exact steady_always _ _ _ (steady_best_effort _ _ _ (settles_statement _ rfl))
            · exact fun _ => steady_return _ _ _
      intro ok
      apply steady_task_bind
      · exact ih
      · exact fun _ => steady_return _ _ _

theorem settles_recover_verified (it : WorkItem) (now : Int) :
    Settles (recoverVerified setup it now).run := by
  apply steady_task_bind
  · exact settles_reverify_each it setup.labels
  intro allOk
  cases allOk with
  | true =>
      apply steady_task_bind
      · exact settles_cleanup setup it now
      · exact fun _ => steady_return _ _ _
  | false => exact settles_statement _ rfl

theorem settles_recover_one (now : Int) (it : WorkItem) : Settles (recoverOne setup now it).run := by
  unfold recoverOne
  split
  · exact settles_recover_verified setup it now
  · apply steady_task_bind
    · exact settles_cleanup setup it now
    · exact fun _ => steady_return _ _ _
  · apply steady_task_bind
    · apply steady_task_bind
      · exact settles_statement _ rfl
      intro existing
      apply steady_task_bind
      · exact settles_reverify_each it _
      · exact fun _ => steady_return _ _ _
    · exact fun _ => settles_statement _ rfl
  · exact steady_return _ _ _

theorem settles_recover (now : Int) : Settles (bestEffort (recover setup now)) := by
  have each : ∀ rows, Settles (recoverEach setup now rows).run := by
    intro rows
    induction rows with
    | nil => exact steady_return _ _ _
    | cons it rest ih =>
        exact steady_task_bind _ _ _ _ (settles_recover_one setup now it) fun _ => ih
  apply steady_best_effort
  apply steady_task_bind
  · exact settles_statement _ rfl
  intro rows
  apply steady_task_bind
  · exact each rows
  intro _
  apply steady_task_bind
  · exact settles_statement _ rfl
  · exact fun left => settles_exhaust_each setup now left

/-! Ticks. -/

theorem settles_enqueue (now : Int) (candidates : List Candidate) :
    Settles (enqueueEach now candidates) := by
  induction candidates with
  | nil => exact steady_return _ _ _
  | cons c rest ih =>
      exact steady_bind _ _ _ _ (steady_best_effort _ _ _ (settles_statement _ rfl)) fun _ => ih

theorem settles_pause_revert (now : Int) (relpaths : List String) :
    Settles (pauseRevert setup now relpaths) := by
  induction relpaths with
  | nil => exact steady_return _ _ _
  | cons relpath rest ih =>
      apply steady_bind
      · exact settles_statement _ rfl
      intro loaded
      refine steady_bind _ _ _ _ ?_ fun _ => ih
      unfold revertLoaded
      split
      · unfold revertRow
        split
        · exact steady_best_effort _ _ _ (settles_statement _ rfl)
        · exact steady_best_effort _ _ _ (settles_recover_verified setup _ now)
        · exact steady_best_effort _ _ _ (settles_cleanup setup _ now)
        · exact steady_return _ _ _
      · exact steady_return _ _ _

theorem settles_admitted (drain : Bool) (now : Int) (fuel : Nat) :
    Settles (runAdmitted setup drain now fuel) := by
  induction fuel with
  | zero => exact steady_return _ _ _
  | succ fuel ih =>
      apply steady_bind
      · exact settles_statement _ rfl
      intro claimed
      split
      · exact steady_return _ _ _
      · exact steady_return _ _ _
      · apply steady_bind
        · apply steady_bind
          · exact settles_call _ rfl
          · exact fun _ => steady_bind _ _ _ _ (settles_call _ rfl) fun _ => steady_return _ _ _
        intro _
        cases drain with
        | true => exact ih
        | false => exact steady_return _ _ _

theorem settles_close (batch : List WorkItem) (now : Int) (onClose : WindowClose) :
    Settles (closeBatch setup batch now onClose) := by
  unfold closeBatch
  split
  · apply steady_bind
    · exact settles_call _ rfl
    · exact fun _ => steady_bind _ _ _ _ (settles_call _ rfl) fun _ => settles_pause_revert setup now _
  · exact steady_bind _ _ _ _ (settles_call _ rfl) fun _ => steady_return _ _ _

theorem settles_windowed (onClose : WindowClose) (now : Int) (fuel : Nat) :
    Settles (runWindowed setup onClose now fuel) := by
  induction fuel with
  | zero => exact steady_return _ _ _
  | succ fuel ih =>
      rw [runWindowed]
      apply steady_bind
      · exact settles_call _ rfl
      intro passed
      cases passed with
      | true => exact steady_return _ _ _
      | false =>
          apply steady_bind
          · exact settles_statement _ rfl
          intro claimed
          split
          · exact steady_return _ _ _
          · exact steady_return _ _ _
          · rename_i batch _
            apply steady_bind
            · apply steady_bind
              · exact settles_call _ rfl
              intro _
              apply steady_bind
              · exact settles_call _ rfl
              intro event
              cases event with
              | drained => exact steady_return _ _ _
              | closed =>
                  exact steady_bind _ _ _ _ (settles_close setup batch now onClose)
                    fun _ => steady_return _ _ _
            intro closed
            cases closed with
            | true => exact steady_return _ _ _
            | false => exact ih

theorem settles_tick (now : Int) (ignoreWindow redriveCleanup : Bool) (fuel : Nat) :
    Settles (runTick setup now ignoreWindow redriveCleanup fuel) := by
  apply steady_bind
  · exact settles_call _ rfl
  intro active
  cases active with
  | false => exact steady_return _ _ _
  | true =>
      refine steady_bind _ _ _ _ (settles_call _ rfl) fun _ => ?_
      refine steady_bind _ _ _ _ (settles_call _ rfl) fun ready => ?_
      refine steady_bind _ _ _ _ (settles_enqueue now ready) fun _ => ?_
      apply steady_bind
      · apply steady_best_effort
        exact steady_task_bind _ _ _ _ (settles_statement _ rfl) fun failed =>
          settles_promote_each now _
      intro _
      apply steady_bind
      · apply steady_best_effort
        refine steady_task_bind _ _ _ _ (settles_statement _ rfl) fun pending => ?_
        exact steady_task_bind _ _ _ _ (settles_statement _ rfl) fun failed =>
          settles_cleanup_each setup now _
      intro _
      apply steady_bind
      · cases ignoreWindow with
        | true => exact steady_return _ _ _
        | false => exact settles_call _ rfl
      intro admitted
      apply steady_bind
      · cases admitted with
        | all drain => exact settles_admitted setup drain now fuel
        | none => exact steady_return _ _ _
        | windowed onClose => exact settles_windowed setup onClose now fuel
      · exact fun _ => settles_call _ rfl

/-! Threads that count nothing. -/

abbrev Idle {α : Type} (program : Program α) : Prop :=
  Within (fun operation => isPlain operation = true) program

theorem idle_statement (operation : StoreOp) (plain : isPlain (.store operation) = true) :
    Idle (statement operation).run :=
  within_perform _ (Op.store operation) plain

theorem idle_abort (item : WorkItem) (label : String) : Idle (abortAndClearResume item label) := by
  apply within_bind
  · exact idle_statement _ rfl
  intro loaded
  apply within_bind
  · unfold abortLoaded
    split
    · exact within_best_effort _ _ (within_perform _ (Op.abort _ _ _) rfl)
    · exact trivial
  · exact fun _ => within_best_effort _ _ (idle_statement _ rfl)

theorem idle_attempt (ctx : AttemptCtx) : Idle (runAttempt setup ctx) := by
  refine within_bind _ _ _ ?_ fun result => within_perform _ (Op.endAttempt result) rfl
  apply within_task_bind
  · exact idle_statement _ rfl
  intro resume
  apply within_task_bind
  · apply within_always
    apply within_task_bind
    · exact within_perform _ (Op.deliver _ _ _) rfl
    · exact fun _ => within_task_bind _ _ _ (within_perform _ (Op.verify _ _ _ _) rfl) fun _ => trivial
  intro outcome
  cases outcome with
  | ok delivered =>
      apply within_task_bind
      · exact within_always _ _ (within_best_effort _ _ (idle_statement _ rfl))
      · exact fun _ => within_task_bind _ _ _ (idle_statement _ rfl) fun _ => trivial
  | error e =>
      apply within_task_bind
      · exact within_always _ _ (within_perform _ Op.draw rfl)
      intro jitter
      simp only
      split
      · exact within_task_bind _ _ _ (idle_statement _ rfl) fun _ => trivial
      · apply within_task_bind
        · exact idle_statement _ rfl
        · exact fun _ =>
            within_task_bind _ _ _ (within_always _ _ (idle_abort _ _)) fun _ => trivial

theorem idle_disk {α : Type} (program : FsProg α) : Idle (onDisk program) := by
  induction program with
  | done value => exact trivial
  | call operation next ih => exact ⟨rfl, ih⟩

theorem never_keeps {α : Type} (program : Program α) (idle : Idle program) :
    Keeps counting program .never fun _ due => due ≠ .completion := by
  have never : Steady counting (fun due => due = .never) program := by
    refine steady_within _ _ _ program (fun operation plain due same => ?_) idle
    subst same
    exact ⟨allowed_plain .never operation plain Due.noConfusion, fun _ _ => rfl⟩
  refine keeps_mono _ _ _ _ _ (never .never rfl) ?_
  rintro _ _ rfl
  exact Due.noConfusion

theorem main_keeps (spec : Spec) :
    Keeps counting (main setup spec) (start spec) fun _ due => due ≠ .completion := by
  have settles : ∀ {program : Program Unit}, Settles program →
      Keeps counting program .nothing fun _ due => due ≠ .completion := fun settles =>
    keeps_mono _ _ _ _ _ (settles .nothing settled_nothing) fun _ _ settled => settled.1
  cases spec with
  | recover now => exact settles (settles_recover setup now)
  | tick now ignoreWindow redriveCleanup fuel =>
      exact settles (settles_tick setup now ignoreWindow redriveCleanup fuel)
  | item owner item now => exact settles (settles_item setup item now)
  | attempt owner ctx => exact never_keeps _ (idle_attempt setup ctx)
  | action handle ctx =>
      exact never_keeps _ (within_bind _ _ _ (idle_disk _) fun _ => within_perform _ (Op.endAction _) rfl)
  | quarantine handle job =>
      exact never_keeps _ (within_bind _ _ _ (idle_disk _) fun _ => within_perform _ Op.endQuarantine rfl)

/-! ## The ledger -/

abbrev Clerk := Thread Op Ret Spec Due

abbrev Office := Config Op Ret World Spec Due

/-- What a thread has completed and not counted. -/
def owed (due : Due) : Nat := if due = .completion then 1 else 0

def rolled (due : Due) : Nat := if due = .exhaustion then 1 else 0

def owes (_ : Spec) (due : Due) : Nat := owed due

def rolls (_ : Spec) (due : Due) : Nat := rolled due

/-- Completed items that no thread has counted yet. -/
def owing (c : Office) : Nat := total owes c.threads

structure Ledger where
  /-- Statements that have set an item to `Completed`. -/
  completed : Nat
  /-- Statements that have rolled an item up to `Exhausted`. -/
  exhausted : Nat
  /-- Completions whose count was refused, or whose thread was stopped before it. -/
  lost : Nat
  /-- What has been added to the statistics: completions, failures and bytes. -/
  counted : Nat
  failures : Nat
  bytes : Nat
  deriving DecidableEq

def Ledger.none : Ledger := ⟨0, 0, 0, 0, 0, 0⟩

def heed (t : Clerk) (operation : Op) (answer : Answer) (_ _ : Office) (h : Ledger) : Ledger :=
  match operation, answer with
  | .store (.setState _ .completed _), .asIs => { h with completed := h.completed + 1 }
  | .store (.rollUpItem _ .exhausted _ _ _ _), .asIs => { h with exhausted := h.exhausted + 1 }
  | .store (.bumpStats replicated failed bytes), .asIs =>
      { h with
        counted := h.counted + replicated.toUInt64.toNat
        failures := h.failures + failed.toUInt64.toNat
        bytes := h.bytes + bytes.toUInt64.toNat }
  | .store (.bumpStats _ _ _), .refused _ => { h with lost := h.lost + weigh owes t }
  | _, _ => h

def pass (event : Event) (c _ : Office) (h : Ledger) : Ledger :=
  match event with
  | .crash => { h with lost := h.lost + owing c }
  | _ => h

def ledger : Chronicle Op Ret World Spec Due Answer Event Ledger where
  blank := .none
  follow := fun c choice after h =>
    match choice with
    | .kill id => { h with lost := h.lost + total owes (c.threads.filter fun t => t.id = id) }
    | choice => (chronicle .none heed pass).follow c choice after h

structure Holds (row : StatsRow) (now : Stats) : Prop where
  replicated : row.replicated.Shows now.replicated
  failed : row.failed.Shows now.failed
  bytes : row.bytes.Shows now.bytes

theorem read_of_holds (row : StatsRow) (now : Stats) (holds : Holds row now) : row.read = .ok now := by
  simp only [StatsRow.read, Column.read_of_shows holds.replicated, Column.read_of_shows holds.failed,
    Column.read_of_shows holds.bytes]
  rfl

/-- Nothing runs yet, and this is counted already. -/
def Starts (before : Stats) (c : Office) : Prop := c.threads = [] ∧ Holds c.state.store.stats before

/-- What was in the row when the books were opened, and what has been added since. -/
structure Entered (before row : StatsRow) (h : Ledger) : Prop where
  replicated : Column.Grew before.replicated row.replicated h.counted
  failed : Column.Grew before.failed row.failed h.failures
  bytes : Column.Grew before.bytes row.bytes h.bytes

/-! ## What a call does to the books -/

/-- The books before a call and after it, with what its thread owes. -/
structure Balanced (row after : StatsRow) (due left : Due) (h recorded : Ledger) : Prop where
  replicated : recorded.counted + owed left + recorded.lost + h.completed =
    h.counted + owed due + h.lost + recorded.completed
  failed : recorded.failures + rolled left + h.exhausted ≤
    h.failures + rolled due + recorded.exhausted
  entered : ∀ before, Entered before row h → Entered before after recorded

theorem owed_settled (due : Due) (settled : due ≠ .completion) : owed due = 0 := if_neg settled

theorem balanced_plain (row : StatsRow) (due left : Due) (h : Ledger) (settled : due ≠ .completion)
    (nothing : left = .nothing ∨ left = .never) : Balanced row row due left h h := by
  have none : owed left = 0 ∧ rolled left = 0 := by
    rcases nothing with rfl | rfl
    · exact ⟨rfl, rfl⟩
    · exact ⟨rfl, rfl⟩
  refine ⟨?_, ?_, fun _ => id⟩
  · rw [none.1, owed_settled due settled]
  · rw [none.2]
    omega

theorem balanced_same (row : StatsRow) (due : Due) (h : Ledger) : Balanced row row due due h h :=
  ⟨rfl, Nat.le_refl _, fun _ => id⟩

theorem learn_nothing (due : Due) (operation : Op) (ret : Ret operation)
    (other : ∀ statement, operation ≠ .store statement) :
    learn due operation ret = .nothing ∨ learn due operation ret = .never := by
  cases operation with
  | store statement => exact absurd rfl (other statement)
  | _ => cases due <;> first | exact Or.inl rfl | exact Or.inr rfl

theorem stats_kept (store : Store) (statement : StoreOp)
    (other : ∀ replicated failed bytes, statement ≠ .bumpStats replicated failed bytes) :
    (callStore store statement).2.stats = store.stats := by
  cases statement with
  | bumpStats replicated failed bytes => exact absurd rfl (other replicated failed bytes)
  | upsertReady relpath size mtimeMs now =>
      simp only [callStore, Store.upsertReady]
      split
      · rfl
      · split <;> rfl
  | _ => rfl

theorem learn_clear_resume (due : Due) (relpath : String) (answer : Except ReplError Unit) :
    learn due (.store (.clearResumeAll relpath)) answer = due := by
  cases due <;> rfl

theorem learn_clear_states (due : Due) (relpath : String) (answer : Except ReplError Unit) :
    learn due (.store (.clearDestStates relpath)) answer = due := by
  cases due <;> rfl

theorem balanced_answered (store : Store) (t : Clerk) (statement : StoreOp) (c after : Office)
    (h : Ledger) (may : allowed t.notes (.store statement)) :
    Balanced store.stats (callStore store statement).2.stats t.notes
      (learn t.notes (.store statement) (.ok (callStore store statement).1)) h
      (heed t (.store statement) .asIs c after h) := by
  have plain : ∀ left, (left = .nothing ∨ left = .never) → t.notes ≠ .completion →
      (∀ r f b, statement ≠ .bumpStats r f b) →
      Balanced store.stats (callStore store statement).2.stats t.notes left h h := by
    intro left nothing settled other
    rw [stats_kept store statement other]
    exact balanced_plain store.stats t.notes left h settled nothing
  cases statement with
  | clearResumeAll relpath =>
      have same := learn_clear_resume t.notes relpath (Except.ok ())
      exact same.symm ▸ balanced_same store.stats t.notes h
  | clearDestStates relpath =>
      have same := learn_clear_states t.notes relpath (Except.ok ())
      exact same.symm ▸ balanced_same store.stats t.notes h
  | bumpStats replicated failed bytes =>
      have entered : ∀ before, Entered before store.stats h →
          Entered before (store.stats.bump replicated failed bytes)
            (heed t (.store (.bumpStats replicated failed bytes)) .asIs c after h) := fun _ was =>
        ⟨Column.grew_add was.replicated replicated, Column.grew_add was.failed failed,
          Column.grew_add was.bytes bytes⟩
      rcases may with ⟨due, rfl, rfl⟩ | ⟨due, rfl, rfl, rfl⟩
      · rw [due]
        refine ⟨?_, ?_, entered⟩
        · show h.counted + 1 + 0 + h.lost + h.completed = h.counted + 1 + h.lost + h.completed
          omega
        · show h.failures + 0 + 0 + h.exhausted ≤ h.failures + 0 + h.exhausted
          omega
      · rw [due]
        refine ⟨?_, ?_, entered⟩
        · show h.counted + 0 + 0 + h.lost + h.completed = h.counted + 0 + h.lost + h.completed
          omega
        · show h.failures + 1 + 0 + h.exhausted ≤ h.failures + 1 + h.exhausted
          omega
  | setState relpath state now =>
      obtain ⟨settled, never⟩ := may
      cases state with
      | completed =>
          have known : t.notes ≠ .never := fun same => never same rfl
          have left := learn_completed t.notes ⟨settled, known⟩ relpath now (Except.ok ())
          have credited : Balanced store.stats store.stats t.notes .completion h
              { h with completed := h.completed + 1 } := by
            refine ⟨?_, ?_, fun _ was => ⟨was.replicated, was.failed, was.bytes⟩⟩
            · show h.counted + 1 + h.lost + h.completed =
                h.counted + owed t.notes + h.lost + (h.completed + 1)
              rw [owed_settled t.notes settled]
              omega
            · show h.failures + 0 + h.exhausted ≤ h.failures + rolled t.notes + h.exhausted
              omega
          exact left.symm ▸ credited
      | _ =>
          refine plain _ ?_ settled fun _ _ _ same => by cases same
          cases t.notes <;> first | exact Or.inl rfl | exact Or.inr rfl
  | rollUpItem relpath state attempts gate error now =>
      cases state with
      | exhausted =>
          have credited : ∀ left, left ≠ .completion → Balanced store.stats store.stats t.notes left h
              { h with exhausted := h.exhausted + 1 } := by
            intro left other
            have most : rolled left ≤ 1 := by
              unfold rolled
              split <;> omega
            refine ⟨?_, ?_, fun _ was => ⟨was.replicated, was.failed, was.bytes⟩⟩
            · rw [owed_settled left other, owed_settled t.notes may]
            · show h.failures + rolled left + h.exhausted ≤
                h.failures + rolled t.notes + (h.exhausted + 1)
              omega
          by_cases known : t.notes = .never
          · exact credited _ (by rw [known]; exact Due.noConfusion)
          · have left := learn_exhausted t.notes ⟨may, known⟩ relpath attempts gate error now (Except.ok ())
            exact left.symm ▸ credited .exhaustion Due.noConfusion
      | _ =>
          refine plain _ ?_ may fun _ _ _ same => by cases same
          cases t.notes <;> first | exact Or.inl rfl | exact Or.inr rfl
  | _ =>
      refine plain _ ?_ may fun _ _ _ same => by cases same
      cases t.notes <;> first | exact Or.inl rfl | exact Or.inr rfl

theorem balanced_refused (row : StatsRow) (t : Clerk) (statement : StoreOp) (text : String)
    (c after : Office) (h : Ledger) (may : allowed t.notes (.store statement)) :
    Balanced row row t.notes (learn t.notes (.store statement) (.error (.state text))) h
      (heed t (.store statement) (.refused text) c after h) := by
  cases statement with
  | clearResumeAll relpath =>
      have same := learn_clear_resume t.notes relpath (Except.error (.state text))
      exact same.symm ▸ balanced_same row t.notes h
  | clearDestStates relpath =>
      have same := learn_clear_states t.notes relpath (Except.error (.state text))
      exact same.symm ▸ balanced_same row t.notes h
  | bumpStats replicated failed bytes =>
      show Balanced row row t.notes _ h { h with lost := h.lost + owed t.notes }
      rcases may with ⟨due, _, _⟩ | ⟨due, _, _⟩
      · rw [due]
        refine ⟨?_, Nat.le_refl _, fun _ was => ⟨was.replicated, was.failed, was.bytes⟩⟩
        show h.counted + 0 + (h.lost + 1) + h.completed = h.counted + 1 + h.lost + h.completed
        omega
      · rw [due]
        refine ⟨rfl, ?_, fun _ was => ⟨was.replicated, was.failed, was.bytes⟩⟩
        show h.failures + 0 + h.exhausted ≤ h.failures + 1 + h.exhausted
        omega
  | setState relpath state now =>
      cases state
      all_goals
        refine balanced_plain row t.notes _ h may.1 ?_
        cases t.notes <;> first | exact Or.inl rfl | exact Or.inr rfl
  | rollUpItem relpath state attempts gate error now =>
      cases state
      all_goals
        refine balanced_plain row t.notes _ h may ?_
        cases t.notes <;> first | exact Or.inl rfl | exact Or.inr rfl
  | _ =>
      refine balanced_plain row t.notes _ h may ?_
      cases t.notes <;> first | exact Or.inl rfl | exact Or.inr rfl

/-! ## Runs -/

structure Sound (before : StatsRow) (h : Ledger) (c : Office) : Prop where
  distinct : Distinct c
  orderly : Orderly (books setup) c
  kinds : ∀ t ∈ c.threads, countsNothing t.spec = true → t.notes = .never
  replicated : h.counted + owing c + h.lost = h.completed
  failed : h.failures + total rolls c.threads ≤ h.exhausted
  entered : Entered before c.state.store.stats h

theorem weightless_spawn (weight : Spec → Due → Nat) (first : Nat) (specs : List Spec)
    (nothing : ∀ spec, weight spec (start spec) = 0) :
    total weight ((books setup).spawnFrom first specs) = 0 := by
  refine (total_zero weight _).mpr fun t member => ?_
  obtain ⟨_, _, _, _, notes, _⟩ := mem_spawn_from (books setup) first specs t member
  rw [weigh, notes]
  exact nothing t.spec

theorem starts_owe_nothing (spec : Spec) :
    owes spec (start spec) = 0 ∧ rolls spec (start spec) = 0 := by
  unfold start
  split <;> exact ⟨rfl, rfl⟩

theorem balanced_call (c after : Office) (t : Clerk) (operation : Op) (answer : Answer)
    (ret : Ret operation) (effect : Effect World Spec) (h : Ledger)
    (may : allowed t.notes operation)
    (performed : perform setup c.state t (Machine.live c) operation answer = some (ret, effect)) :
    Balanced c.state.store.stats effect.state.store.stats t.notes (learn t.notes operation ret) h
      (heed t operation answer c after h) := by
  have did := Steps.did_retold setup t _ _ operation answer ret effect performed
  cases operation with
  | store statement =>
      cases answer with
      | asIs =>
          cases performed
          exact balanced_answered c.state.store t statement c after h may
      | refused text =>
          cases performed
          exact balanced_refused c.state.store.stats t statement text c after h may
      | _ => cases performed
  | deliver item label resume =>
      have same : effect.state.store.stats = c.state.store.stats := by
        cases did with
        | delivered => rfl
        | undelivered _ _ _ _ _ _ stored => rcases stored with rfl | ⟨bytes, _, rfl⟩ <;> rfl
      rw [same]
      exact balanced_plain _ _ _ h may (learn_nothing _ _ ret fun _ other => by cases other)
  | _ =>
      have same : effect.state.store.stats = c.state.store.stats := by
        cases did <;> rfl
      rw [same]
      exact balanced_plain _ _ _ h may (learn_nothing _ _ ret fun _ other => by cases other)

theorem sound_settle (before : StatsRow) (h : Ledger) (c : Office) (sound : Sound setup before h c)
    (t : Clerk) (operation : Op) (ret : Ret operation) (effect : Effect World Spec)
    (next : Ret operation → Program Unit) (choice : Choice Answer Event)
    (calls : Calls (books setup) c t operation ret effect next choice) (after : Office)
    (same : after = (books setup).settle c ((books setup).resumed t operation ret next) effect) :
    Sound setup before (ledger.follow c choice after h) after := by
  obtain ⟨answer, rfl, performed⟩ := calls.choice
  have may : allowed t.notes operation :=
    calls_allowed (books setup) c t operation ret effect next _ calls sound.orderly
  have followed : ledger.follow c (.run t.id answer) after h = heed t operation answer c after h :=
    follow_call .none heed pass c after sound.distinct t calls.member operation next calls.prog answer h
  have did := Steps.did_retold setup t _ _ operation answer ret effect performed
  have gone : ∀ u ∈ c.threads, u.id ≠ t.id → effect.fate u.id u.spec = .gone → u.notes = .never := by
    intro u member _ fate
    refine sound.kinds u member ?_
    rcases Steps.did_gone setup (Steps.retold t) _ _ operation ret effect did u.id u.spec fate with
      ⟨_, _, spec⟩ | ⟨_, _, spec⟩ | ⟨_, _, spec⟩
    · rw [spec]; rfl
    · rw [spec]; rfl
    · rw [spec]; rfl
  have orderly := orderly_settle (books setup) c t operation ret effect next _ calls sound.orderly
    trivial fun spec _ => main_keeps setup spec
  -- a thread that ends owes nothing
  have ended : (next ret).isDone = true → learn t.notes operation ret ≠ .completion := by
    intro done
    have keeps := calls_keep (books setup) c t operation ret effect next _ calls sound.orderly
    exact keeps_ended _ (next ret) _ (books setup).finished (keeps.2 ret trivial) done
  have balanced := balanced_call setup c after t operation answer ret effect h may performed
  have counted := total_settle_spared (books setup) owes c sound.distinct t calls.member
    ((books setup).resumed t operation ret next) rfl effect fun u member other fate => by
      rw [weigh, gone u member other fate]
      rfl
  have failures := total_settle_spared (books setup) rolls c sound.distinct t calls.member
    ((books setup).resumed t operation ret next) rfl effect fun u member other fate => by
      rw [weigh, gone u member other fate]
      rfl
  rw [weightless_spawn setup owes _ _ fun spec => (starts_owe_nothing spec).1, ← same] at counted
  rw [weightless_spawn setup rolls _ _ fun spec => (starts_owe_nothing spec).2, ← same] at failures
  have leftOwed : leftover owes ((books setup).resumed t operation ret next) =
      owed (learn t.notes operation ret) := by
    rw [leftover]
    split
    · rename_i done
      exact (owed_settled _ (ended done)).symm
    · rfl
  have leftRolled : leftover rolls ((books setup).resumed t operation ret next) ≤
      rolled (learn t.notes operation ret) := by
    rw [leftover]
    split
    · exact Nat.zero_le _
    · exact Nat.le_refl _
  have nowOwed : weigh owes t = owed t.notes := rfl
  have nowRolled : weigh rolls t = rolled t.notes := rfl
  have state : after.state = effect.state := by rw [same]; rfl
  rw [followed]
  have was := sound.replicated
  have failed := sound.failed
  constructor
  case distinct =>
    rw [same]
    exact distinct_settle (books setup) c _ effect sound.distinct
  case orderly =>
    rw [same]
    exact orderly
  case kinds =>
    rw [same]
    apply all_settle (books setup) (fun spec n => countsNothing spec = true → n = .never) c t
      operation ret effect next
    · intro idle
      rw [sound.kinds t calls.member idle]
      rfl
    · exact fun u member _ => sound.kinds u member
    · intro spec _ idle
      exact if_pos idle
  case replicated =>
    have balance := balanced.replicated
    rw [owing] at was ⊢
    omega
  case failed =>
    have balance := balanced.failed
    omega
  case entered =>
    rw [state]
    exact balanced.entered before sound.entered

theorem total_filter (weight : Spec → Due → Nat) (threads : List Clerk) (wanted : Clerk → Bool) :
    total weight threads = total weight (threads.filter wanted) +
      total weight (threads.filter fun t => !wanted t) := by
  induction threads with
  | nil => rfl
  | cons t rest ih =>
      rw [total, ih]
      by_cases own : wanted t = true
      · rw [List.filter_cons_of_pos own, List.filter_cons_of_neg (by simp [own]), total]
        omega
      · rw [List.filter_cons_of_neg own, List.filter_cons_of_pos (by simpa using own), total]
        omega

theorem sound_without (before : StatsRow) (h : Ledger) (c : Office) (sound : Sound setup before h c)
    (id : Nat) :
    Sound setup before (ledger.follow c (.kill id) ((books setup).without c id) h)
      ((books setup).without c id) := by
  have split : ∀ weight : Spec → Due → Nat, total weight c.threads =
      total weight (c.threads.filter fun t => t.id = id) +
        total weight ((books setup).without c id).threads := by
    intro weight
    rw [total_filter weight c.threads fun t => t.id = id]
    congr 1
    show _ = total weight ((books setup).abortOrphans (c.threads.filter fun u => u.id ≠ id))
    rw [total_orphans]
    congr 2
    funext u
    simp
  have was := sound.replicated
  have failed := sound.failed
  have owes := split owes
  have rolls := split rolls
  constructor
  case distinct => exact distinct_without (books setup) c id sound.distinct
  case orderly => exact orderly_without (books setup) c id sound.orderly
  case kinds =>
    exact all_without (books setup) (fun spec n => countsNothing spec = true → n = .never) c id
      sound.kinds
  case replicated =>
    show h.counted + owing ((books setup).without c id) + (h.lost + total _ _) = h.completed
    rw [owing] at was ⊢
    omega
  case failed =>
    show h.failures + total _ _ ≤ h.exhausted
    omega
  case entered => exact ⟨sound.entered.replicated, sound.entered.failed, sound.entered.bytes⟩

theorem sound_absorb (before : StatsRow) (h : Ledger) (c : Office) (sound : Sound setup before h c)
    (event : Event) (reaction : Reaction World Spec)
    (reacted : react c.state (Machine.live c) event = some reaction) :
    Sound setup before (ledger.follow c (.env event) ((books setup).absorb c reaction) h)
      ((books setup).absorb c reaction) := by
  obtain ⟨store, _⟩ := Runs.react_base _ _ event reaction reacted
  have was := sound.replicated
  have failed := sound.failed
  have stats : ((books setup).absorb c reaction).state.store.stats = c.state.store.stats :=
    congrArg Store.stats store
  -- a process that stops takes with it what its threads have not counted
  have left : ∀ weight : Spec → Due → Nat, (∀ spec, weight spec (start spec) = 0) →
      total weight ((books setup).absorb c reaction).threads =
        if reaction.stops then 0 else total weight c.threads := by
    intro weight nothing
    show total weight ((books setup).abortOrphans _) = _
    rw [total_orphans, total_append, weightless_spawn setup weight _ _ nothing]
    split <;> rfl
  have owesLeft : owing ((books setup).absorb c reaction) = if reaction.stops then 0 else owing c :=
    left owes fun spec => (starts_owe_nothing spec).1
  have rollsLeft := left rolls fun spec => (starts_owe_nothing spec).2
  have recorded : ledger.follow c (.env event) ((books setup).absorb c reaction) h =
      if reaction.stops then { h with lost := h.lost + owing c } else h := by
    cases event with
    | crash =>
        cases reacted
        rfl
    | boot now =>
        simp only [react] at reacted
        split at reacted
        · cases reacted
        · cases reacted
          rfl
    | periodic now fuel =>
        simp only [react] at reacted
        split at reacted
        · cases reacted
          rfl
        · cases reacted
    | trigger now ignoreWindow fuel =>
        simp only [react] at reacted
        split at reacted
        · cases reacted
          rfl
        · cases reacted
    | _ =>
        cases reacted
        rfl
  constructor
  case distinct => exact distinct_absorb (books setup) c reaction sound.distinct
  case orderly =>
    exact orderly_absorb (books setup) c reaction sound.orderly fun spec _ => main_keeps setup spec
  case kinds =>
    exact all_absorb (books setup) (fun spec n => countsNothing spec = true → n = .never) c reaction
      sound.kinds fun spec _ idle => if_pos idle
  case replicated =>
    rw [recorded, owesLeft]
    split
    · show h.counted + 0 + (h.lost + owing c) = h.completed
      omega
    · exact was
  case failed =>
    rw [recorded, rollsLeft]
    split
    · show h.failures + 0 ≤ h.exhausted
      omega
    · exact failed
  case entered =>
    rw [recorded, stats]
    split
    · exact ⟨sound.entered.replicated, sound.entered.failed, sound.entered.bytes⟩
    · exact sound.entered

theorem sound_step (before : StatsRow) (h : Ledger) (c after : Office) (choice : Choice Answer Event)
    (sound : Sound setup before h c) (stepped : (books setup).step c choice = some after) :
    Sound setup before (ledger.follow c choice after h) after := by
  rcases step_cases (books setup) c after choice stepped with
    ⟨t, operation, ret, effect, next, calls, same⟩ | ⟨id, rfl, _, rfl⟩ |
    ⟨event, reaction, rfl, reacted, rfl⟩
  · exact sound_settle setup before h c sound t operation ret effect next choice calls after same
  · exact sound_without setup before h c sound id
  · exact sound_absorb setup before h c sound event reaction reacted

/-- The statistics are an account of the work, as far as an `i64` goes. -/
structure Accounted (before : Stats) (h : Ledger) (c : Office) : Prop where
  replicated : before.replicated + h.completed < 2 ^ 63 →
    ∃ n, c.state.store.stats.replicated.Shows n ∧
      n + owing c + h.lost = before.replicated + h.completed
  failed : before.failed + h.exhausted < 2 ^ 63 →
    ∃ n, c.state.store.stats.failed.Shows n ∧ n ≤ before.failed + h.exhausted
  bytes : before.bytes + h.bytes < 2 ^ 63 → c.state.store.stats.bytes.Shows (before.bytes + h.bytes)
  /-- Then `stats` reads them. -/
  read : before.replicated + h.completed < 2 ^ 63 → before.failed + h.exhausted < 2 ^ 63 →
    before.bytes + h.bytes < 2 ^ 63 → ∃ now, c.state.store.stats.read = .ok now ∧
      now.replicated + owing c + h.lost = before.replicated + h.completed ∧
      now.failed ≤ before.failed + h.exhausted ∧ now.bytes = before.bytes + h.bytes

def officeStart : Office := ⟨Runs.smallWorld Runs.oneFile, [], 0⟩

/-- A tick has delivered the file and deleted it, and has set the item to completed; the process stops
before it is counted. -/
def untilStopped : List (Choice Answer Event) :=
  [.env (.boot 0), .env (.trigger 0 false 1)] ++
    Runs.go 1 [.asIs, .asIs, .found [⟨"a", 0, 0⟩], .asIs, .asIs, .asIs, .asIs, .scheduled (.all false),
      .asIs, .asIs] ++
    Runs.go 2 [.asIs, .asIs] ++ Runs.go 3 (List.replicate 6 .asIs) ++
    Runs.go 2 [.number 0, .asIs, .asIs, .asIs, .asIs] ++
    Runs.go 4 [.disk (.asIs 0), .disk (.asIs 0), .asIs] ++ Runs.go 2 [.asIs, .asIs] ++ [.env .crash]

end FileReplicator.Accounting
