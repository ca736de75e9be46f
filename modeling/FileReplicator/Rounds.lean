import FileReplicator.Rows

/-!
# One round of the pipeline

What the item and its attempts do in one round, from their own calls: the item
starts an attempt for each destination that is due and counts their results; an
attempt delivers once and records what came of it for its own destination.
-/

namespace FileReplicator.Rounds

open Domain DurableStore Effects FileTree SourceActions Retry Operations Worker Instance

variable (setup : Setup)

/-! ## Attempts -/

/-- What came of an attempt: a failure with the jitter that was drawn for it. -/
inductive Settled where
  | verified
  | failed (error : ReplError) (jitter : Nat)
  deriving DecidableEq

inductive Status where
  | unspawned
  | fresh
  | sent
  | judged (result : Except ReplError Unit)
  | drawn (error : ReplError) (jitter : Nat)
  | recorded (settled : Settled)
  | ended (settled : Settled)
  | joined (settled : Settled)

/-- The retry decision of an attempt, from the count of its own destination. -/
def decision (ctx : AttemptCtx) (error : ReplError) (jitter : Nat) : RetryDecision :=
  setup.retry.decide { ctx.item with attempts := ctx.attemptsSoFar } error.isPermanent ctx.now jitter

def outcomeOf (ctx : AttemptCtx) : Settled → DestOutcome
  | .verified => .verified
  | .failed error jitter =>
      match decision setup ctx error jitter with
      | .retry gate => .retry gate error.text
      | .giveUp => .giveUp error.text (nextAttempt ctx.attemptsSoFar)

def failedPhase (now : Int) : RetryDecision → DestPhase × Int
  | .retry gate => (.pending, gate)
  | .giveUp => (.exhausted, now)

/-- The row of a destination after its attempt, from its row before. -/
def settledState (ctx : AttemptCtx) (prior : Option DestState) : Settled → DestState
  | .verified =>
      match prior with
      | some d => { d with phase := .verified }
      | none =>
          { dest := ctx.label, phase := .verified, attempts := 0, nextAttemptAt := 0,
            lastError := none }
  | .failed error jitter =>
      { dest := ctx.label
        phase := (failedPhase ctx.now (decision setup ctx error jitter)).1
        attempts := ((prior.map DestState.attempts).getD 0) + 1
        nextAttemptAt := (failedPhase ctx.now (decision setup ctx error jitter)).2
        lastError := some error.text }

def learnVerdict : Except ReplError Unit → Status
  | .ok () => .judged (.ok ())
  | .error e => .judged (.error e)

def learnAttempt : Status → (operation : Op) → Ret operation → Status
  | .fresh, .deliver _ _ _, .ok _ => .sent
  | .fresh, .deliver _ _ _, .error e => .judged (.error e)
  | .sent, .verify _ _ _ _, verdict => learnVerdict verdict
  | .judged (.error e), .draw, jitter => .drawn e jitter
  | .judged (.ok ()), .store (.setDestPhase _ _ _), _ => .recorded .verified
  | .drawn e jitter, .store (.recordDestAttempt _ _ _ _ _), _ => .recorded (.failed e jitter)
  | .recorded v, .endAttempt _, _ => .ended v
  | status, _, _ => status

def allowedAttempt (ctx : AttemptCtx) : Status → Op → Prop
  | .fresh, .deliver item label _ => item = ctx.item ∧ label = ctx.label
  | .fresh, .store (.loadResume _ _) => True
  | .sent, .verify item label _ _ => item = ctx.item ∧ label = ctx.label
  | .judged (.ok ()), .store (.saveResume _ _ _) => True
  | .judged (.ok ()), .store (.setDestPhase relpath label phase) =>
      relpath = ctx.item.relpath ∧ label = ctx.label ∧ phase = .verified
  | .judged (.error _), .draw => True
  | .drawn e jitter, .store (.recordDestAttempt relpath label error phase gate) =>
      relpath = ctx.item.relpath ∧ label = ctx.label ∧ error = e.text ∧
        (phase, gate) = failedPhase ctx.now (decision setup ctx e jitter)
  | .recorded _, .store (.loadResume _ _) | .recorded _, .store (.clearResume _ _)
  | .recorded _, .abort _ _ _ => True
  | .recorded v, .endAttempt result => result = .ok (ctx.label, outcomeOf setup ctx v)
  | _, _ => False

/-! ## The item -/

/-- How far the item is: what it has read of its destinations, and the results it has joined. -/
inductive Stage where
  | fresh
  | read (existing : String → Option DestState)
  | joining (existing : String → Option DestState) (joined : List (String × DestOutcome)) (dry : Bool)
  | broken
  | rolled (existing : String → Option DestState) (joined : List (String × DestOutcome)) (gate : Int)
  | exhausting (existing : String → Option DestState) (joined : List (String × DestOutcome))
  | completing (existing : String → Option DestState) (joined : List (String × DestOutcome))
  | completed (existing : String → Option DestState) (joined : List (String × DestOutcome))

def tallyOf (existing : String → Option DestState) (joined : List (String × DestOutcome)) : Tally :=
  joined.foldl Tally.count ⟨verifiedLabels setup existing, [], []⟩

def rolledGate (existing : String → Option DestState) (now : Int)
    (joined : List (String × DestOutcome)) : Int :=
  earliest now ((tallyOf setup existing joined).retries.map (·.2.1) ++
    (notDueLabels setup existing now).map (nextAttemptOf existing))

def Counted (existing : String → Option DestState) (now : Int)
    (joined : List (String × DestOutcome)) (dry : Bool) : Prop :=
  joined.length = (dueLabels setup existing now).length ∨ dry = true

def learnJoined (existing : String → Option DestState) (joined : List (String × DestOutcome))
    (dry : Bool) : Option (Except String AttemptResult) → Stage
  | some (.ok (.ok p)) => .joining existing (joined ++ [p]) dry
  | some _ => .broken
  | none => .joining existing joined true

def learnItem : Stage → (operation : Op) → Ret operation → Stage
  | .fresh, .store (.destStates _), .ok existing => .read existing
  | .read existing, .spawnAttempts _, _ => .joining existing [] false
  | .joining existing joined dry, .joinAttempt, result => learnJoined existing joined dry result
  | .joining existing joined _, .store (.rollUpItem _ state _ gate _ _), _ =>
      if state = .failed then .rolled existing joined gate else .exhausting existing joined
  | .joining existing joined _, .store (.setState _ _ _), _ => .completing existing joined
  | .completing existing joined, .store (.setState _ state _), _ =>
      if state = .completed then .completed existing joined else .completing existing joined
  | stage, _, _ => stage

def mayRoll (existing : String → Option DestState) (now : Int) (joined : List (String × DestOutcome))
    (state : ItemState) (gate : Int) : Prop :=
  (state = .failed ∧ (tallyOf setup existing joined).giveups = [] ∧
      (tallyOf setup existing joined).verified.length ≠ setup.labels.length ∧
      gate = rolledGate setup existing now joined) ∨
    (state = .exhausted ∧ (tallyOf setup existing joined).giveups ≠ [])

def allowedItem (item : WorkItem) (now : Int) : Stage → Op → Prop
  | .fresh, .store (.destStates relpath) => relpath = item.relpath
  | .read existing, .spawnAttempts contexts =>
      contexts = (dueLabels setup existing now).map (attemptCtx item existing now)
  | .joining _ _ _, .joinAttempt | .joining _ _ _, .store (.loadResume _ _)
  | .joining _ _ _, .store (.clearResume _ _) | .joining _ _ _, .abort _ _ _ => True
  | .joining existing joined dry, .store (.rollUpItem relpath state _ gate _ _) =>
      relpath = item.relpath ∧ Counted setup existing now joined dry ∧
        mayRoll setup existing now joined state gate
  | .joining existing joined dry, .store (.setState relpath state _) =>
      relpath = item.relpath ∧ state = .verified ∧ Counted setup existing now joined dry ∧
        (tallyOf setup existing joined).giveups = [] ∧
        (tallyOf setup existing joined).verified.length = setup.labels.length
  | .exhausting _ _, .store (.bumpStats _ _ _) | .exhausting _ _, .startQuarantine _
  | .exhausting _ _, .awaitQuarantine _ | .exhausting _ _, .reportQuarantined _ => True
  | .exhausting _ _, .store (.setState relpath _ _) => relpath = item.relpath
  | .completing _ _, .store (.loadResume _ _) | .completing _ _, .startAction _
  | .completing _ _, .awaitAction _ | .completing _ _, .draw => True
  | .completing _ _, .store (.setState relpath _ _) => relpath = item.relpath
  | .completing _ _, .store (.recordCleanupAttempt relpath _ state _ _) =>
      relpath = item.relpath ∧ state = .cleanupFailed
  | .completed _ _, .store (.clearResumeAll _) | .completed _ _, .store (.bumpStats _ _ _) => True
  | .completed _ _, .store (.clearDestStates relpath) => relpath = item.relpath
  | _, _ => False

/-! ## The discipline -/

inductive Notes where
  | aside
  | pool
  | item (item : WorkItem) (now : Int) (stage : Stage)
  | attempt (ctx : AttemptCtx) (status : Status)

def allowed : Notes → Op → Prop
  | .aside, _ => True
  | .pool, .fs _ | .pool, .endAction _ | .pool, .endQuarantine => True
  | .pool, _ => False
  | .item item now stage, operation => allowedItem setup item now stage operation
  | .attempt ctx status, operation => allowedAttempt setup ctx status operation

def possible : (operation : Op) → Ret operation → Prop
  | .store _, .error _ => False
  | _, _ => True

def learn : Notes → (operation : Op) → Ret operation → Notes
  | .item item now stage, operation, ret => .item item now (learnItem stage operation ret)
  | .attempt ctx status, operation, ret => .attempt ctx (learnAttempt status operation ret)
  | n, _, _ => n

def discipline : Discipline Op Ret Notes := ⟨allowed setup, possible, learn⟩

def start : Spec → Notes
  | .item _ item now => .item item now .fresh
  | .attempt _ ctx => .attempt ctx .fresh
  | .action _ _ | .quarantine _ _ => .pool
  | _ => .aside

/-- The item has come to a conclusion, or an attempt could not be joined. -/
def Stage.concluded : Stage → Bool
  | .fresh | .read _ | .joining _ _ _ => false
  | _ => true

def Status.join : Status → Status
  | .ended v => .joined v
  | status => status

def Status.running : Status → Bool
  | .fresh | .sent | .judged _ | .drawn _ _ | .recorded _ => true
  | _ => false

def Status.tried : Status → Bool
  | .unspawned | .fresh => false
  | _ => true

def Stage.joined : Stage → List (String × DestOutcome)
  | .joining _ joined _ | .rolled _ joined _ | .exhausting _ joined | .completing _ joined
  | .completed _ joined => joined
  | _ => []

def Stage.existing : Stage → Option (String → Option DestState)
  | .read existing | .joining existing _ _ | .rolled existing _ _ | .exhausting existing _
  | .completing existing _ | .completed existing _ => some existing
  | _ => none

def Stage.spawned : Stage → Bool
  | .fresh | .read _ => false
  | _ => true

def Stage.dry : Stage → Bool
  | .joining _ _ dry => dry
  | stage => stage.concluded

/-- Whether the rows of the destinations may be gone. -/
def Stage.isCompleted : Stage → Bool
  | .completed _ _ => true
  | _ => false

def Finished : Notes → Prop
  | .item _ _ stage => stage.concluded = true
  | .attempt _ status => ∃ v, status = .ended v
  | _ => True

/-! ## Small steps -/

theorem granted_keeps (operation : StoreOp) (n : Notes)
    (post : Except ReplError (StoreRet operation) → Notes → Prop)
    (may : allowed setup n (.store operation))
    (holds : ∀ ret, post (.ok ret) (learn n (.store operation) (.ok ret))) :
    Keeps (discipline setup) (statement operation).run n post := by
  refine ⟨may, fun ret possible => ?_⟩
  cases ret with
  | error e => exact possible.elim
  | ok ret => exact holds ret

theorem draw_keeps (n : Notes) (post : Nat → Notes → Prop) (may : allowed setup n .draw)
    (holds : ∀ jitter, post jitter (learn n .draw jitter)) :
    Keeps (discipline setup) draw n post :=
  ⟨may, fun jitter _ => holds jitter⟩

/-- A thread that may drop a checkpoint, and learns nothing by it. -/
structure Drops (n : Notes) : Prop where
  load : ∀ relpath dest, allowed setup n (.store (.loadResume relpath dest))
  clear : ∀ relpath dest, allowed setup n (.store (.clearResume relpath dest))
  abort : ∀ item label resume, allowed setup n (.abort item label resume)
  loaded : ∀ relpath dest ret, learn n (.store (.loadResume relpath dest)) ret = n
  cleared : ∀ relpath dest ret, learn n (.store (.clearResume relpath dest)) ret = n
  aborted : ∀ item label resume ret, learn n (.abort item label resume) ret = n

theorem joining_drops (item : WorkItem) (now : Int) (existing : String → Option DestState)
    (joined : List (String × DestOutcome)) (dry : Bool) :
    Drops setup (.item item now (.joining existing joined dry)) :=
  ⟨fun _ _ => trivial, fun _ _ => trivial, fun _ _ _ => trivial, fun _ _ _ => rfl,
    fun _ _ _ => rfl, fun _ _ _ _ => rfl⟩

theorem recorded_drops (ctx : AttemptCtx) (v : Settled) :
    Drops setup (.attempt ctx (.recorded v)) :=
  ⟨fun _ _ => trivial, fun _ _ => trivial, fun _ _ _ => trivial, fun _ _ _ => rfl,
    fun _ _ _ => rfl, fun _ _ _ _ => rfl⟩

theorem abort_and_clear_keeps (item : WorkItem) (label : String) (n : Notes) (drops : Drops setup n) :
    Keeps (discipline setup) (abortAndClearResume item label) n fun _ after => after = n := by
  rw [abortAndClearResume]
  apply keeps_bind
  apply granted_keeps setup (.loadResume item.relpath label) n _ (drops.load _ _)
  intro loaded
  rw [drops.loaded]
  apply keeps_bind
  have dropped : Keeps (discipline setup) (abortLoaded item label (.ok loaded)) n
      fun _ after => after = n := by
    cases loaded with
    | none => exact rfl
    | some resume =>
        apply keeps_best_effort
        exact ⟨drops.abort _ _ _, fun ret _ => drops.aborted _ _ _ ret⟩
  apply keeps_mono _ _ _ _ _ dropped
  rintro _ _ rfl
  apply keeps_best_effort
  apply granted_keeps setup (.clearResume item.relpath label) _ _ (drops.clear _ _)
  intro ret
  exact drops.cleared _ _ _

theorem abort_each_keeps (item : WorkItem) (labels : List String) (n : Notes)
    (drops : Drops setup n) :
    Keeps (discipline setup) (abortEach item labels) n fun _ after => after = n := by
  induction labels with
  | nil => exact rfl
  | cons label rest ih =>
      rw [abortEach]
      apply keeps_bind
      apply keeps_mono _ _ _ _ _ (abort_and_clear_keeps setup item label n drops)
      rintro _ _ rfl
      exact ih

def Reports (ctx : AttemptCtx) (result : AttemptResult) (after : Notes) : Prop :=
  ∃ v, after = .attempt ctx (.recorded v) ∧ result = .ok (ctx.label, outcomeOf setup ctx v)

theorem delivered_attempt_keeps (ctx : AttemptCtx) (delivered : Delivered) :
    Keeps (discipline setup) (deliveredAttempt ctx delivered).run (.attempt ctx (.judged (.ok ())))
      (Reports setup ctx) := by
  rw [deliveredAttempt]
  apply keeps_task_bind
  apply keeps_always
  apply keeps_best_effort
  apply granted_keeps setup (.saveResume _ _ _)
  · exact trivial
  intro _
  apply keeps_task_bind
  apply granted_keeps setup (.setDestPhase _ _ _)
  · exact ⟨rfl, rfl, rfl⟩
  intro _
  exact ⟨.verified, rfl, rfl⟩

theorem failed_attempt_keeps (ctx : AttemptCtx) (e : ReplError) :
    Keeps (discipline setup) (failedAttempt setup ctx e).run (.attempt ctx (.judged (.error e)))
      (Reports setup ctx) := by
  rw [failedAttempt]
  apply keeps_task_bind
  apply keeps_always
  apply draw_keeps setup
  · exact trivial
  intro jitter
  change Keeps (discipline setup) (ExceptT.run (match decision setup ctx e jitter with
    | .retry nextAttemptAt => do
        recordDestAttempt ctx.item.relpath ctx.label e.text .pending nextAttemptAt
        return (ctx.label, .retry nextAttemptAt e.text)
    | .giveUp => do
        recordDestAttempt ctx.item.relpath ctx.label e.text .exhausted ctx.now
        always (abortAndClearResume ctx.item ctx.label)
        return (ctx.label, .giveUp e.text (nextAttempt ctx.attemptsSoFar))))
    (.attempt ctx (.drawn e jitter)) (Reports setup ctx)
  cases decides : decision setup ctx e jitter with
  | retry gate =>
      apply keeps_task_bind
      apply granted_keeps setup (.recordDestAttempt _ _ _ _ _)
      · exact ⟨rfl, rfl, rfl, by rw [decides]; rfl⟩
      intro _
      refine ⟨.failed e jitter, rfl, ?_⟩
      rw [outcomeOf, decides]
  | giveUp =>
      apply keeps_task_bind
      apply granted_keeps setup (.recordDestAttempt _ _ _ _ _)
      · exact ⟨rfl, rfl, rfl, by rw [decides]; rfl⟩
      intro _
      apply keeps_task_bind
      apply keeps_always
      apply keeps_mono _ _ _ _ _ (abort_and_clear_keeps setup ctx.item ctx.label _
        (recorded_drops setup ctx (.failed e jitter)))
      rintro _ _ rfl
      refine ⟨.failed e jitter, rfl, ?_⟩
      rw [outcomeOf, decides]

theorem deliver_and_verify_keeps (ctx : AttemptCtx) (resume : Option ResumeState) :
    Keeps (discipline setup) (deliverAndVerify setup ctx resume).run (.attempt ctx .fresh)
      fun result after => after = .attempt ctx (.judged (result.map fun _ => ())) := by
  rw [deliverAndVerify]
  apply keeps_task_bind
  refine ⟨⟨rfl, rfl⟩, fun sent _ => ?_⟩
  cases sent with
  | error e => exact rfl
  | ok delivered =>
      apply keeps_task_bind
      refine ⟨⟨rfl, rfl⟩, fun verdict _ => ?_⟩
      cases verdict with
      | error e => exact rfl
      | ok passed => exact rfl

theorem attempt_keeps (ctx : AttemptCtx) :
    Keeps (discipline setup) (runAttempt setup ctx) (.attempt ctx .fresh)
      fun _ after => Finished after := by
  rw [runAttempt]
  have reports : Keeps (discipline setup) (runOneDest setup ctx).run (.attempt ctx .fresh)
      (Reports setup ctx) := by
    rw [runOneDest]
    apply keeps_task_bind
    apply granted_keeps setup (.loadResume _ _)
    · exact trivial
    intro resume
    apply keeps_task_bind
    apply keeps_always
    apply keeps_mono _ _ _ _ _ (deliver_and_verify_keeps setup ctx resume)
    rintro result _ rfl
    cases result with
    | error e => exact failed_attempt_keeps setup ctx e
    | ok delivered => exact delivered_attempt_keeps setup ctx delivered
  apply keeps_bind
  apply keeps_mono _ _ _ _ _ reports
  rintro result _ ⟨v, rfl, rfl⟩
  exact ⟨rfl, fun _ _ => ⟨v, rfl⟩⟩

/-! ## The item keeps to it -/

def Tallied (item : WorkItem) (now : Int) (existing : String → Option DestState)
    (result : Except ReplError Tally) (after : Notes) : Prop :=
  match result with
  | .ok tally => ∃ joined dry, after = .item item now (.joining existing joined dry) ∧
      tally = tallyOf setup existing joined ∧ Counted setup existing now joined dry
  | .error _ => after = .item item now .broken

theorem tally_snoc (existing : String → Option DestState) (joined : List (String × DestOutcome))
    (p : String × DestOutcome) :
    tallyOf setup existing (joined ++ [p]) = (tallyOf setup existing joined).count p := by
  rw [tallyOf, List.foldl_append]
  rfl

theorem join_all_keeps (item : WorkItem) (now : Int) (existing : String → Option DestState)
    (left : Nat) (joined : List (String × DestOutcome))
    (within : left + joined.length = (dueLabels setup existing now).length) :
    Keeps (discipline setup) (joinAll left (tallyOf setup existing joined)).run
      (.item item now (.joining existing joined false)) (Tallied setup item now existing) := by
  induction left generalizing joined with
  | zero =>
      refine ⟨joined, false, rfl, rfl, Or.inl ?_⟩
      omega
  | succ left ih =>
      rw [joinAll]
      apply keeps_task_bind
      apply keeps_always
      refine ⟨trivial, fun result _ => ?_⟩
      cases result with
      | none => exact ⟨joined, true, rfl, rfl, Or.inr rfl⟩
      | some result =>
          apply keeps_task_bind
          cases result with
          | error text => exact rfl
          | ok result =>
              cases result with
              | error e => exact rfl
              | ok p =>
                  show Keeps (discipline setup) (joinAll left ((tallyOf setup existing joined).count p)).run
                    (.item item now (.joining existing (joined ++ [p]) false)) _
                  rw [← tally_snoc]
                  apply ih
                  rw [List.length_append, List.length_singleton]
                  omega

theorem fan_out_keeps (item : WorkItem) (now : Int) (existing : String → Option DestState) :
    Keeps (discipline setup) (fanOut setup item existing now).run (.item item now (.read existing))
      (Tallied setup item now existing) := by
  rw [fanOut]
  apply keeps_task_bind
  apply keeps_always
  refine ⟨rfl, fun _ _ => ?_⟩
  exact join_all_keeps setup item now existing _ [] rfl

def Concluded {α : Type} (item : WorkItem) (now : Int) (_ : Except ReplError α) (after : Notes) :
    Prop :=
  ∃ stage, after = .item item now stage ∧ stage.concluded = true

theorem finish_exhausted_keeps (item : WorkItem) (now : Int) (existing : String → Option DestState)
    (joined : List (String × DestOutcome)) (text : String) (attempts : Nat) :
    Keeps (discipline setup) (finishExhausted setup item text attempts now).run
      (.item item now (.exhausting existing joined)) (Concluded item now) := by
  unfold finishExhausted
  split
  · apply keeps_task_bind
    apply granted_keeps setup (.setState _ _ _)
    · exact rfl
    intro _
    exact ⟨_, rfl, rfl⟩
  · apply keeps_task_bind
    apply keeps_always
    refine ⟨trivial, fun handle _ => ?_⟩
    apply keeps_task_bind
    apply keeps_always
    refine ⟨trivial, fun result _ => ?_⟩
    apply keeps_task_bind
    apply granted_keeps setup (.setState _ _ _)
    · exact rfl
    intro _
    apply keeps_task_bind
    apply keeps_always
    exact ⟨trivial, fun _ _ => ⟨_, rfl, rfl⟩⟩

theorem exhaust_item_keeps (item : WorkItem) (now : Int) (existing : String → Option DestState)
    (joined : List (String × DestOutcome)) (dry : Bool)
    (counted : Counted setup existing now joined dry)
    (giveups : (tallyOf setup existing joined).giveups ≠ []) :
    Keeps (discipline setup) (exhaustItem setup item existing now (tallyOf setup existing joined)).run
      (.item item now (.joining existing joined dry)) (Concluded item now) := by
  rw [exhaustItem]
  apply keeps_task_bind
  apply keeps_always
  apply keeps_mono _ _ _ _ _ (abort_each_keeps setup item _ _
    (joining_drops setup item now existing joined dry))
  rintro _ _ rfl
  apply keeps_task_bind
  apply granted_keeps setup (.rollUpItem _ _ _ _ _ _)
  · exact ⟨rfl, counted, Or.inr ⟨rfl, giveups⟩⟩
  intro _
  apply keeps_task_bind
  have counts : Keeps (discipline setup)
      (countFailure (newlyExhausted existing (tallyOf setup existing joined).giveups)).run
      (.item item now (.exhausting existing joined))
      fun result after => after = .item item now (.exhausting existing joined) ∧
        ∃ value, result = .ok value := by
    rw [countFailure]
    split
    · apply granted_keeps setup (.bumpStats _ _ _)
      · exact trivial
      intro _
      exact ⟨rfl, (), rfl⟩
    · exact ⟨rfl, (), rfl⟩
  apply keeps_mono _ _ _ _ _ counts
  rintro result _ ⟨rfl, value, rfl⟩
  exact finish_exhausted_keeps setup item now existing joined _ _

theorem delivered_checksum_keeps (relpath : String) (labels : List String) (item : WorkItem)
    (now : Int) (existing : String → Option DestState) (joined : List (String × DestOutcome)) :
    Keeps (discipline setup) (deliveredChecksum relpath labels)
      (.item item now (.completing existing joined))
      fun _ after => after = .item item now (.completing existing joined) := by
  induction labels with
  | nil => exact rfl
  | cons label rest ih =>
      rw [deliveredChecksum]
      apply keeps_bind
      apply granted_keeps setup (.loadResume _ _)
      · exact trivial
      intro loaded
      split
      · exact ih
      · exact rfl

theorem finish_completed_keeps (item : WorkItem) (now : Int) (existing : String → Option DestState)
    (joined : List (String × DestOutcome)) :
    Keeps (discipline setup) (finishCompleted item now).run
      (.item item now (.completing existing joined)) (Concluded item now) := by
  rw [finishCompleted]
  apply keeps_task_bind
  apply granted_keeps setup (.setState _ _ _)
  · exact rfl
  intro _
  apply keeps_task_bind
  apply keeps_always
  apply keeps_best_effort
  apply granted_keeps setup (.clearResumeAll _)
  · exact trivial
  intro _
  apply keeps_task_bind
  apply keeps_always
  apply keeps_best_effort
  apply granted_keeps setup (.clearDestStates _)
  · exact rfl
  intro _
  apply keeps_task_bind
  apply granted_keeps setup (.bumpStats _ _ _)
  · exact trivial
  intro _
  exact ⟨_, rfl, rfl⟩

theorem complete_item_keeps (item : WorkItem) (now : Int) (existing : String → Option DestState)
    (joined : List (String × DestOutcome)) (dry : Bool)
    (counted : Counted setup existing now joined dry)
    (nobody : (tallyOf setup existing joined).giveups = [])
    (all : (tallyOf setup existing joined).verified.length = setup.labels.length) :
    Keeps (discipline setup) (completeItem setup item now).run
      (.item item now (.joining existing joined dry)) (Concluded item now) := by
  rw [completeItem]
  apply keeps_task_bind
  apply granted_keeps setup (.setState _ _ _)
  · exact ⟨rfl, rfl, counted, nobody, all⟩
  intro _
  rw [runCleanup]
  apply keeps_task_bind
  apply granted_keeps setup (.setState _ _ _)
  · exact rfl
  intro _
  apply keeps_task_bind
  apply keeps_always
  apply keeps_mono _ _ _ _ _ (delivered_checksum_keeps setup item.relpath setup.labels item now
    existing joined)
  rintro checksum _ rfl
  apply keeps_task_bind
  apply keeps_always
  refine ⟨trivial, fun handle _ => ?_⟩
  apply keeps_task_bind
  apply keeps_always
  refine ⟨trivial, fun outcome _ => ?_⟩
  show Keeps (discipline setup) (settleCleanup setup item now (joinOutcome outcome)).run
    (.item item now (.completing existing joined)) _
  cases joinOutcome outcome with
  | ok done => exact finish_completed_keeps setup item now existing joined
  | error e =>
      rw [settleCleanup, recordCleanupFailure]
      apply keeps_task_bind
      apply keeps_always
      refine ⟨trivial, fun jitter _ => ?_⟩
      apply keeps_task_bind
      apply granted_keeps setup (.recordCleanupAttempt _ _ _ _ _)
      · exact ⟨rfl, rfl⟩
      intro _
      exact ⟨_, rfl, rfl⟩

theorem conclude_keeps (item : WorkItem) (now : Int) (existing : String → Option DestState)
    (joined : List (String × DestOutcome)) (dry : Bool)
    (counted : Counted setup existing now joined dry) :
    Keeps (discipline setup) (conclude setup item existing now (tallyOf setup existing joined)).run
      (.item item now (.joining existing joined dry)) (Concluded item now) := by
  unfold conclude
  split
  · rename_i giveups
    exact exhaust_item_keeps setup item now existing joined dry counted giveups
  · rename_i nobody
    have none : (tallyOf setup existing joined).giveups = [] := not_not.mp nobody
    split
    · rename_i all
      exact complete_item_keeps setup item now existing joined dry counted none all
    · rename_i some
      rw [retryItem]
      apply keeps_task_bind
      apply granted_keeps setup (.rollUpItem _ _ _ _ _ _)
      · exact ⟨rfl, counted, Or.inl ⟨rfl, none, some, rfl⟩⟩
      intro _
      exact ⟨_, rfl, rfl⟩

theorem item_keeps (item : WorkItem) (now : Int) :
    Keeps (discipline setup) (processItem setup item now) (.item item now .fresh)
      fun _ after => Finished after := by
  rw [processItem]
  apply keeps_best_effort
  rw [runPipeline]
  apply keeps_task_bind
  apply granted_keeps setup (.destStates _)
  · exact rfl
  intro existing
  apply keeps_task_bind
  apply keeps_mono _ _ _ _ _ (fan_out_keeps setup item now existing)
  intro result after tallied
  cases result with
  | error e =>
      obtain rfl : after = .item item now .broken := tallied
      exact rfl
  | ok tally =>
      obtain ⟨joined, dry, rfl, rfl, counted⟩ := tallied
      apply keeps_mono _ _ _ _ _ (conclude_keeps setup item now existing joined dry counted)
      rintro _ _ ⟨stage, rfl, concluded⟩
      exact concluded

theorem aside_keeps {α : Type} (program : Program α) (post : α → Notes → Prop)
    (holds : ∀ value, post value .aside) : Keeps (discipline setup) program .aside post := by
  induction program with
  | done value => exact holds value
  | call operation next ih => exact ⟨trivial, fun ret _ => ih ret⟩

theorem disk_keeps {α : Type} (program : FsProg α) :
    Keeps (discipline setup) (onDisk program) .pool fun _ after => after = .pool := by
  induction program with
  | done value => exact rfl
  | call operation next ih => exact ⟨trivial, fun ret _ => ih ret⟩

theorem main_keeps (spec : Spec) :
    Keeps (discipline setup) (main setup spec) (start spec) fun _ after => Finished after := by
  cases spec with
  | item owner item now => exact item_keeps setup item now
  | attempt owner ctx => exact attempt_keeps setup ctx
  | action handle ctx =>
      apply keeps_bind
      apply keeps_mono _ _ _ _ _ (disk_keeps setup _)
      rintro _ _ rfl
      exact ⟨trivial, fun _ _ => trivial⟩
  | quarantine handle job =>
      apply keeps_bind
      apply keeps_mono _ _ _ _ _ (disk_keeps setup _)
      rintro _ _ rfl
      exact ⟨trivial, fun _ _ => trivial⟩
  | recover now => exact aside_keeps setup _ _ fun _ => trivial
  | tick now ignoreWindow redriveCleanup fuel => exact aside_keeps setup _ _ fun _ => trivial

end FileReplicator.Rounds
