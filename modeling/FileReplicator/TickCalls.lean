import FileReplicator.Instance

/-!
# What a tick calls

Besides the lock, the claims and the batches: the parts of a tick that touch none
of them.
-/

namespace FileReplicator.TickCalls

open Domain Effects Operations Worker Instance

variable (setup : Setup)

/-- The states that only whoever is at work on a row takes it out of. -/
def inHand : ItemState → Bool
  | .inProgress | .verified | .exhausted => true
  | _ => false

def newState : StoreOp → Option (String × ItemState)
  | .setState relpath state _ | .rollUpItem relpath state _ _ _ _
  | .recordCleanupAttempt relpath _ state _ _ => some (relpath, state)
  | _ => none

def rowOf : Op → Option String
  | .store (.getRow relpath) | .store (.loadResume relpath _) | .store (.setDestPhase relpath _ _) =>
      some relpath
  | .store operation => (newState operation).map Prod.fst
  | _ => none

/-- Neither the lock of the tick nor a claim nor a batch, and nothing that takes a row in hand. -/
def isPlain : Op → Bool
  | .isActive | .lockTick | .unlockTick | .spawnBatch _ _ | .nextOfBatch _ | .abortBatch
  | .spawnAttempts _ | .joinAttempt | .store (.claimReady _ _) | .store .recoverIncomplete
  | .store (.destStates _) | .store (.setBytesDone _ _ _) => false
  | .store operation => (newState operation).all fun change => !inHand change.2
  | _ => true

/-- A program that calls nothing else, and about these rows only. -/
def Plain {α : Type} (mine : String → Prop) (program : Program α) : Prop :=
  Within (fun operation => isPlain operation = true ∧ ∀ relpath, rowOf operation = some relpath → mine relpath)
    program

def takesIn : Op → Bool
  | .discover | .store (.upsertReady _ _ _ _) => true
  | _ => false

def Tidy {α : Type} (mine : String → Prop) (program : Program α) : Prop :=
  Within (fun operation => (isPlain operation = true ∧
    ∀ relpath, rowOf operation = some relpath → mine relpath) ∧ takesIn operation = false) program

section Calls

variable (mine : String → Prop)

theorem plain_of_tidy {α : Type} (program : Program α) (tidy : Tidy mine program) :
    Plain mine program :=
  within_mono _ _ _ (fun _ is => is.1) tidy

theorem plain_rowless (operation : Op) (is : isPlain operation = true) (none : rowOf operation = none) :
    Plain mine (Prog.perform operation) :=
  within_perform _ _ ⟨is, fun relpath some => by rw [none] at some; cases some⟩

theorem tidy_perform (operation : Op) (is : isPlain operation = true) (leaves : takesIn operation = false)
    (row : ∀ relpath, rowOf operation = some relpath → mine relpath) :
    Tidy mine (Prog.perform operation) :=
  within_perform _ _ ⟨⟨is, row⟩, leaves⟩

theorem tidy_rowless (operation : Op) (is : isPlain operation = true) (leaves : takesIn operation = false)
    (none : rowOf operation = none) : Tidy mine (Prog.perform operation) :=
  tidy_perform mine operation is leaves fun relpath some => by rw [none] at some; cases some

theorem tidy_own (operation : Op) (is : isPlain operation = true) (leaves : takesIn operation = false)
    (relpath : String) (own : mine relpath) (row : rowOf operation = some relpath) :
    Tidy mine (Prog.perform operation) :=
  tidy_perform mine operation is leaves fun other same => by
    rw [row] at same
    cases same
    exact own

theorem plain_enqueue (now : Int) (candidates : List Candidate) :
    Plain mine (enqueueEach now candidates) := by
  induction candidates with
  | nil => exact trivial
  | cons c rest ih =>
      apply within_bind
      · exact within_best_effort _ _ (plain_rowless mine _ rfl rfl)
      · exact fun _ => ih

theorem tidy_promote_each (all : ∀ relpath, mine relpath) (now : Int) (rows : List WorkItem) :
    Tidy mine (promoteEach now rows).run := by
  induction rows with
  | nil => exact trivial
  | cons item rest ih =>
      apply within_task_bind
      · exact tidy_own mine _ rfl rfl item.relpath (all _) rfl
      · exact fun _ => ih

theorem tidy_promote (all : ∀ relpath, mine relpath) (now : Int) : Tidy mine (promoteDue now).run := by
  apply within_task_bind
  · exact tidy_rowless mine _ rfl rfl rfl
  · exact fun _ => tidy_promote_each mine all now _

theorem tidy_checksum (relpath : String) (own : mine relpath) (labels : List String) :
    Tidy mine (deliveredChecksum relpath labels) := by
  induction labels with
  | nil => exact trivial
  | cons label rest ih =>
      apply within_bind
      · exact tidy_own mine _ rfl rfl relpath own rfl
      · intro loaded
        split
        · exact ih
        · exact trivial

theorem tidy_settle (item : WorkItem) (own : mine item.relpath) (now : Int)
    (outcome : Except ReplError SourceActions.CleanupDone) :
    Tidy mine (settleCleanup setup item now outcome).run := by
  cases outcome with
  | ok done =>
      apply within_task_bind
      · exact tidy_own mine _ rfl rfl item.relpath own rfl
      intro _
      apply within_task_bind
      · exact within_always _ _ (within_best_effort _ _ (tidy_rowless mine _ rfl rfl rfl))
      intro _
      apply within_task_bind
      · exact within_always _ _ (within_best_effort _ _ (tidy_rowless mine _ rfl rfl rfl))
      intro _
      apply within_task_bind
      · exact tidy_rowless mine _ rfl rfl rfl
      · exact fun _ => trivial
  | error e =>
      apply within_task_bind
      · exact within_always _ _ (tidy_rowless mine _ rfl rfl rfl)
      intro _
      apply within_task_bind
      · exact tidy_own mine _ rfl rfl item.relpath own rfl
      · exact fun _ => trivial

theorem tidy_cleanup (item : WorkItem) (own : mine item.relpath) (now : Int) :
    Tidy mine (runCleanup setup item now).run := by
  apply within_task_bind
  · exact tidy_own mine _ rfl rfl item.relpath own rfl
  intro _
  apply within_task_bind
  · exact within_always _ _ (tidy_checksum mine _ own _)
  intro _
  apply within_task_bind
  · exact within_always _ _ (tidy_rowless mine _ rfl rfl rfl)
  intro _
  apply within_task_bind
  · exact within_always _ _ (tidy_rowless mine _ rfl rfl rfl)
  · exact fun outcome => tidy_settle setup mine item own now _

theorem tidy_cleanup_each (all : ∀ relpath, mine relpath) (now : Int) (rows : List WorkItem) :
    Tidy mine (cleanupEach setup now rows).run := by
  induction rows with
  | nil => exact trivial
  | cons item rest ih =>
      apply within_task_bind
      · exact tidy_cleanup setup mine item (all _) now
      · exact fun _ => ih

theorem tidy_drive (all : ∀ relpath, mine relpath) (now : Int) (redriveAll : Bool) :
    Tidy mine (driveCleanup setup now redriveAll).run := by
  apply within_task_bind
  · exact tidy_rowless mine _ rfl rfl rfl
  intro _
  apply within_task_bind
  · exact tidy_rowless mine _ rfl rfl rfl
  · exact fun _ => tidy_cleanup_each setup mine all now _

theorem tidy_reverify (it : WorkItem) (own : mine it.relpath) (label : String) :
    Tidy mine (reverifyOneDest it label).run := by
  apply within_task_bind
  · exact tidy_own mine _ rfl rfl it.relpath own rfl
  intro _
  apply within_task_bind
  · exact within_always _ _ (tidy_rowless mine _ rfl rfl rfl)
  intro verdict
  cases verdict with
  | ok passed =>
      apply within_task_bind
      · exact tidy_own mine _ rfl rfl it.relpath own rfl
      · exact fun _ => trivial
  | error e =>
      apply within_task_bind
      · exact tidy_own mine _ rfl rfl it.relpath own rfl
      intro _
      apply within_task_bind
      · exact within_always _ _ (within_best_effort _ _ (tidy_rowless mine _ rfl rfl rfl))
      · exact fun _ => trivial

theorem tidy_reverify_each (it : WorkItem) (own : mine it.relpath) (labels : List String) :
    Tidy mine (reverifyEach it labels).run := by
  induction labels with
  | nil => exact trivial
  | cons label rest ih =>
      apply within_task_bind
      · exact tidy_reverify mine it own label
      intro _
      apply within_task_bind
      · exact ih
      · exact fun _ => trivial

theorem tidy_recover_verified (it : WorkItem) (own : mine it.relpath) (now : Int) :
    Tidy mine (recoverVerified setup it now).run := by
  apply within_task_bind
  · exact tidy_reverify_each mine it own _
  intro ok
  cases ok with
  | true =>
      apply within_task_bind
      · exact tidy_cleanup setup mine it own now
      · exact fun _ => trivial
  | false => exact tidy_own mine _ rfl rfl it.relpath own rfl

theorem tidy_revert (all : ∀ relpath, mine relpath) (now : Int) (relpaths : List String) :
    Tidy mine (pauseRevert setup now relpaths) := by
  induction relpaths with
  | nil => exact trivial
  | cons relpath rest ih =>
      apply within_bind
      · exact tidy_own mine _ rfl rfl relpath (all _) rfl
      intro loaded
      apply within_bind
      · cases loaded with
        | error e => exact trivial
        | ok found =>
            cases found with
            | none => exact trivial
            | some row =>
                show Tidy mine (revertRow setup now row)
                unfold revertRow
                split
                · exact within_best_effort _ _ (tidy_own mine _ rfl rfl row.relpath (all _) rfl)
                · exact within_best_effort _ _ (tidy_recover_verified setup mine row (all _) now)
                · exact within_best_effort _ _ (tidy_cleanup setup mine row (all _) now)
                · exact trivial
      · exact fun _ => ih

theorem tidy_admission (ignoreWindow : Bool) : Tidy mine (admission ignoreWindow) := by
  cases ignoreWindow with
  | true => exact trivial
  | false => exact tidy_rowless mine _ rfl rfl rfl

end Calls

end FileReplicator.TickCalls
