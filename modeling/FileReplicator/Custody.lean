import FileReplicator.Protocol

/-!
# Rows taken up

What a thread has taken up: rows that were not finished when it read of them, and
destinations that it has delivered to or that the rows say are verified. It moves no
other row on, and records no other destination as verified.
-/

namespace FileReplicator.Custody

open Domain Effects FileTree SourceActions Operations Worker Instance
open Protocol (allLabels labelsOf)

variable (setup : Setup)

structure Notes where
  held : List String
  /-- `Failed` rows that are to be made ready. -/
  promoted : List String
  claimed : List String
  /-- Destinations that may be recorded as verified. -/
  trusted : List (String × String)

namespace Notes

def nothing : Notes := ⟨[], [], [], []⟩

def takes (rows : List WorkItem) (trusted : List (String × String)) : Notes :=
  ⟨rows.map WorkItem.relpath, [], [], trusted⟩

variable (n : Notes)

def leave (relpath : String) : Notes where
  held := n.held.erase relpath
  promoted := n.promoted.erase relpath
  claimed := n.claimed.filter fun r => r ≠ relpath
  trusted := n.trusted.filter fun p => p.1 ≠ relpath

def trusts (trusted : List (String × String)) : Notes :=
  { n with trusted := trusted ++ n.trusted }

end Notes

def takeRow : Option WorkItem → Notes
  | some row =>
      if row.state = .ready ∨ row.state.isTerminal = true then .nothing
      else .takes [row] (if row.state = .verified then allLabels setup row.relpath else [])
  | none => .nothing

def takeList (n : Notes) (rows : List WorkItem) : ItemState → Notes
  | .failed => { Notes.nothing with promoted := rows.map WorkItem.relpath }
  | .cleanupFailed => { Notes.nothing with held := n.held ++ rows.map WorkItem.relpath }
  | _ => .takes rows []

def learnStatement (n : Notes) : (operation : StoreOp) → StoreRet operation → Notes
  | .destStates relpath, existing =>
      n.trusts ((verifiedLabels setup existing).map fun label => (relpath, label))
  | .getRow _, row => takeRow setup row
  | .setState relpath state _, _ =>
      if state = .cleanupPending ∨ state = .verified then n else n.leave relpath
  | .rollUpItem relpath state _ _ _ _, _ => if state = .failed then n.leave relpath else n
  | .recordCleanupAttempt relpath _ _ _ _, _ => n.leave relpath
  | .claimReady _ _, rows => { Notes.takes rows [] with claimed := rows.map WorkItem.relpath }
  | .recoverIncomplete, rows =>
      .takes rows (labelsOf setup (rows.filter fun it => it.state = .verified))
  | .listByState state, rows => takeList n rows state
  | _, _ => n

def learn (n : Notes) : (operation : Op) → Ret operation → Notes
  | .store operation, .ok ret => learnStatement setup n operation ret
  | .deliver item label _, .ok _ => n.trusts [(item.relpath, label)]
  | .spawnBatch _ _, _ => .nothing
  | _, _ => n

def allowed (n : Notes) : Op → Prop
  | .store (.setDestPhase relpath label phase) => phase = .verified → (relpath, label) ∈ n.trusted
  | .store (.setState relpath _ _) => relpath ∈ n.held ∨ relpath ∈ n.promoted
  | .store (.destStates relpath) | .store (.rollUpItem relpath _ _ _ _ _)
  | .store (.recordCleanupAttempt relpath _ _ _ _) => relpath ∈ n.held
  | .startAction ctx => ctx.relpath ∈ n.held
  | .spawnAttempts contexts => ∀ ctx ∈ contexts, ctx.item.relpath ∈ n.held
  | .spawnBatch items _ => ∀ item ∈ items, item.relpath ∈ n.claimed
  | _ => True

def custody : Discipline Op Ret Notes := ⟨allowed, Protocol.possible setup, learn setup⟩

def start : Spec → Notes
  | .item _ item _ => .takes [item] []
  | _ => .nothing

/-! ## Calls that take up nothing -/

def isCalm : Op → Bool
  | .store (.destStates _) | .store (.getRow _) | .store (.setState _ _ _)
  | .store (.rollUpItem _ _ _ _ _ _) | .store (.recordCleanupAttempt _ _ _ _ _)
  | .store (.claimReady _ _) | .store .recoverIncomplete | .store (.listByState _)
  | .deliver _ _ _ | .startAction _ | .spawnAttempts _ | .spawnBatch _ _ => false
  | .store (.setDestPhase _ _ phase) => phase ≠ .verified
  | _ => true

theorem allowed_of_calm (n : Notes) (operation : Op) (calm : isCalm operation = true) :
    allowed n operation := by
  cases operation with
  | store operation =>
      cases operation with
      | setDestPhase relpath label phase => exact fun same => absurd same (of_decide_eq_true calm)
      | _ => first | exact trivial | cases calm
  | _ => first | exact trivial | cases calm

theorem learn_of_calm (n : Notes) (operation : Op) (ret : Ret operation)
    (calm : isCalm operation = true) : learn setup n operation ret = n := by
  cases operation with
  | store operation =>
      cases ret with
      | error e => rfl
      | ok ret => cases operation <;> first | rfl | cases calm
  | _ => first | rfl | cases calm

abbrev Calm {α : Type} (program : Program α) : Prop :=
  Within (fun operation => isCalm operation = true) program

theorem keeps_of_calm {α : Type} (program : Program α) (calm : Calm program) (n : Notes)
    (post : α → Notes → Prop) (holds : ∀ value, post value n) :
    Keeps (custody setup) program n post := by
  have kept := keeps_within (custody setup) _ program n
    (fun operation is => ⟨allowed_of_calm n operation is, fun ret _ => learn_of_calm setup n operation ret is⟩)
    calm
  refine keeps_mono _ _ _ _ _ kept ?_
  rintro value _ rfl
  exact holds value

theorem calm_checksum (relpath : String) (labels : List String) :
    Calm (deliveredChecksum relpath labels) := by
  induction labels with
  | nil => exact trivial
  | cons label rest ih =>
      refine ⟨rfl, fun loaded => ?_⟩
      change Calm (if _ then _ else _)
      split
      · exact ih
      · exact trivial

theorem calm_abort_and_clear (item : WorkItem) (label : String) :
    Calm (abortAndClearResume item label) := by
  apply within_bind
  · exact within_perform _ _ rfl
  intro loaded
  apply within_bind
  · unfold abortLoaded
    split
    · exact within_best_effort _ _ (within_perform _ _ rfl)
    · exact trivial
  · exact fun _ => within_best_effort _ _ (within_perform _ _ rfl)

theorem calm_abort_each (item : WorkItem) (labels : List String) : Calm (abortEach item labels) := by
  induction labels with
  | nil => exact trivial
  | cons label rest ih =>
      apply within_bind
      · exact calm_abort_and_clear item label
      · exact fun _ => ih

theorem calm_join (left : Nat) (tally : Tally) : Calm (joinAll left tally).run := by
  induction left generalizing tally with
  | zero => exact trivial
  | succ left ih =>
      apply within_task_bind
      · exact within_always _ _ (within_perform _ _ rfl)
      intro result
      cases result with
      | none => exact trivial
      | some result =>
          apply within_task_bind
          · exact trivial
          · exact fun outcome => ih _

theorem calm_failed_attempt (ctx : AttemptCtx) (e : ReplError) :
    Calm (failedAttempt setup ctx e).run := by
  apply within_task_bind
  · exact within_always _ _ (within_perform _ _ rfl)
  intro jitter
  simp only
  split
  · apply within_task_bind
    · exact within_perform _ _ rfl
    · exact fun _ => trivial
  · apply within_task_bind
    · exact within_perform _ _ rfl
    intro _
    apply within_task_bind
    · exact within_always _ _ (calm_abort_and_clear _ _)
    · exact fun _ => trivial

theorem calm_enqueue (now : Int) (candidates : List Candidate) :
    Calm (enqueueEach now candidates) := by
  induction candidates with
  | nil => exact trivial
  | cons c rest ih =>
      apply within_bind
      · exact within_best_effort _ _ (within_perform _ _ rfl)
      · exact fun _ => ih

/-! ## Rows that are moved on -/

theorem keeps_statement (operation : StoreOp) (n : Notes)
    (post : Except ReplError (StoreRet operation) → Notes → Prop)
    (may : allowed n (.store operation)) (refused : ∀ e, post (.error e) n)
    (done : ∀ ret, Protocol.possible setup (.store operation) (.ok ret) →
      post (.ok ret) (learnStatement setup n operation ret)) :
    Keeps (custody setup) (statement operation).run n post := by
  refine ⟨may, fun ret possible => ?_⟩
  cases ret with
  | ok ret => exact done ret possible
  | error e => exact refused e

/-- Unless a statement failed, the thread is done with the row. -/
def Done {α : Type} (relpath : String) (n : Notes) (result : Except ReplError α) (after : Notes) :
    Prop :=
  ∀ value, result = .ok value → after = n.leave relpath

theorem done_error {α : Type} (relpath : String) (n after : Notes) (e : ReplError) :
    Done relpath n (.error e : Except ReplError α) after := fun _ failed => by cases failed

theorem settle_cleanup_keeps (item : WorkItem) (now : Int)
    (outcome : Except ReplError CleanupDone) (n : Notes) (held : item.relpath ∈ n.held) :
    Keeps (custody setup) (settleCleanup setup item now outcome).run n (Done item.relpath n) := by
  cases outcome with
  | ok done =>
      change Keeps _ (finishCompleted item now).run n _
      apply keeps_task_bind
      apply keeps_statement
      · exact Or.inl held
      · exact fun e => done_error _ _ _ e
      intro _ _
      apply keeps_of_calm
      · apply within_task_bind
        · exact within_always _ _ (within_best_effort _ _ (within_perform _ _ rfl))
        intro _
        apply within_task_bind
        · exact within_always _ _ (within_best_effort _ _ (within_perform _ _ rfl))
        intro _
        apply within_task_bind
        · exact within_perform _ _ rfl
        · exact fun _ => trivial
      · exact fun _ _ _ => rfl
  | error e =>
      change Keeps _ (recordCleanupFailure setup item e now).run n _
      apply keeps_task_bind
      apply keeps_always
      refine ⟨trivial, fun jitter _ => ?_⟩
      apply keeps_task_bind
      apply keeps_statement
      · exact held
      · exact fun e => done_error _ _ _ e
      · exact fun _ _ _ _ => rfl

theorem run_cleanup_keeps (item : WorkItem) (now : Int) (n : Notes) (held : item.relpath ∈ n.held) :
    Keeps (custody setup) (runCleanup setup item now).run n (Done item.relpath n) := by
  apply keeps_task_bind
  apply keeps_statement
  · exact Or.inl held
  · exact fun e => done_error _ _ _ e
  intro _ _
  apply keeps_task_bind
  apply keeps_always
  apply keeps_of_calm setup _ (calm_checksum _ _)
  intro checksum
  apply keeps_task_bind
  apply keeps_always
  refine ⟨held, fun handle _ => ?_⟩
  apply keeps_task_bind
  apply keeps_always
  exact ⟨trivial, fun outcome _ => settle_cleanup_keeps setup item now _ n held⟩

theorem cleanup_each_keeps (now : Int) (rows : List WorkItem) (n : Notes)
    (held : (rows.map WorkItem.relpath).Sublist n.held) :
    Keeps (custody setup) (cleanupEach setup now rows).run n fun _ _ => True := by
  induction rows generalizing n with
  | nil => exact trivial
  | cons item rest ih =>
      apply keeps_task_bind
      apply keeps_mono _ _ _ _ _
        (run_cleanup_keeps setup item now n (held.subset List.mem_cons_self))
      intro result after done
      cases result with
      | error e => exact trivial
      | ok state =>
          rw [done state rfl]
          apply ih
          simpa only [Notes.leave, List.map_cons, List.erase_cons_head] using held.erase item.relpath

theorem drive_cleanup_keeps (now : Int) (redriveAll : Bool) (n : Notes) :
    Keeps (custody setup) (driveCleanup setup now redriveAll).run n fun _ _ => True := by
  apply keeps_task_bind
  apply keeps_statement
  · exact trivial
  · exact fun _ => trivial
  intro pending _
  apply keeps_task_bind
  apply keeps_statement
  · exact trivial
  · exact fun _ => trivial
  intro failed _
  apply cleanup_each_keeps
  rw [List.map_append]
  exact (List.Sublist.refl _).append (List.filter_sublist.map _)

theorem promote_each_keeps (now : Int) (rows : List WorkItem) (n : Notes)
    (listed : (rows.map WorkItem.relpath).Sublist n.promoted) :
    Keeps (custody setup) (promoteEach now rows).run n fun _ _ => True := by
  induction rows generalizing n with
  | nil => exact trivial
  | cons item rest ih =>
      apply keeps_task_bind
      apply keeps_statement
      · exact Or.inr (listed.subset List.mem_cons_self)
      · exact fun _ => trivial
      intro _ _
      apply ih
      simpa only [learnStatement, Notes.leave, List.map_cons, List.erase_cons_head, reduceCtorEq,
        or_self, if_false] using listed.erase item.relpath

theorem promote_due_keeps (now : Int) (n : Notes) :
    Keeps (custody setup) (promoteDue now).run n fun _ _ => True := by
  apply keeps_task_bind
  apply keeps_statement
  · exact trivial
  · exact fun _ => trivial
  intro failed _
  apply promote_each_keeps
  exact List.filter_sublist.map _

theorem finish_exhausted_keeps (item : WorkItem) (lastError : String) (attempts : Nat) (now : Int)
    (n : Notes) (held : item.relpath ∈ n.held) :
    Keeps (custody setup) (finishExhausted setup item lastError attempts now).run n
      (Done item.relpath n) := by
  unfold finishExhausted
  split
  · apply keeps_task_bind
    apply keeps_statement
    · exact Or.inl held
    · exact fun e => done_error _ _ _ e
    · exact fun _ _ _ _ => rfl
  · apply keeps_task_bind
    apply keeps_always
    refine ⟨trivial, fun handle _ => ?_⟩
    apply keeps_task_bind
    apply keeps_always
    refine ⟨trivial, fun joined _ => ?_⟩
    apply keeps_task_bind
    apply keeps_statement
    · exact Or.inl held
    · exact fun e => done_error _ _ _ e
    intro _ _
    apply keeps_task_bind
    apply keeps_always
    exact ⟨trivial, fun _ _ _ _ => rfl⟩

theorem exhaust_each_keeps (now : Int) (rows : List WorkItem) (n : Notes)
    (held : (rows.map WorkItem.relpath).Sublist n.held) :
    Keeps (custody setup) (exhaustEach setup now rows).run n fun _ _ => True := by
  induction rows generalizing n with
  | nil => exact trivial
  | cons item rest ih =>
      apply keeps_task_bind
      apply keeps_mono _ _ _ _ _
        (finish_exhausted_keeps setup item _ _ now n (held.subset List.mem_cons_self))
      intro result after done
      cases result with
      | error e => exact trivial
      | ok state =>
          rw [done state rfl]
          apply ih
          simpa only [Notes.leave, List.map_cons, List.erase_cons_head] using held.erase item.relpath

/-! ## Recovery -/

theorem reverify_each_keeps (it : WorkItem) (labels : List String) (n : Notes)
    (trusted : ∀ label ∈ labels, (it.relpath, label) ∈ n.trusted) :
    Keeps (custody setup) (reverifyEach it labels).run n fun _ after => after = n := by
  induction labels with
  | nil => rfl
  | cons label rest ih =>
      have one : Keeps (custody setup) (reverifyOneDest it label).run n fun _ after => after = n := by
        apply keeps_task_bind
        apply keeps_statement
        · exact trivial
        · exact fun _ => rfl
        intro resume _
        apply keeps_task_bind
        apply keeps_always
        refine ⟨trivial, fun verdict _ => ?_⟩
        change Keeps _ (settleReverify it label verdict).run n _
        cases verdict with
        | ok passed =>
            apply keeps_task_bind
            apply keeps_statement
            · exact fun _ => trusted label List.mem_cons_self
            · exact fun _ => rfl
            · exact fun _ _ => rfl
        | error e =>
            refine keeps_of_calm setup _ ?_ n _ fun _ => rfl
            apply within_task_bind
            · exact within_perform _ _ rfl
            intro _
            apply within_task_bind
            · exact within_always _ _ (within_best_effort _ _ (within_perform _ _ rfl))
            · exact fun _ => trivial
      apply keeps_task_bind
      apply keeps_mono _ _ _ _ _ one
      rintro result _ rfl
      cases result with
      | error e => rfl
      | ok passed =>
          apply keeps_task_bind
          apply keeps_mono _ _ _ _ _ (ih fun l member => trusted l (List.mem_cons_of_mem _ member))
          rintro others _ rfl
          cases others <;> rfl

theorem recover_verified_keeps (it : WorkItem) (now : Int) (n : Notes) (held : it.relpath ∈ n.held)
    (trusted : ∀ label ∈ setup.labels, (it.relpath, label) ∈ n.trusted) :
    Keeps (custody setup) (recoverVerified setup it now).run n (Done it.relpath n) := by
  apply keeps_task_bind
  apply keeps_mono _ _ _ _ _ (reverify_each_keeps setup it setup.labels n trusted)
  rintro result _ rfl
  cases result with
  | error e => exact done_error _ _ _ e
  | ok allOk =>
      cases allOk with
      | true =>
          apply keeps_task_bind
          apply keeps_mono _ _ _ _ _ (run_cleanup_keeps setup it now _ held)
          intro result after done
          cases result with
          | error e => exact done_error _ _ _ e
          | ok state => exact fun _ _ => done state rfl
      | false =>
          apply keeps_statement
          · exact Or.inl held
          · exact fun e => done_error _ _ _ e
          · exact fun _ _ _ _ => rfl

theorem trusts_leave (n : Notes) (relpath : String) (labels : List String) :
    (n.trusts (labels.map fun label => (relpath, label))).leave relpath = n.leave relpath := by
  have none : (labels.map fun label => (relpath, label)).filter (fun p => decide (p.1 ≠ relpath)) =
      [] := by
    refine List.filter_eq_nil_iff.mpr fun p member => ?_
    obtain ⟨label, _, rfl⟩ := List.mem_map.mp member
    simp
  simp only [Notes.trusts, Notes.leave, List.filter_append, none, List.nil_append]

theorem recover_interrupted_keeps (it : WorkItem) (now : Int) (n : Notes)
    (held : it.relpath ∈ n.held) :
    Keeps (custody setup) (do
      reverifyPersistedVerified setup it
      setState it.relpath .ready now : Work Unit).run n (Done it.relpath n) := by
  apply keeps_task_bind
  apply keeps_task_bind
  apply keeps_statement
  · exact held
  · exact fun e => done_error _ _ _ e
  intro existing _
  apply keeps_task_bind
  apply keeps_mono _ _ _ _ _ (reverify_each_keeps setup it (verifiedLabels setup existing)
    (n.trusts ((verifiedLabels setup existing).map fun label => (it.relpath, label))) ?_)
  · rintro result _ rfl
    cases result with
    | error e => exact done_error _ _ _ e
    | ok passed =>
        apply keeps_statement
        · exact Or.inl held
        · exact fun e => done_error _ _ _ e
        · exact fun _ _ _ _ => trusts_leave n it.relpath _
  · intro label member
    exact List.mem_append_left _ (List.mem_map_of_mem member)

/-- What recovery may take for granted of the rows on its list. -/
structure Listed (rows : List WorkItem) (n : Notes) : Prop where
  held : (rows.map WorkItem.relpath).Sublist n.held
  different : (rows.map WorkItem.relpath).Nodup
  trusted : ∀ it ∈ rows, it.state = .verified → ∀ label ∈ setup.labels, (it.relpath, label) ∈ n.trusted

theorem listed_rest (it : WorkItem) (rest : List WorkItem) (n : Notes)
    (listed : Listed setup (it :: rest) n) :
    Listed setup rest n ∧ Listed setup rest (n.leave it.relpath) := by
  obtain ⟨held, different, trusted⟩ := listed
  rw [List.map_cons, List.nodup_cons] at different
  refine ⟨⟨(List.sublist_cons_self _ _).trans held, different.2,
    fun other member => trusted other (List.mem_cons_of_mem _ member)⟩, ?_, different.2, ?_⟩
  · simpa only [Notes.leave, List.map_cons, List.erase_cons_head] using held.erase it.relpath
  · intro other member verified label labelled
    refine List.mem_filter.mpr ⟨trusted other (List.mem_cons_of_mem _ member) verified label labelled, ?_⟩
    have apart : other.relpath ≠ it.relpath := by
      intro same
      exact different.1 (same ▸ List.mem_map_of_mem member)
    simpa using apart

theorem recover_each_keeps (now : Int) (rows : List WorkItem) (n : Notes)
    (listed : Listed setup rows n) :
    Keeps (custody setup) (recoverEach setup now rows).run n fun _ _ => True := by
  induction rows generalizing n with
  | nil => exact trivial
  | cons it rest ih =>
      obtain ⟨same, left⟩ := listed_rest setup it rest n listed
      have held : it.relpath ∈ n.held := listed.held.subset List.mem_cons_self
      -- a row that was moved on, and a row of a state that recovery passes over
      have going : ∀ (value : Unit) (after : Notes),
          Done it.relpath n (.ok value : Except ReplError Unit) after →
            Keeps (custody setup) (recoverEach setup now rest).run after fun _ _ => True := by
        intro value after done
        rw [done value rfl]
        exact ih _ left
      apply keeps_task_bind
      unfold recoverOne
      split
      · rename_i verified
        apply keeps_mono _ _ _ _ _ (recover_verified_keeps setup it now n held
          (listed.trusted it List.mem_cons_self verified))
        intro result after done
        cases result with
        | error e => exact trivial
        | ok value => exact going value after done
      · apply keeps_task_bind
        apply keeps_mono _ _ _ _ _ (run_cleanup_keeps setup it now n held)
        intro result after done
        cases result with
        | error e => exact trivial
        | ok state => exact going () after fun _ _ => done state rfl
      · apply keeps_mono _ _ _ _ _ (recover_interrupted_keeps setup it now n held)
        intro result after done
        cases result with
        | error e => exact trivial
        | ok value => exact going value after done
      · exact ih n same

theorem recover_keeps (now : Int) :
    Keeps (custody setup) (bestEffort (recover setup now)) .nothing fun _ _ => True := by
  apply keeps_best_effort
  apply keeps_task_bind
  apply keeps_statement
  · exact trivial
  · exact fun _ => trivial
  intro rows possible
  apply keeps_task_bind
  apply keeps_mono _ _ _ _ _ (recover_each_keeps setup now rows _ ⟨List.Sublist.refl _, possible, ?_⟩)
  · intro result after _
    cases result with
    | error e => exact trivial
    | ok value =>
        apply keeps_task_bind
        apply keeps_statement
        · exact trivial
        · exact fun _ => trivial
        intro exhausted _
        apply exhaust_each_keeps
        exact List.Sublist.refl _
  · intro it member verified label labelled
    refine List.mem_flatMap.mpr ⟨it, List.mem_filter.mpr ⟨member, by simpa using verified⟩, ?_⟩
    exact List.mem_map_of_mem labelled

theorem attempt_keeps (ctx : AttemptCtx) :
    Keeps (custody setup) (runAttempt setup ctx) .nothing fun _ _ => True := by
  apply keeps_bind
  apply keeps_task_bind
  apply keeps_statement
  · exact trivial
  · exact fun _ => ⟨trivial, fun _ _ => trivial⟩
  intro resume _
  apply keeps_task_bind
  apply keeps_always
  -- a delivery that stands may be recorded
  have sent : Keeps (custody setup) (deliverAndVerify setup ctx resume).run .nothing fun result after =>
      result.isOk = true → (ctx.item.relpath, ctx.label) ∈ after.trusted := by
    apply keeps_task_bind
    refine ⟨trivial, fun delivered _ => ?_⟩
    cases delivered with
    | error e => exact fun failed => by cases failed
    | ok delivered =>
        apply keeps_task_bind
        refine ⟨trivial, fun verdict _ => ?_⟩
        cases verdict with
        | error e => exact fun failed => by cases failed
        | ok passed => exact fun _ => List.mem_cons_self
  apply keeps_mono _ _ _ _ _ sent
  intro outcome n trusted
  cases outcome with
  | error e =>
      apply keeps_of_calm setup _ (calm_failed_attempt setup ctx e)
      exact fun result => ⟨trivial, fun _ _ => trivial⟩
  | ok delivered =>
      apply keeps_task_bind
      apply keeps_always
      apply keeps_best_effort
      refine ⟨trivial, fun saved _ => ?_⟩
      have after : (custody setup).learn n (.store (.saveResume ctx.item.relpath ctx.label
          ⟨delivered.bytes, .verified delivered⟩)) saved = n :=
        learn_of_calm setup n _ saved rfl
      rw [after]
      apply keeps_task_bind
      apply keeps_statement
      · exact fun _ => trusted rfl
      · exact fun _ => ⟨trivial, fun _ _ => trivial⟩
      · exact fun _ _ => ⟨trivial, fun _ _ => trivial⟩

theorem conclude_keeps (item : WorkItem) (existing : String → Option DestState) (now : Int)
    (tally : Tally) (n : Notes) (held : item.relpath ∈ n.held) :
    Keeps (custody setup) (conclude setup item existing now tally).run n fun _ _ => True := by
  unfold conclude
  split
  · apply keeps_task_bind
    apply keeps_always
    apply keeps_of_calm setup _ (calm_abort_each _ _)
    intro _
    apply keeps_task_bind
    apply keeps_statement
    · exact held
    · exact fun _ => trivial
    intro _ _
    apply keeps_task_bind
    apply keeps_of_calm
    · unfold countFailure
      split
      · exact within_perform _ _ rfl
      · exact trivial
    intro counted
    cases counted with
    | error e => exact trivial
    | ok counted =>
        exact keeps_mono _ _ _ _ _ (finish_exhausted_keeps setup item _ _ now n held)
          fun _ _ _ => trivial
  · split
    · apply keeps_task_bind
      apply keeps_statement
      · exact Or.inl held
      · exact fun _ => trivial
      intro _ _
      exact keeps_mono _ _ _ _ _ (run_cleanup_keeps setup item now n held) fun _ _ _ => trivial
    · apply keeps_task_bind
      apply keeps_statement
      · exact held
      · exact fun _ => trivial
      · exact fun _ _ => trivial

theorem item_keeps (item : WorkItem) (now : Int) :
    Keeps (custody setup) (processItem setup item now) (.takes [item] []) fun _ _ => True := by
  apply keeps_best_effort
  apply keeps_task_bind
  apply keeps_statement
  · exact List.mem_cons_self
  · exact fun _ => trivial
  intro existing _
  apply keeps_task_bind
  apply keeps_task_bind
  apply keeps_always
  refine ⟨?_, fun _ _ => ?_⟩
  · intro ctx member
    obtain ⟨label, _, rfl⟩ := List.mem_map.mp member
    exact List.mem_cons_self
  apply keeps_of_calm setup _ (calm_join _ _)
  intro tally
  cases tally with
  | error e => exact trivial
  | ok tally => exact conclude_keeps setup item existing now tally _ List.mem_cons_self

/-! ## Ticks -/

theorem pause_revert_keeps (now : Int) (relpaths : List String) (n : Notes) :
    Keeps (custody setup) (pauseRevert setup now relpaths) n fun _ _ => True := by
  induction relpaths generalizing n with
  | nil => exact trivial
  | cons relpath rest ih =>
      apply keeps_bind
      apply keeps_statement
      · exact trivial
      · exact fun _ => ih n
      intro found _
      apply keeps_bind
      cases found with
      | none => exact ih _
      | some row =>
          change Keeps _ (revertRow setup now row) (takeRow setup (some row)) _
          unfold revertRow
          split
          · rename_i state
            apply keeps_best_effort
            apply keeps_statement
            · left
              simp [takeRow, state, ItemState.isTerminal, Notes.takes]
            · exact fun _ => ih _
            · exact fun _ _ => ih _
          · rename_i state
            apply keeps_best_effort
            apply keeps_mono _ _ _ _ _ (recover_verified_keeps setup row now _ ?_ ?_)
            · exact fun _ _ _ => ih _
            · simp [takeRow, state, ItemState.isTerminal, Notes.takes]
            · intro label member
              simp [takeRow, state, ItemState.isTerminal, Notes.takes, allLabels, member]
          · rename_i state
            apply keeps_best_effort
            apply keeps_mono _ _ _ _ _ (run_cleanup_keeps setup row now _ ?_)
            · exact fun _ _ _ => ih _
            · simp [takeRow, state, ItemState.isTerminal, Notes.takes]
          · exact ih _

theorem close_keeps (batch : List WorkItem) (now : Int) (onClose : WindowClose) (n : Notes) :
    Keeps (custody setup) (closeBatch setup batch now onClose) n fun _ _ => True := by
  unfold closeBatch
  split
  · exact ⟨trivial, fun _ _ => ⟨trivial, fun _ _ => pause_revert_keeps setup now _ _⟩⟩
  · exact ⟨trivial, fun _ _ => trivial⟩

theorem claimed_rows (rows : List WorkItem) (item : WorkItem) (member : item ∈ rows) :
    item.relpath ∈ ({ Notes.takes rows [] with claimed := rows.map WorkItem.relpath } : Notes).claimed :=
  List.mem_map_of_mem member

theorem admitted_keeps (drain : Bool) (now : Int) (fuel : Nat) (n : Notes) :
    Keeps (custody setup) (runAdmitted setup drain now fuel) n fun _ _ => True := by
  induction fuel generalizing n with
  | zero => exact trivial
  | succ fuel ih =>
      apply keeps_bind
      apply keeps_statement
      · exact trivial
      · exact fun _ => trivial
      intro batch _
      cases batch with
      | nil => exact trivial
      | cons item rest =>
          refine ⟨claimed_rows (item :: rest), fun _ _ => ⟨trivial, fun _ _ => ?_⟩⟩
          cases drain with
          | true => exact ih _
          | false => exact trivial

theorem windowed_keeps (onClose : WindowClose) (now : Int) (fuel : Nat) (n : Notes) :
    Keeps (custody setup) (runWindowed setup onClose now fuel) n fun _ _ => True := by
  induction fuel generalizing n with
  | zero => exact trivial
  | succ fuel ih =>
      rw [runWindowed]
      apply keeps_bind
      apply keeps_perform _ _ _ _ trivial
      intro passed _
      cases passed with
      | true => exact trivial
      | false =>
          apply keeps_bind
          apply keeps_statement
          · exact trivial
          · exact fun _ => trivial
          intro batch _
          cases batch with
          | nil => exact trivial
          | cons item rest =>
              refine ⟨claimed_rows (item :: rest), fun _ _ => ⟨trivial, fun event _ => ?_⟩⟩
              cases event with
              | drained => exact ih _
              | closed =>
                  change Keeps _ ((closeBatch setup (item :: rest) now onClose >>= fun _ =>
                    (return true : Program Bool)) >>= _) _ _
                  apply keeps_bind
                  apply keeps_bind
                  exact keeps_mono _ _ _ _ _ (close_keeps setup _ now onClose _) fun _ _ _ => trivial

theorem admission_keeps (fuel : Nat) (now : Int) (admitted : Admission) (n : Notes) :
    Keeps (custody setup) (runAdmission setup fuel now admitted) n fun _ _ => True := by
  cases admitted with
  | all drain => exact admitted_keeps setup drain now fuel n
  | none => exact trivial
  | windowed onClose => exact windowed_keeps setup onClose now fuel n

theorem calm_admission (ignoreWindow : Bool) : Calm (admission ignoreWindow) := by
  cases ignoreWindow with
  | true => exact trivial
  | false => exact within_perform _ _ rfl

theorem tick_keeps (now : Int) (ignoreWindow redriveCleanup : Bool) (fuel : Nat) :
    Keeps (custody setup) (runTick setup now ignoreWindow redriveCleanup fuel) .nothing
      fun _ _ => True := by
  refine ⟨trivial, fun active _ => ?_⟩
  cases active with
  | false => exact trivial
  | true =>
      change Keeps (custody setup) (tickBody setup now ignoreWindow redriveCleanup fuel) .nothing _
      rw [tickBody]
      apply keeps_bind
      apply keeps_of_calm setup _ (within_perform _ _ rfl)
      intro _
      apply keeps_bind
      apply keeps_of_calm setup _ (within_perform _ _ rfl)
      intro ready
      apply keeps_bind
      apply keeps_of_calm setup _ (calm_enqueue now ready)
      intro _
      apply keeps_bind
      apply keeps_best_effort
      apply keeps_mono _ _ _ _ _ (promote_due_keeps setup now _)
      intro _ promoted _
      apply keeps_bind
      apply keeps_best_effort
      apply keeps_mono _ _ _ _ _ (drive_cleanup_keeps setup now redriveCleanup promoted)
      intro _ driven _
      apply keeps_bind
      apply keeps_of_calm setup _ (calm_admission ignoreWindow)
      intro admitted
      apply keeps_bind
      apply keeps_mono _ _ _ _ _ (admission_keeps setup fuel now admitted driven)
      intro _ last _
      exact keeps_of_calm setup _ (within_perform _ _ rfl) last _ fun _ => trivial

theorem calm_disk {α : Type} (program : FsProg α) : Calm (onDisk program) := by
  induction program with
  | done value => exact trivial
  | call operation next ih => exact ⟨rfl, ih⟩

theorem main_keeps (spec : Spec) :
    Keeps (custody setup) (main setup spec) (start spec) fun _ _ => True := by
  cases spec with
  | recover now => exact recover_keeps setup now
  | tick now ignoreWindow redriveCleanup fuel => exact tick_keeps setup now ignoreWindow redriveCleanup fuel
  | item owner item now => exact item_keeps setup item now
  | attempt owner ctx => exact attempt_keeps setup ctx
  | action handle ctx =>
      refine keeps_of_calm setup _ ?_ _ _ fun _ => trivial
      apply within_bind
      · exact calm_disk _
      · exact fun _ => within_perform _ _ rfl
  | quarantine handle job =>
      refine keeps_of_calm setup _ ?_ _ _ fun _ => trivial
      apply within_bind
      · exact calm_disk _
      · exact fun _ => within_perform _ _ rfl

end FileReplicator.Custody
