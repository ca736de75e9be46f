import FileReplicator.Protocol

/-!
# Every thread keeps to the protocol

One lemma for each function of the worker and the instance: from which notes it
may start, and what the notes say at its end.
-/

namespace FileReplicator.ThreadsKeep

open Domain DurableStore Effects FileTree SourceActions Operations Worker Instance Protocol

variable (setup : Setup)

/-! ## Operations -/

theorem keeps_statement (operation : StoreOp) (n : Notes)
    (post : Except ReplError (StoreRet operation) → Notes → Prop)
    (may : allowedStatement setup n operation)
    (refused : ∀ e, post (.error e) (learnRefused n operation))
    (done : ∀ ret, possible setup (.store operation) (.ok ret) →
      post (.ok ret) (learnStatement setup n operation ret)) :
    Keeps (discipline setup) (statement operation).run n post := by
  refine ⟨may, fun ret may_be => ?_⟩
  cases ret with
  | ok ret => exact done ret may_be
  | error e => exact refused e

/-- A program that is always allowed and teaches nothing. -/
def Quiet {α : Type} (program : Program α) : Prop :=
  ∀ (n : Notes) (post : α → Notes → Prop), (∀ value, post value n) →
    Keeps (discipline setup) program n post

theorem quiet_pure {α : Type} (value : α) : Quiet setup (pure value : Program α) :=
  fun _ _ holds => holds value

theorem quiet_bind {α β : Type} (program : Program α) (next : α → Program β)
    (quiet : Quiet setup program) (rest : ∀ value, Quiet setup (next value)) :
    Quiet setup (program >>= next) := by
  intro n post holds
  apply keeps_bind
  apply quiet
  intro value
  exact rest value n post holds

theorem quiet_best_effort {α : Type} (task : Work α) (quiet : Quiet setup task.run) :
    Quiet setup (bestEffort task) := by
  apply quiet_bind setup _ _ quiet
  intro result
  exact quiet_pure setup ()

theorem quiet_perform (operation : Op) (free : ∀ n, allowed setup n operation)
    (dull : ∀ n ret, learn setup n operation ret = n) : Quiet setup (Prog.perform operation) := by
  intro n post holds
  apply keeps_perform
  · exact free n
  · intro ret _
    rw [show (discipline setup).learn n operation ret = n from dull n ret]
    exact holds ret

theorem quiet_load_resume (relpath dest : String) : Quiet setup (loadResume relpath dest).run :=
  fun n _ holds => keeps_statement setup (.loadResume relpath dest) n _ trivial
    (fun e => holds (.error e)) fun ret _ => holds (.ok ret)

theorem quiet_clear_resume (relpath dest : String) : Quiet setup (clearResume relpath dest).run :=
  fun n _ holds => keeps_statement setup (.clearResume relpath dest) n _ trivial
    (fun e => holds (.error e)) fun ret _ => holds (.ok ret)

theorem quiet_clear_resume_all (relpath : String) : Quiet setup (clearResumeAll relpath).run :=
  fun n _ holds => keeps_statement setup (.clearResumeAll relpath) n _ trivial
    (fun e => holds (.error e)) fun ret _ => holds (.ok ret)

theorem quiet_clear_dest_states (relpath : String) : Quiet setup (clearDestStates relpath).run :=
  fun n _ holds => keeps_statement setup (.clearDestStates relpath) n _ trivial
    (fun e => holds (.error e)) fun ret _ => holds (.ok ret)

theorem quiet_bump_stats (replicated failed bytes : Int64) :
    Quiet setup (bumpStats replicated failed bytes).run :=
  fun n _ holds => keeps_statement setup (.bumpStats replicated failed bytes) n _ trivial
    (fun e => holds (.error e)) fun ret _ => holds (.ok ret)

theorem quiet_abort (item : WorkItem) (label : String) (resume : ResumeState) :
    Quiet setup (abort item label resume).run :=
  fun _ _ holds => ⟨trivial, fun ret _ => holds ret⟩

theorem quiet_draw : Quiet setup draw :=
  quiet_perform setup .draw (fun _ => trivial) fun _ _ => rfl

theorem quiet_is_active : Quiet setup isActive :=
  quiet_perform setup .isActive (fun _ => trivial) fun _ _ => rfl

theorem quiet_lock_tick : Quiet setup lockTick :=
  quiet_perform setup .lockTick (fun _ => trivial) fun _ _ => rfl

theorem quiet_unlock_tick : Quiet setup unlockTick :=
  quiet_perform setup .unlockTick (fun _ => trivial) fun _ _ => rfl

theorem quiet_discover : Quiet setup discover :=
  quiet_perform setup .discover (fun _ => trivial) fun _ _ => rfl

theorem quiet_evaluate_schedule : Quiet setup evaluateSchedule :=
  quiet_perform setup .evaluateSchedule (fun _ => trivial) fun _ _ => rfl

theorem quiet_deadline_passed : Quiet setup deadlinePassed :=
  quiet_perform setup .deadlinePassed (fun _ => trivial) fun _ _ => rfl

theorem quiet_delivered_checksum (relpath : String) (labels : List String) :
    Quiet setup (deliveredChecksum relpath labels) := by
  induction labels with
  | nil => exact quiet_pure setup _
  | cons label rest ih =>
      rw [deliveredChecksum]
      apply quiet_bind setup _ _ (quiet_load_resume setup relpath label)
      intro loaded
      split
      · exact ih
      · exact quiet_pure setup _

theorem quiet_abort_and_clear (item : WorkItem) (label : String) :
    Quiet setup (abortAndClearResume item label) := by
  apply quiet_bind setup _ _ (quiet_load_resume setup item.relpath label)
  intro loaded
  apply quiet_bind setup
  · unfold abortLoaded
    split
    · exact quiet_best_effort setup _ (quiet_abort setup item label _)
    · exact quiet_pure setup ()
  · intro _
    exact quiet_best_effort setup _ (quiet_clear_resume setup item.relpath label)

theorem quiet_abort_each (item : WorkItem) (labels : List String) :
    Quiet setup (abortEach item labels) := by
  induction labels with
  | nil => exact quiet_pure setup ()
  | cons label rest ih =>
      rw [abortEach]
      apply quiet_bind setup _ _ (quiet_abort_and_clear setup item label)
      intro _
      exact ih

/-! ## Completion -/

/-- The thread is between two rows again, in the same role. -/
structure Rest (n after : Notes) : Prop where
  role : after.role = n.role
  stage : after.stage = .idle

theorem rest_self (n : Notes) (idle : n.stage = .idle) : Rest n n := ⟨rfl, idle⟩

theorem rest_trans {n middle after : Notes} (first : Rest n middle) (second : Rest middle after) :
    Rest n after :=
  ⟨second.role.trans first.role, second.stage⟩

/-- A row was driven: unless a statement failed it is off the list, and nothing else changed. -/
def Driven {α : Type} (relpath : String) (n : Notes) (result : Except ReplError α)
    (after : Notes) : Prop :=
  Rest n after ∧ ∀ value, result = .ok value →
    after.todo = n.todo.erase relpath ∧ after.sure = n.sure

theorem driven_of {α : Type} {relpath : String} {n later after : Notes} {result : Except ReplError α}
    (driven : Driven relpath later result after) (role : later.role = n.role)
    (todo : later.todo = n.todo) (sure : later.sure = n.sure) : Driven relpath n result after := by
  constructor
  · exact ⟨driven.1.role.trans role, driven.1.stage⟩
  · intro value done
    rw [← todo, ← sure]
    exact driven.2 value done

theorem finish_completed_keeps (item : WorkItem) (now : Int) (n : Notes) (ctx : CleanupCtx)
    (done : CleanupDone) (stage : n.stage = .acted ctx done) (own : ctx.relpath = item.relpath)
    (listed : item.relpath ∈ n.todo) :
    Keeps (discipline setup) (finishCompleted item now).run n (Driven item.relpath n) := by
  rw [finishCompleted]
  apply keeps_task_bind
  apply keeps_statement
  · exact ⟨ctx, done, stage, own, listed⟩
  · intro e
    exact ⟨⟨rfl, rfl⟩, fun _ failed => by cases failed⟩
  intro _ _
  apply keeps_task_bind
  apply keeps_always
  apply quiet_best_effort setup _ (quiet_clear_resume_all setup item.relpath)
  intro _
  apply keeps_task_bind
  apply keeps_always
  apply quiet_best_effort setup _ (quiet_clear_dest_states setup item.relpath)
  intro _
  apply keeps_task_bind
  apply quiet_bump_stats setup 1 0 _
  intro result
  cases result with
  | ok _ => exact ⟨⟨rfl, rfl⟩, fun _ _ => ⟨rfl, rfl⟩⟩
  | error e => exact ⟨⟨rfl, rfl⟩, fun _ failed => by cases failed⟩

theorem record_cleanup_failure_keeps (item : WorkItem) (error : ReplError) (now : Int) (n : Notes)
    (ctx : CleanupCtx) (stage : n.stage = .failed ctx) (own : ctx.relpath = item.relpath)
    (listed : item.relpath ∈ n.todo) :
    Keeps (discipline setup) (recordCleanupFailure setup item error now).run n
      (Driven item.relpath n) := by
  rw [recordCleanupFailure]
  apply keeps_task_bind
  apply keeps_always
  apply quiet_draw
  intro jitter
  apply keeps_task_bind
  apply keeps_statement
  · exact ⟨rfl, listed, ctx, stage, own⟩
  · intro e
    exact ⟨⟨rfl, rfl⟩, fun _ failed => by cases failed⟩
  intro _ _
  exact ⟨⟨rfl, rfl⟩, fun _ _ => ⟨rfl, rfl⟩⟩

theorem run_cleanup_keeps (item : WorkItem) (now : Int) (n : Notes) (idle : n.stage = .idle)
    (listed : item.relpath ∈ n.todo) (surely : n.surely setup item.relpath) :
    Keeps (discipline setup) (runCleanup setup item now).run n (Driven item.relpath n) := by
  rw [runCleanup]
  apply keeps_task_bind
  apply keeps_statement
  · exact ⟨idle, listed, surely⟩
  · intro e
    exact ⟨⟨rfl, rfl⟩, fun _ failed => by cases failed⟩
  intro _ _
  apply keeps_task_bind
  apply keeps_always
  apply quiet_delivered_checksum
  intro checksum
  apply keeps_task_bind
  apply keeps_always
  refine ⟨⟨rfl, listed, surely, item, checksum, rfl⟩, fun handle _ => ?_⟩
  apply keeps_task_bind
  apply keeps_always
  refine ⟨⟨_, rfl⟩, fun outcome _ => ?_⟩
  -- the outcome decides which of the two statements may follow
  have failing : ∀ e later, later.stage = .failed (cleanupCtx setup item checksum) →
      later.role = n.role → later.todo = n.todo → later.sure = n.sure →
      Keeps (discipline setup) (recordCleanupFailure setup item e now).run later
        (Driven item.relpath n) := by
    intro e later stage role todo sure
    apply keeps_mono _ _ _ _ _
      (record_cleanup_failure_keeps setup item e now later _ stage rfl (todo ▸ listed))
    intro result after driven
    exact driven_of driven role todo sure
  have finishing : ∀ done later, later.stage = .acted (cleanupCtx setup item checksum) done →
      later.role = n.role → later.todo = n.todo → later.sure = n.sure →
      Keeps (discipline setup) (finishCompleted item now).run later (Driven item.relpath n) := by
    intro done later stage role todo sure
    apply keeps_mono _ _ _ _ _
      (finish_completed_keeps setup item now later _ done stage rfl (todo ▸ listed))
    intro result after driven
    exact driven_of driven role todo sure
  cases outcome with
  | error text => exact failing _ _ rfl rfl rfl rfl
  | ok result =>
      cases result with
      | error e => exact failing e _ rfl rfl rfl rfl
      | ok done => exact finishing done _ rfl rfl rfl rfl

theorem cleanup_each_keeps (now : Int) (rows : List WorkItem) (n : Notes) (idle : n.stage = .idle)
    (listed : (rows.map WorkItem.relpath).Sublist n.todo)
    (surely : ∀ it ∈ rows, n.surely setup it.relpath) :
    Keeps (discipline setup) (cleanupEach setup now rows).run n fun _ after => Rest n after := by
  induction rows generalizing n with
  | nil => exact rest_self n idle
  | cons item rest ih =>
      rw [cleanupEach]
      apply keeps_task_bind
      apply keeps_mono _ _ _ _ _ (run_cleanup_keeps setup item now n idle
        (listed.subset List.mem_cons_self) (surely item List.mem_cons_self))
      intro result after driven
      cases result with
      | error e => exact driven.1
      | ok state =>
          obtain ⟨todo, sure⟩ := driven.2 state rfl
          apply keeps_mono _ _ _ _ _ (ih after driven.1.stage ?_ ?_)
          · intro _ last quiet
            exact rest_trans driven.1 quiet
          · rw [todo]
            simpa only [List.map_cons, List.erase_cons_head] using listed.erase item.relpath
          · intro it member
            have known := surely it (List.mem_cons_of_mem _ member)
            simpa only [Notes.surely, sure] using known

theorem surely_labels_of (rows : List WorkItem) (n : Notes)
    (known : ∀ p ∈ labelsOf setup rows, p ∈ n.sure) :
    ∀ it ∈ rows, n.surely setup it.relpath := by
  intro it member label hlabel
  apply known
  exact List.mem_flatMap.mpr ⟨it, member, List.mem_map_of_mem hlabel⟩

theorem drive_cleanup_keeps (now : Int) (redriveAll : Bool) (n : Notes) (role : n.role = .tick)
    (idle : n.stage = .idle) :
    Keeps (discipline setup) (driveCleanup setup now redriveAll).run n
      fun _ after => Rest n after := by
  rw [driveCleanup]
  apply keeps_task_bind
  apply keeps_statement
  · exact ⟨idle, Or.inl ⟨role, Or.inr (Or.inl rfl)⟩⟩
  · intro _
    exact rest_self n idle
  intro pending _
  apply keeps_task_bind
  apply keeps_statement
  · exact ⟨idle, Or.inl ⟨role, Or.inr (Or.inr rfl)⟩⟩
  · intro _
    exact ⟨rfl, idle⟩
  intro failed _
  apply keeps_mono _ _ _ _ _ (cleanup_each_keeps setup now _ _ ?_ ?_ ?_)
  · intro _ after quiet
    exact ⟨quiet.role, quiet.stage⟩
  · exact idle
  · rw [List.map_append]
    exact (List.Sublist.refl _).append (List.filter_sublist.map _)
  · have known := surely_labels_of setup (pending ++ failed)
      (learnList setup (learnList setup n pending .cleanupPending) failed .cleanupFailed) (by
        intro p hp
        rw [labelsOf, List.flatMap_append] at hp
        exact hp)
    intro it member
    apply known it
    rcases List.mem_append.mp member with early | late
    · exact List.mem_append_left _ early
    · exact List.mem_append_right _ (List.mem_of_mem_filter late)

/-- An exhausted row is off the list unless a statement failed. -/
def Dropped {α : Type} (relpath : String) (n : Notes) (result : Except ReplError α)
    (after : Notes) : Prop :=
  Rest n after ∧ ∀ value, result = .ok value → after.todo = n.todo.erase relpath

theorem finish_exhausted_keeps (item : WorkItem) (lastError : String) (attempts : Nat) (now : Int)
    (n : Notes) (idle : n.stage = .idle) (listed : item.relpath ∈ n.todo) :
    Keeps (discipline setup) (finishExhausted setup item lastError attempts now).run n
      (Dropped item.relpath n) := by
  unfold finishExhausted
  split
  · apply keeps_task_bind
    apply keeps_statement
    · exact ⟨idle, listed⟩
    · intro e
      exact ⟨⟨rfl, rfl⟩, fun _ failed => by cases failed⟩
    intro _ _
    exact ⟨⟨rfl, rfl⟩, fun _ _ => rfl⟩
  · apply keeps_task_bind
    apply keeps_always
    refine ⟨⟨idle, listed, item, lastError, attempts, now, rfl⟩, fun handle _ => ?_⟩
    apply keeps_task_bind
    apply keeps_always
    refine ⟨⟨_, rfl⟩, fun joined _ => ?_⟩
    apply keeps_task_bind
    apply keeps_statement
    · exact ⟨_, _, rfl, rfl, listed⟩
    · intro e
      exact ⟨⟨rfl, rfl⟩, fun _ failed => by cases failed⟩
    intro _ _
    apply keeps_task_bind
    apply keeps_always
    refine ⟨rfl, fun _ _ => ?_⟩
    exact ⟨⟨rfl, rfl⟩, fun _ _ => rfl⟩

theorem exhaust_each_keeps (now : Int) (rows : List WorkItem) (n : Notes) (idle : n.stage = .idle)
    (listed : (rows.map WorkItem.relpath).Sublist n.todo) :
    Keeps (discipline setup) (exhaustEach setup now rows).run n fun _ after => Rest n after := by
  induction rows generalizing n with
  | nil => exact rest_self n idle
  | cons item rest ih =>
      rw [exhaustEach]
      apply keeps_task_bind
      apply keeps_mono _ _ _ _ _ (finish_exhausted_keeps setup item _ _ now n idle
        (listed.subset List.mem_cons_self))
      intro result after dropped
      cases result with
      | error e => exact dropped.1
      | ok state =>
          apply keeps_mono _ _ _ _ _ (ih after dropped.1.stage ?_)
          · intro _ last quiet
            exact rest_trans dropped.1 quiet
          · rw [dropped.2 state rfl]
            simpa only [List.map_cons, List.erase_cons_head] using listed.erase item.relpath

/-! ## Recovery -/

structure Looked (relpath label : String) (n after : Notes) : Prop where
  todo : after.todo = n.todo
  kept : ∀ p ∈ n.sure, p ≠ (relpath, label) → p ∈ after.sure
  cleared : (relpath, label) ∈ after.cleared
  grows : ∀ p ∈ n.cleared, p ∈ after.cleared

def LookedAt (relpath label : String) (n : Notes) (result : Except ReplError Bool)
    (after : Notes) : Prop :=
  Rest n after ∧ ∀ ok, result = .ok ok →
    Looked relpath label n after ∧ (ok = true → (relpath, label) ∈ after.sure)

theorem looked_look (n : Notes) (relpath label : String) (phase : DestPhase) :
    Looked relpath label n (n.look relpath label phase) := by
  constructor
  · rfl
  · intro p hp other
    unfold Notes.look
    split
    · exact List.mem_cons_of_mem _ hp
    · exact List.mem_filter.mpr ⟨hp, by simpa using other⟩
  · exact List.mem_cons_self
  · intro p hp
    exact List.mem_cons_of_mem _ hp

theorem keep_verified_keeps (it : WorkItem) (label : String) (n : Notes)
    (drives : n.role.drives = true) (idle : n.stage = .idle) (listed : it.relpath ∈ n.todo)
    (passed : n.passed = some (it.relpath, label)) :
    Keeps (discipline setup) (keepVerified it label).run n (LookedAt it.relpath label n) := by
  rw [keepVerified]
  apply keeps_task_bind
  apply keeps_statement
  · exact Or.inr ⟨drives, idle, listed, by decide, fun _ => passed⟩
  · intro e
    exact ⟨⟨rfl, idle⟩, fun _ failed => by cases failed⟩
  intro _ _
  refine ⟨⟨rfl, idle⟩, fun ok _ => ⟨looked_look n it.relpath label .verified, fun _ => ?_⟩⟩
  exact List.mem_cons_self

theorem demote_keeps (it : WorkItem) (label : String) (n : Notes)
    (drives : n.role.drives = true) (idle : n.stage = .idle) (listed : it.relpath ∈ n.todo) :
    Keeps (discipline setup) (demote it label).run n (LookedAt it.relpath label n) := by
  rw [demote]
  apply keeps_task_bind
  apply keeps_statement
  · exact Or.inr ⟨drives, idle, listed, by decide, fun same => by cases same⟩
  · intro e
    exact ⟨⟨rfl, idle⟩, fun _ failed => by cases failed⟩
  intro _ _
  apply keeps_task_bind
  apply keeps_always
  apply quiet_best_effort setup _ (quiet_clear_resume setup it.relpath label)
  intro _
  refine ⟨⟨rfl, idle⟩, fun ok result => ⟨looked_look n it.relpath label .pending, fun held => ?_⟩⟩
  rw [← Except.ok.inj result] at held
  exact absurd held (by decide)

theorem looked_at_of {relpath label : String} {n later after : Notes}
    {result : Except ReplError Bool} (looked : LookedAt relpath label later result after)
    (role : later.role = n.role) (todo : later.todo = n.todo) (sure : later.sure = n.sure)
    (cleared : later.cleared = n.cleared) : LookedAt relpath label n result after := by
  constructor
  · exact ⟨looked.1.role.trans role, looked.1.stage⟩
  · intro ok done
    obtain ⟨seen, held⟩ := looked.2 ok done
    refine ⟨⟨seen.todo.trans todo, ?_, seen.cleared, ?_⟩, held⟩
    · rw [← sure]
      exact seen.kept
    · rw [← cleared]
      exact seen.grows

theorem reverify_one_dest_keeps (it : WorkItem) (label : String) (n : Notes)
    (drives : n.role.drives = true) (idle : n.stage = .idle) (listed : it.relpath ∈ n.todo) :
    Keeps (discipline setup) (reverifyOneDest it label).run n (LookedAt it.relpath label n) := by
  rw [reverifyOneDest]
  apply keeps_task_bind
  apply quiet_load_resume
  intro loaded
  cases loaded with
  | error e => exact ⟨rest_self n idle, fun _ failed => by cases failed⟩
  | ok resume =>
      apply keeps_task_bind
      apply keeps_always
      refine ⟨Or.inr ⟨drives, idle, listed⟩, fun verdict _ => ?_⟩
      cases verdict with
      | ok _ =>
          apply keeps_mono _ _ _ _ _ (keep_verified_keeps setup it label _ ?_ ?_ ?_ ?_)
          · intro result after looked
            exact looked_at_of looked rfl rfl rfl rfl
          · exact drives
          · exact idle
          · exact listed
          · rfl
      | error e =>
          apply keeps_mono _ _ _ _ _ (demote_keeps setup it label _ ?_ ?_ ?_)
          · intro result after looked
            exact looked_at_of looked rfl rfl rfl rfl
          · exact drives
          · exact idle
          · exact listed

structure Surveyed (relpath : String) (labels : List String) (n after : Notes) : Prop where
  todo : after.todo = n.todo
  kept : ∀ p ∈ n.sure, (∀ label ∈ labels, p ≠ (relpath, label)) → p ∈ after.sure
  cleared : ∀ label ∈ labels, (relpath, label) ∈ after.cleared
  grows : ∀ p ∈ n.cleared, p ∈ after.cleared

theorem surveyed_cons {relpath label : String} {rest : List String} {n middle after : Notes}
    (looked : Looked relpath label n middle) (surveyed : Surveyed relpath rest middle after) :
    Surveyed relpath (label :: rest) n after := by
  constructor
  · exact surveyed.todo.trans looked.todo
  · intro p hp others
    apply surveyed.kept p
    · exact looked.kept p hp (others label List.mem_cons_self)
    · intro other hother
      exact others other (List.mem_cons_of_mem _ hother)
  · intro other hother
    rcases List.mem_cons.mp hother with rfl | later
    · exact surveyed.grows _ looked.cleared
    · exact surveyed.cleared other later
  · intro p hp
    exact surveyed.grows p (looked.grows p hp)

theorem reverify_each_keeps (it : WorkItem) (labels : List String) (n : Notes)
    (nodup : labels.Nodup) (drives : n.role.drives = true) (idle : n.stage = .idle)
    (listed : it.relpath ∈ n.todo) :
    Keeps (discipline setup) (reverifyEach it labels).run n fun result after =>
      Rest n after ∧ ∀ ok, result = .ok ok → Surveyed it.relpath labels n after ∧
        (ok = true → ∀ label ∈ labels, (it.relpath, label) ∈ after.sure) := by
  induction labels generalizing n with
  | nil =>
      refine ⟨rest_self n idle, fun ok _ => ⟨⟨rfl, fun p hp _ => hp, ?_, fun p hp => hp⟩, ?_⟩⟩
      · intro label none
        cases none
      · intro _ label none
        cases none
  | cons label rest ih =>
      rw [reverifyEach]
      apply keeps_task_bind
      apply keeps_mono _ _ _ _ _ (reverify_one_dest_keeps setup it label n drives idle listed)
      intro result middle looked
      cases result with
      | error e => exact ⟨looked.1, fun _ failed => by cases failed⟩
      | ok first =>
          obtain ⟨seen, held⟩ := looked.2 first rfl
          apply keeps_task_bind
          apply keeps_mono _ _ _ _ _ (ih middle (List.nodup_cons.mp nodup).2
            (looked.1.role ▸ drives) looked.1.stage (seen.todo ▸ listed))
          intro others after survey
          cases others with
          | error e => exact ⟨rest_trans looked.1 survey.1, fun _ failed => by cases failed⟩
          | ok others =>
              obtain ⟨surveyed, sure⟩ := survey.2 others rfl
              refine ⟨rest_trans looked.1 survey.1, fun ok result => ⟨?_, ?_⟩⟩
              · exact surveyed_cons seen surveyed
              · intro all other hother
                rw [← Except.ok.inj result, Bool.and_eq_true] at all
                rcases List.mem_cons.mp hother with rfl | later
                · -- a later destination of the row has another label
                  apply surveyed.kept _ (held all.1)
                  intro next hnext same
                  exact (List.nodup_cons.mp nodup).1 (by rw [(Prod.mk.inj same).2]; exact hnext)
                · exact sure all.2 other later

/-- A row was recovered: it may be off the list, and the notes about other rows still stand. -/
def Handled {α : Type} (relpath : String) (n : Notes) (result : Except ReplError α)
    (after : Notes) : Prop :=
  Rest n after ∧ ∀ value, result = .ok value →
    (after.todo = n.todo ∨ after.todo = n.todo.erase relpath) ∧
      ∀ p ∈ n.sure, p.1 ≠ relpath → p ∈ after.sure

theorem surveyed_others {relpath : String} {labels : List String} {n after : Notes}
    (surveyed : Surveyed relpath labels n after) (p : String × String) (known : p ∈ n.sure)
    (other : p.1 ≠ relpath) : p ∈ after.sure := by
  apply surveyed.kept p known
  rintro label _ rfl
  exact other rfl

theorem handled_run_cleanup (it : WorkItem) (now : Int) (n middle : Notes) (rest : Rest n middle)
    (todo : middle.todo = n.todo) (kept : ∀ p ∈ n.sure, p.1 ≠ it.relpath → p ∈ middle.sure)
    (listed : it.relpath ∈ n.todo) (surely : middle.surely setup it.relpath) :
    Keeps (discipline setup) (runCleanup setup it now).run middle (Handled it.relpath n) := by
  apply keeps_mono _ _ _ _ _ (run_cleanup_keeps setup it now middle rest.stage (todo ▸ listed) surely)
  intro result after driven
  refine ⟨rest_trans rest driven.1, fun value done => ?_⟩
  obtain ⟨left, sure⟩ := driven.2 value done
  refine ⟨Or.inr (left.trans (by rw [todo])), fun p hp other => ?_⟩
  rw [sure]
  exact kept p hp other

theorem set_ready_keeps (relpath : String) (now : Int) (n middle : Notes) (rest : Rest n middle)
    (drives : n.role.drives = true) (todo : middle.todo = n.todo)
    (kept : ∀ p ∈ n.sure, p.1 ≠ relpath → p ∈ middle.sure) (listed : relpath ∈ n.todo)
    (cleared : ∀ label ∈ setup.labels, (relpath, label) ∈ middle.cleared) :
    Keeps (discipline setup) (setState relpath .ready now).run middle (Handled relpath n) := by
  have place : relpath ∈ middle.todo := todo ▸ listed
  apply keeps_statement
  · refine ⟨rest.stage, ?_⟩
    cases hrole : n.role with
    | recover => exact Or.inr ⟨rest.role.trans hrole, place, cleared⟩
    | tick => exact Or.inl ⟨rest.role.trans hrole, Or.inr place⟩
    | item _ => simp [hrole, Role.drives] at drives
    | attempt _ _ => simp [hrole, Role.drives] at drives
    | action _ => simp [hrole, Role.drives] at drives
    | quarantine _ => simp [hrole, Role.drives] at drives
  · intro e
    exact ⟨⟨rest.role, rfl⟩, fun _ failed => by cases failed⟩
  intro _ _
  refine ⟨⟨rest.role, rfl⟩, fun _ _ => ⟨Or.inr ?_, kept⟩⟩
  show middle.todo.erase relpath = n.todo.erase relpath
  rw [todo]

theorem recover_verified_keeps (it : WorkItem) (now : Int) (n : Notes)
    (drives : n.role.drives = true) (idle : n.stage = .idle) (listed : it.relpath ∈ n.todo) :
    Keeps (discipline setup) (recoverVerified setup it now).run n (Handled it.relpath n) := by
  rw [recoverVerified]
  apply keeps_task_bind
  apply keeps_mono _ _ _ _ _ (reverify_each_keeps setup it setup.labels n setup.labels_nodup
    drives idle listed)
  intro result middle survey
  cases result with
  | error e => exact ⟨survey.1, fun _ failed => by cases failed⟩
  | ok allOk =>
      obtain ⟨surveyed, sure⟩ := survey.2 allOk rfl
      have kept := surveyed_others surveyed
      cases allOk with
      | true =>
          apply keeps_task_bind
          apply keeps_mono _ _ _ _ _ (handled_run_cleanup setup it now n middle survey.1
            surveyed.todo kept listed (sure rfl))
          intro result after handled
          cases result with
          | ok _ => exact ⟨handled.1, fun _ _ => handled.2 _ rfl⟩
          | error e => exact ⟨handled.1, fun _ failed => by cases failed⟩
      | false =>
          exact set_ready_keeps setup it.relpath now n middle survey.1 drives surveyed.todo kept
            listed surveyed.cleared

/-- After the look at the verified destinations the others are known not to be. -/
theorem reverify_persisted_keeps (it : WorkItem) (n : Notes) (role : n.role = .recover)
    (idle : n.stage = .idle) (listed : it.relpath ∈ n.todo) :
    Keeps (discipline setup) (reverifyPersistedVerified setup it).run n fun result after =>
      Rest n after ∧ ∀ value, result = .ok value → after.todo = n.todo ∧
        (∀ p ∈ n.sure, p.1 ≠ it.relpath → p ∈ after.sure) ∧
        ∀ label ∈ setup.labels, (it.relpath, label) ∈ after.cleared := by
  rw [reverifyPersistedVerified]
  apply keeps_task_bind
  apply keeps_statement
  · exact ⟨idle, listed, Or.inr role⟩
  · intro e
    exact ⟨rest_self n idle, fun _ failed => by cases failed⟩
  intro existing _
  have learned : learnStatement setup n (.destStates it.relpath) existing =
      { n with
        cleared :=
          ((setup.labels.filter fun l => phaseOf existing l ≠ .verified).map
            fun l => (it.relpath, l)) ++ n.cleared } := by
    simp only [learnStatement, learnStates, role]
  rw [learned]
  apply keeps_task_bind
  apply keeps_mono _ _ _ _ _ (reverify_each_keeps setup it (verifiedLabels setup existing) _
    (setup.labels_nodup.filter _) ?_ ?_ ?_)
  · intro result after survey
    cases result with
    | error e => exact ⟨⟨survey.1.role, survey.1.stage⟩, fun _ failed => by cases failed⟩
    | ok ok =>
        obtain ⟨surveyed, _⟩ := survey.2 ok rfl
        refine ⟨⟨survey.1.role, survey.1.stage⟩, fun _ _ => ⟨surveyed.todo, ?_, ?_⟩⟩
        · intro p hp other
          exact surveyed_others surveyed p hp other
        · intro label hlabel
          by_cases verified : phaseOf existing label = .verified
          · exact surveyed.cleared label (List.mem_filter.mpr ⟨hlabel, by simpa using verified⟩)
          · apply surveyed.grows
            apply List.mem_append_left
            apply List.mem_map_of_mem
            exact List.mem_filter.mpr ⟨hlabel, by simpa using verified⟩
  · rw [role]
    rfl
  · exact idle
  · exact listed

theorem recover_one_keeps (now : Int) (it : WorkItem) (n : Notes) (role : n.role = .recover)
    (idle : n.stage = .idle) (listed : it.relpath ∈ n.todo)
    (surely : it.state = .cleanupPending → n.surely setup it.relpath) :
    Keeps (discipline setup) (recoverOne setup now it).run n (Handled it.relpath n) := by
  have drives : n.role.drives = true := by
    rw [role]
    rfl
  unfold recoverOne
  split
  · exact recover_verified_keeps setup it now n drives idle listed
  · rename_i pending
    apply keeps_task_bind
    apply keeps_mono _ _ _ _ _ (handled_run_cleanup setup it now n n (rest_self n idle) rfl
      (fun p hp _ => hp) listed (surely pending))
    intro result after handled
    cases result with
    | ok _ => exact ⟨handled.1, fun _ _ => handled.2 _ rfl⟩
    | error e => exact ⟨handled.1, fun _ failed => by cases failed⟩
  · apply keeps_task_bind
    apply keeps_mono _ _ _ _ _ (reverify_persisted_keeps setup it n role idle listed)
    intro result middle looked
    cases result with
    | error e => exact ⟨looked.1, fun _ failed => by cases failed⟩
    | ok value =>
        obtain ⟨todo, kept, cleared⟩ := looked.2 value rfl
        exact set_ready_keeps setup it.relpath now n middle looked.1 drives todo kept listed cleared
  · exact ⟨rest_self n idle, fun _ _ => ⟨Or.inl rfl, fun p hp _ => hp⟩⟩

theorem recover_each_keeps (now : Int) (rows : List WorkItem) (n : Notes)
    (role : n.role = .recover) (idle : n.stage = .idle)
    (nodup : (rows.map WorkItem.relpath).Nodup)
    (listed : (rows.map WorkItem.relpath).Sublist n.todo)
    (surely : ∀ it ∈ rows, it.state = .cleanupPending → n.surely setup it.relpath) :
    Keeps (discipline setup) (recoverEach setup now rows).run n fun _ after => Rest n after := by
  induction rows generalizing n with
  | nil => exact rest_self n idle
  | cons it rest ih =>
      rw [List.map_cons, List.nodup_cons] at nodup
      rw [recoverEach]
      apply keeps_task_bind
      apply keeps_mono _ _ _ _ _ (recover_one_keeps setup now it n role idle
        (listed.subset List.mem_cons_self) (surely it List.mem_cons_self))
      intro result middle handled
      cases result with
      | error e => exact handled.1
      | ok value =>
          obtain ⟨todo, kept⟩ := handled.2 value rfl
          apply keeps_mono _ _ _ _ _ (ih middle (handled.1.role.trans role) handled.1.stage nodup.2
            ?_ ?_)
          · intro _ last quiet
            exact rest_trans handled.1 quiet
          · rcases todo with same | less
            · rw [same]
              exact (List.sublist_cons_self _ _).trans listed
            · rw [less]
              simpa only [List.map_cons, List.erase_cons_head] using listed.erase it.relpath
          · intro later hlater pending label hlabel
            apply kept _ (surely later (List.mem_cons_of_mem _ hlater) pending label hlabel)
            intro same
            exact nodup.1 (same ▸ List.mem_map_of_mem hlater)

theorem recover_keeps (now : Int) (n : Notes) (role : n.role = .recover) (idle : n.stage = .idle)
    (fresh : n.todo = []) :
    Keeps (discipline setup) (recover setup now).run n fun _ after => Rest n after := by
  rw [recover]
  apply keeps_task_bind
  apply keeps_statement
  · exact ⟨role, idle, fresh⟩
  · intro _
    exact rest_self n idle
  intro rows nodup
  apply keeps_task_bind
  apply keeps_mono _ _ _ _ _ (recover_each_keeps setup now rows _ ?_ ?_ nodup ?_ ?_)
  · intro result middle rest
    cases result with
    | error e => exact ⟨rest.role, rest.stage⟩
    | ok _ =>
        apply keeps_task_bind
        apply keeps_statement
        · exact ⟨rest.stage, Or.inr ⟨rest.role.trans role, rfl⟩⟩
        · intro _
          exact ⟨rest.role, rest.stage⟩
        intro left _
        apply keeps_mono _ _ _ _ _ (exhaust_each_keeps setup now left _ ?_ ?_)
        · intro _ after quiet
          exact ⟨quiet.role.trans rest.role, quiet.stage⟩
        · exact rest.stage
        · exact List.Sublist.refl _
  · exact role
  · exact idle
  · exact List.Sublist.refl _
  · intro it member pending
    apply surely_labels_of setup (rows.filter fun it => it.state = .cleanupPending)
    · intro p hp
      exact hp
    · exact List.mem_filter.mpr ⟨member, by simpa using pending⟩

/-! ## Ticks -/

theorem enqueue_each_keeps (now : Int) (candidates : List Candidate) (n : Notes)
    (role : n.role = .tick) (idle : n.stage = .idle) (todo : n.todo = [])
    (promoting : n.promoting = []) :
    Keeps (discipline setup) (enqueueEach now candidates) n fun _ after => after = n := by
  induction candidates with
  | nil => exact rfl
  | cons c rest ih =>
      rw [enqueueEach]
      apply keeps_bind
      apply keeps_best_effort
      apply keeps_statement
      · exact ⟨role, idle, todo, promoting⟩
      · intro _
        exact ih
      · intro _ _
        exact ih

theorem promote_each_keeps (now : Int) (rows : List WorkItem) (n : Notes) (role : n.role = .tick)
    (idle : n.stage = .idle) (listed : (rows.map WorkItem.relpath).Sublist n.promoting) :
    Keeps (discipline setup) (promoteEach now rows).run n fun _ after => Rest n after := by
  induction rows generalizing n with
  | nil => exact rest_self n idle
  | cons item rest ih =>
      rw [promoteEach]
      apply keeps_task_bind
      apply keeps_statement
      · exact ⟨idle, Or.inl ⟨role, Or.inl (listed.subset List.mem_cons_self)⟩⟩
      · intro _
        exact ⟨rfl, rfl⟩
      intro _ _
      apply keeps_mono _ _ _ _ _ (ih _ ?_ ?_ ?_)
      · intro _ after quiet
        exact ⟨quiet.role, quiet.stage⟩
      · exact role
      · exact rfl
      · show (rest.map WorkItem.relpath).Sublist (n.promoting.erase item.relpath)
        simpa only [List.map_cons, List.erase_cons_head] using listed.erase item.relpath

theorem promote_due_keeps (now : Int) (n : Notes) (role : n.role = .tick) (idle : n.stage = .idle) :
    Keeps (discipline setup) (promoteDue now).run n fun _ after => Rest n after := by
  rw [promoteDue]
  apply keeps_task_bind
  apply keeps_statement
  · exact ⟨idle, Or.inl ⟨role, Or.inl rfl⟩⟩
  · intro _
    exact rest_self n idle
  intro failed _
  apply keeps_mono _ _ _ _ _ (promote_each_keeps setup now _ _ ?_ ?_ ?_)
  · intro _ after quiet
    exact ⟨quiet.role, quiet.stage⟩
  · exact role
  · exact idle
  · exact List.filter_sublist.map _

theorem revert_row_keeps (now : Int) (row : WorkItem) (n : Notes) (role : n.role = .tick)
    (idle : n.stage = .idle) (listed : row.relpath ∈ n.todo)
    (surely : row.state = .cleanupPending → n.surely setup row.relpath) :
    Keeps (discipline setup) (revertRow setup now row) n fun _ after => Rest n after := by
  have drives : n.role.drives = true := by
    rw [role]
    rfl
  unfold revertRow
  split
  · apply keeps_best_effort
    apply keeps_statement
    · exact ⟨idle, Or.inl ⟨role, Or.inr listed⟩⟩
    · intro _
      exact ⟨rfl, rfl⟩
    · intro _ _
      exact ⟨rfl, rfl⟩
  · apply keeps_best_effort
    apply keeps_mono _ _ _ _ _ (recover_verified_keeps setup row now n drives idle listed)
    intro _ after handled
    exact handled.1
  · rename_i pending
    apply keeps_best_effort
    apply keeps_mono _ _ _ _ _ (run_cleanup_keeps setup row now n idle listed (surely pending))
    intro _ after driven
    exact driven.1
  · exact rest_self n idle

theorem pause_revert_keeps (now : Int) (relpaths : List String) (n : Notes) (role : n.role = .tick)
    (idle : n.stage = .idle) :
    Keeps (discipline setup) (pauseRevert setup now relpaths) n fun _ after => Rest n after := by
  induction relpaths generalizing n with
  | nil => exact rest_self n idle
  | cons relpath rest ih =>
      have going : ∀ middle, Rest n middle → Keeps (discipline setup) (pauseRevert setup now rest)
          middle fun _ after => Rest n after := by
        intro middle quiet
        apply keeps_mono _ _ _ _ _ (ih middle (quiet.role.trans role) quiet.stage)
        intro _ after later
        exact rest_trans quiet later
      rw [pauseRevert]
      apply keeps_bind
      apply keeps_statement
      · exact ⟨role, idle⟩
      · intro _
        exact going n (rest_self n idle)
      intro found _
      cases found with
      | none => exact going _ ⟨rfl, idle⟩
      | some row =>
          apply keeps_bind
          by_cases ready : row.state = .ready
          · -- nothing is done about a row that is ready
            have left : revertRow setup now row = return () := by
              unfold revertRow
              rw [ready]
            show Keeps _ (revertRow setup now row) (learnRow setup n (some row)) _
            rw [left]
            exact going _ ⟨rfl, idle⟩
          have reverts : toRevert (some row) = [row] := by simp [toRevert, ready]
          show Keeps _ (revertRow setup now row) (learnRow setup n (some row)) _
          rw [learnRow, reverts]
          apply keeps_mono _ _ _ _ _ (revert_row_keeps setup now row _ ?_ ?_ ?_ ?_)
          · intro _ middle quiet
            exact going middle ⟨quiet.role, quiet.stage⟩
          · exact role
          · exact idle
          · exact List.mem_singleton.mpr rfl
          · intro pending label hlabel
            exact List.mem_flatMap.mpr ⟨row, List.mem_filter.mpr ⟨List.mem_singleton_self _,
              decide_eq_true pending⟩, List.mem_map_of_mem hlabel⟩

theorem run_batch_keeps (batch : List WorkItem) (now : Int) (n : Notes) (role : n.role = .tick)
    (idle : n.stage = .idle) (listed : batch.map WorkItem.relpath = n.todo)
    (nodup : (batch.map WorkItem.relpath).Nodup) :
    Keeps (discipline setup) (runBatch batch now) n fun _ after => Rest n after :=
  ⟨⟨role, idle, listed, nodup⟩, fun _ _ => ⟨⟨role, idle, rfl⟩, fun _ _ => ⟨rfl, idle⟩⟩⟩

theorem run_admitted_keeps (drain : Bool) (now : Int) (fuel : Nat) (n : Notes)
    (role : n.role = .tick) (idle : n.stage = .idle) :
    Keeps (discipline setup) (runAdmitted setup drain now fuel) n fun _ after => Rest n after := by
  induction fuel generalizing n with
  | zero => exact rest_self n idle
  | succ fuel ih =>
      rw [runAdmitted]
      apply keeps_bind
      apply keeps_statement
      · exact ⟨role, idle⟩
      · intro _
        exact rest_self n idle
      intro rows nodup
      cases rows with
      | nil => exact ⟨rfl, idle⟩
      | cons first others =>
          apply keeps_bind
          apply keeps_mono _ _ _ _ _ (run_batch_keeps setup (first :: others) now _ ?_ ?_ ?_ nodup)
          · intro _ middle quiet
            split
            · apply keeps_mono _ _ _ _ _ (ih middle (quiet.role.trans role) quiet.stage)
              intro _ after later
              exact ⟨later.role.trans quiet.role, later.stage⟩
            · exact ⟨quiet.role, quiet.stage⟩
          · exact role
          · exact idle
          · exact rfl

theorem close_batch_keeps (batch : List WorkItem) (now : Int) (onClose : WindowClose) (n : Notes)
    (role : n.role = .tick) (idle : n.stage = .idle) (spawned : n.todo = []) :
    Keeps (discipline setup) (closeBatch setup batch now onClose) n fun _ after => Rest n after := by
  unfold closeBatch
  split
  · refine ⟨⟨role, idle, spawned⟩, fun _ _ => ⟨⟨role, idle, spawned⟩, fun _ _ => ?_⟩⟩
    exact pause_revert_keeps setup now _ n role idle
  · exact ⟨⟨role, idle, spawned⟩, fun _ _ => rest_self n idle⟩

theorem run_batch_windowed_keeps (batch : List WorkItem) (now : Int) (onClose : WindowClose)
    (n : Notes) (role : n.role = .tick) (idle : n.stage = .idle)
    (listed : batch.map WorkItem.relpath = n.todo) (nodup : (batch.map WorkItem.relpath).Nodup) :
    Keeps (discipline setup) (runBatchWindowed setup batch now onClose) n
      fun _ after => Rest n after := by
  rw [runBatchWindowed]
  apply keeps_bind
  refine ⟨⟨role, idle, listed, nodup⟩, fun _ _ => ?_⟩
  apply keeps_bind
  refine ⟨⟨role, idle, rfl⟩, fun event _ => ?_⟩
  cases event with
  | drained => exact ⟨rfl, idle⟩
  | closed =>
      apply keeps_bind
      apply keeps_mono _ _ _ _ _ (close_batch_keeps setup batch now onClose _ ?_ ?_ ?_)
      · intro _ after quiet
        exact ⟨quiet.role, quiet.stage⟩
      · exact role
      · exact idle
      · exact rfl

theorem run_windowed_keeps (onClose : WindowClose) (now : Int) (fuel : Nat) (n : Notes)
    (role : n.role = .tick) (idle : n.stage = .idle) :
    Keeps (discipline setup) (runWindowed setup onClose now fuel) n
      fun _ after => Rest n after := by
  induction fuel generalizing n with
  | zero => exact rest_self n idle
  | succ fuel ih =>
      rw [runWindowed]
      apply keeps_bind
      apply quiet_deadline_passed
      intro passed
      cases passed with
      | true => exact rest_self n idle
      | false =>
          apply keeps_bind
          apply keeps_statement
          · exact ⟨role, idle⟩
          · intro _
            exact rest_self n idle
          intro rows nodup
          cases rows with
          | nil => exact ⟨rfl, idle⟩
          | cons first others =>
              apply keeps_bind
              apply keeps_mono _ _ _ _ _
                (run_batch_windowed_keeps setup (first :: others) now onClose _ ?_ ?_ ?_ nodup)
              · intro finished middle quiet
                cases finished with
                | true => exact ⟨quiet.role, quiet.stage⟩
                | false =>
                    apply keeps_mono _ _ _ _ _ (ih middle (quiet.role.trans role) quiet.stage)
                    intro _ after later
                    exact ⟨later.role.trans quiet.role, later.stage⟩
              · exact role
              · exact idle
              · exact rfl

theorem run_admission_keeps (fuel : Nat) (now : Int) (admitted : Admission) (n : Notes)
    (role : n.role = .tick) (idle : n.stage = .idle) :
    Keeps (discipline setup) (runAdmission setup fuel now admitted) n fun _ after => Rest n after := by
  cases admitted with
  | all drain => exact run_admitted_keeps setup drain now fuel n role idle
  | none => exact rest_self n idle
  | windowed onClose => exact run_windowed_keeps setup onClose now fuel n role idle

theorem quiet_admission (ignoreWindow : Bool) : Quiet setup (admission ignoreWindow) := by
  unfold admission
  split
  · exact quiet_pure setup _
  · exact quiet_evaluate_schedule setup

theorem tick_body_keeps (now : Int) (ignoreWindow redriveCleanup : Bool) (fuel : Nat) (n : Notes)
    (role : n.role = .tick) (idle : n.stage = .idle) (todo : n.todo = [])
    (promoting : n.promoting = []) :
    Keeps (discipline setup) (tickBody setup now ignoreWindow redriveCleanup fuel) n
      fun _ after => Rest n after := by
  rw [tickBody]
  apply keeps_bind
  apply quiet_lock_tick
  intro _
  apply keeps_bind
  apply quiet_discover
  intro ready
  apply keeps_bind
  apply keeps_mono _ _ _ _ _ (enqueue_each_keeps setup now ready n role idle todo promoting)
  rintro _ after rfl
  apply keeps_bind
  apply keeps_best_effort
  apply keeps_mono _ _ _ _ _ (promote_due_keeps setup now after role idle)
  intro _ promoted first
  apply keeps_bind
  apply keeps_best_effort
  apply keeps_mono _ _ _ _ _ (drive_cleanup_keeps setup now redriveCleanup promoted
    (first.role.trans role) first.stage)
  intro _ driven second
  apply keeps_bind
  apply quiet_admission
  intro admitted
  apply keeps_bind
  apply keeps_mono _ _ _ _ _ (run_admission_keeps setup fuel now admitted driven
    (second.role.trans (first.role.trans role)) second.stage)
  intro _ last third
  apply quiet_unlock_tick
  intro _
  exact rest_trans first (rest_trans second third)

theorem run_tick_keeps (now : Int) (ignoreWindow redriveCleanup : Bool) (fuel : Nat) (n : Notes)
    (role : n.role = .tick) (idle : n.stage = .idle) (todo : n.todo = [])
    (promoting : n.promoting = []) :
    Keeps (discipline setup) (runTick setup now ignoreWindow redriveCleanup fuel) n
      fun _ after => Rest n after := by
  rw [runTick]
  apply keeps_bind
  apply quiet_is_active
  intro active
  cases active with
  | true => exact tick_body_keeps setup now ignoreWindow redriveCleanup fuel n role idle todo promoting
  | false => exact rest_self n idle

end FileReplicator.ThreadsKeep
