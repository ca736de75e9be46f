import Mathlib.Data.List.Perm.Subperm
import FileReplicator.ThreadsKeep

/-!
# Items and their attempts keep to the protocol

An attempt marks its destination verified only after it has delivered and
verified itself; an item goes on to its cleanup only when every destination was
verified before or by an attempt it has joined.
-/

namespace FileReplicator.ItemsKeep

open Domain DurableStore Effects SourceActions Operations Worker Instance Protocol ThreadsKeep

variable (setup : Setup)

/-! ## Attempts -/

/-- An attempt that reports its destination verified has marked it. -/
def Attempted (relpath label : String) (result : AttemptResult) (after : Notes) : Prop :=
  after.role = .attempt relpath label ∧ ∀ found outcome, result = .ok (found, outcome) →
    found = label ∧ (outcome = .verified → (relpath, label) ∈ after.sure)

theorem quiet_save_resume (relpath label : String) (checkpoint : ResumeState) (n : Notes)
    (post : Except ReplError Unit → Notes → Prop) (role : n.role = .attempt relpath label)
    (holds : ∀ result, post result n) :
    Keeps (discipline setup) (saveResume relpath label checkpoint).run n post := by
  apply keeps_statement
  · exact role
  · intro e
    exact holds (.error e)
  · intro ret _
    exact holds (.ok ret)

theorem delivered_attempt_keeps (ctx : AttemptCtx) (delivered : Delivered) (n : Notes)
    (role : n.role = .attempt ctx.item.relpath ctx.label) (sent : n.delivered = true)
    (passed : n.passed = some (ctx.item.relpath, ctx.label)) :
    Keeps (discipline setup) (deliveredAttempt ctx delivered).run n
      (Attempted ctx.item.relpath ctx.label) := by
  rw [deliveredAttempt]
  apply keeps_task_bind
  apply keeps_always
  apply keeps_best_effort
  apply quiet_save_resume setup _ _ _ n _ role
  intro _
  apply keeps_task_bind
  apply keeps_statement
  · exact Or.inl ⟨role, rfl, sent, passed⟩
  · intro e
    exact ⟨role, fun _ _ failed => by cases failed⟩
  intro _ _
  refine ⟨role, fun found outcome done => ?_⟩
  cases done
  exact ⟨rfl, fun _ => List.mem_cons_self⟩

theorem failed_attempt_keeps (ctx : AttemptCtx) (e : ReplError) (n : Notes)
    (role : n.role = .attempt ctx.item.relpath ctx.label) :
    Keeps (discipline setup) (failedAttempt setup ctx e).run n
      (Attempted ctx.item.relpath ctx.label) := by
  rw [failedAttempt]
  apply keeps_task_bind
  apply keeps_always
  apply quiet_draw
  intro jitter
  simp only
  split
  · apply keeps_task_bind
    apply keeps_statement
    · exact ⟨role, by decide⟩
    · intro _
      exact ⟨role, fun _ _ failed => by cases failed⟩
    intro _ _
    refine ⟨role, fun found outcome done => ?_⟩
    cases done
    exact ⟨rfl, fun verified => by cases verified⟩
  · apply keeps_task_bind
    apply keeps_statement
    · exact ⟨role, by decide⟩
    · intro _
      exact ⟨role, fun _ _ failed => by cases failed⟩
    intro _ _
    apply keeps_task_bind
    apply keeps_always
    apply quiet_abort_and_clear
    intro _
    refine ⟨role, fun found outcome done => ?_⟩
    cases done
    exact ⟨rfl, fun verified => by cases verified⟩

theorem deliver_and_verify_keeps (ctx : AttemptCtx) (resume : Option ResumeState) (n : Notes)
    (role : n.role = .attempt ctx.item.relpath ctx.label) :
    Keeps (discipline setup) (deliverAndVerify setup ctx resume).run n fun result after =>
      after.role = .attempt ctx.item.relpath ctx.label ∧ ∀ delivered, result = .ok delivered →
        after.delivered = true ∧ after.passed = some (ctx.item.relpath, ctx.label) := by
  rw [deliverAndVerify]
  apply keeps_task_bind
  refine ⟨role, fun sent _ => ?_⟩
  cases sent with
  | error e => exact ⟨role, fun _ failed => by cases failed⟩
  | ok delivered =>
      apply keeps_task_bind
      refine ⟨Or.inl role, fun verdict _ => ?_⟩
      cases verdict with
      | error e => exact ⟨role, fun _ failed => by cases failed⟩
      | ok _ => exact ⟨role, fun _ _ => ⟨rfl, rfl⟩⟩

theorem run_one_dest_keeps (ctx : AttemptCtx) (n : Notes)
    (role : n.role = .attempt ctx.item.relpath ctx.label) :
    Keeps (discipline setup) (runOneDest setup ctx).run n
      (Attempted ctx.item.relpath ctx.label) := by
  rw [runOneDest]
  apply keeps_task_bind
  apply quiet_load_resume
  intro loaded
  cases loaded with
  | error e => exact ⟨role, fun _ _ failed => by cases failed⟩
  | ok resume =>
      apply keeps_task_bind
      apply keeps_always
      apply keeps_mono _ _ _ _ _ (deliver_and_verify_keeps setup ctx resume n role)
      rintro outcome after ⟨later, sent⟩
      cases outcome with
      | error e => exact failed_attempt_keeps setup ctx e after later
      | ok delivered =>
          obtain ⟨delivering, passed⟩ := sent delivered rfl
          exact delivered_attempt_keeps setup ctx delivered after later delivering passed

theorem run_attempt_keeps (ctx : AttemptCtx) (n : Notes)
    (role : n.role = .attempt ctx.item.relpath ctx.label) :
    Keeps (discipline setup) (runAttempt setup ctx) n fun _ _ => True := by
  rw [runAttempt]
  apply keeps_bind
  apply keeps_mono _ _ _ _ _ (run_one_dest_keeps setup ctx n role)
  rintro result after ⟨later, told⟩
  exact ⟨⟨_, _, later, told⟩, fun _ _ => trivial⟩

/-! ## Items -/

structure Busy (relpath : String) (n : Notes) : Prop where
  role : n.role = .item relpath
  stage : n.stage = .idle
  listed : relpath ∈ n.todo

/-- The destinations counted as verified are of the configuration, and are taken to be verified. -/
structure Counted (relpath : String) (tally : Tally) (n : Notes) : Prop where
  nodup : tally.verified.Nodup
  known : ∀ label ∈ tally.verified, label ∈ setup.labels ∧ (relpath, label) ∈ n.sure

theorem surely_of_count (relpath : String) (tally : Tally) (n : Notes)
    (counted : Counted setup relpath tally n)
    (all : tally.verified.length = setup.labels.length) : n.surely setup relpath := by
  have sub : tally.verified ⊆ setup.labels := fun label hlabel => (counted.known label hlabel).1
  have whole := (List.subperm_of_subset counted.nodup sub).perm_of_length_le (Nat.le_of_eq all.symm)
  intro label hlabel
  exact (counted.known label (whole.symm.subset hlabel)).2

theorem counted_count (relpath label : String) (outcome : DestOutcome) (tally : Tally) (n : Notes)
    (busy : Busy relpath n) (counted : Counted setup relpath tally n)
    (member : label ∈ setup.labels) :
    Counted setup relpath (tally.count (label, outcome))
      (learnJoined n (some (.ok (.ok (label, outcome))))) := by
  cases outcome with
  | verified =>
      constructor
      · exact counted.nodup.insert
      · intro other hother
        simp only [learnJoined, busy.role]
        rcases List.mem_insert_iff.mp hother with rfl | earlier
        · exact ⟨member, List.mem_cons_self⟩
        · exact ⟨(counted.known other earlier).1, List.mem_cons_of_mem _ (counted.known other earlier).2⟩
  | retry _ _ => exact ⟨counted.nodup, counted.known⟩
  | giveUp _ _ => exact ⟨counted.nodup, counted.known⟩

theorem busy_learn_joined (relpath : String) (n : Notes) (busy : Busy relpath n)
    (result : Option (Except String AttemptResult)) : Busy relpath (learnJoined n result) := by
  unfold learnJoined
  split
  · simp only [busy.role]
    exact ⟨rfl, busy.stage, busy.listed⟩
  · exact busy

theorem join_all_keeps (relpath : String) (left : Nat) (tally : Tally) (n : Notes)
    (busy : Busy relpath n) (counted : Counted setup relpath tally n) :
    Keeps (discipline setup) (joinAll left tally).run n fun result after =>
      Busy relpath after ∧ ∀ tally, result = .ok tally → Counted setup relpath tally after := by
  induction left generalizing tally n with
  | zero => exact ⟨busy, fun _ done => Except.ok.inj done ▸ counted⟩
  | succ left ih =>
      rw [joinAll]
      apply keeps_task_bind
      apply keeps_always
      refine ⟨⟨relpath, busy.role, busy.listed, busy.stage⟩, fun result possible => ?_⟩
      have still := busy_learn_joined relpath n busy result
      cases result with
      | none => exact ⟨still, fun _ done => Except.ok.inj done ▸ counted⟩
      | some joined =>
          apply keeps_task_bind
          cases joined with
          | error text => exact ⟨still, fun _ failed => by cases failed⟩
          | ok attempt =>
              cases attempt with
              | error e => exact ⟨still, fun _ failed => by cases failed⟩
              | ok outcome =>
                  obtain ⟨label, outcome⟩ := outcome
                  exact ih _ _ still
                    (counted_count setup relpath label outcome tally n busy counted possible)

theorem fan_out_keeps (item : WorkItem) (existing : String → Option DestState) (now : Int)
    (n : Notes) (busy : Busy item.relpath n)
    (known : ∀ label ∈ verifiedLabels setup existing, (item.relpath, label) ∈ n.sure) :
    Keeps (discipline setup) (fanOut setup item existing now).run n fun result after =>
      Busy item.relpath after ∧
        ∀ tally, result = .ok tally → Counted setup item.relpath tally after := by
  rw [fanOut]
  apply keeps_task_bind
  apply keeps_always
  refine ⟨⟨item.relpath, busy.role, busy.listed, busy.stage, ?_⟩, fun _ _ => ?_⟩
  · intro ctx hctx
    obtain ⟨label, hlabel, rfl⟩ := List.mem_map.mp hctx
    exact ⟨rfl, List.mem_of_mem_filter hlabel⟩
  · apply join_all_keeps setup item.relpath _ _ n busy
    constructor
    · exact setup.labels_nodup.filter _
    · intro label hlabel
      exact ⟨List.mem_of_mem_filter hlabel, known label hlabel⟩

theorem quiet_count_failure (newly : Bool) : Quiet setup (countFailure newly).run := by
  unfold countFailure
  split
  · exact quiet_bump_stats setup 0 1 0
  · exact quiet_pure setup _

theorem exhaust_item_keeps (item : WorkItem) (existing : String → Option DestState) (now : Int)
    (tally : Tally) (n : Notes) (busy : Busy item.relpath n) :
    Keeps (discipline setup) (exhaustItem setup item existing now tally).run n fun _ after =>
      after.stage = .idle := by
  rw [exhaustItem]
  apply keeps_task_bind
  apply keeps_always
  apply quiet_abort_each
  intro _
  apply keeps_task_bind
  apply keeps_statement
  · exact ⟨busy.role, busy.stage, busy.listed, Or.inr rfl⟩
  · intro _
    exact busy.stage
  intro _ _
  apply keeps_task_bind
  apply quiet_count_failure
  intro counted
  cases counted with
  | error e => exact busy.stage
  | ok _ =>
      apply keeps_mono _ _ _ _ _ (finish_exhausted_keeps setup item _ _ now _ busy.stage busy.listed)
      exact fun _ _ driven => driven.1.stage

theorem retry_item_keeps (item : WorkItem) (existing : String → Option DestState) (now : Int)
    (tally : Tally) (n : Notes) (busy : Busy item.relpath n) :
    Keeps (discipline setup) (retryItem setup item existing now tally).run n fun _ after =>
      after.stage = .idle := by
  rw [retryItem]
  apply keeps_task_bind
  apply keeps_statement
  · exact ⟨busy.role, busy.stage, busy.listed, Or.inl rfl⟩
  · intro _
    exact busy.stage
  · intro _ _
    rfl

theorem complete_item_keeps (item : WorkItem) (now : Int) (n : Notes) (busy : Busy item.relpath n)
    (surely : n.surely setup item.relpath) :
    Keeps (discipline setup) (completeItem setup item now).run n fun _ after =>
      after.stage = .idle := by
  rw [completeItem]
  apply keeps_task_bind
  apply keeps_statement
  · exact ⟨busy.role, busy.stage, busy.listed, surely⟩
  · intro _
    rfl
  intro _ _
  apply keeps_mono _ _ _ _ _ (run_cleanup_keeps setup item now n busy.stage busy.listed surely)
  exact fun _ _ driven => driven.1.stage

theorem conclude_keeps (item : WorkItem) (existing : String → Option DestState) (now : Int)
    (tally : Tally) (n : Notes) (busy : Busy item.relpath n)
    (counted : Counted setup item.relpath tally n) :
    Keeps (discipline setup) (conclude setup item existing now tally).run n fun _ after =>
      after.stage = .idle := by
  unfold conclude
  split
  · exact exhaust_item_keeps setup item existing now tally n busy
  · split
    · rename_i all
      exact complete_item_keeps setup item now n busy
        (surely_of_count setup item.relpath tally n counted all)
    · exact retry_item_keeps setup item existing now tally n busy

theorem run_pipeline_keeps (item : WorkItem) (now : Int) (n : Notes) (busy : Busy item.relpath n) :
    Keeps (discipline setup) (runPipeline setup item now).run n fun _ after =>
      after.stage = .idle := by
  rw [runPipeline]
  apply keeps_task_bind
  apply keeps_statement
  · exact ⟨busy.stage, busy.listed, Or.inl busy.role⟩
  · intro _
    exact busy.stage
  intro existing _
  have learned : learnStatement setup n (.destStates item.relpath) existing =
      { n with
        sure := (verifiedLabels setup existing).map (fun l => (item.relpath, l)) ++ n.sure } := by
    simp only [learnStatement, learnStates, busy.role]
  rw [learned]
  apply keeps_task_bind
  apply keeps_mono _ _ _ _ _ (fan_out_keeps setup item existing now _ ?_ ?_)
  · rintro result after ⟨still, counted⟩
    cases result with
    | error e => exact still.stage
    | ok tally => exact conclude_keeps setup item existing now tally after still (counted tally rfl)
  · exact ⟨busy.role, busy.stage, busy.listed⟩
  · intro label hlabel
    exact List.mem_append_left _ (List.mem_map_of_mem hlabel)

theorem process_item_keeps (item : WorkItem) (now : Int) (n : Notes)
    (busy : Busy item.relpath n) :
    Keeps (discipline setup) (processItem setup item now) n fun _ after =>
      after.stage = .idle := by
  apply keeps_best_effort
  exact run_pipeline_keeps setup item now n busy

end FileReplicator.ItemsKeep
