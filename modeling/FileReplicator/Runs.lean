import FileReplicator.ActionsKeep
import FileReplicator.Steps

/-!
# Runs of an instance

What holds in every run, whatever the threads, the destinations and the file
system do: every thread keeps to the protocol, the rows of the store are keyed,
and attempts report destinations of the configuration.
-/

namespace FileReplicator.Runs

open Domain DurableStore Effects FileTree SourceActions Operations Worker Interleaving Instance
open Protocol ActionsKeep Steps

variable (setup : Setup)

/-! ## The store -/

structure Keyed (store : Store) : Prop where
  nodup : store.order.Nodup
  listed : ∀ r ∈ store.order, store.items r ≠ none

theorem keyed_of_same (store after : Store) (keyed : Keyed store) (order : after.order = store.order)
    (items : ∀ r, store.items r ≠ none → after.items r ≠ none) : Keyed after := by
  constructor
  · rw [order]
    exact keyed.nodup
  · intro r hr
    rw [order] at hr
    exact items r (keyed.listed r hr)

theorem keyed_update (store : Store) (keyed : Keyed store) (relpath : String) (change : Row → Row) :
    Keyed (store.updateRow relpath change) := by
  apply keyed_of_same store (store.updateRow relpath change) keyed rfl
  intro r present
  rw [Store.items_update]
  split
  · simpa using present
  · exact present

theorem keyed_insert (store : Store) (keyed : Keyed store) (relpath : String) (row : Row)
    (absent : store.items relpath = none) : Keyed (store.insertRow relpath row) := by
  constructor
  · show (store.order ++ [relpath]).Nodup
    rw [List.nodup_append]
    refine ⟨keyed.nodup, List.nodup_singleton _, ?_⟩
    rintro r hr _ hs rfl
    rw [List.mem_singleton.mp hs] at hr
    exact keyed.listed relpath hr absent
  · intro r hr
    simp only [Store.insertRow]
    split
    · simp
    · rename_i other
      rcases List.mem_append.mp hr with old | new
      · exact keyed.listed r old
      · exact absurd (List.mem_singleton.mp new) other

theorem keyed_upsert (store : Store) (keyed : Keyed store) (relpath : String) (size : Nat)
    (mtimeMs now : Int) : Keyed (store.upsertReady relpath size mtimeMs now) := by
  cases found : store.items relpath with
  | none =>
      simp only [Store.upsertReady, found]
      exact keyed_insert store keyed relpath _ found
  | some row =>
      simp only [Store.upsertReady, found]
      have updated := keyed_update store keyed relpath fun row =>
        Store.rediscovered row size mtimeMs now
      split
      · exact keyed_of_same _ _ updated rfl fun r present => present
      · exact updated

theorem keyed_claim (store : Store) (keyed : Keyed store) (limit : Nat) (now : Int) :
    Keyed (store.claimReady limit now).2 := by
  apply keyed_of_same store (store.claimReady limit now).2 keyed rfl
  intro r present
  simp only [Store.claimReady]
  split
  · simpa using present
  · exact present

theorem keyed_call (store : Store) (keyed : Keyed store) (operation : StoreOp) :
    Keyed (callStore store operation).2 := by
  cases operation with
  | upsertReady relpath size mtimeMs now => exact keyed_upsert store keyed relpath size mtimeMs now
  | claimReady limit now => exact keyed_claim store keyed limit now
  | setState relpath state now => exact keyed_update store keyed relpath _
  | rollUpItem relpath state attempts gate error now => exact keyed_update store keyed relpath _
  | recordCleanupAttempt relpath error state gate now => exact keyed_update store keyed relpath _
  | setBytesDone relpath bytes now => exact keyed_update store keyed relpath _
  | _ => exact ⟨keyed.nodup, keyed.listed⟩

theorem select_nodup (store : Store) (keyed : Keyed store) (wanted : WorkItem → Bool) :
    ((store.select wanted).map WorkItem.relpath).Nodup := by
  have rows : (store.order.filterMap fun r => (store.items r).map (store.toItem r)).map
      WorkItem.relpath = store.order.filter fun r => (store.items r).isSome := by
    induction store.order with
    | nil => rfl
    | cons r rest ih =>
        cases found : store.items r with
        | none => simp only [List.filterMap_cons, List.filter_cons, found, Option.map_none, ih,
            Option.isSome_none, Bool.false_eq_true, if_false]
        | some row =>
            simp only [List.filterMap_cons, List.filter_cons, found, Option.map_some, List.map_cons,
              ih, Option.isSome_some, if_true]
            rfl
  have sorted : ((store.select wanted).map WorkItem.relpath).Perm
      (((store.order.filterMap fun r => (store.items r).map (store.toItem r)).filter wanted).map
        WorkItem.relpath) := (List.perm_insertionSort _ _).map _
  rw [sorted.nodup_iff]
  apply List.Nodup.sublist (List.filter_sublist.map _)
  rw [rows]
  exact keyed.nodup.filter _

theorem claim_nodup (store : Store) (keyed : Keyed store) (limit : Nat) (now : Int) :
    ((store.claimReady limit now).1.map WorkItem.relpath).Nodup := by
  rw [store.claim_relpaths]
  exact (select_nodup store keyed _).sublist ((List.take_sublist _ _).map _)

theorem possible_call (store : Store) (keyed : Keyed store) (operation : StoreOp) :
    possible setup (.store operation) (.ok (callStore store operation).1) := by
  cases operation with
  | claimReady limit now => exact claim_nodup store keyed limit now
  | recoverIncomplete => exact select_nodup store keyed _
  | getRow relpath =>
      show possible setup (.store (.getRow relpath)) (.ok (store.get relpath))
      cases found : store.get relpath with
      | none => trivial
      | some row =>
          obtain ⟨_, _, rfl⟩ := Option.map_eq_some_iff.mp found
          rfl
  | _ => trivial

theorem learn_role (n : Notes) (operation : Op) (ret : Ret operation) :
    (learn setup n operation ret).role = n.role := by
  cases operation with
  | store operation =>
      cases ret with
      | error e => cases operation <;> rfl
      | ok ret =>
          cases operation with
          | destStates relpath =>
              simp only [learn, learnStatement, learnStates]
              split <;> simp_all
          | getRow relpath => cases ret <;> rfl
          | setState relpath state now => cases state <;> rfl
          | rollUpItem relpath state attempts gate error now =>
              simp only [learn, learnStatement]
              split <;> rfl
          | listByState state => cases state <;> rfl
          | _ => rfl
  | deliver item label resume => cases ret <;> rfl
  | verify item label expected policy => cases ret <;> rfl
  | joinAttempt =>
      simp only [learn, learnJoined]
      split
      · split <;> simp_all
      · rfl
  | awaitAction handle =>
      simp only [learn, learnOutcome]
      split
      · split <;> rfl
      · split <;> rfl
  | awaitQuarantine handle =>
      simp only [learn, learnMoved]
      split <;> rfl
  | _ => rfl

/-- The calls that start or await what runs on the blocking pool. -/
def usesPool : Op → Bool
  | .startAction _ | .awaitAction _ | .startQuarantine _ | .awaitQuarantine _ => true
  | _ => false

inductive Staged (n : Notes) : (operation : Op) → Ret operation → Stage → Prop where
  | same (operation : Op) (ret : Ret operation) (plain : usesPool operation = false) :
      Staged n operation ret n.stage
  | idle (operation : Op) (ret : Ret operation) (plain : usesPool operation = false) :
      Staged n operation ret .idle
  | marked (relpath : String) (now : Int) (ret : Unit) (from_idle : n.stage = .idle) :
      Staged n (.store (.setState relpath .cleanupPending now)) (.ok ret) (.marked relpath)
  | acting (ctx : CleanupCtx) (handle : Nat) (from_marked : n.stage = .marked ctx.relpath) :
      Staged n (.startAction ctx) handle (.acting handle ctx)
  | acted (ctx : CleanupCtx) (handle : Nat) (done : CleanupDone)
      (from_acting : n.stage = .acting handle ctx) :
      Staged n (.awaitAction handle) (.ok (.ok done)) (.acted ctx done)
  | failed (ctx : CleanupCtx) (handle : Nat) (result : Except String (Except ReplError CleanupDone))
      (from_acting : n.stage = .acting handle ctx) :
      Staged n (.awaitAction handle) result (.failed ctx)
  | moving (job : QuarantineJob) (handle : Nat) (from_idle : n.stage = .idle) :
      Staged n (.startQuarantine job) handle (.moving handle job)
  | moved (job : QuarantineJob) (handle : Nat) (result : Except String Unit)
      (from_moving : n.stage = .moving handle job) :
      Staged n (.awaitQuarantine handle) result (.moved job result.isOk)

theorem learn_stage (n : Notes) (operation : Op) (ret : Ret operation)
    (may : allowed setup n operation) :
    Staged n operation ret (learn setup n operation ret).stage := by
  cases operation with
  | store operation =>
      cases ret with
      | error e =>
          cases operation with
          | setState relpath state now => exact .idle _ _ rfl
          | recordCleanupAttempt relpath error state gate now => exact .idle _ _ rfl
          | _ => exact .same _ _ rfl
      | ok ret =>
          cases operation with
          | destStates relpath =>
              simp only [learn, learnStatement, learnStates]
              split <;> exact .same _ _ rfl
          | getRow relpath => cases ret <;> exact .same _ _ rfl
          | setState relpath state now =>
              cases state with
              | cleanupPending => exact .marked relpath now ret may.1
              | verified => exact .same _ _ rfl
              | _ => exact .idle _ _ rfl
          | rollUpItem relpath state attempts gate error now =>
              simp only [learn, learnStatement]
              split
              · exact .idle _ _ rfl
              · exact .same _ _ rfl
          | recordCleanupAttempt relpath error state gate now => exact .idle _ _ rfl
          | listByState state => cases state <;> exact .same _ _ rfl
          | _ => exact .same _ _ rfl
  | deliver item label resume => cases ret <;> exact .same _ _ rfl
  | verify item label expected policy => cases ret <;> exact .same _ _ rfl
  | joinAttempt =>
      simp only [learn, learnJoined]
      split
      · split <;> exact .same _ _ rfl
      · exact .same _ _ rfl
  | startAction ctx => exact .acting ctx ret may.1
  | awaitAction handle =>
      obtain ⟨ctx, acting⟩ := may
      cases ret with
      | error text =>
          simp only [learn, learnOutcome, acting]
          exact .failed ctx handle _ acting
      | ok result =>
          cases result with
          | error e =>
              simp only [learn, learnOutcome, acting]
              exact .failed ctx handle _ acting
          | ok done =>
              simp only [learn, learnOutcome, acting]
              exact .acted ctx handle done acting
  | startQuarantine job => exact .moving job ret may.1
  | awaitQuarantine handle =>
      obtain ⟨job, moving⟩ := may
      simp only [learn, learnMoved, moving]
      exact .moved job handle ret moving
  | _ => exact .same _ _ rfl

theorem learn_disk (n : Notes) (operation : Op) (ret : Ret operation)
    (other : ∀ operation', operation ≠ .fs operation') :
    (learn setup n operation ret).disk = n.disk ∧ (learn setup n operation ret).place = n.place := by
  cases operation with
  | fs operation' => exact absurd rfl (other operation')
  | store operation =>
      cases ret with
      | error e => cases operation <;> exact ⟨rfl, rfl⟩
      | ok ret =>
          cases operation with
          | destStates relpath =>
              simp only [learn, learnStatement, learnStates]
              split <;> exact ⟨rfl, rfl⟩
          | getRow relpath => cases ret <;> exact ⟨rfl, rfl⟩
          | setState relpath state now => cases state <;> exact ⟨rfl, rfl⟩
          | rollUpItem relpath state attempts gate error now =>
              simp only [learn, learnStatement]
              split <;> exact ⟨rfl, rfl⟩
          | listByState state => cases state <;> exact ⟨rfl, rfl⟩
          | _ => exact ⟨rfl, rfl⟩
  | deliver item label resume => cases ret <;> exact ⟨rfl, rfl⟩
  | verify item label expected policy => cases ret <;> exact ⟨rfl, rfl⟩
  | joinAttempt =>
      simp only [learn, learnJoined]
      split
      · split <;> exact ⟨rfl, rfl⟩
      · exact ⟨rfl, rfl⟩
  | awaitAction handle =>
      simp only [learn, learnOutcome]
      split
      · split <;> exact ⟨rfl, rfl⟩
      · split <;> exact ⟨rfl, rfl⟩
  | awaitQuarantine handle =>
      simp only [learn, learnMoved]
      split <;> exact ⟨rfl, rfl⟩
  | _ => exact ⟨rfl, rfl⟩

/-- The item that a statement puts into a state. -/
def persists (wanted : ItemState) : StoreOp → Option String
  | .setState relpath state _ => if state = wanted then some relpath else none
  | .rollUpItem relpath state _ _ _ _ => if state = wanted then some relpath else none
  | .recordCleanupAttempt relpath _ state _ _ => if state = wanted then some relpath else none
  | _ => none

theorem acted_of_completed (n : Notes) (operation : StoreOp) (relpath : String)
    (recorded : persists .completed operation = some relpath)
    (may : allowedStatement setup n operation) :
    ∃ ctx done, n.stage = .acted ctx done ∧ ctx.relpath = relpath := by
  cases operation with
  | setState r state now =>
      cases state with
      | completed =>
          obtain ⟨ctx, done, stage, own, _⟩ := may
          exact ⟨ctx, done, stage, own.trans (Option.some.inj recorded)⟩
      | _ => cases recorded
  | rollUpItem r state attempts gate error now =>
      obtain ⟨_, _, _, rfl | rfl⟩ := may
      · cases recorded
      · cases recorded
  | recordCleanupAttempt r error state gate now =>
      obtain ⟨rfl, _⟩ := may
      cases recorded
  | _ => cases recorded

theorem failed_of_cleanup_failed (n : Notes) (operation : StoreOp) (relpath : String)
    (recorded : persists .cleanupFailed operation = some relpath)
    (may : allowedStatement setup n operation) :
    ∃ ctx, n.stage = .failed ctx ∧ ctx.relpath = relpath := by
  cases operation with
  | setState r state now =>
      cases state with
      | cleanupFailed => exact may.elim
      | _ => cases recorded
  | rollUpItem r state attempts gate error now =>
      obtain ⟨_, _, _, rfl | rfl⟩ := may
      · cases recorded
      · cases recorded
  | recordCleanupAttempt r error state gate now =>
      obtain ⟨rfl, _, ctx, stage, own⟩ := may
      exact ⟨ctx, stage, own.trans (Option.some.inj recorded)⟩
  | _ => cases recorded

theorem moved_of_quarantined (n : Notes) (operation : StoreOp) (relpath : String)
    (recorded : persists .quarantined operation = some relpath)
    (may : allowedStatement setup n operation) :
    ∃ job joined, n.stage = .moved job joined ∧ job.ctx.relpath = relpath := by
  cases operation with
  | setState r state now =>
      cases state with
      | quarantined =>
          obtain ⟨job, joined, stage, own, _⟩ := may
          exact ⟨job, joined, stage, own.trans (Option.some.inj recorded)⟩
      | _ => cases recorded
  | rollUpItem r state attempts gate error now =>
      obtain ⟨_, _, _, rfl | rfl⟩ := may
      · cases recorded
      · cases recorded
  | recordCleanupAttempt r error state gate now =>
      obtain ⟨rfl, _⟩ := may
      cases recorded
  | _ => cases recorded

/-- The item that a call records as quarantined. -/
def records : (operation : Op) → Ret operation → Option String
  | .store operation, .ok _ => persists .quarantined operation
  | _, _ => none

theorem learn_recorded (n : Notes) (operation : Op) (ret : Ret operation)
    (may : allowed setup n operation) :
    (learn setup n operation ret).recorded = (records operation ret).or n.recorded := by
  cases operation with
  | store operation =>
      cases ret with
      | error e => cases operation <;> rfl
      | ok ret =>
          cases operation with
          | destStates relpath =>
              simp only [learn, learnStatement, learnStates]
              split <;> rfl
          | getRow relpath => cases ret <;> rfl
          | setState relpath state now => cases state <;> rfl
          | rollUpItem relpath state attempts gate error now =>
              obtain ⟨_, _, _, rfl | rfl⟩ := may
              · rfl
              · rfl
          | recordCleanupAttempt relpath error state gate now =>
              obtain ⟨rfl, _⟩ := may
              rfl
          | listByState state => cases state <;> rfl
          | _ => rfl
  | deliver item label resume => cases ret <;> rfl
  | verify item label expected policy => cases ret <;> rfl
  | joinAttempt =>
      simp only [learn, learnJoined]
      split
      · split <;> rfl
      · rfl
  | awaitAction handle =>
      simp only [learn, learnOutcome]
      split
      · split <;> rfl
      · split <;> rfl
  | awaitQuarantine handle =>
      simp only [learn, learnMoved]
      split <;> rfl
  | _ => rfl

def hasRows : Role → Bool
  | .recover | .tick | .item _ => true
  | _ => false

structure Rowless (n : Notes) : Prop where
  todo : n.todo = []
  stage : n.stage = .idle

theorem rowless_learn (n : Notes) (operation : Op) (ret : Ret operation)
    (role : hasRows n.role = false) (rowless : Rowless n) (may : allowed setup n operation) :
    Rowless (learn setup n operation ret) := by
  have notick : n.role ≠ .tick := by
    intro tick
    rw [tick] at role
    cases role
  have norecover : n.role ≠ .recover := by
    intro recover
    rw [recover] at role
    cases role
  have noitem : ∀ relpath, n.role ≠ .item relpath := by
    intro relpath item
    rw [item] at role
    cases role
  have unlisted : ∀ relpath, relpath ∉ n.todo := by
    intro relpath listed
    rw [rowless.todo] at listed
    cases listed
  constructor
  · cases operation with
    | store operation =>
        cases ret with
        | error e => cases operation <;> exact rowless.todo
        | ok ret =>
            cases operation with
            | destStates relpath => exact absurd may.2.1 (unlisted relpath)
            | getRow relpath => exact absurd may.1 notick
            | setState relpath state now =>
                cases state with
                | verified => exact absurd may.1 (noitem relpath)
                | cleanupPending => exact absurd may.2.1 (unlisted relpath)
                | _ => simp [learn, learnStatement, learnState, Notes.leave, rowless.todo]
            | rollUpItem relpath state attempts gate error now => exact absurd may.1 (noitem relpath)
            | recordCleanupAttempt relpath error state gate now => exact absurd may.2.1 (unlisted relpath)
            | claimReady limit now => exact absurd may.1 notick
            | recoverIncomplete => exact absurd may.1 norecover
            | listByState state =>
                rcases may.2 with tick | recover
                · exact absurd tick.1 notick
                · exact absurd recover.1 norecover
            | _ => exact rowless.todo
    | deliver item label resume => cases ret <;> exact rowless.todo
    | verify item label expected policy => cases ret <;> exact rowless.todo
    | joinAttempt =>
        obtain ⟨relpath, item, _⟩ := may
        exact absurd item (noitem relpath)
    | awaitAction handle =>
        obtain ⟨ctx, acting⟩ := may
        rw [rowless.stage] at acting
        cases acting
    | awaitQuarantine handle =>
        obtain ⟨job, moving⟩ := may
        rw [rowless.stage] at moving
        cases moving
    | spawnBatch items now => exact rfl
    | _ => exact rowless.todo
  · have staged := learn_stage setup n operation ret may
    generalize (learn setup n operation ret).stage = stage at staged
    cases staged with
    | same => exact rowless.stage
    | idle => rfl
    | marked relpath now ret _ => exact absurd may.2.1 (unlisted relpath)
    | acting ctx handle marked => exact absurd may.2.1 (unlisted ctx.relpath)
    | acted ctx handle done acting =>
        rw [rowless.stage] at acting
        cases acting
    | failed ctx handle result acting =>
        rw [rowless.stage] at acting
        cases acting
    | moving job handle _ => exact absurd may.2.1 (unlisted job.ctx.relpath)
    | moved job handle result moving =>
        rw [rowless.stage] at moving
        cases moving

theorem start_rowless (spec : Spec) (role : hasRows (start spec).role = false) :
    Rowless (start spec) := by
  cases spec with
  | item owner item now => cases role
  | _ => exact ⟨rfl, rfl⟩

theorem keeps_rowless {α : Type} (program : Program α) (n : Notes) (post : α → Notes → Prop)
    (role : hasRows n.role = false) (rowless : Rowless n)
    (keeps : Keeps (discipline setup) program n post) :
    Keeps (discipline setup) program n fun _ after => after.stage = .idle := by
  induction program generalizing n with
  | done value => exact rowless.stage
  | call operation next ih =>
      refine ⟨keeps.1, fun ret possible => ih ret _ ?_ ?_ (keeps.2 ret possible)⟩
      · rw [← role]
        exact congrArg hasRows (learn_role setup n operation ret)
      · exact rowless_learn setup n operation ret role rowless keeps.1

theorem main_rests (spec : Spec) :
    Keeps (discipline setup) (main setup spec) (start spec) fun _ after => after.stage = .idle := by
  have rowless (none : hasRows (start spec).role = false) :=
    keeps_rowless setup _ _ _ none (start_rowless spec none) (main_keeps setup spec)
  cases spec with
  | recover now =>
      apply keeps_best_effort
      exact keeps_mono _ _ _ _ _ (ThreadsKeep.recover_keeps setup now _ rfl rfl rfl)
        fun _ _ rest => rest.stage
  | tick now ignoreWindow redriveCleanup fuel =>
      exact keeps_mono _ _ _ _ _
        (ThreadsKeep.run_tick_keeps setup now ignoreWindow redriveCleanup fuel _ rfl rfl rfl rfl)
        fun _ _ rest => rest.stage
  | item owner item now =>
      exact ItemsKeep.process_item_keeps setup item now _ ⟨rfl, rfl, List.mem_singleton.mpr rfl⟩
  | _ => exact rowless rfl

/-! ## Every run -/

structure Base (c : State) : Prop where
  distinct : Distinct c
  orderly : Orderly (engine setup) c
  roles : ∀ t ∈ c.threads, t.notes.role = (start t.spec).role
  rowless : ∀ t ∈ c.threads, hasRows t.notes.role = false → Rowless t.notes
  keyed : Keyed c.state.store
  labels : ∀ t ∈ c.threads, ∀ relpath label, t.notes.role = .attempt relpath label →
    label ∈ setup.labels
  results : ∀ id, ∀ result ∈ c.state.attempts id, ∀ label outcome, result = .ok (label, outcome) →
    label ∈ setup.labels

structure Begins (c : State) : Prop where
  threads : c.threads = []
  down : c.state.up = false
  idle : c.state.ticking = false
  outcomes : ∀ handle, c.state.outcomes handle = none
  quarantined : ∀ handle, c.state.quarantined handle = false
  attempts : ∀ id, c.state.attempts id = []
  keyed : Keyed c.state.store

theorem base_begins (c : State) (begins : Begins c) : Base setup c := by
  have nobody : ∀ t, t ∉ c.threads := by
    intro t
    rw [begins.threads]
    exact List.not_mem_nil
  constructor
  · constructor
    · intro t ht
      exact absurd ht (nobody t)
    · rw [begins.threads]
      exact List.nodup_nil
  · intro t ht
    exact absurd ht (nobody t)
  · intro t ht
    exact absurd ht (nobody t)
  · intro t ht
    exact absurd ht (nobody t)
  · exact begins.keyed
  · intro t ht
    exact absurd ht (nobody t)
  · intro id result hresult
    rw [begins.attempts] at hresult
    cases hresult

theorem starts_keep (specs : List Spec) : ∀ spec ∈ specs,
    Keeps (discipline setup) (main setup spec) (start spec) fun _ after => after.stage = .idle :=
  fun spec _ => main_rests setup spec

theorem roles_settle (c : State) (t : Running) (operation : Op) (ret : Ret operation)
    (next : Ret operation → Program Unit) (effect : Effect World Spec)
    (ht : t ∈ c.threads) (roles : ∀ u ∈ c.threads, u.notes.role = (start u.spec).role) :
    ∀ u ∈ ((engine setup).settle c ((engine setup).resumed t operation ret next) effect).threads,
      u.notes.role = (start u.spec).role := by
  refine all_settle (engine setup) (fun spec n => n.role = (start spec).role) c t operation ret effect
    next ?_ (fun u hu _ => roles u hu) fun _ _ => rfl
  exact (learn_role setup t.notes operation ret).trans (roles t ht)

theorem did_possible (c : State) (base : Base setup c) (t : Running) (operation : Op)
    (ret : Ret operation) (effect : Effect World Spec)
    (did : Did setup t (Machine.live c) c.state operation ret effect) :
    possible setup operation ret := by
  cases did with
  | statement operation => exact possible_call setup c.state.store base.keyed operation
  | refused operation text => cases operation <;> trivial
  | joined n result found =>
      cases result with
      | error e => trivial
      | ok outcome => exact base.results _ _ (List.mem_of_getElem? found) _ _ rfl
  | _ => trivial

theorem did_keyed (c : State) (base : Base setup c) (t : Running) (operation : Op)
    (ret : Ret operation) (effect : Effect World Spec)
    (did : Did setup t (Machine.live c) c.state operation ret effect) :
    Keyed effect.state.store := by
  cases did with
  | statement operation => exact keyed_call c.state.store base.keyed operation
  | undelivered item label resume left error after stored =>
      rcases stored with rfl | ⟨bytes, _, rfl⟩
      · exact ⟨base.keyed.nodup, base.keyed.listed⟩
      · exact ⟨base.keyed.nodup, base.keyed.listed⟩
  | _ => exact base.keyed

theorem did_spawned_labels (c : State) (t : Running) (operation : Op) (ret : Ret operation)
    (effect : Effect World Spec) (may : allowed setup t.notes operation)
    (did : Did setup t (Machine.live c) c.state operation ret effect) :
    ∀ spec ∈ effect.spawned, ∀ relpath label, (start spec).role = .attempt relpath label →
      label ∈ setup.labels := by
  intro spec hspec relpath label role
  cases did with
  | spawnedAttempts contexts =>
      obtain ⟨_, _, _, _, known⟩ := may
      obtain ⟨ctx, hctx, rfl⟩ := List.mem_map.mp hspec
      cases role
      exact (known ctx hctx).2
  | startedAction ctx =>
      rw [List.mem_singleton.mp hspec] at role
      cases role
  | startedQuarantine job =>
      rw [List.mem_singleton.mp hspec] at role
      cases role
  | spawnedBatch items now =>
      obtain ⟨item, _, rfl⟩ := List.mem_map.mp hspec
      cases role
  | _ => cases hspec

theorem did_results (c : State) (base : Base setup c) (t : Running) (ht : t ∈ c.threads)
    (operation : Op) (ret : Ret operation) (effect : Effect World Spec)
    (may : allowed setup t.notes operation)
    (did : Did setup t (Machine.live c) c.state operation ret effect) :
    ∀ id, ∀ result ∈ effect.state.attempts id, ∀ label outcome, result = .ok (label, outcome) →
      label ∈ setup.labels := by
  cases did with
  | undelivered item label resume left error after stored =>
      rcases stored with rfl | ⟨bytes, _, rfl⟩
      · exact base.results
      · exact base.results
  | joined n result found =>
      intro id result hresult
      simp only [changes] at hresult
      split at hresult
      · exact base.results _ result (List.mem_of_mem_eraseIdx hresult)
      · exact base.results _ result hresult
  | endedAttempt owner ctx spec result =>
      intro id reported hresult label outcome same
      simp only [changes] at hresult
      split at hresult
      · rcases List.mem_append.mp hresult with old | new
        · exact base.results _ reported old label outcome same
        · obtain ⟨relpath, mine, role, told⟩ := may
          rw [List.mem_singleton.mp new] at same
          rw [(told label outcome same).1]
          exact base.labels t ht relpath mine role
      · exact base.results _ reported hresult label outcome same
  | _ => exact base.results

theorem calls_did (c : State) (t : Running) (operation : Op) (ret : Ret operation)
    (effect : Effect World Spec) (next : Ret operation → Program Unit) (choice : Step)
    (calls : Calls (engine setup) c t operation ret effect next choice) :
    Did setup t (Machine.live c) c.state operation ret effect := by
  obtain ⟨answer, _, performed⟩ := calls.choice
  exact did_of_perform setup t _ c.state operation answer ret effect performed

theorem base_settle (c : State) (base : Base setup c) (t : Running) (operation : Op)
    (ret : Ret operation) (effect : Effect World Spec) (next : Ret operation → Program Unit)
    (choice : Step) (calls : Calls (engine setup) c t operation ret effect next choice) :
    Base setup ((engine setup).settle c ((engine setup).resumed t operation ret next) effect) := by
  have did := calls_did setup c t operation ret effect next choice calls
  have may := calls_allowed (engine setup) c t operation ret effect next choice calls base.orderly
  have roles := roles_settle setup c t operation ret next effect calls.member base.roles
  constructor
  · exact distinct_settle (engine setup) c _ effect base.distinct
  · exact orderly_settle (engine setup) c t operation ret effect next choice calls base.orderly
      (did_possible setup c base t operation ret effect did) (starts_keep setup effect.spawned)
  · exact roles
  · refine all_settle (engine setup) (fun _ n => hasRows n.role = false → Rowless n) c t operation ret
      effect next ?_ (fun u hu _ => base.rowless u hu) fun spec _ => start_rowless spec
    intro role
    apply rowless_learn setup t.notes operation ret _ _ may
    · rwa [← learn_role setup t.notes operation ret]
    · apply base.rowless t calls.member
      rwa [← learn_role setup t.notes operation ret]
  · exact did_keyed setup c base t operation ret effect did
  · refine all_settle (engine setup) (fun _ n => ∀ relpath label, n.role = .attempt relpath label →
      label ∈ setup.labels) c t operation ret effect next ?_ (fun u hu _ => base.labels u hu) ?_
    · intro relpath label role
      apply base.labels t calls.member relpath label
      rw [← learn_role setup t.notes operation ret]
      exact role
    · exact fun spec spawned relpath label role =>
        did_spawned_labels setup c t operation ret effect may did spec spawned relpath label role
  · exact did_results setup c base t calls.member operation ret effect may did

theorem base_without (c : State) (base : Base setup c) (id : Nat) :
    Base setup ((engine setup).without c id) := by
  constructor
  · exact distinct_without (engine setup) c id base.distinct
  · exact orderly_without (engine setup) c id base.orderly
  · exact all_without (engine setup) (fun spec n => n.role = (start spec).role) c id base.roles
  · exact all_without (engine setup) (fun _ n => hasRows n.role = false → Rowless n) c id base.rowless
  · exact base.keyed
  · exact all_without (engine setup) (fun _ n => ∀ relpath label, n.role = .attempt relpath label →
      label ∈ setup.labels) c id base.labels
  · exact base.results

theorem react_base (live : List Spec) (world : World) (event : Event)
    (reaction : Reaction World Spec) (reacted : react world live event = some reaction) :
    reaction.state.store = world.store ∧
      (∀ id, reaction.state.attempts id = world.attempts id ∨ reaction.state.attempts id = []) ∧
      ∀ spec ∈ reaction.spawned, (start spec).role = .recover ∨ (start spec).role = .tick := by
  cases event with
  | touch path node =>
      cases reacted
      exact ⟨rfl, fun _ => Or.inl rfl, fun _ none => by cases none⟩
  | alter relpath label object =>
      cases reacted
      exact ⟨rfl, fun _ => Or.inl rfl, fun _ none => by cases none⟩
  | setActive active =>
      cases reacted
      exact ⟨rfl, fun _ => Or.inl rfl, fun _ none => by cases none⟩
  | crash =>
      cases reacted
      exact ⟨rfl, fun _ => Or.inr rfl, fun _ none => by cases none⟩
  | boot now =>
      simp only [react] at reacted
      split at reacted
      · cases reacted
      · cases reacted
        refine ⟨rfl, fun _ => Or.inl rfl, fun spec hspec => ?_⟩
        rw [List.mem_singleton.mp hspec]
        exact Or.inl rfl
  | periodic now fuel =>
      simp only [react] at reacted
      split at reacted
      · cases reacted
        refine ⟨rfl, fun _ => Or.inl rfl, fun spec hspec => ?_⟩
        rw [List.mem_singleton.mp hspec]
        exact Or.inr rfl
      · cases reacted
  | trigger now ignoreWindow fuel =>
      simp only [react] at reacted
      split at reacted
      · cases reacted
        refine ⟨rfl, fun _ => Or.inl rfl, fun spec hspec => ?_⟩
        rw [List.mem_singleton.mp hspec]
        exact Or.inr rfl
      · cases reacted

theorem base_absorb (c : State) (base : Base setup c) (event : Event)
    (reaction : Reaction World Spec)
    (reacted : react c.state (Machine.live c) event = some reaction) :
    Base setup ((engine setup).absorb c reaction) := by
  obtain ⟨store, attempts, spawned⟩ := react_base _ _ event reaction reacted
  constructor
  · exact distinct_absorb (engine setup) c reaction base.distinct
  · exact orderly_absorb (engine setup) c reaction base.orderly (starts_keep setup reaction.spawned)
  · exact all_absorb (engine setup) (fun spec n => n.role = (start spec).role) c reaction base.roles
      fun _ _ => rfl
  · exact all_absorb (engine setup) (fun _ n => hasRows n.role = false → Rowless n) c reaction
      base.rowless fun spec _ => start_rowless spec
  · show Keyed reaction.state.store
    rw [store]
    exact base.keyed
  · refine all_absorb (engine setup) (fun _ n => ∀ relpath label, n.role = .attempt relpath label →
      label ∈ setup.labels) c reaction base.labels ?_
    intro spec hspec relpath label role
    rcases spawned spec hspec with other | other
    · rw [show (engine setup).start = start from rfl, other] at role
      cases role
    · rw [show (engine setup).start = start from rfl, other] at role
      cases role
  · intro id result hresult
    change result ∈ reaction.state.attempts id at hresult
    rcases attempts id with same | gone
    · rw [same] at hresult
      exact base.results id result hresult
    · rw [gone] at hresult
      cases hresult

theorem base_step (c after : State) (choice : Step) (base : Base setup c)
    (stepped : (engine setup).step c choice = some after) : Base setup after := by
  rcases step_cases (engine setup) c after choice stepped with
    ⟨t, operation, ret, effect, next, calls, rfl⟩ | ⟨id, _, _, rfl⟩ |
    ⟨event, reaction, _, reacted, rfl⟩
  · exact base_settle setup c base t operation ret effect next choice calls
  · exact base_without setup c base id
  · exact base_absorb setup c base event reaction reacted

/-! ## A small instance -/

def emptyDigest : Algorithm → Bytes → Checksum
  | .crc32c, _ => .crc32c 0
  | .sha256, _ => .sha256 #v[0xe3, 0xb0, 0xc4, 0x42, 0x98, 0xfc, 0x1c, 0x14, 0x9a, 0xfb, 0xf4, 0xc8,
      0x99, 0x6f, 0xb9, 0x24, 0x27, 0xae, 0x41, 0xe4, 0x64, 0x9b, 0x93, 0x4c, 0xa4, 0x95, 0x99, 0x1b,
      0x78, 0x52, 0xb8, 0x55]

/-- Sources are deleted; exhausted items stay where they are. -/
def plainCompletion : Completion where
  onSuccess := .delete
  archiveDir := none
  onExhausted := .retainInPlace
  failedDir := none
  onCollision := .suffix
  verify := .size

/-- One local destination, and empty files only. -/
def smallSetup (completion : Completion) : Setup where
  instanceId := "plant"
  dests := [.local]
  supportsResume := true
  completion := completion
  ingressRoot := ["in"]
  retry := Retry.defaultPolicy
  perLimit := 1
  digest := emptyDigest
  render := fun _ => [123, 125]
  deliveredAs := fun _ bytes => ⟨bytes.length, .crc32c 0, []⟩
  check := fun _ expected _ object =>
    match object with
    | some bytes => verifySize expected.bytes bytes.length
    | none => .error (.transient "no such object")

/-- An instance with a directory and one file to replicate. -/
def smallWorld (files : List (Path × Node)) : World where
  store := emptyStore "plant"
  tree := files.foldl (fun tree file => put tree file.1 (some file.2)) fun _ => none
  objects := fun _ _ => none
  active := true
  up := false
  ticking := false
  handles := 0
  outcomes := fun _ => none
  quarantined := fun _ => false
  attempts := fun _ => []

def smallStart (files : List (Path × Node)) : State := ⟨smallWorld files, [], 0⟩

def oneFile : List (Path × Node) := [(["in"], .dir), (["in", "a"], .file [] 0)]

def twoFiles : List (Path × Node) :=
  [(["in"], .dir), (["in", "a"], .file [] 0), (["in", "b"], .file [7] 0)]

def go (id : Nat) (answers : List Answer) : List Step := answers.map (Choice.run id)

theorem small_begins (files : List (Path × Node)) : Begins (smallStart files) :=
  ⟨rfl, rfl, rfl, fun _ => rfl, fun _ => rfl, fun _ => rfl,
    ⟨List.nodup_nil, fun _ none => by cases none⟩⟩

end FileReplicator.Runs
