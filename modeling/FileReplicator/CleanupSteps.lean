import FileReplicator.CleanupRuns

/-!
# What a call makes of a cleanup

The log of the attempts at one row, and what each call of a thread makes of the row and
of the log: nothing, or the caller is alone with the row and moves both on.
-/

namespace FileReplicator.CleanupSteps

open Domain DurableStore Effects Interleaving Annotations Attempts SourceActions Retry Operations Worker
open Instance Steps Runs Rows
open CleanupCalls (Notes Role Stage Transfers isOrdinary learnMarked learnStarted learnOutcome cleaning)
open CleanupRows CleanupRuns

variable (setup : Setup) (r : String)

def startsOver (size : Nat) (mtimeMs : Int) : Option Row → Bool
  | none => true
  | some row => Store.resets row size mtimeMs

def note (clock : Int) (store : Store) (tries : Tries) : (operation : Op) → Ret operation → Tries
  | .startAction ctx, handle => if ctx.relpath = r then enter handle clock tries else tries
  | .awaitAction handle, result => hear handle (joinOutcome result) tries
  | .store (.recordCleanupAttempt relpath _ _ gate _), .ok _ =>
      if relpath = r then close gate tries else tries
  | .store (.upsertReady relpath size mtimeMs _), .ok _ =>
      if relpath = r ∧ startsOver size mtimeMs (store.items r) = true then [] else tries
  | _, _ => tries

/-- What makes an attempt: the tick, or the item of a batch, with its clock. -/
def clockOf : Spec → Int
  | .tick now _ _ _ | .item _ _ now => now
  | _ => 0

def heed (t : Hand) (operation : Op) (answer : Answer) (c _ : Squad) (tries : Tries) : Tries :=
  match perform setup c.state t (Machine.live c) operation answer with
  | some (ret, _) => note r (clockOf t.spec) c.state.store tries operation ret
  | none => tries

def pass (_ : Event) (_ _ : Squad) (tries : Tries) : Tries := tries

abbrev logging : Chronicle Op Ret World Spec Pair Answer Event Tries :=
  chronicle [] (heed setup r) pass

/-! ## One call -/

/-- What a thread knows of the row and of the handles when it makes a call. -/
structure Before (c : Squad) (tries : Tries) (t : Hand) : Prop where
  keyed : Keyed c.state.store
  fits : Fits t.spec t.notes
  budgeted : Budgeted Transient (budget setup) tries
  tied : Tied setup r (c.state.store.items r) tries t.notes.2
  /-- If the caller is engaged with the row, nobody else is in its cleanup. -/
  settled : Engaged r t → Settled setup (c.state.store.items r) tries (At r t.notes.2)
  foreign : ∀ copy handle, t.notes.2.stage = .acting copy handle → copy.relpath ≠ r →
    ∀ newest ∈ tries.head?, newest.key ≠ handle

/-- What a call makes of the row and its log: nothing, or its caller alone is engaged with it. -/
def Makes (t : Hand) (row later : Option Row) (tries more : Tries) (after : Notes) : Prop :=
  (later = row ∧ more = tries ∧ Unmoved setup r row tries t.notes.2 after) ∨
    (Engaged r t ∧ Moved setup r later more after)

section Call

variable {setup} {r}
variable {c : Squad} {tries : Tries} {t : Hand}

theorem Before.unmoved (before : Before setup r c tries t) :
    Makes setup r t (c.state.store.items r) (c.state.store.items r) tries tries t.notes.2 :=
  Or.inl ⟨rfl, rfl, before.tied, id⟩

theorem Before.role (before : Before setup r c tries t) (role : Role)
    (promotes : ∀ rows, role = .promoting rows → rows = [])
    (held : ∀ held, role = .claiming held → held = []) (other : role ≠ .item ∧ role ≠ .listing) :
    Makes setup r t (c.state.store.items r) (c.state.store.items r) tries tries
      { t.notes.2 with role := role } := by
  refine Or.inl ⟨rfl, rfl, keeps_role before.tied role ?_ other⟩
  refine silent_of_idle r _ ⟨rfl, rfl⟩ (fun rows is member => ?_) held
  rw [promotes rows is] at member
  cases member

theorem found_of_list (store : Store) (keyed : Keyed store) (state : ItemState) :
    Found r (store.items r) state (store.listByState state) := by
  constructor
  case different => exact select_nodup store keyed _
  case found =>
    rintro item member rfl
    obtain ⟨row, found, is, same⟩ := store.mem_list_by_state state item member
    exact ⟨row, found, is, by rw [same]; rfl, by rw [same]; rfl⟩

theorem Before.list (before : Before setup r c tries t) (state : ItemState)
    (also : CleanupCalls.allowed setup t.notes.2 (.store (.listByState state))) :
    Makes setup r t (c.state.store.items r) (c.state.store.items r) tries tries
      (CleanupCalls.learn t.notes.2 (.store (.listByState state))
        (.ok (c.state.store.listByState state))) := by
  have found := found_of_list (r := r) c.state.store before.keyed state
  have settled (early : isEarly t.notes.2.role = true) :=
    before.settled (engaged_of_early r t before.fits early)
  cases state with
  | failed =>
      obtain ⟨role, idle⟩ := also
      exact Or.inl ⟨rfl, rfl, listed_failed _ (settled (by rw [role]; rfl)) idle _ found⟩
  | cleanupPending =>
      obtain ⟨free, rows, role⟩ := also
      exact Or.inl ⟨rfl, rfl, listed_pending _ (settled (by rw [role]; rfl)) (not_at_of_free free) free _
        found⟩
  | cleanupFailed =>
      obtain ⟨free, role⟩ := also
      have is : isEarly t.notes.2.role = true := by rw [role]; rfl
      have early := (tick_of_early t before.fits is).1
      exact Or.inl ⟨rfl, rfl, listed_due _ (settled is) before.tied role free early _ found⟩
  | _ => exact also.elim

theorem Before.upsert (before : Before setup r c tries t) (relpath : String) (size : Nat)
    (mtimeMs now : Int) (may : Drains.allowed t.notes.1 (.store (.upsertReady relpath size mtimeMs now)))
    (also : CleanupCalls.allowed setup t.notes.2 (.store (.upsertReady relpath size mtimeMs now))) :
    Makes setup r t (c.state.store.items r)
      ((c.state.store.upsertReady relpath size mtimeMs now).items r) tries
      (if relpath = r ∧ startsOver size mtimeMs (c.state.store.items r) = true then [] else tries)
      t.notes.2 := by
  obtain ⟨others, cases_⟩ := c.state.store.upsert_cases relpath size mtimeMs now
  by_cases own : relpath = r
  · subst own
    have engaged := engaged_of_puts relpath t before.fits _ may .ready rfl
    obtain ⟨role, idle⟩ := also
    -- a tick that discovers has listed nothing yet
    have silent : Silent relpath t.notes.2 := by
      refine silent_of_idle relpath _ idle (fun rows is member => ?_) fun held is => ?_
      · rw [role] at is
        cases is
        cases member
      · rw [role] at is
        cases is
    refine Or.inr ⟨engaged, ?_⟩
    rcases cases_ with ⟨absent, made, _⟩ | ⟨row, found, resets, made, _⟩ | ⟨row, found, stays, made, _⟩
    · rw [made, if_pos ⟨rfl, by rw [absent]; rfl⟩]
      exact moved_fresh silent size mtimeMs now
    · rw [made, if_pos ⟨rfl, by rw [found]; exact resets⟩]
      exact moved_fresh silent size mtimeMs now
    · have settled := before.settled engaged
      rw [found] at settled
      rw [made, if_neg (by
        rintro ⟨_, anew⟩
        rw [found] at anew
        rw [show Store.resets row size mtimeMs = true from anew] at stays
        cases stays)]
      exact moved_touched before.budgeted silent row settled size mtimeMs now
  · have elsewhere : ¬(relpath = r ∧ startsOver size mtimeMs (c.state.store.items r) = true) :=
      fun both => own both.1
    rw [if_neg elsewhere, (others r fun same => own same.symm).1]
    exact before.unmoved

theorem Before.claim (before : Before setup r c tries t) (limit : Nat) (now : Int)
    (may : Drains.allowed t.notes.1 (.store (.claimReady limit now)))
    (also : CleanupCalls.allowed setup t.notes.2 (.store (.claimReady limit now))) :
    Makes setup r t (c.state.store.items r) ((c.state.store.claimReady limit now).2.items r) tries tries
      { t.notes.2 with role := .claiming (c.state.store.claimReady limit now).1 } := by
  have engaged := engaged_of_claim r t _ may rfl
  obtain ⟨_, idle⟩ := also
  refine Or.inr ⟨engaged, ?_⟩
  have picks : ∀ it ∈ c.state.store.claimed limit now, ∃ row, c.state.store.items it.relpath = some row ∧
      row.state = .ready ∧ it = c.state.store.toItem it.relpath row := by
    intro it member
    obtain ⟨wanted, row, found, same⟩ := c.state.store.mem_select _ it (List.mem_of_mem_take member)
    rw [Bool.and_eq_true] at wanted
    have state : it.state = .ready := of_decide_eq_true wanted.1
    rw [same] at state
    exact ⟨row, found, state, same⟩
  -- a row that is claimed was ready, so its action has never been attempted
  have taken : ∀ it ∈ c.state.store.claimed limit now, it.relpath = r →
      Taken (c.state.store.items r) ((c.state.store.claimReady limit now).2.items r) now := by
    rintro it member rfl
    obtain ⟨row, found, ready, _⟩ := picks it member
    refine ⟨row, found, ready, ?_⟩
    show (if it.relpath ∈ (c.state.store.claimed limit now).map WorkItem.relpath then _ else _) = _
    rw [if_pos (List.mem_map_of_mem member), found]
    rfl
  apply moved_claimed before.budgeted (before.settled engaged) idle _ _ now
  · by_cases member : r ∈ (c.state.store.claimed limit now).map WorkItem.relpath
    · obtain ⟨it, picked, own⟩ := List.mem_map.mp member
      exact Or.inr (taken it picked own)
    · exact Or.inl (if_neg member)
  · intro item member own
    obtain ⟨it, picked, rfl⟩ := List.mem_map.mp member
    refine ⟨taken it picked own, fun found same => ?_⟩
    obtain ⟨row, is, _, eq⟩ := picks it picked
    rw [show it.relpath = r from own, same] at is
    cases is
    rw [eq]
    rfl

/-! ### Rows put into a state -/

theorem items_own (store : Store) (change : Row → Row) :
    (store.updateRow r change).items r = (store.items r).map change := by
  rw [Store.items_update, if_pos rfl]

theorem items_other (store : Store) (relpath : String) (change : Row → Row) (other : relpath ≠ r) :
    (store.updateRow relpath change).items r = store.items r := by
  rw [Store.items_update, if_neg fun same => other same.symm]

theorem Before.transfers (before : Before setup r c tries t) (relpath : String) (state : ItemState)
    (operation : Op) (may : Drains.allowed t.notes.1 operation)
    (puts : Drains.stateOf operation = some (relpath, state))
    (also : Transfers t.notes.2 relpath state) (change : Row → Row)
    (count : ∀ found, (change found).cleanupAttempts = found.cleanupAttempts)
    (into : ∀ found, (change found).state = state) :
    Makes setup r t (c.state.store.items r) ((c.state.store.updateRow relpath change).items r) tries tries
      t.notes.2 := by
  obtain ⟨role, free, young, copy, copies, own⟩ := also
  by_cases mine : relpath = r
  · subst mine
    have engaged := engaged_of_puts relpath t before.fits operation may state puts
    have known := before.tied.young role copy (by rw [copies]; exact List.mem_singleton_self _) own
    rw [items_own]
    refine Or.inr ⟨engaged, moved_restated before.budgeted before.tied known free ?_ change count ?_⟩
    · rw [role]
      exact Role.noConfusion
    · intro found
      rw [into found]
      exact young
  · rw [items_other c.state.store relpath change mine]
    exact before.unmoved

theorem Before.marks (before : Before setup r c tries t) (relpath : String) (now : Int)
    (may : Drains.allowed t.notes.1 (.store (.setState relpath .cleanupPending now)))
    (also : CleanupCalls.allowed setup t.notes.2 (.store (.setState relpath .cleanupPending now))) :
    Makes setup r t (c.state.store.items r)
      ((c.state.store.setState relpath .cleanupPending now).items r) tries tries
      (learnMarked t.notes.2) := by
  obtain ⟨cleans, free, copy, rest, first, rfl⟩ := also
  have learned : learnMarked t.notes.2 = { t.notes.2 with copies := rest, stage := .marked copy } := by
    rw [learnMarked, first]
  rw [learned, Store.setState]
  by_cases mine : copy.relpath = r
  · subst mine
    have engaged := engaged_of_puts copy.relpath t before.fits _ may .cleanupPending rfl
    rw [items_own]
    exact Or.inr ⟨engaged, moved_marked before.budgeted before.tied cleans free copy rest first rfl now⟩
  · rw [items_other c.state.store copy.relpath _ mine]
    exact Or.inl ⟨rfl, rfl, keeps_marked before.tied copy rest first free mine⟩

theorem Before.completes (before : Before setup r c tries t) (relpath : String) (now : Int)
    (may : Drains.allowed t.notes.1 (.store (.setState relpath .completed now)))
    (also : CleanupCalls.allowed setup t.notes.2 (.store (.setState relpath .completed now))) :
    Makes setup r t (c.state.store.items r) ((c.state.store.setState relpath .completed now).items r)
      tries tries { t.notes.2 with stage := .free } := by
  obtain ⟨cleans, copy, done, acted, rfl⟩ := also
  rw [Store.setState]
  by_cases mine : copy.relpath = r
  · subst mine
    have engaged := engaged_of_puts copy.relpath t before.fits _ may .completed rfl
    rw [items_own]
    exact Or.inr ⟨engaged, moved_completed before.budgeted before.tied cleans copy done acted rfl now⟩
  · rw [items_other c.state.store copy.relpath _ mine]
    exact Or.inl ⟨rfl, rfl, keeps_restaged before.tied copy (by rw [acted]; rfl) mine .free (Or.inr rfl)⟩

theorem Before.state (before : Before setup r c tries t) (relpath : String) (state : ItemState) (now : Int)
    (may : Drains.allowed t.notes.1 (.store (.setState relpath state now)))
    (also : CleanupCalls.allowed setup t.notes.2 (.store (.setState relpath state now))) :
    Makes setup r t (c.state.store.items r) ((c.state.store.setState relpath state now).items r)
      tries tries (CleanupCalls.learn t.notes.2 (.store (.setState relpath state now)) (.ok ())) := by
  have count : ∀ found : Row, ({ found with state := state, updatedAt := now } : Row).cleanupAttempts =
      found.cleanupAttempts := fun _ => rfl
  have into : ∀ found : Row, ({ found with state := state, updatedAt := now } : Row).state = state :=
    fun _ => rfl
  cases state with
  | cleanupPending => exact before.marks relpath now may also
  | completed => exact before.completes relpath now may also
  | ready =>
      obtain ⟨free, rows, role, listed⟩ := also
      show Makes setup r t _ ((c.state.store.updateRow relpath _).items r) tries tries t.notes.2
      by_cases mine : relpath = r
      · subst mine
        have engaged := engaged_of_puts relpath t before.fits _ may .ready rfl
        have young := before.tied.promotes rows role listed
        rw [items_own]
        refine Or.inr ⟨engaged, moved_restated before.budgeted before.tied young free ?_ _ count ?_⟩
        · rw [role]
          exact Role.noConfusion
        · exact fun _ => rfl
      · rw [items_other c.state.store relpath _ mine]
        exact before.unmoved
  | _ => exact before.transfers relpath _ _ may rfl also _ count into

theorem Before.records (before : Before setup r c tries t)
    (small : ∀ limit ∈ setup.retry.maxAttempts, limit ≤ maxU32) (relpath error : String)
    (state : ItemState) (gate now : Int)
    (may : Drains.allowed t.notes.1 (.store (.recordCleanupAttempt relpath error state gate now)))
    (also : CleanupCalls.allowed setup t.notes.2 (.store (.recordCleanupAttempt relpath error state gate now))) :
    Makes setup r t (c.state.store.items r)
      ((c.state.store.recordCleanupAttempt relpath error state gate now).items r) tries
      (if relpath = r then close gate tries else tries) { t.notes.2 with stage := .free } := by
  obtain ⟨cleans, rfl, records⟩ := also
  rw [Store.recordCleanupAttempt]
  by_cases mine : relpath = r
  · subst mine
    have engaged := engaged_of_puts relpath t before.fits _ may .cleanupFailed rfl
    rw [items_own, if_pos rfl]
    exact Or.inr ⟨engaged, moved_recorded small before.budgeted before.tied cleans gate records error now⟩
  · obtain ⟨copy, e, jitter, acted, rfl, _⟩ := records
    rw [items_other c.state.store copy.relpath _ mine, if_neg mine]
    exact Or.inl ⟨rfl, rfl, keeps_restaged before.tied copy (by rw [acted]; rfl) mine .free (Or.inr rfl)⟩

theorem Before.starts (before : Before setup r c tries t) (ctx : CleanupCtx) (handle : Nat)
    (clock : clockOf t.spec = t.notes.2.now)
    (also : CleanupCalls.allowed setup t.notes.2 (.startAction ctx)) :
    Makes setup r t (c.state.store.items r) (c.state.store.items r) tries
      (if ctx.relpath = r then enter handle (clockOf t.spec) tries else tries)
      (learnStarted t.notes.2 handle) := by
  obtain ⟨cleans, copy, marked, own⟩ := also
  have learned : learnStarted t.notes.2 handle = { t.notes.2 with stage := .acting copy handle } := by
    rw [learnStarted, marked]
  rw [learned, clock, ← own]
  by_cases mine : copy.relpath = r
  · rw [if_pos mine]
    have engaged := engaged_of_at r t before.fits ⟨copy, by rw [marked]; rfl, mine⟩
    exact Or.inr ⟨engaged, moved_started before.budgeted before.tied cleans copy marked mine handle⟩
  · rw [if_neg mine]
    exact Or.inl ⟨rfl, rfl, keeps_restaged before.tied copy (by rw [marked]; rfl) mine _ (Or.inl rfl)⟩

theorem Before.hears (before : Before setup r c tries t) (handle : Nat)
    (result : Except String (Except ReplError CleanupDone))
    (also : CleanupCalls.allowed setup t.notes.2 (.awaitAction handle)) :
    Makes setup r t (c.state.store.items r) (c.state.store.items r) tries
      (hear handle (joinOutcome result) tries) (learnOutcome t.notes.2 result) := by
  obtain ⟨cleans, copy, acting⟩ := also
  have learned : learnOutcome t.notes.2 result =
      { t.notes.2 with stage := .acted copy (joinOutcome result) } := by
    rw [learnOutcome, acting]
  rw [learned]
  by_cases mine : copy.relpath = r
  · have engaged := engaged_of_at r t before.fits ⟨copy, by rw [acting]; rfl, mine⟩
    exact Or.inr ⟨engaged, moved_heard before.budgeted before.tied cleans copy handle acting mine _⟩
  · rw [hear_other tries handle _ (before.foreign copy handle acting mine)]
    exact Or.inl ⟨rfl, rfl, keeps_restaged before.tied copy (by rw [acting]; rfl) mine _ (Or.inl rfl)⟩

theorem Before.statement (before : Before setup r c tries t)
    (small : ∀ limit ∈ setup.retry.maxAttempts, limit ≤ maxU32) (operation : StoreOp)
    (may : Drains.allowed t.notes.1 (.store operation))
    (also : CleanupCalls.allowed setup t.notes.2 (.store operation)) :
    Makes setup r t (c.state.store.items r) ((callStore c.state.store operation).2.items r) tries
      (note r (clockOf t.spec) c.state.store tries (.store operation)
        (.ok (callStore c.state.store operation).1))
      (CleanupCalls.learn t.notes.2 (.store operation) (.ok (callStore c.state.store operation).1)) := by
  cases operation with
  | upsertReady relpath size mtimeMs now => exact before.upsert relpath size mtimeMs now may also
  | claimReady limit now => exact before.claim limit now may also
  | listByState state => exact before.list state also
  | setState relpath state now => exact before.state relpath state now may also
  | rollUpItem relpath state attempts gate error now =>
      exact before.transfers relpath state _ may rfl also _ (fun _ => rfl) fun _ => rfl
  | recordCleanupAttempt relpath error state gate now =>
      exact before.records small relpath error state gate now may also
  | setBytesDone relpath bytes now => exact absurd may (Drains.no_progress _ relpath bytes now)
  | _ => exact before.unmoved

theorem Before.makes (before : Before setup r c tries t)
    (small : ∀ limit ∈ setup.retry.maxAttempts, limit ≤ maxU32) (operation : Op) (ret : Ret operation)
    (effect : Effect World Spec) (clock : clockOf t.spec = t.notes.2.now ∨ t.notes.2.stage = .free)
    (did : Did setup (retold t) (Machine.live c) c.state operation ret effect)
    (may : Drains.allowed t.notes.1 operation) (also : CleanupCalls.allowed setup t.notes.2 operation)
    (possible : CleanupCalls.possible operation ret) :
    Makes setup r t (c.state.store.items r) (effect.state.store.items r) tries
      (note r (clockOf t.spec) c.state.store tries operation ret)
      (CleanupCalls.learn t.notes.2 operation ret) := by
  cases did with
  | statement operation => exact before.statement small operation may also
  | refused operation text => exact possible.elim
  | undelivered item label resume left error after stored =>
      rcases stored with rfl | ⟨bytes, _, rfl⟩ <;> exact before.unmoved
  | startedAction ctx =>
      have reads : clockOf t.spec = t.notes.2.now := by
        rcases clock with reads | free
        · exact reads
        · obtain ⟨_, copy, marked, _⟩ := also
          rw [free] at marked
          cases marked
      exact before.starts ctx c.state.handles reads also
  | awaited handle result ended => exact before.hears handle (.ok result) also
  | awaitPanicked handle text present => exact before.hears handle (.error text) also
  | locked free =>
      exact before.role (.promoting []) (fun rows same => by cases same; rfl)
        (fun held same => by cases same) ⟨Role.noConfusion, Role.noConfusion⟩
  | unlocked =>
      exact before.role .outside (fun rows same => by cases same) (fun held same => by cases same)
        ⟨Role.noConfusion, Role.noConfusion⟩
  | spawnedBatch items now =>
      exact before.role (.claiming []) (fun rows same => by cases same)
        (fun held same => by cases same; rfl) ⟨Role.noConfusion, Role.noConfusion⟩
  | abortedBatch => exact possible.elim
  | _ => exact before.unmoved

theorem Before.started (before : Before setup r c tries t) (operation : Op) (ret : Ret operation)
    (effect : Effect World Spec) (did : Did setup (retold t) (Machine.live c) c.state operation ret effect)
    (also : CleanupCalls.allowed setup t.notes.2 operation) (spec : Spec)
    (spawned : spec ∈ effect.spawned) :
    isOrdinary spec = true ∧ (∀ now ignoreWindow redriveCleanup fuel,
        spec ≠ .tick now ignoreWindow redriveCleanup fuel) ∧
      Tied setup r (effect.state.store.items r)
        (note r (clockOf t.spec) c.state.store tries operation ret) (CleanupCalls.start spec) := by
  have aside (row : Option Row) (more : Tries) : Tied setup r row more ⟨.aside, 0, [], .free⟩ :=
    tied_of_silent (silent_of_idle r _ ⟨rfl, rfl⟩ (fun _ same => by cases same)
      fun _ same => by cases same)
  cases did with
  | spawnedAttempts contexts =>
      obtain ⟨ctx, _, rfl⟩ := List.mem_map.mp spawned
      exact ⟨rfl, fun _ _ _ _ => Spec.noConfusion, aside _ _⟩
  | startedAction ctx =>
      obtain rfl := List.mem_singleton.mp spawned
      exact ⟨rfl, fun _ _ _ _ => Spec.noConfusion, aside _ _⟩
  | startedQuarantine job =>
      obtain rfl := List.mem_singleton.mp spawned
      exact ⟨rfl, fun _ _ _ _ => Spec.noConfusion, aside _ _⟩
  | spawnedBatch items now =>
      obtain ⟨item, member, rfl⟩ := List.mem_map.mp spawned
      obtain ⟨role, _⟩ := also
      refine ⟨rfl, fun _ _ _ _ => Spec.noConfusion, ?_⟩
      show Tied setup r (c.state.store.items r) tries ⟨.item, now, [item], .free⟩
      -- an item begins with the copy that its tick has claimed
      by_cases mine : item.relpath = r
      · obtain ⟨young, zero⟩ := before.tied.held items role item member mine
        constructor
        case promotes => exact fun _ same => by cases same
        case held => exact fun _ same => by cases same
        case young => exact fun _ _ _ _ => young
        case listed => exact fun same => by cases same
        case due =>
          intro copy listed _
          obtain rfl := List.mem_singleton.mp listed
          exact due_of_young young copy zero now
        case staged => exact fun copy same => by cases same
        case single => exact List.length_filter_le _ [item]
      · apply tied_of_silent
        constructor
        case promotes => exact fun _ same => by cases same
        case held => exact fun _ same => by cases same
        case desk =>
          intro copy listed
          obtain rfl := List.mem_singleton.mp listed
          exact mine
  | _ => cases spawned

end Call

theorem handles_kept (operation : Op) (ret : Ret operation) (live : List Spec) (world : World)
    (t : Running) (effect : Effect World Spec) (did : Did setup t live world operation ret effect) :
    world.handles ≤ effect.state.handles := by
  cases did with
  | undelivered item label resume left error after stored =>
      rcases stored with rfl | ⟨bytes, _, rfl⟩ <;> exact Nat.le_refl _
  | startedAction ctx => exact Nat.le_succ _
  | startedQuarantine job => exact Nat.le_succ _
  | _ => exact Nat.le_refl _

theorem newest_of_note (clock : Int) (tries : Tries) (t : Running) (live : List Spec) (world : World)
    (operation : Op) (ret : Ret operation) (effect : Effect World Spec)
    (did : Did setup t live world operation ret effect) (newest : Try Nat Outcome)
    (is : (note r clock world.store tries operation ret).head? = some newest) :
    (∃ before, tries.head? = some before ∧ before.key = newest.key) ∨
      ∃ ctx, operation = .startAction ctx ∧ ctx.relpath = r ∧ newest.key = world.handles ∧
        effect.state.handles = world.handles + 1 := by
  have old (same : tries.head? = some newest) : ∃ before, tries.head? = some before ∧
      before.key = newest.key := ⟨newest, same, rfl⟩
  cases operation with
  | startAction ctx =>
      by_cases mine : ctx.relpath = r
      · rw [note, if_pos mine] at is
        cases did
        cases is
        exact Or.inr ⟨ctx, rfl, mine, rfl, rfl⟩
      · rw [note, if_neg mine] at is
        exact Or.inl (old is)
  | awaitAction handle =>
      left
      cases tries with
      | nil => cases is
      | cons head rest =>
          by_cases its : head.key = handle
          · rw [note, hear, if_pos its] at is
            cases is
            exact ⟨head, rfl, rfl⟩
          · rw [note, hear, if_neg its] at is
            exact old is
  | store operation =>
      left
      cases ret with
      | error e => cases operation <;> exact old is
      | ok ret =>
          cases operation with
          | recordCleanupAttempt relpath error state gate now =>
              by_cases mine : relpath = r
              · simp only [note, if_pos mine] at is
                cases tries with
                | nil => cases is
                | cons head rest =>
                    cases is
                    exact ⟨head, rfl, rfl⟩
              · simp only [note, if_neg mine] at is
                exact old is
          | upsertReady relpath size mtimeMs now =>
              by_cases anew : relpath = r ∧ startsOver size mtimeMs (world.store.items r) = true
              · simp only [note, if_pos anew] at is
                cases is
              · simp only [note, if_neg anew] at is
                exact old is
          | _ => exact old is
  | _ => exact Or.inl (old is)

theorem acting_of_learn (n : Notes) (t : Running) (live : List Spec) (world : World) (operation : Op)
    (ret : Ret operation) (effect : Effect World Spec)
    (did : Did setup t live world operation ret effect)
    (also : CleanupCalls.allowed setup n operation) (copy : WorkItem) (handle : Nat)
    (acting : (CleanupCalls.learn n operation ret).stage = .acting copy handle) :
    n.stage = .acting copy handle ∨
      ∃ ctx, operation = .startAction ctx ∧ ctx.relpath = copy.relpath ∧ handle = world.handles ∧
        effect.state.handles = world.handles + 1 := by
  cases operation with
  | startAction ctx =>
      cases did
      obtain ⟨_, other, marked, own⟩ := also
      have learned : (learnStarted n world.handles).stage = .acting copy handle := acting
      simp only [learnStarted, marked] at learned
      cases learned
      exact Or.inr ⟨ctx, rfl, own.symm, rfl, rfl⟩
  | awaitAction other =>
      obtain ⟨_, other, is⟩ := also
      have learned : (learnOutcome n ret).stage = .acting copy handle := acting
      rw [learnOutcome, is] at learned
      cases learned
  | store operation =>
      left
      cases operation with
      | setState relpath state now =>
          cases state with
          | cleanupPending =>
              obtain ⟨_, _, other, rest, first, _⟩ := also
              have learned : (learnMarked n).stage = .acting copy handle := acting
              rw [learnMarked, first] at learned
              cases learned
          | completed => cases acting
          | _ => exact acting
      | recordCleanupAttempt relpath error state gate now => cases acting
      | listByState state =>
          cases ret with
          | error e => exact acting
          | ok rows => cases state <;> exact acting
      | claimReady limit now => cases ret <;> exact acting
      | _ => exact acting
  | _ => exact Or.inl acting

theorem possible_of_calm (t : Hand) (live : List Spec) (world : World) (operation : Op) (answer : Answer)
    (ret : Ret operation) (effect : Effect World Spec)
    (performed : perform setup world t live operation answer = some (ret, effect))
    (calm : calm operation answer = true) : CleanupCalls.possible operation ret := by
  cases operation with
  | store operation =>
      cases answer with
      | asIs =>
          cases performed
          trivial
      | refused text => cases calm
      | _ => cases performed
  | abortBatch => cases calm
  | _ => trivial

end FileReplicator.CleanupSteps
