import FileReplicator.Annotations
import FileReplicator.DrainRuns
import FileReplicator.Offspring
import FileReplicator.Relabelling

/-!
# What a thread is sure of

A thread takes a destination to be verified by what it has read of the store, by what
an attempt has told it, or because it has verified it itself. The tick that looks for
files is alone with the rows: nobody else has to do with one that it starts over.
-/

namespace FileReplicator.Assurance

open Domain DurableStore Effects Interleaving Annotations SourceActions Operations Worker Instance
open Protocol Steps Runs
open DrainCalls (crew Booked isInside outOf relpathOf)
open Relabelling (runsFor owing Tells)

variable (setup : Setup)

/-! ## What it has learned -/

/-- The rows that a thread may have to do with. -/
def Minds (n : Notes) (relpath : String) : Prop :=
  relpath ∈ n.todo ∨ n.role = .item relpath ∨ ∃ label, n.role = .attempt relpath label

/-- What a thread takes to be verified of the rows it minds is, as far as `known` goes. -/
structure Sure (known : String × String → Prop) (n : Notes) : Prop where
  sure : ∀ relpath, Minds n relpath → ∀ label ∈ setup.labels, (relpath, label) ∈ n.sure →
    known (relpath, label)
  acting : ∀ relpath, runsFor n.stage = some relpath → ∀ label ∈ setup.labels, known (relpath, label)

theorem sure_mono (known more : String × String → Prop) (n : Notes) (grows : ∀ p, known p → more p)
    (sure : Sure setup known n) : Sure setup more n :=
  ⟨fun relpath minds label member listed => grows _ (sure.sure relpath minds label member listed),
    fun relpath acting label member => grows _ (sure.acting relpath acting label member)⟩

theorem sure_start (known : String × String → Prop) (spec : Spec) : Sure setup known (start spec) := by
  cases spec with
  | _ =>
      constructor
      · exact fun _ _ _ _ listed => by cases listed
      · exact fun _ acting => by cases acting

/-- A thread that has nothing on its list and runs no action relies on nothing. -/
theorem sure_idle (known : String × String → Prop) (n : Notes) (tick : n.role = .tick)
    (todo : n.todo = []) (stage : n.stage = .idle) : Sure setup known n := by
  constructor
  · intro relpath minds
    rcases minds with listed | own | ⟨label, own⟩
    · rw [todo] at listed
      cases listed
    · rw [tick] at own
      cases own
    · rw [tick] at own
      cases own
  · intro relpath acting
    rw [stage] at acting
    cases acting

/-- The destination that a call records as verified. -/
def vouches : (operation : Op) → Ret operation → Option (String × String)
  | .store (.setDestPhase relpath label .verified), .ok _ => some (relpath, label)
  | _, _ => none

/-! What a thread waits for moves it from stage to stage, and nothing else. -/

theorem learn_outcome_eq (n : Notes) (result : Except String (Except ReplError CleanupDone)) :
    ∃ stage, learnOutcome n result = { n with stage := stage } := by
  unfold learnOutcome
  split
  · split
    · exact ⟨_, rfl⟩
    · exact ⟨n.stage, rfl⟩
  · split
    · exact ⟨_, rfl⟩
    · exact ⟨n.stage, rfl⟩

theorem learn_moved_eq (n : Notes) (result : Except String Unit) :
    ∃ stage, learnMoved n result = { n with stage := stage } := by
  unfold learnMoved
  split
  · exact ⟨_, rfl⟩
  · exact ⟨n.stage, rfl⟩

def ReadOf (store : Store) (operation : StoreOp) (relpath : String) : Prop :=
  ∃ row, store.items relpath = some row ∧ (row.state = .ready →
    ∃ limit now, operation = .claimReady limit now ∧
      relpath ∈ (store.claimReady limit now).1.map WorkItem.relpath)

theorem todo_statement (store : Store) (n : Notes) (operation : StoreOp)
    (may : allowedStatement setup n operation) (relpath : String)
    (listed : relpath ∈ (learnStatement setup n operation (callStore store operation).1).todo) :
    relpath ∈ n.todo ∨ ReadOf store operation relpath := by
  have by_state (state : ItemState) (unready : state ≠ .ready)
      (member : relpath ∈ (store.listByState state).map WorkItem.relpath) :
      ReadOf store operation relpath := by
    obtain ⟨it, hit, rfl⟩ := List.mem_map.mp member
    obtain ⟨row, found, same, _⟩ := store.mem_list_by_state state it hit
    exact ⟨row, found, fun ready => absurd (same.symm.trans ready) unready⟩
  cases operation with
  | destStates r =>
      simp only [learnStatement, learnStates] at listed
      split at listed <;> exact Or.inl listed
  | getRow r =>
      obtain ⟨it, found, rfl⟩ := List.mem_map.mp listed
      obtain ⟨rfl, unready, row, items, same⟩ := Relabelling.mem_to_revert store r it found
      exact Or.inr ⟨row, items, fun ready => absurd (same.symm.trans ready) unready⟩
  | setState r state now =>
      cases state <;> first
        | exact Or.inl listed
        | exact Or.inl (List.mem_of_mem_erase listed)
  | rollUpItem r state attempts gate error now =>
      simp only [learnStatement] at listed
      split at listed
      · exact Or.inl (List.mem_of_mem_erase listed)
      · exact Or.inl listed
  | recordCleanupAttempt r error state gate now => exact Or.inl (List.mem_of_mem_erase listed)
  | claimReady limit now =>
      right
      change relpath ∈ (store.claimReady limit now).1.map WorkItem.relpath at listed
      have claimed := listed
      rw [store.claim_relpaths] at claimed
      obtain ⟨it, hit, rfl⟩ := List.mem_map.mp claimed
      obtain ⟨_, row, found, _⟩ := store.mem_select _ it (List.mem_of_mem_take hit)
      exact ⟨row, found, fun _ => ⟨limit, now, rfl, listed⟩⟩
  | recoverIncomplete =>
      obtain ⟨it, hit, rfl⟩ := List.mem_map.mp listed
      obtain ⟨wanted, row, found, same⟩ := store.mem_select _ it hit
      refine Or.inr ⟨row, found, fun ready => ?_⟩
      rw [same] at wanted
      simp [Store.toItem, ready] at wanted
  | listByState state =>
      obtain ⟨_, ⟨_, rfl | rfl | rfl⟩ | ⟨_, rfl⟩⟩ := may
      · exact Or.inl listed
      · exact Or.inr (by_state .cleanupPending ItemState.noConfusion listed)
      · rcases List.mem_append.mp listed with old | new
        · exact Or.inl old
        · exact Or.inr (by_state .cleanupFailed ItemState.noConfusion new)
      · exact Or.inr (by_state .exhausted ItemState.noConfusion listed)
  | _ => exact Or.inl listed

theorem todo_learn (t : Running) (live : List Spec) (world : World) (operation : Op)
    (ret : Ret operation) (effect : Effect World Spec)
    (did : Did setup t live world operation ret effect) (may : allowed setup t.notes operation)
    (relpath : String) (listed : relpath ∈ (learn setup t.notes operation ret).todo) :
    relpath ∈ t.notes.todo ∨
      ∃ statement, operation = .store statement ∧ ReadOf world.store statement relpath := by
  cases did with
  | statement operation =>
      exact (todo_statement setup world.store t.notes operation may relpath listed).imp_right
        fun read => ⟨operation, rfl, read⟩
  | refused operation text => cases operation <;> exact Or.inl listed
  | checked item label expected policy =>
      cases outcome : setup.check label expected policy (world.objects item.relpath label) with
      | error e =>
          rw [outcome] at listed
          exact Or.inl listed
      | ok done =>
          rw [outcome] at listed
          exact Or.inl listed
  | joined n result found =>
      simp only [learn, learnJoined] at listed
      split at listed
      · split at listed <;> exact Or.inl listed
      · exact Or.inl listed
  | awaited handle result ended =>
      obtain ⟨stage, learned⟩ := learn_outcome_eq t.notes (.ok result)
      rw [learn, learned] at listed
      exact Or.inl listed
  | awaitPanicked handle text present =>
      obtain ⟨stage, learned⟩ := learn_outcome_eq t.notes (.error text)
      rw [learn, learned] at listed
      exact Or.inl listed
  | awaitedQuarantine handle ended =>
      obtain ⟨stage, learned⟩ := learn_moved_eq t.notes (.ok ())
      rw [learn, learned] at listed
      exact Or.inl listed
  | quarantinePanicked handle text present =>
      obtain ⟨stage, learned⟩ := learn_moved_eq t.notes (.error text)
      rw [learn, learned] at listed
      exact Or.inl listed
  | spawnedBatch items now => cases listed
  | _ => exact Or.inl listed

theorem minds_learn (t : Running) (live : List Spec) (world : World) (operation : Op)
    (ret : Ret operation) (effect : Effect World Spec)
    (did : Did setup t live world operation ret effect) (may : allowed setup t.notes operation)
    (relpath : String) (minds : Minds (learn setup t.notes operation ret) relpath) :
    Minds t.notes relpath ∨ world.store.items relpath ≠ none := by
  rw [Minds, learn_role] at minds
  rcases minds with listed | own
  · rcases todo_learn setup t live world operation ret effect did may relpath listed with before |
      ⟨_, _, row, found, _⟩
    · exact Or.inl (Or.inl before)
    · right
      rw [found]
      exact Option.some_ne_none row
  · exact Or.inl (Or.inr own)

section Learning

variable (known : String × String → Prop)

/-- What a statement tells a thread of the destinations it takes to be verified. -/
theorem sure_statement (store : Store) (tells : Tells setup known store) (n : Notes)
    (sure : Sure setup known n) (operation : StoreOp) (may : allowedStatement setup n operation)
    (entered : ∀ relpath label, operation = .setDestPhase relpath label .verified →
      known (relpath, label)) (relpath : String)
    (minds : Minds (learnStatement setup n operation (callStore store operation).1) relpath)
    (label : String) (member : label ∈ setup.labels)
    (listed : (relpath, label) ∈ (learnStatement setup n operation (callStore store operation).1).sure) :
    known (relpath, label) := by
  have kept (still : Minds n relpath) (was : (relpath, label) ∈ n.sure) : known (relpath, label) :=
    sure.sure relpath still label member was
  have fewer (row : String) (still : Minds (n.leave row) relpath) : Minds n relpath := by
    rcases still with todo | own
    · exact Or.inl (List.mem_of_mem_erase todo)
    · exact Or.inr own
  cases operation with
  | destStates r =>
      simp only [learnStatement, learnStates] at minds listed
      split at listed
      · rename_i own role
        rw [role] at minds
        rcases List.mem_append.mp listed with seen | old
        · obtain ⟨l, verified, same⟩ := List.mem_map.mp seen
          cases same
          have phase := (List.mem_filter.mp verified).2
          rw [decide_eq_true_eq] at phase
          exact tells.verified relpath label phase
        · exact kept (by rw [Minds, role]; exact minds) old
      · rename_i other
        split at minds
        · rename_i own role
          exact absurd role (other own)
        · exact kept minds listed
  | getRow r => exact Relabelling.knows_reverted setup known store tells r _ listed
  | setDestPhase r l phase =>
      simp only [learnStatement, Notes.look] at minds listed
      split at listed
      · rename_i verified
        subst verified
        rcases List.mem_cons.mp listed with same | old
        · cases same
          exact entered relpath label rfl
        · exact kept minds old
      · exact kept minds (List.mem_of_mem_filter listed)
  | setState r state now =>
      cases state <;> first
        | exact kept minds listed
        | exact kept (fewer r minds) listed
  | rollUpItem r state attempts gate error now =>
      simp only [learnStatement] at minds listed
      split at listed
      · rename_i failed
        rw [if_pos failed] at minds
        exact kept (fewer r minds) listed
      · rename_i other
        rw [if_neg other] at minds
        exact kept minds listed
  | recordCleanupAttempt r error state gate now => exact kept (fewer r minds) listed
  | claimReady limit now => cases listed
  | recoverIncomplete =>
      refine Relabelling.knows_listed setup known store tells _ (fun it hit => ?_) _ listed
      obtain ⟨found, pending⟩ := List.mem_filter.mp hit
      obtain ⟨row, items, same, _⟩ := store.mem_recover_incomplete it found
      rw [decide_eq_true_eq] at pending
      exact ⟨row, items, by rw [same, pending]; rfl⟩
  | listByState state =>
      cases state with
      | failed => exact kept minds listed
      | cleanupPending =>
          exact Relabelling.knows_by_state setup known store tells .cleanupPending rfl _ listed
      | cleanupFailed =>
          rcases List.mem_append.mp listed with old | new
          · rcases minds with todo | own
            · rcases List.mem_append.mp todo with was | read
              · exact kept (Or.inl was) old
              · -- a row that is listed anew owes its action
                obtain ⟨it, hit, rfl⟩ := List.mem_map.mp read
                obtain ⟨row, found, same, _⟩ := store.mem_list_by_state .cleanupFailed it hit
                exact tells.pending it.relpath row found (by rw [same]; rfl) label member
            · exact kept (Or.inr own) old
          · exact Relabelling.knows_by_state setup known store tells .cleanupFailed rfl _ new
      | _ => cases listed
  | _ => exact kept minds listed

theorem sure_learn (t : Running) (live : List Spec) (world : World) (operation : Op)
    (ret : Ret operation) (effect : Effect World Spec)
    (did : Did setup t live world operation ret effect) (may : allowed setup t.notes operation)
    (tells : Tells setup known world.store) (sure : Sure setup known t.notes)
    (results : ∀ relpath, t.notes.role = .item relpath → ∀ label,
      .ok (label, .verified) ∈ world.attempts t.id → known (relpath, label))
    (entered : ∀ p, vouches operation ret = some p → known p) :
    Sure setup known (learn setup t.notes operation ret) := by
  constructor
  · intro relpath minds label member listed
    cases did with
    | statement operation =>
        exact sure_statement setup known world.store tells t.notes sure operation may
          (fun r l same => entered (r, l) (by rw [same]; rfl)) relpath minds label member listed
    | refused operation text => cases operation <;> exact sure.sure relpath minds label member listed
    | checked item l expected policy =>
        cases outcome : setup.check l expected policy (world.objects item.relpath l) with
        | error e =>
            rw [outcome] at minds listed
            exact sure.sure relpath minds label member listed
        | ok done =>
            rw [outcome] at minds listed
            exact sure.sure relpath minds label member listed
    | joined n result found =>
        have own : Minds t.notes relpath := by
          simp only [learn, learnJoined] at minds
          split at minds
          · split at minds <;> exact minds
          · exact minds
        simp only [learn, learnJoined] at listed
        split at listed
        · rename_i l verdict
          cases verdict
          split at listed
          · rename_i row role
            rcases List.mem_cons.mp listed with same | old
            · cases same
              exact results relpath role label (List.mem_of_getElem? found)
            · exact sure.sure relpath own label member old
          · exact sure.sure relpath own label member listed
        · exact sure.sure relpath own label member listed
    | awaited handle result ended =>
        obtain ⟨stage, learned⟩ := learn_outcome_eq t.notes (.ok result)
        rw [learn, learned] at minds listed
        exact sure.sure relpath minds label member listed
    | awaitPanicked handle text present =>
        obtain ⟨stage, learned⟩ := learn_outcome_eq t.notes (.error text)
        rw [learn, learned] at minds listed
        exact sure.sure relpath minds label member listed
    | awaitedQuarantine handle ended =>
        obtain ⟨stage, learned⟩ := learn_moved_eq t.notes (.ok ())
        rw [learn, learned] at minds listed
        exact sure.sure relpath minds label member listed
    | quarantinePanicked handle text present =>
        obtain ⟨stage, learned⟩ := learn_moved_eq t.notes (.error text)
        rw [learn, learned] at minds listed
        exact sure.sure relpath minds label member listed
    | spawnedBatch items now =>
        have still : Minds t.notes relpath := by
          rcases minds with none | own
          · cases none
          · exact Or.inr own
        exact sure.sure relpath still label member listed
    | _ => exact sure.sure relpath minds label member listed
  · have staged := learn_stage setup t.notes operation ret may
    generalize (learn setup t.notes operation ret).stage = after at staged ⊢
    intro relpath acting label member
    cases staged with
    | same _ _ _ => exact sure.acting relpath acting label member
    | idle _ _ _ => cases acting
    | marked own _ _ _ =>
        cases acting
        exact sure.sure relpath (Or.inl may.2.1) label member (may.2.2 label member)
    | acting ctx handle _ =>
        cases acting
        exact sure.sure ctx.relpath (Or.inl may.2.1) label member (may.2.2.1 label member)
    | acted ctx handle _ from_acting =>
        apply sure.acting relpath _ label member
        rw [from_acting]
        exact acting
    | failed ctx handle _ from_acting =>
        apply sure.acting relpath _ label member
        rw [from_acting]
        exact acting
    | moving _ _ _ => cases acting
    | moved _ _ _ _ => cases acting

end Learning

/-! ## With the turns of the ticks -/

abbrev Pair := Notes × Drains.Notes

def finished (n : Pair) : Prop := Drains.Finished n.2

/-- The instance, with what its threads keep to and how far its ticks are. -/
abbrev duo := machine setup (both (discipline setup) Drains.drains) finished fun spec =>
  (start spec, Drains.start spec)

abbrev Hand := Thread Op Ret Spec Pair

abbrev Duo := Config Op Ret World Spec Pair

theorem duo_engine : Annotates (duo setup) (engine setup) Prod.fst where
  main := rfl
  owner := rfl
  react := rfl
  start := fun _ => rfl
  learn := fun _ _ _ => rfl
  perform := by
    intro t live world operation answer
    show perform setup world t live operation answer =
      perform setup world (forgetThread Prod.fst t) live operation answer
    rw [perform_retold, perform_retold setup (forgetThread Prod.fst t)]
    rfl

theorem duo_crew : Annotates (duo setup) (crew setup) Prod.snd where
  main := rfl
  owner := rfl
  react := rfl
  start := fun _ => rfl
  learn := fun _ _ _ => rfl
  perform := by
    intro t live world operation answer
    show perform setup world t live operation answer =
      perform setup world (forgetThread Prod.snd t) live operation answer
    rw [perform_retold, perform_retold setup (forgetThread Prod.snd t)]
    rfl

/-- What holds of the instance with either kind of notes. -/
structure Staffed (c : Duo) : Prop where
  base : Base setup (forget Prod.fst c)
  family : Offspring.Family (forget Prod.fst c)
  turns : DrainCalls.Sound setup (forget Prod.snd c)
  books : ∃ ledger, Booked ledger (forget Prod.snd c)
  /-- A tick that waits for the lock has nothing on its list, and one that has given it back is gone. -/
  waiting : ∀ u ∈ c.threads, ∀ p, u.notes.2 = .tick p → p.place = .waiting →
    u.notes.1.todo = [] ∧ u.notes.1.stage = .idle
  going : ∀ u ∈ c.threads, ∀ p, u.notes.2 = .tick p → p.place ≠ .left

/-- An instance, with what its threads have to do with its rows. -/
structure Manned (c : Duo) : Prop extends Staffed setup c where
  /-- The rows that threads have to do with are there, and only they have verified destinations. -/
  minded : ∀ u ∈ c.threads, ∀ relpath, Minds u.notes.1 relpath → c.state.store.items relpath ≠ none
  rooted : ∀ relpath label, c.state.store.phase relpath label = .verified →
    c.state.store.items relpath ≠ none

/-- Whoever may still do something to the rows: an attempt does as long as its item is there. -/
structure Attached (c : Duo) (u : Hand) : Prop where
  works : hasRows (start u.spec).role = true ∨ ∃ owner ctx, u.spec = .attempt owner ctx
  locked : ∀ now ignoreWindow redriveCleanup fuel, u.spec = .tick now ignoreWindow redriveCleanup fuel →
    isInside u.notes.2 = true
  alive : ∀ owner ctx, u.spec = .attempt owner ctx → ∃ v ∈ c.threads, v.id = owner

structure Called (c : Duo) (t : Hand) (operation : Op) (ret : Ret operation)
    (effect : Effect World Spec) (next : Ret operation → Program Unit) : Prop where
  member : t ∈ c.threads
  prog : t.prog = .call operation next
  may : allowed setup t.notes.1 operation
  turn : Drains.allowed t.notes.2 operation
  did : Did setup (forgetThread Prod.fst t) (Machine.live c) c.state operation ret effect

section Calls

variable {setup}
variable {c : Duo} {t : Hand} {operation : Op} {ret : Ret operation} {effect : Effect World Spec}
variable {next : Ret operation → Program Unit}

theorem allowed_of (staffed : Staffed setup c) (member : t ∈ c.threads)
    (prog : t.prog = .call operation next) :
    allowed setup t.notes.1 operation ∧ Drains.allowed t.notes.2 operation := by
  have keeps := staffed.base.orderly _ (mem_forget Prod.fst c t member)
  have turn := staffed.turns.orderly _ (mem_forget Prod.snd c t member)
  change Keeps _ t.prog _ _ at keeps turn
  rw [prog] at keeps turn
  exact ⟨keeps.1, turn.1⟩

theorem called_of_calls (staffed : Staffed setup c) (choice : Choice Answer Event)
    (calls : Calls (duo setup) c t operation ret effect next choice) :
    Called setup c t operation ret effect next := by
  obtain ⟨answer, rfl, performed⟩ := calls.choice
  obtain ⟨may, turn⟩ := allowed_of staffed calls.member calls.prog
  refine ⟨calls.member, calls.prog, may, turn, ?_⟩
  rw [(duo_engine setup).perform] at performed
  exact did_of_perform setup (forgetThread Prod.fst t) _ c.state operation answer ret effect performed

theorem role_of (staffed : Staffed setup c) (u : Hand) (member : u ∈ c.threads) :
    u.notes.1.role = (start u.spec).role :=
  staffed.base.roles _ (mem_forget Prod.fst c u member)

theorem fits_of (staffed : Staffed setup c) (u : Hand) (member : u ∈ c.threads) :
    DrainCalls.fits u.spec u.notes.2 = true :=
  staffed.turns.kinds _ (mem_forget Prod.snd c u member)

theorem spec_of_tick (staffed : Staffed setup c) (u : Hand) (member : u ∈ c.threads)
    (tick : u.notes.1.role = .tick) :
    (∃ now ignoreWindow redriveCleanup fuel, u.spec = .tick now ignoreWindow redriveCleanup fuel) ∧
      ∃ p, u.notes.2 = .tick p := by
  rw [role_of staffed u member] at tick
  have fit := fits_of staffed u member
  cases spec : u.spec with
  | tick now ignoreWindow redriveCleanup fuel =>
      rw [spec] at fit
      cases turn : u.notes.2 with
      | tick p => exact ⟨⟨now, ignoreWindow, redriveCleanup, fuel, rfl⟩, p, rfl⟩
      | _ =>
          rw [turn] at fit
          cases fit
  | _ =>
      rw [spec] at tick
      cases tick

/-- Whoever has rows is attached to them when it makes a call, unless it is a tick that asks for
the lock. -/
theorem attached_of_turn (staffed : Staffed setup c) (member : t ∈ c.threads)
    (turn : Drains.allowed t.notes.2 operation) (rows : hasRows t.notes.1.role = true)
    (asks : operation ≠ .isActive) (locks : operation ≠ .lockTick) : Attached c t := by
  rw [role_of staffed t member] at rows
  constructor
  · exact Or.inl rows
  · intro now ignoreWindow redriveCleanup fuel spec
    have fit := fits_of staffed t member
    rw [spec] at fit
    cases place : t.notes.2 with
    | tick p =>
        rw [place] at turn
        by_contra outside
        exact asks (DrainCalls.outside_calls p operation turn (Bool.eq_false_iff.mpr outside) locks)
    | _ =>
        rw [place] at fit
        cases fit
  · intro owner ctx spec
    rw [spec] at rows
    cases rows

theorem inside_of_quiet_tick (u : Hand) (p : Drains.Progress) (tick : u.notes.2 = .tick p)
    (quiet : p.place.quiet = true) : DrainCalls.isInside u.notes.2 = true := by
  rw [tick]
  exact Drains.inside_of_quiet p.place quiet

theorem no_item (staffed : Staffed setup c) (u : Hand) (hu : u ∈ c.threads) (p : Drains.Progress)
    (tick : u.notes.2 = .tick p) (quiet : p.place.quiet = true) (v : Hand) (hv : v ∈ c.threads)
    (id : Nat) (item : WorkItem) (now : Int) : v.spec ≠ .item id item now := by
  intro spec
  have here := mem_forget Prod.snd c u hu
  obtain ⟨holder, hholder, _, q, batch, waits, out, _⟩ :=
    staffed.turns.owned _ (mem_forget Prod.snd c v hv) id item now spec
  have same := staffed.turns.exclusive.one holder hholder _ here (by
    show DrainCalls.isInside holder.notes = true
    rw [waits]
    exact DrainCalls.inside_of_out q.place batch out) (inside_of_quiet_tick u p tick quiet)
  obtain rfl := eq_of_same_id _ staffed.turns.distinct holder _ hholder here same
  cases tick.symm.trans waits
  rw [DrainCalls.quiet_of_busy p.place (DrainCalls.batch_of_out p.place batch out).2] at quiet
  cases quiet

theorem Called.alone (called : Called setup c t operation ret effect next) (staffed : Staffed setup c)
    (relpath : String) (size : Nat) (mtimeMs now : Int)
    (looks : operation = .store (.upsertReady relpath size mtimeMs now)) (u : Hand)
    (member : u ∈ c.threads) (attached : Attached c u) : u.id = t.id := by
  subst looks
  obtain ⟨⟨_, _, _, _, tick⟩, p, place⟩ := spec_of_tick staffed t called.member called.may.1
  have turn := called.turn
  rw [place] at turn
  have quiet : p.place.quiet = true :=
    (DrainCalls.plain_of_allowed p (.store (.upsertReady relpath size mtimeMs now)) turn rfl).2
      (relpath, .ready) rfl
  have here := mem_forget Prod.snd c t called.member
  cases spec : u.spec with
  | recover at_ =>
      have recovers : isRecover (forgetThread Prod.snd u).spec = true := by
        show isRecover u.spec = true
        rw [spec]
        rfl
      have apart := staffed.turns.calm _ (mem_forget Prod.snd c u member) recovers _ here
      change DrainCalls.isWorking t.spec = false at apart
      rw [tick] at apart
      cases apart
  | item id item at_ =>
      exact absurd spec (no_item staffed t called.member p place quiet u member id item at_)
  | tick at_ ignoreWindow redriveCleanup fuel =>
      exact staffed.turns.exclusive.one _ (mem_forget Prod.snd c u member) _ here
        (attached.locked at_ ignoreWindow redriveCleanup fuel spec) (inside_of_quiet_tick t p place quiet)
  | attempt owner ctx =>
      obtain ⟨v, hv, named⟩ := attached.alive owner ctx spec
      have role := (staffed.family.owned _ (mem_forget Prod.fst c u member) owner ctx spec).2 _
        (mem_forget Prod.fst c v hv) named
      change v.notes.1.role = _ at role
      rw [role_of staffed v hv] at role
      cases other : v.spec with
      | item id item at_ =>
          exact absurd other (no_item staffed t called.member p place quiet v hv id item at_)
      | _ =>
          rw [other] at role
          cases role
  | _ =>
      rcases attached.works with rows | ⟨_, _, other⟩
      · rw [spec] at rows
        cases rows
      · rw [spec] at other
        cases other

/-! ### What a call leaves -/

theorem present_call (store : Store) (operation : StoreOp) (relpath : String)
    (present : store.items relpath ≠ none) : (callStore store operation).2.items relpath ≠ none := by
  have changed (row : String) (change : Row → Row) :
      (store.updateRow row change).items relpath ≠ none := by
    rw [Store.items_update]
    split
    · simpa using present
    · exact present
  cases operation with
  | setState row state now => exact changed row _
  | rollUpItem row state attempts gate error now => exact changed row _
  | recordCleanupAttempt row error state gate now => exact changed row _
  | setBytesDone row bytes now => exact changed row _
  | upsertReady row size mtimeMs now =>
      obtain ⟨others, own⟩ := store.upsert_cases row size mtimeMs now
      show (store.upsertReady row size mtimeMs now).items relpath ≠ none
      by_cases mine : relpath = row
      · subst mine
        rcases own with ⟨absent, _⟩ | ⟨_, _, _, fresh, _⟩ | ⟨_, _, _, kept, _⟩
        · exact absurd absent present
        · rw [fresh]
          exact Option.some_ne_none _
        · rw [kept]
          exact Option.some_ne_none _
      · rw [(others relpath mine).1]
        exact present
  | claimReady limit now =>
      simp only [callStore, Store.claimReady]
      split
      · simpa using present
      · exact present
  | _ => exact present

theorem Called.present (called : Called setup c t operation ret effect next) (relpath : String)
    (present : c.state.store.items relpath ≠ none) : effect.state.store.items relpath ≠ none := by
  cases called.did with
  | statement operation => exact present_call c.state.store operation relpath present
  | undelivered item label resume left error after stored =>
      rcases stored with rfl | ⟨_, _, rfl⟩ <;> exact present
  | _ => exact present

theorem Called.minded (called : Called setup c t operation ret effect next) (manned : Manned setup c) :
    ∀ u ∈ ((duo setup).settle c ((duo setup).resumed t operation ret next) effect).threads,
      ∀ relpath, Minds u.notes.1 relpath → effect.state.store.items relpath ≠ none := by
  apply all_settle (duo setup) (fun _ n => ∀ relpath, Minds n.1 relpath →
    effect.state.store.items relpath ≠ none) c t operation ret effect next
  · intro relpath minds
    apply called.present
    rcases minds_learn setup (forgetThread Prod.fst t) _ c.state operation ret effect called.did
      called.may relpath minds with before | read
    · exact manned.minded t called.member relpath before
    · exact read
  · exact fun u hu _ relpath minds => called.present relpath (manned.minded u hu relpath minds)
  · -- an item or an attempt is started for a row on the list
    intro spec spawned relpath minds
    have listed : relpath ∈ t.notes.1.todo := by
      have may := called.may
      cases called.did with
      | spawnedAttempts contexts =>
          obtain ⟨ctx, hctx, rfl⟩ := List.mem_map.mp spawned
          obtain ⟨own, _, todo, _, known⟩ := may
          rcases minds with none | none | ⟨label, same⟩
          · cases none
          · cases none
          · cases same
            rw [(known ctx hctx).1]
            exact todo
      | startedAction ctx =>
          obtain rfl := List.mem_singleton.mp spawned
          rcases minds with none | none | ⟨_, none⟩ <;> cases none
      | startedQuarantine job =>
          obtain rfl := List.mem_singleton.mp spawned
          rcases minds with none | none | ⟨_, none⟩ <;> cases none
      | spawnedBatch items now =>
          obtain ⟨item, hitem, rfl⟩ := List.mem_map.mp spawned
          obtain ⟨_, _, todo, _⟩ := may
          have own : relpath = item.relpath := by
            rcases minds with only | same | ⟨_, none⟩
            · exact List.mem_singleton.mp only
            · cases same
              rfl
            · cases none
          rw [← todo, own]
          exact List.mem_map_of_mem hitem
      | _ => cases spawned
    exact called.present relpath (manned.minded t called.member relpath (Or.inl listed))

theorem Called.rooted (called : Called setup c t operation ret effect next) (manned : Manned setup c)
    (relpath label : String) (phase : effect.state.store.phase relpath label = .verified) :
    effect.state.store.items relpath ≠ none := by
  apply called.present
  have may := called.may
  cases called.did with
  | statement statement =>
      rcases Relabelling.phase_call c.state.store statement relpath label phase with before | rfl |
        ⟨error, gate, rfl⟩
      · exact manned.rooted relpath label before
      · apply manned.minded t called.member
        rcases may with ⟨role, _⟩ | ⟨_, _, todo, _⟩
        · exact Or.inr (Or.inr ⟨label, role⟩)
        · exact Or.inl todo
      · exact absurd rfl may.2
  | undelivered item l resume left error after stored =>
      apply manned.rooted relpath label
      rcases stored with rfl | ⟨_, _, rfl⟩ <;> exact phase
  | _ => exact manned.rooted relpath label phase

theorem Called.waiting (called : Called setup c t operation ret effect next) (staffed : Staffed setup c) :
    ∀ u ∈ ((duo setup).settle c ((duo setup).resumed t operation ret next) effect).threads,
      ∀ p, u.notes.2 = .tick p → p.place = .waiting → u.notes.1.todo = [] ∧ u.notes.1.stage = .idle := by
  apply all_settle (duo setup) (fun _ n => ∀ p, n.2 = .tick p → p.place = .waiting →
    n.1.todo = [] ∧ n.1.stage = .idle) c t operation ret effect next
  · intro q learned at_
    obtain ⟨p, place, rfl⟩ := DrainCalls.tick_of_learn t.notes.2 operation ret q learned
    have turn := called.turn
    rw [place] at turn
    have moves := DrainCalls.learn_moves p operation ret turn
    rw [at_] at moves
    have was : p.place = .waiting := by
      generalize DrainCalls.isClaim operation = claims at moves
      generalize p.place = before at moves ⊢
      cases moves
      rfl
    -- it has only asked whether the instance is active
    by_cases locks : operation = .lockTick
    · subst locks
      cases at_
    · obtain rfl := DrainCalls.outside_calls p operation turn (by rw [was]; rfl) locks
      exact staffed.waiting t called.member p place was
  · exact fun u hu _ => staffed.waiting u hu
  · intro spec _ p place at_
    cases spec with
    | tick now ignoreWindow redriveCleanup fuel => exact ⟨rfl, rfl⟩
    | _ => cases place

theorem done_of_left (p : Drains.Progress) (at_ : p.place = .left) (operation : Op) :
    ¬Drains.allowedTick p operation := by
  intro turn
  by_cases locks : operation = .lockTick
  · subst locks
    cases at_.symm.trans turn
  · obtain rfl := DrainCalls.outside_calls p operation turn (by rw [at_]; rfl) locks
    cases at_.symm.trans turn

theorem ends_unlocked (staffed : Staffed setup c) (t : Hand) (member : t ∈ c.threads)
    (later : Unit → Program Unit) (prog : t.prog = .call .unlockTick later) :
    (later ()).isDone = true := by
  have keeps := staffed.turns.orderly _ (mem_forget Prod.snd c t member)
  change Keeps _ t.prog t.notes.2 _ at keeps
  rw [prog] at keeps
  obtain ⟨may, onward⟩ := keeps
  have rest := onward () trivial
  cases program : later () with
  | done value => rfl
  | call operation further =>
      rw [program] at rest
      cases place : t.notes.2 with
      | tick p =>
          have turn := rest.1
          rw [place] at turn
          exact absurd turn (done_of_left { p with place := .left } rfl operation)
      | recover =>
          rw [place] at may
          cases may
      | item own =>
          rw [place] at may
          cases may.1
      | aside =>
          rw [place] at may
          cases may.1

theorem Called.going (called : Called setup c t operation ret effect next) (staffed : Staffed setup c) :
    ∀ u ∈ ((duo setup).settle c ((duo setup).resumed t operation ret next) effect).threads,
      ∀ p, u.notes.2 = .tick p → p.place ≠ .left := by
  intro u hu q tick
  rcases mem_settle (duo setup) c _ u effect hu with ⟨same, going⟩ | ⟨before, hbefore, _, same, _⟩ |
    ⟨new, hnew, same⟩
  · rw [same.notes] at tick
    obtain ⟨p, place, rfl⟩ := DrainCalls.tick_of_learn t.notes.2 operation ret q tick
    have turn := called.turn
    rw [place] at turn
    intro left
    by_cases unlocks : operation = .unlockTick
    · subst unlocks
      have ended := ends_unlocked staffed t called.member next called.prog
      exact absurd (ended.symm.trans going) Bool.noConfusion
    · exact staffed.going t called.member p place (DrainCalls.left_of_learn p operation ret turn unlocks left)
  · exact staffed.going before hbefore q (same.notes ▸ tick)
  · obtain ⟨_, _, _, _, notes, _⟩ := mem_spawn_from (duo setup) _ _ new hnew
    rw [same.notes, notes] at tick
    cases spec : new.spec with
    | tick now ignoreWindow redriveCleanup fuel =>
        rw [spec] at tick
        cases tick
        exact Drains.Place.noConfusion
    | _ =>
        rw [spec] at tick
        cases tick

/-- Whoever is attached after a call was attached before it, or it has taken the lock or been
started. -/
theorem Called.attached_settle (called : Called setup c t operation ret effect next)
    (manned : Manned setup c) (u : Hand)
    (member : u ∈ ((duo setup).settle c ((duo setup).resumed t operation ret next) effect).threads)
    (attached : Attached ((duo setup).settle c ((duo setup).resumed t operation ret next) effect) u) :
    (SameThread ((duo setup).resumed t operation ret next) u ∧
        (Attached c t ∨ operation = .lockTick)) ∨
      (∃ before ∈ c.threads, before.id ≠ t.id ∧ SameThread before u ∧ Attached c before) ∨
      ∃ new ∈ (duo setup).spawnFrom c.next effect.spawned, SameThread new u := by
  -- the item of an attempt that was there has been there as well
  have item_of (before : Hand) (hbefore : before ∈ c.threads) (owner : Nat) (ctx : AttemptCtx)
      (spec : before.spec = .attempt owner ctx)
      (alive : ∃ v ∈ ((duo setup).settle c ((duo setup).resumed t operation ret next) effect).threads,
        v.id = owner) : ∃ v ∈ c.threads, v.id = owner := by
    obtain ⟨v, hv, named⟩ := alive
    have early := (manned.family.owned _ (mem_forget Prod.fst c before hbefore) owner ctx spec).1
    rcases mem_settle (duo setup) c _ v effect hv with ⟨same, _⟩ | ⟨old, hold, _, same, _⟩ |
      ⟨new, hnew, same⟩
    · exact ⟨t, called.member, same.id.symm.trans named⟩
    · exact ⟨old, hold, same.id.symm.trans named⟩
    · have first := (mem_spawn_from (duo setup) _ _ new hnew).2.1
      rw [same.id] at named
      change owner < c.next at early
      omega
  rcases mem_settle (duo setup) c _ u effect member with ⟨same, _⟩ | ⟨before, hbefore, other, same, _⟩ |
    ⟨new, hnew, same⟩
  · refine Or.inl ⟨same, ?_⟩
    by_cases locks : operation = .lockTick
    · exact Or.inr locks
    refine Or.inl ⟨same.spec ▸ attached.works, ?_, ?_⟩
    · intro now ignoreWindow redriveCleanup fuel spec
      have after := attached.locked now ignoreWindow redriveCleanup fuel (same.spec.trans spec)
      rw [same.notes] at after
      cases before : isInside t.notes.2 with
      | true => rfl
      | false =>
          have entered := (DrainCalls.tickLock setup).entered t.notes.2 operation ret (by
            cases operation <;> first | rfl | exact absurd rfl locks) called.turn before
          change isInside (Drains.learn t.notes.2 operation ret) = true at after
          exact absurd (entered.symm.trans after) Bool.noConfusion
    · exact fun owner ctx spec =>
        item_of t called.member owner ctx spec (attached.alive owner ctx (same.spec.trans spec))
  · refine Or.inr (Or.inl ⟨before, hbefore, other, same, same.spec ▸ attached.works, ?_, ?_⟩)
    · intro now ignoreWindow redriveCleanup fuel spec
      rw [← same.notes]
      exact attached.locked now ignoreWindow redriveCleanup fuel (same.spec.trans spec)
    · exact fun owner ctx spec =>
        item_of before hbefore owner ctx spec (attached.alive owner ctx (same.spec.trans spec))
  · exact Or.inr (Or.inr ⟨new, hnew, same⟩)

theorem idle_of_lock (called : Called setup c t operation ret effect next) (manned : Manned setup c)
    (locks : operation = .lockTick) :
    t.notes.1.role = .tick ∧ t.notes.1.todo = [] ∧ t.notes.1.stage = .idle := by
  subst locks
  have turn := called.turn
  cases place : t.notes.2 with
  | tick p =>
      rw [place] at turn
      have fit := fits_of manned.toStaffed t called.member
      rw [place] at fit
      obtain ⟨now, ignoreWindow, redriveCleanup, fuel, spec⟩ := DrainCalls.spec_of_tick t.spec p fit
      have role := role_of manned.toStaffed t called.member
      rw [spec] at role
      exact ⟨role, manned.waiting t called.member p place turn⟩
  | recover =>
      rw [place] at turn
      cases turn
  | item own =>
      rw [place] at turn
      cases turn.1
  | aside =>
      rw [place] at turn
      cases turn.1

theorem Called.sure (called : Called setup c t operation ret effect next) (manned : Manned setup c)
    (known : String × String → Prop)
    (caller : Attached c t → Sure setup known (learn setup t.notes.1 operation ret))
    (others : ∀ u ∈ c.threads, u.id ≠ t.id → Attached c u → Sure setup known u.notes.1) :
    ∀ u ∈ ((duo setup).settle c ((duo setup).resumed t operation ret next) effect).threads,
      Attached ((duo setup).settle c ((duo setup).resumed t operation ret next) effect) u →
        Sure setup known u.notes.1 := by
  intro u hu attached
  rcases called.attached_settle manned u hu attached with ⟨same, before | locks⟩ |
    ⟨before, hbefore, other, same, was⟩ | ⟨new, hnew, same⟩
  · rw [same.notes]
    exact caller before
  · rw [same.notes]
    obtain ⟨tick, todo, stage⟩ := idle_of_lock called manned locks
    subst locks
    exact sure_idle setup known t.notes.1 tick todo stage
  · rw [same.notes]
    exact others before hbefore other was
  · obtain ⟨_, _, _, _, notes, _⟩ := mem_spawn_from (duo setup) _ _ new hnew
    rw [same.notes, notes]
    exact sure_start setup known new.spec

end Calls

/-! ## Every step -/

section Steps

variable {setup}
variable {c after : Duo}

theorem absorbed_attached (reaction : Reaction World Spec) (manned : Manned setup c) (u before : Hand)
    (hbefore : before ∈ c.threads) (same : SameThread before u)
    (attached : Attached ((duo setup).absorb c reaction) u) : Attached c before := by
  refine ⟨same.spec ▸ attached.works, ?_, ?_⟩
  · intro now ignoreWindow redriveCleanup fuel spec
    rw [← same.notes]
    exact attached.locked now ignoreWindow redriveCleanup fuel (same.spec.trans spec)
  · intro owner ctx spec
    obtain ⟨v, hv, named⟩ := attached.alive owner ctx (same.spec.trans spec)
    have early := (manned.family.owned _ (mem_forget Prod.fst c before hbefore) owner ctx spec).1
    rcases mem_absorb (duo setup) c reaction v hv with ⟨_, old, hold, alike⟩ | ⟨new, hnew, alike⟩
    · exact ⟨old, hold, alike.id.symm.trans named⟩
    · have first := (mem_spawn_from (duo setup) _ _ new hnew).2.1
      rw [alike.id] at named
      change owner < c.next at early
      omega

theorem sure_absorb (reaction : Reaction World Spec) (manned : Manned setup c)
    (known : String × String → Prop)
    (sure : ∀ u ∈ c.threads, Attached c u → Sure setup known u.notes.1) :
    ∀ u ∈ ((duo setup).absorb c reaction).threads, Attached ((duo setup).absorb c reaction) u →
      Sure setup known u.notes.1 := by
  intro u hu attached
  rcases mem_absorb (duo setup) c reaction u hu with ⟨_, before, hbefore, same⟩ | ⟨new, hnew, same⟩
  · rw [same.notes]
    exact sure before hbefore (absorbed_attached reaction manned u before hbefore same attached)
  · obtain ⟨_, _, _, _, notes, _⟩ := mem_spawn_from (duo setup) _ _ new hnew
    rw [same.notes, notes]
    exact sure_start setup known new.spec

theorem attached_without (id : Nat) (u : Hand) (member : u ∈ ((duo setup).without c id).threads)
    (attached : Attached ((duo setup).without c id) u) :
    ∃ before ∈ c.threads, SameThread before u ∧ Attached c before := by
  obtain ⟨before, hbefore, _, same⟩ := mem_without (duo setup) c id u member
  refine ⟨before, hbefore, same, same.spec ▸ attached.works, ?_, ?_⟩
  · intro now ignoreWindow redriveCleanup fuel spec
    rw [← same.notes]
    exact attached.locked now ignoreWindow redriveCleanup fuel (same.spec.trans spec)
  · intro owner ctx spec
    obtain ⟨v, hv, named⟩ := attached.alive owner ctx (same.spec.trans spec)
    obtain ⟨old, hold, _, alike⟩ := mem_without (duo setup) c id v hv
    exact ⟨old, hold, alike.id.symm.trans named⟩

theorem sure_without (id : Nat) (known : String × String → Prop)
    (sure : ∀ u ∈ c.threads, Attached c u → Sure setup known u.notes.1) :
    ∀ u ∈ ((duo setup).without c id).threads, Attached ((duo setup).without c id) u →
      Sure setup known u.notes.1 := by
  intro u hu attached
  obtain ⟨before, hbefore, same, was⟩ := attached_without id u hu attached
  rw [same.notes]
  exact sure before hbefore was

/-- What starts is no tick that has given back the lock, and has nothing on its list. -/
theorem starts_waiting (spec : Spec) (p : Drains.Progress) (tick : Drains.start spec = .tick p) :
    p.place ≠ .left ∧ (start spec).todo = [] ∧ (start spec).stage = .idle := by
  cases spec with
  | tick now ignoreWindow redriveCleanup fuel =>
      cases tick
      exact ⟨Drains.Place.noConfusion, rfl, rfl⟩
  | _ => cases tick

theorem staffed_step (choice : Choice Answer Event) (staffed : Staffed setup c)
    (met : DrainRuns.afterRecovery (forget Prod.snd c) choice = true)
    (stepped : (duo setup).step c choice = some after) : Staffed setup after := by
  have engine_step := step_forget (duo_engine setup) c after choice stepped
  obtain ⟨ledger, booked⟩ := staffed.books
  obtain ⟨turns, books⟩ := DrainRuns.booked_step setup ledger _ _ choice ⟨staffed.turns, booked⟩ met
    (step_forget (duo_crew setup) c after choice stepped)
  have base := base_step setup _ _ choice staffed.base engine_step
  have family := Offspring.family_step setup _ _ choice staffed.base staffed.family engine_step
  rcases step_cases (duo setup) c after choice stepped with
    ⟨t, operation, ret, effect, next, calls, rfl⟩ | ⟨id, _, _, rfl⟩ |
    ⟨event, reaction, _, reacted, rfl⟩
  · have called := called_of_calls staffed choice calls
    exact ⟨base, family, turns, ⟨_, books⟩, called.waiting staffed, called.going staffed⟩
  · refine ⟨base, family, turns, ⟨_, books⟩, ?_, ?_⟩
    · exact all_without (duo setup) (fun _ n => ∀ p, n.2 = .tick p → p.place = .waiting →
        n.1.todo = [] ∧ n.1.stage = .idle) c id staffed.waiting
    · exact all_without (duo setup) (fun _ n => ∀ p, n.2 = .tick p → p.place ≠ .left) c id
        staffed.going
  · refine ⟨base, family, turns, ⟨_, books⟩, ?_, ?_⟩
    · exact all_absorb (duo setup) (fun _ n => ∀ p, n.2 = .tick p → p.place = .waiting →
        n.1.todo = [] ∧ n.1.stage = .idle) c reaction staffed.waiting
        fun spec _ p place _ => (starts_waiting spec p place).2
    · exact all_absorb (duo setup) (fun _ n => ∀ p, n.2 = .tick p → p.place ≠ .left) c reaction
        staffed.going fun spec _ p place => (starts_waiting spec p place).1

theorem manned_step (choice : Choice Answer Event) (manned : Manned setup c)
    (met : DrainRuns.afterRecovery (forget Prod.snd c) choice = true)
    (stepped : (duo setup).step c choice = some after) : Manned setup after := by
  have staffed := staffed_step choice manned.toStaffed met stepped
  rcases step_cases (duo setup) c after choice stepped with
    ⟨t, operation, ret, effect, next, calls, rfl⟩ | ⟨id, _, _, rfl⟩ |
    ⟨event, reaction, _, reacted, rfl⟩
  · have called := called_of_calls manned.toStaffed choice calls
    exact ⟨staffed, called.minded manned, called.rooted manned⟩
  · refine ⟨staffed, ?_, manned.rooted⟩
    exact all_without (duo setup) (fun _ n => ∀ relpath, Minds n.1 relpath →
      c.state.store.items relpath ≠ none) c id manned.minded
  · obtain ⟨store, _, spawned⟩ := react_base _ _ event reaction reacted
    refine ⟨staffed, ?_, ?_⟩
    · show ∀ u ∈ ((duo setup).absorb c reaction).threads, ∀ relpath, Minds u.notes.1 relpath →
        reaction.state.store.items relpath ≠ none
      rw [store]
      refine all_absorb (duo setup) (fun _ n => ∀ relpath, Minds n.1 relpath →
        c.state.store.items relpath ≠ none) c reaction manned.minded fun spec started relpath minds => ?_
      -- what is started recovers or ticks, and has nothing on its list
      have role := spawned spec started
      cases spec with
      | recover now => rcases minds with none | none | ⟨_, none⟩ <;> cases none
      | tick now ignoreWindow redriveCleanup fuel => rcases minds with none | none | ⟨_, none⟩ <;> cases none
      | _ => rcases role with role | role <;> cases role
    · show ∀ relpath label, reaction.state.store.phase relpath label = .verified →
        reaction.state.store.items relpath ≠ none
      rw [store]
      exact manned.rooted

end Steps

end FileReplicator.Assurance
