import FileReplicator.Intake
import FileReplicator.Vouching
import FileReplicator.Rows

/-!
# A file that comes back

After its item is completed the source is gone, and a file may appear again at
the same relpath. A scan that reports it has it passed to the store, which starts
the item over when size or mtime tell the file from the one that was replicated;
from then on the item waits in the queue, until a claim takes it and a worker is
started for it. When neither differs, the item stays as it is.
-/

namespace FileReplicator.Reappearance

open Domain DurableStore Effects FileTree Interleaving Annotations Operations Worker Instance
open Protocol Steps Runs Rows Assurance Vouching
open TickCalls (newState)

variable (setup : Setup)

/-! ## Rows -/

/-- The signature of the row is that of another file. -/
def Differs (row : Row) (size : Nat) (mtimeMs : Int) : Prop :=
  row.size ≠ size ∨ row.mtimeMs ≠ mtimeMs

/-- The next claims take the row, unless their batch is full of rows discovered no later. -/
def Claimable (store : Store) (it : WorkItem) : Prop :=
  ∀ later, 0 ≤ later → ∀ limit, it ∈ store.claimed limit later ∨
    ((store.claimed limit later).length = limit ∧
      ∀ other ∈ store.claimed limit later, other.discoveredAt ≤ it.discoveredAt)

structure Restarted (store : Store) (relpath : String) (size : Nat) (mtimeMs now : Int) : Prop where
  row : store.items relpath = some (Store.freshRow size mtimeMs now)
  dests : ∀ dest, store.dests relpath dest = none
  resume : ∀ dest, store.resume relpath dest = none
  claimable : Claimable store (store.toItem relpath (Store.freshRow size mtimeMs now))

/-- An item of which nothing has changed but the time of its last write. -/
structure Kept (before store : Store) (relpath : String) (row : Row) (now : Int) : Prop where
  row : store.items relpath = some { row with updatedAt := now }
  dests : store.dests relpath = before.dests relpath
  resume : store.resume relpath = before.resume relpath

/-- A row with nothing on its account: no attempt, no failed action, nothing to wait for. -/
structure Waits (row : Row) : Prop where
  ready : row.state = .ready
  attempts : row.attempts = 0
  cleanups : row.cleanupAttempts = 0
  gate : row.nextAttemptAt = 0
  error : row.lastError = none

def Queued (store : Store) (relpath : String) : Prop :=
  ∃ row, store.items relpath = some row ∧ Waits row ∧ Claimable store (store.toItem relpath row)

theorem waits_fresh (size : Nat) (mtimeMs now : Int) : Waits (Store.freshRow size mtimeMs now) :=
  ⟨rfl, rfl, rfl, rfl, rfl⟩

theorem claimable_waiting (store : Store) (listed : Listed store) (relpath : String) (row : Row)
    (found : store.items relpath = some row) (waits : Waits row) :
    Claimable store (store.toItem relpath row) := by
  intro later since limit
  apply claimed_or_full
  rw [mem_select_iff store listed]
  refine ⟨?_, row, found, rfl⟩
  simp [eligible, Store.toItem, waits.ready, waits.gate, since]

theorem upsert_restarts (store : Store) (listed : Listed store) (relpath : String) (size : Nat)
    (mtimeMs now : Int) (row : Row) (found : store.items relpath = some row)
    (finished : row.state.isTerminal = true) (differs : Differs row size mtimeMs) :
    Restarted (store.upsertReady relpath size mtimeMs now) relpath size mtimeMs now := by
  have resets : Store.resets row size mtimeMs = true := by
    rw [Store.resets, finished, Bool.true_and, Bool.or_eq_true]
    exact differs.imp decide_eq_true decide_eq_true
  have items : (store.upsertReady relpath size mtimeMs now).items relpath =
      some (Store.freshRow size mtimeMs now) := by
    simp only [Store.upsertReady, found, resets, if_true]
    show (store.updateRow relpath _).items relpath = _
    rw [Store.items_update, if_pos rfl, found, Option.map_some, Store.rediscovered, if_pos resets]
  refine ⟨items, fun dest => ?_, fun dest => ?_, ?_⟩
  · simp [Store.upsertReady, found, resets, Store.clearDestStates, Store.clearResumeAll]
  · simp [Store.upsertReady, found, resets, Store.clearResumeAll]
  · exact claimable_waiting _ (listed_upsert store listed relpath size mtimeMs now) relpath _ items
      (waits_fresh size mtimeMs now)

theorem upsert_keeps (store : Store) (relpath : String) (row : Row) (now : Int)
    (found : store.items relpath = some row) :
    Kept store (store.upsertReady relpath row.size row.mtimeMs now) relpath row now := by
  have stays : Store.resets row row.size row.mtimeMs = false := by simp [Store.resets]
  constructor
  · simp only [Store.upsertReady, found, stays, Bool.false_eq_true, if_false]
    rw [Store.items_update, if_pos rfl, found, Option.map_some, Store.rediscovered,
      if_neg (by simp [stays])]
  · simp [Store.upsertReady, found, stays, Store.updateRow]
  · simp [Store.upsertReady, found, stays, Store.updateRow]

structure Spares (store : Store) (operation : StoreOp) (relpath : String) : Prop where
  state : ∀ state, newState operation = some (relpath, state) →
    ∃ now, operation = .setState relpath .ready now
  claim : ∀ limit now, operation = .claimReady limit now →
    relpath ∉ (store.claimReady limit now).1.map WorkItem.relpath

theorem waits_call (store : Store) (operation : StoreOp) (relpath : String) (row : Row)
    (found : store.items relpath = some row) (waits : Waits row)
    (spares : Spares store operation relpath) :
    ∃ after, (callStore store operation).2.items relpath = some after ∧ Waits after := by
  cases operation with
  | setState r state now =>
      by_cases own : relpath = r
      · subst own
        obtain ⟨_, same⟩ := spares.state state rfl
        cases same
        refine ⟨{ row with state := .ready, updatedAt := now }, ?_, ⟨rfl, waits.attempts,
          waits.cleanups, waits.gate, waits.error⟩⟩
        show (store.updateRow relpath _).items relpath = _
        rw [Store.items_update, if_pos rfl, found]
        rfl
      · refine ⟨row, ?_, waits⟩
        show (store.updateRow r _).items relpath = _
        rw [Store.items_update, if_neg own, found]
  | rollUpItem r state attempts gate error now =>
      have own : relpath ≠ r := by
        rintro rfl
        obtain ⟨_, same⟩ := spares.state state rfl
        cases same
      refine ⟨row, ?_, waits⟩
      show (store.updateRow r _).items relpath = _
      rw [Store.items_update, if_neg own, found]
  | recordCleanupAttempt r error state gate now =>
      have own : relpath ≠ r := by
        rintro rfl
        obtain ⟨_, same⟩ := spares.state state rfl
        cases same
      refine ⟨row, ?_, waits⟩
      show (store.updateRow r _).items relpath = _
      rw [Store.items_update, if_neg own, found]
  | setBytesDone r bytes now =>
      show ∃ after, (store.updateRow r _).items relpath = some after ∧ Waits after
      rw [Store.items_update]
      split
      · rw [found]
        exact ⟨_, rfl, waits.ready, waits.attempts, waits.cleanups, waits.gate, waits.error⟩
      · exact ⟨row, found, waits⟩
  | upsertReady r size mtimeMs now =>
      obtain ⟨others, own⟩ := store.upsert_cases r size mtimeMs now
      by_cases same : relpath = r
      · subst same
        rcases own with ⟨absent, _⟩ | ⟨before, here, resets, _⟩ | ⟨before, here, _, kept, _⟩
        · rw [found] at absent
          cases absent
        · -- a row that is ready is not started over
          rw [found] at here
          cases here
          rw [Store.resets, waits.ready] at resets
          cases resets
        · rw [found] at here
          cases here
          exact ⟨_, kept, waits.ready, waits.attempts, waits.cleanups, waits.gate, waits.error⟩
      · exact ⟨row, (others relpath same).1.trans found, waits⟩
  | claimReady limit now =>
      have left := spares.claim limit now rfl
      rw [store.claim_relpaths] at left
      refine ⟨row, ?_, waits⟩
      show (store.claimReady limit now).2.items relpath = _
      simp only [Store.claimReady]
      rw [if_neg left, found]
  | _ => exact ⟨row, found, waits⟩

/-! ## What is remembered -/

structure Memory where
  /-- What each tick has still to pass on, and to start. -/
  intakes : Nat → Intake.Notes
  /-- The rows that have been started over and that no claim has taken since. -/
  renewed : String → Bool

def startsOver (store : Store) (relpath : String) (size : Nat) (mtimeMs : Int) : Bool :=
  (store.items relpath).any fun row =>
    row.state = .completed && (row.size ≠ size || row.mtimeMs ≠ mtimeMs)

def claims : (operation : Op) → Ret operation → List String
  | .store (.claimReady _ _), .ok rows => rows.map WorkItem.relpath
  | _, _ => []

def restarts (store : Store) (relpath : String) : (operation : Op) → Ret operation → Bool
  | .store (.upsertReady r size mtimeMs _), .ok _ => relpath = r && startsOver store r size mtimeMs
  | _, _ => false

def Memory.called (h : Memory) (id : Nat) (store : Store) (operation : Op) (ret : Ret operation) :
    Memory where
  intakes := fun i => if i = id then Intake.learn (h.intakes id) operation ret else h.intakes i
  renewed := fun r => restarts store r operation ret || (h.renewed r && r ∉ claims operation ret)

def heed (t : Hand) (operation : Op) (answer : Answer) (c _ : Duo) (h : Memory) : Memory :=
  match perform setup c.state t (Machine.live c) operation answer with
  | some (ret, _) => h.called t.id c.state.store operation ret
  | none => h

def pass (_ : Event) (_ _ : Duo) (h : Memory) : Memory := h

abbrev returning : Chronicle Op Ret World Spec Pair Answer Event Memory :=
  chronicle ⟨fun _ => Intake.idle, fun _ => false⟩ (heed setup) pass

def Stocked (c : Duo) : Prop := Begins (forget Prod.fst c) ∧ Listed c.state.store

structure Sound (h : Memory) (c : Duo) : Prop where
  staffed : Staffed setup c
  listed : Listed c.state.store
  fresh : ∀ id, c.next ≤ id → h.intakes id = Intake.idle
  ticks : ∀ t ∈ c.threads, ∀ now ignoreWindow redriveCleanup fuel,
    t.spec = .tick now ignoreWindow redriveCleanup fuel →
      Keeps (Intake.intake now) t.prog (h.intakes t.id) fun _ after => after = Intake.idle
  waiting : ∀ relpath, h.renewed relpath = true →
    ∃ row, c.state.store.items relpath = some row ∧ Waits row
  /-- Nobody has taken up a row that waits. -/
  free : ∀ relpath, h.renewed relpath = true → ∀ t ∈ c.threads, relpath ∉ t.notes.1.todo

section Steps

variable {setup}
variable {h : Memory} {c after : Duo}

theorem todo_of_apart (staffed : Staffed setup c) (u : Hand) (member : u ∈ c.threads)
    (apart : ¬Attached c u) : u.notes.1.todo = [] := by
  by_contra busy
  have rows := has_rows setup c staffed u member (Or.inl busy)
  rw [role_of staffed u member] at rows
  apply apart
  refine ⟨Or.inl rows, ?_, ?_⟩
  · intro now ignoreWindow redriveCleanup fuel spec
    have fit := fits_of staffed u member
    rw [spec] at fit
    cases place : u.notes.2 with
    | tick p =>
        by_contra outside
        cases at_ : p.place with
        | waiting => exact busy (staffed.waiting u member p place at_).1
        | left => exact staffed.going u member p place at_
        | _ =>
            apply outside
            show p.place.inside = true
            rw [at_]
            rfl
    | _ =>
        rw [place] at fit
        cases fit
  · intro owner ctx spec
    rw [spec] at rows
    cases rows

section Call

variable {t : Hand} {operation : Op} {ret : Ret operation} {effect : Effect World Spec}
variable {next : Ret operation → Program Unit}

theorem nobody_busy (called : Called setup c t operation ret effect next) (staffed : Staffed setup c)
    (relpath : String) (size : Nat) (mtimeMs now : Int)
    (takes : operation = .store (.upsertReady relpath size mtimeMs now)) (u : Hand)
    (member : u ∈ c.threads) : u.notes.1.todo = [] := by
  by_cases attached : Attached c u
  · have same := called.alone staffed relpath size mtimeMs now takes u member attached
    obtain rfl := eq_of_same_id c (distinct_of_forget Prod.fst c staffed.base.distinct) u t member
      called.member same
    subst takes
    exact called.may.2.2.1
  · exact todo_of_apart staffed u member attached

theorem spares_of_free (statement : StoreOp) (n : Notes) (may : allowedStatement setup n statement)
    (relpath : String) (free : relpath ∉ n.todo) (store : Store)
    (unclaimed : ∀ limit now, statement = .claimReady limit now →
      relpath ∉ (store.claimReady limit now).1.map WorkItem.relpath) :
    Spares store statement relpath := by
  refine ⟨fun state puts => ?_, unclaimed⟩
  cases statement with
  | setState r _ now =>
      cases puts
      cases state with
      | ready => exact ⟨now, rfl⟩
      | cleanupPending => exact absurd may.2.1 free
      | verified => exact absurd may.2.2.1 free
      | retained => exact absurd may.2 free
      | completed =>
          obtain ⟨_, _, _, _, listed⟩ := may
          exact absurd listed free
      | quarantined =>
          obtain ⟨_, _, _, _, listed⟩ := may
          exact absurd listed free
      | _ => exact may.elim
  | rollUpItem r _ attempts gate error now =>
      cases puts
      exact absurd may.2.2.1 free
  | recordCleanupAttempt r error _ gate now =>
      cases puts
      exact absurd may.2.1 free
  | _ => cases puts

theorem row_of_starts_over (store : Store) (relpath : String) (size : Nat) (mtimeMs : Int)
    (begun : startsOver store relpath size mtimeMs = true) :
    ∃ row, store.items relpath = some row ∧ row.state.isTerminal = true ∧ Differs row size mtimeMs := by
  obtain ⟨row, found, decided⟩ := (Option.any_eq_true _ _).mp begun
  rw [Bool.and_eq_true, decide_eq_true_eq, Bool.or_eq_true, decide_eq_true_eq, decide_eq_true_eq]
    at decided
  refine ⟨row, found, ?_, decided.2⟩
  rw [decided.1]
  rfl

theorem restarts_cases (called : Called setup c t operation ret effect next) (relpath : String)
    (anew : restarts c.state.store relpath operation ret = true) :
    ∃ size mtimeMs now, operation = .store (.upsertReady relpath size mtimeMs now) ∧
      effect.state.store = c.state.store.upsertReady relpath size mtimeMs now ∧
      startsOver c.state.store relpath size mtimeMs = true := by
  cases called.did with
  | statement statement =>
      cases statement with
      | upsertReady r size mtimeMs now =>
          rw [restarts, Bool.and_eq_true, decide_eq_true_eq] at anew
          obtain ⟨rfl, begun⟩ := anew
          exact ⟨size, mtimeMs, now, rfl, rfl, begun⟩
      | _ => cases anew
  | refused statement text => cases statement <;> cases anew
  | _ => cases anew

theorem waiting_after (called : Called setup c t operation ret effect next) (sound : Sound setup h c)
    (relpath : String)
    (renewed : (h.called t.id c.state.store operation ret).renewed relpath = true) :
    ∃ row, effect.state.store.items relpath = some row ∧ Waits row := by
  change (_ || _) = true at renewed
  rw [Bool.or_eq_true, Bool.and_eq_true, decide_eq_true_eq] at renewed
  rcases renewed with anew | ⟨old, unclaimed⟩
  · obtain ⟨size, mtimeMs, now, _, stored, begun⟩ := restarts_cases called relpath anew
    obtain ⟨row, found, finished, differs⟩ := row_of_starts_over _ relpath size mtimeMs begun
    rw [stored]
    exact ⟨_, (upsert_restarts c.state.store sound.listed relpath size mtimeMs now row found finished
      differs).row, waits_fresh size mtimeMs now⟩
  · obtain ⟨row, found, waits⟩ := sound.waiting relpath old
    cases called.did with
    | statement statement =>
        apply waits_call c.state.store statement relpath row found waits
        apply spares_of_free statement t.notes.1 called.may relpath
          (sound.free relpath old t called.member)
        rintro limit now rfl
        exact unclaimed
    | undelivered item label resume left error after stored =>
        rcases stored with rfl | ⟨_, _, rfl⟩ <;> exact ⟨row, found, waits⟩
    | _ => exact ⟨row, found, waits⟩

theorem free_after (called : Called setup c t operation ret effect next) (sound : Sound setup h c)
    (relpath : String)
    (renewed : (h.called t.id c.state.store operation ret).renewed relpath = true) :
    ∀ u ∈ ((duo setup).settle c ((duo setup).resumed t operation ret next) effect).threads,
      relpath ∉ u.notes.1.todo := by
  change (_ || _) = true at renewed
  rw [Bool.or_eq_true, Bool.and_eq_true, decide_eq_true_eq] at renewed
  have before : ∀ u ∈ c.threads, relpath ∉ u.notes.1.todo := by
    intro u hu listed
    rcases renewed with anew | ⟨old, _⟩
    · obtain ⟨size, mtimeMs, now, takes, _⟩ := restarts_cases called relpath anew
      rw [nobody_busy called sound.staffed relpath size mtimeMs now takes u hu] at listed
      cases listed
    · exact sound.free relpath old u hu listed
  refine all_settle (duo setup) (fun _ n => relpath ∉ n.1.todo) c t operation ret effect next ?_
    (fun u hu _ => before u hu) ?_
  · intro listed
    rcases todo_learn setup (forgetThread Prod.fst t) _ c.state operation ret effect called.did
      called.may relpath listed with was | ⟨statement, rfl, row, found, read⟩
    · exact before t called.member was
    rcases renewed with anew | ⟨old, unclaimed⟩
    · obtain ⟨_, _, _, same, _⟩ := restarts_cases called relpath anew
      cases same
      cases ret <;> exact before t called.member listed
    · -- what it has read of is ready, so the call has claimed it
      obtain ⟨own, here, waits⟩ := sound.waiting relpath old
      rw [found] at here
      cases here
      obtain ⟨limit, now, rfl, taken⟩ := read waits.ready
      cases called.did with
      | statement => exact unclaimed taken
      | refused _ text => exact before t called.member listed
  · -- an item is started for a row that its tick has on its list
    intro spec spawned listed
    have may := called.may
    cases called.did with
    | spawnedBatch items now =>
        obtain ⟨item, hitem, rfl⟩ := List.mem_map.mp spawned
        obtain ⟨_, _, todo, _⟩ := may
        apply before t called.member
        rw [← todo, List.mem_singleton.mp listed]
        exact List.mem_map_of_mem hitem
    | spawnedAttempts contexts =>
        obtain ⟨ctx, _, rfl⟩ := List.mem_map.mp spawned
        cases listed
    | startedAction ctx =>
        rw [List.mem_singleton.mp spawned] at listed
        cases listed
    | startedQuarantine job =>
        rw [List.mem_singleton.mp spawned] at listed
        cases listed
    | _ => cases spawned

theorem fresh_after (sound : Sound setup h c) (member : t ∈ c.threads) (id : Nat)
    (beyond : c.next ≤ id) :
    (h.called t.id c.state.store operation ret).intakes id = Intake.idle := by
  have below : t.id < c.next := sound.staffed.base.distinct.below _ (mem_forget Prod.fst c t member)
  show (if id = t.id then _ else _) = _
  rw [if_neg (by omega)]
  exact sound.fresh id beyond

theorem ticks_after (called : Called setup c t operation ret effect next) (sound : Sound setup h c) :
    ∀ u ∈ ((duo setup).settle c ((duo setup).resumed t operation ret next) effect).threads,
      ∀ now ignoreWindow redriveCleanup fuel, u.spec = .tick now ignoreWindow redriveCleanup fuel →
        Keeps (Intake.intake now) u.prog ((h.called t.id c.state.store operation ret).intakes u.id)
          fun _ after => after = Intake.idle := by
  intro u hu now ignoreWindow redriveCleanup fuel spec
  rcases mem_settle (duo setup) c _ u effect hu with ⟨same, _⟩ | ⟨before, hbefore, other, same, _⟩ |
    ⟨new, hnew, same⟩
  · rw [same.prog, same.id]
    have keeps := sound.ticks t called.member now ignoreWindow redriveCleanup fuel
      (same.spec.symm.trans spec)
    rw [called.prog] at keeps
    show Keeps _ (next ret) (if t.id = t.id then _ else _) _
    rw [if_pos rfl]
    exact keeps.2 ret trivial
  · rw [same.prog, same.id]
    have apart : before.id ≠ t.id := other
    show Keeps _ before.prog (if before.id = t.id then _ else _) _
    rw [if_neg apart]
    exact sound.ticks before hbefore now ignoreWindow redriveCleanup fuel (same.spec.symm.trans spec)
  · -- no call starts a tick
    exfalso
    have spawned := (mem_spawn_from (duo setup) _ _ new hnew).1
    rw [← same.spec, spec] at spawned
    cases called.did with
    | spawnedAttempts contexts =>
        obtain ⟨_, _, none⟩ := List.mem_map.mp spawned
        cases none
    | spawnedBatch items now =>
        obtain ⟨_, _, none⟩ := List.mem_map.mp spawned
        cases none
    | startedAction ctx => cases List.mem_singleton.mp spawned
    | startedQuarantine job => cases List.mem_singleton.mp spawned
    | _ => cases spawned

end Call

theorem follow_eq {t : Hand} {operation : Op} {ret : Ret operation} {effect : Effect World Spec}
    {next : Ret operation → Program Unit} (staffed : Staffed setup c) (choice : Choice Answer Event)
    (calls : Calls (duo setup) c t operation ret effect next choice) :
    (returning setup).follow c choice after h = h.called t.id c.state.store operation ret := by
  obtain ⟨answer, rfl, performed⟩ := calls.choice
  have here : perform setup c.state t (Machine.live c) operation answer = some (ret, effect) := performed
  rw [follow_call _ (heed setup) pass c after (distinct_of_forget Prod.fst c staffed.base.distinct) t
    calls.member operation next calls.prog answer h]
  simp only [heed, here]

theorem sound_step (h : Memory) (c after : Duo) (choice : Choice Answer Event) (sound : Sound setup h c)
    (met : DrainRuns.afterRecovery (forget Prod.snd c) choice = true)
    (stepped : (duo setup).step c choice = some after) :
    Sound setup ((returning setup).follow c choice after h) after := by
  have staffed := staffed_step choice sound.staffed met stepped
  have listed := listed_step setup _ _ choice (step_forget (duo_engine setup) c after choice stepped)
    sound.listed
  rcases step_cases (duo setup) c after choice stepped with
    ⟨t, operation, ret, effect, next, calls, rfl⟩ | ⟨id, rfl, _, rfl⟩ |
    ⟨event, reaction, rfl, reacted, rfl⟩
  · have called := called_of_calls sound.staffed choice calls
    rw [follow_eq sound.staffed choice calls]
    exact ⟨staffed, listed, fun id beyond => fresh_after sound called.member id
        (Nat.le_trans (Nat.le_add_right _ _) beyond), ticks_after called sound,
      fun relpath => waiting_after called sound relpath, fun relpath => free_after called sound relpath⟩
  · refine ⟨staffed, listed, sound.fresh, ?_, sound.waiting, ?_⟩
    · intro u hu now ignoreWindow redriveCleanup fuel spec
      obtain ⟨before, hbefore, _, same⟩ := mem_without (duo setup) c id u hu
      rw [same.prog, same.id]
      exact sound.ticks before hbefore now ignoreWindow redriveCleanup fuel (same.spec.symm.trans spec)
    · exact fun relpath renewed => all_without (duo setup) (fun _ n => relpath ∉ n.1.todo) c id
        (sound.free relpath renewed)
  · obtain ⟨store, _, spawned⟩ := react_base _ _ event reaction reacted
    refine ⟨staffed, listed, fun id beyond => sound.fresh id (Nat.le_trans (Nat.le_add_right _ _) beyond),
      ?_, ?_, ?_⟩
    · intro u hu now ignoreWindow redriveCleanup fuel spec
      rcases mem_absorb (duo setup) c reaction u hu with ⟨_, before, hbefore, same⟩ | ⟨new, hnew, same⟩
      · rw [same.prog, same.id]
        exact sound.ticks before hbefore now ignoreWindow redriveCleanup fuel
          (same.spec.symm.trans spec)
      · obtain ⟨_, first, _, _, _, prog⟩ := mem_spawn_from (duo setup) _ _ new hnew
        rw [same.spec] at spec
        rw [same.prog, same.id, prog, spec]
        show Keeps _ (runTick setup now ignoreWindow redriveCleanup fuel) (h.intakes new.id) _
        rw [sound.fresh new.id first]
        exact Intake.tick_keeps setup now ignoreWindow redriveCleanup fuel
    · intro relpath renewed
      show ∃ row, reaction.state.store.items relpath = some row ∧ Waits row
      rw [store]
      exact sound.waiting relpath renewed
    · intro relpath renewed
      refine all_absorb (duo setup) (fun _ n => relpath ∉ n.1.todo) c reaction
        (sound.free relpath renewed) fun spec started listed => ?_
      -- what comes from outside starts ticks and recoveries, with empty lists
      have role := spawned spec started
      cases spec with
      | recover now => cases listed
      | tick now ignoreWindow redriveCleanup fuel => cases listed
      | _ => rcases role with role | role <;> cases role

theorem sound_begins (c : Duo) (stocked : Stocked c) :
    Sound setup ⟨fun _ => Intake.idle, fun _ => false⟩ c := by
  have nobody : ∀ t, t ∉ c.threads := by
    intro t
    rw [List.map_eq_nil_iff.mp stocked.1.threads]
    exact List.not_mem_nil
  exact ⟨staffed_begins setup c stocked.1, stocked.2, fun _ _ => rfl, fun t ht => absurd ht (nobody t),
    fun _ none => (by cases none), fun _ none => (by cases none)⟩

end Steps

/-! ## Every run -/

/-- What a tick does next of what its last scan has reported, and of what it has claimed last. -/
structure Follows (n : Intake.Notes) (t : Hand) (now : Int) : Prop where
  passes : ∀ candidate rest, n.pending = candidate :: rest → ∃ next,
    t.prog = .call (.store (.upsertReady candidate.relpath candidate.size candidate.mtimeMs now)) next
  starts : ∀ item rest, n.pending = [] → n.held = item :: rest → ∃ next,
    t.prog = .call (.spawnBatch (item :: rest) now) next

theorem follows_of_keeps (n : Intake.Notes) (t : Hand) (now : Int)
    (keeps : Keeps (Intake.intake now) t.prog n fun _ after => after = Intake.idle) : Follows n t now := by
  cases prog : t.prog with
  | done value =>
      rw [prog] at keeps
      have idle : n = Intake.idle := keeps
      subst idle
      exact ⟨fun _ _ none => (by cases none), fun _ _ _ none => (by cases none)⟩
  | call operation next =>
      rw [prog] at keeps
      have may : Intake.allowed now n operation := keeps.1
      constructor
      · intro candidate rest pending
        rw [Intake.allowed, pending] at may
        subst may
        exact ⟨next, prog⟩
      · intro item rest pending held
        rw [Intake.allowed, pending, held] at may
        subst may
        exact ⟨next, prog⟩

theorem upserted (c after : Duo) (staffed : Staffed setup c) (t : Hand) (ht : t ∈ c.threads)
    (relpath : String) (size : Nat) (mtimeMs now : Int)
    (next : Ret (.store (.upsertReady relpath size mtimeMs now)) → Program Unit)
    (prog : t.prog = .call (.store (.upsertReady relpath size mtimeMs now)) next)
    (stepped : (duo setup).step c (.run t.id .asIs) = some after) :
    after.state.store = c.state.store.upsertReady relpath size mtimeMs now := by
  simp only [Machine.step, find_thread c (distinct_of_forget Prod.fst c staffed.base.distinct) t ht,
    prog] at stepped
  obtain ⟨out, performed, rfl⟩ := Option.map_eq_some_iff.mp stepped
  cases performed
  rfl

theorem workers_started (c after : Duo) (staffed : Staffed setup c) (t : Hand) (ht : t ∈ c.threads)
    (items : List WorkItem) (now : Int) (next : Unit → Program Unit)
    (prog : t.prog = .call (.spawnBatch items now) next)
    (stepped : (duo setup).step c (.run t.id .asIs) = some after) (item : WorkItem)
    (member : item ∈ items) : ∃ u ∈ after.threads, u.spec = .item t.id item now := by
  simp only [Machine.step, find_thread c (distinct_of_forget Prod.fst c staffed.base.distinct) t ht,
    prog] at stepped
  obtain ⟨out, performed, rfl⟩ := Option.map_eq_some_iff.mp stepped
  cases performed
  obtain ⟨new, hnew, spec⟩ := spawned_of_mem (duo setup) c.next
    (items.map fun item => Spec.item t.id item now) (.item t.id item now) (List.mem_map_of_mem member)
  obtain ⟨u, hu, same⟩ := spawned_stays (duo setup) c
    ((duo setup).resumed t (.spawnBatch items now) () next) new
    (spawns c.state (items.map fun item => Spec.item t.id item now)) hnew
  exact ⟨u, hu, same.spec.trans spec⟩

/-- The way of a file that comes back, from the scan that reports it to the worker it is given. -/
structure Returned (h : Memory) (c : Duo) : Prop where
  /-- What a scan has reported, and what a claim has taken, is what the tick calls about next. -/
  follows : ∀ t ∈ c.threads, ∀ now ignoreWindow redriveCleanup fuel,
    t.spec = .tick now ignoreWindow redriveCleanup fuel → Follows (h.intakes t.id) t now
  upserts : ∀ t ∈ c.threads, ∀ relpath size mtimeMs now next row after,
    t.prog = .call (.store (.upsertReady relpath size mtimeMs now)) next →
      c.state.store.items relpath = some row → row.state = .completed →
        (duo setup).step c (.run t.id .asIs) = some after →
          (Differs row size mtimeMs → Restarted after.state.store relpath size mtimeMs now ∧
            ((returning setup).follow c (.run t.id .asIs) after h).renewed relpath = true) ∧
          (¬Differs row size mtimeMs → Kept c.state.store after.state.store relpath row now)
  queued : ∀ relpath, h.renewed relpath = true → Queued c.state.store relpath
  /-- Only a claim takes an item from the queue. -/
  claimed : ∀ choice after relpath, (duo setup).step c choice = some after →
    h.renewed relpath = true → ((returning setup).follow c choice after h).renewed relpath = false →
        ∃ t ∈ c.threads, ∃ item ∈ (((returning setup).follow c choice after h).intakes t.id).held,
          item.relpath = relpath
  started : ∀ t ∈ c.threads, ∀ items now next after, t.prog = .call (.spawnBatch items now) next →
    (duo setup).step c (.run t.id .asIs) = some after →
      ∀ item ∈ items, ∃ u ∈ after.threads, u.spec = .item t.id item now

section Returns

variable {setup}
variable {h : Memory} {c after : Duo}

theorem calls_of_run (t : Hand) (member : t ∈ c.threads) (staffed : Staffed setup c)
    (operation : Op) (next : Ret operation → Program Unit) (prog : t.prog = .call operation next)
    (answer : Answer) (stepped : (duo setup).step c (.run t.id answer) = some after) :
    ∃ ret effect, Calls (duo setup) c t operation ret effect next (.run t.id answer) := by
  simp only [Machine.step, find_thread c (distinct_of_forget Prod.fst c staffed.base.distinct) t member,
    prog] at stepped
  obtain ⟨⟨ret, effect⟩, performed, _⟩ := Option.map_eq_some_iff.mp stepped
  exact ⟨ret, effect, member, prog, answer, rfl, performed⟩

theorem renewed_of_upsert (sound : Sound setup h c) (t : Hand) (member : t ∈ c.threads)
    (relpath : String) (size : Nat) (mtimeMs now : Int)
    (next : Ret (.store (.upsertReady relpath size mtimeMs now)) → Program Unit)
    (prog : t.prog = .call (.store (.upsertReady relpath size mtimeMs now)) next) (row : Row)
    (found : c.state.store.items relpath = some row) (completed : row.state = .completed)
    (differs : Differs row size mtimeMs)
    (stepped : (duo setup).step c (.run t.id .asIs) = some after) :
    ((returning setup).follow c (.run t.id .asIs) after h).renewed relpath = true := by
  obtain ⟨ret, effect, calls⟩ := calls_of_run t member sound.staffed _ next prog .asIs stepped
  rw [follow_eq sound.staffed _ calls]
  obtain ⟨answer, same, performed⟩ := calls.choice
  cases same
  cases performed
  have begun : startsOver c.state.store relpath size mtimeMs = true := by
    simp only [startsOver, found, Option.any_some, completed, decide_true, Bool.true_and,
      Bool.or_eq_true, decide_eq_true_eq]
    exact differs
  show (restarts c.state.store relpath _ _ || _) = true
  simp only [restarts, begun, decide_true, Bool.true_and, Bool.true_or]

theorem held_of_claimed (sound : Sound setup h c) (choice : Choice Answer Event) (relpath : String)
    (stepped : (duo setup).step c choice = some after) (renewed : h.renewed relpath = true)
    (gone : ((returning setup).follow c choice after h).renewed relpath = false) :
    ∃ t ∈ c.threads, ∃ item ∈ (((returning setup).follow c choice after h).intakes t.id).held,
      item.relpath = relpath := by
  rcases step_cases (duo setup) c after choice stepped with
    ⟨t, operation, ret, effect, next, calls, rfl⟩ | ⟨id, rfl, _, rfl⟩ |
    ⟨event, reaction, rfl, _, rfl⟩
  · rw [follow_eq sound.staffed _ calls] at gone ⊢
    refine ⟨t, calls.member, ?_⟩
    change (restarts _ _ _ _ || (h.renewed relpath && relpath ∉ claims operation ret)) = false at gone
    rw [renewed, Bool.true_and, Bool.or_eq_false_iff, decide_eq_false_iff_not, not_not] at gone
    show ∃ item ∈ (if t.id = t.id then _ else _ : Intake.Notes).held, _
    rw [if_pos rfl]
    have taken := gone.2
    cases operation with
    | store statement =>
        cases statement with
        | claimReady limit now =>
            cases ret with
            | error e => cases taken
            | ok rows =>
                obtain ⟨item, member, own⟩ := List.mem_map.mp taken
                exact ⟨item, member, own⟩
        | _ => cases taken
    | _ => cases taken
  · exact absurd (renewed.symm.trans gone) Bool.noConfusion
  · exact absurd (renewed.symm.trans gone) Bool.noConfusion

end Returns

/-- Of a run whose triggers come after the recovery: what a scan reports is passed to the store; the
completed item of a file of another size or age starts over then, and waits in the queue until a
claim takes it, whose tick starts a worker for it; that of a file of the same size and age stays
completed. -/
theorem reappearance_restarts (h : Memory) (c : Duo)
    (tracked : Tracked (duo setup) (returning setup) Stocked
      (fun _ c choice => DrainRuns.afterRecovery (forget Prod.snd c) choice = true) h c) :
    Returned setup h c := by
  have sound := invariant_of_tracked (duo setup) (returning setup) Stocked
    (fun _ c choice => DrainRuns.afterRecovery (forget Prod.snd c) choice = true) (Sound setup)
    sound_begins (fun h c after choice sound met stepped => sound_step h c after choice sound met stepped)
    h c tracked
  constructor
  case follows =>
    exact fun t ht now ignoreWindow redriveCleanup fuel spec => follows_of_keeps _ t now
      (sound.ticks t ht now ignoreWindow redriveCleanup fuel spec)
  case upserts =>
    intro t ht relpath size mtimeMs now next row after prog found completed stepped
    rw [upserted setup c after sound.staffed t ht relpath size mtimeMs now next prog stepped]
    constructor
    · intro differs
      exact ⟨upsert_restarts c.state.store sound.listed relpath size mtimeMs now row found
          (by rw [completed]; rfl) differs,
        renewed_of_upsert sound t ht relpath size mtimeMs now next prog row found completed differs
          stepped⟩
    · intro same
      obtain ⟨rfl, rfl⟩ : row.size = size ∧ row.mtimeMs = mtimeMs := by
        rw [Differs, not_or, not_not, not_not] at same
        exact same
      exact upsert_keeps c.state.store relpath row now found
  case queued =>
    intro relpath renewed
    obtain ⟨row, found, waits⟩ := sound.waiting relpath renewed
    exact ⟨row, found, waits, claimable_waiting _ sound.listed relpath row found waits⟩
  case claimed =>
    exact fun choice after relpath stepped renewed gone =>
      held_of_claimed sound choice relpath stepped renewed gone
  case started =>
    exact fun t ht items now next after prog stepped item member =>
      workers_started setup c after sound.staffed t ht items now next prog stepped item member

/-! ## One file -/

def upserting : Program Unit → Option (String × Nat × Int × Int)
  | .call (.store (.upsertReady relpath size mtimeMs now)) _ => some (relpath, size, mtimeMs, now)
  | _ => none

theorem upserting_prog (program : Program Unit) (relpath : String) (size : Nat) (mtimeMs now : Int)
    (upserts : upserting program = some (relpath, size, mtimeMs, now)) :
    ∃ next, program = .call (.store (.upsertReady relpath size mtimeMs now)) next := by
  unfold upserting at upserts
  split at upserts
  · cases upserts
    exact ⟨_, rfl⟩
  · cases upserts

/-- A tick claims the file, it is delivered and deleted, and the tick ends. -/
def untilCompleted : List (Choice Answer Event) :=
  [.env (.boot 0)] ++ go 0 [.asIs, .asIs] ++ [.env (.trigger 0 false 1)] ++
    go 1 [.asIs, .asIs, .found [⟨"a", 0, 0⟩], .asIs, .asIs, .asIs, .asIs,
      .scheduled (.windowed .pauseResume), .asIs, .asIs, .asIs] ++
    go 2 [.asIs, .asIs] ++ go 3 [.asIs, .asIs, .asIs, .asIs, .asIs, .asIs] ++
    go 2 [.number 0, .asIs, .asIs, .asIs, .asIs] ++
    go 4 [.disk (.asIs 0), .disk (.asIs 0), .asIs] ++ go 2 [.asIs, .asIs, .asIs, .asIs, .asIs] ++
    go 1 [.asIs, .asIs]

/-- The next tick has found a file of this age in its place, and a new one. -/
def untilFound (mtimeMs : Int) : List (Choice Answer Event) :=
  untilCompleted ++ [.env (.touch ["in", "a"] (some (.file [] mtimeMs))),
      .env (.touch ["in", "b"] (some (.file [] 3))), .env (.trigger 1 false 1)] ++
    go 5 [.asIs, .asIs, .found [⟨"a", 0, mtimeMs⟩, ⟨"b", 0, 3⟩]]

def oneWaiting : Duo := ⟨smallWorld oneFile, [], 0⟩

theorem one_stocked : Stocked oneWaiting := ⟨small_begins oneFile, listed_empty "plant"⟩

theorem reappearance_restarted :
    ∃ h c, Tracked (duo (smallSetup plainCompletion)) (returning (smallSetup plainCompletion)) Stocked
        (fun _ c choice => DrainRuns.afterRecovery (forget Prod.snd c) choice = true) h c ∧
      h.renewed "a" = true ∧ (h.intakes 5).pending = [⟨"b", 0, 3⟩] ∧
      Returned (smallSetup plainCompletion) h c := by
  obtain ⟨h, c, tracked, here⟩ := exists_of_tracked_run (duo (smallSetup plainCompletion))
    (returning (smallSetup plainCompletion)) Stocked
    (fun _ c choice => DrainRuns.afterRecovery (forget Prod.snd c) choice = true)
    (fun _ c choice => DrainRuns.afterRecovery (forget Prod.snd c) choice) (fun _ _ _ met => met)
    (fun h _ => h.renewed "a" && (h.intakes 5).pending = [⟨"b", 0, 3⟩])
    (untilFound 7 ++ go 5 [.asIs]) oneWaiting one_stocked (by decide +kernel)
  rw [Bool.and_eq_true, decide_eq_true_eq] at here
  exact ⟨h, c, tracked, here.1, here.2, reappearance_restarts (smallSetup plainCompletion) h c tracked⟩

/-- A tick is about to take in a file of the size and age of the one that was replicated. -/
def taking (c : Duo) : Bool :=
  (c.state.store.items "a").any (fun row =>
    row.state = .completed && row.size = 0 && row.mtimeMs = 0) &&
  c.threads.any fun t => upserting t.prog = some ("a", 0, 0, 1) &&
    ((duo (smallSetup plainCompletion)).step c (.run t.id .asIs)).isSome

/-- A file of the same size and age as the one replicated stays where it is, and its item
completed. -/
theorem reappearance_dropped :
    ∃ h c after t row next, Tracked (duo (smallSetup plainCompletion))
        (returning (smallSetup plainCompletion)) Stocked
        (fun _ c choice => DrainRuns.afterRecovery (forget Prod.snd c) choice = true) h c ∧
      t ∈ c.threads ∧ t.prog = .call (.store (.upsertReady "a" 0 0 1)) next ∧
      c.state.store.items "a" = some row ∧ row.state = .completed ∧
      (duo (smallSetup plainCompletion)).step c (.run t.id .asIs) = some after ∧
      after.state.store.items "a" = some { row with updatedAt := 1 } ∧
      ¬Restarted after.state.store "a" 0 0 1 := by
  obtain ⟨h, c, tracked, here⟩ := exists_of_tracked_run (duo (smallSetup plainCompletion))
    (returning (smallSetup plainCompletion)) Stocked
    (fun _ c choice => DrainRuns.afterRecovery (forget Prod.snd c) choice = true)
    (fun _ c choice => DrainRuns.afterRecovery (forget Prod.snd c) choice) (fun _ _ _ met => met)
    (fun _ c => taking c) (untilFound 0) oneWaiting one_stocked (by decide +kernel)
  rw [taking, Bool.and_eq_true] at here
  obtain ⟨row, found, known⟩ := (Option.any_eq_true _ _).mp here.1
  obtain ⟨t, ht, calls⟩ := List.any_eq_true.mp here.2
  simp only [Bool.and_eq_true, decide_eq_true_eq] at known calls
  obtain ⟨⟨completed, size⟩, mtimeMs⟩ := known
  obtain ⟨after, stepped⟩ := Option.isSome_iff_exists.mp calls.2
  obtain ⟨next, prog⟩ := upserting_prog t.prog "a" 0 0 1 calls.1
  have sound := invariant_of_tracked (duo (smallSetup plainCompletion))
    (returning (smallSetup plainCompletion)) Stocked
    (fun _ c choice => DrainRuns.afterRecovery (forget Prod.snd c) choice = true)
    (Sound (smallSetup plainCompletion)) sound_begins
    (fun h c after choice sound met stepped => sound_step h c after choice sound met stepped) h c tracked
  have kept := upsert_keeps c.state.store "a" row 1 found
  rw [size, mtimeMs, ← upserted (smallSetup plainCompletion) c after sound.staffed t ht "a" 0 0 1 next
    prog stepped] at kept
  refine ⟨h, c, after, t, row, next, tracked, ht, prog, found, completed, stepped, kept.row, ?_⟩
  intro restarted
  have ready := restarted.row
  rw [kept.row, Option.some.injEq] at ready
  have state := congrArg Row.state ready
  rw [show (Store.freshRow 0 0 1).state = .ready from rfl] at state
  rw [show ({ row with updatedAt := 1 } : Row).state = row.state from rfl, completed] at state
  cases state

end FileReplicator.Reappearance
