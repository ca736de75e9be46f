import FileReplicator.Accounting
import FileReplicator.Telling

/-!
# What the events tell

An event is emitted after the statement that it tells of. In between the process may
stop or the thread be aborted, and the statement may be refused. So the events of a
thread tell what the store has taken from it, in that order, and nothing else.
-/

namespace FileReplicator.EventLedger

open Domain Columns DurableStore Effects Operations Interleaving LifecycleEvents Telling
open Instance (Spec World)
open EventPlans (read publish read_publish)
open Operations (Setup StoreOp)

variable (setup : Setup)

inductive Answer where
  | work (answer : Instance.Answer)
  | logs (logged : Bool)
  | told
  deriving DecidableEq

abbrev Teller := Thread LifecycleEvents.Op LifecycleEvents.Ret Spec Notes

abbrev State := Config LifecycleEvents.Op LifecycleEvents.Ret World Spec Notes

def caller (t : Teller) : Thread Operations.Op Operations.Ret Spec Notes :=
  ⟨t.id, t.spec, t.aborted, t.notes, .done ()⟩

def perform (t : Teller) (live : List Spec) (world : World) :
    (operation : LifecycleEvents.Op) → Answer →
      Option (LifecycleEvents.Ret operation × Effect World Spec)
  | .work operation, .work answer => Instance.perform setup world (caller t) live operation answer
  | .shouldLog _ _, .logs logged => some (logged, Instance.changes world)
  | .emit _, .told => some ((), Instance.changes world)
  | _, _ => none

def telling : Machine LifecycleEvents.Op LifecycleEvents.Ret World Spec Notes Answer Instance.Event where
  discipline := teller setup
  finished := fun n => n.owed = none
  main := LifecycleEvents.main setup
  start := start
  owner := Instance.owner
  perform := fun t live world operation answer => perform setup t live world operation answer
  react := fun live world event => Instance.react world live event

/-! ## The ledger -/

structure Ledger where
  /-- What the threads have given to tell, and what they have told. -/
  due : List (Nat × Told)
  told : List (Nat × Told)
  /-- The threads that were ended by something else than their program. -/
  cut : Nat → Bool

def entry (id : Nat) (event : Option Told) : List (Nat × Told) := event.toList.map fun e => (id, e)

def of (id : Nat) (log : List (Nat × Told)) : List Told := (log.filter fun e => e.1 = id).map Prod.snd

def toldBy : LifecycleEvents.Op → Option Told
  | .emit event => some event
  | _ => none

def heed (t : Teller) (operation : LifecycleEvents.Op) (answer : Answer) (c _ : State) (h : Ledger) :
    Ledger :=
  match perform setup t (Machine.live c) c.state operation answer with
  | some out =>
      { h with
        due := h.due ++ entry t.id (t.notes.due setup operation out.1)
        told := h.told ++ entry t.id (toldBy operation) }
  | none => h

def pass (_ : Instance.Event) (_ _ : State) (h : Ledger) : Ledger := h

def runs (id : Nat) : Choice Answer Instance.Event → Bool
  | .run caller _ => caller = id
  | _ => false

def hasThread (c : State) (id : Nat) : Bool := c.threads.any fun t => t.id = id

def dropped (c : State) (choice : Choice Answer Instance.Event) (after : State) (id : Nat) : Bool :=
  hasThread c id && !hasThread after id && !runs id choice

def unmarked : Ledger := ⟨[], [], fun _ => false⟩

def ledger : Chronicle LifecycleEvents.Op LifecycleEvents.Ret World Spec Notes Answer Instance.Event
    Ledger where
  blank := unmarked
  follow := fun c choice after h =>
    { (chronicle unmarked (heed setup) pass).follow c choice after h with
      cut := fun id => h.cut id || dropped c choice after id }

def isCompletion : Told → Bool
  | .fileDeleted _ | .fileArchived _ _ => true
  | _ => false

/-! ## What a call adds -/

theorem of_entry (id caller : Nat) (log : List (Nat × Told)) (event : Option Told) :
    of id (log ++ entry caller event) = of id log ++ (if caller = id then event.toList else []) := by
  unfold of entry
  rw [List.filter_append, List.map_append]
  cases event with
  | none => simp
  | some e =>
      by_cases own : caller = id
      · simp [own]
      · simp [own]

theorem of_entry_other (id caller : Nat) (log : List (Nat × Told)) (event : Option Told)
    (other : caller ≠ id) : of id (log ++ entry caller event) = of id log := by
  rw [of_entry, if_neg other, List.append_nil]

theorem due_settled (n : Notes) (operation : LifecycleEvents.Op) (ret : LifecycleEvents.Ret operation)
    (may : allowed setup n operation) (gives : (n.due setup operation ret).isSome = true) :
    n.owed = none := by
  cases operation with
  | work operation =>
      cases operation with
      | store operation =>
          cases ret with
          | error e => cases gives
          | ok value =>
              cases tells : n.tells operation with
              | true => exact (may tells).1
              | false =>
                  have nothing := untold setup n operation tells
                  change (n.statement setup operation).isSome = true at gives
                  rw [nothing] at gives
                  cases gives
      | _ => cases gives
  | shouldLog label now => exact may.1
  | emit event => cases gives

theorem call_balanced (n : Notes) (operation : LifecycleEvents.Op) (ret : LifecycleEvents.Ret operation)
    (may : allowed setup n operation) (due told : List Told)
    (balanced : due = told.map fact ++ n.owed.toList) :
    due ++ (n.due setup operation ret).toList =
      (told ++ (toldBy operation).toList).map fact ++ (n.learn setup operation ret).owed.toList := by
  subst balanced
  have quiet : ∀ gives : Option Told, (gives.isSome = true → n.owed = none) →
      told.map fact ++ n.owed.toList ++ gives.toList =
        (told ++ []).map fact ++ (gives.or n.owed).toList := by
    intro gives settled
    cases gives with
    | none => simp
    | some event => simp [settled rfl]
  have settled := due_settled setup n operation ret may
  cases operation with
  | work operation => exact quiet _ settled
  | shouldLog label now => exact quiet _ settled
  | emit event =>
      have owed : n.owed = some (fact event) := may
      show _ ++ [] = _ ++ []
      rw [owed]
      simp [toldBy]

/-- What a call adds to the number of the files that are replicated. -/
def bumped : (operation : Operations.Op) → Operations.Ret operation → Int64
  | .store (.bumpStats replicated _ _), .ok _ => replicated
  | _, _ => 0

theorem bumped_other (statement : StoreOp)
    (other : ∀ replicated failed bytes, statement ≠ .bumpStats replicated failed bytes)
    (ret : Except ReplError (StoreRet statement)) : bumped (.store statement) ret = 0 := by
  cases statement with
  | bumpStats replicated failed bytes => exact absurd rfl (other replicated failed bytes)
  | _ => rfl

theorem did_replicated (t : Steps.Running) (live : List Spec) (world : World)
    (operation : Operations.Op) (ret : Operations.Ret operation) (effect : Effect World Spec)
    (did : Steps.Did setup t live world operation ret effect) :
    effect.state.store.stats.replicated =
      world.store.stats.replicated.add (bumped operation ret) := by
  cases did with
  | statement operation =>
      cases operation with
      | bumpStats replicated failed bytes => rfl
      | _ =>
          rw [bumped_other _ (fun _ _ _ same => by cases same), Column.add_zero]
          exact congrArg StatsRow.replicated
            (Accounting.stats_kept world.store _ fun _ _ _ same => by cases same)
  | refused operation text =>
      cases operation <;> exact (Column.add_zero _).symm
  | undelivered item label resume left error after stored =>
      rcases stored with rfl | ⟨bytes, _, rfl⟩
      · exact (Column.add_zero _).symm
      · exact (Column.add_zero _).symm
  | _ => exact (Column.add_zero _).symm

theorem completion_counts (n : Notes) (event : Told) (is : n.completion = some event) :
    isCompletion event = true := by
  unfold Notes.completion at is
  split at is
  · split at is
    · cases is
      rename_i done _ _ _ _
      cases done with
      | deleted => rfl
      | archived target => rfl
    · cases is
  · cases is

theorem other_counts (n : Notes) (statement : StoreOp)
    (other : ∀ replicated failed bytes, statement ≠ .bumpStats replicated failed bytes)
    (event : Told) (is : n.statement setup statement = some event) : isCompletion event = false := by
  cases statement with
  | bumpStats replicated failed bytes => exact absurd rfl (other replicated failed bytes)
  | loadResume relpath label =>
      simp only [Notes.statement] at is
      split at is
      · obtain ⟨ctx, _, rfl⟩ := Option.map_eq_some_iff.mp is
        rfl
      · cases is
  | setDestPhase relpath label phase =>
      cases phase with
      | verified =>
          simp only [Notes.statement, Notes.replicated] at is
          split at is
          · cases is
            rfl
          · cases is
      | _ => cases is
  | recordDestAttempt relpath label error phase gate =>
      cases phase with
      | pending =>
          obtain ⟨ctx, _, rfl⟩ := Option.map_eq_some_iff.mp is
          rfl
      | exhausted =>
          obtain ⟨ctx, _, rfl⟩ := Option.map_eq_some_iff.mp is
          rfl
      | _ => cases is
  | recordCleanupAttempt relpath error state gate now =>
      simp only [Notes.statement] at is
      split at is
      · cases is
        rfl
      · cases is
  | setState relpath state now =>
      cases state with
      | quarantined =>
          simp only [Notes.statement, Notes.quarantined] at is
          split at is
          · split at is
            · cases is
              rfl
            · cases is
          · cases is
      | _ => cases is
  | _ => cases is

theorem uncounted (event : Option Told) (other : ∀ e, event = some e → isCompletion e = false) :
    event.toList.countP isCompletion = 0 := by
  cases event with
  | none => rfl
  | some e => simp [other e rfl]

theorem due_counts (n : Notes) (operation : Operations.Op) (ret : Operations.Ret operation)
    (may : allowed setup n (.work operation)) (column : Column) :
    column.add (bumped operation ret) =
      (Column.add 1)^[(n.due setup (.work operation) ret).toList.countP isCompletion] column := by
  cases operation with
  | store statement =>
      cases ret with
      | error e => cases statement <;> exact Column.add_zero column
      | ok value =>
          show column.add (bumped (.store statement) (.ok value)) =
            (Column.add 1)^[(n.statement setup statement).toList.countP isCompletion] column
          by_cases counts : ∃ replicated failed bytes, statement = .bumpStats replicated failed bytes
          · obtain ⟨replicated, failed, bytes, rfl⟩ := counts
            show column.add replicated = _
            by_cases zero : replicated = 0
            · subst zero
              exact Column.add_zero column
            · have given := (may (decide_eq_true zero)).2
              simp only [Notes.statement] at given ⊢
              split at given
              · rename_i one
                obtain ⟨event, is⟩ := Option.isSome_iff_exists.mp given
                rw [if_pos one, is, one]
                simp [completion_counts n event is]
              · cases given
          · have other : ∀ replicated failed bytes, statement ≠ .bumpStats replicated failed bytes :=
              fun r f b same => counts ⟨r, f, b, same⟩
            rw [bumped_other _ other, uncounted _ fun e is => other_counts setup n _ other e is]
            exact Column.add_zero column
  | _ => exact Column.add_zero column

theorem spawned_timely (n : Notes) (t : Steps.Running) (live : List Spec) (world : World)
    (operation : Operations.Op) (ret : Operations.Ret operation) (effect : Effect World Spec)
    (may : allowed setup n (.work operation))
    (did : Steps.Did setup t live world operation ret effect) :
    ∀ spec ∈ effect.spawned, TimelySpec setup spec := by
  intro spec member
  cases did with
  | spawnedAttempts contexts =>
      obtain ⟨ctx, _, rfl⟩ := List.mem_map.mp member
      exact trivial
  | startedAction ctx =>
      obtain rfl := List.mem_singleton.mp member
      exact trivial
  | startedQuarantine job =>
      obtain rfl := List.mem_singleton.mp member
      exact trivial
  | spawnedBatch items now =>
      obtain ⟨item, _, rfl⟩ := List.mem_map.mp member
      exact may
  | _ => cases member

theorem perform_effect (t : Teller) (live : List Spec) (world : World)
    (operation : LifecycleEvents.Op) (answer : Answer) (ret : LifecycleEvents.Ret operation)
    (effect : Effect World Spec) (may : allowed setup t.notes operation)
    (performed : perform setup t live world operation answer = some (ret, effect)) :
    effect.state.store.stats.replicated =
        (Column.add 1)^[(t.notes.due setup operation ret).toList.countP isCompletion]
          world.store.stats.replicated ∧
      ∀ spec ∈ effect.spawned, TimelySpec setup spec := by
  cases operation with
  | work operation =>
      cases answer with
      | work answer =>
          have did := Steps.did_retold setup (caller t) live world operation answer ret effect performed
          rw [did_replicated setup _ _ _ _ _ _ did, due_counts setup t.notes operation ret may]
          exact ⟨rfl, spawned_timely setup t.notes _ _ _ _ _ _ may did⟩
      | _ => cases performed
  | shouldLog label now =>
      cases answer with
      | logs logged =>
          cases performed
          have quiet : (t.notes.due setup (.shouldLog label now) ret).toList.countP isCompletion =
              0 := by
            cases ret with
            | false => rfl
            | true =>
                refine uncounted _ fun e is => ?_
                change t.notes.denied label = some e at is
                unfold Notes.denied at is
                split at is
                · split at is
                  · cases is
                    rfl
                  · cases is
                · cases is
          rw [quiet]
          exact ⟨rfl, fun _ new => (List.not_mem_nil new).elim⟩
      | _ => cases performed
  | emit event =>
      cases answer with
      | told =>
          cases performed
          exact ⟨rfl, fun _ new => (List.not_mem_nil new).elim⟩
      | _ => cases performed

/-! ## The invariant -/

/-- What the thread has given to tell is what it has told and what it owes. -/
def Tells (h : Ledger) (id : Nat) (owed : Option Told) : Prop :=
  of id h.due = (of id h.told).map fact ++ owed.toList

structure Sound (before : Column) (h : Ledger) (c : State) : Prop where
  distinct : Distinct c
  orderly : Orderly (telling setup) c
  timely : ∀ t ∈ c.threads, TimelySpec setup t.spec
  live : ∀ t ∈ c.threads, Tells h t.id t.notes.owed
  gone : ∀ id, hasThread c id = false → ∃ owed, Tells h id owed ∧ (owed ≠ none → h.cut id = true)
  unborn : ∀ id, c.next ≤ id → of id h.due = [] ∧ of id h.told = []
  counted : c.state.store.stats.replicated =
    (Column.add 1)^[h.due.countP fun e => isCompletion e.2] before

theorem has_thread_iff (c : State) (id : Nat) : hasThread c id = true ↔ ∃ t ∈ c.threads, t.id = id := by
  unfold hasThread
  rw [List.any_eq_true]
  simp only [decide_eq_true_iff]

theorem gone_step (h after : Ledger) (c next : State) (choice : Choice Answer Instance.Event)
    (cut : after.cut = fun id => h.cut id || dropped c choice next id)
    (same : ∀ id owed, runs id choice = false → Tells h id owed → Tells after id owed)
    (live : ∀ t ∈ c.threads, Tells h t.id t.notes.owed)
    (gone : ∀ id, hasThread c id = false → ∃ owed, Tells h id owed ∧ (owed ≠ none → h.cut id = true))
    (ended : ∀ id, runs id choice = true → hasThread next id = false → Tells after id none) :
    ∀ id, hasThread next id = false →
      ∃ owed, Tells after id owed ∧ (owed ≠ none → after.cut id = true) := by
  intro id absent
  cases own : runs id choice with
  | true => exact ⟨none, ended id own absent, fun some => absurd rfl some⟩
  | false =>
      cases present : hasThread c id with
      | true =>
          obtain ⟨t, member, rfl⟩ := (has_thread_iff c id).mp present
          refine ⟨t.notes.owed, same t.id _ own (live t member), fun _ => ?_⟩
          rw [cut]
          simp [dropped, present, absent, own]
      | false =>
          obtain ⟨owed, tells, was⟩ := gone id present
          refine ⟨owed, same id owed own tells, fun some => ?_⟩
          rw [cut]
          simp [was some]

theorem start_owes (spec : Spec) : (start spec).owed = none := by
  cases spec <;> rfl

theorem tells_entry (h : Ledger) (t : Teller) (operation : LifecycleEvents.Op)
    (ret : LifecycleEvents.Ret operation) (may : allowed setup t.notes operation)
    (tells : Tells h t.id t.notes.owed) (cut : Nat → Bool) :
    Tells ⟨h.due ++ entry t.id (t.notes.due setup operation ret),
      h.told ++ entry t.id (toldBy operation), cut⟩ t.id (t.notes.learn setup operation ret).owed := by
  unfold Tells
  rw [of_entry, of_entry, if_pos rfl, if_pos rfl]
  exact call_balanced setup t.notes operation ret may _ _ tells

theorem tells_other (h : Ledger) (t : Teller) (due told : Option Told) (cut : Nat → Bool) (id : Nat)
    (owed : Option Told) (other : t.id ≠ id) (tells : Tells h id owed) :
    Tells ⟨h.due ++ entry t.id due, h.told ++ entry t.id told, cut⟩ id owed := by
  unfold Tells
  rw [of_entry_other _ _ _ _ other, of_entry_other _ _ _ _ other]
  exact tells

theorem tells_unborn (h : Ledger) (id : Nat) (owed : Option Told)
    (unborn : of id h.due = [] ∧ of id h.told = []) (owes : owed = none) : Tells h id owed := by
  rw [Tells, unborn.1, unborn.2, owes]
  rfl

theorem sound_settle (before : Column) (h : Ledger) (c : State) (sound : Sound setup before h c)
    (t : Teller) (operation : LifecycleEvents.Op) (ret : LifecycleEvents.Ret operation)
    (effect : Effect World Spec) (next : LifecycleEvents.Ret operation → LifecycleEvents.Program Unit)
    (choice : Choice Answer Instance.Event)
    (calls : Calls (telling setup) c t operation ret effect next choice) (after : State)
    (settled : after = (telling setup).settle c ((telling setup).resumed t operation ret next) effect) :
    Sound setup before ((ledger setup).follow c choice after h) after := by
  have may : allowed setup t.notes operation :=
    calls_allowed (telling setup) c t operation ret effect next _ calls sound.orderly
  have keeps := calls_keep (telling setup) c t operation ret effect next _ calls sound.orderly
  obtain ⟨answer, rfl, performed⟩ := calls.choice
  obtain ⟨counts, started⟩ := perform_effect setup t _ _ operation answer ret effect may performed
  have followed : (ledger setup).follow c (.run t.id answer) after h =
      ⟨h.due ++ entry t.id (t.notes.due setup operation ret), h.told ++ entry t.id (toldBy operation),
        fun id => h.cut id || dropped c (.run t.id answer) after id⟩ := by
    have heeded := follow_call unmarked (heed setup) pass c after sound.distinct t
      calls.member operation next calls.prog answer h
    have recorded : heed setup t operation answer c after h =
        ⟨h.due ++ entry t.id (t.notes.due setup operation ret), h.told ++ entry t.id (toldBy operation),
          h.cut⟩ := by
      have out : perform setup t (Machine.live c) c.state operation answer = some (ret, effect) :=
        performed
      rw [heed, out]
    show Ledger.mk _ _ _ = _
    rw [heeded, recorded]
  rw [followed]
  have tells := tells_entry setup h t operation ret may (sound.live t calls.member)
    (fun id => h.cut id || dropped c (.run t.id answer) after id)
  have below := sound.distinct.below t calls.member
  have came : ∀ u ∈ after.threads, (u.id = t.id ∧ u.notes = t.notes.learn setup operation ret) ∨
      (∃ v ∈ c.threads, v.id ≠ t.id ∧ v.id = u.id ∧ v.notes = u.notes) ∨
      (c.next ≤ u.id ∧ u.id ≠ t.id ∧ u.notes.owed = none) := by
    intro u member
    rw [settled] at member
    rcases mem_settle (telling setup) c _ u effect member with ⟨same, _⟩ |
      ⟨v, present, other, same, _⟩ | ⟨new, fresh, same⟩
    · exact Or.inl ⟨same.id, same.notes⟩
    · exact Or.inr (Or.inl ⟨v, present, other, same.id.symm, same.notes.symm⟩)
    · obtain ⟨_, first, _, _, notes, _⟩ := mem_spawn_from (telling setup) _ _ new fresh
      refine Or.inr (Or.inr ⟨same.id ▸ first, ?_, ?_⟩)
      · rw [same.id]
        omega
      · rw [same.notes, notes]
        exact start_owes _
  have ended : (next ret).isDone = true → (t.notes.learn setup operation ret).owed = none :=
    Steadiness.keeps_ended _ (next ret) _ (telling setup).finished (keeps.2 ret trivial)
  constructor
  case distinct =>
    rw [settled]
    exact distinct_settle (telling setup) c _ effect sound.distinct
  case orderly =>
    rw [settled]
    exact orderly_settle (telling setup) c t operation ret effect next _ calls sound.orderly trivial
      fun spec member => main_keeps setup spec (started spec member)
  case timely =>
    rw [settled]
    exact all_settle (telling setup) (fun spec _ => TimelySpec setup spec) c t operation ret effect next
      (sound.timely t calls.member) (fun u member _ => sound.timely u member) started
  case live =>
    intro u member
    rcases came u member with ⟨own, notes⟩ | ⟨v, present, other, same, notes⟩ | ⟨first, other, owes⟩
    · rw [own, notes]
      exact tells
    · rw [← same, ← notes]
      exact tells_other h t _ _ _ v.id _ (Ne.symm other) (sound.live v present)
    · exact tells_other h t _ _ _ u.id _ (Ne.symm other)
        (tells_unborn h u.id _ (sound.unborn u.id first) owes)
  case gone =>
    refine gone_step h _ c after (.run t.id answer) rfl ?_ sound.live sound.gone ?_
    · intro id owed other was
      exact tells_other h t _ _ _ id owed (of_decide_eq_false other) was
    · intro id own absent
      obtain rfl : t.id = id := of_decide_eq_true own
      have finished : (next ret).isDone = true := by
        by_contra going
        obtain ⟨v, present, same⟩ := caller_stays (telling setup) c t calls.member operation ret next
          effect (Bool.not_eq_true _ ▸ going)
        rw [← settled] at present
        have there := (has_thread_iff after t.id).mpr ⟨v, present, same.id⟩
        rw [absent] at there
        cases there
      rw [← ended finished]
      exact tells
  case unborn =>
    intro id beyond
    have first : c.next ≤ id := by
      rw [settled] at beyond
      exact (Nat.le_add_right _ _).trans beyond
    have other : t.id ≠ id := by omega
    rw [of_entry_other _ _ _ _ other, of_entry_other _ _ _ _ other]
    exact sound.unborn id first
  case counted =>
    have state : after.state = effect.state := by rw [settled]; rfl
    have more : (entry t.id (t.notes.due setup operation ret)).countP (fun e => isCompletion e.2) =
        (t.notes.due setup operation ret).toList.countP isCompletion := by
      rw [entry, List.countP_map]
      rfl
    rw [state, counts, sound.counted, List.countP_append, more, Nat.add_comm,
      Function.iterate_add_apply]

theorem sound_outside (before : Column) (h : Ledger) (c after : State) (sound : Sound setup before h c)
    (choice : Choice Answer Instance.Event) (outside : ∀ id, runs id choice = false)
    (distinct : Distinct after) (orderly : Orderly (telling setup) after)
    (timely : ∀ t ∈ after.threads, TimelySpec setup t.spec)
    (came : ∀ u ∈ after.threads, (∃ v ∈ c.threads, v.id = u.id ∧ v.notes = u.notes) ∨
      (c.next ≤ u.id ∧ u.notes.owed = none))
    (next : c.next ≤ after.next)
    (counted : after.state.store.stats.replicated = c.state.store.stats.replicated) :
    Sound setup before ⟨h.due, h.told, fun id => h.cut id || dropped c choice after id⟩ after where
  distinct := distinct
  orderly := orderly
  timely := timely
  live := by
    intro u member
    rcases came u member with ⟨v, present, same, notes⟩ | ⟨first, owes⟩
    · rw [← same, ← notes]
      exact sound.live v present
    · exact tells_unborn h u.id _ (sound.unborn u.id first) owes
  gone := by
    refine gone_step h _ c after choice rfl (fun _ _ _ was => was) sound.live sound.gone ?_
    intro id own
    rw [outside id] at own
    cases own
  unborn := fun id beyond => sound.unborn id (next.trans beyond)
  counted := counted.trans sound.counted

def Clocked : Choice Answer Instance.Event → Prop
  | .env (.boot now) | .env (.periodic now _) | .env (.trigger now _ _) => Timely setup now
  | _ => True

theorem react_timely (world : World) (live : List Spec) (event : Instance.Event)
    (reaction : Reaction World Spec) (clocked : Clocked setup (.env event))
    (reacted : Instance.react world live event = some reaction) :
    ∀ spec ∈ reaction.spawned, TimelySpec setup spec := by
  cases event with
  | boot now =>
      simp only [Instance.react] at reacted
      split at reacted
      · cases reacted
      · cases reacted
        exact List.forall_mem_singleton.mpr clocked
  | periodic now fuel =>
      simp only [Instance.react] at reacted
      split at reacted
      · cases reacted
        exact List.forall_mem_singleton.mpr clocked
      · cases reacted
  | trigger now ignoreWindow fuel =>
      simp only [Instance.react] at reacted
      split at reacted
      · cases reacted
        exact List.forall_mem_singleton.mpr clocked
      · cases reacted
  | _ =>
      cases reacted
      exact fun _ new => (List.not_mem_nil new).elim

theorem sound_step (before : Column) (h : Ledger) (c after : State) (choice : Choice Answer Instance.Event)
    (sound : Sound setup before h c) (clocked : Clocked setup choice)
    (stepped : (telling setup).step c choice = some after) :
    Sound setup before ((ledger setup).follow c choice after h) after := by
  rcases step_cases (telling setup) c after choice stepped with
    ⟨t, operation, ret, effect, next, calls, settled⟩ | ⟨id, rfl, _, rfl⟩ |
    ⟨event, reaction, rfl, reacted, rfl⟩
  · exact sound_settle setup before h c sound t operation ret effect next choice calls after settled
  · refine sound_outside setup before h c _ sound (.kill id) (fun _ => rfl)
      (distinct_without (telling setup) c id sound.distinct)
      (orderly_without (telling setup) c id sound.orderly)
      (all_without (telling setup) (fun spec _ => TimelySpec setup spec) c id sound.timely) ?_
      le_rfl rfl
    intro u member
    obtain ⟨v, present, _, same⟩ := mem_without (telling setup) c id u member
    exact Or.inl ⟨v, present, same.id.symm, same.notes.symm⟩
  · have started := react_timely setup _ _ event reaction clocked reacted
    obtain ⟨store, _⟩ := Runs.react_base _ _ event reaction reacted
    refine sound_outside setup before h c _ sound (.env event) (fun _ => rfl)
      (distinct_absorb (telling setup) c reaction sound.distinct)
      (orderly_absorb (telling setup) c reaction sound.orderly
        fun spec member => main_keeps setup spec (started spec member))
      (all_absorb (telling setup) (fun spec _ => TimelySpec setup spec) c reaction sound.timely started)
      ?_ (Nat.le_add_right _ _) (congrArg (fun s => s.stats.replicated) store)
    intro u member
    rcases mem_absorb (telling setup) c reaction u member with ⟨_, v, present, same⟩ | ⟨new, fresh, same⟩
    · exact Or.inl ⟨v, present, same.id.symm, same.notes.symm⟩
    · obtain ⟨_, first, _, _, notes, _⟩ := mem_spawn_from (telling setup) _ _ new fresh
      refine Or.inr ⟨same.id ▸ first, ?_⟩
      rw [same.notes, notes]
      exact start_owes _

/-- Nothing runs yet, and so many files are counted already. -/
def Starts (before : Column) (c : State) : Prop :=
  c.threads = [] ∧ c.state.store.stats.replicated = before

/-- In every run the events of a thread are, in their order, those that its statements give to tell, but
for the last one when the thread was cut off or is still about to tell it; and the files that are counted
are those whose event was due. -/
theorem events_accounted (before : Column) (h : Ledger) (c : State)
    (tracked : Tracked (telling setup) (ledger setup) (Starts before)
      (fun _ _ choice => Clocked setup choice) h c) :
    (∀ id, ∃ owed : Option Told, of id h.due = (of id h.told).map fact ++ owed.toList ∧
        (owed ≠ none → hasThread c id = true ∨ h.cut id = true)) ∧
      (∀ rfc3339 id, (of id h.told).map (fun event => read (publish rfc3339 event)) =
        (of id h.told).map fun event => some (event.shown rfc3339)) ∧
      c.state.store.stats.replicated =
        (Column.add 1)^[h.due.countP fun e => isCompletion e.2] before := by
  have sound : Sound setup before h c := by
    apply invariant_of_tracked (telling setup) (ledger setup) (Starts before)
      (fun _ _ choice => Clocked setup choice) (Sound setup before) ?_
      (fun h c after choice sound clocked stepped =>
        sound_step setup before h c after choice sound clocked stepped) h c tracked
    rintro c ⟨nobody, counted⟩
    have absent : ∀ t, t ∉ c.threads := fun t member => by rw [nobody] at member; cases member
    refine ⟨⟨fun t member => absurd member (absent t), ?_⟩, fun t member => absurd member (absent t),
      fun t member => absurd member (absent t), fun t member => absurd member (absent t),
      fun id _ => ⟨none, rfl, fun some => absurd rfl some⟩, fun _ _ => ⟨rfl, rfl⟩, ?_⟩
    · rw [nobody]
      exact List.nodup_nil
    · exact counted
  refine ⟨fun id => ?_, fun rfc3339 id => List.map_congr_left fun event _ =>
    read_publish rfc3339 event, sound.counted⟩
  cases present : hasThread c id with
  | true =>
      obtain ⟨t, member, rfl⟩ := (has_thread_iff c id).mp present
      exact ⟨t.notes.owed, sound.live t member, fun _ => Or.inl rfl⟩
  | false =>
      obtain ⟨owed, tells, cut⟩ := sound.gone id present
      exact ⟨owed, tells, fun some => Or.inr (cut some)⟩

/-! ## A file that is counted and not told of -/

instance (now : Int) : Decidable (Timely setup now) := inferInstanceAs (Decidable (_ < _))

instance : (choice : Choice Answer Instance.Event) → Decidable (Clocked setup choice)
  | .env (.boot now) | .env (.periodic now _) | .env (.trigger now _ _) =>
      inferInstanceAs (Decidable (Timely setup now))
  | .env (.touch _ _) | .env (.alter _ _ _) | .env (.setActive _) | .env .crash | .run _ _ | .kill _ =>
      .isTrue trivial

def asks (id : Nat) (answers : List Instance.Answer) : List (Choice Answer Instance.Event) :=
  answers.map fun answer => .run id (.work answer)

/-- A file is delivered, deleted and counted; the process stops before its deletion is told. -/
def untilCounted : List (Choice Answer Instance.Event) :=
  [.env (.boot 0), .env (.trigger 0 false 1)] ++
    asks 1 [.asIs, .asIs, .found [⟨"a", 0, 0⟩], .asIs, .asIs, .asIs, .asIs, .scheduled (.all false),
      .asIs, .asIs] ++
    asks 2 [.asIs, .asIs] ++ asks 3 [.asIs] ++ [.run 3 .told] ++ asks 3 (List.replicate 4 .asIs) ++
    [.run 3 .told] ++ asks 3 [.asIs] ++ asks 2 [.number 0, .asIs, .asIs, .asIs, .asIs] ++
    asks 4 [.disk (.asIs 0), .disk (.asIs 0), .asIs] ++ asks 2 (List.replicate 5 .asIs) ++
    [.env .crash]

def quietStart : State := ⟨Runs.smallWorld Runs.oneFile, [], 0⟩

def smallInstance : Setup := Runs.smallSetup Runs.plainCompletion

theorem events_accounted_stopped :
    ∃ h c, Tracked (telling smallInstance) (ledger smallInstance) (Starts (.integer 0))
        (fun _ _ choice => Clocked smallInstance choice) h c ∧
      of 3 h.told = [.replicationStarted "a" 0 "local" 1, .replicationCompleted "a" 0 "local" 0] ∧
      of 2 h.due = [.fileDeleted "a"] ∧ of 2 h.told = [] ∧ h.cut 2 = true ∧
      c.state.store.stats.replicated.Shows 1 := by
  obtain ⟨h, c, tracked, found⟩ := exists_of_tracked_run (telling smallInstance) (ledger smallInstance)
    (Starts (.integer 0)) (fun _ _ choice => Clocked smallInstance choice)
    (fun _ _ choice => decide (Clocked smallInstance choice)) (fun _ _ _ => of_decide_eq_true)
    (fun h _ => of 3 h.told = [.replicationStarted "a" 0 "local" 1,
        .replicationCompleted "a" 0 "local" 0] &&
      of 2 h.due = [.fileDeleted "a"] && of 2 h.told = [] && h.cut 2 &&
      h.due.countP (fun e => isCompletion e.2) = 1)
    untilCounted quietStart ⟨rfl, rfl⟩ (by decide +kernel)
  simp only [Bool.and_eq_true, decide_eq_true_iff] at found
  obtain ⟨⟨⟨⟨attempt, due⟩, told⟩, cut⟩, one⟩ := found
  have counted := (events_accounted smallInstance (.integer 0) h c tracked).2.2
  rw [one] at counted
  refine ⟨h, c, tracked, attempt, due, told, cut, ?_⟩
  rw [counted]
  exact Column.grew_iterate _ 1 0 Column.shows_zero (by decide)

end FileReplicator.EventLedger
