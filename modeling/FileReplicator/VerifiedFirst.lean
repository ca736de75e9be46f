import FileReplicator.StartupRecovery
import FileReplicator.Vouching

/-!
# Verified before the source is touched

The completion action of an item is started by a call that has marked the item as
`CleanupPending`, once every destination of the list has been recorded as verified since
the row of the item was made or made anew; and the item is completed once that action
has succeeded. The history remembers the records, the marks and the actions.
-/

namespace FileReplicator.VerifiedFirst

open Domain DurableStore Effects Interleaving Annotations SourceActions Operations Worker Instance
open Protocol Steps Runs Assurance Vouching
open CleanupSteps (startsOver)
open Relabelling (Tells)
open Offspring (Reported)

variable (setup : Setup)

/-! ## The history -/

structure History where
  /-- The destination that a thread's `verify` has passed last. -/
  passed : Nat → Option (String × String)
  /-- What has been recorded as verified, by who had verified it, since the row was made. -/
  entries : List (String × String)
  /-- The item that a thread has marked as `CleanupPending` and not acted on yet. -/
  marked : Nat → Option String
  /-- The action that a thread has started last. -/
  started : Nat → Option (Nat × CleanupCtx)
  succeeded : List Nat

def History.blank : History := ⟨fun _ => none, [], fun _ => none, fun _ => none, []⟩

def handleOf : Spec → Option Nat
  | .action handle _ => some handle
  | _ => none

def note (id : Nat) (spec : Spec) (store : Store) (h : History) :
    (operation : Op) → Ret operation → History
  | .verify item label _ _, .ok _ =>
      { h with passed := Function.update h.passed id (some (item.relpath, label)) }
  | .verify _ _ _ _, .error _ => { h with passed := Function.update h.passed id none }
  | .store (.setDestPhase relpath label .verified), .ok _ =>
      if h.passed id = some (relpath, label) then { h with entries := (relpath, label) :: h.entries }
      else h
  | .store (.upsertReady relpath size mtimeMs _), .ok _ =>
      if startsOver size mtimeMs (store.items relpath) then
        { h with entries := h.entries.filter fun p => p.1 ≠ relpath }
      else h
  | .store (.setState relpath .cleanupPending _), .ok _ =>
      { h with marked := Function.update h.marked id (some relpath) }
  | .startAction ctx, handle =>
      { h with
        marked := Function.update h.marked id none
        started := Function.update h.started id (some (handle, ctx)) }
  | .endAction (.ok _), _ => { h with succeeded := (handleOf spec).toList ++ h.succeeded }
  | _, _ => h

/-- What is remembered of a call with this answer. -/
def heed (t : Hand) (operation : Op) (answer : Answer) (c _ : Duo) (h : History) : History :=
  match perform setup c.state t (Machine.live c) operation answer with
  | some (ret, _) => note t.id t.spec c.state.store h operation ret
  | none => h

abbrev recording : Chronicle Op Ret World Spec Pair Answer Event History :=
  chronicle History.blank (heed setup) fun _ _ _ h => h

/-- An action that is about to be started has been marked, and every destination of its item has
been recorded as verified; an item that is about to be completed has had its action succeed. -/
structure Safe (h : History) (c : Duo) : Prop where
  started : ∀ t ∈ c.threads, ∀ ctx next, t.prog = .call (.startAction ctx) next →
    ctx.src = setup.absSource ctx.relpath ∧ h.marked t.id = some ctx.relpath ∧
      ∀ label ∈ setup.labels, (ctx.relpath, label) ∈ h.entries
  completed : ∀ t ∈ c.threads, ∀ operation next relpath, t.prog = .call (.store operation) next →
    persists .completed operation = some relpath →
      ∃ handle ctx, h.started t.id = some (handle, ctx) ∧ ctx.relpath = relpath ∧ handle ∈ h.succeeded

/-! ## What a call adds to the history -/

section Note

variable (id : Nat) (spec : Spec) (store : Store) (h : History) (operation : Op) (ret : Ret operation)

def restarts : (operation : Op) → Ret operation → Option String
  | .store (.upsertReady relpath size mtimeMs _), .ok _ =>
      if startsOver size mtimeMs (store.items relpath) then some relpath else none
  | _, _ => none

attribute [local simp] note

theorem note_entries (p : String × String) (member : p ∈ h.entries)
    (keeps : restarts store operation ret ≠ some p.1) :
    p ∈ (note id spec store h operation ret).entries := by
  unfold note
  split
  case h_3 =>
    split
    · exact List.mem_cons_of_mem _ member
    · exact member
  case h_4 relpath size mtimeMs now done =>
    split
    · rename_i anew
      refine List.mem_filter.mpr ⟨member, ?_⟩
      have other : p.1 ≠ relpath := by
        rintro rfl
        exact keeps (if_pos anew)
      simpa using other
    · exact member
  all_goals exact member

theorem note_vouched (p : String × String) (vouched : vouches operation ret = some p)
    (passed : h.passed id = some p) : p ∈ (note id spec store h operation ret).entries := by
  unfold vouches at vouched
  split at vouched
  · cases vouched
    simp [passed]
  · cases vouched

theorem note_succeeded (handle : Nat) (member : handle ∈ h.succeeded) :
    handle ∈ (note id spec store h operation ret).succeeded := by
  unfold note
  split
  case h_3 => split <;> exact member
  case h_4 => split <;> exact member
  case h_7 => exact List.mem_append_right _ member
  all_goals exact member

theorem note_apart (other : Nat) (apart : other ≠ id) :
    (note id spec store h operation ret).passed other = h.passed other ∧
      (note id spec store h operation ret).marked other = h.marked other ∧
        (note id spec store h operation ret).started other = h.started other := by
  unfold note
  split
  case h_3 => split <;> exact ⟨rfl, rfl, rfl⟩
  case h_4 => split <;> exact ⟨rfl, rfl, rfl⟩
  all_goals simp [Function.update_of_ne apart]

theorem note_passed (other : ∀ item label expected policy, operation ≠ .verify item label expected policy) :
    (note id spec store h operation ret).passed = h.passed := by
  unfold note
  split
  case h_1 => exact absurd rfl (other _ _ _ _)
  case h_2 => exact absurd rfl (other _ _ _ _)
  case h_3 => split <;> rfl
  case h_4 => split <;> rfl
  all_goals rfl

theorem note_started (plain : usesPool operation = false) :
    (note id spec store h operation ret).started = h.started := by
  unfold note
  split
  case h_3 => split <;> rfl
  case h_4 => split <;> rfl
  case h_6 => cases plain
  all_goals rfl

theorem note_marked (plain : usesPool operation = false)
    (other : ∀ relpath now, operation ≠ .store (.setState relpath .cleanupPending now)) :
    (note id spec store h operation ret).marked = h.marked := by
  unfold note
  split
  case h_3 => split <;> rfl
  case h_4 => split <;> rfl
  case h_5 => exact absurd rfl (other _ _)
  case h_6 => cases plain
  all_goals rfl

end Note

/-- The notes of a thread say what the history says of it. -/
structure Follows (h : History) (id : Nat) (n : Notes) : Prop where
  passed : ∀ p, n.passed = some p → h.passed id = some p
  marked : ∀ relpath, n.stage = .marked relpath → h.marked id = some relpath
  acting : ∀ handle ctx, n.stage = .acting handle ctx → h.started id = some (handle, ctx)
  acted : ∀ ctx done, n.stage = .acted ctx done →
    ∃ handle, h.started id = some (handle, ctx) ∧ handle ∈ h.succeeded

theorem follows_start (h : History) (id : Nat) (spec : Spec) : Follows h id (start spec) := by
  cases spec with
  | _ =>
      constructor
      · exact fun _ passed => by cases passed
      · exact fun _ stage => by cases stage
      · exact fun _ _ stage => by cases stage
      · exact fun _ _ stage => by cases stage

theorem learn_passed (n : Notes) (operation : Op) (ret : Ret operation)
    (other : ∀ item label expected policy, operation ≠ .verify item label expected policy) :
    (learn setup n operation ret).passed = n.passed := by
  cases operation with
  | store operation =>
      cases ret with
      | error e => cases operation <;> rfl
      | ok ret =>
          cases operation with
          | destStates relpath =>
              simp only [learn, learnStatement, learnStates]
              split <;> rfl
          | getRow relpath => cases ret <;> rfl
          | setState relpath state now => cases state <;> rfl
          | rollUpItem relpath state attempts gate error now =>
              simp only [learn, learnStatement]
              split <;> rfl
          | listByState state => cases state <;> rfl
          | _ => rfl
  | deliver item label resume => cases ret <;> rfl
  | verify item label expected policy => exact absurd rfl (other item label expected policy)
  | joinAttempt =>
      simp only [learn, learnJoined]
      split
      · split <;> rfl
      · rfl
  | awaitAction handle =>
      obtain ⟨stage, learned⟩ := learn_outcome_eq n ret
      rw [learn, learned]
  | awaitQuarantine handle =>
      obtain ⟨stage, learned⟩ := learn_moved_eq n ret
      rw [learn, learned]
  | _ => rfl

section Call

variable {setup}
variable {c : Duo} {t : Hand} {operation : Op} {ret : Ret operation} {effect : Effect World Spec}
variable {next : Ret operation → Program Unit} {h : History}

theorem follows_learn (called : Called setup c t operation ret effect next)
    (follows : Follows h t.id t.notes.1)
    (ended : ∀ handle done, c.state.outcomes handle = some (.ok done) → handle ∈ h.succeeded) :
    Follows (note t.id t.spec c.state.store h operation ret) t.id (learn setup t.notes.1 operation ret) := by
  have staged := learn_stage setup t.notes.1 operation ret called.may
  constructor
  · intro p passed
    by_cases verified : ∃ item label expected policy, operation = .verify item label expected policy
    · obtain ⟨item, label, expected, policy, rfl⟩ := verified
      cases ret with
      | error e => cases passed
      | ok done =>
          cases passed
          exact Function.update_self _ _ _
    · have other : ∀ item label expected policy, operation ≠ .verify item label expected policy :=
        fun item label expected policy same => verified ⟨item, label, expected, policy, same⟩
      rw [learn_passed setup t.notes.1 operation ret other] at passed
      rw [note_passed _ _ _ _ _ _ other]
      exact follows.passed p passed
  · intro relpath marked
    rw [marked] at staged
    generalize at_ : Stage.marked relpath = stage at staged
    cases staged with
    | same _ _ plain =>
        have other : ∀ row now, operation ≠ .store (.setState row .cleanupPending now) := by
          rintro row now rfl
          have idle : t.notes.1.stage = .idle := called.may.1
          rw [idle] at at_
          cases at_
        rw [note_marked _ _ _ _ _ _ plain other]
        exact follows.marked relpath at_.symm
    | marked row now done _ =>
        cases at_
        exact Function.update_self _ _ _
    | _ => cases at_
  · intro handle ctx acting
    rw [acting] at staged
    generalize at_ : Stage.acting handle ctx = stage at staged
    cases staged with
    | same _ _ plain =>
        rw [note_started _ _ _ _ _ _ plain]
        exact follows.acting handle ctx at_.symm
    | acting own started _ =>
        cases at_
        exact Function.update_self _ _ _
    | _ => cases at_
  · intro ctx done acted
    rw [acted] at staged
    generalize at_ : Stage.acted ctx done = stage at staged
    cases staged with
    | same _ _ plain =>
        rw [note_started _ _ _ _ _ _ plain]
        obtain ⟨handle, started, succeeded⟩ := follows.acted ctx done at_.symm
        exact ⟨handle, started, note_succeeded _ _ _ _ _ _ handle succeeded⟩
    | acted own handle outcome from_acting =>
        cases at_
        cases called.did with
        | awaited handle result came =>
            exact ⟨handle, follows.acting handle ctx from_acting, ended handle done came⟩
    | _ => cases at_

theorem follows_other (id : Nat) (n : Notes) (apart : id ≠ t.id) (follows : Follows h id n) :
    Follows (note t.id t.spec c.state.store h operation ret) id n := by
  obtain ⟨passed, marked, started⟩ := note_apart t.id t.spec c.state.store h operation ret id apart
  constructor
  · intro p was
    rw [passed]
    exact follows.passed p was
  · intro relpath was
    rw [marked]
    exact follows.marked relpath was
  · intro handle ctx was
    rw [started]
    exact follows.acting handle ctx was
  · intro ctx done was
    obtain ⟨handle, begun, succeeded⟩ := follows.acted ctx done was
    rw [started]
    exact ⟨handle, begun, note_succeeded _ _ _ _ _ _ handle succeeded⟩

end Call

/-! ## What holds in every run -/

def Known (h : History) (p : String × String) : Prop := p ∈ h.entries

structure Sound (h : History) (c : Duo) : Prop where
  manned : Manned setup c
  told : Tells setup (Known h) c.state.store
  sure : ∀ u ∈ c.threads, Attached c u → Sure setup (Known h) u.notes.1
  reported : Reported (Known h) (forget Prod.fst c)
  follows : ∀ u ∈ c.threads, Follows h u.id u.notes.1
  ended : ∀ handle done, c.state.outcomes handle = some (.ok done) → handle ∈ h.succeeded

theorem counts_of_sound (h : History) (c : Duo) (sound : Sound setup h c) :
    Counts setup (Known h) c :=
  ⟨sound.told, sound.sure, sound.reported⟩

section Settle

variable {setup}
variable {c : Duo} {t : Hand} {operation : Op} {ret : Ret operation} {effect : Effect World Spec}
variable {next : Ret operation → Program Unit} {h : History}

theorem passed_of_vouched (called : Called setup c t operation ret effect next) (p : String × String)
    (vouched : vouches operation ret = some p) : t.notes.1.passed = some p := by
  have may := called.may
  unfold vouches at vouched
  split at vouched
  · cases vouched
    rcases may with ⟨_, _, _, passed⟩ | ⟨_, _, _, _, passed⟩
    · exact passed
    · exact passed rfl
  · cases vouched

theorem known_vouched (sound : Sound setup h c) (called : Called setup c t operation ret effect next)
    (p : String × String) (vouched : vouches operation ret = some p) :
    Known (note t.id t.spec c.state.store h operation ret) p :=
  note_vouched _ _ _ _ _ _ p vouched
    ((sound.follows t called.member).passed p (passed_of_vouched called p vouched))

theorem counts_plain (sound : Sound setup h c) (called : Called setup c t operation ret effect next)
    (plain : restarts c.state.store operation ret = none) :
    Counts setup (Known (note t.id t.spec c.state.store h operation ret))
      ((duo setup).settle c ((duo setup).resumed t operation ret next) effect) := by
  have grows : ∀ p, Known h p → Known (note t.id t.spec c.state.store h operation ret) p := by
    intro p known
    apply note_entries _ _ _ _ _ _ p known
    rw [plain]
    exact (Option.some_ne_none _).symm
  exact counts_settle sound.manned (counts_of_sound setup h c sound) called grows
    (known_vouched sound called)

theorem upsert_of_restart (called : Called setup c t operation ret effect next) (relpath : String)
    (anew : restarts c.state.store operation ret = some relpath) :
    ∃ size mtimeMs now, operation = .store (.upsertReady relpath size mtimeMs now) ∧
      startsOver size mtimeMs (c.state.store.items relpath) = true ∧
      learn setup t.notes.1 operation ret = t.notes.1 ∧
      effect = changes { c.state with store := c.state.store.upsertReady relpath size mtimeMs now } ∧
      (note t.id t.spec c.state.store h operation ret).entries = h.entries.filter fun p => p.1 ≠ relpath := by
  unfold restarts at anew
  split at anew
  · split at anew
    · rename_i row size mtimeMs now done over_
      cases anew
      cases called.did with
      | statement _ =>
          refine ⟨size, mtimeMs, now, rfl, over_, rfl, rfl, ?_⟩
          simp only [note, if_pos over_]
    · cases anew
  · cases anew

theorem counts_anew (sound : Sound setup h c) (called : Called setup c t operation ret effect next)
    (relpath : String) (anew : restarts c.state.store operation ret = some relpath) :
    Counts setup (Known (note t.id t.spec c.state.store h operation ret))
      ((duo setup).settle c ((duo setup).resumed t operation ret next) effect) := by
  obtain ⟨size, mtimeMs, now, looks, starts, learned, done, entries⟩ :=
    upsert_of_restart (h := h) called relpath anew
  refine counts_restart sound.manned (counts_of_sound setup h c sound) called relpath size mtimeMs now
    looks starts learned done fun p known other => ?_
  rw [Known, entries]
  exact List.mem_filter.mpr ⟨known, by simpa using other⟩

theorem follows_settle (sound : Sound setup h c) (called : Called setup c t operation ret effect next) :
    ∀ u ∈ ((duo setup).settle c ((duo setup).resumed t operation ret next) effect).threads,
      Follows (note t.id t.spec c.state.store h operation ret) u.id u.notes.1 := by
  intro u hu
  rcases mem_settle (duo setup) c _ u effect hu with ⟨same, _⟩ | ⟨before, hbefore, other, same, _⟩ |
    ⟨new, hnew, same⟩
  · rw [same.id, same.notes]
    exact follows_learn called (sound.follows t called.member) sound.ended
  · rw [same.id, same.notes]
    exact follows_other before.id before.notes.1 other (sound.follows before hbefore)
  · obtain ⟨_, _, _, _, notes, _⟩ := mem_spawn_from (duo setup) _ _ new hnew
    rw [same.notes, notes]
    exact follows_start _ _ new.spec

theorem ended_settle (sound : Sound setup h c) (called : Called setup c t operation ret effect next)
    (handle : Nat) (done : CleanupDone) (came : effect.state.outcomes handle = some (.ok done)) :
    handle ∈ (note t.id t.spec c.state.store h operation ret).succeeded := by
  have before (was : c.state.outcomes handle = some (.ok done)) :
      handle ∈ (note t.id t.spec c.state.store h operation ret).succeeded :=
    note_succeeded _ _ _ _ _ _ handle (sound.ended handle done was)
  cases called.did with
  | undelivered item l resume left error after stored =>
      apply before
      rcases stored with rfl | ⟨_, _, rfl⟩ <;> exact came
  | endedAction own ctx spec result =>
      simp only [changes] at came
      split at came
      · rename_i same
        cases came
        have mine : handleOf t.spec = some handle := by
          rw [show t.spec = .action own ctx from spec, same]
          rfl
        simp only [note, mine, Option.toList_some]
        exact List.mem_append_left _ (List.mem_singleton_self handle)
      · exact before came
  | _ => exact before came

end Settle

section Steps

variable {setup}
variable {c after : Duo} {h : History}

theorem sound_without (sound : Sound setup h c) (id : Nat)
    (manned : Manned setup ((duo setup).without c id)) : Sound setup h ((duo setup).without c id) := by
  have counts := counts_without (counts_of_sound setup h c sound) id
  refine ⟨manned, counts.told, counts.sure, counts.reported, ?_, sound.ended⟩
  · intro u hu
    obtain ⟨before, hbefore, _, same⟩ := mem_without (duo setup) c id u hu
    rw [same.id, same.notes]
    exact sound.follows before hbefore

theorem sound_absorb (sound : Sound setup h c) (event : Event) (reaction : Reaction World Spec)
    (reacted : react c.state (Machine.live c) event = some reaction)
    (manned : Manned setup ((duo setup).absorb c reaction)) :
    Sound setup h ((duo setup).absorb c reaction) := by
  have counts := counts_absorb sound.manned (counts_of_sound setup h c sound) event reaction reacted
  refine ⟨manned, counts.told, counts.sure, counts.reported, ?_, ?_⟩
  · intro u hu
    rcases mem_absorb (duo setup) c reaction u hu with ⟨_, before, hbefore, same⟩ | ⟨new, hnew, same⟩
    · rw [same.id, same.notes]
      exact sound.follows before hbefore
    · obtain ⟨_, _, _, _, notes, _⟩ := mem_spawn_from (duo setup) _ _ new hnew
      rw [same.notes, notes]
      exact follows_start _ _ new.spec
  · intro handle done came
    apply sound.ended handle done
    change reaction.state.outcomes handle = some (.ok done) at came
    cases event with
    | crash =>
        cases reacted
        cases came
    | boot now =>
        simp only [react] at reacted
        split at reacted
        · cases reacted
        · cases reacted
          exact came
    | periodic now fuel =>
        simp only [react] at reacted
        split at reacted
        · cases reacted
          exact came
        · cases reacted
    | trigger now ignoreWindow fuel =>
        simp only [react] at reacted
        split at reacted
        · cases reacted
          exact came
        · cases reacted
    | _ =>
        cases reacted
        exact came

/-- A trigger is served once the startup recovery is over. -/
def Waits (_ : History) (c : Duo) (choice : Choice Answer Event) : Prop :=
  DrainRuns.afterRecovery (forget Prod.snd c) choice = true

theorem sound_step (choice : Choice Answer Event) (sound : Sound setup h c) (met : Waits h c choice)
    (stepped : (duo setup).step c choice = some after) :
    Sound setup ((recording setup).follow c choice after h) after := by
  have manned := manned_step choice sound.manned met stepped
  rcases step_cases (duo setup) c after choice stepped with
    ⟨t, operation, ret, effect, next, calls, rfl⟩ | ⟨id, rfl, _, rfl⟩ |
    ⟨event, reaction, rfl, reacted, rfl⟩
  · have called := called_of_calls sound.manned.toStaffed choice calls
    obtain ⟨answer, rfl, performed⟩ := calls.choice
    have distinct := distinct_of_forget Prod.fst c sound.manned.base.distinct
    have remembered : (recording setup).follow c (.run t.id answer)
        ((duo setup).settle c ((duo setup).resumed t operation ret next) effect) h =
        note t.id t.spec c.state.store h operation ret := by
      have answered : perform setup c.state t (Machine.live c) operation answer =
          some (ret, effect) := performed
      rw [follow_call _ _ _ c _ distinct t calls.member operation next calls.prog, heed, answered]
    rw [remembered]
    have counts : Counts setup (Known (note t.id t.spec c.state.store h operation ret))
        ((duo setup).settle c ((duo setup).resumed t operation ret next) effect) := by
      cases anew : restarts c.state.store operation ret with
      | none => exact counts_plain sound called anew
      | some relpath => exact counts_anew sound called relpath anew
    exact ⟨manned, counts.told, counts.sure, counts.reported, follows_settle sound called,
      ended_settle sound called⟩
  · exact sound_without sound id manned
  · exact sound_absorb sound event reaction reacted manned

end Steps

/-- An instance with an empty store, before its first start. -/
def Starts (c : Duo) : Prop := Relabelling.First (forget Prod.fst c)

theorem sound_first (c : Duo) (starts : Starts c) : Sound setup History.blank c := by
  have idle : c.threads = [] := List.map_eq_nil_iff.mp starts.begins.threads
  have nobody : ∀ t, t ∉ c.threads := by
    intro t
    rw [idle]
    exact List.not_mem_nil
  have none_noted : ∀ t, t ∉ (forget Prod.fst c).threads := by
    intro t
    rw [starts.begins.threads]
    exact List.not_mem_nil
  have unmarked : ∀ relpath label, c.state.store.phase relpath label ≠ .verified :=
    fun relpath label phase => starts.unmarked relpath label (Or.inl phase)
  constructor
  case manned =>
    exact manned_begins setup c starts.begins fun relpath label phase =>
      absurd phase (unmarked relpath label)
  case told =>
    constructor
    · exact fun relpath label phase => absurd phase (unmarked relpath label)
    · intro relpath row found owes
      rw [starts.settled relpath row found] at owes
      cases owes
  case sure => exact fun t ht => absurd ht (nobody t)
  case reported => exact fun t ht => absurd ht (none_noted t)
  case follows => exact fun t ht => absurd ht (nobody t)
  case ended =>
    intro handle done came
    rw [show c.state.outcomes handle = none from starts.begins.outcomes handle] at came
    cases came

theorem safe_of_sound (h : History) (c : Duo) (sound : Sound setup h c) : Safe setup h c := by
  constructor
  · intro t member ctx next prog
    obtain ⟨may, turn⟩ := allowed_of sound.manned.toStaffed member prog
    obtain ⟨stage, todo, surely, item, checksum, rfl⟩ := may
    have follows := sound.follows t member
    have rows := has_rows setup c sound.manned.toStaffed t member (Or.inl (List.ne_nil_of_mem todo))
    have attached := attached_of_turn sound.manned.toStaffed member turn rows Op.noConfusion Op.noConfusion
    refine ⟨rfl, follows.marked _ stage, fun label listed => ?_⟩
    exact (sound.sure t member attached).sure _ (Or.inl todo) label listed (surely label listed)
  · intro t member operation next relpath prog completes
    obtain ⟨may, _⟩ := allowed_of sound.manned.toStaffed member prog
    obtain ⟨ctx, done, acted, own⟩ := acted_of_completed setup t.notes.1 operation relpath completes may
    obtain ⟨handle, started, succeeded⟩ := (sound.follows t member).acted ctx done acted
    exact ⟨handle, ctx, started, own, succeeded⟩

/-- In every run in which triggers wait for the startup recovery: an action is started by a thread
that has marked its item as `CleanupPending`, and once every destination of the list has been verified
and recorded as verified since the row was made; an item is completed once its action has succeeded. -/
theorem verified_first (h : History) (c : Duo)
    (tracked : Tracked (duo setup) (recording setup) Starts Waits h c) : Safe setup h c := by
  apply safe_of_sound
  exact invariant_of_tracked (duo setup) (recording setup) Starts Waits (Sound setup)
    (sound_first setup)
    (fun h c after choice sound met stepped => sound_step choice sound met stepped)
    h c tracked

/-! ## Two processes -/

def startsNext (relpath : String) : Program Unit → Bool
  | .call (.startAction ctx) _ => ctx.relpath = relpath
  | _ => false

theorem starts_of_next (relpath : String) (program : Program Unit)
    (starts : startsNext relpath program = true) :
    ∃ ctx next, program = .call (.startAction ctx) next ∧ ctx.relpath = relpath := by
  unfold startsNext at starts
  split at starts
  · exact ⟨_, _, rfl, of_decide_eq_true starts⟩
  · cases starts

def duoStart : Duo := ⟨smallWorld oneFile, [], 0⟩

/-- A process is stopped before the cleanup of its item, and the recovery of the next one has marked
the item again. -/
def untilRecovered : List Step := StartupRecovery.untilListed ++ go 4 [.asIs, .asIs]

/-- A trigger's tick completes the item beside the recovery. -/
def untilCompleted : List Step :=
  StartupRecovery.untilOvertaken ++ go 5 [.asIs, .asIs, .asIs, .scheduled .none, .asIs]

/-- Another file takes the place of the source, and the row is started over for it. -/
def untilReplaced : List Step :=
  untilCompleted ++
    [.env (.touch ["in", "a"] (some (.file [] 1))), .env (.trigger 7 false 1)] ++
    go 7 [.asIs, .asIs, .found [⟨"a", 0, 1⟩], .asIs]

theorem verified_first_recovered :
    ∃ h c, Tracked (duo (smallSetup plainCompletion)) (recording (smallSetup plainCompletion)) Starts
        Waits h c ∧
      (∃ t ∈ c.threads, startsNext "a" t.prog = true) ∧ ("a", "local") ∈ h.entries := by
  obtain ⟨h, c, tracked, found⟩ := exists_of_tracked_run (duo (smallSetup plainCompletion))
    (recording (smallSetup plainCompletion)) Starts Waits
    (fun _ c choice => DrainRuns.afterRecovery (forget Prod.snd c) choice) (fun _ _ _ met => met)
    (fun _ c => c.threads.any fun t => startsNext "a" t.prog) untilRecovered duoStart
    Relabelling.small_first (by decide +kernel)
  obtain ⟨t, member, starts⟩ := List.any_eq_true.mp found
  obtain ⟨ctx, next, prog, own⟩ := starts_of_next "a" t.prog starts
  have safe := verified_first (smallSetup plainCompletion) h c tracked
  obtain ⟨_, _, entries⟩ := safe.started t member ctx next prog
  exact ⟨h, c, tracked, ⟨t, member, starts⟩, own ▸ entries "local" (by decide)⟩

/-- A recovery that a trigger has overtaken goes on with its list, and deletes a source that has not
been delivered. -/
theorem deleted_undelivered :
    ∃ h c, Tracked (duo (smallSetup plainCompletion)) (recording (smallSetup plainCompletion)) Starts
        (fun _ _ _ => True) h c ∧
      (∃ t ∈ c.threads, startsNext "a" t.prog = true) ∧ h.entries = [] ∧
      ¬Safe (smallSetup plainCompletion) h c := by
  obtain ⟨h, c, tracked, found⟩ := exists_of_tracked_run (duo (smallSetup plainCompletion))
    (recording (smallSetup plainCompletion)) Starts (fun _ _ _ => True) (fun _ _ _ => true)
    (fun _ _ _ _ => trivial)
    (fun h c => (c.threads.any fun t => startsNext "a" t.prog) && h.entries.isEmpty)
    (untilReplaced ++ go 4 [.asIs, .asIs]) duoStart Relabelling.small_first (by decide +kernel)
  rw [Bool.and_eq_true, List.isEmpty_iff] at found
  obtain ⟨starting, none⟩ := found
  refine ⟨h, c, tracked, List.any_eq_true.mp starting, none, fun safe => ?_⟩
  obtain ⟨t, member, starts⟩ := List.any_eq_true.mp starting
  obtain ⟨ctx, next, prog, _⟩ := starts_of_next "a" t.prog starts
  obtain ⟨_, _, entries⟩ := safe.started t member ctx next prog
  have recorded := entries "local" (by decide)
  rw [none] at recorded
  cases recorded

end FileReplicator.VerifiedFirst
