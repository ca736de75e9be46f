import FileReplicator.Offspring
import FileReplicator.Relabelling

/-!
# Labels across restarts, in every life

Where the rows that a new list finds are about the destinations that it names,
what counts as verified has been verified there, and an item is completed once
every destination of the list has received it.
-/

namespace FileReplicator.RelabelledRuns

open Domain DurableStore Effects SourceActions Operations Worker Interleaving Instance Protocol Steps
open Runs Offspring Relabelling

/-- A label stands for a destination that the item has been verified on. -/
def Known (config : Config) (h : History) (p : String × String) : Prop :=
  ∀ d, config.named p.2 = some d → (p.1, d) ∈ h.received

/-! ## What an attempt records -/

/-- A delivery is recorded as verified after its verification. -/
def maySave (n : Option (String × String)) : Op → Prop
  | .store (.saveResume relpath label checkpoint) =>
      persistedDelivered (some checkpoint) ≠ none → n = some (relpath, label)
  | _ => True

def learnSaving (n : Option (String × String)) (operation : Op) (ret : Ret operation) :
    Option (String × String) :=
  (verifies operation ret).or n

def saving : Discipline Op Ret (Option (String × String)) :=
  ⟨maySave, fun _ _ => True, learnSaving⟩

def savesNothing : Op → Prop
  | .store (.saveResume _ _ _) => False
  | _ => True

theorem saving_within {α : Type} (program : Program α) (within : Within savesNothing program)
    (n : Option (String × String)) : Keeps saving program n fun _ _ => True := by
  induction program generalizing n with
  | done value => exact trivial
  | call operation next ih =>
      refine ⟨?_, fun ret _ => ih ret (within.2 ret) _⟩
      have nothing := within.1
      show maySave n operation
      unfold maySave
      split
      · exact nothing.elim
      · exact trivial

variable (setup : Setup)

theorem failed_attempt_within (ctx : AttemptCtx) (e : ReplError) :
    Within savesNothing (failedAttempt setup ctx e).run := by
  rw [failedAttempt]
  apply within_task_bind
  · exact within_always _ _ (within_perform _ _ trivial)
  intro jitter
  simp only
  split
  · apply within_task_bind
    · exact within_perform _ _ trivial
    · exact fun _ => trivial
  · apply within_task_bind
    · exact within_perform _ _ trivial
    intro _
    apply within_task_bind
    · apply within_always
      rw [abortAndClearResume]
      apply within_bind
      · exact within_perform _ _ trivial
      intro loaded
      apply within_bind
      · unfold abortLoaded
        split
        · exact within_best_effort _ _ (within_perform _ _ trivial)
        · exact trivial
      · exact fun _ => within_best_effort _ _ (within_perform _ _ trivial)
    · exact fun _ => trivial

theorem run_attempt_saves (ctx : AttemptCtx) :
    Keeps saving (runAttempt setup ctx) none fun _ _ => True := by
  rw [runAttempt]
  apply keeps_bind
  rw [runOneDest]
  apply keeps_task_bind
  refine ⟨trivial, fun loaded _ => ?_⟩
  cases loaded with
  | error e => exact ⟨trivial, fun _ _ => trivial⟩
  | ok resume =>
      apply keeps_task_bind
      apply keeps_always
      -- a delivery that stands has been verified
      have sent : Keeps saving (deliverAndVerify setup ctx resume).run none fun result after =>
          result.isOk = true → after = some (ctx.item.relpath, ctx.label) := by
        rw [deliverAndVerify]
        apply keeps_task_bind
        refine ⟨trivial, fun delivered _ => ?_⟩
        cases delivered with
        | error e => exact fun ok => by cases ok
        | ok delivered =>
            apply keeps_task_bind
            refine ⟨trivial, fun verdict _ => ?_⟩
            cases verdict with
            | error e => exact fun ok => by cases ok
            | ok done => exact fun _ => rfl
      apply keeps_mono _ _ _ _ _ sent
      intro outcome n passed
      cases outcome with
      | error e =>
          apply keeps_mono _ _ _ _ _
            (saving_within _ (failed_attempt_within setup ctx e) n)
          exact fun _ _ _ => ⟨trivial, fun _ _ => trivial⟩
      | ok delivered =>
          obtain rfl := passed rfl
          apply keeps_task_bind
          apply keeps_always
          apply keeps_best_effort
          refine ⟨fun _ => rfl, fun _ _ => ?_⟩
          apply keeps_task_bind
          refine ⟨trivial, fun recorded _ => ?_⟩
          cases recorded with
          | error e => exact ⟨trivial, fun _ _ => trivial⟩
          | ok done => exact ⟨trivial, fun _ _ => trivial⟩

/-! ## What holds in every life -/

structure Sound (config : Config) (h : History) (c : State) : Prop where
  base : Base config.setup c
  knows : ∀ t ∈ c.threads, Knows config.setup (Known config h) t.notes
  saves : ∀ t ∈ c.threads, ∀ owner ctx, t.spec = .attempt owner ctx →
    ∃ n, Keeps saving t.prog n (fun _ _ => True) ∧ ∀ p, n = some p → Known config h p
  /-- An attempt is of the item of the thread that has spawned it. -/
  owned : ∀ u ∈ c.threads, ∀ owner ctx, u.spec = .attempt owner ctx → owner < c.next ∧
    ∀ t ∈ c.threads, t.id = owner → t.notes.role = .item ctx.item.relpath
  unborn : ∀ id, c.next ≤ id → c.state.attempts id = []
  results : ∀ t ∈ c.threads, ∀ relpath, t.notes.role = .item relpath → ∀ label,
    .ok (label, .verified) ∈ c.state.attempts t.id → Known config h (relpath, label)
  verified : ∀ relpath label d, c.state.store.phase relpath label = .verified →
    h.written relpath label = some d → (relpath, d) ∈ h.received
  checkpoints : ∀ relpath label d, persistedDelivered (c.state.store.resume relpath label) ≠ none →
    h.written relpath label = some d → (relpath, d) ∈ h.received
  fits : Fits h c config

theorem tells_of_sound (config : Config) (h : History) (c : State) (sound : Sound config h c) :
    Tells config.setup (Known config h) c.state.store := by
  constructor
  · intro relpath label phase d named
    apply sound.verified relpath label d phase
    exact sound.fits.rows relpath label d named (Or.inl phase)
  · intro relpath row found owes label _ d named
    exact sound.fits.pending relpath row found owes d (config.mem_of_named label d named)

structure Called (config : Config) (c : State) (t : Running) (operation : Op) (ret : Ret operation)
    (effect : Effect World Spec) (next : Ret operation → Program Unit) : Prop where
  member : t ∈ c.threads
  prog : t.prog = .call operation next
  may : allowed config.setup t.notes operation
  did : Did config.setup t (Machine.live c) c.state operation ret effect
  /-- A record of a verified delivery is saved by a statement. -/
  recorded : ∀ relpath label, persistedDelivered (effect.state.store.resume relpath label) ≠ none →
    persistedDelivered (c.state.store.resume relpath label) ≠ none ∨
      ∃ checkpoint, operation = .store (.saveResume relpath label checkpoint) ∧
        persistedDelivered (some checkpoint) ≠ none ∧
        touches operation ret = some (relpath, label)

section Call

variable {config : Config} {h : History} {c : State} {t : Running} {operation : Op}
variable {ret : Ret operation} {effect : Effect World Spec} {next : Ret operation → Program Unit}

theorem known_note (p : String × String) (known : Known config h p) :
    Known config (note config h operation ret) p :=
  fun d named => note_received config h operation ret _ (known d named)

theorem known_verified (p : String × String) (verified : verifies operation ret = some p) :
    Known config (note config h operation ret) p :=
  fun d named => note_verified config h operation ret p.1 p.2 d verified named

theorem touches_of_marked (did : Did setup t (Machine.live c) c.state operation ret effect)
    (relpath label : String) (marked : Marked effect.state.store relpath label) :
    Marked c.state.store relpath label ∨ touches operation ret = some (relpath, label) := by
  cases did with
  | statement operation =>
      rcases marked with phase | resume
      · rcases phase_call c.state.store operation relpath label phase with before | rfl |
          ⟨error, gate, rfl⟩
        · exact Or.inl (Or.inl before)
        · exact Or.inr rfl
        · exact Or.inr rfl
      · obtain ⟨checkpoint, saved⟩ := Option.ne_none_iff_exists'.mp resume
        rcases resume_call c.state.store operation relpath label checkpoint saved with before | rfl
        · exact Or.inl (Or.inr (by rw [before]; exact Option.some_ne_none _))
        · exact Or.inr rfl
  | undelivered item l resume left error after stored =>
      by_cases mine : relpath = item.relpath ∧ label = l
      · obtain ⟨rfl, rfl⟩ := mine
        exact Or.inr rfl
      · left
        have phase : after.store.phase relpath label = c.state.store.phase relpath label := by
          rcases stored with rfl | ⟨_, _, rfl⟩ <;> rfl
        have same : after.store.resume relpath label = c.state.store.resume relpath label := by
          rcases stored with rfl | ⟨_, _, rfl⟩ <;> exact if_neg mine
        unfold Marked
        rw [← phase, ← same]
        exact marked
  | _ => exact Or.inl marked

/-- A row that owes its source action owed it before, or all its destinations are known. -/
theorem pending_of_did (did : Did setup t (Machine.live c) c.state operation ret effect)
    (may : allowed setup t.notes operation) (known : String × String → Prop)
    (knows : Knows setup known t.notes) (relpath : String) (row : Row)
    (found : effect.state.store.items relpath = some row) (owes : owing row.state = true) :
    (∃ before, c.state.store.items relpath = some before ∧ owing before.state = true) ∨
      ∀ label ∈ setup.labels, known (relpath, label) := by
  rcases owing_of_did setup t _ c.state operation ret effect did may relpath row found owes with
    before | ⟨_, surely⟩ | acting
  · exact Or.inl before
  · exact Or.inr fun label member => knows.sure _ (surely label member)
  · exact Or.inr (knows.acting relpath acting)

end Call

/-! ## After a call -/

section Settle

variable {config : Config} {h : History} {c : State} {t : Running} {operation : Op}
variable {ret : Ret operation} {effect : Effect World Spec} {next : Ret operation → Program Unit}

theorem knows_settle (sound : Sound config h c) (called : Called config c t operation ret effect next) :
    ∀ u ∈ ((engine config.setup).settle c ((engine config.setup).resumed t operation ret next)
      effect).threads, Knows config.setup (Known config (note config h operation ret)) u.notes := by
  have grows : ∀ p, Known config h p → Known config (note config h operation ret) p :=
    fun p known => known_note p known
  apply all_settle (engine config.setup) (fun _ n => Knows config.setup _ n) c t operation ret effect next
  · exact knows_learn config.setup (Known config h) _ grows t _ c.state operation ret effect called.did
      called.may (tells_of_sound config h c sound) (sound.knows t called.member)
      (sound.results t called.member) fun p verified => known_verified p verified
  · exact fun u hu _ => knows_mono config.setup _ _ u.notes grows (sound.knows u hu)
  · exact fun spec _ => knows_start config.setup _ spec

theorem saves_settle (sound : Sound config h c) (called : Called config c t operation ret effect next) :
    ∀ u ∈ ((engine config.setup).settle c ((engine config.setup).resumed t operation ret next)
      effect).threads, ∀ owner ctx, u.spec = .attempt owner ctx →
        ∃ n, Keeps saving u.prog n (fun _ _ => True) ∧
          ∀ p, n = some p → Known config (note config h operation ret) p := by
  intro u hu owner ctx spec
  rcases mem_settle (engine config.setup) c _ u effect hu with ⟨same, _⟩ |
    ⟨before, hbefore, _, same, _⟩ | ⟨new, hnew, same⟩
  · rw [same.spec] at spec
    obtain ⟨n, keeps, known⟩ := sound.saves t called.member owner ctx spec
    rw [called.prog] at keeps
    rw [same.prog]
    refine ⟨learnSaving n operation ret, keeps.2 ret trivial, fun p learned => ?_⟩
    rcases Option.or_eq_some_iff.mp learned with verified | ⟨_, before⟩
    · exact known_verified p verified
    · exact known_note p (known p before)
  · rw [same.spec] at spec
    obtain ⟨n, keeps, known⟩ := sound.saves before hbefore owner ctx spec
    rw [same.prog]
    exact ⟨n, keeps, fun p passed => known_note p (known p passed)⟩
  · obtain ⟨_, _, _, _, _, prog⟩ := mem_spawn_from (engine config.setup) _ _ new hnew
    rw [same.spec] at spec
    rw [same.prog, prog, spec]
    exact ⟨none, run_attempt_saves config.setup ctx, fun p passed => by cases passed⟩

/-- A label under which something was written in this process names its destination. -/
theorem written_settle (sound : Sound config h c)
    (called : Called config c t operation ret effect next) (relpath label : String) (d : Destination)
    (named : config.named label = some d) (marked : Marked effect.state.store relpath label) :
    (note config h operation ret).written relpath label = some d := by
  by_cases touched : touches operation ret = some (relpath, label)
  · rw [note_written config h operation ret relpath label touched]
    exact named
  · rw [note_untouched config h operation ret relpath label touched]
    rcases touches_of_marked config.setup called.did relpath label marked with before | touching
    · exact sound.fits.rows relpath label d named before
    · exact absurd touching touched

/-- A label that had something written under it for a destination still has it. -/
theorem written_before (sound : Sound config h c) (relpath label : String) (d : Destination)
    (marked : Marked c.state.store relpath label)
    (written : (note config h operation ret).written relpath label = some d) :
    h.written relpath label = some d := by
  by_cases touched : touches operation ret = some (relpath, label)
  · rw [note_written config h operation ret relpath label touched] at written
    exact sound.fits.rows relpath label d written marked
  · rw [note_untouched config h operation ret relpath label touched] at written
    exact written

theorem verified_settle (sound : Sound config h c)
    (called : Called config c t operation ret effect next) (relpath label : String) (d : Destination)
    (phase : effect.state.store.phase relpath label = .verified)
    (written : (note config h operation ret).written relpath label = some d) :
    (relpath, d) ∈ (note config h operation ret).received := by
  have old (before : c.state.store.phase relpath label = .verified) :
      (relpath, d) ∈ (note config h operation ret).received :=
    note_received config h operation ret _
      (sound.verified relpath label d before
        (written_before sound relpath label d (Or.inl before) written))
  cases called.did with
  | statement statement =>
      rcases phase_call c.state.store statement relpath label phase with before | rfl |
        ⟨error, gate, rfl⟩
      · exact old before
      · rw [note_written config h _ _ relpath label rfl] at written
        apply note_received
        rcases called.may with ⟨_, _, _, passed⟩ | ⟨_, _, _, _, passed⟩
        · exact (sound.knows t called.member).passed _ passed d written
        · exact (sound.knows t called.member).passed _ (passed rfl) d written
      · exact absurd rfl called.may.2
  | undelivered item l resume left error after stored =>
      apply old
      rcases stored with rfl | ⟨_, _, rfl⟩ <;> exact phase
  | _ => exact old phase

theorem checkpoints_settle (sound : Sound config h c)
    (called : Called config c t operation ret effect next) (relpath label : String) (d : Destination)
    (persisted : persistedDelivered (effect.state.store.resume relpath label) ≠ none)
    (written : (note config h operation ret).written relpath label = some d) :
    (relpath, d) ∈ (note config h operation ret).received := by
  rcases called.recorded relpath label persisted with before |
    ⟨checkpoint, rfl, record, touched⟩
  · have marked : Marked c.state.store relpath label := by
      right
      intro absent
      rw [absent] at before
      exact before rfl
    exact note_received config h operation ret _
      (sound.checkpoints relpath label d before (written_before sound relpath label d marked written))
  · have role := called.may
    change t.notes.role = .attempt relpath label at role
    rw [sound.base.roles t called.member] at role
    cases spec : t.spec with
    | attempt owner ctx =>
        obtain ⟨n, keeps, known⟩ := sound.saves t called.member owner ctx spec
        rw [called.prog] at keeps
        rw [note_written config h _ _ relpath label touched] at written
        exact note_received config h _ _ _ (known _ (keeps.1 record) d written)
    | _ => rw [spec] at role; cases role

theorem pending_settle (sound : Sound config h c)
    (called : Called config c t operation ret effect next) (relpath : String) (row : Row)
    (found : effect.state.store.items relpath = some row) (owes : owing row.state = true)
    (d : Destination) (member : d ∈ config.dests) :
    (relpath, d) ∈ (note config h operation ret).received := by
  apply note_received
  rcases pending_of_did config.setup called.did called.may (Known config h)
    (sound.knows t called.member) relpath row found owes with ⟨before, rows, owed⟩ | known
  · exact sound.fits.pending relpath before rows owed d member
  · obtain ⟨label, hlabel, named⟩ := config.label_of_mem d member
    exact known label hlabel d named

theorem called_of_calls (choice : Step) (base : Base config.setup c) (own : Partial choice)
    (calls : Calls (engine config.setup) c t operation ret effect next choice) :
    Called config c t operation ret effect next := by
  have did := calls_did config.setup c t operation ret effect next choice calls
  refine ⟨calls.member, calls.prog,
    calls_allowed (engine config.setup) c t operation ret effect next choice calls base.orderly, did,
    fun relpath label persisted => ?_⟩
  obtain ⟨answer, rfl, performed⟩ := calls.choice
  cases operation with
  | store operation =>
      cases did with
      | statement _ =>
          change persistedDelivered ((callStore c.state.store operation).2.resume relpath label) ≠
            none at persisted
          have there : (callStore c.state.store operation).2.resume relpath label ≠ none := by
            intro absent
            rw [absent] at persisted
            exact persisted rfl
          obtain ⟨checkpoint, saved⟩ := Option.ne_none_iff_exists'.mp there
          rcases resume_call c.state.store operation relpath label checkpoint saved with before | rfl
          · rw [saved, ← before] at persisted
            exact Or.inl persisted
          · rw [saved] at persisted
            exact Or.inr ⟨checkpoint, rfl, persisted, rfl⟩
      | refused _ _ => exact Or.inl persisted
  | deliver item l resume =>
      left
      change (delivers config.setup c.state item l answer).map (fun out => (out.1, changes out.2)) =
        some (ret, effect) at performed
      obtain ⟨⟨_, after⟩, delivered, both⟩ := Option.map_eq_some_iff.mp performed
      cases both
      cases answer with
      | asIs =>
          obtain ⟨bytes, _, same⟩ := Option.map_eq_some_iff.mp delivered
          cases same
          exact persisted
      | failed error published left =>
          have stored : after.store = c.state.store.setResume item.relpath l left := by
            simp only [delivers] at delivered
            split at delivered
            · obtain ⟨bytes, _, same⟩ := Option.map_eq_some_iff.mp delivered
              cases same
              rfl
            · cases delivered
              rfl
          change persistedDelivered (after.store.resume relpath label) ≠ none at persisted
          rw [stored] at persisted
          simp only [Store.setResume] at persisted
          split at persisted
          · exact absurd own persisted
          · exact persisted
      | _ => cases delivered
  | _ =>
      left
      cases did <;> exact persisted

theorem sound_settle (choice : Step) (sound : Sound config h c) (own : Partial choice)
    (calls : Calls (engine config.setup) c t operation ret effect next choice) :
    Sound config (note config h operation ret)
      ((engine config.setup).settle c ((engine config.setup).resumed t operation ret next) effect) := by
  have called := called_of_calls choice sound.base own calls
  have family : Family c := ⟨sound.owned, sound.unborn⟩
  constructor
  · exact base_settle config.setup c sound.base t operation ret effect next choice calls
  · exact knows_settle sound called
  · exact saves_settle sound called
  · exact (family_settle sound.base called.member called.may called.did family).owned
  · exact (family_settle sound.base called.member called.may called.did family).unborn
  · apply reported_settle sound.base called.member called.may called.did family (Known config h)
    · exact fun p known => known_note p known
    · exact sound.results
    · exact fun _ ctx _ _ label _ listed => (sound.knows t called.member).sure _ listed
  · exact verified_settle sound called
  · exact checkpoints_settle sound called
  · exact ⟨written_settle sound called, pending_settle sound called⟩

end Settle

/-! ## Every life -/

section Lives

variable {config : Config} {h : History} {c : State}

theorem sound_without (sound : Sound config h c) (id : Nat) :
    Sound config h ((engine config.setup).without c id) := by
  obtain ⟨owned, unborn⟩ := family_without ⟨sound.owned, sound.unborn⟩ id
  constructor
  · exact base_without config.setup c sound.base id
  · exact all_without (engine config.setup) (fun _ n => Knows config.setup _ n) c id sound.knows
  · intro u hu owner ctx spec
    obtain ⟨before, hbefore, _, same⟩ := mem_without (engine config.setup) c id u hu
    rw [same.prog]
    exact sound.saves before hbefore owner ctx (same.spec.symm.trans spec)
  · exact owned
  · exact unborn
  · exact reported_without (Known config h) sound.results id
  · exact sound.verified
  · exact sound.checkpoints
  · exact ⟨sound.fits.rows, sound.fits.pending⟩

theorem sound_absorb (sound : Sound config h c) (event : Event) (reaction : Reaction World Spec)
    (reacted : react c.state (Machine.live c) event = some reaction) :
    Sound config h ((engine config.setup).absorb c reaction) := by
  obtain ⟨store, _, spawned⟩ := react_base _ _ event reaction reacted
  obtain ⟨owned, unborn⟩ := family_absorb event reaction reacted ⟨sound.owned, sound.unborn⟩
  constructor
  · exact base_absorb config.setup c sound.base event reaction reacted
  · exact all_absorb (engine config.setup) (fun _ n => Knows config.setup _ n) c reaction sound.knows
      fun spec _ => knows_start config.setup _ spec
  · intro u hu owner ctx spec
    rcases mem_absorb (engine config.setup) c reaction u hu with ⟨_, before, hbefore, same⟩ |
      ⟨new, hnew, same⟩
    · rw [same.prog]
      exact sound.saves before hbefore owner ctx (same.spec.symm.trans spec)
    · -- what is started recovers or ticks
      have role := spawned new.spec (mem_spawn_from (engine config.setup) _ _ new hnew).1
      rw [← same.spec, spec] at role
      rcases role with role | role <;> cases role
  · exact owned
  · exact unborn
  · exact reported_absorb event reaction reacted (Known config h) sound.results
  · show ∀ relpath label d, reaction.state.store.phase relpath label = .verified → _
    rw [store]
    exact sound.verified
  · show ∀ relpath label d, persistedDelivered (reaction.state.store.resume relpath label) ≠ none → _
    rw [store]
    exact sound.checkpoints
  · constructor
    · show ∀ relpath label d, config.named label = some d →
        Marked reaction.state.store relpath label → _
      rw [store]
      exact sound.fits.rows
    · show ∀ relpath row, reaction.state.store.items relpath = some row → _
      rw [store]
      exact sound.fits.pending

theorem sound_step (after : State) (choice : Step) (sound : Sound config h c) (own : Partial choice)
    (stepped : (engine config.setup).step c choice = some after) :
    Sound config ((record config).follow c choice after h) after := by
  rcases step_cases (engine config.setup) c after choice stepped with
    ⟨t, operation, ret, effect, next, calls, rfl⟩ | ⟨id, rfl, _, rfl⟩ |
    ⟨event, reaction, rfl, reacted, rfl⟩
  · have settled := sound_settle choice sound own calls
    obtain ⟨answer, rfl, performed⟩ := calls.choice
    have remembered : (record config).follow c (.run t.id answer)
        ((engine config.setup).settle c ((engine config.setup).resumed t operation ret next) effect) h =
        note config h operation ret := by
      have answered : perform config.setup c.state t (Machine.live c) operation answer =
          some (ret, effect) := performed
      rw [record, follow_call _ _ _ c _ sound.base.distinct t calls.member operation next calls.prog,
        heed, answered]
    rw [remembered]
    exact settled
  · exact sound_without sound id
  · exact sound_absorb sound event reaction reacted

theorem sound_first (first : First c) : Sound config History.blank c := by
  have nobody : ∀ t, t ∉ c.threads := by
    intro t
    rw [first.begins.threads]
    exact List.not_mem_nil
  constructor
  · exact base_begins config.setup c first.begins
  · exact fun t member => absurd member (nobody t)
  · exact fun t member => absurd member (nobody t)
  · exact fun t member => absurd member (nobody t)
  · exact fun id _ => first.begins.attempts id
  · exact fun t member => absurd member (nobody t)
  · exact fun relpath label d phase => absurd (Or.inl phase) (first.unmarked relpath label)
  · intro relpath label d _ written
    cases written
  · constructor
    · exact fun relpath label d _ marked => absurd marked (first.unmarked relpath label)
    · intro relpath row found owes
      rw [first.settled relpath row found] at owes
      cases owes

/-- A process that stops leaves what the next one may rely on, if its list fits. -/
theorem sound_stopped (sound : Sound config h c) (next : Config)
    (objects : String → String → Option Bytes) (fits : Fits h c next) :
    Sound next h (stopped c objects) := by
  constructor
  · constructor
    · exact ⟨(fun t member => by cases member), List.nodup_nil⟩
    · exact fun t member => by cases member
    · exact fun t member => by cases member
    · exact fun t member => by cases member
    · exact ⟨sound.base.keyed.nodup, sound.base.keyed.listed⟩
    · exact fun t member => by cases member
    · exact fun id result member => by cases member
  · exact fun t member => by cases member
  · exact fun t member => by cases member
  · exact fun t member => by cases member
  · exact fun id _ => rfl
  · exact fun t member => by cases member
  · exact sound.verified
  · exact sound.checkpoints
  · exact ⟨fits.rows, fits.pending⟩

theorem sound_of_lived (lived : Lived Fits config h c) : Sound config h c := by
  induction lived with
  | start config c first => exact sound_first first
  | step config h c after choice _ own stepped ih => exact sound_step after choice ih own stepped
  | restart config next h c objects _ fits ih => exact sound_stopped ih next objects fits

/-- In every life whose restarts find rows that fit their list: a destination that counts as
verified has been verified, a checkpoint is of the destination it is used for, and an item is
completed once every destination of the list has received it. -/
theorem labels_survive (lived : Lived Fits config h c) :
    (∀ relpath label d, config.named label = some d →
      c.state.store.phase relpath label = .verified → (relpath, d) ∈ h.received) ∧
    (∀ relpath label d checkpoint, config.named label = some d →
      c.state.store.resume relpath label = some checkpoint →
        h.written relpath label = some d ∧
          (persistedDelivered (some checkpoint) ≠ none → (relpath, d) ∈ h.received)) ∧
    (∀ t ∈ c.threads, ∀ operation next relpath, t.prog = .call (.store operation) next →
      persists .completed operation = some relpath →
        ∀ d ∈ config.dests, (relpath, d) ∈ h.received) := by
  have sound := sound_of_lived lived
  refine ⟨?_, ?_, ?_⟩
  · intro relpath label d named phase
    exact (tells_of_sound config h c sound).verified relpath label phase d named
  · intro relpath label d checkpoint named saved
    have written := sound.fits.rows relpath label d named
      (Or.inr (by rw [saved]; exact Option.some_ne_none _))
    refine ⟨written, fun record => ?_⟩
    rw [← saved] at record
    exact sound.checkpoints relpath label d record written
  · intro t member operation next relpath prog completes d listed
    have keeps := sound.base.orderly t member
    rw [prog] at keeps
    obtain ⟨ctx, done, acted, rfl⟩ := acted_of_completed config.setup t.notes operation relpath
      completes keeps.1
    obtain ⟨label, hlabel, named⟩ := config.label_of_mem d listed
    exact (sound.knows t member).acting ctx.relpath (by rw [acted]; rfl) label hlabel d named

theorem fits_of_named (sound : Sound config h c) (next : Config)
    (names : ∀ label d, next.named label = some d → config.named label = some d) : Fits h c next := by
  constructor
  · exact fun relpath label d named => sound.fits.rows relpath label d (names label d named)
  · intro relpath row found owes d member
    obtain ⟨label, _, named⟩ := next.label_of_mem d member
    exact sound.fits.pending relpath row found owes d
      (config.mem_of_named label d (names label d named))

end Lives

/-! ## Lives on fixed inputs -/

section Processes

variable (edits : History → State → Config → Prop)

def partialStep : Step → Bool
  | .run _ (.failed _ _ left) => (persistedDelivered left).isNone
  | _ => true

def process (config : Config) (choices : List Step) (h : History) (c : State) :
    Option (History × State) :=
  trackedRun (engine config.setup) (record config) (fun _ _ choice => partialStep choice) choices h c

theorem partial_of_step (choice : Step) (check : partialStep choice = true) : Partial choice := by
  unfold partialStep at check
  split at check
  · exact Option.isNone_iff_eq_none.mp check
  · rename_i other
    unfold Partial
    split
    · exact absurd rfl (other _ _ _ _)
    · exact trivial

theorem lived_process (config : Config) (choices : List Step) (h last : History) (c after : State)
    (lived : Lived edits config h c) (ran : process config choices h c = some (last, after)) :
    Lived edits config last after := by
  induction choices generalizing h c with
  | nil =>
      cases ran
      exact lived
  | cons choice rest ih =>
      rw [process, trackedRun] at ran
      split at ran
      · rename_i own
        obtain ⟨middle, stepped, later⟩ := Option.bind_eq_some_iff.mp ran
        exact ih _ middle (.step config h c middle choice lived (partial_of_step choice own) stepped)
          later
      · cases ran

/-- A process under one list, and one under another. -/
def twoProcesses (config next : Config) (first second : List Step)
    (objects : String → String → Option Bytes) (c : State) : Option (History × State) :=
  (process config first History.blank c).bind fun middle =>
    process next second middle.1 (stopped middle.2 objects)

theorem exists_of_processes (config next : Config) (first second : List Step)
    (objects : String → String → Option Bytes) (c : State) (begins : First c)
    (edited : ∀ h middle, Lived edits config h middle → edits h middle next)
    (wanted : History → State → Bool)
    (found : (twoProcesses config next first second objects c).any (fun r => wanted r.1 r.2) = true) :
    ∃ h after, Lived edits next h after ∧ wanted h after = true := by
  obtain ⟨⟨h, after⟩, ran, holds⟩ := (Option.any_eq_true _ _).mp found
  obtain ⟨⟨between, middle⟩, early, late⟩ := Option.bind_eq_some_iff.mp ran
  have lived := lived_process edits config first _ between c middle (.start config c begins) early
  have again := Lived.restart config next between middle objects lived (edited between middle lived)
  exact ⟨h, after, lived_process edits next second between h _ after again late, holds⟩

end Processes

def smallConfig (dests : List Destination) : Config :=
  ⟨{ smallSetup plainCompletion with dests := dests.map Destination.kind }, dests, rfl⟩

/-- The file is delivered to the first of two destinations, and the second is down. -/
def oneOfTwo : List Step :=
  [.env (.boot 0)] ++ go 0 [.asIs, .asIs] ++ [.env (.periodic 0 1)] ++
    go 1 [.asIs, .asIs, .found [⟨"a", 0, 0⟩], .asIs, .asIs, .asIs, .asIs, .scheduled (.all false),
      .asIs, .asIs] ++
    go 2 [.asIs, .asIs] ++ go 3 [.asIs, .asIs, .asIs, .asIs, .asIs, .asIs] ++
    go 4 [.asIs, .failed (.transient "down") false none, .number 0, .asIs, .asIs] ++
    go 2 [.number 0, .number 0, .asIs] ++ go 1 [.asIs, .asIs]

/-- The next process delivers to what it takes to be left, and deletes the source. -/
def theOther : List Step :=
  [.env (.boot 1000000)] ++ go 5 [.asIs, .asIs] ++ [.env (.periodic 1000000 1)] ++
    go 6 [.asIs, .asIs, .found [], .asIs, .asIs, .asIs, .asIs, .scheduled (.all false), .asIs,
      .asIs] ++
    go 7 [.asIs, .asIs] ++ go 8 [.asIs, .asIs, .asIs, .asIs, .asIs, .asIs] ++
    go 7 [.number 0, .asIs, .asIs, .asIs, .asIs] ++ go 9 [.disk (.asIs 0), .disk (.asIs 0), .asIs] ++
    go 7 [.asIs]

def completesNext (relpath : String) : Program Unit → Bool
  | .call (.store operation) _ => persists .completed operation = some relpath
  | _ => false

theorem completes_of_next (relpath : String) (program : Program Unit)
    (completes : completesNext relpath program = true) :
    ∃ operation next, program = .call (.store operation) next ∧
      persists .completed operation = some relpath := by
  unfold completesNext at completes
  split at completes
  · exact ⟨_, _, rfl, of_decide_eq_true completes⟩
  · cases completes

def bucketA : Destination := ⟨.s3, "bucket-a"⟩

def bucketB : Destination := ⟨.s3, "bucket-b"⟩

def folder : Destination := ⟨.local, "/mnt/b"⟩

def holdsEmpty (label : String) : String → String → Option Bytes :=
  fun _ l => if l = label then some [] else none

/-- A list of two kinds may be reordered. -/
theorem labels_survive_reordering :
    ∃ h c, Lived Fits (smallConfig [folder, bucketA]) h c ∧
      (∃ t ∈ c.threads, completesNext "a" t.prog = true) ∧
      ∀ d ∈ [folder, bucketA], ("a", d) ∈ h.received := by
  have names : ∀ label d, (smallConfig [folder, bucketA]).named label = some d →
      (smallConfig [bucketA, folder]).named label = some d := by
    intro label d named
    obtain ⟨before, after, entries, _⟩ := List.lookup_eq_some_iff.mp named
    have entry : (label, d) ∈ [("local", folder), ("s3", bucketA)] := by
      change [("local", folder), ("s3", bucketA)] = _ at entries
      rw [entries]
      exact List.mem_append_right _ List.mem_cons_self
    rcases List.mem_cons.mp entry with same | entry
    · cases same
      rfl
    · cases List.mem_singleton.mp entry
      rfl
  obtain ⟨h, c, lived, completing⟩ := exists_of_processes Fits (smallConfig [bucketA, folder])
    (smallConfig [folder, bucketA]) oneOfTwo theOther (holdsEmpty "s3") (smallStart oneFile)
    small_first (fun h middle lived => fits_of_named (sound_of_lived lived) _ names)
    (fun _ c => c.threads.any fun t => completesNext "a" t.prog) (by decide +kernel)
  obtain ⟨t, member, completes⟩ := List.any_eq_true.mp completing
  obtain ⟨operation, next, prog, persists⟩ := completes_of_next "a" t.prog completes
  exact ⟨h, c, lived, ⟨t, member, completes⟩,
    (labels_survive lived).2.2 t member operation next "a" prog persists⟩

/-- Two buckets change places in the list. The second has the label of the first, is taken to be
verified and is skipped, and the source is deleted. -/
theorem bucket_skipped :
    ∃ h c, Lived (fun _ _ _ => True) (smallConfig [bucketB, bucketA]) h c ∧
      (∃ t ∈ c.threads, completesNext "a" t.prog = true) ∧
      (smallConfig [bucketB, bucketA]).named "s3#1" = some bucketB ∧
      c.state.store.phase "a" "s3#1" = .verified ∧ ("a", bucketB) ∉ h.received ∧
      c.state.tree ["in", "a"] = none := by
  obtain ⟨h, c, lived, found⟩ := exists_of_processes (fun _ _ _ => True)
    (smallConfig [bucketA, bucketB]) (smallConfig [bucketB, bucketA]) oneOfTwo theOther
    (holdsEmpty "s3#2") (smallStart oneFile) small_first (fun _ _ _ => trivial)
    (fun h c => (c.threads.any fun t => completesNext "a" t.prog) &&
      (c.state.store.phase "a" "s3#1" = .verified && ("a", bucketB) ∉ h.received &&
        (c.state.tree ["in", "a"]).isNone)) (by decide +kernel)
  rw [Bool.and_eq_true, Bool.and_eq_true, Bool.and_eq_true, decide_eq_true_eq,
    decide_eq_true_eq] at found
  obtain ⟨completing, ⟨phase, missing⟩, gone⟩ := found
  exact ⟨h, c, lived, List.any_eq_true.mp completing, by decide, phase, missing,
    Option.isNone_iff_eq_none.mp gone⟩

end FileReplicator.RelabelledRuns
