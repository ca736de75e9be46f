import FileReplicator.Runs
import FileReplicator.TimedTicks

/-!
# Deactivation

A tick asks once, at its start, whether the instance is active. A deactivation
holds at once where no tick past that question has anything left to take; one that
finds such a tick does not stop it.
-/

namespace FileReplicator.Deactivation

open Effects Interleaving Scheduling TimedTicks
open Operations (Setup)

/-- A tick has been told that the instance is active. -/
def learn : Bool → (operation : Op) → Ret operation → Bool
  | told, .scheduled (.inner .isActive), active => told || active
  | told, _, _ => told

def discipline : Discipline Op Ret Bool where
  allowed := fun told operation => takes operation = true → told = true
  possible := fun _ _ => True
  learn := learn

theorem learn_told (operation : Op) (ret : Ret operation) : learn true operation ret = true := by
  unfold learn
  split
  · rfl
  · rfl

theorem told_keeps {α : Type} (program : TimedTicks.Program α) :
    Keeps discipline program true fun _ _ => True := by
  induction program with
  | done value => exact trivial
  | call operation next ih =>
      refine ⟨fun _ => rfl, fun ret _ => ?_⟩
      show Keeps discipline (next ret) (learn true operation ret) _
      rw [learn_told]
      exact ih ret

variable (setup : Setup)

theorem main_keeps (spec : ScheduledTicks.Spec) :
    Keeps discipline (main setup spec) false fun _ _ => True := by
  rw [main, ScheduledTicks.runTick, Prog.into_bind]
  apply keeps_bind
  refine ⟨fun taking => (by cases taking), fun active _ => ?_⟩
  cases active with
  | true => exact told_keeps _
  | false => exact trivial

variable (schedule : Schedule)

abbrev ticks := machine setup schedule discipline fun _ => false

/-- Whatever its calls return, the program claims nothing and starts nothing. -/
def TakesNothing : TimedTicks.Program Unit → Prop
  | .done _ => True
  | .call operation next => takes operation = false ∧ ∀ ret, TakesNothing (next ret)

theorem takes_next_nothing (program : TimedTicks.Program Unit) (nothing : TakesNothing program) :
    takesNext program = false := by
  cases program with
  | done value => rfl
  | call operation next => exact nothing.1

/-- A deactivation comes when no tick that is past its question has anything left to take. -/
def Settled (c : State Bool) : TimedTicks.Choice → Prop
  | .env (.setActive false) => ∀ t ∈ c.threads, t.notes = true → TakesNothing t.prog
  | _ => True

/-- Whoever was told that the instance is active is right, or takes nothing any more. -/
structure Sound (c : State Bool) : Prop where
  orderly : Orderly (ticks setup schedule) c
  told : ∀ t ∈ c.threads, t.notes = true → c.state.active = true ∨ TakesNothing t.prog

theorem sound_settle (c : State Bool) (sound : Sound setup schedule c)
    (t : Thread Op Ret ScheduledTicks.Spec Bool) (operation : Op) (ret : Ret operation)
    (effect : Effect World ScheduledTicks.Spec) (next : Ret operation → Prog Op Ret Unit)
    (choice : TimedTicks.Choice)
    (calls : Calls (ticks setup schedule) c t operation ret effect next choice) :
    Sound setup schedule ((ticks setup schedule).settle c
      ((ticks setup schedule).resumed t operation ret next) effect) := by
  obtain ⟨answer, _, performed⟩ := calls.choice
  have plain := plain_of_perform schedule t.id t.spec c.state operation answer ret effect performed
  constructor
  · apply orderly_settle (ticks setup schedule) c t operation ret effect next choice calls sound.orderly
      trivial
    intro spec spawned
    rw [plain.alone] at spawned
    cases spawned
  · intro u hu notes
    rw [show ((ticks setup schedule).settle c ((ticks setup schedule).resumed t operation ret next)
      effect).state.active = c.state.active from plain.active]
    rcases mem_settle (ticks setup schedule) c _ u effect hu with ⟨same, _⟩ |
      ⟨before, hbefore, _, same, _⟩ | ⟨new, hnew, _⟩
    · have goes_on : t.notes = true → c.state.active = true ∨ TakesNothing u.prog := by
        intro was
        refine (sound.told t calls.member was).imp_right fun nothing => ?_
        rw [calls.prog] at nothing
        rw [same.prog]
        exact nothing.2 ret
      rw [same.notes] at notes
      change learn t.notes operation ret = true at notes
      unfold learn at notes
      split at notes
      · rw [Bool.or_eq_true] at notes
        rcases notes with was | now
        · exact goes_on was
        · cases performed
          exact Or.inl now
      · exact goes_on notes
    · rw [same.prog]
      exact sound.told before hbefore (same.notes ▸ notes)
    · rw [plain.alone] at hnew
      cases hnew

theorem sound_absorb (c : State Bool) (sound : Sound setup schedule c) (event : Event)
    (reaction : Reaction World ScheduledTicks.Spec) (met : Settled c (.env event))
    (reacted : react c.state event = some reaction) :
    Sound setup schedule ((ticks setup schedule).absorb c reaction) := by
  constructor
  · apply orderly_absorb (ticks setup schedule) c reaction sound.orderly
    exact fun spec _ => main_keeps setup spec
  · intro u hu notes
    rcases mem_absorb (ticks setup schedule) c reaction u hu with ⟨_, before, hbefore, same⟩ |
      ⟨new, hnew, same⟩
    · rw [same.notes] at notes
      rw [same.prog]
      have was := sound.told before hbefore notes
      cases event with
      | setActive active =>
          cases reacted
          cases active with
          | true => exact Or.inl rfl
          | false => exact Or.inr (met before hbefore notes)
      | _ => cases reacted; exact was
    · obtain ⟨_, _, _, _, started, _⟩ := mem_spawn_from (ticks setup schedule) _ _ new hnew
      rw [same.notes, started] at notes
      cases notes

theorem sound_step (c after : State Bool) (choice : TimedTicks.Choice)
    (sound : Sound setup schedule c) (met : Settled c choice)
    (stepped : (ticks setup schedule).step c choice = some after) : Sound setup schedule after := by
  rcases step_cases (ticks setup schedule) c after choice stepped with
    ⟨t, operation, ret, effect, next, calls, rfl⟩ | ⟨id, _, _, rfl⟩ |
    ⟨event, reaction, rfl, reacted, rfl⟩
  · exact sound_settle setup schedule c sound t operation ret effect next choice calls
  · refine ⟨orderly_without _ c id sound.orderly, fun u hu notes => ?_⟩
    obtain ⟨before, hbefore, _, same⟩ := mem_without (ticks setup schedule) c id u hu
    rw [same.prog]
    exact sound.told before hbefore (same.notes ▸ notes)
  · exact sound_absorb setup schedule c sound event reaction met reacted

theorem sound_begins (c : State Bool) (begins : Begins c) : Sound setup schedule c := by
  constructor
  · intro t member
    rw [begins.threads] at member
    cases member
  · intro t member
    rw [begins.threads] at member
    cases member

/-- In a run whose deactivations find no tick that is past its question and has something left to
take, nothing is claimed and nothing is started while the instance is inactive. -/
theorem inactive_takes_nothing (c : State Bool)
    (reached : Reached (ticks setup schedule) Begins Settled c) (inactive : c.state.active = false) :
    ∀ t ∈ c.threads, takesNext t.prog = false := by
  have sound := invariant_of_reached (ticks setup schedule) Begins Settled (Sound setup schedule)
    (sound_begins setup schedule) (fun c after choice => sound_step setup schedule c after choice) c
    reached
  intro t member
  cases told : t.notes with
  | true =>
      rcases sound.told t member told with active | nothing
      · rw [inactive] at active
        cases active
      · exact takes_next_nothing t.prog nothing
  | false =>
      rw [Bool.eq_false_iff]
      intro taking
      have keeps := sound.orderly t member
      unfold takesNext at taking
      split at taking
      · rename_i operation next prog
        rw [prog, told] at keeps
        cases keeps.1 taking
      · cases taking

/-- One tick replicates a file and is about to give back its lock as the instance is deactivated;
then the next tick asks. -/
def betweenTicks : List TimedTicks.Choice :=
  [.env (.periodic 1)] ++ goes 0 11 [oneItem] ++ [.env (.setActive false)] ++ goes 0 1 [oneItem] ++
    [.env (.periodic 1)]

/-- The file is claimed, the instance is deactivated, the file gets its slot. -/
def amidBatch : List TimedTicks.Choice :=
  [.env (.periodic 1)] ++ goes 0 8 [oneItem] ++ [.env (.setActive false)] ++ goes 0 1 [oneItem]

abbrev smallTicks := ticks (Runs.smallSetup Runs.plainCompletion) .immediate

def leaves : TimedTicks.Program Unit → Bool
  | .call (.scheduled .unlock) next => (next ()).isDone
  | _ => false

theorem nothing_of_leaves (program : TimedTicks.Program Unit) (last : leaves program = true) :
    TakesNothing program := by
  unfold leaves at last
  split at last
  · rename_i next
    refine ⟨rfl, fun ret => ?_⟩
    have ended : (next ret).isDone = true := last
    cases rest : next ret with
    | done value => trivial
    | call operation later =>
        rw [rest] at ended
        cases ended
  · cases last

def settled (c : State Bool) : TimedTicks.Choice → Bool
  | .env (.setActive false) => c.threads.all fun t => !t.notes || leaves t.prog
  | _ => true

theorem settled_sound (c : State Bool) (choice : TimedTicks.Choice)
    (check : settled c choice = true) : Settled c choice := by
  unfold settled at check
  split at check
  · intro t member told
    have here := List.all_eq_true.mp check t member
    rw [told] at here
    exact nothing_of_leaves t.prog here
  · rename_i other
    unfold Settled
    split
    · exact absurd rfl other
    · exact trivial

theorem inactive_takes_nothing_between_ticks :
    ∃ c, Reached smallTicks Begins Settled c ∧ c.state.active = false ∧ c.threads.length = 1 ∧
      ∀ t ∈ c.threads, takesNext t.prog = false := by
  obtain ⟨c, reached, here⟩ := exists_of_run smallTicks Begins Settled settled settled_sound
    (fun c => !c.state.active && c.threads.length = 1) betweenTicks (smallStart Bool)
    (small_begins Bool) (by decide)
  rw [Bool.and_eq_true, decide_eq_true_eq] at here
  have inactive : c.state.active = false := by simpa using here.1
  exact ⟨c, reached, inactive, here.2, inactive_takes_nothing _ _ c reached inactive⟩

/-- The item starts although the instance has been deactivated. -/
theorem started_inactive :
    ∃ c, Reached smallTicks Begins (fun _ _ => True) c ∧ c.state.active = false ∧
      (∃ t ∈ c.threads, takesNext t.prog = true) ∧
      (smallTicks.step c (.run 0 (finding [oneItem]))).isSome = true := by
  obtain ⟨c, reached, here⟩ := exists_of_run smallTicks Begins (fun _ _ => True) (fun _ _ => true)
    (fun _ _ _ => trivial)
    (fun c => !c.state.active && c.threads.any (fun t => takesNext t.prog) &&
      (smallTicks.step c (.run 0 (finding [oneItem]))).isSome) amidBatch (smallStart Bool)
    (small_begins Bool) (by decide)
  rw [Bool.and_eq_true, Bool.and_eq_true] at here
  obtain ⟨⟨inactive, taking⟩, stepped⟩ := here
  exact ⟨c, reached, by simpa using inactive, List.any_eq_true.mp taking, stepped⟩

end FileReplicator.Deactivation
