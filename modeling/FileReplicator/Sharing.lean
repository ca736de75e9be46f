import Mathlib.Logic.Function.Basic
import FileReplicator.Interleaving

/-!
# Machines that share a state

Any number of machines over one state, of which each has a view of its own. Where
a call does to the view of its machine what the machine would do by itself and what
may come to it from outside anyway, and to the others no more than the latter, every
run of them all is, to each of them, a run of its own.
-/

namespace FileReplicator.Sharing

open Effects Interleaving

variable {Name Op : Type} {Ret : Op → Type} {Shared State Spec Notes Answer Env : Type}

/-- Machines as they are by themselves, and what their calls and events do to the shared state. -/
structure System (Name Op : Type) (Ret : Op → Type)
    (Shared State Spec Notes Answer Env : Type) where
  alone : Name → Machine Op Ret State Spec Notes Answer Env
  perform : Name → Thread Op Ret Spec Notes → List Spec → Shared → (operation : Op) → Answer →
    Option (Ret operation × Effect Shared Spec)
  react : Name → List Spec → Shared → Env → Option (Reaction Shared Spec)
  view : Shared → Name → State

structure Joint (Name Op : Type) (Ret : Op → Type) (Shared Spec Notes : Type) where
  shared : Shared
  threads : Name → List (Thread Op Ret Spec Notes)
  next : Name → Nat

section Runs

variable [DecidableEq Name] (s : System Name Op Ret Shared State Spec Notes Answer Env)

namespace System

def among (name : Name) : Machine Op Ret Shared Spec Notes Answer Env where
  discipline := (s.alone name).discipline
  finished := (s.alone name).finished
  main := (s.alone name).main
  start := (s.alone name).start
  owner := (s.alone name).owner
  perform := s.perform name
  react := s.react name

def seen (j : Joint Name Op Ret Shared Spec Notes) (name : Name) : Config Op Ret State Spec Notes :=
  ⟨s.view j.shared name, j.threads name, j.next name⟩

def step (j : Joint Name Op Ret Shared Spec Notes) (name : Name) (choice : Choice Answer Env) :
    Option (Joint Name Op Ret Shared Spec Notes) :=
  ((s.among name).step ⟨j.shared, j.threads name, j.next name⟩ choice).map fun after =>
    { shared := after.state
      threads := Function.update j.threads name after.threads
      next := Function.update j.next name after.next }

omit [DecidableEq Name] in
theorem spawn_from_among (name : Name) (id : Nat) (specs : List Spec) :
    (s.among name).spawnFrom id specs = (s.alone name).spawnFrom id specs := by
  induction specs generalizing id with
  | nil => rfl
  | cons spec rest ih => exact congrArg (List.cons _) (ih (id + 1))

def run : Joint Name Op Ret Shared Spec Notes → List (Name × Choice Answer Env) →
    Option (Joint Name Op Ret Shared Spec Notes)
  | j, [] => some j
  | j, turn :: rest => (s.step j turn.1 turn.2).bind fun after => run after rest

end System

/-- Events from outside that lead from one state to another and do nothing else. -/
inductive Drift (m : Machine Op Ret State Spec Notes Answer Env) (outside : Env → Prop) :
    State → State → Prop where
  | stay (state : State) : Drift m outside state state
  | move (state middle last : State) (event : Env) (out : outside event)
      (reacts : ∀ live, m.react live state event = some ⟨middle, false, []⟩)
      (later : Drift m outside middle last) : Drift m outside state last

theorem drift_trans (m : Machine Op Ret State Spec Notes Answer Env) (outside : Env → Prop)
    (first middle last : State) (before : Drift m outside first middle)
    (after : Drift m outside middle last) : Drift m outside first last := by
  induction before with
  | stay state => exact after
  | move state middle last event out reacts later ih =>
      exact .move state middle _ event out reacts (ih after)

/-- A call or an event of one machine is to that machine what it would be by itself, with something
from outside on top, and to the others something from outside. -/
structure Faithful (outside : Env → Prop) (sound : Shared → Prop) : Prop where
  calls : ∀ name t live shared operation answer ret effect, sound shared →
    s.perform name t live shared operation answer = some (ret, effect) →
      (∃ own, (s.alone name).perform t live (s.view shared name) operation answer =
          some (ret, ⟨own, effect.spawned, effect.fate⟩) ∧
        Drift (s.alone name) outside own (s.view effect.state name)) ∧
        sound effect.state ∧
        ∀ other, other ≠ name →
          Drift (s.alone other) outside (s.view shared other) (s.view effect.state other)
  events : ∀ name live shared event reaction, sound shared →
    s.react name live shared event = some reaction →
      (∃ own, (s.alone name).react live (s.view shared name) event =
          some ⟨own, reaction.stops, reaction.spawned⟩ ∧
        Drift (s.alone name) outside own (s.view reaction.state name)) ∧
        sound reaction.state ∧
        ∀ other, other ≠ name →
          Drift (s.alone other) outside (s.view shared other) (s.view reaction.state other)

inductive Woven (outside : Env → Prop) :
    List (Choice Answer Env) → List (Choice Answer Env) → Prop where
  | done : Woven outside [] []
  | own (choice : Choice Answer Env) (turns all : List (Choice Answer Env))
      (later : Woven outside turns all) : Woven outside (choice :: turns) (choice :: all)
  | foreign (event : Env) (out : outside event) (turns all : List (Choice Answer Env))
      (later : Woven outside turns all) : Woven outside turns (.env event :: all)

theorem woven_foreign (outside : Env → Prop) (events : List Env) (out : ∀ e ∈ events, outside e)
    (turns all : List (Choice Answer Env)) (woven : Woven outside turns all) :
    Woven outside turns (events.map Choice.env ++ all) := by
  induction events with
  | nil => exact woven
  | cons event rest ih =>
      exact .foreign event (out event List.mem_cons_self) turns _
        (ih fun e member => out e (List.mem_cons_of_mem event member))

section Orphans

variable (m : Machine Op Ret State Spec Notes Answer Env)

/-- No thread is left that is to be aborted with its owner. -/
def Tidy (threads : List (Thread Op Ret Spec Notes)) : Prop := m.abortOrphans threads = threads

theorem orphans_any (threads : List (Thread Op Ret Spec Notes)) (id : Nat) :
    ((m.abortOrphans threads).any fun t => t.id = id) = threads.any fun t => t.id = id := by
  have ids := abort_orphans_ids m threads
  have read : ∀ l : List (Thread Op Ret Spec Notes),
      (l.any fun t => t.id = id) = (l.map Thread.id).any fun n => n = id := by
    intro l
    rw [List.any_map]
    rfl
  rw [read, read, ids]

theorem tidy_orphans (threads : List (Thread Op Ret Spec Notes)) :
    Tidy m (m.abortOrphans threads) := by
  have ends : ∀ id, ((m.abortOrphans threads).any fun t => t.id = id) =
      threads.any fun t => t.id = id := orphans_any m threads
  rw [Tidy, Machine.abortOrphans]
  refine (List.map_congr_left fun u member => ?_).trans (List.map_id _)
  obtain ⟨before, _, rfl⟩ := List.mem_map.mp member
  cases owned : m.owner before.spec with
  | none => simp only [owned, id_eq]
  | some id => simp only [owned, ends, Bool.or_assoc, Bool.or_self, id_eq]

theorem tidy_step (c after : Config Op Ret State Spec Notes) (choice : Choice Answer Env)
    (stepped : m.step c choice = some after) : Tidy m after.threads := by
  rcases step_cases m c after choice stepped with
    ⟨t, operation, ret, effect, next, _, rfl⟩ | ⟨id, _, _, rfl⟩ | ⟨event, reaction, _, _, rfl⟩
  · exact tidy_orphans m _
  · exact tidy_orphans m _
  · exact tidy_orphans m _

theorem run_append (c middle after : Config Op Ret State Spec Notes)
    (first second : List (Choice Answer Env)) (ran : m.run (fun _ _ => true) c first = some middle)
    (later : m.run (fun _ _ => true) middle second = some after) :
    m.run (fun _ _ => true) c (first ++ second) = some after := by
  induction first generalizing c with
  | nil => exact Option.some.inj ran ▸ later
  | cons choice rest ih =>
      rw [Machine.run, if_pos rfl] at ran
      obtain ⟨next, stepped, remains⟩ := Option.bind_eq_some_iff.mp ran
      rw [List.cons_append, Machine.run, if_pos rfl, stepped, Option.bind_some]
      exact ih next remains

theorem drift_run (outside : Env → Prop) (first last : State) (drift : Drift m outside first last)
    (threads : List (Thread Op Ret Spec Notes)) (tidy : Tidy m threads) (next : Nat) :
    ∃ events : List Env, (∀ e ∈ events, outside e) ∧
      m.run (fun _ _ => true) ⟨first, threads, next⟩ (events.map Choice.env) =
        some ⟨last, threads, next⟩ := by
  induction drift with
  | stay state => exact ⟨[], by simp, rfl⟩
  | move state middle last event out reacts _ ih =>
      obtain ⟨events, outer, ran⟩ := ih
      refine ⟨event :: events, List.forall_mem_cons.mpr ⟨out, outer⟩, ?_⟩
      have moved : m.step ⟨state, threads, next⟩ (.env event) = some ⟨middle, threads, next⟩ := by
        rw [Machine.step, reacts, Option.map_some]
        simp only [Machine.absorb, Bool.false_eq_true, if_false, Machine.spawnFrom, List.append_nil,
          List.length_nil, Nat.add_zero]
        rw [tidy]
      rw [List.map_cons, Machine.run, if_pos rfl, moved, Option.bind_some]
      exact ran

end Orphans

variable (outside : Env → Prop) (sound : Shared → Prop) (faithful : Faithful s outside sound)

include faithful

/-- Where a machine gets to, and what the others see of it. -/
structure Moved (j after : Joint Name Op Ret Shared Spec Notes) (name : Name)
    (choice : Choice Answer Env) : Prop where
  own : ∃ state, (s.alone name).step (s.seen j name) choice =
      some ⟨state, after.threads name, after.next name⟩ ∧
    Drift (s.alone name) outside state (s.view after.shared name)
  sound : sound after.shared
  drifts : ∀ other, other ≠ name →
    Drift (s.alone other) outside (s.view j.shared other) (s.view after.shared other)
  threads : ∀ other, other ≠ name → after.threads other = j.threads other
  next : ∀ other, other ≠ name → after.next other = j.next other

theorem step_seen (j after : Joint Name Op Ret Shared Spec Notes) (name : Name)
    (choice : Choice Answer Env) (holds : sound j.shared)
    (stepped : s.step j name choice = some after) : Moved s outside sound j after name choice := by
  obtain ⟨whole, moved, rfl⟩ := Option.map_eq_some_iff.mp stepped
  have others : ∀ other, other ≠ name →
      Function.update j.threads name whole.threads other = j.threads other ∧
        Function.update j.next name whole.next other = j.next other := fun other apart =>
    ⟨Function.update_of_ne apart _ _, Function.update_of_ne apart _ _⟩
  -- it suffices to know the step of the machine itself
  have made : (∃ state, (s.alone name).step (s.seen j name) choice =
        some ⟨state, whole.threads, whole.next⟩ ∧
        Drift (s.alone name) outside state (s.view whole.state name)) → sound whole.state →
      (∀ other, other ≠ name →
        Drift (s.alone other) outside (s.view j.shared other) (s.view whole.state other)) →
      Moved s outside sound j ⟨whole.state, Function.update j.threads name whole.threads,
        Function.update j.next name whole.next⟩ name choice := by
    rintro ⟨state, own, drifts⟩ kept foreign
    refine ⟨⟨state, ?_, drifts⟩, kept, foreign, fun other apart => (others other apart).1,
      fun other apart => (others other apart).2⟩
    simp only [Function.update_self]
    exact own
  cases choice with
  | run id answer =>
      simp only [Machine.step] at moved
      split at moved
      · cases moved
      · rename_i t found
        split at moved
        · cases moved
        · rename_i operation next prog
          obtain ⟨⟨ret, effect⟩, performed, rfl⟩ := Option.map_eq_some_iff.mp moved
          obtain ⟨⟨state, own, drifts⟩, kept, foreign⟩ :=
            faithful.calls name t _ j.shared operation answer ret effect holds performed
          refine made ⟨state, ?_, drifts⟩ kept foreign
          simp only [Machine.step, System.seen, found, prog]
          rw [Machine.settle, System.spawn_from_among]
          exact congrArg (Option.map fun out => (s.alone name).settle (s.seen j name)
            ((s.alone name).resumed t operation out.1 next) out.2) own
  | kill id =>
      simp only [Machine.step] at moved
      split at moved
      · rename_i present
        obtain rfl := Option.some.inj moved
        refine made ⟨s.view j.shared name, ?_, .stay _⟩ holds fun other _ => .stay _
        simp only [Machine.step, System.seen, present, if_true]
        rfl
      · cases moved
  | env event =>
      obtain ⟨reaction, reacted, rfl⟩ := Option.map_eq_some_iff.mp moved
      obtain ⟨⟨state, own, drifts⟩, kept, foreign⟩ :=
        faithful.events name _ j.shared event reaction holds reacted
      refine made ⟨state, ?_, drifts⟩ kept foreign
      rw [Machine.absorb, System.spawn_from_among]
      exact congrArg (Option.map ((s.alone name).absorb (s.seen j name))) own

def turnsOf (name : Name) (turns : List (Name × Choice Answer Env)) : List (Choice Answer Env) :=
  (turns.filter fun turn => turn.1 = name).map Prod.snd

/-- A run of them all is a run of each: its own turns, and what comes to it from outside. -/
theorem run_seen (turns : List (Name × Choice Answer Env))
    (j after : Joint Name Op Ret Shared Spec Notes) (holds : sound j.shared)
    (tidy : ∀ name, Tidy (s.alone name) (j.threads name)) (ran : s.run j turns = some after)
    (name : Name) :
    ∃ choices, Woven outside (turnsOf name turns) choices ∧
      (s.alone name).run (fun _ _ => true) (s.seen j name) choices = some (s.seen after name) := by
  induction turns generalizing j with
  | nil =>
      cases ran
      exact ⟨[], .done, rfl⟩
  | cons turn rest ih =>
      obtain ⟨middle, stepped, later⟩ := Option.bind_eq_some_iff.mp ran
      have moved := step_seen s outside sound faithful j middle turn.1 turn.2 holds stepped
      have kept : ∀ other, Tidy (s.alone other) (middle.threads other) := by
        intro other
        by_cases own : other = turn.1
        · subst own
          obtain ⟨state, own, _⟩ := moved.own
          exact tidy_step (s.alone turn.1) _ ⟨state, _, _⟩ turn.2 own
        · rw [moved.threads other own]
          exact tidy other
      obtain ⟨choices, woven, remains⟩ := ih middle moved.sound kept later
      by_cases own : turn.1 = name
      · subst own
        obtain ⟨state, own, drifts⟩ := moved.own
        obtain ⟨events, out, drifted⟩ := drift_run (s.alone turn.1) outside _ _ drifts
          (middle.threads turn.1) (kept turn.1) (middle.next turn.1)
        refine ⟨turn.2 :: (events.map Choice.env ++ choices), ?_, ?_⟩
        · rw [turnsOf, List.filter_cons_of_pos (by simp), List.map_cons]
          exact .own turn.2 _ _ (woven_foreign outside events out _ choices woven)
        · rw [Machine.run, if_pos rfl, own, Option.bind_some]
          exact run_append (s.alone turn.1) _ _ _ _ _ drifted remains
      · -- to this machine the turn is something from outside
        have apart : name ≠ turn.1 := fun same => own same.symm
        obtain ⟨events, out, drifted⟩ := drift_run (s.alone name) outside _ _
          (moved.drifts name apart) (j.threads name) (tidy name) (j.next name)
        refine ⟨events.map Choice.env ++ choices, ?_, ?_⟩
        · rw [turnsOf, List.filter_cons_of_neg (by simpa using own)]
          exact woven_foreign outside events out _ choices woven
        · have arrives : s.seen middle name =
              ⟨s.view middle.shared name, j.threads name, j.next name⟩ := by
            rw [System.seen, moved.threads name apart, moved.next name apart]
          exact run_append (s.alone name) _ _ _ _ _ drifted (arrives ▸ remains)

end Runs

end FileReplicator.Sharing
