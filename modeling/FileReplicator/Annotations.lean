import FileReplicator.Interleaving

/-!
# Notes change nothing

What the threads of a machine note of themselves has no part in what they do, so
a machine whose threads note more has the same runs. With the notes of two
disciplines side by side, both are kept.
-/

namespace FileReplicator.Annotations

open Effects Interleaving

variable {Op : Type} {Ret : Op → Type} {State Spec Notes Fewer Answer Env α : Type}

/-! ## Fewer notes -/

def forgetThread (view : Notes → Fewer) (t : Thread Op Ret Spec Notes) : Thread Op Ret Spec Fewer :=
  ⟨t.id, t.spec, t.aborted, view t.notes, t.prog⟩

def forget (view : Notes → Fewer) (c : Config Op Ret State Spec Notes) :
    Config Op Ret State Spec Fewer :=
  ⟨c.state, c.threads.map (forgetThread view), c.next⟩

theorem mem_forget (view : Notes → Fewer) (c : Config Op Ret State Spec Notes)
    (t : Thread Op Ret Spec Notes) (member : t ∈ c.threads) :
    forgetThread view t ∈ (forget view c).threads :=
  List.mem_map_of_mem member

theorem distinct_of_forget (view : Notes → Fewer) (c : Config Op Ret State Spec Notes)
    (distinct : Distinct (forget view c)) : Distinct c := by
  obtain ⟨below, unique⟩ := distinct
  constructor
  · exact fun t ht => below (forgetThread view t) (mem_forget view c t ht)
  · have same : (forget view c).threads.map Thread.id = c.threads.map Thread.id := by
      simp only [forget, List.map_map]
      rfl
    rw [← same]
    exact unique

structure Annotates (m : Machine Op Ret State Spec Notes Answer Env)
    (plain : Machine Op Ret State Spec Fewer Answer Env) (view : Notes → Fewer) : Prop where
  main : m.main = plain.main
  owner : m.owner = plain.owner
  react : m.react = plain.react
  start : ∀ spec, view (m.start spec) = plain.start spec
  learn : ∀ n operation ret,
    view (m.discipline.learn n operation ret) = plain.discipline.learn (view n) operation ret
  perform : ∀ t live state operation answer,
    m.perform t live state operation answer =
      plain.perform (forgetThread view t) live state operation answer

section Runs

variable {m : Machine Op Ret State Spec Notes Answer Env}
variable {plain : Machine Op Ret State Spec Fewer Answer Env} {view : Notes → Fewer}
variable (annotates : Annotates m plain view)

include annotates

theorem spawn_forget (first : Nat) (specs : List Spec) :
    (m.spawnFrom first specs).map (forgetThread view) = plain.spawnFrom first specs := by
  induction specs generalizing first with
  | nil => rfl
  | cons spec rest ih =>
      simp only [Machine.spawnFrom, List.map_cons, ih, forgetThread, annotates.start, annotates.main]

theorem orphans_forget (threads : List (Thread Op Ret Spec Notes)) :
    (m.abortOrphans threads).map (forgetThread view) =
      plain.abortOrphans (threads.map (forgetThread view)) := by
  simp only [Machine.abortOrphans, List.map_map]
  refine List.map_congr_left fun u _ => ?_
  simp only [Function.comp_apply, List.any_map, annotates.owner]
  cases owned : plain.owner u.spec with
  | none =>
      simp only [forgetThread, owned]
  | some id =>
      simp only [forgetThread, owned]
      rfl

omit annotates in
theorem survivor_forget (after u : Thread Op Ret Spec Notes) (fate : Nat → Spec → Fate) :
    (Machine.survivor after fate u).map (forgetThread view) =
      Machine.survivor (forgetThread view after) fate (forgetThread view u) := by
  have ends : (forgetThread view after).prog.isDone = after.prog.isDone := rfl
  by_cases own : u.id = after.id
  · have same : (forgetThread view u).id = (forgetThread view after).id := own
    rw [Machine.survivor, Machine.survivor, if_pos own, if_pos same, ends]
    cases after.prog.isDone <;> rfl
  · have other : ¬(forgetThread view u).id = (forgetThread view after).id := own
    have fated : fate (forgetThread view u).id (forgetThread view u).spec = fate u.id u.spec := rfl
    rw [Machine.survivor, Machine.survivor, if_neg own, if_neg other, fated]
    cases fate u.id u.spec <;> rfl

theorem settle_forget (c : Config Op Ret State Spec Notes) (after : Thread Op Ret Spec Notes)
    (effect : Effect State Spec) :
    forget view (m.settle c after effect) =
      plain.settle (forget view c) (forgetThread view after) effect := by
  have survivors : (c.threads.filterMap (Machine.survivor after effect.fate)).map
      (forgetThread view) = (c.threads.map (forgetThread view)).filterMap
        (Machine.survivor (forgetThread view after) effect.fate) := by
    rw [List.map_filterMap, List.filterMap_map]
    refine List.filterMap_congr fun u _ => ?_
    exact survivor_forget after u effect.fate
  simp only [forget, Machine.settle, orphans_forget annotates, List.map_append, survivors,
    spawn_forget annotates]

theorem absorb_forget (c : Config Op Ret State Spec Notes) (reaction : Reaction State Spec) :
    forget view (m.absorb c reaction) = plain.absorb (forget view c) reaction := by
  have kept : (if reaction.stops then [] else c.threads).map (forgetThread view) =
      if reaction.stops then [] else c.threads.map (forgetThread view) := by
    cases reaction.stops <;> rfl
  simp only [forget, Machine.absorb, orphans_forget annotates, List.map_append, kept,
    spawn_forget annotates]

theorem without_forget (c : Config Op Ret State Spec Notes) (id : Nat) :
    forget view (m.without c id) = plain.without (forget view c) id := by
  have spared : (c.threads.filter fun u => u.id ≠ id).map (forgetThread view) =
      (c.threads.map (forgetThread view)).filter fun u => u.id ≠ id := by
    rw [List.filter_map]
    rfl
  simp only [forget, Machine.without, orphans_forget annotates, spared]

omit annotates in
theorem live_forget (c : Config Op Ret State Spec Notes) :
    Machine.live (forget view c) = Machine.live c := by
  simp only [Machine.live, forget, List.map_map]
  rfl

theorem step_forget (c after : Config Op Ret State Spec Notes) (choice : Choice Answer Env)
    (stepped : m.step c choice = some after) :
    plain.step (forget view c) choice = some (forget view after) := by
  cases choice with
  | run id answer =>
      simp only [Machine.step] at stepped ⊢
      have found : ((forget view c).threads.find? fun t => t.id = id) =
          (c.threads.find? fun t => t.id = id).map (forgetThread view) := by
        rw [forget, List.find?_map]
        rfl
      rw [found]
      cases caller : c.threads.find? fun t => t.id = id with
      | none =>
          rw [caller] at stepped
          cases stepped
      | some t =>
          simp only [caller] at stepped
          simp only [Option.map_some, forgetThread]
          cases program : t.prog with
          | done value =>
              rw [program] at stepped
              cases stepped
          | call operation next =>
              rw [program] at stepped
              simp only [annotates.perform] at stepped
              obtain ⟨⟨ret, effect⟩, performed, rfl⟩ := Option.map_eq_some_iff.mp stepped
              rw [settle_forget annotates, live_forget]
              simp only [Machine.resumed, forgetThread, annotates.learn] at performed ⊢
              rw [program] at performed
              show Option.map _ (plain.perform _ _ c.state operation answer) = _
              rw [performed]
              rfl
  | kill id =>
      simp only [Machine.step] at stepped ⊢
      have same : ((forget view c).threads.any fun t => t.id = id && t.aborted) =
          c.threads.any fun t => t.id = id && t.aborted := by
        simp only [forget, List.any_map]
        rfl
      rw [same]
      split at stepped
      · rename_i killed
        cases stepped
        rw [if_pos killed, without_forget annotates]
      · cases stepped
  | env event =>
      simp only [Machine.step] at stepped ⊢
      obtain ⟨reaction, reacted, rfl⟩ := Option.map_eq_some_iff.mp stepped
      rw [live_forget, absorb_forget annotates, ← annotates.react]
      show Option.map _ (m.react (Machine.live c) c.state event) = _
      rw [reacted]
      rfl

end Runs

variable {Other : Type}

def both (one : Discipline Op Ret Notes) (other : Discipline Op Ret Other) :
    Discipline Op Ret (Notes × Other) where
  allowed := fun n operation => one.allowed n.1 operation ∧ other.allowed n.2 operation
  possible := fun operation ret => one.possible operation ret ∧ other.possible operation ret
  learn := fun n operation ret => (one.learn n.1 operation ret, other.learn n.2 operation ret)

theorem keeps_both (one : Discipline Op Ret Notes) (other : Discipline Op Ret Other)
    (program : Prog Op Ret α) (n : Notes) (o : Other) (post : α → Notes → Prop)
    (also : α → Other → Prop) (keeps : Keeps one program n post)
    (keeps_other : Keeps other program o also) :
    Keeps (both one other) program (n, o) fun value after => post value after.1 ∧ also value after.2 := by
  induction program generalizing n o with
  | done value => exact ⟨keeps, keeps_other⟩
  | call operation next ih =>
      exact ⟨⟨keeps.1, keeps_other.1⟩, fun ret possible =>
        ih ret _ _ (keeps.2 ret possible.1) (keeps_other.2 ret possible.2)⟩

end FileReplicator.Annotations
