import Mathlib.Data.List.Basic
import Mathlib.Data.List.Nodup
import FileReplicator.Effects

/-!
# Interleaved threads

Threads that run programs over one shared state, one call at a time in any
order. A call may start threads and end others. A thread that is aborted may
still run on until it is noticed, and may end anywhere. Whatever the calls do,
threads that start under a discipline stay under it.
-/

namespace FileReplicator.Interleaving

open Effects

structure Thread (Op : Type) (Ret : Op → Type) (Spec Notes : Type) where
  id : Nat
  spec : Spec
  aborted : Bool
  notes : Notes
  prog : Prog Op Ret Unit

inductive Fate where
  | stays
  | aborted
  | gone
  deriving DecidableEq

structure Effect (State Spec : Type) where
  state : State
  spawned : List Spec
  fate : Nat → Spec → Fate

/-- What comes from outside: it may start threads, or stop them all. -/
structure Reaction (State Spec : Type) where
  state : State
  stops : Bool
  spawned : List Spec

structure Machine (Op : Type) (Ret : Op → Type) (State Spec Notes Answer Env : Type) where
  discipline : Discipline Op Ret Notes
  /-- How the notes of a thread must stand at its end. -/
  finished : Notes → Prop
  main : Spec → Prog Op Ret Unit
  start : Spec → Notes
  /-- The thread whose end aborts this one. -/
  owner : Spec → Option Nat
  perform : Thread Op Ret Spec Notes → List Spec → State → (operation : Op) → Answer →
    Option (Ret operation × Effect State Spec)
  react : List Spec → State → Env → Option (Reaction State Spec)

structure Config (Op : Type) (Ret : Op → Type) (State Spec Notes : Type) where
  state : State
  threads : List (Thread Op Ret Spec Notes)
  next : Nat

inductive Choice (Answer Env : Type) where
  | run (id : Nat) (answer : Answer)
  | kill (id : Nat)
  | env (event : Env)

variable {Op : Type} {Ret : Op → Type} {State Spec Notes Answer Env : Type}
variable (m : Machine Op Ret State Spec Notes Answer Env)

namespace Machine

def spawnFrom : Nat → List Spec → List (Thread Op Ret Spec Notes)
  | _, [] => []
  | id, spec :: rest => ⟨id, spec, false, m.start spec, m.main spec⟩ :: spawnFrom (id + 1) rest

def abortOrphans (threads : List (Thread Op Ret Spec Notes)) : List (Thread Op Ret Spec Notes) :=
  threads.map fun u =>
    match m.owner u.spec with
    | none => u
    | some id => { u with aborted := u.aborted || !threads.any fun t => t.id = id }

def resumed (t : Thread Op Ret Spec Notes) (operation : Op) (ret : Ret operation)
    (next : Ret operation → Prog Op Ret Unit) : Thread Op Ret Spec Notes :=
  { t with notes := m.discipline.learn t.notes operation ret, prog := next ret }

/-- What is left of a thread after a call of `after`'s thread. -/
def survivor (after : Thread Op Ret Spec Notes) (fate : Nat → Spec → Fate)
    (u : Thread Op Ret Spec Notes) : Option (Thread Op Ret Spec Notes) :=
  if u.id = after.id then (if after.prog.isDone then none else some after)
  else
    match fate u.id u.spec with
    | .stays => some u
    | .aborted => some { u with aborted := true }
    | .gone => none

def settle (c : Config Op Ret State Spec Notes) (after : Thread Op Ret Spec Notes)
    (effect : Effect State Spec) : Config Op Ret State Spec Notes where
  state := effect.state
  threads := m.abortOrphans
    (c.threads.filterMap (survivor after effect.fate) ++ m.spawnFrom c.next effect.spawned)
  next := c.next + effect.spawned.length

def absorb (c : Config Op Ret State Spec Notes) (reaction : Reaction State Spec) :
    Config Op Ret State Spec Notes where
  state := reaction.state
  threads := m.abortOrphans
    ((if reaction.stops then [] else c.threads) ++ m.spawnFrom c.next reaction.spawned)
  next := c.next + reaction.spawned.length

def without (c : Config Op Ret State Spec Notes) (id : Nat) : Config Op Ret State Spec Notes :=
  { c with threads := m.abortOrphans (c.threads.filter fun u => u.id ≠ id) }

def live (c : Config Op Ret State Spec Notes) : List Spec := c.threads.map Thread.spec

def step (c : Config Op Ret State Spec Notes) :
    Choice Answer Env → Option (Config Op Ret State Spec Notes)
  | .run id answer =>
      match c.threads.find? fun t => t.id = id with
      | none => none
      | some t =>
          match t.prog with
          | .done _ => none
          | .call operation next =>
              (m.perform t (live c) c.state operation answer).map fun out =>
                m.settle c (m.resumed t operation out.1 next) out.2
  | .kill id =>
      if c.threads.any fun t => t.id = id && t.aborted then some (m.without c id) else none
  | .env event => (m.react (live c) c.state event).map (m.absorb c)

/-- The run of these choices, as long as each of them passes the check. -/
def run (check : Config Op Ret State Spec Notes → Choice Answer Env → Bool)
    (c : Config Op Ret State Spec Notes) :
    List (Choice Answer Env) → Option (Config Op Ret State Spec Notes)
  | [] => some c
  | choice :: rest =>
      if check c choice then (m.step c choice).bind fun after => run check after rest else none

end Machine

/-- A choice lets a thread make its next call, with this result and this effect. -/
structure Calls (c : Config Op Ret State Spec Notes) (t : Thread Op Ret Spec Notes)
    (operation : Op) (ret : Ret operation) (effect : Effect State Spec)
    (next : Ret operation → Prog Op Ret Unit) (choice : Choice Answer Env) : Prop where
  member : t ∈ c.threads
  prog : t.prog = .call operation next
  choice : ∃ answer, choice = .run t.id answer ∧
    m.perform t (Machine.live c) c.state operation answer = some (ret, effect)

theorem step_cases (c after : Config Op Ret State Spec Notes) (choice : Choice Answer Env)
    (stepped : m.step c choice = some after) :
    (∃ t operation ret effect next, Calls m c t operation ret effect next choice ∧
      after = m.settle c (m.resumed t operation ret next) effect) ∨
    (∃ id, choice = .kill id ∧ (∃ t ∈ c.threads, t.id = id ∧ t.aborted = true) ∧
      after = m.without c id) ∨
    (∃ event reaction, choice = .env event ∧
      m.react (Machine.live c) c.state event = some reaction ∧ after = m.absorb c reaction) := by
  cases choice with
  | run id answer =>
      refine Or.inl ?_
      simp only [Machine.step] at stepped
      split at stepped
      · exact absurd stepped (by simp)
      · rename_i t found
        split at stepped
        · exact absurd stepped (by simp)
        · rename_i operation next prog
          obtain ⟨⟨ret, effect⟩, performed, rfl⟩ := Option.map_eq_some_iff.mp stepped
          have hid : t.id = id := by simpa using List.find?_some found
          exact ⟨t, operation, ret, effect, next,
            ⟨List.mem_of_find?_eq_some found, prog, answer, by rw [hid], performed⟩, rfl⟩
  | kill id =>
      refine Or.inr (Or.inl ⟨id, rfl, ?_⟩)
      simp only [Machine.step] at stepped
      split at stepped
      · rename_i present
        obtain ⟨t, member, ht⟩ := List.any_eq_true.mp present
        simp only [Bool.and_eq_true, decide_eq_true_eq] at ht
        exact ⟨⟨t, member, ht.1, ht.2⟩, (Option.some.inj stepped).symm⟩
      · exact absurd stepped (by simp)
  | env event =>
      refine Or.inr (Or.inr ⟨event, ?_⟩)
      obtain ⟨reaction, reacted, rfl⟩ := Option.map_eq_some_iff.mp stepped
      exact ⟨reaction, rfl, reacted, rfl⟩

/-! ## Who is left -/

structure SameThread (before after : Thread Op Ret Spec Notes) : Prop where
  id : after.id = before.id
  spec : after.spec = before.spec
  notes : after.notes = before.notes
  prog : after.prog = before.prog
  aborted : before.aborted = true → after.aborted = true

theorem same_thread_refl (t : Thread Op Ret Spec Notes) : SameThread t t :=
  ⟨rfl, rfl, rfl, rfl, id⟩

theorem mem_abort_orphans (threads : List (Thread Op Ret Spec Notes))
    (u : Thread Op Ret Spec Notes) (member : u ∈ m.abortOrphans threads) :
    ∃ before ∈ threads, SameThread before u ∧
      (u.aborted = false → ∀ id, m.owner u.spec = some id → ∃ t ∈ threads, t.id = id) := by
  obtain ⟨before, hbefore, rfl⟩ := List.mem_map.mp member
  refine ⟨before, hbefore, ?_⟩
  cases howner : m.owner before.spec with
  | none =>
      refine ⟨same_thread_refl before, fun _ id eq => ?_⟩
      rw [howner] at eq
      simp at eq
  | some owner =>
      refine ⟨⟨rfl, rfl, rfl, rfl, fun was => by simp [was]⟩, ?_⟩
      intro alive id eq
      simp only at alive eq
      rw [howner, Option.some.injEq] at eq
      subst eq
      simp only [Bool.or_eq_false_iff, Bool.not_eq_false'] at alive
      obtain ⟨t, ht, hid⟩ := List.any_eq_true.mp alive.2
      exact ⟨t, ht, by simpa using hid⟩

theorem mem_spawn_from (first : Nat) (specs : List Spec) (u : Thread Op Ret Spec Notes)
    (member : u ∈ m.spawnFrom first specs) :
    u.spec ∈ specs ∧ first ≤ u.id ∧ u.id < first + specs.length ∧ u.aborted = false ∧
      u.notes = m.start u.spec ∧ u.prog = m.main u.spec := by
  induction specs generalizing first with
  | nil => simp [Machine.spawnFrom] at member
  | cons spec rest ih =>
      rw [Machine.spawnFrom, List.mem_cons] at member
      rcases member with rfl | later
      · simp
      · obtain ⟨hspec, hfirst, hlast, hrest⟩ := ih (first + 1) later
        refine ⟨List.mem_cons_of_mem _ hspec, by omega, ?_, hrest⟩
        rw [List.length_cons]
        omega

theorem abort_orphans_ids (threads : List (Thread Op Ret Spec Notes)) :
    (m.abortOrphans threads).map Thread.id = threads.map Thread.id := by
  rw [Machine.abortOrphans, List.map_map]
  refine List.map_congr_left fun u _ => ?_
  simp only [Function.comp]
  split <;> rfl

/-- Where the threads after a call come from: the calling thread, a thread that was there, or one
just started. -/
theorem mem_settle (c : Config Op Ret State Spec Notes) (after u : Thread Op Ret Spec Notes)
    (effect : Effect State Spec) (member : u ∈ (m.settle c after effect).threads) :
    (SameThread after u ∧ after.prog.isDone = false) ∨
    (∃ before ∈ c.threads, before.id ≠ after.id ∧ SameThread before u ∧
      effect.fate before.id before.spec ≠ .gone ∧
      (u.aborted = false → effect.fate before.id before.spec = .stays)) ∨
    ∃ new ∈ m.spawnFrom c.next effect.spawned, SameThread new u := by
  obtain ⟨kept, hkept, same, _⟩ := mem_abort_orphans m _ u member
  rcases List.mem_append.mp hkept with old | new
  · obtain ⟨before, hbefore, hsurvives⟩ := List.mem_filterMap.mp old
    unfold Machine.survivor at hsurvives
    split at hsurvives
    · split at hsurvives
      · simp at hsurvives
      · rename_i going
        rw [Option.some.injEq] at hsurvives
        subst hsurvives
        exact Or.inl ⟨same, by simpa using going⟩
    · rename_i other
      refine Or.inr (Or.inl ⟨before, hbefore, other, ?_⟩)
      cases hfate : effect.fate before.id before.spec with
      | stays =>
          simp only [hfate, Option.some.injEq] at hsurvives
          subst hsurvives
          exact ⟨same, by simp, fun _ => rfl⟩
      | aborted =>
          simp only [hfate, Option.some.injEq] at hsurvives
          subst hsurvives
          have habort := same.aborted rfl
          exact ⟨⟨same.id, same.spec, same.notes, same.prog, fun _ => habort⟩, by simp,
            fun alive => by rw [habort] at alive; simp at alive⟩
      | gone => simp [hfate] at hsurvives
  · exact Or.inr (Or.inr ⟨kept, new, same⟩)

theorem mem_absorb (c : Config Op Ret State Spec Notes) (reaction : Reaction State Spec)
    (u : Thread Op Ret Spec Notes) (member : u ∈ (m.absorb c reaction).threads) :
    (reaction.stops = false ∧ ∃ before ∈ c.threads, SameThread before u) ∨
    ∃ new ∈ m.spawnFrom c.next reaction.spawned, SameThread new u := by
  obtain ⟨kept, hkept, same, _⟩ := mem_abort_orphans m _ u member
  rcases List.mem_append.mp hkept with old | new
  · split at old
    · simp at old
    · rename_i going
      exact Or.inl ⟨by simpa using going, kept, old, same⟩
  · exact Or.inr ⟨kept, new, same⟩

theorem mem_without (c : Config Op Ret State Spec Notes) (id : Nat)
    (u : Thread Op Ret Spec Notes) (member : u ∈ (m.without c id).threads) :
    ∃ before ∈ c.threads, before.id ≠ id ∧ SameThread before u := by
  obtain ⟨before, hbefore, same, _⟩ := mem_abort_orphans m _ u member
  obtain ⟨hmem, hne⟩ := List.mem_filter.mp hbefore
  exact ⟨before, hmem, by simpa using hne, same⟩

/-! Threads that were there are there after a step, unless the step ends them. -/

theorem orphan_stays (threads : List (Thread Op Ret Spec Notes)) (u : Thread Op Ret Spec Notes)
    (member : u ∈ threads) : ∃ v ∈ m.abortOrphans threads, SameThread u v := by
  refine ⟨_, List.mem_map_of_mem member, ?_⟩
  cases m.owner u.spec with
  | none => exact same_thread_refl u
  | some owner => exact ⟨rfl, rfl, rfl, rfl, fun was => by simp [was]⟩

theorem caller_stays (c : Config Op Ret State Spec Notes) (t : Thread Op Ret Spec Notes)
    (member : t ∈ c.threads) (operation : Op) (ret : Ret operation)
    (next : Ret operation → Prog Op Ret Unit) (effect : Effect State Spec)
    (going : (next ret).isDone = false) :
    ∃ v ∈ (m.settle c (m.resumed t operation ret next) effect).threads,
      SameThread (m.resumed t operation ret next) v := by
  apply orphan_stays m
  apply List.mem_append_left
  refine List.mem_filterMap.mpr ⟨t, member, ?_⟩
  have here : t.id = (m.resumed t operation ret next).id := rfl
  have left : (m.resumed t operation ret next).prog.isDone = false := going
  rw [Machine.survivor, if_pos here, left]
  rfl

theorem other_stays (c : Config Op Ret State Spec Notes) (after u : Thread Op Ret Spec Notes)
    (member : u ∈ c.threads) (other : u.id ≠ after.id) (effect : Effect State Spec)
    (stays : effect.fate u.id u.spec ≠ .gone) :
    ∃ v ∈ (m.settle c after effect).threads, SameThread u v := by
  have survives : ∃ v, Machine.survivor after effect.fate u = some v ∧ SameThread u v := by
    rw [Machine.survivor, if_neg other]
    cases fate : effect.fate u.id u.spec with
    | stays => exact ⟨u, rfl, same_thread_refl u⟩
    | aborted => exact ⟨{ u with aborted := true }, rfl, rfl, rfl, rfl, rfl, fun _ => rfl⟩
    | gone => exact absurd fate stays
  obtain ⟨middle, survived, first⟩ := survives
  have kept : middle ∈ c.threads.filterMap (Machine.survivor after effect.fate) ++
      m.spawnFrom c.next effect.spawned :=
    List.mem_append_left _ (List.mem_filterMap.mpr ⟨u, member, survived⟩)
  obtain ⟨v, hv, second⟩ := orphan_stays m _ middle kept
  exact ⟨v, hv, second.id.trans first.id, second.spec.trans first.spec,
    second.notes.trans first.notes, second.prog.trans first.prog,
    fun was => second.aborted (first.aborted was)⟩

theorem spawned_stays (c : Config Op Ret State Spec Notes) (after new : Thread Op Ret Spec Notes)
    (effect : Effect State Spec) (member : new ∈ m.spawnFrom c.next effect.spawned) :
    ∃ v ∈ (m.settle c after effect).threads, SameThread new v :=
  orphan_stays m _ new (List.mem_append_right _ member)

theorem spawned_of_mem (first : Nat) (specs : List Spec) (spec : Spec) (member : spec ∈ specs) :
    ∃ new ∈ m.spawnFrom first specs, new.spec = spec := by
  induction specs generalizing first with
  | nil => cases member
  | cons head rest ih =>
      rw [Machine.spawnFrom]
      rcases List.mem_cons.mp member with rfl | later
      · exact ⟨_, List.mem_cons_self, rfl⟩
      · obtain ⟨new, hnew, same⟩ := ih (first + 1) later
        exact ⟨new, List.mem_cons_of_mem _ hnew, same⟩

theorem spawned_same {Key : Type} (key : Spec → Key) (first : Nat) (specs : List Spec)
    (different : (specs.map key).Nodup) (u v : Thread Op Ret Spec Notes)
    (hu : u ∈ m.spawnFrom first specs) (hv : v ∈ m.spawnFrom first specs)
    (same : key u.spec = key v.spec) : u = v := by
  induction specs generalizing first with
  | nil => cases hu
  | cons spec rest ih =>
      rw [List.map_cons, List.nodup_cons] at different
      have later : ∀ w ∈ m.spawnFrom (first + 1) rest, key w.spec ≠ key spec := by
        intro w hw equal
        exact different.1 (equal ▸ List.mem_map_of_mem (mem_spawn_from m _ _ w hw).1)
      rw [Machine.spawnFrom, List.mem_cons] at hu hv
      rcases hu with rfl | hu
      · rcases hv with rfl | hv
        · rfl
        · exact absurd same.symm (later v hv)
      · rcases hv with rfl | hv
        · exact absurd same (later u hu)
        · exact ih (first + 1) different.2 hu hv

theorem absorbed_stays (c : Config Op Ret State Spec Notes) (reaction : Reaction State Spec)
    (going : reaction.stops = false) (u : Thread Op Ret Spec Notes) (member : u ∈ c.threads) :
    ∃ v ∈ (m.absorb c reaction).threads, SameThread u v := by
  apply orphan_stays m
  apply List.mem_append_left
  simpa [going] using member

theorem spared_stays (c : Config Op Ret State Spec Notes) (id : Nat)
    (u : Thread Op Ret Spec Notes) (member : u ∈ c.threads) (other : u.id ≠ id) :
    ∃ v ∈ (m.without c id).threads, SameThread u v := by
  apply orphan_stays m
  exact List.mem_filter.mpr ⟨member, by simpa using other⟩

/-! A thread without an owner is aborted by nothing but a call. -/

theorem unowned_orphan (threads : List (Thread Op Ret Spec Notes)) (u : Thread Op Ret Spec Notes)
    (member : u ∈ m.abortOrphans threads) (unowned : m.owner u.spec = none) : u ∈ threads := by
  obtain ⟨before, hbefore, rfl⟩ := List.mem_map.mp member
  cases howner : m.owner before.spec with
  | none => exact hbefore
  | some owner =>
      simp only [howner] at unowned
      cases unowned

theorem unowned_settle (c : Config Op Ret State Spec Notes) (after u : Thread Op Ret Spec Notes)
    (effect : Effect State Spec)
    (spares : ∀ id spec, m.owner spec = none → effect.fate id spec ≠ .aborted)
    (member : u ∈ (m.settle c after effect).threads) (unowned : m.owner u.spec = none) :
    u = after ∨ u ∈ c.threads ∨ u ∈ m.spawnFrom c.next effect.spawned := by
  rcases List.mem_append.mp (unowned_orphan m _ u member unowned) with old | new
  · obtain ⟨before, hbefore, survives⟩ := List.mem_filterMap.mp old
    unfold Machine.survivor at survives
    split at survives
    · split at survives
      · cases survives
      · cases survives
        exact Or.inl rfl
    · cases fate : effect.fate before.id before.spec with
      | stays =>
          rw [fate] at survives
          cases survives
          exact Or.inr (Or.inl hbefore)
      | aborted =>
          rw [fate] at survives
          cases survives
          exact absurd fate (spares _ _ unowned)
      | gone =>
          rw [fate] at survives
          cases survives
  · exact Or.inr (Or.inr new)

theorem aborted_orphan (threads : List (Thread Op Ret Spec Notes)) (u : Thread Op Ret Spec Notes)
    (member : u ∈ m.abortOrphans threads) :
    ∃ before ∈ threads, SameThread before u ∧ (u.aborted = true → before.aborted = true ∨
      ∃ id, m.owner u.spec = some id ∧ ∀ t ∈ m.abortOrphans threads, t.id ≠ id) := by
  obtain ⟨before, hbefore, rfl⟩ := List.mem_map.mp member
  refine ⟨before, hbefore, ?_⟩
  cases howner : m.owner before.spec with
  | none => exact ⟨same_thread_refl before, Or.inl⟩
  | some id =>
      refine ⟨⟨rfl, rfl, rfl, rfl, fun was => by simp [was]⟩, fun aborted => ?_⟩
      simp only [Bool.or_eq_true, Bool.not_eq_true'] at aborted
      rcases aborted with was | gone
      · exact Or.inl was
      · refine Or.inr ⟨id, howner, fun t ht same => ?_⟩
        obtain ⟨v, hv, again, _⟩ := mem_abort_orphans m _ t ht
        have absent := List.any_eq_false.mp gone v hv
        rw [← again.id, same] at absent
        simp at absent

/-! ## Identities -/

structure Distinct (c : Config Op Ret State Spec Notes) : Prop where
  below : ∀ t ∈ c.threads, t.id < c.next
  unique : (c.threads.map Thread.id).Nodup

theorem spawn_ids_nodup (first : Nat) (specs : List Spec) :
    ((m.spawnFrom first specs).map Thread.id).Nodup := by
  induction specs generalizing first with
  | nil => simp [Machine.spawnFrom]
  | cons spec rest ih =>
      rw [Machine.spawnFrom, List.map_cons, List.nodup_cons]
      refine ⟨?_, ih (first + 1)⟩
      intro taken
      obtain ⟨u, hu, hid⟩ := List.mem_map.mp taken
      have later : first + 1 ≤ u.id := (mem_spawn_from m (first + 1) rest u hu).2.1
      rw [hid] at later
      exact Nat.not_succ_le_self first later

theorem distinct_append (c : Config Op Ret State Spec Notes)
    (kept : List (Thread Op Ret Spec Notes)) (specs : List Spec) (state : State)
    (sublist : (kept.map Thread.id).Sublist (c.threads.map Thread.id)) (distinct : Distinct c) :
    Distinct (Config.mk state (m.abortOrphans (kept ++ m.spawnFrom c.next specs))
      (c.next + specs.length)) := by
  have hkept : ∀ t ∈ kept, t.id < c.next := by
    intro t ht
    obtain ⟨u, hu, hid⟩ := List.mem_map.mp (sublist.subset (List.mem_map_of_mem ht))
    exact hid ▸ distinct.below u hu
  constructor
  · intro t ht
    obtain ⟨u, hu, same, _⟩ := mem_abort_orphans m _ t ht
    rw [same.id]
    rcases List.mem_append.mp hu with old | new
    · exact Nat.lt_of_lt_of_le (hkept u old) (Nat.le_add_right _ _)
    · exact (mem_spawn_from m _ _ u new).2.2.1
  · rw [abort_orphans_ids, List.map_append, List.nodup_append]
    refine ⟨distinct.unique.sublist sublist, spawn_ids_nodup m _ _, ?_⟩
    intro a ha b hb
    obtain ⟨t, ht, rfl⟩ := List.mem_map.mp ha
    obtain ⟨u, hu, rfl⟩ := List.mem_map.mp hb
    have hold := hkept t ht
    have hnew := (mem_spawn_from m _ _ u hu).2.1
    omega

theorem survivor_id (after u v : Thread Op Ret Spec Notes) (fate : Nat → Spec → Fate)
    (survives : Machine.survivor after fate u = some v) : v.id = u.id := by
  unfold Machine.survivor at survives
  split at survives
  · rename_i same
    split at survives
    · simp at survives
    · rw [← Option.some.inj survives, same]
  · split at survives
    · rw [← Option.some.inj survives]
    · rw [← Option.some.inj survives]
    · simp at survives

theorem survivors_ids_sublist (after : Thread Op Ret Spec Notes) (fate : Nat → Spec → Fate)
    (threads : List (Thread Op Ret Spec Notes)) :
    ((threads.filterMap (Machine.survivor after fate)).map Thread.id).Sublist
      (threads.map Thread.id) := by
  induction threads with
  | nil => simp
  | cons u rest ih =>
      rw [List.filterMap_cons]
      cases hsurvives : Machine.survivor after fate u with
      | none => exact ih.cons _
      | some v =>
          rw [List.map_cons, List.map_cons, survivor_id after u v fate hsurvives]
          exact ih.cons_cons _

/-- A thread that is aborted after a call was aborted, or the call aborts it, or its owner is gone. -/
theorem aborted_settle (c : Config Op Ret State Spec Notes) (after u : Thread Op Ret Spec Notes)
    (effect : Effect State Spec) (member : u ∈ (m.settle c after effect).threads)
    (aborted : u.aborted = true) :
    (∃ before, (before = after ∨ before ∈ c.threads) ∧ before.id = u.id ∧ before.spec = u.spec ∧
        before.aborted = true) ∨
      effect.fate u.id u.spec = .aborted ∨
      ∃ id, m.owner u.spec = some id ∧ ∀ v ∈ (m.settle c after effect).threads, v.id ≠ id := by
  obtain ⟨kept, hkept, same, cause⟩ := aborted_orphan m _ u member
  rcases cause aborted with was | orphan
  · rcases List.mem_append.mp hkept with old | new
    · obtain ⟨before, hbefore, survives⟩ := List.mem_filterMap.mp old
      have sameId := survivor_id after before kept _ survives
      unfold Machine.survivor at survives
      split at survives
      · split at survives
        · cases survives
        · cases survives
          exact Or.inl ⟨after, Or.inl rfl, same.id.symm, same.spec.symm, was⟩
      · cases fate : effect.fate before.id before.spec with
        | stays =>
            rw [fate] at survives
            obtain rfl : before = kept := Option.some.inj survives
            exact Or.inl ⟨before, Or.inr hbefore, same.id.symm, same.spec.symm, was⟩
        | aborted =>
            rw [fate] at survives
            cases survives
            refine Or.inr (Or.inl ?_)
            rw [same.id, same.spec]
            exact fate
        | gone =>
            rw [fate] at survives
            cases survives
    · obtain ⟨_, _, _, fresh, _⟩ := mem_spawn_from m _ _ kept new
      rw [fresh] at was
      cases was
  · exact Or.inr (Or.inr orphan)

theorem distinct_settle (c : Config Op Ret State Spec Notes) (after : Thread Op Ret Spec Notes)
    (effect : Effect State Spec) (distinct : Distinct c) : Distinct (m.settle c after effect) := by
  refine distinct_append m c _ _ _ ?_ distinct
  exact survivors_ids_sublist after effect.fate c.threads

theorem distinct_absorb (c : Config Op Ret State Spec Notes) (reaction : Reaction State Spec)
    (distinct : Distinct c) : Distinct (m.absorb c reaction) := by
  refine distinct_append m c _ _ _ ?_ distinct
  split
  · exact List.nil_sublist _
  · exact List.Sublist.refl _

theorem distinct_without (c : Config Op Ret State Spec Notes) (id : Nat) (distinct : Distinct c) :
    Distinct (m.without c id) := by
  have hsub : ((m.abortOrphans (c.threads.filter fun u => u.id ≠ id)).map Thread.id).Sublist
      (c.threads.map Thread.id) := by
    rw [abort_orphans_ids]
    exact List.filter_sublist.map _
  refine ⟨?_, distinct.unique.sublist hsub⟩
  intro t ht
  obtain ⟨u, hu, same⟩ := List.mem_map.mp (hsub.subset (List.mem_map_of_mem ht))
  exact same ▸ distinct.below u hu

theorem eq_of_same_id (c : Config Op Ret State Spec Notes) (distinct : Distinct c)
    (t u : Thread Op Ret Spec Notes) (ht : t ∈ c.threads) (hu : u ∈ c.threads)
    (same : t.id = u.id) : t = u :=
  List.inj_on_of_nodup_map distinct.unique ht hu same

theorem apart_of_killed (c : Config Op Ret State Spec Notes) (distinct : Distinct c) (id : Nat)
    (killed : ∃ t ∈ c.threads, t.id = id ∧ t.aborted = true) (u : Thread Op Ret Spec Notes)
    (hu : u ∈ c.threads) (alive : u.aborted = false) : u.id ≠ id := by
  rintro rfl
  obtain ⟨t, ht, same, aborted⟩ := killed
  rw [eq_of_same_id c distinct t u ht hu same, alive] at aborted
  cases aborted

/-! ## What holds of every thread

By what it was started for and by its notes. -/

section All

variable (holds : Spec → Notes → Prop)

theorem all_settle (c : Config Op Ret State Spec Notes) (t : Thread Op Ret Spec Notes)
    (operation : Op) (ret : Ret operation) (effect : Effect State Spec)
    (next : Ret operation → Prog Op Ret Unit)
    (caller : holds t.spec (m.discipline.learn t.notes operation ret))
    (others : ∀ u ∈ c.threads, u.id ≠ t.id → holds u.spec u.notes)
    (started : ∀ spec ∈ effect.spawned, holds spec (m.start spec)) :
    ∀ u ∈ (m.settle c (m.resumed t operation ret next) effect).threads, holds u.spec u.notes := by
  intro u hu
  rcases mem_settle m c _ u effect hu with ⟨same, _⟩ | ⟨before, hbefore, other, same, _⟩ |
    ⟨new, hnew, same⟩
  · rw [same.spec, same.notes]
    exact caller
  · rw [same.spec, same.notes]
    exact others before hbefore other
  · obtain ⟨hspec, _, _, _, notes, _⟩ := mem_spawn_from m _ _ new hnew
    rw [same.spec, same.notes, notes]
    exact started new.spec hspec

theorem all_absorb (c : Config Op Ret State Spec Notes) (reaction : Reaction State Spec)
    (old : ∀ u ∈ c.threads, holds u.spec u.notes)
    (started : ∀ spec ∈ reaction.spawned, holds spec (m.start spec)) :
    ∀ u ∈ (m.absorb c reaction).threads, holds u.spec u.notes := by
  intro u hu
  rcases mem_absorb m c reaction u hu with ⟨_, before, hbefore, same⟩ | ⟨new, hnew, same⟩
  · rw [same.spec, same.notes]
    exact old before hbefore
  · obtain ⟨hspec, _, _, _, notes, _⟩ := mem_spawn_from m _ _ new hnew
    rw [same.spec, same.notes, notes]
    exact started new.spec hspec

theorem all_without (c : Config Op Ret State Spec Notes) (id : Nat)
    (old : ∀ u ∈ c.threads, holds u.spec u.notes) :
    ∀ u ∈ (m.without c id).threads, holds u.spec u.notes := by
  intro u hu
  obtain ⟨before, hbefore, _, same⟩ := mem_without m c id u hu
  rw [same.spec, same.notes]
  exact old before hbefore

end All

/-! ## Threads stay under the discipline -/

def Orderly (c : Config Op Ret State Spec Notes) : Prop :=
  ∀ t ∈ c.threads, Keeps m.discipline t.prog t.notes fun _ notes => m.finished notes

theorem orderly_spawn (first : Nat) (specs : List Spec)
    (starts : ∀ spec ∈ specs, Keeps m.discipline (m.main spec) (m.start spec)
      fun _ notes => m.finished notes) :
    ∀ t ∈ m.spawnFrom first specs, Keeps m.discipline t.prog t.notes fun _ notes => m.finished notes := by
  intro t ht
  obtain ⟨hspec, _, _, _, hnotes, hprog⟩ := mem_spawn_from m first specs t ht
  rw [hnotes, hprog]
  exact starts t.spec hspec

theorem calls_keep (c : Config Op Ret State Spec Notes) (t : Thread Op Ret Spec Notes)
    (operation : Op) (ret : Ret operation) (effect : Effect State Spec)
    (next : Ret operation → Prog Op Ret Unit) (choice : Choice Answer Env)
    (calls : Calls m c t operation ret effect next choice) (orderly : Orderly m c) :
    m.discipline.allowed t.notes operation ∧ ∀ ret, m.discipline.possible operation ret →
      Keeps m.discipline (next ret) (m.discipline.learn t.notes operation ret)
        fun _ notes => m.finished notes := by
  have keeps := orderly t calls.member
  rw [calls.prog] at keeps
  exact keeps

theorem calls_allowed (c : Config Op Ret State Spec Notes) (t : Thread Op Ret Spec Notes)
    (operation : Op) (ret : Ret operation) (effect : Effect State Spec)
    (next : Ret operation → Prog Op Ret Unit) (choice : Choice Answer Env)
    (calls : Calls m c t operation ret effect next choice) (orderly : Orderly m c) :
    m.discipline.allowed t.notes operation :=
  (calls_keep m c t operation ret effect next choice calls orderly).1

theorem orderly_settle (c : Config Op Ret State Spec Notes) (t : Thread Op Ret Spec Notes)
    (operation : Op) (ret : Ret operation) (effect : Effect State Spec)
    (next : Ret operation → Prog Op Ret Unit) (choice : Choice Answer Env)
    (calls : Calls m c t operation ret effect next choice) (orderly : Orderly m c)
    (possible : m.discipline.possible operation ret)
    (starts : ∀ spec ∈ effect.spawned, Keeps m.discipline (m.main spec) (m.start spec)
      fun _ notes => m.finished notes) :
    Orderly m (m.settle c (m.resumed t operation ret next) effect) := by
  intro u hu
  rcases mem_settle m c _ u effect hu with ⟨same, _⟩ | ⟨before, hbefore, _, same, _⟩ |
    ⟨new, hnew, same⟩
  · rw [same.prog, same.notes]
    exact (calls_keep m c t operation ret effect next choice calls orderly).2 ret possible
  · rw [same.prog, same.notes]
    exact orderly before hbefore
  · rw [same.prog, same.notes]
    exact orderly_spawn m _ _ starts new hnew

theorem orderly_absorb (c : Config Op Ret State Spec Notes) (reaction : Reaction State Spec)
    (orderly : Orderly m c)
    (starts : ∀ spec ∈ reaction.spawned, Keeps m.discipline (m.main spec) (m.start spec)
      fun _ notes => m.finished notes) :
    Orderly m (m.absorb c reaction) := by
  intro u hu
  rcases mem_absorb m c reaction u hu with ⟨_, before, hbefore, same⟩ | ⟨new, hnew, same⟩
  · rw [same.prog, same.notes]
    exact orderly before hbefore
  · rw [same.prog, same.notes]
    exact orderly_spawn m _ _ starts new hnew

theorem orderly_without (c : Config Op Ret State Spec Notes) (id : Nat) (orderly : Orderly m c) :
    Orderly m (m.without c id) := by
  intro u hu
  obtain ⟨before, hbefore, _, same⟩ := mem_without m c id u hu
  rw [same.prog, same.notes]
  exact orderly before hbefore

/-- The configurations of the runs from `starts` whose steps all meet `meets`. -/
inductive Reached (starts : Config Op Ret State Spec Notes → Prop)
    (meets : Config Op Ret State Spec Notes → Choice Answer Env → Prop) :
    Config Op Ret State Spec Notes → Prop where
  | start (c : Config Op Ret State Spec Notes) (begins : starts c) : Reached starts meets c
  | step (c after : Config Op Ret State Spec Notes) (choice : Choice Answer Env)
      (reached : Reached starts meets c) (met : meets c choice)
      (stepped : m.step c choice = some after) : Reached starts meets after

/-- An invariant of every step that meets the condition holds in every run of such steps. -/
theorem invariant_of_reached (starts : Config Op Ret State Spec Notes → Prop)
    (meets : Config Op Ret State Spec Notes → Choice Answer Env → Prop)
    (invariant : Config Op Ret State Spec Notes → Prop)
    (initial : ∀ c, starts c → invariant c)
    (kept : ∀ c after choice, invariant c → meets c choice → m.step c choice = some after →
      invariant after)
    (c : Config Op Ret State Spec Notes) (reached : Reached m starts meets c) : invariant c := by
  induction reached with
  | start c begins => exact initial c begins
  | step c after choice _ met stepped ih => exact kept c after choice ih met stepped

theorem reached_of_run (starts : Config Op Ret State Spec Notes → Prop)
    (meets : Config Op Ret State Spec Notes → Choice Answer Env → Prop)
    (check : Config Op Ret State Spec Notes → Choice Answer Env → Bool)
    (sound : ∀ c choice, check c choice = true → meets c choice)
    (choices : List (Choice Answer Env)) (c after : Config Op Ret State Spec Notes)
    (reached : Reached m starts meets c) (ran : m.run check c choices = some after) :
    Reached m starts meets after := by
  induction choices generalizing c with
  | nil => exact Option.some.inj ran ▸ reached
  | cons choice rest ih =>
      rw [Machine.run] at ran
      split at ran
      · rename_i met
        obtain ⟨middle, stepped, hrest⟩ := Option.bind_eq_some_iff.mp ran
        exact ih middle (.step c middle choice reached (sound c choice met) stepped) hrest
      · cases ran

theorem exists_of_run (starts : Config Op Ret State Spec Notes → Prop)
    (meets : Config Op Ret State Spec Notes → Choice Answer Env → Prop)
    (check : Config Op Ret State Spec Notes → Choice Answer Env → Bool)
    (sound : ∀ c choice, check c choice = true → meets c choice)
    (wanted : Config Op Ret State Spec Notes → Bool) (choices : List (Choice Answer Env))
    (c : Config Op Ret State Spec Notes) (begins : starts c)
    (found : (m.run check c choices).any wanted = true) :
    ∃ after, Reached m starts meets after ∧ wanted after = true := by
  obtain ⟨after, ran, holds⟩ := (Option.any_eq_true _ _).mp found
  exact ⟨after, reached_of_run m starts meets check sound choices c after (.start c begins) ran,
    holds⟩

/-! ## Histories -/

/-- What is remembered of a run: `follow` adds what a step from one configuration to another
does. -/
structure Chronicle (Op : Type) (Ret : Op → Type) (State Spec Notes Answer Env History : Type) where
  blank : History
  follow : Config Op Ret State Spec Notes → Choice Answer Env → Config Op Ret State Spec Notes →
    History → History

section Histories

variable {History : Type} (record : Chronicle Op Ret State Spec Notes Answer Env History)

/-- The configurations of the runs from `starts` with what is remembered of them; every step meets
`meets`. -/
inductive Tracked (starts : Config Op Ret State Spec Notes → Prop)
    (meets : History → Config Op Ret State Spec Notes → Choice Answer Env → Prop) :
    History → Config Op Ret State Spec Notes → Prop where
  | start (c : Config Op Ret State Spec Notes) (begins : starts c) :
      Tracked starts meets record.blank c
  | step (h : History) (c after : Config Op Ret State Spec Notes) (choice : Choice Answer Env)
      (tracked : Tracked starts meets h c) (met : meets h c choice)
      (stepped : m.step c choice = some after) :
      Tracked starts meets (record.follow c choice after h) after

theorem invariant_of_tracked (starts : Config Op Ret State Spec Notes → Prop)
    (meets : History → Config Op Ret State Spec Notes → Choice Answer Env → Prop)
    (invariant : History → Config Op Ret State Spec Notes → Prop)
    (initial : ∀ c, starts c → invariant record.blank c)
    (kept : ∀ h c after choice, invariant h c → meets h c choice → m.step c choice = some after →
      invariant (record.follow c choice after h) after)
    (h : History) (c : Config Op Ret State Spec Notes) (tracked : Tracked m record starts meets h c) :
    invariant h c := by
  induction tracked with
  | start c begins => exact initial c begins
  | step h c after choice _ met stepped ih => exact kept h c after choice ih met stepped

/-- The same run among others, where its start and its steps are as these demand. -/
theorem tracked_mono (starts first : Config Op Ret State Spec Notes → Prop)
    (meets others : History → Config Op Ret State Spec Notes → Choice Answer Env → Prop)
    (begins : ∀ c, starts c → first c)
    (implies : ∀ h c choice, Tracked m record starts meets h c → meets h c choice → others h c choice)
    (h : History) (c : Config Op Ret State Spec Notes) (tracked : Tracked m record starts meets h c) :
    Tracked m record first others h c := by
  induction tracked with
  | start c started => exact .start c (begins c started)
  | step h c after choice tracked met stepped ih =>
      exact .step h c after choice ih (implies h c choice tracked met) stepped

/-- A run with its history; `check` refuses a step. -/
def trackedRun (check : History → Config Op Ret State Spec Notes → Choice Answer Env → Bool) :
    List (Choice Answer Env) → History → Config Op Ret State Spec Notes →
      Option (History × Config Op Ret State Spec Notes)
  | [], h, c => some (h, c)
  | choice :: rest, h, c =>
      if check h c choice then
        (m.step c choice).bind fun after =>
          trackedRun check rest (record.follow c choice after h) after
      else none

theorem tracked_of_run (starts : Config Op Ret State Spec Notes → Prop)
    (meets : History → Config Op Ret State Spec Notes → Choice Answer Env → Prop)
    (check : History → Config Op Ret State Spec Notes → Choice Answer Env → Bool)
    (sound : ∀ h c choice, check h c choice = true → meets h c choice)
    (choices : List (Choice Answer Env)) (h : History) (c : Config Op Ret State Spec Notes)
    (last : History) (after : Config Op Ret State Spec Notes)
    (tracked : Tracked m record starts meets h c)
    (ran : trackedRun m record check choices h c = some (last, after)) :
    Tracked m record starts meets last after := by
  induction choices generalizing h c with
  | nil =>
      cases ran
      exact tracked
  | cons choice rest ih =>
      rw [trackedRun] at ran
      split at ran
      · rename_i met
        obtain ⟨middle, stepped, later⟩ := Option.bind_eq_some_iff.mp ran
        exact ih _ middle (.step h c middle choice tracked (sound h c choice met) stepped) later
      · cases ran

/-- A state that a checked run leads to, with what is decided of it and of its history. -/
theorem exists_of_tracked_run (starts : Config Op Ret State Spec Notes → Prop)
    (meets : History → Config Op Ret State Spec Notes → Choice Answer Env → Prop)
    (check : History → Config Op Ret State Spec Notes → Choice Answer Env → Bool)
    (sound : ∀ h c choice, check h c choice = true → meets h c choice)
    (wanted : History → Config Op Ret State Spec Notes → Bool) (choices : List (Choice Answer Env))
    (c : Config Op Ret State Spec Notes) (begins : starts c)
    (found : (trackedRun m record check choices record.blank c).any (fun r => wanted r.1 r.2) = true) :
    ∃ h after, Tracked m record starts meets h after ∧ wanted h after = true := by
  obtain ⟨⟨h, after⟩, ran, holds⟩ := (Option.any_eq_true _ _).mp found
  exact ⟨h, after, tracked_of_run m record starts meets check sound choices _ c h after
    (.start c begins) ran, holds⟩

/-! What is remembered of the calls of the threads and of what comes from outside. -/

/-- `heed` adds a call with its answer, `pass` an event. -/
def chronicle (blank : History)
    (heed : Thread Op Ret Spec Notes → Op → Answer → Config Op Ret State Spec Notes →
      Config Op Ret State Spec Notes → History → History)
    (pass : Env → Config Op Ret State Spec Notes → Config Op Ret State Spec Notes → History →
      History) : Chronicle Op Ret State Spec Notes Answer Env History where
  blank := blank
  follow := fun c choice after h =>
    match choice with
    | .run id answer =>
        match c.threads.find? fun t => t.id = id with
        | some t =>
            match t.prog with
            | .call operation _ => heed t operation answer c after h
            | .done _ => h
        | none => h
    | .kill _ => h
    | .env event => pass event c after h

theorem find_thread (c : Config Op Ret State Spec Notes) (distinct : Distinct c)
    (t : Thread Op Ret Spec Notes) (member : t ∈ c.threads) :
    (c.threads.find? fun u => u.id = t.id) = some t := by
  cases found : c.threads.find? fun u => u.id = t.id with
  | none =>
      have absent := List.find?_eq_none.mp found t member
      simp at absent
  | some u =>
      have same : u.id = t.id := by simpa using List.find?_some found
      rw [eq_of_same_id c distinct u t (List.mem_of_find?_eq_some found) member same]

theorem follow_call (blank : History)
    (heed : Thread Op Ret Spec Notes → Op → Answer → Config Op Ret State Spec Notes →
      Config Op Ret State Spec Notes → History → History)
    (pass : Env → Config Op Ret State Spec Notes → Config Op Ret State Spec Notes → History →
      History)
    (c after : Config Op Ret State Spec Notes) (distinct : Distinct c)
    (t : Thread Op Ret Spec Notes) (member : t ∈ c.threads) (operation : Op)
    (next : Ret operation → Prog Op Ret Unit) (prog : t.prog = .call operation next)
    (answer : Answer) (h : History) :
    (chronicle blank heed pass).follow c (.run t.id answer) after h =
      heed t operation answer c after h := by
  simp only [chronicle, find_thread c distinct t member, prog]

end Histories

end FileReplicator.Interleaving
