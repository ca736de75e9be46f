import FileReplicator.Interleaving

/-!
# Threads counted

What the threads weigh together, when the weight of a thread is a matter of what it
was started for and of its notes: what a call adds to the sum and takes away from
it.
-/

namespace FileReplicator.Counting

open Effects Interleaving

variable {Op : Type} {Ret : Op → Type} {State Spec Notes Answer Env : Type}
variable (m : Machine Op Ret State Spec Notes Answer Env) (weight : Spec → Notes → Nat)

def weigh (t : Thread Op Ret Spec Notes) : Nat := weight t.spec t.notes

def total : List (Thread Op Ret Spec Notes) → Nat
  | [] => 0
  | t :: rest => weigh weight t + total rest

attribute [local simp] total

theorem total_append (first last : List (Thread Op Ret Spec Notes)) :
    total weight (first ++ last) = total weight first + total weight last := by
  induction first with
  | nil => exact (Nat.zero_add _).symm
  | cons u rest ih => rw [List.cons_append, total, total, ih, Nat.add_assoc]

theorem total_singleton (t : Thread Op Ret Spec Notes) : total weight [t] = weigh weight t := rfl

theorem total_zero (threads : List (Thread Op Ret Spec Notes)) :
    total weight threads = 0 ↔ ∀ t ∈ threads, weigh weight t = 0 := by
  induction threads with
  | nil => simp
  | cons u rest ih =>
      rw [total, Nat.add_eq_zero_iff, List.forall_mem_cons]
      exact and_congr Iff.rfl ih

theorem total_eq (threads : List (Thread Op Ret Spec Notes)) (t : Thread Op Ret Spec Notes)
    (member : t ∈ threads) (distinct : (threads.map Thread.id).Nodup)
    (others : ∀ u ∈ threads, u.id ≠ t.id → weigh weight u = 0) :
    total weight threads = weigh weight t := by
  obtain ⟨first, last, rfl⟩ := List.append_of_mem member
  rw [List.map_append, List.map_cons, List.nodup_append] at distinct
  obtain ⟨_, later, apart⟩ := distinct
  have before : total weight first = 0 := by
    refine (total_zero weight first).mpr fun u hu => others u (List.mem_append_left _ hu) ?_
    exact apart _ (List.mem_map_of_mem hu) _ List.mem_cons_self
  have behind : total weight last = 0 := by
    refine (total_zero weight last).mpr fun u hu =>
      others u (List.mem_append_right _ (List.mem_cons_of_mem _ hu)) fun same => ?_
    exact (List.nodup_cons.mp later).1 (same ▸ List.mem_map_of_mem hu)
  show total weight (first ++ ([t] ++ last)) = _
  rw [total_append, total_append, before, behind, total_singleton]
  omega

theorem total_map (change : Thread Op Ret Spec Notes → Thread Op Ret Spec Notes)
    (same : ∀ t, weigh weight (change t) = weigh weight t) (threads : List (Thread Op Ret Spec Notes)) :
    total weight (threads.map change) = total weight threads := by
  induction threads with
  | nil => rfl
  | cons u rest ih => rw [List.map_cons, total, total, ih, same]

theorem total_orphans (threads : List (Thread Op Ret Spec Notes)) :
    total weight (m.abortOrphans threads) = total weight threads := by
  refine total_map weight _ (fun u => ?_) threads
  split <;> rfl

/-- What others weigh is not changed by a call that ends nobody who weighs anything. -/
theorem total_spared (after : Thread Op Ret Spec Notes) (fate : Nat → Spec → Fate)
    (others : List (Thread Op Ret Spec Notes)) (apart : ∀ u ∈ others, u.id ≠ after.id)
    (spared : ∀ u ∈ others, fate u.id u.spec = .gone → weigh weight u = 0) :
    total weight (others.filterMap (Machine.survivor after fate)) = total weight others := by
  induction others with
  | nil => rfl
  | cons u rest ih =>
      have tail := ih (fun v hv => apart v (List.mem_cons_of_mem _ hv))
        fun v hv => spared v (List.mem_cons_of_mem _ hv)
      have other : u.id ≠ after.id := apart u List.mem_cons_self
      cases decided : fate u.id u.spec with
      | gone =>
          have dropped : Machine.survivor after fate u = none := by
            rw [Machine.survivor, if_neg other, decided]
          rw [List.filterMap_cons_none dropped, tail, total, spared u List.mem_cons_self decided,
            Nat.zero_add]
      | stays =>
          have survives : Machine.survivor after fate u = some u := by
            rw [Machine.survivor, if_neg other, decided]
          rw [List.filterMap_cons_some survives, total, total, tail]
      | aborted =>
          have survives : Machine.survivor after fate u = some { u with aborted := true } := by
            rw [Machine.survivor, if_neg other, decided]
          rw [List.filterMap_cons_some survives, total, total, tail]
          rfl

def leftover (after : Thread Op Ret Spec Notes) : Nat :=
  if after.prog.isDone then 0 else weigh weight after

/-- The sum after a call: the caller as it was is taken away, what is left of it and what it has
started are added. -/
theorem total_settle_spared (c : Config Op Ret State Spec Notes) (distinct : Distinct c)
    (t : Thread Op Ret Spec Notes) (member : t ∈ c.threads) (after : Thread Op Ret Spec Notes)
    (same : after.id = t.id) (effect : Effect State Spec)
    (spared : ∀ u ∈ c.threads, u.id ≠ t.id → effect.fate u.id u.spec = .gone → weigh weight u = 0) :
    total weight (m.settle c after effect).threads + weigh weight t =
      total weight c.threads + leftover weight after +
        total weight (m.spawnFrom c.next effect.spawned) := by
  obtain ⟨first, last, split⟩ := List.append_of_mem member
  have nodup := distinct.unique
  rw [split, List.map_append, List.map_cons, List.nodup_append] at nodup
  obtain ⟨_, tail, apart⟩ := nodup
  have before : ∀ u ∈ first, u.id ≠ after.id := by
    intro u hu
    rw [same]
    exact apart _ (List.mem_map_of_mem hu) _ List.mem_cons_self
  have behind : ∀ u ∈ last, u.id ≠ after.id := by
    intro u hu eq
    rw [same] at eq
    exact (List.nodup_cons.mp tail).1 (eq ▸ List.mem_map_of_mem hu)
  have earlier : ∀ u ∈ first, u ∈ c.threads := fun u hu => split ▸ List.mem_append_left _ hu
  have later : ∀ u ∈ last, u ∈ c.threads := fun u hu =>
    split ▸ List.mem_append_right _ (List.mem_cons_of_mem _ hu)
  have caller : total weight ([t].filterMap (Machine.survivor after effect.fate)) =
      leftover weight after := by
    have survives : Machine.survivor after effect.fate t =
        if after.prog.isDone then none else some after := if_pos same.symm
    rw [List.filterMap_cons, survives, leftover]
    cases after.prog.isDone with
    | true => rfl
    | false => exact total_singleton weight after
  show total weight (m.abortOrphans _) + _ = _
  rw [total_orphans, total_append, split]
  have parts : first ++ t :: last = first ++ ([t] ++ last) := rfl
  rw [parts, List.filterMap_append, List.filterMap_append, total_append, total_append, total_append,
    total_append, total_spared weight after _ first before fun u hu => spared u (earlier u hu)
      (same ▸ before u hu), total_spared weight after _ last behind fun u hu => spared u (later u hu)
      (same ▸ behind u hu), caller, total_singleton]
  omega

theorem total_settle (c : Config Op Ret State Spec Notes) (distinct : Distinct c)
    (t : Thread Op Ret Spec Notes) (member : t ∈ c.threads) (after : Thread Op Ret Spec Notes)
    (same : after.id = t.id) (effect : Effect State Spec)
    (spares : ∀ id spec, effect.fate id spec ≠ .gone) :
    total weight (m.settle c after effect).threads + weigh weight t =
      total weight c.threads + leftover weight after +
        total weight (m.spawnFrom c.next effect.spawned) :=
  total_settle_spared m weight c distinct t member after same effect
    fun _ _ _ gone => absurd gone (spares _ _)

theorem total_absorb (c : Config Op Ret State Spec Notes) (reaction : Reaction State Spec)
    (going : reaction.stops = false) :
    total weight (m.absorb c reaction).threads =
      total weight c.threads + total weight (m.spawnFrom c.next reaction.spawned) := by
  show total weight (m.abortOrphans _) = _
  rw [total_orphans, going, total_append]
  rfl

theorem total_le (lighter : Spec → Notes → Nat) (threads : List (Thread Op Ret Spec Notes))
    (each : ∀ t ∈ threads, weigh lighter t ≤ weigh weight t) :
    total lighter threads ≤ total weight threads := by
  induction threads with
  | nil => exact Nat.le_refl _
  | cons u rest ih =>
      have head := each u List.mem_cons_self
      have tail := ih fun t ht => each t (List.mem_cons_of_mem _ ht)
      rw [total, total]
      omega

/-- When threads of a kind weigh one and others nothing, the sum is their number. -/
theorem total_kind (threads : List (Thread Op Ret Spec Notes))
    (kind : Thread Op Ret Spec Notes → Bool)
    (each : ∀ t ∈ threads, weigh weight t = (kind t).toNat) :
    total weight threads = threads.countP kind := by
  induction threads with
  | nil => rfl
  | cons u rest ih =>
      have tail := ih fun t ht => each t (List.mem_cons_of_mem _ ht)
      rw [total, tail, each u List.mem_cons_self, List.countP_cons, Nat.add_comm]
      congr 1
      cases kind u <;> rfl

end FileReplicator.Counting
