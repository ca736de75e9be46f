import FileReplicator.Runs

/-!
# The attempts of an item

An attempt is of the item of the thread that has spawned it, and reports to that
thread. An aborted attempt may outlive it; then nobody hears of what it reports.
-/

namespace FileReplicator.Offspring

open Domain DurableStore Effects Interleaving Operations Instance Protocol Steps Runs

variable (setup : Setup)

structure Family (c : State) : Prop where
  /-- An attempt is of the item of the thread that has spawned it. -/
  owned : ∀ u ∈ c.threads, ∀ owner ctx, u.spec = .attempt owner ctx → owner < c.next ∧
    ∀ t ∈ c.threads, t.id = owner → t.notes.role = .item ctx.item.relpath
  unborn : ∀ id, c.next ≤ id → c.state.attempts id = []

/-- What is reported to an item as verified is, as far as `known` goes. -/
def Reported (known : String × String → Prop) (c : State) : Prop :=
  ∀ t ∈ c.threads, ∀ relpath, t.notes.role = .item relpath → ∀ label,
    .ok (label, .verified) ∈ c.state.attempts t.id → known (relpath, label)

section Call

variable {setup}
variable {c : State} {t : Running} {operation : Op} {ret : Ret operation}
variable {effect : Effect World Spec} {next : Ret operation → Program Unit}

theorem reported_of_did (did : Did setup t (Machine.live c) c.state operation ret effect)
    (may : allowed setup t.notes operation) (roles : t.notes.role = (start t.spec).role) (id : Nat)
    (label : String) (reported : .ok (label, .verified) ∈ effect.state.attempts id) :
    .ok (label, .verified) ∈ c.state.attempts id ∨
      ∃ ctx, t.spec = .attempt id ctx ∧ (ctx.item.relpath, label) ∈ t.notes.sure := by
  cases did with
  | undelivered item l resume left error after stored =>
      rcases stored with rfl | ⟨_, _, rfl⟩ <;> exact Or.inl reported
  | joined n result found =>
      left
      simp only [changes] at reported
      split at reported
      · rename_i same
        subst same
        exact List.mem_of_mem_eraseIdx reported
      · exact reported
  | endedAttempt owner ctx spec result =>
      simp only [changes] at reported
      split at reported
      · rename_i same
        subst same
        rcases List.mem_append.mp reported with before | mine
        · exact Or.inl before
        · right
          refine ⟨ctx, spec, ?_⟩
          obtain ⟨relpath, own, role, told⟩ := may
          rw [roles, spec] at role
          cases role
          obtain ⟨rfl, sure⟩ := told label .verified (List.mem_singleton.mp mine).symm
          exact sure rfl
      · exact Or.inl reported
  | _ => exact Or.inl reported

theorem unborn_of_did (did : Did setup t (Machine.live c) c.state operation ret effect) (id : Nat)
    (caller : id ≠ t.id) (owner : ∀ ctx, t.spec ≠ .attempt id ctx) (empty : c.state.attempts id = []) :
    effect.state.attempts id = [] := by
  cases did with
  | undelivered item l resume left error after stored =>
      rcases stored with rfl | ⟨_, _, rfl⟩ <;> exact empty
  | joined n result found =>
      simp only [changes, if_neg caller]
      exact empty
  | endedAttempt other ctx spec result =>
      simp only [changes]
      split
      · rename_i same
        subst same
        exact absurd spec (owner ctx)
      · exact empty
  | _ => exact empty

theorem spawned_attempt (did : Did setup t (Machine.live c) c.state operation ret effect)
    (may : allowed setup t.notes operation) (owner : Nat) (ctx : AttemptCtx)
    (spawned : .attempt owner ctx ∈ effect.spawned) :
    owner = t.id ∧ t.notes.role = .item ctx.item.relpath := by
  cases did with
  | spawnedAttempts contexts =>
      obtain ⟨relpath, role, _, _, known⟩ := may
      obtain ⟨other, hother, same⟩ := List.mem_map.mp spawned
      cases same
      rw [(known ctx hother).1]
      exact ⟨rfl, role⟩
  | startedAction ctx => cases List.mem_singleton.mp spawned
  | startedQuarantine job => cases List.mem_singleton.mp spawned
  | spawnedBatch items now =>
      obtain ⟨item, _, same⟩ := List.mem_map.mp spawned
      cases same
  | _ => cases spawned

theorem family_settle (base : Base setup c) (member : t ∈ c.threads)
    (may : allowed setup t.notes operation)
    (did : Did setup t (Machine.live c) c.state operation ret effect) (family : Family c) :
    Family ((engine setup).settle c ((engine setup).resumed t operation ret next) effect) := by
  have below := base.distinct.below t member
  -- a thread that an attempt knew before has kept its role
  have kept : ∀ owner relpath, owner < c.next →
      (∀ v ∈ c.threads, v.id = owner → v.notes.role = .item relpath) →
      ∀ v ∈ ((engine setup).settle c ((engine setup).resumed t operation ret next) effect).threads,
        v.id = owner → v.notes.role = .item relpath := by
    intro owner relpath early mine v hv named
    rcases mem_settle (engine setup) c _ v effect hv with ⟨same, _⟩ | ⟨before, hbefore, _, same, _⟩ |
      ⟨new, hnew, same⟩
    · rw [same.notes]
      exact (learn_role setup t.notes operation ret).trans (mine t member (same.id.symm.trans named))
    · rw [same.notes]
      exact mine before hbefore (same.id.symm.trans named)
    · obtain ⟨_, first, _⟩ := mem_spawn_from (engine setup) _ _ new hnew
      rw [same.id] at named
      omega
  constructor
  · intro u hu owner ctx spec
    rcases mem_settle (engine setup) c _ u effect hu with ⟨same, _⟩ | ⟨before, hbefore, _, same, _⟩ |
      ⟨new, hnew, same⟩
    · rw [same.spec] at spec
      obtain ⟨early, mine⟩ := family.owned t member owner ctx spec
      exact ⟨Nat.lt_add_right _ early, kept owner _ early mine⟩
    · rw [same.spec] at spec
      obtain ⟨early, mine⟩ := family.owned before hbefore owner ctx spec
      exact ⟨Nat.lt_add_right _ early, kept owner _ early mine⟩
    · obtain ⟨spawned, _⟩ := mem_spawn_from (engine setup) _ _ new hnew
      rw [← same.spec, spec] at spawned
      obtain ⟨rfl, role⟩ := spawned_attempt did may owner ctx spawned
      refine ⟨Nat.lt_add_right _ below, kept t.id _ below fun v hv same => ?_⟩
      rw [eq_of_same_id c base.distinct v t hv member same]
      exact role
  · intro id later
    change c.next + effect.spawned.length ≤ id at later
    apply unborn_of_did did id
    · omega
    · intro ctx spec
      have owned := (family.owned t member id ctx spec).1
      omega
    · exact family.unborn id (by omega)

/-- What is reported after a call was reported before, or by an attempt whose item is still there. -/
theorem reported_settle (base : Base setup c) (member : t ∈ c.threads)
    (may : allowed setup t.notes operation)
    (did : Did setup t (Machine.live c) c.state operation ret effect) (family : Family c)
    (known more : String × String → Prop) (grows : ∀ p, known p → more p)
    (reported : Reported known c)
    (own : ∀ owner ctx, t.spec = .attempt owner ctx → (∃ v ∈ c.threads, v.id = owner) →
      ∀ label ∈ setup.labels, (ctx.item.relpath, label) ∈ t.notes.sure →
        known (ctx.item.relpath, label)) :
    Reported more ((engine setup).settle c ((engine setup).resumed t operation ret next) effect) := by
  intro u hu relpath role label arrived
  have roles := base.roles t member
  rcases reported_of_did did may roles u.id label arrived with before | ⟨ctx, spec, sure⟩
  · apply grows
    rcases mem_settle (engine setup) c _ u effect hu with ⟨same, _⟩ | ⟨old, hold, _, same, _⟩ |
      ⟨new, hnew, same⟩
    · rw [same.id] at before
      rw [same.notes] at role
      exact reported t member relpath ((learn_role setup t.notes operation ret).symm.trans role) label
        before
    · rw [same.id] at before
      rw [same.notes] at role
      exact reported old hold relpath role label before
    · obtain ⟨_, first, _⟩ := mem_spawn_from (engine setup) _ _ new hnew
      rw [same.id, family.unborn new.id first] at before
      cases before
  · -- the attempt that reports is of the item of this thread
    obtain ⟨early, mine⟩ := family.owned t member u.id ctx spec
    rcases mem_settle (engine setup) c _ u effect hu with ⟨same, _⟩ | ⟨old, hold, _, same, _⟩ |
      ⟨new, hnew, same⟩
    · rw [same.notes] at role
      have attempt : t.notes.role = .item relpath := (learn_role setup t.notes operation ret).symm.trans role
      rw [roles, spec] at attempt
      cases attempt
    · rw [same.notes, mine old hold same.id.symm] at role
      cases role
      have listed := did_results setup c base t member operation ret effect may did u.id _ arrived label
        .verified rfl
      exact grows _ (own u.id ctx spec ⟨old, hold, same.id.symm⟩ label listed sure)
    · obtain ⟨_, first, _⟩ := mem_spawn_from (engine setup) _ _ new hnew
      rw [same.id] at early
      omega

end Call

section Outside

variable {setup}
variable {c : State}

theorem family_without (family : Family c) (id : Nat) : Family ((engine setup).without c id) := by
  constructor
  · intro u hu owner ctx spec
    obtain ⟨before, hbefore, _, same⟩ := mem_without (engine setup) c id u hu
    obtain ⟨early, mine⟩ := family.owned before hbefore owner ctx (same.spec.symm.trans spec)
    refine ⟨early, fun v hv named => ?_⟩
    obtain ⟨other, hother, _, alike⟩ := mem_without (engine setup) c id v hv
    rw [alike.notes]
    exact mine other hother (alike.id.symm.trans named)
  · exact family.unborn

theorem reported_without (known : String × String → Prop) (reported : Reported known c) (id : Nat) :
    Reported known ((engine setup).without c id) := by
  intro u hu relpath role label arrived
  obtain ⟨before, hbefore, _, same⟩ := mem_without (engine setup) c id u hu
  rw [same.id] at arrived
  rw [same.notes] at role
  exact reported before hbefore relpath role label arrived

variable (event : Event) (reaction : Reaction World Spec)
variable (reacted : react c.state (Machine.live c) event = some reaction)

include reacted

theorem family_absorb (family : Family c) : Family ((engine setup).absorb c reaction) := by
  obtain ⟨_, attempts, spawned⟩ := react_base _ _ event reaction reacted
  constructor
  · intro u hu owner ctx spec
    rcases mem_absorb (engine setup) c reaction u hu with ⟨_, before, hbefore, same⟩ | ⟨new, hnew, same⟩
    · obtain ⟨early, mine⟩ := family.owned before hbefore owner ctx (same.spec.symm.trans spec)
      refine ⟨Nat.lt_add_right _ early, fun v hv named => ?_⟩
      rcases mem_absorb (engine setup) c reaction v hv with ⟨_, other, hother, alike⟩ |
        ⟨later, hlater, alike⟩
      · rw [alike.notes]
        exact mine other hother (alike.id.symm.trans named)
      · have first := (mem_spawn_from (engine setup) _ _ later hlater).2.1
        rw [alike.id] at named
        omega
    -- what is started recovers or ticks
    · have role := spawned new.spec (mem_spawn_from (engine setup) _ _ new hnew).1
      rw [← same.spec, spec] at role
      rcases role with role | role <;> cases role
  · intro id later
    have before := family.unborn id (Nat.le_of_add_right_le later)
    rcases attempts id with same | gone
    · exact same.trans before
    · exact gone

theorem reported_absorb (known : String × String → Prop) (reported : Reported known c) :
    Reported known ((engine setup).absorb c reaction) := by
  obtain ⟨_, attempts, spawned⟩ := react_base _ _ event reaction reacted
  intro u hu relpath role label arrived
  rcases mem_absorb (engine setup) c reaction u hu with ⟨_, before, hbefore, same⟩ | ⟨new, hnew, same⟩
  · rw [same.id] at arrived
    rw [same.notes] at role
    change .ok (label, .verified) ∈ reaction.state.attempts before.id at arrived
    rcases attempts before.id with kept | gone
    · exact reported before hbefore relpath role label (kept ▸ arrived)
    · rw [gone] at arrived
      cases arrived
  · obtain ⟨listed, _, _, _, notes, _⟩ := mem_spawn_from (engine setup) _ _ new hnew
    rw [same.notes, notes] at role
    change (start new.spec).role = _ at role
    rcases spawned new.spec listed with other | other <;> rw [other] at role <;> cases role

end Outside

theorem family_step (c after : State) (choice : Step) (base : Base setup c) (family : Family c)
    (stepped : (engine setup).step c choice = some after) : Family after := by
  rcases step_cases (engine setup) c after choice stepped with
    ⟨t, operation, ret, effect, next, calls, rfl⟩ | ⟨id, _, _, rfl⟩ |
    ⟨event, reaction, _, reacted, rfl⟩
  · exact family_settle base calls.member
      (calls_allowed (engine setup) c t operation ret effect next choice calls base.orderly)
      (calls_did setup c t operation ret effect next choice calls) family
  · exact family_without family id
  · exact family_absorb event reaction reacted family

end FileReplicator.Offspring
