import FileReplicator.Interleaving

/-!
# A lock among threads

One lock in the shared state. The notes of a thread say whether it holds it; that
at most one thread does follows from what taking and giving it back do to the
state.
-/

namespace FileReplicator.Exclusion

open Effects Interleaving

variable {Op : Type} {Ret : Op → Type} {State Spec Notes Answer Env : Type}

/-- Where the lock is in the state, and which threads hold it. -/
structure Lock (m : Machine Op Ret State Spec Notes Answer Env) where
  locked : State → Bool
  inside : Notes → Bool
  /-- The operation that takes it. -/
  takes : Op → Bool
  /-- A thread starts without it. -/
  starts : ∀ spec, inside (m.start spec) = false
  /-- It is taken only when it is free. -/
  taken : ∀ t live state operation answer ret effect,
    m.perform t live state operation answer = some (ret, effect) → takes operation = true →
      locked state = false ∧ locked effect.state = true
  /-- No other call comes to it. -/
  entered : ∀ n operation ret, takes operation = false → m.discipline.allowed n operation →
    inside n = false → inside (m.discipline.learn n operation ret) = false
  /-- Only the thread that holds it gives it back. -/
  given : ∀ t live state operation answer ret effect,
    m.perform t live state operation answer = some (ret, effect) → takes operation = false →
      m.discipline.allowed t.notes operation → locked state = true → locked effect.state = false →
        inside t.notes = true ∧ inside (m.discipline.learn t.notes operation ret) = false
  /-- What comes from outside leaves it alone or stops everything. -/
  left : ∀ live state event reaction, m.react live state event = some reaction →
    reaction.stops = true ∨ locked reaction.state = locked state

variable {m : Machine Op Ret State Spec Notes Answer Env} (lock : Lock m)

/-- The thread that holds the lock, if there is one, is the only one. -/
structure Exclusive (c : Config Op Ret State Spec Notes) : Prop where
  one : ∀ t ∈ c.threads, ∀ u ∈ c.threads, lock.inside t.notes = true → lock.inside u.notes = true →
    t.id = u.id
  held : ∀ t ∈ c.threads, lock.inside t.notes = true → lock.locked c.state = true

theorem nobody_inside (c : Config Op Ret State Spec Notes) (exclusive : Exclusive lock c)
    (free : lock.locked c.state = false) : ∀ t ∈ c.threads, lock.inside t.notes = false := by
  intro t member
  cases inside : lock.inside t.notes with
  | false => rfl
  | true =>
      rw [exclusive.held t member inside] at free
      cases free

/-- A thread inside after a call: the caller, or one that was inside before and is another. -/
theorem inside_settle (c : Config Op Ret State Spec Notes) (t : Thread Op Ret Spec Notes)
    (operation : Op) (ret : Ret operation) (effect : Effect State Spec)
    (next : Ret operation → Prog Op Ret Unit) (u : Thread Op Ret Spec Notes)
    (member : u ∈ (m.settle c (m.resumed t operation ret next) effect).threads)
    (inside : lock.inside u.notes = true) :
    (u.id = t.id ∧ u.notes = m.discipline.learn t.notes operation ret) ∨
      ∃ before ∈ c.threads, before.id ≠ t.id ∧ SameThread before u ∧
        lock.inside before.notes = true := by
  rcases mem_settle m c _ u effect member with ⟨same, _⟩ | ⟨before, hbefore, other, same, _⟩ |
    ⟨new, hnew, same⟩
  · exact Or.inl ⟨same.id, same.notes⟩
  · refine Or.inr ⟨before, hbefore, other, same, ?_⟩
    rwa [same.notes] at inside
  · obtain ⟨_, _, _, _, notes, _⟩ := mem_spawn_from m _ _ new hnew
    rw [same.notes, notes, lock.starts] at inside
    cases inside

theorem exclusive_settle (c : Config Op Ret State Spec Notes) (t : Thread Op Ret Spec Notes)
    (operation : Op) (ret : Ret operation) (effect : Effect State Spec)
    (next : Ret operation → Prog Op Ret Unit) (choice : Choice Answer Env)
    (calls : Calls m c t operation ret effect next choice) (orderly : Orderly m c)
    (exclusive : Exclusive lock c) :
    Exclusive lock (m.settle c (m.resumed t operation ret next) effect) := by
  have may := calls_allowed m c t operation ret effect next choice calls orderly
  obtain ⟨answer, _, performed⟩ := calls.choice
  cases takes : lock.takes operation with
  | true =>
      obtain ⟨free, now_locked⟩ := lock.taken t _ _ operation answer ret effect performed takes
      have nobody := nobody_inside lock c exclusive free
      have only : ∀ u ∈ (m.settle c (m.resumed t operation ret next) effect).threads,
          lock.inside u.notes = true → u.id = t.id := by
        intro u hu inside
        rcases inside_settle lock c t operation ret effect next u hu inside with ⟨same, _⟩ |
          ⟨before, hbefore, _, _, was⟩
        · exact same
        · rw [nobody before hbefore] at was
          cases was
      constructor
      · intro u hu v hv inside_u inside_v
        rw [only u hu inside_u, only v hv inside_v]
      · exact fun _ _ _ => now_locked
  | false =>
      have caller : lock.inside (m.discipline.learn t.notes operation ret) = true →
          lock.inside t.notes = true := by
        intro after
        cases before : lock.inside t.notes with
        | true => rfl
        | false =>
            rw [lock.entered t.notes operation ret takes may before] at after
            cases after
      have earlier : ∀ u ∈ (m.settle c (m.resumed t operation ret next) effect).threads,
          lock.inside u.notes = true →
            ∃ before ∈ c.threads, before.id = u.id ∧ lock.inside before.notes = true := by
        intro u hu inside
        rcases inside_settle lock c t operation ret effect next u hu inside with ⟨same, notes⟩ |
          ⟨before, hbefore, _, same, was⟩
        · rw [notes] at inside
          exact ⟨t, calls.member, same.symm, caller inside⟩
        · exact ⟨before, hbefore, same.id.symm, was⟩
      constructor
      · intro u hu v hv inside_u inside_v
        obtain ⟨before_u, member_u, id_u, was_u⟩ := earlier u hu inside_u
        obtain ⟨before_v, member_v, id_v, was_v⟩ := earlier v hv inside_v
        rw [← id_u, ← id_v]
        exact exclusive.one before_u member_u before_v member_v was_u was_v
      · intro u hu inside
        cases after : lock.locked effect.state with
        | true => exact after
        | false =>
            obtain ⟨before, member, same, was⟩ := earlier u hu inside
            have locked := exclusive.held before member was
            obtain ⟨mine, gave⟩ :=
              lock.given t _ _ operation answer ret effect performed takes may locked after
            rcases inside_settle lock c t operation ret effect next u hu inside with ⟨_, notes⟩ |
              ⟨other, hother, apart, _, also⟩
            · rw [notes, gave] at inside
              cases inside
            · exact absurd (exclusive.one other hother t calls.member also mine) apart

theorem exclusive_absorb (c : Config Op Ret State Spec Notes) (event : Env)
    (reaction : Reaction State Spec)
    (reacted : m.react (Machine.live c) c.state event = some reaction)
    (exclusive : Exclusive lock c) : Exclusive lock (m.absorb c reaction) := by
  have earlier : ∀ u ∈ (m.absorb c reaction).threads, lock.inside u.notes = true →
      reaction.stops = false ∧ ∃ before ∈ c.threads, before.id = u.id ∧
        lock.inside before.notes = true := by
    intro u hu inside
    rcases mem_absorb m c reaction u hu with ⟨going, before, hbefore, same⟩ | ⟨new, hnew, same⟩
    · rw [same.notes] at inside
      exact ⟨going, before, hbefore, same.id.symm, inside⟩
    · obtain ⟨_, _, _, _, notes, _⟩ := mem_spawn_from m _ _ new hnew
      rw [same.notes, notes, lock.starts] at inside
      cases inside
  constructor
  · intro u hu v hv inside_u inside_v
    obtain ⟨_, before_u, member_u, id_u, was_u⟩ := earlier u hu inside_u
    obtain ⟨_, before_v, member_v, id_v, was_v⟩ := earlier v hv inside_v
    rw [← id_u, ← id_v]
    exact exclusive.one before_u member_u before_v member_v was_u was_v
  · intro u hu inside
    obtain ⟨going, before, member, _, was⟩ := earlier u hu inside
    rcases lock.left _ _ event reaction reacted with stops | same
    · rw [stops] at going
      cases going
    · exact same.trans (exclusive.held before member was)

theorem exclusive_without (c : Config Op Ret State Spec Notes) (id : Nat)
    (exclusive : Exclusive lock c) : Exclusive lock (m.without c id) := by
  have earlier : ∀ u ∈ (m.without c id).threads, lock.inside u.notes = true →
      ∃ before ∈ c.threads, before.id = u.id ∧ lock.inside before.notes = true := by
    intro u hu inside
    obtain ⟨before, hbefore, _, same⟩ := mem_without m c id u hu
    rw [same.notes] at inside
    exact ⟨before, hbefore, same.id.symm, inside⟩
  constructor
  · intro u hu v hv inside_u inside_v
    obtain ⟨before_u, member_u, id_u, was_u⟩ := earlier u hu inside_u
    obtain ⟨before_v, member_v, id_v, was_v⟩ := earlier v hv inside_v
    rw [← id_u, ← id_v]
    exact exclusive.one before_u member_u before_v member_v was_u was_v
  · intro u hu inside
    obtain ⟨before, member, _, was⟩ := earlier u hu inside
    exact exclusive.held before member was

end FileReplicator.Exclusion
