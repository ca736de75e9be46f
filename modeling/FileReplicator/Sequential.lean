import FileReplicator.Interleaving

/-!
# A program by itself

What a program ensures when nobody else changes what it works on: rules of
pre- and postconditions over the state its calls see. Among other threads this
is what the one thread ensures that alone may change what it sees.
-/

namespace FileReplicator.Sequential

open Effects

/-- What a program may call in a state, and what a call may return and lead to. -/
structure Semantics (Op : Type) (Ret : Op → Type) (Seen : Type) where
  may : Seen → Op → Prop
  does : Seen → (operation : Op) → Ret operation → Seen → Prop

variable {Op : Type} {Ret : Op → Type} {Seen α β Error : Type}
variable (semantics : Semantics Op Ret Seen)

/-- However its calls end, the program makes only calls it may make, and `post` holds of its result
and of the last state. -/
def Ensures : Prog Op Ret α → Seen → (α → Seen → Prop) → Prop
  | .done value, s, post => post value s
  | .call operation next, s, post =>
      semantics.may s operation ∧
        ∀ ret after, semantics.does s operation ret after → Ensures (next ret) after post

theorem ensures_perform (operation : Op) (s : Seen) (post : Ret operation → Seen → Prop)
    (may : semantics.may s operation)
    (holds : ∀ ret after, semantics.does s operation ret after → post ret after) :
    Ensures semantics (Prog.perform operation) s post :=
  ⟨may, holds⟩

theorem ensures_bind (program : Prog Op Ret α) (next : α → Prog Op Ret β) (s : Seen)
    (post : β → Seen → Prop)
    (ensures : Ensures semantics program s fun value after =>
      Ensures semantics (next value) after post) :
    Ensures semantics (program >>= next) s post := by
  induction program generalizing s with
  | done value => exact ensures
  | call operation rest ih =>
      exact ⟨ensures.1, fun ret after does => ih ret after (ensures.2 ret after does)⟩

theorem ensures_mono (program : Prog Op Ret α) (s : Seen) (post weaker : α → Seen → Prop)
    (ensures : Ensures semantics program s post)
    (implies : ∀ value after, post value after → weaker value after) :
    Ensures semantics program s weaker := by
  induction program generalizing s with
  | done value => exact implies value s ensures
  | call operation rest ih =>
      exact ⟨ensures.1, fun ret after does => ih ret after (ensures.2 ret after does)⟩

/-- The task ends well, with `post`. -/
def Succeeds (task : Task Op Ret Error α) (s : Seen) (post : α → Seen → Prop) : Prop :=
  Ensures semantics task.run s fun result after => ∃ value, result = .ok value ∧ post value after

theorem succeeds_pure (value : α) (s : Seen) (post : α → Seen → Prop) (holds : post value s) :
    Succeeds semantics (pure value : Task Op Ret Error α) s post :=
  ⟨value, rfl, holds⟩

theorem succeeds_bind (task : Task Op Ret Error α) (next : α → Task Op Ret Error β) (s : Seen)
    (post : β → Seen → Prop)
    (succeeds : Succeeds semantics task s fun value after =>
      Succeeds semantics (next value) after post) :
    Succeeds semantics (task >>= next) s post := by
  rw [Succeeds, ExceptT.run_bind]
  apply ensures_bind
  apply ensures_mono semantics _ _ _ _ succeeds
  rintro result after ⟨value, rfl, later⟩
  exact later

theorem succeeds_mono (task : Task Op Ret Error α) (s : Seen) (post weaker : α → Seen → Prop)
    (succeeds : Succeeds semantics task s post)
    (implies : ∀ value after, post value after → weaker value after) :
    Succeeds semantics task s weaker := by
  apply ensures_mono semantics _ _ _ _ succeeds
  rintro result after ⟨value, ok, holds⟩
  exact ⟨value, ok, implies value after holds⟩

theorem succeeds_always (program : Prog Op Ret α) (s : Seen) (post : α → Seen → Prop)
    (ensures : Ensures semantics program s post) :
    Succeeds semantics (always program : Task Op Ret Error α) s post := by
  apply ensures_bind semantics program _ s
  apply ensures_mono semantics _ _ _ _ ensures
  exact fun value after holds => ⟨value, rfl, holds⟩

theorem ensures_best_effort (task : Task Op Ret Error α) (s : Seen) (post : Unit → Seen → Prop)
    (succeeds : Succeeds semantics task s fun _ after => post () after) :
    Ensures semantics (bestEffort task) s post := by
  apply ensures_bind
  apply ensures_mono semantics _ _ _ _ succeeds
  rintro result after ⟨value, _, holds⟩
  exact holds

section Thread

open Interleaving

variable {State Spec Notes Answer Env History : Type}
variable (m : Machine Op Ret State Spec Notes Answer Env)
variable (record : Chronicle Op Ret State Spec Notes Answer Env History)
variable (meets : History → Config Op Ret State Spec Notes → Choice Answer Env → Prop)

/-- What the thread sees is changed by its own calls only, and by them as the semantics says. -/
structure Solo (id : Nat) (sees : History → Config Op Ret State Spec Notes → Seen → Prop) : Prop where
  own : ∀ h c t operation ret effect next choice s, meets h c choice →
    Calls m c t operation ret effect next choice → t.id = id → sees h c s →
    semantics.may s operation → ∃ after, semantics.does s operation ret after ∧
      sees (record.follow c choice (m.settle c (m.resumed t operation ret next) effect) h)
        (m.settle c (m.resumed t operation ret next) effect) after
  others : ∀ h c after choice s, meets h c choice → m.step c choice = some after →
    (∀ answer, choice ≠ .run id answer) → sees h c s →
    sees (record.follow c choice after h) after s ∧
      ∀ t ∈ c.threads, t.id = id → ∃ u ∈ after.threads, SameThread t u

def Ensured (id : Nat) (sees : History → Config Op Ret State Spec Notes → Seen → Prop)
    (post : Seen → Prop) (h : History) (c : Config Op Ret State Spec Notes) : Prop :=
  (∃ t ∈ c.threads, t.id = id ∧ ∃ s, sees h c s ∧
    Ensures semantics t.prog s fun _ after => post after) ∨
  ((∀ t ∈ c.threads, t.id ≠ id) ∧ ∃ s, sees h c s ∧ post s)

variable {m record meets}

theorem ensured_step (id : Nat) (sees : History → Config Op Ret State Spec Notes → Seen → Prop)
    (solo : Solo semantics m record meets id sees) (post : Seen → Prop) (h : History)
    (c after : Config Op Ret State Spec Notes) (choice : Choice Answer Env) (distinct : Distinct c)
    (older : id < c.next) (met : meets h c choice) (stepped : m.step c choice = some after)
    (ensured : Ensured semantics id sees post h c) :
    Ensured semantics id sees post (record.follow c choice after h) after := by
  by_cases own : ∃ answer, choice = .run id answer
  · rcases step_cases m c after choice stepped with
      ⟨t, operation, ret, effect, next, calls, rfl⟩ | ⟨_, killed, _, _⟩ | ⟨_, _, outside, _, _⟩
    · obtain ⟨answer, runs, _⟩ := calls.choice
      obtain ⟨_, mine⟩ := own
      have same : t.id = id := by
        rw [runs] at mine
        exact (Choice.run.inj mine).1
      rcases ensured with ⟨u, hu, hid, s, seen, ensures⟩ | ⟨gone, _⟩
      · obtain rfl := eq_of_same_id c distinct t u calls.member hu (same.trans hid.symm)
        rw [calls.prog] at ensures
        obtain ⟨later, does, sees_later⟩ :=
          solo.own h c t operation ret effect next choice s met calls same seen ensures.1
        have rest := ensures.2 ret later does
        cases ended : (next ret).isDone with
        | false =>
            obtain ⟨v, hv, kept⟩ := caller_stays m c t calls.member operation ret next effect ended
            refine Or.inl ⟨v, hv, kept.id.trans same, later, sees_later, ?_⟩
            rw [kept.prog]
            exact rest
        | true =>
            refine Or.inr ⟨fun v hv => ?_, later, sees_later, ?_⟩
            · rcases mem_settle m c _ v effect hv with ⟨_, going⟩ |
                ⟨before, _, other, kept, _⟩ | ⟨new, hnew, kept⟩
              · rw [show (m.resumed t operation ret next).prog = next ret from rfl, ended] at going
                cases going
              · rw [kept.id, ← same]
                exact other
              · have young := (mem_spawn_from m _ _ new hnew).2.1
                rw [kept.id]
                omega
            · cases program : next ret with
              | done value =>
                  rw [program] at rest
                  exact rest
              | call operation' next' =>
                  rw [program] at ended
                  cases ended
      · exact absurd same (gone t calls.member)
    · obtain ⟨_, mine⟩ := own
      rw [mine] at killed
      cases killed
    · obtain ⟨_, mine⟩ := own
      rw [mine] at outside
      cases outside
  · have foreign : ∀ answer, choice ≠ .run id answer := fun answer same => own ⟨answer, same⟩
    rcases ensured with ⟨t, ht, hid, s, seen, ensures⟩ | ⟨gone, s, seen, holds⟩
    · obtain ⟨seen_later, stays⟩ := solo.others h c after choice s met stepped foreign seen
      obtain ⟨u, hu, same⟩ := stays t ht hid
      refine Or.inl ⟨u, hu, same.id.trans hid, s, seen_later, ?_⟩
      rw [same.prog]
      exact ensures
    · obtain ⟨seen_later, _⟩ := solo.others h c after choice s met stepped foreign seen
      refine Or.inr ⟨fun v hv => ?_, s, seen_later, holds⟩
      rcases step_cases m c after choice stepped with
        ⟨t, operation, ret, effect, next, calls, rfl⟩ | ⟨_, _, _, rfl⟩ |
        ⟨event, reaction, _, _, rfl⟩
      · rcases mem_settle m c _ v effect hv with ⟨kept, _⟩ | ⟨before, hbefore, _, kept, _⟩ |
          ⟨new, hnew, kept⟩
        · rw [kept.id]
          exact gone t calls.member
        · rw [kept.id]
          exact gone before hbefore
        · have young := (mem_spawn_from m _ _ new hnew).2.1
          rw [kept.id]
          omega
      · obtain ⟨before, hbefore, _, kept⟩ := mem_without m c _ v hv
        rw [kept.id]
        exact gone before hbefore
      · rcases mem_absorb m c reaction v hv with ⟨_, before, hbefore, kept⟩ | ⟨new, hnew, kept⟩
        · rw [kept.id]
          exact gone before hbefore
        · have young := (mem_spawn_from m _ _ new hnew).2.1
          rw [kept.id]
          omega

end Thread

end FileReplicator.Sequential
