import FileReplicator.Effects

/-!
# Programs that give back the notes they were given

A program that, from notes of a kind on, keeps to its discipline and ends with
notes of that kind. Such programs can be put together in any way.
-/

namespace FileReplicator.Steadiness

open Effects

variable {Op : Type} {Ret : Op → Type} {Notes Error α β : Type}
variable (discipline : Discipline Op Ret Notes) (kept : Notes → Prop)

def Steady (program : Prog Op Ret α) : Prop :=
  ∀ notes, kept notes → Keeps discipline program notes fun _ after => kept after

/-- An operation that may be called with such notes and leaves such notes. -/
def Plain (operation : Op) : Prop :=
  ∀ notes, kept notes → discipline.allowed notes operation ∧
    ∀ ret, discipline.possible operation ret → kept (discipline.learn notes operation ret)

theorem steady_return (value : α) : Steady discipline kept (.done value : Prog Op Ret α) :=
  fun _ holds => holds

theorem keeps_ended (program : Prog Op Ret α) (notes : Notes) (post : Notes → Prop)
    (keeps : Keeps discipline program notes fun _ after => post after)
    (ended : program.isDone = true) : post notes := by
  cases program with
  | done value => exact keeps
  | call operation next => cases ended

theorem steady_perform (operation : Op) (plain : Plain discipline kept operation) :
    Steady discipline kept (Prog.perform operation : Prog Op Ret (Ret operation)) :=
  fun notes holds => plain notes holds

theorem steady_bind (program : Prog Op Ret α) (next : α → Prog Op Ret β)
    (first : Steady discipline kept program) (rest : ∀ value, Steady discipline kept (next value)) :
    Steady discipline kept (program >>= next) := by
  intro notes holds
  apply keeps_bind
  exact keeps_mono _ _ _ _ _ (first notes holds) fun value after still => rest value after still

theorem steady_task_bind (task : Task Op Ret Error α) (next : α → Task Op Ret Error β)
    (first : Steady discipline kept task.run)
    (rest : ∀ value, Steady discipline kept (next value).run) :
    Steady discipline kept (task >>= next).run := by
  intro notes holds
  apply keeps_task_bind
  apply keeps_mono _ _ _ _ _ (first notes holds)
  intro result after still
  cases result with
  | ok value => exact rest value after still
  | error error => exact still

theorem steady_always (program : Prog Op Ret α) (steady : Steady discipline kept program) :
    Steady discipline kept (always program : Task Op Ret Error α).run := by
  intro notes holds
  apply keeps_always
  exact steady notes holds

theorem steady_best_effort (task : Task Op Ret Error α) (steady : Steady discipline kept task.run) :
    Steady discipline kept (bestEffort task) := by
  intro notes holds
  apply keeps_best_effort
  exact steady notes holds

theorem steady_within (wanted : Op → Prop) (program : Prog Op Ret α)
    (plain : ∀ operation, wanted operation → Plain discipline kept operation)
    (within : Within wanted program) : Steady discipline kept program := by
  induction program with
  | done value => exact steady_return discipline kept value
  | call operation next ih =>
      intro notes holds
      obtain ⟨allowed, left⟩ := plain operation within.1 notes holds
      exact ⟨allowed, fun ret possible => ih ret (within.2 ret) _ (left ret possible)⟩

end FileReplicator.Steadiness
