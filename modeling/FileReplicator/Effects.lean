import Mathlib.Logic.Basic

/-!
# Programs as trees of operations

A sequential program that calls operations and goes on with what they return;
and a discipline for such programs: notes that a run takes of its own calls, and
which calls the notes allow. Nothing here says what an operation does.
-/

namespace FileReplicator.Effects

/-- A program over the operations `Op`; `Ret` is what each of them returns. -/
inductive Prog (Op : Type) (Ret : Op → Type) (α : Type) where
  | done (value : α)
  | call (operation : Op) (next : Ret operation → Prog Op Ret α)

variable {Op : Type} {Ret : Op → Type} {Notes α β Error : Type}

namespace Prog

def bind (program : Prog Op Ret α) (next : α → Prog Op Ret β) : Prog Op Ret β :=
  match program with
  | .done value => next value
  | .call operation rest => .call operation fun ret => (rest ret).bind next

instance : Monad (Prog Op Ret) where
  pure := .done
  bind := bind

def perform (operation : Op) : Prog Op Ret (Ret operation) :=
  .call operation .done

def isDone : Prog Op Ret α → Bool
  | .done _ => true
  | .call _ _ => false

/-- The program over other operations, each operation replaced by a program that has its result. -/
def into {Outer : Type} {OuterRet : Outer → Type}
    (handle : (operation : Op) → Prog Outer OuterRet (Ret operation)) :
    Prog Op Ret α → Prog Outer OuterRet α
  | .done value => .done value
  | .call operation next => (handle operation).bind fun ret => (next ret).into handle

theorem bind_assoc {γ : Type} (program : Prog Op Ret α) (next : α → Prog Op Ret β)
    (last : β → Prog Op Ret γ) :
    (program >>= next) >>= last = program >>= fun value => next value >>= last := by
  induction program with
  | done value => rfl
  | call operation rest ih => exact congrArg (Prog.call operation) (funext ih)

theorem bind_unit (program : Prog Op Ret Unit) :
    (program >>= fun _ => (return () : Prog Op Ret Unit)) = program := by
  induction program with
  | done value => rfl
  | call operation rest ih => exact congrArg (Prog.call operation) (funext ih)

theorem into_bind {Outer : Type} {OuterRet : Outer → Type}
    (handle : (operation : Op) → Prog Outer OuterRet (Ret operation)) (program : Prog Op Ret α)
    (next : α → Prog Op Ret β) :
    (program >>= next).into handle = program.into handle >>= fun value => (next value).into handle := by
  induction program with
  | done value => rfl
  | call operation rest ih =>
      show (handle operation >>= fun ret => (rest ret >>= next).into handle) =
        (handle operation >>= fun ret => (rest ret).into handle) >>= _
      rw [bind_assoc]
      exact congrArg _ (funext ih)

end Prog

/-- What a run notes of each call, which calls its notes allow, and what a call may return. -/
structure Discipline (Op : Type) (Ret : Op → Type) (Notes : Type) where
  allowed : Notes → Op → Prop
  possible : (operation : Op) → Ret operation → Prop
  learn : Notes → (operation : Op) → Ret operation → Notes

/-- From these notes on every call is allowed, and the result and the last notes are as `post`
says. -/
def Keeps (discipline : Discipline Op Ret Notes) :
    Prog Op Ret α → Notes → (α → Notes → Prop) → Prop
  | .done value, notes, post => post value notes
  | .call operation next, notes, post =>
      discipline.allowed notes operation ∧
        ∀ ret, discipline.possible operation ret →
          Keeps discipline (next ret) (discipline.learn notes operation ret) post

section Rules

variable (discipline : Discipline Op Ret Notes)

theorem keeps_perform (operation : Op) (notes : Notes) (post : Ret operation → Notes → Prop)
    (allowed : discipline.allowed notes operation)
    (holds : ∀ ret, discipline.possible operation ret →
      post ret (discipline.learn notes operation ret)) :
    Keeps discipline (Prog.perform operation) notes post :=
  ⟨allowed, holds⟩

theorem keeps_bind (program : Prog Op Ret α) (next : α → Prog Op Ret β) (notes : Notes)
    (post : β → Notes → Prop)
    (keeps : Keeps discipline program notes fun value after =>
      Keeps discipline (next value) after post) :
    Keeps discipline (program >>= next) notes post := by
  induction program generalizing notes with
  | done value => exact keeps
  | call operation rest ih => exact ⟨keeps.1, fun ret possible => ih ret _ (keeps.2 ret possible)⟩

theorem keeps_mono (program : Prog Op Ret α) (notes : Notes) (post weaker : α → Notes → Prop)
    (keeps : Keeps discipline program notes post)
    (implies : ∀ value after, post value after → weaker value after) :
    Keeps discipline program notes weaker := by
  induction program generalizing notes with
  | done value => exact implies value notes keeps
  | call operation rest ih => exact ⟨keeps.1, fun ret possible => ih ret _ (keeps.2 ret possible)⟩

/-! Programs that may fail. -/

abbrev Task (Op : Type) (Ret : Op → Type) (Error α : Type) := ExceptT Error (Prog Op Ret) α

theorem keeps_task_bind (task : Task Op Ret Error α) (next : α → Task Op Ret Error β)
    (notes : Notes) (post : Except Error β → Notes → Prop)
    (keeps : Keeps discipline task.run notes fun result after =>
      match result with
      | .ok value => Keeps discipline (next value).run after post
      | .error error => post (.error error) after) :
    Keeps discipline (task >>= next).run notes post := by
  rw [ExceptT.run_bind]
  refine keeps_bind discipline _ _ _ _ (keeps_mono discipline _ _ _ _ keeps ?_)
  intro result after holds
  cases result with
  | ok value => exact holds
  | error error => exact holds

/-- A program without failures as a step of a task. -/
def always (program : Prog Op Ret α) : Task Op Ret Error α := ExceptT.lift program

theorem keeps_always (program : Prog Op Ret α) (notes : Notes)
    (post : Except Error α → Notes → Prop)
    (keeps : Keeps discipline program notes fun value after => post (.ok value) after) :
    Keeps discipline (always program : Task Op Ret Error α).run notes post := by
  refine keeps_bind discipline program _ notes post (keeps_mono discipline _ _ _ _ keeps ?_)
  exact fun value after holds => holds

/-- `let _ = …`: the step's result does not matter. -/
def bestEffort (task : Task Op Ret Error α) : Prog Op Ret Unit := do
  let _ ← task.run
  return ()

theorem keeps_best_effort (task : Task Op Ret Error α) (notes : Notes)
    (post : Unit → Notes → Prop)
    (keeps : Keeps discipline task.run notes fun _ after => post () after) :
    Keeps discipline (bestEffort task) notes post :=
  keeps_bind discipline _ _ _ _ keeps

/-! Programs that call only some of the operations. -/

section Within

variable (wanted : Op → Prop)

def Within : Prog Op Ret α → Prop
  | .done _ => True
  | .call operation next => wanted operation ∧ ∀ ret, Within (next ret)

theorem within_perform (operation : Op) (is : wanted operation) :
    Within wanted (Prog.perform operation : Prog Op Ret (Ret operation)) :=
  ⟨is, fun _ => trivial⟩

theorem within_bind (program : Prog Op Ret α) (next : α → Prog Op Ret β)
    (first : Within wanted program) (rest : ∀ value, Within wanted (next value)) :
    Within wanted (program >>= next) := by
  induction program with
  | done value => exact rest value
  | call operation later ih => exact ⟨first.1, fun ret => ih ret (first.2 ret)⟩

theorem within_task_bind (task : Task Op Ret Error α) (next : α → Task Op Ret Error β)
    (first : Within wanted task.run) (rest : ∀ value, Within wanted (next value).run) :
    Within wanted (task >>= next).run := by
  rw [ExceptT.run_bind]
  refine within_bind wanted _ _ first fun result => ?_
  cases result with
  | ok value => exact rest value
  | error error => exact trivial

theorem within_always (program : Prog Op Ret α) (within : Within wanted program) :
    Within wanted (always program : Task Op Ret Error α).run :=
  within_bind wanted _ _ within fun _ => trivial

theorem within_best_effort (task : Task Op Ret Error α) (within : Within wanted task.run) :
    Within wanted (bestEffort task) :=
  within_bind wanted _ _ within fun _ => trivial

theorem within_mono (weaker : Op → Prop) (program : Prog Op Ret α)
    (implies : ∀ operation, wanted operation → weaker operation) (within : Within wanted program) :
    Within weaker program := by
  induction program with
  | done value => exact trivial
  | call operation next ih => exact ⟨implies operation within.1, fun ret => ih ret (within.2 ret)⟩

theorem keeps_within (program : Prog Op Ret α) (notes : Notes)
    (plain : ∀ operation, wanted operation → discipline.allowed notes operation ∧
      ∀ ret, discipline.possible operation ret → discipline.learn notes operation ret = notes)
    (within : Within wanted program) :
    Keeps discipline program notes fun _ after => after = notes := by
  induction program with
  | done value => rfl
  | call operation next ih =>
      obtain ⟨is, later⟩ := within
      obtain ⟨allowed, same⟩ := plain operation is
      refine ⟨allowed, fun ret possible => ?_⟩
      rw [same ret possible]
      exact ih ret (later ret)

end Within

/-- A program keeps to an outer discipline when each operation it calls is replaced by a program
that learns the same. -/
theorem keeps_into {Outer : Type} {OuterRet : Outer → Type}
    (outer : Discipline Outer OuterRet Notes)
    (handle : (operation : Op) → Prog Outer OuterRet (Ret operation))
    (sound : ∀ notes operation, discipline.allowed notes operation →
      Keeps outer (handle operation) notes fun ret after =>
        discipline.possible operation ret ∧ after = discipline.learn notes operation ret)
    (program : Prog Op Ret α) (notes : Notes) (post : α → Notes → Prop)
    (keeps : Keeps discipline program notes post) : Keeps outer (program.into handle) notes post := by
  induction program generalizing notes with
  | done value => exact keeps
  | call operation next ih =>
      apply keeps_bind
      apply keeps_mono _ _ _ _ _ (sound notes operation keeps.1)
      rintro ret _ ⟨possible, rfl⟩
      exact ih ret _ (keeps.2 ret possible)

/-- A program that keeps to one discipline keeps to another that allows as much, from notes that
stand in a relation which every call preserves. -/
theorem keeps_simulated {OtherNotes : Type} (outer : Discipline Op Ret OtherNotes)
    (related : Notes → OtherNotes → Prop)
    (sound : ∀ notes others operation, related notes others → discipline.allowed notes operation →
      outer.allowed others operation ∧ ∀ ret, outer.possible operation ret →
        discipline.possible operation ret ∧
          related (discipline.learn notes operation ret) (outer.learn others operation ret))
    (program : Prog Op Ret α) (notes : Notes) (others : OtherNotes) (relates : related notes others)
    (post : α → Notes → Prop) (keeps : Keeps discipline program notes post) :
    Keeps outer program others fun value after => ∃ notes, related notes after ∧ post value notes := by
  induction program generalizing notes others with
  | done value => exact ⟨notes, relates, keeps⟩
  | call operation next ih =>
      obtain ⟨allowed, later⟩ := sound notes others operation relates keeps.1
      refine ⟨allowed, fun ret possible => ?_⟩
      obtain ⟨also, still⟩ := later ret possible
      exact ih ret _ _ still (keeps.2 ret also)

end Rules

end FileReplicator.Effects
