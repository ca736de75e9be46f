import FileReplicator.Effects

/-!
# Programs that may be stopped anywhere

What holds of the state wherever a program is stopped before one of its calls,
and at its end. The calls change the state as the semantics allows; nothing here
says what they do.
-/

namespace FileReplicator.CrashLogic

open Effects

variable {Op : Type} {Ret : Op → Type} {State α β Error : Type}

abbrev Semantics (Op : Type) (Ret : Op → Type) (State : Type) :=
  State → (operation : Op) → Ret operation → State → Prop

/-- `steady` holds at every call, and `post` at the end. -/
def Safe (can : Semantics Op Ret State) (steady : State → Prop) :
    Prog Op Ret α → State → (α → State → Prop) → Prop
  | .done value, state, post => post value state
  | .call operation next, state, post =>
      steady state ∧ ∀ ret after, can state operation ret after →
        Safe can steady (next ret) after post

section Rules

variable (can : Semantics Op Ret State) (steady : State → Prop)

theorem safe_perform (operation : Op) (state : State) (post : Ret operation → State → Prop)
    (held : steady state) (holds : ∀ ret after, can state operation ret after → post ret after) :
    Safe can steady (Prog.perform operation) state post :=
  ⟨held, holds⟩

theorem safe_bind (program : Prog Op Ret α) (next : α → Prog Op Ret β) (state : State)
    (post : β → State → Prop)
    (safe : Safe can steady program state fun value after => Safe can steady (next value) after post) :
    Safe can steady (program >>= next) state post := by
  induction program generalizing state with
  | done value => exact safe
  | call operation rest ih =>
      exact ⟨safe.1, fun ret after performed => ih ret after (safe.2 ret after performed)⟩

theorem safe_mono (program : Prog Op Ret α) (state : State) (post weaker : α → State → Prop)
    (safe : Safe can steady program state post)
    (implies : ∀ value after, post value after → weaker value after) :
    Safe can steady program state weaker := by
  induction program generalizing state with
  | done value => exact implies value state safe
  | call operation rest ih =>
      exact ⟨safe.1, fun ret after performed => ih ret after (safe.2 ret after performed)⟩

theorem safe_map (program : Prog Op Ret α) (change : α → β) (state : State)
    (post : β → State → Prop)
    (safe : Safe can steady program state fun value after => post (change value) after) :
    Safe can steady (program >>= fun value => pure (change value)) state post :=
  safe_bind can steady program _ state post safe

theorem safe_task_bind (task : Task Op Ret Error α) (next : α → Task Op Ret Error β)
    (state : State) (post : Except Error β → State → Prop)
    (safe : Safe can steady task.run state fun result after =>
      match result with
      | .ok value => Safe can steady (next value).run after post
      | .error error => post (.error error) after) :
    Safe can steady (task >>= next).run state post := by
  rw [ExceptT.run_bind]
  apply safe_bind
  apply safe_mono can steady _ _ _ _ safe
  intro result after holds
  cases result with
  | ok value => exact holds
  | error error => exact holds

theorem safe_always (program : Prog Op Ret α) (state : State) (post : Except Error α → State → Prop)
    (safe : Safe can steady program state fun value after => post (.ok value) after) :
    Safe can steady (always program : Task Op Ret Error α).run state post := by
  apply safe_bind
  apply safe_mono can steady _ _ _ _ safe
  intro value after holds
  exact holds

end Rules

/-! ## What may happen

Some way the calls may end leads the program to its end, with `post`. -/

section Possible

variable (can : Semantics Op Ret State)

def May : Prog Op Ret α → State → (α → State → Prop) → Prop
  | .done value, state, post => post value state
  | .call operation next, state, post =>
      ∃ ret after, can state operation ret after ∧ May (next ret) after post

theorem may_perform (operation : Op) (state after : State) (ret : Ret operation)
    (post : Ret operation → State → Prop) (performed : can state operation ret after)
    (holds : post ret after) : May can (Prog.perform operation) state post :=
  ⟨ret, after, performed, holds⟩

theorem may_bind (program : Prog Op Ret α) (next : α → Prog Op Ret β) (state : State)
    (post : β → State → Prop)
    (may : May can program state fun value after => May can (next value) after post) :
    May can (program >>= next) state post := by
  induction program generalizing state with
  | done value => exact may
  | call operation rest ih =>
      obtain ⟨ret, after, performed, later⟩ := may
      exact ⟨ret, after, performed, ih ret after later⟩

theorem may_mono (program : Prog Op Ret α) (state : State) (post weaker : α → State → Prop)
    (may : May can program state post) (implies : ∀ value after, post value after → weaker value after) :
    May can program state weaker := by
  induction program generalizing state with
  | done value => exact implies value state may
  | call operation rest ih =>
      obtain ⟨ret, after, performed, later⟩ := may
      exact ⟨ret, after, performed, ih ret after later⟩

theorem may_task_bind (task : Task Op Ret Error α) (next : α → Task Op Ret Error β)
    (state : State) (post : Except Error β → State → Prop)
    (may : May can task.run state fun result after =>
      match result with
      | .ok value => May can (next value).run after post
      | .error error => post (.error error) after) :
    May can (task >>= next).run state post := by
  rw [ExceptT.run_bind]
  apply may_bind
  apply may_mono can _ _ _ _ may
  intro result after holds
  cases result with
  | ok value => exact holds
  | error error => exact holds

theorem may_always (program : Prog Op Ret α) (state : State) (post : Except Error α → State → Prop)
    (may : May can program state fun value after => post (.ok value) after) :
    May can (always program : Task Op Ret Error α).run state post := by
  apply may_bind
  apply may_mono can _ _ _ _ may
  intro value after holds
  exact holds

end Possible

/-! ## Runs

Each call is given an answer, from a script that may end anywhere or by a rule. -/

section Runs

variable {Answer : Type} (call : State → (operation : Op) → Answer → Ret operation × State)

/-- The program, stopped where the script ends. -/
def execute : Prog Op Ret α → State → List Answer → Option α × State
  | .done value, state, _ => (some value, state)
  | .call _ _, state, [] => (none, state)
  | .call operation next, state, answer :: rest =>
      let out := call state operation answer
      execute (next out.1) out.2 rest

def finish (rule : Answer) : Prog Op Ret α → State → α × State
  | .done value, state => (value, state)
  | .call operation next, state =>
      let out := call state operation rule
      finish rule (next out.1) out.2

/-- Every answer of the script may be given where it is given. -/
def Admitted (admits : State → Op → Answer → Prop) :
    Prog Op Ret α → State → List Answer → Prop
  | .done _, _, _ => True
  | .call _ _, _, [] => True
  | .call operation next, state, answer :: rest =>
      admits state operation answer ∧
        let out := call state operation answer
        Admitted admits (next out.1) out.2 rest

/-- The results and states that admitted answers give. -/
def admitted (admits : State → Op → Answer → Prop) : Semantics Op Ret State :=
  fun state operation ret after =>
    ∃ answer, admits state operation answer ∧ call state operation answer = (ret, after)

variable (admits : State → Op → Answer → Prop) (steady : State → Prop)

theorem safe_answered (operation : Op) (state : State) (post : Ret operation → State → Prop)
    (held : steady state) (holds : ∀ answer, admits state operation answer →
      post (call state operation answer).1 (call state operation answer).2) :
    Safe (admitted call admits) steady (Prog.perform operation) state post := by
  apply safe_perform _ _ _ _ _ held
  rintro ret after ⟨answer, may, performed⟩
  have after_call := holds answer may
  rw [performed] at after_call
  exact after_call

theorem safe_execute (program : Prog Op Ret α) (state : State) (post : α → State → Prop)
    (script : List Answer) (safe : Safe (admitted call admits) steady program state post)
    (answered : Admitted call admits program state script) :
    ((execute call program state script).1 = none → steady (execute call program state script).2) ∧
      ∀ value, (execute call program state script).1 = some value →
        post value (execute call program state script).2 := by
  induction program generalizing state script with
  | done value =>
      constructor
      · intro stopped
        simp [execute] at stopped
      · intro result ended
        simp only [execute, Option.some.injEq] at ended
        exact ended ▸ safe
  | call operation next ih =>
      cases script with
      | nil =>
          constructor
          · intro _
            exact safe.1
          · intro result ended
            simp [execute] at ended
      | cons answer rest =>
          exact ih _ _ rest (safe.2 _ _ ⟨answer, answered.1, rfl⟩) answered.2

theorem safe_finish (rule : Answer) (always : ∀ state operation, admits state operation rule)
    (program : Prog Op Ret α) (state : State) (post : α → State → Prop)
    (safe : Safe (admitted call admits) steady program state post) :
    post (finish call rule program state).1 (finish call rule program state).2 := by
  induction program generalizing state with
  | done value => exact safe
  | call operation next ih => exact ih _ _ (safe.2 _ _ ⟨rule, always state operation, rfl⟩)

theorem may_execute (program : Prog Op Ret α) (state : State) (post : α → State → Prop)
    (may : May (admitted call admits) program state post) :
    ∃ script, Admitted call admits program state script ∧
      ∃ value, (execute call program state script).1 = some value ∧
        post value (execute call program state script).2 := by
  induction program generalizing state with
  | done value => exact ⟨[], trivial, value, rfl, may⟩
  | call operation next ih =>
      obtain ⟨ret, after, ⟨answer, admits, performed⟩, later⟩ := may
      obtain ⟨script, answered, value, ended, holds⟩ := ih ret after later
      refine ⟨answer :: script, ?_, value, ?_, ?_⟩
      · rw [Admitted, performed]
        exact ⟨admits, answered⟩
      · rw [execute, performed]
        exact ended
      · rw [execute, performed]
        exact holds

end Runs

end FileReplicator.CrashLogic
