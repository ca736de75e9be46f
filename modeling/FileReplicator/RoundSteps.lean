import FileReplicator.RoundRuns

/-!
# The steps of a round

What each call of a round leaves of its attempts and of the rows of its
destinations, and from that what holds after every step.
-/

namespace FileReplicator.RoundSteps

open Domain DurableStore Effects FileTree SourceActions Retry Operations Worker Interleaving Instance
open Steps Runs Rounds RoundRuns

variable (setup : Setup)

/-! ## Threads that have made a call -/

/-- A thread makes its next call, and the call is one that the round allows. -/
structure Called (c : Round) (t : Member) (operation : Op) (ret : Ret operation)
    (effect : Effect World Spec) (next : Ret operation → Program Unit) : Prop where
  member : t ∈ c.threads
  prog : t.prog = .call operation next
  distinct : Distinct c
  allowed : allowed setup t.notes operation
  later : Keeps (discipline setup) (next ret) (learn t.notes operation ret)
    fun _ notes => Finished notes
  possible : possible operation ret
  did : Did setup (retold t) (Machine.live c) c.state operation ret effect

theorem finished_of_done (program : Program Unit) (n : Notes)
    (keeps : Keeps (discipline setup) program n fun _ notes => Finished notes)
    (done : program.isDone = true) : Finished n := by
  cases program with
  | done value => exact keeps
  | call operation next => cases done

theorem allowed_of_going (program : Program Unit) (n : Notes)
    (keeps : Keeps (discipline setup) program n fun _ notes => Finished notes)
    (going : program.isDone = false) : ∃ operation, allowed setup n operation := by
  cases program with
  | done value => cases going
  | call operation next => exact ⟨operation, keeps.1⟩

structure Quiet (effect : Effect World Spec) : Prop where
  spawned : effect.spawned = []
  spares : ∀ id spec, effect.fate id spec = .stays

theorem quiet_changes (world : World) : Quiet (changes world) :=
  ⟨rfl, fun _ _ => rfl⟩

section Called

variable {setup} {c : Round} {t : Member} {operation : Op} {ret : Ret operation}
variable {effect : Effect World Spec} {next : Ret operation → Program Unit}

theorem Called.unique (called : Called setup c t operation ret effect next) :
    ∀ b ∈ c.threads, b.id = t.id → b = t :=
  fun b hb same => eq_of_same_id c called.distinct b t hb called.member same

theorem Called.back (_ : Called setup c t operation ret effect next) (quiet : Quiet effect)
    (u : Member) (member : u ∈ after setup c t operation ret effect next) :
    (u.id = t.id ∧ u.spec = t.spec ∧ u.notes = learn t.notes operation ret ∧ u.prog = next ret ∧
      (next ret).isDone = false) ∨ ∃ b ∈ c.threads, b.id ≠ t.id ∧ Alike b u := by
  rcases after_cases setup c t operation ret effect next u member with own | other | ⟨new, _⟩
  · exact Or.inl own
  · exact Or.inr other
  · rw [quiet.spawned] at new
    cases new

theorem Called.forth (_ : Called setup c t operation ret effect next) (quiet : Quiet effect)
    (b : Member) (member : b ∈ c.threads) (other : b.id ≠ t.id) :
    ∃ u ∈ after setup c t operation ret effect next, Alike b u :=
  other_after setup c t operation ret effect next b member other
    (by rw [quiet.spares]; exact Fate.noConfusion)

end Called

/-! ## A call of an attempt -/

/-- What the status of an attempt says of the row of its destination. -/
def settledOf : Status → Option Settled
  | .recorded v | .ended v | .joined v => some v
  | _ => none

theorem expected_settled (before : String → Option DestState) (item : WorkItem) (now : Int)
    (label : String) (status : Status) :
    expected setup before item now label status =
      match settledOf status with
      | some v => some (settledState setup (ctxOf before item now label) (before label) v)
      | none => before label := by
  cases status <;> rfl

structure AttemptDid (ctx : AttemptCtx) (status : Status) (operation : Op) (ret : Ret operation)
    (world : World) (effect : Effect World Spec) : Prop where
  quiet : Quiet effect
  items : effect.state.store.items = world.store.items
  tried : (learnAttempt status operation ret).tried = (status.tried || delivers operation)
  first : delivers operation = true → status.tried = false
  results : ((learnAttempt status operation ret).running = true ∧
      effect.state.attempts = world.attempts) ∨
    ∃ v, learnAttempt status operation ret = .ended v ∧ effect.state.attempts 1 =
      world.attempts 1 ++ [.ok (ctx.label, outcomeOf setup ctx v)]
  dests : (effect.state.store.dests = world.store.dests ∧
      settledOf (learnAttempt status operation ret) = settledOf status) ∨
    ∃ v, learnAttempt status operation ret = .recorded v ∧ settledOf status = none ∧
      effect.state.store.dests = (world.store.setDest ctx.item.relpath ctx.label
        fun prior => settledState setup ctx prior v).dests

theorem unrecorded_did (ctx : AttemptCtx) (status : Status) (operation : Op) (ret : Ret operation)
    (world after : World) (items : after.store.items = world.store.items)
    (dests : after.store.dests = world.store.dests) (attempts : after.attempts = world.attempts)
    (running : (learnAttempt status operation ret).running = true)
    (settled : settledOf (learnAttempt status operation ret) = settledOf status)
    (tried : (learnAttempt status operation ret).tried = (status.tried || delivers operation))
    (first : delivers operation = true → status.tried = false) :
    AttemptDid setup ctx status operation ret world (changes after) :=
  ⟨quiet_changes after, items, tried, first, Or.inl ⟨running, attempts⟩, Or.inl ⟨dests, settled⟩⟩

theorem delivery_did (ctx : AttemptCtx) (item : WorkItem) (label : String)
    (resume : Option ResumeState) (t : Running) (live : List Spec) (world : World)
    (ret : Except ReplError Delivered) (effect : Effect World Spec)
    (did : Did setup t live world (.deliver item label resume) ret effect) :
    AttemptDid setup ctx .fresh (.deliver item label resume) ret world effect := by
  cases did with
  | delivered item label resume bytes source =>
      exact unrecorded_did setup ctx _ _ _ _ _ rfl rfl rfl rfl rfl rfl fun _ => rfl
  | undelivered item label resume left error after stored =>
      rcases stored with rfl | ⟨bytes, _, rfl⟩
      · exact unrecorded_did setup ctx _ _ _ _ _ rfl rfl rfl rfl rfl rfl fun _ => rfl
      · exact unrecorded_did setup ctx _ _ _ _ _ rfl rfl rfl rfl rfl rfl fun _ => rfl

theorem reading_did (ctx : AttemptCtx) (status : Status) (operation : StoreOp) (t : Running)
    (live : List Spec) (world : World) (ret : Except ReplError (StoreRet operation))
    (effect : Effect World Spec) (did : Did setup t live world (.store operation) ret effect)
    (can : possible (.store operation) ret)
    (items : (callStore world.store operation).2.items = world.store.items)
    (dests : (callStore world.store operation).2.dests = world.store.dests)
    (same : learnAttempt status (.store operation) ret = status) (running : status.running = true) :
    AttemptDid setup ctx status (.store operation) ret world effect := by
  cases did with
  | statement =>
      refine unrecorded_did setup ctx _ _ _ _ _ items dests rfl ?_ ?_ ?_ Bool.noConfusion
      · rw [same]
        exact running
      · rw [same]
      · rw [same]
        exact (Bool.or_false _).symm
  | refused text => exact can.elim

theorem recording_did (ctx : AttemptCtx) (status : Status) (operation : StoreOp) (t : Running)
    (live : List Spec) (world : World) (ret : Except ReplError (StoreRet operation))
    (effect : Effect World Spec) (did : Did setup t live world (.store operation) ret effect)
    (can : possible (.store operation) ret) (v : Settled)
    (recorded : learnAttempt status (.store operation) ret = .recorded v)
    (unsettled : settledOf status = none) (tried : status.tried = true)
    (items : (callStore world.store operation).2.items = world.store.items)
    (dests : (callStore world.store operation).2.dests =
      (world.store.setDest ctx.item.relpath ctx.label
        fun prior => settledState setup ctx prior v).dests) :
    AttemptDid setup ctx status (.store operation) ret world effect := by
  cases did with
  | statement =>
      refine ⟨quiet_changes _, items, ?_, Bool.noConfusion, Or.inl ⟨?_, rfl⟩,
        Or.inr ⟨v, recorded, unsettled, dests⟩⟩
      · rw [recorded, tried]
        rfl
      · rw [recorded]
        rfl
  | refused text => exact can.elim

theorem attempt_did (t : Running) (live : List Spec) (world : World) (ctx : AttemptCtx)
    (status : Status) (operation : Op) (ret : Ret operation) (effect : Effect World Spec)
    (spec : t.spec = .attempt 1 ctx) (may : allowedAttempt setup ctx status operation)
    (can : possible operation ret) (did : Did setup t live world operation ret effect) :
    AttemptDid setup ctx status operation ret world effect := by
  unfold allowedAttempt at may
  split at may
  · exact delivery_did setup ctx _ _ _ t live world ret effect did
  · exact reading_did setup ctx _ _ t live world ret effect did can rfl rfl rfl rfl
  · cases did with
    | checked =>
        have judged : ∀ verdict, (learnVerdict verdict).running = true ∧
            settledOf (learnVerdict verdict) = none ∧ (learnVerdict verdict).tried = true := by
          intro verdict
          cases verdict <;> exact ⟨rfl, rfl, rfl⟩
        exact unrecorded_did setup ctx _ _ _ _ _ rfl rfl rfl (judged _).1 (judged _).2.1
          (judged _).2.2 Bool.noConfusion
    | unchecked item label expected policy error =>
        exact unrecorded_did setup ctx _ _ _ _ _ rfl rfl rfl rfl rfl rfl Bool.noConfusion
  · exact reading_did setup ctx _ _ t live world ret effect did can rfl rfl rfl rfl
  · obtain ⟨rfl, rfl, rfl⟩ := may
    refine recording_did setup ctx _ _ t live world ret effect did can .verified rfl rfl rfl rfl ?_
    show (world.store.setDest _ _ _).dests = _
    congr 2
  · cases did with
    | drawn n => exact unrecorded_did setup ctx _ _ _ _ _ rfl rfl rfl rfl rfl rfl Bool.noConfusion
  · rename_i e jitter relpath label error phase gate
    obtain ⟨rfl, rfl, rfl, decided⟩ := may
    refine recording_did setup ctx _ _ t live world ret effect did can (.failed e jitter) rfl rfl rfl
      rfl ?_
    show (world.store.setDest _ _ _).dests = _
    congr 2
    funext prior
    rw [settledState, ← congrArg Prod.fst decided, ← congrArg Prod.snd decided]
  · exact reading_did setup ctx _ _ t live world ret effect did can rfl rfl rfl rfl
  · exact reading_did setup ctx _ _ t live world ret effect did can rfl rfl rfl rfl
  · cases did with
    | aborted item label resume ret =>
        exact unrecorded_did setup ctx _ _ _ _ _ rfl rfl rfl rfl rfl rfl Bool.noConfusion
  · rename_i v result
    subst may
    cases did with
    | endedAttempt owner ctx' same result =>
        rw [spec] at same
        cases same
        have reported : (if (1 : Nat) = 1 then world.attempts 1 ++ [Except.ok
            (ctx.label, outcomeOf setup ctx v)] else world.attempts 1) = _ := if_pos rfl
        exact ⟨quiet_changes _, rfl, rfl, Bool.noConfusion, Or.inr ⟨v, rfl, reported⟩,
          Or.inl ⟨rfl, rfl⟩⟩
  · exact may.elim

theorem dry_of_concluded (stage : Stage) (concluded : stage.concluded = true) : stage.dry = true := by
  cases stage with
  | joining existing joined dry => cases concluded
  | _ => exact concluded

theorem unfinished_of_unconcluded (stage : Stage) (going : stage.concluded = false) :
    stage.isCompleted = false := by
  cases stage with
  | completed existing joined => cases going
  | _ => rfl

section Steps

variable (world : World) (item : WorkItem) (now : Int)

theorem rows_attempt (h : Log) (store after : Store) (label : String) (status : Status)
    (delivered : Bool) (rows : RowsAre setup (world.store.dests item.relpath) item now world h store)
    (items : after.items = store.items)
    (dests : (after.dests = store.dests ∧ settledOf status = settledOf (h.status label)) ∨
      ∃ v, status = .recorded v ∧ settledOf (h.status label) = none ∧
        after.dests = (store.setDest item.relpath label fun prior =>
          settledState setup (ctxOf (world.store.dests item.relpath) item now label) prior v).dests)
    (unfinished : h.stage.isCompleted = false) :
    RowsAre setup (world.store.dests item.relpath) item now world (h.attempt label status delivered)
      after := by
  have was := rows.dests unfinished
  constructor
  · intro _ other
    by_cases own : other = label
    · subst own
      have status_own : (h.attempt other status delivered).status other = status := if_pos rfl
      rw [status_own, expected_settled]
      rcases dests with ⟨same, settled⟩ | ⟨v, rfl, unsettled, changed⟩
      · rw [same, was, expected_settled, settled]
      · have before := was other
        rw [expected_settled, unsettled] at before
        rw [changed]
        simp only [Store.setDest, and_self, if_true, before, settledOf]
    · have status_other : (h.attempt label status delivered).status other = h.status other :=
        if_neg own
      rw [status_other, ← was other]
      rcases dests with ⟨same, _⟩ | ⟨v, _, _, changed⟩
      · rw [same]
      · rw [changed]
        simp only [Store.setDest, own, and_false, if_false]
  · intro r apart
    rw [← rows.foreign r apart]
    rcases dests with ⟨same, _⟩ | ⟨v, _, _, changed⟩
    · rw [same]
    · rw [changed]
      funext other
      simp only [Store.setDest, apart, false_and, if_false]
  · rw [items]
    exact rows.row

theorem attempt_step (h : Log) (c : Round) (t : Member) (operation : Op) (ret : Ret operation)
    (effect : Effect World Spec) (next : Ret operation → Program Unit)
    (called : Called setup c t operation ret effect next) (going : Going setup world item now h c)
    (label : String)
    (spec : t.spec = .attempt 1 (ctxOf (world.store.dests item.relpath) item now label))
    (notes : t.notes = .attempt (ctxOf (world.store.dests item.relpath) item now label) (h.status label))
    (runs : (h.status label).running = true) :
    Going setup world item now (note h t.notes operation ret)
      ((rounds setup).settle c ((rounds setup).resumed t operation ret next) effect) := by
  have may := called.allowed
  have later := called.later
  rw [notes] at may later ⊢
  change Keeps (discipline setup) (next ret) (.attempt _ (learnAttempt (h.status label) operation ret))
    _ at later
  have done := attempt_did setup (retold t) _ c.state _ _ operation ret effect spec may
    called.possible called.did
  -- no attempt is left once the item has come to a conclusion
  have open_stage : h.stage.concluded = false := by
    cases concluded : h.stage.concluded with
    | false => rfl
    | true =>
        rcases going.attempts.dry (dry_of_concluded h.stage concluded) label with none | ⟨v, joined⟩
        · rw [none] at runs
          cases runs
        · rw [joined] at runs
          cases runs
  have unfinished := unfinished_of_unconcluded h.stage open_stage
  have same : note h (.attempt (ctxOf (world.store.dests item.relpath) item now label)
      (h.status label)) operation ret =
      h.attempt label (learnAttempt (h.status label) operation ret) (delivers operation) := rfl
  rw [same]
  have running_of_going : (next ret).isDone = false →
      (learnAttempt (h.status label) operation ret).running = true := by
    intro goes
    obtain ⟨another, allowed⟩ := allowed_of_going setup _ _ later goes
    rcases done.results with ⟨running, _⟩ | ⟨v, ended, _⟩
    · exact running
    · rw [ended] at allowed
      exact allowed.elim
  have going_of_running : (learnAttempt (h.status label) operation ret).running = true →
      (next ret).isDone = false := by
    intro running
    cases finished : (next ret).isDone with
    | false => rfl
    | true =>
        obtain ⟨v, ended⟩ := finished_of_done setup _ _ later finished
        rw [ended] at running
        cases running
  constructor
  · refine attempts_call setup _ item now h c.threads _ _ _ going.attempts t called.member
      called.unique label spec notes runs _ _ ?_ done.tried done.first ?_ ?_ ?_
    · rcases done.results with ⟨running, same⟩ | ⟨v, ended, added⟩
      · show Onward setup _ item now label _ _ (effect.state.attempts 1)
        rw [same]
        exact .running _ running
      · show Onward setup _ item now label _ _ (effect.state.attempts 1)
        rw [added, ended]
        exact .ended v
    · intro u hu
      rcases called.back done.quiet u hu with ⟨id, same, learned, _, goes⟩ | other
      · rw [notes] at learned
        exact Or.inl ⟨id, same, learned, running_of_going goes⟩
      · exact Or.inr other
    · intro b hb other
      exact called.forth done.quiet b hb other
    · intro running
      obtain ⟨u, hu, _, learned⟩ := caller_after setup c t operation ret effect next called.member
        (going_of_running running)
      rw [notes] at learned
      exact ⟨u, hu, learned⟩
  · exact rows_attempt setup world item now h c.state.store effect.state.store label _ _ going.rows
      done.items done.dests unfinished
  · exact going.grounds

theorem aside_step (h : Log) (c : Round) (t : Member) (operation : Op) (ret : Ret operation)
    (effect : Effect World Spec) (next : Ret operation → Program Unit)
    (called : Called setup c t operation ret effect next) (going : Going setup world item now h c)
    (quiet : Quiet effect) (store : effect.state.store = c.state.store)
    (attempts : effect.state.attempts = c.state.attempts)
    (aside : t.notes = .pool ∨ (t.notes = .aside ∧ (next ret).isDone = true)) :
    Going setup world item now h
      ((rounds setup).settle c ((rounds setup).resumed t operation ret next) effect) := by
  have kept : Attempts setup (world.store.dests item.relpath) item now h
      (after setup c t operation ret effect next) (c.state.attempts 1) := by
    apply attempts_aside setup _ item now h c.threads _ _ going.attempts
    · intro u hu
      rcases called.back quiet u hu with ⟨_, _, learned, _, goes⟩ | ⟨b, hb, _, same⟩
      · rcases aside with pool | ⟨_, ends⟩
        · rw [pool] at learned
          exact Or.inr learned
        · rw [ends] at goes
          cases goes
      · exact Or.inl ⟨b, hb, same⟩
    · intro b hb notPool notAside
      apply called.forth quiet b hb
      intro same
      rw [called.unique b hb same] at notPool notAside
      rcases aside with pool | ⟨waits, _⟩
      · exact notPool pool
      · exact notAside waits
  constructor
  · show Attempts setup _ item now h _ (effect.state.attempts 1)
    rw [attempts]
    exact kept
  · show RowsAre setup _ item now world h effect.state.store
    rw [store]
    exact going.rows
  · exact going.grounds

theorem pool_step (h : Log) (c : Round) (t : Member) (operation : Op) (ret : Ret operation)
    (effect : Effect World Spec) (next : Ret operation → Program Unit)
    (called : Called setup c t operation ret effect next) (going : Going setup world item now h c)
    (notes : t.notes = .pool) :
    Going setup world item now (note h t.notes operation ret)
      ((rounds setup).settle c ((rounds setup).resumed t operation ret next) effect) := by
  have may := called.allowed
  rw [notes] at may ⊢
  show Going setup world item now h _
  cases called.did with
  | disk operation answer =>
      exact aside_step setup world item now h c t _ _ _ next called going (quiet_changes _) rfl rfl
        (Or.inl notes)
  | endedAction handle ctx spec result =>
      exact aside_step setup world item now h c t _ _ _ next called going (quiet_changes _) rfl rfl
        (Or.inl notes)
  | endedQuarantine handle job spec =>
      exact aside_step setup world item now h c t _ _ _ next called going (quiet_changes _) rfl rfl
        (Or.inl notes)
  | _ => exact may.elim

theorem owner_step (h : Log) (c : Round) (t : Member) (operation : Op) (ret : Ret operation)
    (effect : Effect World Spec) (next : Ret operation → Program Unit)
    (called : Called setup c t operation ret effect next) (going : Going setup world item now h c)
    (notes : t.notes = .aside) (waits : t.prog = waiting) :
    Going setup world item now (note h t.notes operation ret)
      ((rounds setup).settle c ((rounds setup).resumed t operation ret next) effect) := by
  have prog := called.prog
  rw [waits] at prog
  cases prog
  rw [notes]
  show Going setup world item now h _
  cases called.did with
  | drained closable finished =>
      exact aside_step setup world item now h c t _ _ _ _ called going (quiet_changes _) rfl rfl
        (Or.inr ⟨notes, rfl⟩)

end Steps

/-! ## A call of the item -/

/-- A call that starts and ends nobody but actions and quarantines. -/
structure Pooled (effect : Effect World Spec) : Prop where
  spawned : ∀ spec ∈ effect.spawned, Rounds.start spec = .pool
  gone : ∀ id spec, effect.fate id spec = .gone → Rounds.start spec = .pool

theorem pooled_changes (world : World) : Pooled (changes world) :=
  ⟨fun _ new => (List.not_mem_nil new).elim, fun _ _ gone => Fate.noConfusion gone⟩

/-- What an item may do to the rows when it goes from one stage to another. -/
inductive RowsDid (item : WorkItem) (stage later : Stage) (store after : Store) : Prop where
  | unchanged (items : after.items = store.items) (dests : after.dests = store.dests)
      (completed : later.isCompleted = stage.isCompleted)
      (rolled : ∀ existing joined gate, later ≠ .rolled existing joined gate)
  | moved (change : Row → Row) (same : after = store.updateRow item.relpath change)
      (unfinished : stage.isCompleted = false)
      (rolled : ∀ existing joined gate, later = .rolled existing joined gate →
        ∀ row, (change row).state = .failed ∧ (change row).nextAttemptAt = gate)
      (completed : later.isCompleted = true → ∀ row, (change row).state = .completed)
  | cleared (items : after.items = store.items)
      (dests : ∀ r, r ≠ item.relpath → after.dests r = store.dests r)
      (completed : stage.isCompleted = true) (same : later = stage)

/-- What a call of the item does that neither starts attempts nor joins one. -/
structure ItemDid (item : WorkItem) (now : Int) (stage later : Stage) (world : World)
    (effect : Effect World Spec) : Prop where
  pooled : Pooled effect
  attempts : effect.state.attempts = world.attempts
  joined : later.joined = stage.joined
  spawned : later.spawned = stage.spawned
  read : later.existing = stage.existing ∨
    (stage = .fresh ∧ later = .read (world.store.dests item.relpath))
  counted : later.dry = stage.dry ∨ ∃ existing joined dry, stage = .joining existing joined dry ∧
    Counted setup existing now joined dry
  grounds : Grounds setup now stage → Grounds setup now later
  rows : RowsDid item stage later world.store effect.state.store

theorem unmoved_did (item : WorkItem) (now : Int) (stage : Stage) (world : World)
    (effect : Effect World Spec) (pooled : Pooled effect)
    (attempts : effect.state.attempts = world.attempts)
    (items : effect.state.store.items = world.store.items)
    (dests : effect.state.store.dests = world.store.dests)
    (unrolled : ∀ existing joined gate, stage ≠ .rolled existing joined gate) :
    ItemDid setup item now stage stage world effect :=
  ⟨pooled, attempts, rfl, rfl, Or.inl rfl, Or.inl rfl, id, .unchanged items dests rfl unrolled⟩

theorem silent_did (item : WorkItem) (now : Int) (stage : Stage) (operation : StoreOp) (t : Running)
    (live : List Spec) (world : World) (ret : Except ReplError (StoreRet operation))
    (effect : Effect World Spec) (did : Did setup t live world (.store operation) ret effect)
    (can : possible (.store operation) ret)
    (items : (callStore world.store operation).2.items = world.store.items)
    (dests : (callStore world.store operation).2.dests = world.store.dests)
    (unrolled : ∀ existing joined gate, stage ≠ .rolled existing joined gate) :
    ItemDid setup item now stage stage world effect := by
  cases did with
  | statement =>
      exact unmoved_did setup item now stage world _ (pooled_changes _) rfl items dests unrolled
  | refused text => exact can.elim

theorem moving_did (item : WorkItem) (now : Int) (stage later : Stage) (operation : StoreOp)
    (t : Running) (live : List Spec) (world : World) (ret : Except ReplError (StoreRet operation))
    (effect : Effect World Spec) (did : Did setup t live world (.store operation) ret effect)
    (can : possible (.store operation) ret) (joined : later.joined = stage.joined)
    (spawned : later.spawned = stage.spawned) (read : later.existing = stage.existing)
    (counted : later.dry = stage.dry ∨ ∃ existing joined dry, stage = .joining existing joined dry ∧
      Counted setup existing now joined dry)
    (grounds : Grounds setup now stage → Grounds setup now later)
    (rows : RowsDid item stage later world.store (callStore world.store operation).2) :
    ItemDid setup item now stage later world effect := by
  cases did with
  | statement =>
      exact ⟨pooled_changes _, rfl, joined, spawned, Or.inl read, counted, grounds, rows⟩
  | refused text => exact can.elim

theorem item_did (t : Running) (live : List Spec) (world : World) (item : WorkItem) (now : Int)
    (stage : Stage) (operation : Op) (ret : Ret operation) (effect : Effect World Spec)
    (may : allowedItem setup item now stage operation) (can : possible operation ret)
    (did : Did setup t live world operation ret effect)
    (starts : ∀ contexts, operation ≠ .spawnAttempts contexts) (joins : operation ≠ .joinAttempt) :
    ItemDid setup item now stage (learnItem stage operation ret) world effect := by
  unfold allowedItem at may
  split at may
  · rename_i relpath
    subst may
    cases did with
    | statement =>
        exact ⟨pooled_changes _, rfl, rfl, rfl, Or.inr ⟨rfl, rfl⟩, Or.inl rfl, fun _ => trivial,
          .unchanged rfl rfl rfl fun _ _ _ => Stage.noConfusion⟩
    | refused text => exact can.elim
  · exact absurd rfl (starts _)
  · exact absurd rfl joins
  · exact silent_did setup item now _ _ t live world ret effect did can rfl rfl
      fun _ _ _ => Stage.noConfusion
  · exact silent_did setup item now _ _ t live world ret effect did can rfl rfl
      fun _ _ _ => Stage.noConfusion
  · cases did with
    | aborted =>
        exact unmoved_did setup item now _ world _ (pooled_changes _) rfl rfl rfl
          fun _ _ _ => Stage.noConfusion
  · rename_i existing joined dry relpath state attempts gate error at_
    obtain ⟨rfl, counted, ⟨rfl, nobody, some, rfl⟩ | ⟨rfl, somebody⟩⟩ := may
    · refine moving_did setup item now _ _ _ t live world ret effect did can rfl rfl rfl
        (Or.inr ⟨_, _, _, rfl, counted⟩) (fun _ => ⟨nobody, some, rfl⟩) (.moved _ rfl rfl ?_ ?_)
      · intro existing' joined' gate' same row
        cases same
        exact ⟨rfl, rfl⟩
      · exact Bool.noConfusion
    · refine moving_did setup item now _ _ _ t live world ret effect did can rfl rfl rfl
        (Or.inr ⟨_, _, _, rfl, counted⟩) (fun _ => somebody) (.moved _ rfl rfl ?_ Bool.noConfusion)
      exact fun _ _ _ => Stage.noConfusion
  · obtain ⟨rfl, rfl, counted, nobody, all⟩ := may
    refine moving_did setup item now _ _ _ t live world ret effect did can rfl rfl rfl
      (Or.inr ⟨_, _, _, rfl, counted⟩) (fun _ => ⟨nobody, all⟩) (.moved _ rfl rfl ?_ Bool.noConfusion)
    exact fun _ _ _ => Stage.noConfusion
  · exact silent_did setup item now _ _ t live world ret effect did can rfl rfl
      fun _ _ _ => Stage.noConfusion
  · cases did with
    | startedQuarantine job =>
        refine unmoved_did setup item now _ world _ ⟨?_, fun _ _ => Fate.noConfusion⟩ rfl rfl rfl
          fun _ _ _ => Stage.noConfusion
        intro spec new
        rw [List.mem_singleton.mp new]
        rfl
  · cases did with
    | awaitedQuarantine handle ended =>
        exact unmoved_did setup item now _ world _ (pooled_changes _) rfl rfl rfl
          fun _ _ _ => Stage.noConfusion
    | quarantinePanicked handle text present =>
        refine unmoved_did setup item now _ world _ ⟨fun _ new => (List.not_mem_nil new).elim, ?_⟩
          rfl rfl rfl fun _ _ _ => Stage.noConfusion
        intro id spec gone
        cases spec with
        | quarantine h job => rfl
        | action h ctx => rfl
        | _ => cases gone
  · cases did with
    | reported relpath =>
        exact unmoved_did setup item now _ world _ (pooled_changes _) rfl rfl rfl
          fun _ _ _ => Stage.noConfusion
  · rename_i relpath state at_
    subst may
    refine moving_did setup item now _ _ _ t live world ret effect did can rfl rfl rfl (Or.inl rfl) id
      (.moved _ rfl rfl ?_ Bool.noConfusion)
    exact fun _ _ _ => Stage.noConfusion
  · exact silent_did setup item now _ _ t live world ret effect did can rfl rfl
      fun _ _ _ => Stage.noConfusion
  · cases did with
    | startedAction ctx =>
        refine unmoved_did setup item now _ world _ ⟨?_, fun _ _ => Fate.noConfusion⟩ rfl rfl rfl
          fun _ _ _ => Stage.noConfusion
        intro spec new
        rw [List.mem_singleton.mp new]
        rfl
  · cases did with
    | awaited handle result ended =>
        exact unmoved_did setup item now _ world _ (pooled_changes _) rfl rfl rfl
          fun _ _ _ => Stage.noConfusion
    | awaitPanicked handle text present =>
        refine unmoved_did setup item now _ world _ ⟨fun _ new => (List.not_mem_nil new).elim, ?_⟩
          rfl rfl rfl fun _ _ _ => Stage.noConfusion
        intro id spec gone
        cases spec with
        | quarantine h job => rfl
        | action h ctx => rfl
        | _ => cases gone
  · cases did with
    | drawn n =>
        exact unmoved_did setup item now _ world _ (pooled_changes _) rfl rfl rfl
          fun _ _ _ => Stage.noConfusion
  · rename_i existing joined relpath state at_
    subst may
    by_cases completes : state = .completed
    · subst completes
      refine moving_did setup item now _ _ _ t live world ret effect did can rfl rfl rfl (Or.inl rfl)
        id (.moved _ rfl rfl ?_ fun _ _ => rfl)
      exact fun _ _ _ => Stage.noConfusion
    · have stays : learnItem (.completing existing joined) (.store (.setState item.relpath state at_))
          ret = .completing existing joined := if_neg completes
      rw [stays]
      refine moving_did setup item now _ _ _ t live world ret effect did can rfl rfl rfl (Or.inl rfl)
        id (.moved _ rfl rfl ?_ Bool.noConfusion)
      exact fun _ _ _ => Stage.noConfusion
  · obtain ⟨rfl, rfl⟩ := may
    refine moving_did setup item now _ _ _ t live world ret effect did can rfl rfl rfl (Or.inl rfl) id
      (.moved _ rfl rfl ?_ Bool.noConfusion)
    exact fun _ _ _ => Stage.noConfusion
  · exact silent_did setup item now _ _ t live world ret effect did can rfl rfl
      fun _ _ _ => Stage.noConfusion
  · exact silent_did setup item now _ _ t live world ret effect did can rfl rfl
      fun _ _ _ => Stage.noConfusion
  · rename_i relpath
    subst may
    refine moving_did setup item now _ _ _ t live world ret effect did can rfl rfl rfl (Or.inl rfl) id
      (.cleared rfl ?_ rfl rfl)
    intro r apart
    funext label
    exact if_neg apart
  · exact may.elim

section Item

variable (world : World) (item : WorkItem) (now : Int)

theorem joined_of_counted (before : String → Option DestState) (h : Log) (threads : List Member)
    (results : List AttemptResult) (attempts : Attempts setup before item now h threads results)
    (existing : String → Option DestState) (joined : List (String × DestOutcome)) (dry : Bool)
    (stage : h.stage = .joining existing joined dry) (counted : Counted setup existing now joined dry)
    (label : String) : h.status label = .unspawned ∨ ∃ v, h.status label = .joined v := by
  have read : existing = before := attempts.read existing (by rw [stage]; rfl)
  have spawned := attempts.spawned (by rw [stage]; rfl)
  rcases counted with all | rfl
  · by_cases idle : h.status label = .unspawned
    · exact Or.inl idle
    right
    have due := (spawned label).mp idle
    have distinct := attempts.distinct
    rw [stage] at distinct
    have within : ∀ other ∈ joined.map Prod.fst, other ∈ dueLabels setup before now := by
      intro other member
      obtain ⟨p, hp, rfl⟩ := List.mem_map.mp member
      obtain ⟨v, was, _⟩ := attempts.joined p (by rw [stage]; exact hp)
      apply (spawned p.1).mp
      rw [was]
      exact Status.noConfusion
    have whole : (joined.map Prod.fst).Perm (dueLabels setup before now) := by
      apply (distinct.subperm within).perm_of_length_le
      rw [List.length_map]
      show _ ≤ joined.length
      rw [all, read]
    obtain ⟨p, hp, rfl⟩ := List.mem_map.mp (whole.mem_iff.mpr due)
    obtain ⟨v, was, _⟩ := attempts.joined p (by rw [stage]; exact hp)
    exact ⟨v, was⟩
  · exact attempts.dry (by rw [stage]; rfl) label

theorem rows_item (before : String → Option DestState) (h : Log) (store after : Store)
    (later : Stage) (rows : RowsAre setup before item now world h store)
    (did : RowsDid item h.stage later store after) :
    RowsAre setup before item now world { h with stage := later } after := by
  cases did with
  | unchanged items dests completed rolled =>
      constructor
      · intro unfinished label
        rw [dests]
        exact rows.dests (completed.symm.trans unfinished) label
      · intro r apart
        rw [dests]
        exact rows.foreign r apart
      · obtain ⟨row, found, _, was⟩ := rows.row
        rw [items]
        exact ⟨row, found, fun existing joined gate same => absurd same (rolled existing joined gate),
          fun done => was (completed.symm.trans done)⟩
  | moved change same unfinished rolled completed =>
      rw [same]
      constructor
      · intro _ label
        exact rows.dests unfinished label
      · intro r apart
        exact rows.foreign r apart
      · obtain ⟨row, found, _, _⟩ := rows.row
        refine ⟨change row, ?_, fun existing joined gate same => rolled existing joined gate same row,
          fun done => completed done row⟩
        rw [Store.items_update, if_pos rfl, found]
        rfl
  | cleared items dests completed same =>
      rw [same]
      constructor
      · intro unfinished
        rw [completed] at unfinished
        cases unfinished
      · intro r apart
        rw [dests r apart]
        exact rows.foreign r apart
      · rw [items]
        exact rows.row

theorem item_moves (h : Log) (c : Round) (t : Member) (operation : Op) (ret : Ret operation)
    (effect : Effect World Spec) (next : Ret operation → Program Unit)
    (called : Called setup c t operation ret effect next) (going : Going setup world item now h c)
    (id : t.id = 1) (spec : t.spec = .item 0 item now) (notes : t.notes = .item item now h.stage)
    (starts : ∀ contexts, operation ≠ .spawnAttempts contexts) (joins : operation ≠ .joinAttempt) :
    Going setup world item now (note h t.notes operation ret)
      ((rounds setup).settle c ((rounds setup).resumed t operation ret next) effect) := by
  have may := called.allowed
  have later := called.later
  rw [notes] at may later ⊢
  change Keeps (discipline setup) (next ret) (.item item now (learnItem h.stage operation ret)) _ at later
  have done := item_did setup (retold t) _ c.state item now h.stage operation ret effect may
    called.possible called.did starts joins
  have same : note h (.item item now h.stage) operation ret =
      { h with stage := learnItem h.stage operation ret } := by
    have silent : noteItem h operation ret = h := by
      unfold noteItem
      split
      · exact absurd rfl (starts _)
      · exact absurd rfl joins
      · rfl
    rw [note, silent]
  rw [same]
  constructor
  · show Attempts setup _ item now _ _ (effect.state.attempts 1)
    rw [done.attempts]
    refine attempts_item setup _ item now h _ c.threads _ _ going.attempts done.joined done.spawned
      ?_ ?_ ?_ ?_ ?_
    · intro existing found
      rcases done.read with kept | ⟨fresh, read⟩
      · rw [kept] at found
        exact going.attempts.read existing found
      · rw [read] at found
        rw [← Option.some.inj found]
        funext label
        rw [going.rows.dests (by rw [fresh]; rfl),
          going.attempts.unspawned (by rw [fresh]; rfl)]
        rfl
    · intro dry
      rcases done.counted with kept | ⟨existing, joined, was, stage, counted⟩
      · exact going.attempts.dry (kept.symm.trans dry)
      · exact joined_of_counted setup item now _ h _ _ going.attempts existing joined was stage counted
    · intro u hu
      rcases after_cases setup c t operation ret effect next u hu with
        ⟨uid, uspec, learned, _, _⟩ | ⟨b, hb, other, alike⟩ | ⟨new, started, _⟩
      · rw [notes] at learned
        exact Or.inl ⟨uid.trans id, uspec.trans spec, learned⟩
      · exact Or.inr (Or.inl ⟨b, hb, by rw [← id]; exact other, alike⟩)
      · rw [done.pooled.spawned _ new] at started
        exact Or.inr (Or.inr started)
    · rintro b hb ⟨ctx, status, attempts⟩
      apply other_after setup c t operation ret effect next b hb
      · intro same
        rw [called.unique b hb same, notes] at attempts
        cases attempts
      · intro gone
        have pool := done.pooled.gone _ _ gone
        cases going.attempts.kinds b hb with
        | attempt label bspec _ _ =>
            rw [bspec] at pool
            cases pool
        | owner _ bnotes _ => rw [bnotes] at attempts; cases attempts
        | item _ _ bnotes => rw [bnotes] at attempts; cases attempts
        | pool bnotes => rw [bnotes] at attempts; cases attempts
    · cases ends : (next ret).isDone with
      | true => exact Or.inl (finished_of_done setup _ _ later ends)
      | false =>
          obtain ⟨u, hu, _, learned⟩ := caller_after setup c t operation ret effect next called.member
            ends
          rw [notes] at learned
          exact Or.inr ⟨u, hu, learned⟩
  · exact rows_item setup world item now _ h _ _ _ going.rows done.rows
  · exact done.grounds going.grounds

/-! ### The attempts start -/

theorem spawn_specs (first : Nat) (specs : List Spec) :
    ((rounds setup).spawnFrom first specs).map Thread.spec = specs := by
  induction specs generalizing first with
  | nil => rfl
  | cons spec rest ih => rw [Machine.spawnFrom, List.map_cons, ih]

theorem newcomer (c : Round) (t : Member) (operation : Op) (ret : Ret operation)
    (effect : Effect World Spec) (next : Ret operation → Program Unit)
    (called : Called setup c t operation ret effect next) (u : Member)
    (member : u ∈ after setup c t operation ret effect next) (new : c.next ≤ u.id) :
    ∃ v ∈ (rounds setup).spawnFrom c.next effect.spawned, Alike v u := by
  rcases mem_settle (rounds setup) c _ u effect member with ⟨same, _⟩ | ⟨b, hb, _, same, _⟩ |
    ⟨v, hv, same⟩
  · have below := called.distinct.below t called.member
    have here : u.id = t.id := same.id
    omega
  · have below := called.distinct.below b hb
    have here : u.id = b.id := same.id
    omega
  · exact ⟨v, hv, alike_of_same same⟩

theorem newcomers_differ (c : Round) (t : Member) (operation : Op) (ret : Ret operation)
    (effect : Effect World Spec) (next : Ret operation → Program Unit)
    (called : Called setup c t operation ret effect next) (apart : effect.spawned.Nodup) (u v : Member)
    (hu : u ∈ after setup c t operation ret effect next)
    (hv : v ∈ after setup c t operation ret effect next) (newU : c.next ≤ u.id) (newV : c.next ≤ v.id)
    (same : u.spec = v.spec) : u.id = v.id := by
  obtain ⟨first, hfirst, alike⟩ := newcomer setup c t operation ret effect next called u hu newU
  obtain ⟨second, hsecond, alike'⟩ := newcomer setup c t operation ret effect next called v hv newV
  have specs : first.spec = second.spec := alike.spec.symm.trans (same.trans alike'.spec)
  rw [← spawn_specs setup c.next effect.spawned] at apart
  rw [alike.id, alike'.id, List.inj_on_of_nodup_map apart hfirst hsecond specs]

def dueSpecs (before : String → Option DestState) : List Spec :=
  (dueLabels setup before now).map fun label => .attempt 1 (ctxOf before item now label)

theorem due_specs_nodup (before : String → Option DestState) :
    (dueSpecs setup item now before).Nodup := by
  refine (mem_due_nodup setup before now).map ?_
  intro a b same
  exact congrArg AttemptCtx.label (Spec.attempt.inj same).2

theorem newcomer_of_attempt (before : String → Option DestState) (h : Log) (c : Round) (t : Member)
    (operation : Op) (ret : Ret operation) (effect : Effect World Spec)
    (next : Ret operation → Program Unit)
    (attempts : Attempts setup before item now h c.threads (c.state.attempts 1))
    (blank : ∀ label, h.status label = .unspawned) (stage : Stage)
    (learned : learn t.notes operation ret = .item item now stage)
    (specs : effect.spawned = dueSpecs setup item now before) (u : Member)
    (member : u ∈ after setup c t operation ret effect next) (label : String) (status : Status)
    (notes : u.notes = .attempt (ctxOf before item now label) status) :
    c.next ≤ u.id ∧ u.spec = .attempt 1 (ctxOf before item now label) := by
  rcases after_cases setup c t operation ret effect next u member with
    ⟨_, _, own, _, _⟩ | ⟨b, hb, _, alike⟩ | ⟨started, begun, first⟩
  · rw [own, learned] at notes
    cases notes
  · rw [alike.notes] at notes
    cases attempts.kinds b hb with
    | attempt other _ _ running =>
        rw [blank] at running
        cases running
    | owner _ bnotes _ => rw [bnotes] at notes; cases notes
    | item _ _ bnotes => rw [bnotes] at notes; cases notes
    | pool bnotes => rw [bnotes] at notes; cases notes
  · refine ⟨first, ?_⟩
    rw [specs] at started
    obtain ⟨other, _, same⟩ := List.mem_map.mp started
    rw [begun, ← same] at notes
    rw [← same, ← ctx_label before item now (Notes.attempt.inj notes).1]

theorem spawned_attempts (before : String → Option DestState) (h : Log) (c : Round) (t : Member)
    (operation : Op) (ret : Ret operation) (effect : Effect World Spec)
    (next : Ret operation → Program Unit) (called : Called setup c t operation ret effect next)
    (attempts : Attempts setup before item now h c.threads (c.state.attempts 1)) (id : t.id = 1)
    (spec : t.spec = .item 0 item now) (stage : h.stage = .read before)
    (learned : learn t.notes operation ret = .item item now (.joining before [] false))
    (specs : effect.spawned = dueSpecs setup item now before) :
    Attempts setup before item now
      ⟨fun label => if label ∈ dueLabels setup before now then .fresh else h.status label,
        h.attempted, .joining before [] false⟩
      (after setup c t operation ret effect next) (c.state.attempts 1) := by
  have blank := attempts.unspawned (by rw [stage]; rfl)
  refine attempts_spawn setup before item now h c.threads _ _ attempts stage ?_ ?_ ?_ ?_
  · intro u hu
    rcases after_cases setup c t operation ret effect next u hu with
      ⟨uid, uspec, unotes, _, _⟩ | ⟨b, hb, other, alike⟩ | ⟨new, started, _⟩
    · exact Or.inl ⟨uid.trans id, uspec.trans spec, unotes.trans learned⟩
    · exact Or.inr (Or.inl ⟨b, hb, by rw [← id]; exact other, alike⟩)
    · rw [specs] at new
      obtain ⟨label, due, same⟩ := List.mem_map.mp new
      refine Or.inr (Or.inr ⟨label, due, same.symm, ?_⟩)
      rw [started, ← same]
      rfl
  · intro label due
    have new : Spec.attempt 1 (ctxOf before item now label) ∈ effect.spawned := by
      rw [specs]
      exact List.mem_map.mpr ⟨label, due, rfl⟩
    obtain ⟨u, hu, _, started⟩ := new_after setup c t operation ret effect next _ new
    exact ⟨u, hu, started⟩
  · intro u hu v hv label s s' unotes vnotes
    obtain ⟨newU, specU⟩ := newcomer_of_attempt setup item now before h c t operation ret effect next
      attempts blank _ learned specs u hu label s unotes
    obtain ⟨newV, specV⟩ := newcomer_of_attempt setup item now before h c t operation ret effect next
      attempts blank _ learned specs v hv label s' vnotes
    refine newcomers_differ setup c t operation ret effect next called ?_ u v hu hv newU newV
      (specU.trans specV.symm)
    rw [specs]
    exact due_specs_nodup setup item now before
  · have later := called.later
    rw [learned] at later
    cases ends : (next ret).isDone with
    | true =>
        have concluded : Stage.concluded _ = true := finished_of_done setup _ _ later ends
        cases concluded
    | false =>
        obtain ⟨u, hu, _, unotes⟩ := caller_after setup c t operation ret effect next called.member ends
        exact ⟨u, hu, unotes.trans learned⟩

theorem spawn_of_allowed (before : String → Option DestState) (h : Log) (threads : List Member)
    (results : List AttemptResult) (attempts : Attempts setup before item now h threads results)
    (contexts : List AttemptCtx)
    (may : allowedItem setup item now h.stage (.spawnAttempts contexts)) :
    h.stage = .read before ∧
      contexts = (dueLabels setup before now).map (attemptCtx item before now) := by
  cases stage : h.stage with
  | read existing =>
      rw [stage] at may
      rw [attempts.read existing (by rw [stage]; rfl)] at may ⊢
      exact ⟨rfl, may⟩
  | _ =>
      rw [stage] at may
      exact may.elim

theorem item_spawns (h : Log) (c : Round) (t : Member) (contexts : List AttemptCtx) (ret : Unit)
    (effect : Effect World Spec) (next : Unit → Program Unit)
    (called : Called setup c t (.spawnAttempts contexts) ret effect next)
    (going : Going setup world item now h c) (id : t.id = 1) (spec : t.spec = .item 0 item now)
    (notes : t.notes = .item item now h.stage) :
    Going setup world item now (note h t.notes (.spawnAttempts contexts) ret)
      ((rounds setup).settle c ((rounds setup).resumed t (.spawnAttempts contexts) ret next) effect) := by
  have may := called.allowed
  rw [notes] at may
  obtain ⟨stage, due⟩ := spawn_of_allowed setup item now _ h _ _ going.attempts contexts may
  have blank := going.attempts.unspawned (by rw [stage]; rfl)
  have learned : learn t.notes (.spawnAttempts contexts) ret =
      .item item now (.joining (world.store.dests item.relpath) [] false) := by
    rw [notes, stage]
    rfl
  have labels : contexts.map AttemptCtx.label =
      dueLabels setup (world.store.dests item.relpath) now := by
    rw [due]
    exact due_contexts setup _ item now
  have noted : note h t.notes (.spawnAttempts contexts) ret =
      ⟨fun label => if label ∈ dueLabels setup (world.store.dests item.relpath) now then .fresh
        else h.status label, h.attempted, .joining (world.store.dests item.relpath) [] false⟩ := by
    rw [notes, stage, ← labels]
    rfl
  rw [noted]
  have same : effect.state = c.state ∧
      effect.spawned = dueSpecs setup item now (world.store.dests item.relpath) := by
    cases called.did with
    | spawnedAttempts =>
        refine ⟨rfl, ?_⟩
        show contexts.map (Spec.attempt t.id) = _
        rw [due, List.map_map, id, dueSpecs]
        exact List.map_congr_left fun _ _ => rfl
  constructor
  · show Attempts setup _ item now _ _ (effect.state.attempts 1)
    rw [same.1]
    exact spawned_attempts setup item now _ h c t (.spawnAttempts contexts) ret effect next called
      going.attempts id spec stage learned same.2
  · show RowsAre setup _ item now world _ effect.state.store
    rw [same.1]
    constructor
    · intro _ label
      have was := going.rows.dests (by rw [stage]; rfl) label
      rw [blank] at was
      show c.state.store.dests item.relpath label = expected setup _ item now label
        (if label ∈ dueLabels setup _ now then .fresh else h.status label)
      rw [was, blank]
      split <;> rfl
    · exact going.rows.foreign
    · obtain ⟨row, found, _, _⟩ := going.rows.row
      exact ⟨row, found, fun _ _ _ => Stage.noConfusion, Bool.noConfusion⟩
  · exact trivial

theorem join_of_allowed (stage : Stage) (may : allowedItem setup item now stage .joinAttempt) :
    ∃ existing joined dry, stage = .joining existing joined dry := by
  cases stage with
  | joining existing joined dry => exact ⟨existing, joined, dry, rfl⟩
  | _ => exact may.elim

/-- How a call that joins ends: with the result of an attempt, or when there is none left. -/
inductive JoinDid (before : String → Option DestState) (h : Log) (c : Round) :
    Option (Except String AttemptResult) → Effect World Spec → Prop where
  | joined (n : Nat) (label : String) (v : Settled) (effect : Effect World Spec)
      (found : (c.state.attempts 1)[n]? = some (resultOf setup before item now label v))
      (ended : h.status label = .ended v) (quiet : Quiet effect)
      (store : effect.state.store = c.state.store)
      (left : effect.state.attempts 1 = (c.state.attempts 1).eraseIdx n) :
      JoinDid before h c (some (.ok (resultOf setup before item now label v))) effect
  | none (effect : Effect World Spec) (quiet : Quiet effect) (same : effect.state = c.state)
      (nobody : ∀ label, h.status label = .unspawned ∨ ∃ v, h.status label = .joined v) :
      JoinDid before h c none effect

theorem join_did (before : String → Option DestState) (h : Log) (c : Round) (t : Member)
    (ret : Option (Except String AttemptResult)) (effect : Effect World Spec)
    (next : Option (Except String AttemptResult) → Program Unit)
    (called : Called setup c t .joinAttempt ret effect next)
    (attempts : Attempts setup before item now h c.threads (c.state.attempts 1)) (id : t.id = 1)
    (unbroken : ∀ text, ret ≠ some (.error text)) : JoinDid setup item now before h c ret effect := by
  cases called.did with
  | joined n result found =>
      have here : (c.state.attempts 1)[n]? = some result := by
        rw [← id]
        exact found
      obtain ⟨label, v, rfl, ended⟩ := attempts.pending result (List.mem_of_getElem? here)
      refine .joined n label v _ here ended (quiet_changes _) rfl ?_
      show (if 1 = t.id then (c.state.attempts t.id).eraseIdx n else c.state.attempts 1) = _
      rw [id, if_pos rfl]
  | joinPanicked label present => exact absurd rfl (unbroken label)
  | joinedAll finished nobody =>
      refine .none _ (quiet_changes _) rfl fun label => ?_
      have nothing : c.state.attempts 1 = [] := by
        rw [← id]
        exact nobody
      cases status : h.status label with
      | unspawned => exact Or.inl rfl
      | joined v => exact Or.inr ⟨v, rfl⟩
      | ended v =>
          have member := attempts.ended label v status
          rw [nothing] at member
          cases member
      | _ =>
          obtain ⟨b, hb, notes⟩ := attempts.live label (by rw [status]; rfl)
          cases attempts.kinds b hb with
          | attempt other spec _ _ =>
              have gone := List.all_eq_true.mp finished b.spec (List.mem_map_of_mem hb)
              rw [spec] at gone
              exact absurd id.symm (of_decide_eq_true gone)
          | owner _ bnotes _ => rw [bnotes] at notes; cases notes
          | item _ _ bnotes => rw [bnotes] at notes; cases notes
          | pool bnotes => rw [bnotes] at notes; cases notes

theorem item_joins (h : Log) (c : Round) (t : Member) (ret : Option (Except String AttemptResult))
    (effect : Effect World Spec) (next : Option (Except String AttemptResult) → Program Unit)
    (called : Called setup c t .joinAttempt ret effect next)
    (going : Going setup world item now h c) (id : t.id = 1) (spec : t.spec = .item 0 item now)
    (notes : t.notes = .item item now h.stage) (unbroken : ∀ text, ret ≠ some (.error text)) :
    Going setup world item now (note h t.notes .joinAttempt ret)
      ((rounds setup).settle c ((rounds setup).resumed t .joinAttempt ret next) effect) := by
  have may := called.allowed
  rw [notes] at may
  obtain ⟨existing, joined, dry, stage⟩ := join_of_allowed setup item now h.stage may
  have back : ∀ later, learn t.notes .joinAttempt ret = .item item now later → Quiet effect →
      ∀ u ∈ after setup c t .joinAttempt ret effect next,
        (u.id = 1 ∧ u.spec = .item 0 item now ∧ u.notes = .item item now later) ∨
        ∃ b ∈ c.threads, b.id ≠ 1 ∧ Alike b u := by
    intro later learned quiet u hu
    rcases called.back quiet u hu with ⟨uid, uspec, unotes, _, _⟩ | ⟨b, hb, other, alike⟩
    · exact Or.inl ⟨uid.trans id, uspec.trans spec, unotes.trans learned⟩
    · exact Or.inr ⟨b, hb, by rw [← id]; exact other, alike⟩
  have forth : Quiet effect → ∀ b ∈ c.threads, (∃ ctx status, b.notes = .attempt ctx status) →
      ∃ u ∈ after setup c t .joinAttempt ret effect next, Alike b u := by
    rintro quiet b hb ⟨ctx, status, bnotes⟩
    apply called.forth quiet b hb
    intro same
    rw [called.unique b hb same, notes] at bnotes
    cases bnotes
  have there : ∀ later, learn t.notes .joinAttempt ret = .item item now later →
      later.concluded = false →
      ∃ u ∈ after setup c t .joinAttempt ret effect next, u.notes = .item item now later := by
    intro later learned going_on
    have keeps := called.later
    rw [learned] at keeps
    cases ends : (next ret).isDone with
    | true =>
        have concluded : later.concluded = true := finished_of_done setup _ _ keeps ends
        rw [going_on] at concluded
        cases concluded
    | false =>
        obtain ⟨u, hu, _, unotes⟩ := caller_after setup c t .joinAttempt ret effect next
          called.member ends
        exact ⟨u, hu, unotes.trans learned⟩
  cases join_did setup item now _ h c t ret effect next called going.attempts id unbroken with
  | joined n label v _ found ended quiet store left =>
      have learned : learn t.notes .joinAttempt
          (some (.ok (resultOf setup (world.store.dests item.relpath) item now label v))) =
          .item item now (.joining existing (joined ++ [(label, outcomeOf setup
            (ctxOf (world.store.dests item.relpath) item now label) v)]) dry) := by
        rw [notes, stage]
        rfl
      have noted : note h t.notes .joinAttempt
          (some (.ok (resultOf setup (world.store.dests item.relpath) item now label v))) =
          ⟨fun other => if other = label then (h.status other).join else h.status other,
            h.attempted, .joining existing (joined ++ [(label, outcomeOf setup
              (ctxOf (world.store.dests item.relpath) item now label) v)]) dry⟩ := by
        rw [notes, stage]
        rfl
      rw [noted]
      constructor
      · show Attempts setup _ item now _ _ (effect.state.attempts 1)
        rw [left]
        exact attempts_join setup _ item now h c.threads _ _ going.attempts existing joined dry stage
          n label v found ended (back _ learned quiet) (forth quiet) (there _ learned rfl)
      · show RowsAre setup _ item now world _ effect.state.store
        rw [store]
        constructor
        · intro _ other
          rw [going.rows.dests (by rw [stage]; rfl)]
          show _ = expected setup _ item now other
            (if other = label then (h.status other).join else h.status other)
          rw [status_join h label other v ended]
          split
          · rename_i own
            rw [own, ended]
            rfl
          · rfl
        · exact going.rows.foreign
        · obtain ⟨row, there, _, _⟩ := going.rows.row
          exact ⟨row, there, fun _ _ _ => Stage.noConfusion, Bool.noConfusion⟩
      · exact trivial
  | none _ quiet same nobody =>
      have learned : learn t.notes .joinAttempt none = .item item now (.joining existing joined true) := by
        rw [notes, stage]
        rfl
      have noted : note h t.notes .joinAttempt none =
          { h with stage := .joining existing joined true } := by
        rw [notes, stage]
        rfl
      rw [noted]
      constructor
      · show Attempts setup _ item now _ _ (effect.state.attempts 1)
        rw [same]
        refine attempts_item setup _ item now h _ c.threads _ _ going.attempts (by rw [stage]; rfl)
          (by rw [stage]; rfl) ?_ (fun _ => nobody) ?_ (forth quiet) (Or.inr (there _ learned rfl))
        · intro read found
          exact going.attempts.read read (by rw [stage]; exact found)
        · intro u hu
          rcases back _ learned quiet u hu with own | other
          · exact Or.inl own
          · exact Or.inr (Or.inl other)
      · show RowsAre setup _ item now world _ effect.state.store
        rw [same]
        apply rows_item setup world item now _ h _ _ _ going.rows
        exact .unchanged rfl rfl (by rw [stage]; rfl) fun _ _ _ => Stage.noConfusion
      · exact trivial

end Item

/-! ## A step of the round -/

section Runs

variable (world : World) (item : WorkItem) (now : Int)

structure Kept (h : Log) (c : Round) : Prop where
  distinct : Distinct c
  orderly : Orderly (rounds setup) c
  going : Going setup world item now h c

theorem granted_of_calm (c : Round) (t : Member) (member : t ∈ c.threads) (operation : Op)
    (ret : Ret operation) (effect : Effect World Spec) (next : Ret operation → Program Unit)
    (prog : t.prog = .call operation next) (answer : Answer) (calm : Calm c (.run t.id answer))
    (performed : perform setup c.state t (Machine.live c) operation answer = some (ret, effect)) :
    possible operation ret := by
  cases operation with
  | store operation =>
      cases answer with
      | asIs =>
          cases performed
          exact trivial
      | refused text => exact absurd prog (calm.granted t member text rfl operation next)
      | _ => cases performed
  | _ => exact trivial

theorem unbroken_of_calm (c : Round) (t : Member) (member : t ∈ c.threads)
    (ret : Option (Except String AttemptResult)) (effect : Effect World Spec)
    (next : Option (Except String AttemptResult) → Program Unit)
    (prog : t.prog = .call .joinAttempt next) (answer : Answer) (calm : Calm c (.run t.id answer))
    (performed : perform setup c.state t (Machine.live c) .joinAttempt answer = some (ret, effect))
    (text : String) : ret ≠ some (.error text) := by
  rintro rfl
  cases answer with
  | asIs =>
      simp only [perform, joinOne] at performed
      split at performed <;> cases performed
  | refused label => exact calm.unbroken t member label rfl next prog
  | number n =>
      obtain ⟨result, _, same⟩ := Option.map_eq_some_iff.mp performed
      cases same
  | _ => cases performed

theorem going_call (h : Log) (c : Round) (kept : Kept setup world item now h c) (t : Member)
    (operation : Op) (ret : Ret operation) (effect : Effect World Spec)
    (next : Ret operation → Program Unit) (called : Called setup c t operation ret effect next)
    (answer : Answer) (calm : Calm c (.run t.id answer))
    (performed : perform setup c.state t (Machine.live c) operation answer = some (ret, effect)) :
    Going setup world item now (note h t.notes operation ret)
      ((rounds setup).settle c ((rounds setup).resumed t operation ret next) effect) := by
  cases kept.going.attempts.kinds t called.member with
  | owner id notes waits =>
      exact owner_step setup world item now h c t operation ret effect next called kept.going notes waits
  | pool notes =>
      exact pool_step setup world item now h c t operation ret effect next called kept.going notes
  | attempt label spec notes runs =>
      exact attempt_step setup world item now h c t operation ret effect next called kept.going label
        spec notes runs
  | item id spec notes =>
      by_cases starts : ∃ contexts, operation = .spawnAttempts contexts
      · obtain ⟨contexts, rfl⟩ := starts
        exact item_spawns setup world item now h c t contexts ret effect next called kept.going id spec
          notes
      by_cases joins : operation = .joinAttempt
      · subst joins
        exact item_joins setup world item now h c t ret effect next called kept.going id spec notes
          (unbroken_of_calm setup c t called.member ret effect next called.prog answer calm performed)
      · exact item_moves setup world item now h c t operation ret effect next called kept.going id spec
          notes (fun contexts same => starts ⟨contexts, same⟩) joins

theorem going_absorb (h : Log) (c : Round) (going : Going setup world item now h c)
    (reaction : Reaction World Spec) (going_on : reaction.stops = false)
    (nobody : reaction.spawned = []) (store : reaction.state.store = c.state.store)
    (attempts : reaction.state.attempts = c.state.attempts) :
    Going setup world item now h ((rounds setup).absorb c reaction) := by
  constructor
  · show Attempts setup _ item now h _ (reaction.state.attempts 1)
    rw [attempts]
    apply attempts_aside setup _ item now h c.threads _ _ going.attempts
    · intro u hu
      rcases mem_absorb (rounds setup) c reaction u hu with ⟨_, b, hb, same⟩ | ⟨new, hnew, _⟩
      · exact Or.inl ⟨b, hb, alike_of_same same⟩
      · rw [nobody] at hnew
        cases hnew
    · intro b hb _ _
      obtain ⟨u, hu, same⟩ := absorbed_stays (rounds setup) c reaction going_on b hb
      exact ⟨u, hu, alike_of_same same⟩
  · show RowsAre setup _ item now world h reaction.state.store
    rw [store]
    exact going.rows
  · exact going.grounds

theorem kept_event (h : Log) (c : Round) (kept : Kept setup world item now h c) (event : Event)
    (calm : Calm c (.env event)) (reaction : Reaction World Spec)
    (reacted : react c.state (Machine.live c) event = some reaction) :
    Kept setup world item now h ((rounds setup).absorb c reaction) := by
  have plain : reaction.stops = false ∧ reaction.spawned = [] ∧
      reaction.state.store = c.state.store ∧ reaction.state.attempts = c.state.attempts := by
    rcases calm.outside event rfl with ⟨path, node, rfl⟩ | ⟨relpath, label, object, rfl⟩ | ⟨active, rfl⟩
    · cases reacted
      exact ⟨rfl, rfl, rfl, rfl⟩
    · cases reacted
      exact ⟨rfl, rfl, rfl, rfl⟩
    · cases reacted
      exact ⟨rfl, rfl, rfl, rfl⟩
  obtain ⟨going_on, nobody, store, attempts⟩ := plain
  refine ⟨distinct_absorb _ c reaction kept.distinct, ?_,
    going_absorb setup world item now h c kept.going reaction going_on nobody store attempts⟩
  exact orderly_absorb (rounds setup) c reaction kept.orderly fun spec _ => main_keeps setup spec

theorem kept_step (h : Log) (c later : Round) (choice : Choice Answer Event)
    (kept : Kept setup world item now h c) (calm : Calm c choice)
    (stepped : (rounds setup).step c choice = some later) :
    Kept setup world item now ((rounded setup).follow c choice later h) later := by
  rcases step_cases (rounds setup) c later choice stepped with
    ⟨t, operation, ret, effect, next, calls, rfl⟩ | ⟨id, rfl, _, _⟩ |
    ⟨event, reaction, rfl, reacted, rfl⟩
  · obtain ⟨answer, rfl, performed⟩ := calls.choice
    have can := granted_of_calm setup c t calls.member operation ret effect next calls.prog answer calm
      performed
    have keeps := calls_keep (rounds setup) c t operation ret effect next _ calls kept.orderly
    have called : Called setup c t operation ret effect next :=
      ⟨calls.member, calls.prog, kept.distinct, keeps.1, keeps.2 ret can, can,
        did_retold setup t _ c.state operation answer ret effect performed⟩
    have noted : (rounded setup).follow c (.run t.id answer)
        ((rounds setup).settle c ((rounds setup).resumed t operation ret next) effect) h =
        note h t.notes operation ret := by
      rw [rounded, follow_call _ _ _ c _ kept.distinct t calls.member operation next calls.prog]
      have same : perform setup c.state t (Machine.live c) operation answer = some (ret, effect) :=
        performed
      rw [heed, same]
    rw [noted]
    refine ⟨distinct_settle _ c _ effect kept.distinct, ?_,
      going_call setup world item now h c kept t operation ret effect next called answer calm performed⟩
    exact orderly_settle (rounds setup) c t operation ret effect next _ calls kept.orderly can
      fun spec _ => main_keeps setup spec
  · exact absurd rfl (calm.spared id)
  · exact kept_event setup world item now h c kept event calm reaction reacted

theorem kept_start (blank : world.attempts 1 = [])
    (present : ∃ row, world.store.items item.relpath = some row) :
    Kept setup world item now blankLog (roundStart setup world item now) := by
  have kinds : ∀ t ∈ (roundStart setup world item now).threads,
      Kind (world.store.dests item.relpath) item now blankLog t := by
    intro t member
    rcases List.mem_cons.mp member with rfl | member
    · exact .owner rfl rfl rfl
    · rw [List.mem_singleton.mp member]
      exact .item rfl rfl rfl
  have idle : ∀ t ∈ (roundStart setup world item now).threads, ∀ ctx status,
      t.notes ≠ .attempt ctx status := by
    intro t member ctx status notes
    rcases List.mem_cons.mp member with rfl | member
    · cases notes
    · rw [List.mem_singleton.mp member] at notes
      cases notes
  have nothing : (roundStart setup world item now).state.attempts 1 = [] := blank
  constructor
  · constructor
    · intro t member
      rcases List.mem_cons.mp member with rfl | member
      · exact Nat.zero_lt_two
      · rw [List.mem_singleton.mp member]
        exact Nat.one_lt_two
    · exact List.nodup_cons.mpr ⟨by simp, List.nodup_singleton 1⟩
  · intro t member
    rcases List.mem_cons.mp member with rfl | member
    · exact aside_keeps setup waiting _ fun _ => trivial
    · rw [List.mem_singleton.mp member]
      exact main_keeps setup (.item 0 item now)
  · constructor
    · constructor
      · exact kinds
      · intro t ht u hu label s s' notes
        exact absurd notes (idle t ht _ _)
      · exact fun label running => Bool.noConfusion running
      · intro result member
        rw [nothing] at member
        cases member
      · rw [nothing]
        exact List.nodup_nil
      · exact fun label v ended => Status.noConfusion ended
      · exact fun p member => (List.not_mem_nil member).elim
      · exact List.nodup_nil
      · exact fun label v joined => Status.noConfusion joined
      · exact fun _ _ => rfl
      · exact fun spawned => Bool.noConfusion spawned
      · intro existing read
        cases read
      · exact fun dry => Bool.noConfusion dry
      · exact fun label => ⟨fun member => (List.not_mem_nil member).elim, Bool.noConfusion⟩
      · exact List.nodup_nil
      · exact Or.inr ⟨_, List.mem_cons_of_mem _ List.mem_cons_self, rfl⟩
    · obtain ⟨row, found⟩ := present
      exact ⟨fun _ _ => rfl, fun _ _ => rfl, row, found, fun _ _ _ => Stage.noConfusion,
        Bool.noConfusion⟩
    · exact trivial

theorem kept_run (blank : world.attempts 1 = [])
    (present : ∃ row, world.store.items item.relpath = some row) (h : Log) (c : Round)
    (tracked : Tracked (rounds setup) (rounded setup) (fun c => c = roundStart setup world item now)
      (fun _ c choice => Calm c choice) h c) : Kept setup world item now h c := by
  apply invariant_of_tracked (rounds setup) (rounded setup) _ _ (Kept setup world item now) _ _ h c
    tracked
  · rintro _ rfl
    exact kept_start setup world item now blank present
  · intro h c later choice kept calm stepped
    exact kept_step setup world item now h c later choice kept calm stepped

end Runs

end FileReplicator.RoundSteps
