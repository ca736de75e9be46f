import FileReplicator.Backlog

/-!
# Where a tick is

A tick takes the lock, prepares the rows, and claims batch after batch, each once
the one before has drained; it ends when it finds nothing to claim, when a claim
is refused, or when its window closes. No other thread takes the lock, claims or
makes a row ready, but for the startup recovery.
-/

namespace FileReplicator.Drains

open Domain Effects Operations Worker Instance TickCalls Backlog

variable (setup : Setup)

inductive Place where
  /-- Before it has the lock. -/
  | waiting
  | preparing
  | claimed (batch : List String)
  | running (batch : List String)
  /-- The window has closed while the batch runs. -/
  | closing (batch : List String)
  | draining
  /-- It claims nothing any more. -/
  | ending
  /-- It has given the lock back. -/
  | left
  deriving DecidableEq

def Place.inside : Place → Bool
  | .waiting | .left => false
  | _ => true

/-- It has the lock, and no batch is out or about to be. -/
def Place.quiet : Place → Bool
  | .preparing | .ending => true
  | _ => false

def Place.between : Place → Bool
  | .preparing | .draining => true
  | _ => false

def Place.drained : Place → Place
  | .closing _ => .ending
  | _ => .draining

def Place.closed : Place → Place
  | .running batch => .closing batch
  | place => place

structure Progress where
  now : Int
  ignoring : Bool
  /-- It is to go on until nothing is left to claim. -/
  drains : Bool
  /-- How many more batches its loop may claim. -/
  rounds : Nat
  place : Place
  deriving DecidableEq

inductive Notes where
  | recover
  | item (relpath : String)
  | aside
  | tick (p : Progress)
  deriving DecidableEq

def start : Spec → Notes
  | .recover _ => .recover
  | .tick now ignoreWindow _ fuel => .tick ⟨now, ignoreWindow, ignoreWindow, fuel, .waiting⟩
  | .item _ item _ => .item item.relpath
  | _ => .aside

def ofTick : Op → Bool
  | .isActive | .lockTick | .unlockTick | .spawnBatch _ _ | .nextOfBatch _ | .abortBatch
  | .store (.claimReady _ _) => true
  -- progress is persisted within a delivery, which is one call here
  | .store (.setBytesDone _ _ _) => true
  | _ => false

def stateOf : Op → Option (String × ItemState)
  | .store operation => puts operation
  | _ => none

/-- A tick that is to go on may give the lock back only when its rounds are spent. -/
def mayLeave (p : Progress) : Prop :=
  p.place = .ending ∨ (p.place.between = true ∧ (p.drains = true → p.rounds = 0))

def allowedTick (p : Progress) : Op → Prop
  | .isActive | .lockTick => p.place = .waiting
  | .unlockTick => mayLeave p
  | .store (.claimReady _ later) => later = p.now ∧ p.place.between = true ∧ 0 < p.rounds
  | .spawnBatch items _ => p.place = .claimed (items.map WorkItem.relpath)
  | .nextOfBatch _ => (∃ batch, p.place = .running batch) ∨ ∃ batch, p.place = .closing batch
  | .abortBatch => ∃ batch, p.place = .closing batch
  | .store (.setBytesDone _ _ _) => False
  | operation =>
      p.place.inside = true ∧ ∀ change, stateOf operation = some change → p.place.quiet = true

def allowed : Notes → Op → Prop
  | .recover, operation => ofTick operation = false
  | .item own, operation => ofTick operation = false ∧
      ∀ relpath state, stateOf operation = some (relpath, state) → relpath = own ∧ state ≠ .ready
  | .aside, operation => ofTick operation = false ∧ stateOf operation = none
  | .tick p, operation => allowedTick p operation

theorem no_progress (n : Notes) (relpath : String) (bytes : Nat) (now : Int) :
    ¬allowed n (.store (.setBytesDone relpath bytes now)) := by
  intro may
  cases n with
  | recover => cases may
  | item own => cases may.1
  | aside => cases may.1
  | tick p => exact may

def learnClaim (p : Progress) : List WorkItem → Progress
  | [] => { p with place := .ending }
  | rows => { p with place := .claimed (rows.map WorkItem.relpath), rounds := p.rounds - 1 }

/-- The tick is to claim until nothing is left. -/
def goesOn : Admission → Bool
  | .all drain => drain
  | .none => false
  | .windowed _ => true

def learnTick (p : Progress) : (operation : Op) → Ret operation → Progress
  | .lockTick, _ => { p with place := .preparing }
  | .unlockTick, _ => { p with place := .left }
  | .evaluateSchedule, admission => { p with drains := p.ignoring || goesOn admission }
  | .deadlinePassed, true => { p with drains := p.ignoring }
  | .store (.claimReady _ _), .ok rows => learnClaim p rows
  | .store (.claimReady _ _), .error _ => { p with place := .ending }
  | .spawnBatch items _, _ => { p with place := .running (items.map WorkItem.relpath) }
  | .nextOfBatch _, .drained => { p with place := p.place.drained }
  | .nextOfBatch _, .closed => { p with place := p.place.closed }
  | _, _ => p

def learn : Notes → (operation : Op) → Ret operation → Notes
  | .tick p, operation, ret => .tick (learnTick p operation ret)
  | n, _, _ => n

def possible : (operation : Op) → Ret operation → Prop
  | .nextOfBatch closable, .closed => closable = true
  | _, _ => True

def drains : Discipline Op Ret Notes := ⟨allowed, possible, learn⟩

/-- A tick has taken no lock, or has given it back. -/
def Finished : Notes → Prop
  | .tick p => p.place = .waiting ∨ p.place = .left
  | _ => True

theorem call_keeps {α : Type} (n : Notes) (post : α → Notes → Prop) (operation : Op)
    (next : Ret operation → Program α) (may : allowed n operation)
    (later : ∀ ret, possible operation ret → Keeps drains (next ret) (learn n operation ret) post) :
    Keeps drains (Prog.perform operation >>= next) n post :=
  ⟨may, later⟩

/-! ## Ticks -/

section Ticks

variable (p : Progress)

/-- A call that is none of a tick's own leaves it where it is, and a tick that is to go on whatever
the schedule says still is. -/
theorem learn_other (operation : Op) (ret : Ret operation) (other : ofTick operation = false) :
    ∃ drains, learnTick p operation ret = { p with drains := drains } ∧
      (p.ignoring = true → p.drains = true → drains = true) := by
  unfold learnTick
  split
  case h_3 admission => exact ⟨_, rfl, fun ignoring _ => by rw [ignoring]; rfl⟩
  case h_4 => exact ⟨_, rfl, fun ignoring _ => ignoring⟩
  all_goals first | cases other | exact ⟨p.drains, rfl, fun _ => id⟩

theorem inside_of_quiet (place : Place) (is : place.quiet = true) : place.inside = true := by
  cases place <;> first | rfl | cases is

theorem inside_of_between (place : Place) (is : place.between = true) : place.inside = true := by
  cases place <;> first | rfl | cases is

theorem allowed_other (operation : Op) (other : ofTick operation = false)
    (quiet : p.place.quiet = true) : allowedTick p operation := by
  have both : p.place.inside = true ∧ ∀ change, stateOf operation = some change →
      p.place.quiet = true := ⟨inside_of_quiet p.place quiet, fun _ _ => quiet⟩
  unfold allowedTick
  split
  all_goals first | cases other | exact both

theorem other_of_plain (operation : Op) (plain : isPlain operation = true) :
    ofTick operation = false := by
  cases operation with
  | store operation =>
      cases operation with
      | claimReady limit now => cases plain
      | setBytesDone relpath bytes now => cases plain
      | _ => rfl
  | isActive => cases plain
  | lockTick => cases plain
  | unlockTick => cases plain
  | spawnBatch items now => cases plain
  | nextOfBatch closable => cases plain
  | abortBatch => cases plain
  | _ => rfl

def Still (n : Notes) : Prop :=
  ∃ drains, n = .tick { p with drains := drains } ∧
    (p.ignoring = true → p.drains = true → drains = true)

theorem plain_keeps {α : Type} (program : Program α) (quiet : p.place.quiet = true)
    (plain : Plain (fun _ => True) program) (n : Notes) (still : Still p n) :
    Keeps drains program n fun _ after => Still p after := by
  induction program generalizing n with
  | done value => exact still
  | call operation next ih =>
      obtain ⟨drains, rfl, ignores⟩ := still
      have other := other_of_plain operation plain.1.1
      refine ⟨allowed_other _ operation other quiet, fun ret _ => ih ret (plain.2 ret) _ ?_⟩
      obtain ⟨later, learned, still⟩ := learn_other { p with drains := drains } operation ret other
      exact ⟨later, congrArg Notes.tick learned, fun ignoring was => still ignoring (ignores ignoring was)⟩

theorem still_self : Still p (.tick p) := ⟨p.drains, rfl, fun _ => id⟩

def Leaves (n : Notes) : Prop := ∃ p, n = .tick p ∧ mayLeave p

theorem leaves_at_end (at_ : p.place = .ending) : Leaves (.tick p) := ⟨p, rfl, Or.inl at_⟩

theorem batch_keeps (batch : List WorkItem) (holding : p.place = .claimed (batch.map WorkItem.relpath)) :
    Keeps drains (runBatch batch p.now) (.tick p) fun _ after =>
      after = .tick { p with place := .draining } := by
  refine ⟨holding, fun _ _ => ⟨Or.inl ⟨_, rfl⟩, fun event possible => ?_⟩⟩
  cases event with
  | drained => rfl
  | closed => cases possible

theorem admitted_keeps (drain : Bool) (fuel : Nat) (between : p.place.between = true)
    (rounds : p.rounds = fuel) (mode : p.drains = drain) :
    Keeps drains (runAdmitted setup drain p.now fuel) (.tick p) fun _ after => Leaves after := by
  induction fuel generalizing p with
  | zero => exact ⟨p, rfl, Or.inr ⟨between, fun _ => rounds⟩⟩
  | succ fuel ih =>
      rw [runAdmitted]
      apply keeps_bind
      refine ⟨⟨rfl, between, by omega⟩, fun claimed _ => ?_⟩
      cases claimed with
      | error e => exact leaves_at_end _ rfl
      | ok batch =>
          cases batch with
          | nil => exact leaves_at_end _ rfl
          | cons item rest =>
              show Keeps drains (runBatch (item :: rest) p.now >>= fun _ =>
                if drain then runAdmitted setup drain p.now fuel else return ())
                (.tick (learnClaim p (item :: rest))) _
              apply keeps_bind
              apply keeps_mono _ _ _ _ _ (batch_keeps (learnClaim p (item :: rest)) (item :: rest) rfl)
              rintro _ _ rfl
              cases drain with
              | true =>
                  have left : p.rounds - 1 = fuel := by omega
                  exact ih { learnClaim p (item :: rest) with place := .draining } rfl left mode
              | false =>
                  refine ⟨_, rfl, Or.inr ⟨rfl, fun drains => ?_⟩⟩
                  have still : p.drains = true := drains
                  rw [mode] at still
                  cases still

theorem close_keeps (batch : List WorkItem) (onClose : Operations.WindowClose)
    (closing : ∃ names, p.place = .closing names) :
    Keeps drains (closeBatch setup batch p.now onClose) (.tick p) fun _ after =>
      ∃ p, after = .tick p ∧ p.place = .ending := by
  obtain ⟨names, at_⟩ := closing
  have drained : p.place.drained = .ending := by rw [at_]; rfl
  unfold closeBatch
  split
  · refine ⟨⟨names, at_⟩, fun _ _ => ⟨Or.inr ⟨names, at_⟩, fun event possible => ?_⟩⟩
    cases event with
    | drained =>
        show Keeps drains (pauseRevert setup p.now (batch.map WorkItem.relpath))
          (.tick { p with place := p.place.drained }) _
        rw [drained]
        apply keeps_mono _ _ _ _ _ (plain_keeps { p with place := .ending } _ rfl
          (plain_of_tidy _ _ (tidy_revert setup _ (fun _ => trivial) p.now _)) _ (still_self _))
        rintro _ _ ⟨drains, rfl, _⟩
        exact ⟨_, rfl, rfl⟩
    | closed => cases possible
  · refine ⟨Or.inr ⟨names, at_⟩, fun event possible => ?_⟩
    cases event with
    | drained => exact ⟨_, rfl, drained⟩
    | closed => cases possible

/-- After a batch that a window may close: the tick is over, or it goes on. -/
def Onward (closed : Bool) (n : Notes) : Prop :=
  if closed then ∃ p, n = .tick p ∧ p.place = .ending else n = .tick { p with place := .draining }

theorem windowed_batch_keeps (batch : List WorkItem) (onClose : Operations.WindowClose)
    (holding : p.place = .claimed (batch.map WorkItem.relpath)) :
    Keeps drains (runBatchWindowed setup batch p.now onClose) (.tick p) (Onward p) := by
  apply call_keeps _ _ (.spawnBatch batch p.now)
  · exact holding
  intro _ _
  apply call_keeps _ _ (.nextOfBatch true)
  · exact Or.inl ⟨_, rfl⟩
  intro event _
  cases event with
  | drained => exact rfl
  | closed =>
      apply keeps_bind
      apply keeps_mono _ _ _ _ _ (close_keeps setup
        { p with place := .closing (batch.map WorkItem.relpath) } batch onClose ⟨_, rfl⟩)
      exact fun _ _ ended => ended

theorem windowed_keeps (onClose : Operations.WindowClose) (fuel : Nat)
    (between : p.place.between = true) (rounds : p.rounds = fuel) (heeds : p.ignoring = false) :
    Keeps drains (runWindowed setup onClose p.now fuel) (.tick p) fun _ after => Leaves after := by
  induction fuel generalizing p with
  | zero => exact ⟨p, rfl, Or.inr ⟨between, fun _ => rounds⟩⟩
  | succ fuel ih =>
      rw [runWindowed]
      apply call_keeps _ _ .deadlinePassed
      · exact ⟨inside_of_between p.place between, fun _ none => by cases none⟩
      intro passed _
      cases passed with
      | true =>
          refine ⟨{ p with drains := p.ignoring }, rfl, Or.inr ⟨between, fun drains => ?_⟩⟩
          have still : p.ignoring = true := drains
          rw [heeds] at still
          cases still
      | false =>
          show Keeps drains ((claimReady setup.perLimit p.now).run >>= _) (.tick p) _
          apply keeps_bind
          refine ⟨⟨rfl, between, by omega⟩, fun claimed _ => ?_⟩
          cases claimed with
          | error e => exact leaves_at_end _ rfl
          | ok batch =>
              cases batch with
              | nil => exact leaves_at_end _ rfl
              | cons item rest =>
                  show Keeps drains (runBatchWindowed setup (item :: rest) p.now onClose >>=
                    fun closed => if closed then return () else runWindowed setup onClose p.now fuel)
                    (.tick (learnClaim p (item :: rest))) _
                  apply keeps_bind
                  apply keeps_mono _ _ _ _ _ (windowed_batch_keeps setup
                    (learnClaim p (item :: rest)) (item :: rest) onClose rfl)
                  rintro closed n onward
                  cases closed with
                  | true =>
                      obtain ⟨_, rfl, at_⟩ := onward
                      exact leaves_at_end _ at_
                  | false =>
                      have left : p.rounds - 1 = fuel := by omega
                      obtain rfl : n = .tick { learnClaim p (item :: rest) with place := .draining } :=
                        onward
                      exact ih { learnClaim p (item :: rest) with place := .draining } rfl left heeds

theorem admission_keeps (fuel : Nat) (admission : Admission) (between : p.place.between = true)
    (rounds : p.rounds = fuel) (mode : p.drains = goesOn admission)
    (forced : p.ignoring = true → admission = .all true) :
    Keeps drains (runAdmission setup fuel p.now admission) (.tick p) fun _ after => Leaves after := by
  cases admission with
  | all drain => exact admitted_keeps setup p drain fuel between rounds mode
  | none =>
      refine ⟨p, rfl, Or.inr ⟨between, fun drains => ?_⟩⟩
      rw [mode] at drains
      cases drains
  | windowed onClose =>
      refine windowed_keeps setup p onClose fuel between rounds ?_
      cases ignores : p.ignoring with
      | false => rfl
      | true => cases forced ignores

theorem schedule_keeps (ignoreWindow drains : Bool) (ignores : p.ignoring = ignoreWindow)
    (quiet : p.place.quiet = true) (forced : ignoreWindow = true → drains = true) :
    Keeps Drains.drains (admission ignoreWindow) (.tick { p with drains := drains }) fun admitted after =>
      after = .tick { p with drains := goesOn admitted } ∧
        (ignoreWindow = true → admitted = .all true) := by
  cases ignoreWindow with
  | true =>
      obtain rfl := forced rfl
      exact ⟨rfl, fun _ => rfl⟩
  | false =>
      refine ⟨⟨inside_of_quiet p.place quiet, fun _ _ => quiet⟩,
        fun admitted _ => ⟨?_, fun ignoring => by cases ignoring⟩⟩
      show Notes.tick { p with drains := p.ignoring || goesOn admitted } = _
      rw [ignores, Bool.false_or]

theorem tick_keeps (now : Int) (ignoreWindow redriveCleanup : Bool) (fuel : Nat) :
    Keeps drains (runTick setup now ignoreWindow redriveCleanup fuel)
      (.tick ⟨now, ignoreWindow, ignoreWindow, fuel, .waiting⟩) fun _ after => Finished after := by
  obtain ⟨p, here⟩ : ∃ p : Progress, p = ⟨now, ignoreWindow, ignoreWindow, fuel, .preparing⟩ := ⟨_, rfl⟩
  have quiet {α : Type} (program : Program α) (plain : Plain (fun _ => True) program) (n : Notes)
      (still : Still p n) : Keeps drains program n fun _ after => Still p after :=
    plain_keeps p program (by rw [here]; rfl) plain n still
  apply call_keeps _ _ .isActive
  · exact rfl
  intro active _
  cases active with
  | false => exact Or.inl rfl
  | true =>
      apply call_keeps _ _ .lockTick
      · exact rfl
      intro _ _
      apply keeps_bind
      apply keeps_mono _ _ _ _ _ (quiet _ (plain_rowless _ _ rfl rfl) _ (here ▸ still_self p))
      intro ready discovered still
      apply keeps_bind
      apply keeps_mono _ _ _ _ _ (quiet _ (plain_enqueue _ now ready) _ still)
      intro _ enqueued still
      apply keeps_bind
      apply keeps_mono _ _ _ _ _
        (quiet _ (within_best_effort _ _ (plain_of_tidy _ _ (tidy_promote _ (fun _ => trivial) now))) _ still)
      intro _ promoted still
      apply keeps_bind
      apply keeps_mono _ _ _ _ _
        (quiet _ (within_best_effort _ _
          (plain_of_tidy _ _ (tidy_drive setup _ (fun _ => trivial) now redriveCleanup))) _
          still)
      rintro _ _ ⟨drains, rfl, ignoring⟩
      apply keeps_bind
      apply keeps_mono _ _ _ _ _ (schedule_keeps p ignoreWindow drains (by rw [here]) (by rw [here]; rfl)
        fun ignores => ignoring (by rw [here]; exact ignores) (by rw [here]; exact ignores))
      rintro admitted _ ⟨rfl, forced⟩
      apply keeps_bind
      have same : now = p.now := by rw [here]
      rw [same]
      apply keeps_mono _ _ _ _ _ (admission_keeps setup { p with drains := goesOn admitted } fuel admitted
        (by rw [here]; rfl) (by rw [here]) rfl fun ignores =>
          forced (by rw [here] at ignores; exact ignores))
      rintro _ _ ⟨q, rfl, leaves⟩
      exact ⟨leaves, fun _ _ => Or.inr rfl⟩

end Ticks
/-! ## The other threads -/

def ofAside : Op → Bool
  | .fs _ | .deliver _ _ _ | .verify _ _ _ _ | .abort _ _ _ | .draw | .endAttempt _ | .endAction _
  | .endQuarantine | .store (.loadResume _ _) | .store (.saveResume _ _ _)
  | .store (.clearResume _ _) | .store (.setDestPhase _ _ _)
  | .store (.recordDestAttempt _ _ _ _ _) => true
  | _ => false

section Aside

def Aside {α : Type} (program : Program α) : Prop :=
  Within (fun operation => ofAside operation = true) program

theorem aside_perform (operation : Op) (is : ofAside operation = true) :
    Aside (Prog.perform operation : Program (Ret operation)) :=
  within_perform _ _ is

theorem aside_disk {α : Type} (program : FileTree.FsProg α) : Aside (onDisk program) := by
  induction program with
  | done value => exact trivial
  | call operation next ih => exact ⟨rfl, fun ret => ih ret⟩

theorem aside_abort_and_clear (item : WorkItem) (label : String) :
    Aside (abortAndClearResume item label) := by
  apply within_bind
  · exact aside_perform _ rfl
  intro loaded
  apply within_bind
  · unfold abortLoaded
    split
    · exact within_best_effort _ _ (aside_perform _ rfl)
    · exact trivial
  · exact fun _ => within_best_effort _ _ (aside_perform _ rfl)

theorem aside_abort_each (item : WorkItem) (labels : List String) : Aside (abortEach item labels) := by
  induction labels with
  | nil => exact trivial
  | cons label rest ih =>
      apply within_bind
      · exact aside_abort_and_clear item label
      · exact fun _ => ih

theorem aside_failed_attempt (ctx : AttemptCtx) (e : ReplError) :
    Aside (failedAttempt setup ctx e).run := by
  apply within_task_bind
  · exact within_always _ _ (aside_perform _ rfl)
  intro jitter
  simp only
  split
  · apply within_task_bind
    · exact aside_perform _ rfl
    · exact fun _ => trivial
  · apply within_task_bind
    · exact aside_perform _ rfl
    intro _
    apply within_task_bind
    · exact within_always _ _ (aside_abort_and_clear ctx.item ctx.label)
    · exact fun _ => trivial

theorem aside_attempt (ctx : AttemptCtx) : Aside (runAttempt setup ctx) := by
  apply within_bind
  · apply within_task_bind
    · exact aside_perform _ rfl
    intro resume
    apply within_task_bind
    · apply within_always
      apply within_task_bind
      · exact aside_perform _ rfl
      intro delivered
      apply within_task_bind
      · exact aside_perform _ rfl
      · exact fun _ => trivial
    intro outcome
    cases outcome with
    | error e => exact aside_failed_attempt setup ctx e
    | ok delivered =>
        apply within_task_bind
        · exact within_always _ _ (within_best_effort _ _ (aside_perform _ rfl))
        intro _
        apply within_task_bind
        · exact aside_perform _ rfl
        · exact fun _ => trivial
  · exact fun result => aside_perform _ rfl

theorem aside_action (ctx : SourceActions.CleanupCtx) : Aside (runAction setup ctx) := by
  apply within_bind
  · exact aside_disk _
  · exact fun result => aside_perform _ rfl

theorem aside_quarantine (job : QuarantineJob) : Aside (runQuarantine setup job) := by
  apply within_bind
  · exact aside_disk _
  · exact fun result => aside_perform _ rfl

end Aside

/-- A call that is none of a tick's own, and makes no row ready; it puts only `own` into a state. -/
def mild (own : Option String) (operation : Op) : Prop :=
  ofTick operation = false ∧
    ∀ relpath state, stateOf operation = some (relpath, state) → own = some relpath ∧ state ≠ .ready

section Mild

variable (own : Option String)

theorem mild_rowless (operation : Op) (other : ofTick operation = false)
    (none : stateOf operation = none) :
    Within (mild own) (Prog.perform operation : Program (Ret operation)) :=
  within_perform _ _ ⟨other, fun relpath state changes => by rw [none] at changes; cases changes⟩

theorem mild_of_aside {α : Type} (program : Program α) (aside : Aside program) :
    Within (mild own) program := by
  apply within_mono _ _ program _ aside
  intro operation is
  have none : stateOf operation = none := by
    cases operation with
    | store operation => cases operation <;> first | rfl | cases is
    | _ => rfl
  refine ⟨?_, fun relpath state changes => by rw [none] at changes; cases changes⟩
  cases operation with
  | store operation => cases operation <;> first | rfl | cases is
  | _ => first | rfl | cases is

/-! ### Items -/

theorem mild_checksum (relpath : String) (labels : List String) :
    Within (mild own) (deliveredChecksum relpath labels) := by
  induction labels with
  | nil => exact trivial
  | cons label rest ih =>
      apply within_bind
      · exact mild_rowless own _ rfl rfl
      intro loaded
      split
      · exact ih
      · exact trivial

theorem mild_own (item : WorkItem) (state : ItemState) (other : state ≠ .ready) (operation : Op)
    (calls : ofTick operation = false) (changes : stateOf operation = some (item.relpath, state)) :
    Within (mild (some item.relpath)) (Prog.perform operation : Program (Ret operation)) := by
  refine within_perform _ _ ⟨calls, fun relpath found same => ?_⟩
  rw [changes] at same
  cases same
  exact ⟨rfl, other⟩

theorem mild_settle (item : WorkItem) (now : Int)
    (outcome : Except ReplError SourceActions.CleanupDone) :
    Within (mild (some item.relpath)) (settleCleanup setup item now outcome).run := by
  cases outcome with
  | ok done =>
      apply within_task_bind
      · exact mild_own item .completed (by decide) _ rfl rfl
      intro _
      apply within_task_bind
      · exact within_always _ _ (within_best_effort _ _ (mild_rowless _ _ rfl rfl))
      intro _
      apply within_task_bind
      · exact within_always _ _ (within_best_effort _ _ (mild_rowless _ _ rfl rfl))
      intro _
      apply within_task_bind
      · exact mild_rowless _ _ rfl rfl
      · exact fun _ => trivial
  | error e =>
      apply within_task_bind
      · exact within_always _ _ (mild_rowless _ _ rfl rfl)
      intro _
      apply within_task_bind
      · exact mild_own item .cleanupFailed (by decide) _ rfl rfl
      · exact fun _ => trivial

theorem mild_cleanup (item : WorkItem) (now : Int) :
    Within (mild (some item.relpath)) (runCleanup setup item now).run := by
  apply within_task_bind
  · exact mild_own item .cleanupPending (by decide) _ rfl rfl
  intro _
  apply within_task_bind
  · exact within_always _ _ (mild_checksum _ _ _)
  intro _
  apply within_task_bind
  · exact within_always _ _ (mild_rowless _ _ rfl rfl)
  intro _
  apply within_task_bind
  · exact within_always _ _ (mild_rowless _ _ rfl rfl)
  · exact fun outcome => mild_settle setup item now _

theorem mild_exhausted (item : WorkItem) (lastError : String) (attempts : Nat) (now : Int) :
    Within (mild (some item.relpath)) (finishExhausted setup item lastError attempts now).run := by
  unfold finishExhausted
  split
  · apply within_task_bind
    · exact mild_own item .retained (by decide) _ rfl rfl
    · exact fun _ => trivial
  · apply within_task_bind
    · exact within_always _ _ (mild_rowless _ _ rfl rfl)
    intro _
    apply within_task_bind
    · exact within_always _ _ (mild_rowless _ _ rfl rfl)
    intro _
    apply within_task_bind
    · exact mild_own item .quarantined (by decide) _ rfl rfl
    intro _
    apply within_task_bind
    · exact within_always _ _ (mild_rowless _ _ rfl rfl)
    · exact fun _ => trivial

theorem mild_join_all (left : Nat) (tally : Tally) : Within (mild own) (joinAll left tally).run := by
  induction left generalizing tally with
  | zero => exact trivial
  | succ left ih =>
      apply within_task_bind
      · exact within_always _ _ (mild_rowless own _ rfl rfl)
      intro result
      cases result with
      | none => exact trivial
      | some joining =>
          apply within_task_bind
          · exact trivial
          · exact fun outcome => ih _

theorem mild_conclude (item : WorkItem) (existing : String → Option DestState) (now : Int)
    (tally : Tally) :
    Within (mild (some item.relpath)) (conclude setup item existing now tally).run := by
  unfold conclude
  split
  · apply within_task_bind
    · exact within_always _ _ (mild_of_aside _ _ (aside_abort_each item _))
    intro _
    apply within_task_bind
    · exact mild_own item .exhausted (by decide) _ rfl rfl
    intro _
    apply within_task_bind
    · unfold countFailure
      split
      · exact mild_rowless _ _ rfl rfl
      · exact trivial
    · exact fun _ => mild_exhausted setup item _ _ now
  · split
    · apply within_task_bind
      · exact mild_own item .verified (by decide) _ rfl rfl
      · exact fun _ => mild_cleanup setup item now
    · apply within_task_bind
      · exact mild_own item .failed (by decide) _ rfl rfl
      · exact fun _ => trivial

theorem mild_item (item : WorkItem) (now : Int) :
    Within (mild (some item.relpath)) (processItem setup item now) := by
  apply within_best_effort
  apply within_task_bind
  · exact mild_rowless _ _ rfl rfl
  intro existing
  apply within_task_bind
  · apply within_task_bind
    · exact within_always _ _ (mild_rowless _ _ rfl rfl)
    · exact fun _ => mild_join_all _ _ _
  · exact fun tally => mild_conclude setup item existing now tally

end Mild

theorem recover_within (now : Int) :
    Within (fun operation => ofTick operation = false) (bestEffort (recover setup now)) := by
  have plain {α : Type} (program : Program α) (is : Plain (fun _ => True) program) :
      Within (fun operation => ofTick operation = false) program := by
    induction program with
    | done value => exact trivial
    | call operation next ih =>
        exact ⟨other_of_plain operation is.1.1, fun ret => ih ret (is.2 ret)⟩
  apply within_best_effort
  apply within_task_bind
  · exact within_perform _ _ rfl
  intro rows
  apply within_task_bind
  · induction rows with
    | nil => exact trivial
    | cons it rest ih =>
        apply within_task_bind
        · unfold recoverOne
          split
          · exact plain _ (plain_of_tidy _ _ (tidy_recover_verified setup _ it trivial now))
          · apply within_task_bind
            · exact plain _ (plain_of_tidy _ _ (tidy_cleanup setup _ it trivial now))
            · exact fun _ => trivial
          · apply within_task_bind
            · apply within_task_bind
              · exact within_perform _ _ rfl
              intro existing
              apply within_task_bind
              · exact plain _ (plain_of_tidy _ _ (tidy_reverify_each _ it trivial _))
              · exact fun _ => trivial
            · exact fun _ => within_perform _ _ rfl
          · exact trivial
        · exact fun _ => ih
  intro _
  apply within_task_bind
  · exact within_perform _ _ rfl
  intro left
  induction left with
  | nil => exact trivial
  | cons it rest ih =>
      apply within_task_bind
      · have exhausted := mild_exhausted setup it (it.lastError.getD "exhausted") it.attempts now
        generalize (finishExhausted setup it (it.lastError.getD "exhausted") it.attempts now).run =
          program at exhausted ⊢
        induction program with
        | done value => exact trivial
        | call operation next ih => exact ⟨exhausted.1.1, fun ret => ih ret (exhausted.2 ret)⟩
      · exact fun _ => ih

theorem mild_keeps {α : Type} (own : Option String) (n : Notes) (program : Program α)
    (named : n = (match own with | some relpath => .item relpath | none => .aside))
    (within : Within (mild own) program) :
    Keeps drains program n fun _ after => after = n := by
  apply keeps_within drains _ program n _ within
  rintro operation ⟨other, changes⟩
  subst named
  cases own with
  | some relpath =>
      refine ⟨⟨other, fun r state same => ?_⟩, fun _ _ => rfl⟩
      obtain ⟨mine, notready⟩ := changes r state same
      cases mine
      exact ⟨rfl, notready⟩
  | none =>
      refine ⟨⟨other, ?_⟩, fun _ _ => rfl⟩
      cases same : stateOf operation with
      | none => rfl
      | some change => cases (changes change.1 change.2 same).1

theorem main_keeps (spec : Spec) :
    Keeps drains (main setup spec) (start spec) fun _ after => Finished after := by
  have aside (program : Program Unit) (within : Within (mild none) program) :
      Keeps drains program .aside fun _ after => Finished after := by
    apply keeps_mono _ _ _ _ _ (mild_keeps none .aside program rfl within)
    rintro _ _ rfl
    trivial
  cases spec with
  | recover now =>
      apply keeps_mono _ _ _ _ _ (keeps_within drains _ _ _ _ (recover_within setup now))
      · rintro _ _ rfl
        trivial
      · exact fun operation other => ⟨other, fun _ _ => rfl⟩
  | tick now ignoreWindow redriveCleanup fuel =>
      exact tick_keeps setup now ignoreWindow redriveCleanup fuel
  | item owner item now =>
      apply keeps_mono _ _ _ _ _
        (mild_keeps (some item.relpath) (.item item.relpath) _ rfl (mild_item setup item now))
      rintro _ _ rfl
      trivial
  | attempt owner ctx => exact aside _ (mild_of_aside none _ (aside_attempt setup ctx))
  | action handle ctx => exact aside _ (mild_of_aside none _ (aside_action setup ctx))
  | quarantine handle job => exact aside _ (mild_of_aside none _ (aside_quarantine setup job))

end FileReplicator.Drains
