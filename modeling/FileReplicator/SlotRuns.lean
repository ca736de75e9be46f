import FileReplicator.Runs
import FileReplicator.Slots
import FileReplicator.TickCalls

/-!
# Slots are there when they are taken

Every tick starts no more items than its semaphore has permits, and joins them
before it starts more: so whoever has a permit of the gate finds one of the
instance.
-/

namespace FileReplicator.SlotRuns

open Effects Interleaving Exclusion Counting Slots
open Operations hiding Admission Op Ret Program
open Admission hiding step run

variable {Name : Type} (setups : Name → Setup)

/-! ## What a thread holds -/

inductive Hold where
  | nothing
  | queued (key : Key)
  | global
  | both

inductive Held where
  | working
  | released
  | gone

/-- A tick inside its lock has started items of its batch and has others left to start. -/
inductive Notes (Name : Type) where
  | outside (name : Name)
  | inside (name : Name) (sent left : Nat) (hold : Hold)
  | item (name : Name) (held : Held)

def start : Spec Name → Notes Name
  | .tick name _ _ _ _ => .outside name
  | .item name _ _ => .item name .working

/-- What the tick of the instance may call, as far as batches go. -/
def mayCall (limit sent left : Nat) : Operations.Op → Prop
  | .isActive | .lockTick => False
  | .unlockTick => sent = 0 ∧ left = 0
  | .store (.claimReady n _) => n = limit ∧ sent = 0 ∧ left = 0
  | .spawnBatch items _ => sent = 0 ∧ items.length = left
  | .nextOfBatch _ => left = 0
  | _ => True

def allowedTick (name : Name) : Notes Name → Operations.Op → Prop
  | .outside own, .isActive | .outside own, .lockTick => own = name
  | .inside own sent left .nothing, operation =>
      own = name ∧ mayCall (setups name).perLimit sent left operation
  | _, _ => False

/-- A claim has a limit, and only a window closes. -/
def possibleTick : (operation : Operations.Op) → Operations.Ret operation → Prop
  | .nextOfBatch closable, .closed => closable = true
  | operation, ret => fits operation ret = true

def learnTick : Notes Name → (operation : Operations.Op) → Operations.Ret operation → Notes Name
  | .outside name, .lockTick, _ => .inside name 0 0 .nothing
  | .inside name _ _ _, .unlockTick, _ => .outside name
  | .inside name sent _ hold, .store (.claimReady _ _), .ok batch => .inside name sent batch.length hold
  | .inside name sent left hold, .spawnBatch items _, _ =>
      .inside name (sent + items.length) (left - items.length) hold
  | .inside name _ left hold, .nextOfBatch _, .drained => .inside name 0 left hold
  | n, _, _ => n

/-- The tick, as if the start of a batch was one call. -/
def tickDiscipline (name : Name) : Discipline Operations.Op Operations.Ret (Notes Name) :=
  ⟨allowedTick setups name, possibleTick, learnTick⟩

/-- What a tick with slots calls in another way. -/
def ofBatches : Operations.Op → Bool
  | .lockTick | .unlockTick | .spawnBatch _ _ | .nextOfBatch _ => true
  | _ => false

inductive Legal : Notes Name → Op Name → Prop where
  | active (name : Name) : Legal (.outside name) (.inner .isActive)
  | lock (name : Name) : Legal (.outside name) (.lock name)
  | inner (name : Name) (sent left : Nat) (operation : Operations.Op)
      (apart : ofBatches operation = false)
      (may : mayCall (setups name).perLimit sent left operation) :
      Legal (.inside name sent left .nothing) (.inner operation)
  | unlock (name : Name) : Legal (.inside name 0 0 .nothing) (.unlock name)
  | enter (name : Name) (sent left : Nat) (more : left ≠ 0) :
      Legal (.inside name sent left .nothing) (.enterGate name)
  | observe (name : Name) (sent left : Nat) (key : Key) (more : left ≠ 0) :
      Legal (.inside name sent left (.queued key)) (.observe key)
  | acquire (name : Name) (sent left : Nat) (more : left ≠ 0) :
      Legal (.inside name sent left .global) (.acquireOwned name)
  | spawn (name : Name) (sent left : Nat) (item : Domain.WorkItem) (now : Int) (more : left ≠ 0) :
      Legal (.inside name sent left .both) (.spawn name item now)
  | next (name : Name) (sent : Nat) (closable : Bool) :
      Legal (.inside name sent 0 .nothing) (.next closable)
  | process (name : Name) : Legal (.item name .working) .process
  | dropGlobal (name : Name) : Legal (.item name .working) .dropGlobal
  | dropPerInstance (name : Name) : Legal (.item name .released) (.dropPerInstance name)

def possible : (operation : Op Name) → Ret operation → Prop
  | .inner operation, ret => fits operation ret = true
  | .next closable, .closed => closable = true
  | _, _ => True

def learn : Notes Name → (operation : Op Name) → Ret operation → Notes Name
  | .outside name, .lock _, _ => .inside name 0 0 .nothing
  | .inside name _ _ _, .unlock _, _ => .outside name
  | n, .inner operation, ret => learnTick n operation ret
  | .inside name sent left _, .enterGate _, none => .inside name sent left .global
  | .inside name sent left _, .enterGate _, some key => .inside name sent left (.queued key)
  | .inside name sent left _, .observe _, _ => .inside name sent left .global
  | .inside name sent left _, .acquireOwned _, _ => .inside name sent left .both
  | .inside name sent left _, .spawn _ _ _, _ => .inside name (sent + 1) (left - 1) .nothing
  | .inside name _ left hold, .next _, .drained => .inside name 0 left hold
  | .item name _, .dropGlobal, _ => .item name .released
  | .item name _, .dropPerInstance _, _ => .item name .gone
  | n, _, _ => n

def discipline : Discipline (Op Name) Ret (Notes Name) := ⟨Legal setups, possible, learn⟩

def Finished : Notes Name → Prop
  | .inside _ _ _ _ => False
  | .item _ held => held = .gone
  | .outside _ => True

/-! ## A tick keeps to it -/

/-- The tick is inside its lock, with no batch. -/
abbrev idle (name : Name) : Notes Name := .inside name 0 0 .nothing

variable (name : Name)

theorem plain_keeps {α : Type} (program : Operations.Program α) (plain : TickCalls.Plain (fun _ => True) program) :
    Keeps (tickDiscipline setups name) program (idle name) fun _ after => after = idle name := by
  apply keeps_within (tickDiscipline setups name) _ program _ _ plain
  intro operation is
  replace is := is.1
  constructor
  · refine ⟨rfl, ?_⟩
    unfold mayCall
    split
    · cases is
    · cases is
    · exact ⟨rfl, rfl⟩
    · cases is
    · cases is
    · rfl
    · exact trivial
  · intro ret _
    show learnTick _ operation ret = _
    unfold learnTick
    split <;> first | rfl | cases is

theorem spawn_keeps (batch : List Domain.WorkItem) (now : Int)
    (post : Unit → Notes Name → Prop) (holds : post () (.inside name batch.length 0 .nothing)) :
    Keeps (tickDiscipline setups name) (spawnBatch batch now) (.inside name 0 batch.length .nothing)
      post := by
  refine ⟨⟨rfl, rfl, rfl⟩, fun _ _ => ?_⟩
  show post () (.inside name (0 + batch.length) (batch.length - batch.length) .nothing)
  rw [Nat.zero_add, Nat.sub_self]
  exact holds

theorem drain_keeps (sent : Nat) (post : BatchEvent → Notes Name → Prop)
    (holds : post .drained (idle name)) :
    Keeps (tickDiscipline setups name) (nextOfBatch false) (.inside name sent 0 .nothing) post := by
  refine ⟨⟨rfl, rfl⟩, fun event possible => ?_⟩
  cases event with
  | drained => exact holds
  | closed => cases possible

theorem run_batch_keeps (batch : List Domain.WorkItem) (now : Int) :
    Keeps (tickDiscipline setups name) (Instance.runBatch batch now)
      (.inside name 0 batch.length .nothing) fun _ after => after = idle name := by
  rw [Instance.runBatch]
  apply keeps_bind
  apply spawn_keeps
  apply keeps_bind
  apply drain_keeps
  rfl

theorem claim_keeps (now : Int) (post : Except Domain.ReplError (List Domain.WorkItem) → Notes Name → Prop)
    (refused : ∀ e, post (.error e) (idle name))
    (taken : ∀ batch, post (.ok batch) (.inside name 0 batch.length .nothing)) :
    Keeps (tickDiscipline setups name) (claimReady (setups name).perLimit now).run (idle name) post := by
  refine ⟨⟨rfl, rfl, rfl, rfl⟩, fun result _ => ?_⟩
  cases result with
  | error e => exact refused e
  | ok batch => exact taken batch

theorem run_admitted_keeps (drain : Bool) (now : Int) (fuel : Nat) :
    Keeps (tickDiscipline setups name) (Instance.runAdmitted (setups name) drain now fuel) (idle name)
      fun _ after => after = idle name := by
  induction fuel with
  | zero => rfl
  | succ fuel ih =>
      rw [Instance.runAdmitted]
      apply keeps_bind
      apply claim_keeps
      · exact fun e => rfl
      · intro batch
        cases batch with
        | nil => rfl
        | cons item rest =>
            apply keeps_bind
            apply keeps_mono _ _ _ _ _ (run_batch_keeps setups name (item :: rest) now)
            rintro _ _ rfl
            split
            · exact ih
            · rfl

theorem close_batch_keeps (batch : List Domain.WorkItem) (now : Int) (onClose : WindowClose)
    (sent : Nat) :
    Keeps (tickDiscipline setups name) (Instance.closeBatch (setups name) batch now onClose)
      (.inside name sent 0 .nothing) fun _ after => after = idle name := by
  unfold Instance.closeBatch
  split
  · apply keeps_bind
    refine ⟨⟨rfl, trivial⟩, fun _ _ => ?_⟩
    apply keeps_bind
    apply drain_keeps
    exact plain_keeps setups name _ (TickCalls.plain_of_tidy _ _
      (TickCalls.tidy_revert (setups name) _ (fun _ => trivial) now _))
  · apply keeps_bind
    apply drain_keeps
    rfl

theorem run_batch_windowed_keeps (batch : List Domain.WorkItem) (now : Int) (onClose : WindowClose) :
    Keeps (tickDiscipline setups name) (Instance.runBatchWindowed (setups name) batch now onClose)
      (.inside name 0 batch.length .nothing) fun _ after => after = idle name := by
  rw [Instance.runBatchWindowed]
  apply keeps_bind
  apply spawn_keeps
  apply keeps_bind
  refine ⟨⟨rfl, rfl⟩, fun event _ => ?_⟩
  cases event with
  | drained => rfl
  | closed =>
      apply keeps_bind
      apply keeps_mono _ _ _ _ _ (close_batch_keeps setups name batch now onClose _)
      rintro _ _ rfl
      rfl

theorem run_windowed_keeps (onClose : WindowClose) (now : Int) (fuel : Nat) :
    Keeps (tickDiscipline setups name) (Instance.runWindowed (setups name) onClose now fuel) (idle name)
      fun _ after => after = idle name := by
  induction fuel with
  | zero => rfl
  | succ fuel ih =>
      rw [Instance.runWindowed]
      apply keeps_bind
      refine ⟨⟨rfl, trivial⟩, fun passed _ => ?_⟩
      cases passed with
      | true => rfl
      | false =>
          apply keeps_bind
          apply claim_keeps
          · exact fun e => rfl
          · intro batch
            cases batch with
            | nil => rfl
            | cons item rest =>
                apply keeps_bind
                apply keeps_mono _ _ _ _ _
                  (run_batch_windowed_keeps setups name (item :: rest) now onClose)
                rintro closed _ rfl
                cases closed with
                | true => rfl
                | false => exact ih

theorem run_admission_keeps (fuel : Nat) (now : Int) (admitted : Operations.Admission) :
    Keeps (tickDiscipline setups name) (Instance.runAdmission (setups name) fuel now admitted)
      (idle name) fun _ after => after = idle name := by
  cases admitted with
  | all drain => exact run_admitted_keeps setups name drain now fuel
  | none => rfl
  | windowed onClose => exact run_windowed_keeps setups name onClose now fuel

theorem tick_keeps (now : Int) (ignoreWindow redriveCleanup : Bool) (fuel : Nat) :
    Keeps (tickDiscipline setups name)
      (Instance.runTick (setups name) now ignoreWindow redriveCleanup fuel) (.outside name)
      fun _ after => after = .outside name := by
  rw [Instance.runTick]
  apply keeps_bind
  refine ⟨rfl, fun active _ => ?_⟩
  cases active with
  | false => rfl
  | true =>
      show Keeps _ (Instance.tickBody (setups name) now ignoreWindow redriveCleanup fuel) _ _
      rw [Instance.tickBody]
      apply keeps_bind
      refine ⟨rfl, fun _ _ => ?_⟩
      apply keeps_bind
      refine ⟨⟨rfl, trivial⟩, fun ready _ => ?_⟩
      apply keeps_bind
      apply keeps_mono _ _ _ _ _ (plain_keeps setups name _ (TickCalls.plain_enqueue _ now ready))
      rintro _ _ rfl
      apply keeps_bind
      apply keeps_mono _ _ _ _ _ (plain_keeps setups name _
        (within_best_effort _ _ (TickCalls.plain_of_tidy _ _
          (TickCalls.tidy_promote _ (fun _ => trivial) now))))
      rintro _ _ rfl
      apply keeps_bind
      apply keeps_mono _ _ _ _ _ (plain_keeps setups name _
        (within_best_effort _ _ (TickCalls.plain_of_tidy _ _
          (TickCalls.tidy_drive (setups name) _ (fun _ => trivial) now redriveCleanup))))
      rintro _ _ rfl
      apply keeps_bind
      apply keeps_mono _ _ _ _ _ (plain_keeps setups name _ (TickCalls.plain_of_tidy _ _
        (TickCalls.tidy_admission _ ignoreWindow)))
      rintro admitted _ rfl
      apply keeps_bind
      apply keeps_mono _ _ _ _ _ (run_admission_keeps setups name fuel now admitted)
      rintro _ _ rfl
      exact ⟨⟨rfl, rfl, rfl⟩, fun _ _ => rfl⟩

theorem spawn_each_keeps (now : Int) (batch : List Domain.WorkItem) (sent left : Nat)
    (all : batch.length ≤ left) :
    Keeps (discipline setups) (spawnEach name now batch) (.inside name sent left .nothing)
      fun _ after => after = .inside name (sent + batch.length) (left - batch.length) .nothing := by
  induction batch generalizing sent left with
  | nil => rfl
  | cons item rest ih =>
      rw [List.length_cons] at all
      have later := ih (sent + 1) (left - 1) (by omega)
      have ends : Notes.inside name (sent + 1 + rest.length) (left - 1 - rest.length) Hold.nothing =
          .inside name (sent + (item :: rest).length) (left - (item :: rest).length) .nothing := by
        rw [List.length_cons]
        congr 1 <;> omega
      rw [ends] at later
      rw [spawnEach, acquireSlot, acquireGlobal]
      -- both ways through the gate lead to the same notes
      have more : left ≠ 0 := by omega
      have spawns : Keeps (discipline setups) (do
          op (.acquireOwned name)
          op (.spawn name item now)
          spawnEach name now rest : Slots.Program Name Unit) (.inside name sent left .global)
          fun _ after => after =
            .inside name (sent + (item :: rest).length) (left - (item :: rest).length) .nothing :=
        ⟨.acquire name sent left more, fun _ _ => ⟨.spawn name sent left item now more,
          fun _ _ => later⟩⟩
      refine ⟨.enter name sent left more, fun entered _ => ?_⟩
      cases entered with
      | none => exact spawns
      | some key => exact ⟨.observe name sent left key more, fun _ _ => spawns⟩

theorem slotted_keeps (n : Notes Name) (operation : Operations.Op)
    (may : allowedTick setups name n operation) :
    Keeps (discipline setups) (slotted name operation) n fun ret after =>
      possibleTick operation ret ∧ after = learnTick n operation ret := by
  cases n with
  | outside own =>
      cases operation with
      | isActive => exact ⟨.active own, fun ret fit => ⟨fit, rfl⟩⟩
      | lockTick =>
          obtain rfl : own = name := may
          exact ⟨.lock own, fun ret _ => ⟨rfl, rfl⟩⟩
      | _ => exact may.elim
  | item own held => exact may.elim
  | inside own sent left hold =>
      cases hold with
      | nothing =>
          obtain ⟨rfl, may⟩ := may
          cases operation with
          | isActive => exact may.elim
          | lockTick => exact may.elim
          | unlockTick =>
              obtain ⟨rfl, rfl⟩ := may
              exact ⟨.unlock own, fun ret _ => ⟨rfl, rfl⟩⟩
          | spawnBatch items now =>
              apply keeps_mono _ _ _ _ _
                (spawn_each_keeps setups own now items sent left (le_of_eq may.2))
              rintro ret _ rfl
              exact ⟨rfl, rfl⟩
          | nextOfBatch closable =>
              obtain rfl : left = 0 := may
              refine ⟨.next own sent closable, fun event possible => ?_⟩
              cases event with
              | drained => exact ⟨rfl, rfl⟩
              | closed => exact ⟨possible, rfl⟩
          | _ => exact ⟨.inner own sent left _ rfl may, fun ret fit => ⟨fit, rfl⟩⟩
      | _ => exact may.elim

theorem main_keeps (spec : Spec Name) :
    Keeps (discipline setups) (main setups spec) (start spec) fun _ n => Finished n := by
  cases spec with
  | tick own now ignoreWindow redriveCleanup fuel =>
      apply keeps_mono _ _ _ _ _ (keeps_into (tickDiscipline setups own) (discipline setups)
        (slotted own) (slotted_keeps setups own) _ _ _
        (tick_keeps setups own now ignoreWindow redriveCleanup fuel))
      rintro _ _ rfl
      exact trivial
  | item own owner item =>
      exact ⟨.process own, fun _ _ => ⟨.dropGlobal own, fun _ _ => ⟨.dropPerInstance own,
        fun _ _ => rfl⟩⟩⟩

theorem learn_inside (own : Name) (sent left : Nat) (hold : Hold) (operation : Op Name)
    (ret : Ret operation) (may : Legal setups (.inside own sent left hold) operation) :
    learn (.inside own sent left hold) operation ret = .outside own ∧ operation = .unlock own ∨
      ∃ sent' left' hold', learn (.inside own sent left hold) operation ret =
        .inside own sent' left' hold' := by
  cases may with
  | unlock => exact Or.inl ⟨rfl, rfl⟩
  | enter => cases ret <;> exact Or.inr ⟨_, _, _, rfl⟩
  | next => cases ret <;> exact Or.inr ⟨_, _, _, rfl⟩
  | inner _ _ _ operation apart may =>
      cases operation with
      | lockTick => cases apart
      | unlockTick => cases apart
      | spawnBatch items now => cases apart
      | nextOfBatch closable => cases apart
      | store operation =>
          cases operation with
          | claimReady limit now => cases ret <;> exact Or.inr ⟨_, _, _, rfl⟩
          | _ => exact Or.inr ⟨_, _, _, rfl⟩
      | _ => exact Or.inr ⟨_, _, _, rfl⟩
  | _ => exact Or.inr ⟨_, _, _, rfl⟩

/-- A call that is no part of a batch: a tick inside its lock learns at most the size of its next
batch. -/
theorem inner_learns (n : Notes Name) (operation : Operations.Op) (ret : Operations.Ret operation)
    (may : Legal setups n (.inner operation)) (fit : fits operation ret = true) :
    learn n (.inner operation) ret = n ∨
      ∃ own left, n = idle own ∧ learn n (.inner operation) ret = .inside own 0 left .nothing ∧
        left ≤ (setups own).perLimit := by
  cases may with
  | active own => exact Or.inl rfl
  | inner own sent left operation apart may =>
      cases operation with
      | store operation =>
          cases operation with
          | claimReady limit now =>
              obtain ⟨rfl, rfl, rfl⟩ := may
              cases ret with
              | error e => exact Or.inl rfl
              | ok batch => exact Or.inr ⟨own, batch.length, rfl, rfl, of_decide_eq_true fit⟩
          | _ => exact Or.inl rfl
      | lockTick => cases apart
      | unlockTick => cases apart
      | spawnBatch items now => cases apart
      | nextOfBatch closable => cases apart
      | _ => exact Or.inl rfl

theorem learn_item (n : Notes Name) (operation : Op Name) (ret : Ret operation)
    (may : Legal setups n operation) (name : Name) (held : Held)
    (learned : learn n operation ret = .item name held) : ∃ before, n = .item name before := by
  cases n with
  | item own before =>
      cases may <;> cases learned <;> exact ⟨_, rfl⟩
  | outside own => cases may <;> cases learned
  | inside own sent left hold =>
      rcases learn_inside setups own sent left hold operation ret may with ⟨gone, _⟩ | ⟨_, _, _, same⟩
      · rw [gone] at learned
        cases learned
      · rw [same] at learned
        cases learned

/-! ## What holds in every run -/

variable [DecidableEq Name] (priority : Name → Int)

def slots : Machine (Op Name) Ret (World Name) (Spec Name) (Notes Name) Answer (Event Name) where
  discipline := discipline setups
  finished := Finished
  main := main setups
  start := start
  owner := fun _ => none
  perform := fun t live world operation answer => perform priority world t live operation answer
  react := fun _ world event => react world event

abbrev Member (Name : Type) := Thread (Op Name) Ret (Spec Name) (Notes Name)

abbrev State (Name : Type) := Config (Op Name) Ret (World Name) (Spec Name) (Notes Name)

structure Begins (permits : Nat) (c : State Name) : Prop where
  threads : c.threads = []
  gate : c.state.gate = Gate.new permits
  available : ∀ name, c.state.available name = (setups name).perLimit
  idle : ∀ name, c.state.ticking name = false

def isInside (name : Name) : Notes Name → Bool
  | .inside own _ _ _ => own = name
  | _ => false

theorem inside_iff (n : Notes Name) :
    isInside name n = true ↔ ∃ sent left hold, n = .inside name sent left hold := by
  cases n with
  | inside own sent left hold =>
      constructor
      · intro own
        exact ⟨sent, left, hold, by rw [of_decide_eq_true own]⟩
      · rintro ⟨_, _, _, same⟩
        cases same
        exact decide_eq_true rfl
  | _ => simp [isInside]

theorem ticking_kept (t : Member Name) (live : List (Spec Name)) (world : World Name)
    (operation : Op Name) (answer : Answer) (ret : Ret operation)
    (effect : Effect (World Name) (Spec Name))
    (performed : perform priority world t live operation answer = some (ret, effect)) (name : Name)
    (locks : operation ≠ .lock name) (unlocks : operation ≠ .unlock name) :
    effect.state.ticking name = world.ticking name := by
  cases did_of_perform priority t live world operation answer ret effect performed with
  | locked other free => exact if_neg fun same => locks (congrArg Op.lock same.symm)
  | unlocked other => exact if_neg fun same => unlocks (congrArg Op.unlock same.symm)
  | _ => rfl

def tickLock : Lock (slots setups priority) where
  locked := fun world => world.ticking name
  inside := isInside name
  takes := fun operation =>
    match operation with
    | .lock other => other = name
    | _ => false
  starts := fun spec => by cases spec <;> rfl
  taken := by
    intro t live world operation answer ret effect performed takes
    cases did_of_perform priority t live world operation answer ret effect performed with
    | locked other free =>
        have own : other = name := of_decide_eq_true takes
        subst own
        exact ⟨free, if_pos rfl⟩
    | _ => cases takes
  entered := by
    intro n operation ret takes may outside
    cases n with
    | inside own sent left hold =>
        have other : decide (own = name) = false := outside
        rcases learn_inside setups own sent left hold operation ret may with ⟨gone, _⟩ | ⟨_, _, _, same⟩
        · show isInside name (learn _ operation ret) = false
          rw [gone]
          rfl
        · show isInside name (learn _ operation ret) = false
          rw [same]
          exact other
    | outside own =>
        cases may with
        | active => rfl
        | lock => exact takes
    | item own held => cases may <;> rfl
  given := by
    intro t live world operation answer ret effect performed takes may locked unlocked
    by_cases unlocks : operation = .unlock name
    · subst unlocks
      generalize t.notes = n at may ⊢
      cases may with
      | unlock => exact ⟨decide_eq_true rfl, rfl⟩
    · have still := ticking_kept priority t live world operation answer ret effect performed name (by
          rintro rfl
          simp at takes) unlocks
      rw [still, locked] at unlocked
      cases unlocked
  left := by
    intro live world event reaction reacted
    cases event
    cases reacted
    exact Or.inr rfl

def items (name : Name) : Spec Name → Notes Name → Nat
  | .item own _ _, _ => if own = name then 1 else 0
  | _, _ => 0

/-- Items that the tick of an instance has started and not joined. -/
def started (name : Name) (_ : Spec Name) : Notes Name → Nat
  | .inside own sent _ _ => if own = name then sent else 0
  | _ => 0

def taken (name : Name) (_ : Spec Name) : Notes Name → Nat
  | .inside own _ _ .both | .item own .working | .item own .released => if own = name then 1 else 0
  | _ => 0

def entered (_ : Spec Name) : Notes Name → Nat
  | .inside _ _ _ .global | .inside _ _ _ .both | .item _ .working => 1
  | _ => 0

structure Sound (c : State Name) : Prop where
  distinct : Distinct c
  orderly : Orderly (slots setups priority) c
  alive : ∀ t ∈ c.threads, t.aborted = false
  exclusive : ∀ name, Exclusive (tickLock setups name priority) c
  owned : ∀ u ∈ c.threads, ∀ name owner item, u.spec = .item name owner item →
    ∃ t ∈ c.threads, t.id = owner ∧ isInside name t.notes = true
  within : ∀ t ∈ c.threads, ∀ name sent left hold, t.notes = .inside name sent left hold →
    sent + left ≤ (setups name).perLimit
  named : ∀ t ∈ c.threads, ∀ name held, t.notes = .item name held →
    ∃ owner item, t.spec = .item name owner item
  items : ∀ name, total (items name) c.threads ≤ total (started name) c.threads
  available : ∀ name, c.state.available name + total (taken name) c.threads = (setups name).perLimit
  guards : c.state.gate.guards = total entered c.threads

theorem guards_release (gate : Gate) : gate.releaseOneLocked.guards = gate.guards := by
  unfold Gate.releaseOneLocked
  split <;> rfl

/-! ### What a call adds and takes away -/

structure Called (c : State Name) (t : Member Name) (operation : Op Name) (ret : Ret operation)
    (effect : Effect (World Name) (Spec Name)) (next : Ret operation → Slots.Program Name Unit) :
    Prop where
  member : t ∈ c.threads
  legal : Legal setups t.notes operation
  later : Keeps (discipline setups) (next ret) (learn t.notes operation ret) fun _ n => Finished n
  did : Did priority t.id (Machine.live c) c.state operation ret effect

def Blind (weight : Spec Name → Notes Name → Nat) : Prop :=
  ∀ spec n, Finished n → weight spec n = 0

theorem blind_taken : Blind (taken name) := by
  intro spec n finished
  cases n with
  | inside own sent left hold => exact finished.elim
  | item own held =>
      rw [show held = .gone from finished]
      rfl
  | outside own => rfl

omit [DecidableEq Name] in
theorem blind_entered : Blind (entered : Spec Name → Notes Name → Nat) := by
  intro spec n finished
  cases n with
  | inside own sent left hold => exact finished.elim
  | item own held =>
      rw [show held = .gone from finished]
      rfl
  | outside own => rfl

theorem blind_started : Blind (started name) := by
  intro spec n finished
  cases n with
  | inside own sent left hold => exact finished.elim
  | _ => rfl

theorem no_items_of_drained (c : State Name) (sound : Sound setups priority c) (t : Member Name)
    (member : t ∈ c.threads) (inside : isInside name t.notes = true)
    (nobody : (Machine.live c).any (isItemOf t.id) = false) : total (items name) c.threads = 0 := by
  refine (total_zero (items name) c.threads).mpr fun u hu => ?_
  rw [weigh]
  cases spec : u.spec with
  | tick own now ignoreWindow redriveCleanup fuel => rfl
  | item own owner item =>
      by_cases mine : own = name
      · subst mine
        obtain ⟨holder, hholder, same, holds⟩ := sound.owned u hu own owner item spec
        have one : holder.id = t.id := (sound.exclusive own).one holder hholder t member holds inside
        have absent := List.any_eq_false.mp nobody u.spec (List.mem_map_of_mem hu)
        rw [spec, isItemOf, decide_eq_true_eq, ← same, one] at absent
        exact absurd rfl absent
      · exact if_neg mine

section Call

variable {setups priority}
variable {c : State Name} {t : Member Name} {operation : Op Name} {ret : Ret operation}
variable {effect : Effect (World Name) (Spec Name)} {next : Ret operation → Slots.Program Name Unit}

theorem Called.spares (called : Called setups priority c t operation ret effect next) (id : Nat)
    (spec : Spec Name) : effect.fate id spec = .stays := by
  cases called.did <;> rfl

theorem Called.weighs (called : Called setups priority c t operation ret effect next)
    (distinct : Distinct c) (weight : Spec Name → Notes Name → Nat) (blind : Blind weight) :
    total weight ((slots setups priority).settle c
        ((slots setups priority).resumed t operation ret next) effect).threads +
        weight t.spec t.notes =
      total weight c.threads + weight t.spec (learn t.notes operation ret) +
        total weight ((slots setups priority).spawnFrom c.next effect.spawned) := by
  have left : leftover weight ((slots setups priority).resumed t operation ret next) =
      weight t.spec (learn t.notes operation ret) := by
    have later := called.later
    unfold leftover
    split
    · rename_i done
      have ends : (next ret).isDone = true := done
      cases finished : next ret with
      | done value =>
          rw [finished] at later
          exact (blind t.spec _ later).symm
      | call operation rest =>
          rw [finished] at ends
          cases ends
    · rfl
  rw [← left]
  exact total_settle (slots setups priority) weight c distinct t called.member
    ((slots setups priority).resumed t operation ret next) rfl effect
    fun id spec => by rw [called.spares]; exact Fate.noConfusion

theorem Called.items (called : Called setups priority c t operation ret effect next)
    (distinct : Distinct c) (name : Name) :
    total (items name) ((slots setups priority).settle c
        ((slots setups priority).resumed t operation ret next) effect).threads ≤
      total (items name) c.threads +
        total (items name) ((slots setups priority).spawnFrom c.next effect.spawned) := by
  have sum := total_settle (slots setups priority) (SlotRuns.items name) c distinct t called.member
    ((slots setups priority).resumed t operation ret next) rfl effect
    fun id spec => by rw [called.spares]; exact Fate.noConfusion
  have left : leftover (SlotRuns.items name) ((slots setups priority).resumed t operation ret next) ≤
      weigh (SlotRuns.items name) t := by
    unfold leftover
    split
    · exact Nat.zero_le _
    · rw [weigh, weigh]
      show SlotRuns.items name t.spec _ ≤ _
      cases t.spec <;> exact le_refl _
  omega

theorem Called.weighs_alone (called : Called setups priority c t operation ret effect next)
    (distinct : Distinct c) (weight : Spec Name → Notes Name → Nat) (blind : Blind weight)
    (alone : effect.spawned = []) :
    total weight ((slots setups priority).settle c
        ((slots setups priority).resumed t operation ret next) effect).threads +
        weight t.spec t.notes =
      total weight c.threads + weight t.spec (learn t.notes operation ret) := by
  have sum := called.weighs distinct weight blind
  rw [alone] at sum
  exact sum

theorem Called.available (called : Called setups priority c t operation ret effect next)
    (distinct : Distinct c) (name : Name) (all : c.state.available name +
      total (taken name) c.threads = (setups name).perLimit) :
    effect.state.available name + total (taken name) ((slots setups priority).settle c
      ((slots setups priority).resumed t operation ret next) effect).threads =
      (setups name).perLimit := by
  have sum := called.weighs distinct (taken name) (blind_taken name)
  have alone := called.weighs_alone distinct (taken name) (blind_taken name)
  have legal := called.legal
  generalize t.notes = n at legal sum alone
  cases called.did with
  | inner operation ret fit =>
      have kept := alone rfl
      show c.state.available name + _ = _
      rcases inner_learns setups n operation ret legal fit with same | ⟨own, left, rfl, learned, _⟩
      · rw [same] at kept
        omega
      · rw [learned] at kept
        simp only [taken, Nat.add_zero] at kept
        omega
  | acquired other free =>
      have kept := alone rfl
      cases legal with
      | acquire sent left more =>
          simp only [taken, learn, Nat.add_zero] at kept
          show (if name = other then c.state.available name - 1 else c.state.available name) + _ = _
          by_cases own : name = other
          · subst own
            simp only [if_true] at kept ⊢
            omega
          · rw [if_neg own]
            rw [if_neg (Ne.symm own)] at kept
            omega
  | spawned other item now =>
      cases legal with
      | spawn sent left _ _ more =>
          show c.state.available name + _ = _
          have new : total (taken name) ((slots setups priority).spawnFrom c.next
              [Spec.item other t.id item]) = if other = name then 1 else 0 :=
            total_singleton (taken name) _
          rw [new] at sum
          simp only [taken, learn, Nat.add_zero] at sum
          omega
  | returned other =>
      have kept := alone rfl
      cases legal with
      | dropPerInstance =>
          simp only [taken, learn, Nat.add_zero] at kept
          show (if name = other then c.state.available name + 1 else c.state.available name) + _ = _
          by_cases own : name = other
          · subst own
            simp only [if_true] at kept ⊢
            omega
          · rw [if_neg own]
            rw [if_neg (Ne.symm own)] at kept
            omega
  | _ =>
      have kept := alone rfl
      cases legal
      all_goals
        simp only [taken, learn, Nat.add_zero] at kept
        show c.state.available name + _ = _
        omega

theorem Called.guards (called : Called setups priority c t operation ret effect next)
    (distinct : Distinct c) (all : c.state.gate.guards = total entered c.threads) :
    effect.state.gate.guards = total entered ((slots setups priority).settle c
      ((slots setups priority).resumed t operation ret next) effect).threads := by
  have sum := called.weighs distinct entered blind_entered
  have alone := called.weighs_alone distinct entered blind_entered
  have legal := called.legal
  generalize t.notes = n at legal sum alone
  cases called.did with
  | inner operation ret fit =>
      have kept := alone rfl
      show c.state.gate.guards = _
      rcases inner_learns setups n operation ret legal fit with same | ⟨own, left, rfl, learned, _⟩
      · rw [same] at kept
        omega
      · rw [learned] at kept
        simp only [entered, Nat.add_zero] at kept
        omega
  | passed other free =>
      have kept := alone rfl
      cases legal with
      | enter sent left more =>
          simp only [entered, learn, Nat.add_zero] at kept
          have grown : (c.state.gate.acquire (priority other)).guards = c.state.gate.guards + 1 := by
            rw [Gate.acquire, if_pos free]
          show (c.state.gate.acquire (priority other)).guards = _
          omega
  | queued other taken =>
      have kept := alone rfl
      cases legal with
      | enter sent left more =>
          simp only [entered, learn, Nat.add_zero] at kept
          have same : (c.state.gate.acquire (priority other)).guards = c.state.gate.guards := by
            rw [Gate.acquire, if_neg taken]
            rfl
          show (c.state.gate.acquire (priority other)).guards = _
          omega
  | observed key gate granted =>
      have kept := alone rfl
      cases legal with
      | observe own sent left _ more =>
          simp only [entered, learn, Nat.add_zero] at kept
          rw [Gate.observe] at granted
          split at granted
          · cases granted
            show c.state.gate.guards + 1 = _
            omega
          · cases granted
  | spawned other item now =>
      cases legal with
      | spawn sent left _ _ more =>
          show c.state.gate.guards = _
          have new : total entered ((slots setups priority).spawnFrom c.next
              [Spec.item other t.id item]) = 1 := total_singleton entered _
          rw [new] at sum
          simp only [entered, learn, Nat.add_zero] at sum
          omega
  | released gate dropped =>
      have kept := alone rfl
      cases legal with
      | dropGlobal own =>
          simp only [entered, learn, Nat.add_zero] at kept
          rw [Gate.dropGuard] at dropped
          split at dropped
          · cases dropped
            have same := guards_release { c.state.gate with guards := c.state.gate.guards - 1 }
            show Gate.guards (Gate.releaseOneLocked _) = _
            rw [same]
            show c.state.gate.guards - 1 = _
            omega
          · cases dropped
  | _ =>
      have kept := alone rfl
      cases legal
      all_goals
        simp only [entered, learn, Nat.add_zero] at kept
        show c.state.gate.guards = _
        omega

/-- The items of an instance are never more than its tick has started and not joined. -/
theorem Called.counted (called : Called setups priority c t operation ret effect next)
    (sound : Sound setups priority c) (name : Name) :
    total (SlotRuns.items name) ((slots setups priority).settle c
        ((slots setups priority).resumed t operation ret next) effect).threads ≤
      total (started name) ((slots setups priority).settle c
        ((slots setups priority).resumed t operation ret next) effect).threads := by
  have sum := called.weighs sound.distinct (started name) (blind_started name)
  have alone := called.weighs_alone sound.distinct (started name) (blind_started name)
  have more := called.items sound.distinct name
  have all := sound.items name
  have legal := called.legal
  have alone_items : effect.spawned = [] →
      total (SlotRuns.items name) ((slots setups priority).settle c
        ((slots setups priority).resumed t operation ret next) effect).threads ≤
        total (SlotRuns.items name) c.threads := by
    intro none
    rw [none] at more
    exact more
  generalize notes : t.notes = n at legal sum alone
  cases called.did with
  | inner operation ret fit =>
      have kept := alone rfl
      have fewer := alone_items rfl
      rcases inner_learns setups n operation ret legal fit with same | ⟨own, left, rfl, learned, _⟩
      · rw [same] at kept
        omega
      · rw [learned] at kept
        simp only [started] at kept
        omega
  | spawned other item now =>
      cases legal with
      | spawn sent left _ _ some =>
          have new : total (started name) ((slots setups priority).spawnFrom c.next
              [Spec.item other t.id item]) = 0 := total_singleton (started name) _
          have one : total (SlotRuns.items name) ((slots setups priority).spawnFrom c.next
              [Spec.item other t.id item]) = if other = name then 1 else 0 :=
            total_singleton (SlotRuns.items name) _
          rw [new] at sum
          rw [one] at more
          simp only [started, learn] at sum
          by_cases own : other = name
          · rw [if_pos own] at more
            rw [if_pos own, if_pos own] at sum
            omega
          · rw [if_neg own] at more
            rw [if_neg own, if_neg own] at sum
            omega
  | drained closable nobody =>
      have kept := alone rfl
      have fewer := alone_items rfl
      cases legal with
      | next own sent _ =>
          by_cases mine : own = name
          · subst mine
            have gone := no_items_of_drained setups own priority c sound t called.member
              (by rw [notes]; exact decide_eq_true rfl) nobody
            omega
          · simp only [started, learn, mine, if_false] at kept
            omega
  | _ =>
      have kept := alone rfl
      have fewer := alone_items rfl
      cases legal
      all_goals
        simp only [started, learn] at kept
        first | omega | (split at kept <;> omega)

theorem Called.within (called : Called setups priority c t operation ret effect next)
    (fits : ∀ name sent left hold, t.notes = .inside name sent left hold →
      sent + left ≤ (setups name).perLimit) (name : Name) (sent left : Nat) (hold : Hold)
    (learned : learn t.notes operation ret = .inside name sent left hold) :
    sent + left ≤ (setups name).perLimit := by
  have legal := called.legal
  generalize t.notes = n at legal fits learned
  cases called.did with
  | inner operation ret fit =>
      rcases inner_learns setups n operation ret legal fit with same | ⟨own, most, _, same, few⟩
      · exact fits name sent left hold (same.symm.trans learned)
      · cases same.symm.trans learned
        omega
  | locked other free =>
      cases legal with
      | lock =>
          cases learned
          exact Nat.zero_le _
  | spawned other item now =>
      cases legal with
      | spawn _ earlier rest _ _ more =>
          have all := fits other earlier rest .both rfl
          cases learned
          omega
  | drained closable nobody =>
      cases legal with
      | next _ earlier =>
          have all := fits _ earlier 0 .nothing rfl
          cases learned
          omega
  | _ =>
      cases legal
      all_goals
        first
        | exact fits name sent left _ (by cases learned; rfl)
        | cases learned

/-- Who is inside the lock of a tick stays there, unless it calls the return of the lock. -/
theorem Called.holder_stays (called : Called setups priority c t operation ret effect next)
    (distinct : Distinct c) (name : Name) (locks : operation ≠ .unlock name) (holder : Member Name)
    (member : holder ∈ c.threads) (inside : isInside name holder.notes = true) :
    ∃ v ∈ ((slots setups priority).settle c
      ((slots setups priority).resumed t operation ret next) effect).threads,
      v.id = holder.id ∧ isInside name v.notes = true := by
  by_cases mine : holder.id = t.id
  · obtain rfl := eq_of_same_id c distinct holder t member called.member mine
    obtain ⟨sent, left, hold, notes⟩ := (inside_iff name holder.notes).mp inside
    have legal := called.legal
    have later := called.later
    rw [notes] at legal later
    rcases learn_inside setups name sent left hold operation ret legal with ⟨_, unlocks⟩ |
      ⟨sent', left', hold', same⟩
    · exact absurd unlocks locks
    · rw [same] at later
      have going : (next ret).isDone = false := by
        cases rest : next ret with
        | done value =>
            rw [rest] at later
            exact later.elim
        | call operation rest => rfl
      obtain ⟨v, hv, stays⟩ :=
        caller_stays (slots setups priority) c holder member operation ret next effect going
      refine ⟨v, hv, stays.id, ?_⟩
      rw [stays.notes]
      show isInside name (learn holder.notes operation ret) = true
      rw [notes, same]
      exact decide_eq_true rfl
  · obtain ⟨v, hv, stays⟩ := other_stays (slots setups priority) c
      ((slots setups priority).resumed t operation ret next) holder member mine effect
      (by rw [called.spares]; exact Fate.noConfusion)
    exact ⟨v, hv, stays.id, by rw [stays.notes]; exact inside⟩

theorem Called.no_items_of_unlock (called : Called setups priority c t operation ret effect next)
    (sound : Sound setups priority c) (name : Name) (unlocks : operation = .unlock name) :
    total (SlotRuns.items name) c.threads = 0 := by
  subst unlocks
  have legal := called.legal
  have all := sound.items name
  have one : total (started name) c.threads = weigh (started name) t := by
    refine total_eq (started name) c.threads t called.member sound.distinct.unique fun u hu other => ?_
    have outside : isInside name u.notes = false := by
      cases inside : isInside name u.notes with
      | false => rfl
      | true =>
          refine absurd ((sound.exclusive name).one u hu t called.member inside ?_) other
          generalize t.notes = n at legal ⊢
          cases legal
          exact decide_eq_true rfl
    rw [weigh]
    generalize u.notes = n at outside ⊢
    cases n with
    | inside own sent left hold => exact if_neg (of_decide_eq_false outside)
    | _ => rfl
  have none : weigh (started name) t = 0 := by
    rw [weigh]
    generalize t.notes = n at legal ⊢
    cases legal
    exact if_pos rfl
  omega

theorem Called.owned (called : Called setups priority c t operation ret effect next)
    (sound : Sound setups priority c) (u : Member Name)
    (member : u ∈ ((slots setups priority).settle c
      ((slots setups priority).resumed t operation ret next) effect).threads)
    (name : Name) (owner : Nat) (item : Domain.WorkItem) (spec : u.spec = .item name owner item) :
    ∃ v ∈ ((slots setups priority).settle c
      ((slots setups priority).resumed t operation ret next) effect).threads,
      v.id = owner ∧ isInside name v.notes = true := by
  have stays := called.holder_stays sound.distinct name
  by_cases unlocks : operation = .unlock name
  · have none := called.no_items_of_unlock sound name unlocks
    have more := called.items sound.distinct name
    have alone : effect.spawned = [] := by
      subst unlocks
      cases called.did
      rfl
    rw [alone, none] at more
    have light := (total_zero (SlotRuns.items name) _).mp (Nat.le_zero.mp more) u member
    rw [weigh, spec] at light
    have heavy : (if name = name then 1 else 0) = 0 := light
    rw [if_pos rfl] at heavy
    cases heavy
  · have before : ∀ v ∈ c.threads, v.spec = .item name owner item →
        ∃ w ∈ ((slots setups priority).settle c
          ((slots setups priority).resumed t operation ret next) effect).threads,
          w.id = owner ∧ isInside name w.notes = true := by
      intro v hv same
      obtain ⟨holder, hholder, id, inside⟩ := sound.owned v hv name owner item same
      obtain ⟨w, hw, same_id, still⟩ := stays unlocks holder hholder inside
      exact ⟨w, hw, same_id.trans id, still⟩
    rcases mem_settle (slots setups priority) c _ u effect member with ⟨same, _⟩ |
      ⟨v, hv, _, same, _⟩ | ⟨new, hnew, same⟩
    · exact before t called.member (same.spec.symm.trans spec)
    · exact before v hv (same.spec.symm.trans spec)
    · obtain ⟨started, _⟩ := mem_spawn_from (slots setups priority) _ _ new hnew
      rw [← same.spec, spec] at started
      have legal := called.legal
      have inside : owner = t.id ∧ isInside name t.notes = true := by
        generalize t.notes = n at legal
        cases called.did with
        | spawned other item now =>
            cases List.mem_singleton.mp started
            cases legal
            exact ⟨rfl, decide_eq_true rfl⟩
        | _ => cases started
      obtain ⟨rfl, inside⟩ := inside
      exact stays unlocks t called.member inside

end Call

theorem gate_moves (id : Nat) (live : List (Spec Name)) (world : World Name) (operation : Op Name)
    (ret : Ret operation) (effect : Effect (World Name) (Spec Name))
    (did : Did priority id live world operation ret effect) :
    effect.state.gate = world.gate ∨
      ∃ action, Admission.step world.gate action = some effect.state.gate ∧
        ¬ Skipped world.gate action := by
  cases did with
  | passed name free => exact Or.inr ⟨.acquire (priority name), rfl, not_false⟩
  | queued name taken => exact Or.inr ⟨.acquire (priority name), rfl, not_false⟩
  | observed key gate granted => exact Or.inr ⟨.observe key, granted, not_false⟩
  | released gate dropped => exact Or.inr ⟨.dropGuard, dropped, not_false⟩
  | _ => exact Or.inl rfl

structure Whole (permits : Nat) (gate : Gate) : Prop where
  sound : Admission.Sound gate
  total : gate.total = permits

theorem whole_moves (permits : Nat) (gate after : Gate) (whole : Whole permits gate)
    (moved : after = gate ∨
      ∃ action, Admission.step gate action = some after ∧ ¬ Skipped gate action) :
    Whole permits after := by
  rcases moved with rfl | ⟨action, stepped, clean⟩
  · exact whole
  · have same := total_step gate after action whole.sound stepped
    rw [if_neg clean, whole.total] at same
    exact ⟨sound_step gate after action whole.sound stepped, same⟩

theorem possible_of_did (id : Nat) (live : List (Spec Name)) (world : World Name) (operation : Op Name)
    (ret : Ret operation) (effect : Effect (World Name) (Spec Name))
    (did : Did priority id live world operation ret effect) : possible operation ret := by
  cases did with
  | inner operation ret fit => exact fit
  | closed => rfl
  | _ => exact trivial

section Step

variable (c : State Name) (t : Member Name) (operation : Op Name) (ret : Ret operation)
variable (effect : Effect (World Name) (Spec Name)) (next : Ret operation → Slots.Program Name Unit)
variable (choice : Choice Answer (Event Name))
variable (calls : Calls (slots setups priority) c t operation ret effect next choice)
variable (sound : Sound setups priority c)

include calls sound

theorem called_of_calls : Called setups priority c t operation ret effect next := by
  obtain ⟨answer, _, performed⟩ := calls.choice
  have did := did_of_perform priority t (Machine.live c) c.state operation answer ret effect performed
  have keeps := calls_keep (slots setups priority) c t operation ret effect next _ calls
    sound.orderly
  exact ⟨calls.member, keeps.1,
    keeps.2 ret (possible_of_did priority t.id (Machine.live c) c.state operation ret effect did), did⟩

theorem sound_settle : Sound setups priority
    ((slots setups priority).settle c ((slots setups priority).resumed t operation ret next) effect) := by
  have called := called_of_calls setups priority c t operation ret effect next choice calls sound
  constructor
  case distinct => exact distinct_settle _ c _ effect sound.distinct
  case orderly =>
    refine orderly_settle _ c t operation ret effect next choice calls sound.orderly ?_
      fun spec _ => main_keeps setups spec
    exact possible_of_did priority t.id (Machine.live c) c.state operation ret effect called.did
  case alive =>
    intro u hu
    rcases unowned_settle (slots setups priority) c _ u effect
      (fun id spec _ => by rw [called.spares]; exact Fate.noConfusion) hu rfl with rfl | old | new
    · exact sound.alive t called.member
    · exact sound.alive u old
    · obtain ⟨_, _, _, alive, _⟩ := mem_spawn_from (slots setups priority) _ _ u new
      exact alive
  case exclusive =>
    intro name
    exact exclusive_settle (tickLock setups name priority) c t operation ret effect next choice calls
      sound.orderly (sound.exclusive name)
  case owned => exact fun u hu name owner item spec => called.owned sound u hu name owner item spec
  case within =>
    intro u hu name sent left hold notes
    rcases mem_settle (slots setups priority) c _ u effect hu with ⟨same, _⟩ |
      ⟨before, hbefore, _, same, _⟩ | ⟨new, hnew, same⟩
    · exact called.within (sound.within t called.member) name sent left hold
        (same.notes.symm.trans notes)
    · exact sound.within before hbefore name sent left hold (same.notes.symm.trans notes)
    · obtain ⟨_, _, _, _, starts, _⟩ := mem_spawn_from (slots setups priority) _ _ new hnew
      rw [same.notes, starts] at notes
      generalize new.spec = spec at notes
      cases spec <;> cases notes
  case named =>
    intro u hu name held notes
    rcases mem_settle (slots setups priority) c _ u effect hu with ⟨same, _⟩ |
      ⟨before, hbefore, _, same, _⟩ | ⟨new, hnew, same⟩
    · rw [same.spec]
      obtain ⟨before, was⟩ := learn_item setups t.notes operation ret called.legal name held
        (same.notes.symm.trans notes)
      exact sound.named t called.member name before was
    · rw [same.spec]
      exact sound.named before hbefore name held (same.notes.symm.trans notes)
    · obtain ⟨_, _, _, _, starts, _⟩ := mem_spawn_from (slots setups priority) _ _ new hnew
      rw [same.notes, starts] at notes
      rw [same.spec]
      generalize new.spec = spec at notes ⊢
      cases spec with
      | tick => cases notes
      | item own owner item =>
          cases notes
          exact ⟨owner, item, rfl⟩
  case items => exact called.counted sound
  case available => exact fun name => called.available sound.distinct name (sound.available name)
  case guards => exact called.guards sound.distinct sound.guards

end Step

theorem sound_absorb (c : State Name) (event : Event Name) (reaction : Reaction (World Name) (Spec Name))
    (reacted : react c.state event = some reaction) (sound : Sound setups priority c) :
    Sound setups priority ((slots setups priority).absorb c reaction) := by
  cases event with
  | tick own now ignoreWindow redriveCleanup fuel =>
      have same : reaction = ⟨c.state, false, [.tick own now ignoreWindow redriveCleanup fuel]⟩ :=
        (Option.some.inj reacted).symm
      subst same
      have weighs : ∀ weight : Spec Name → Notes Name → Nat,
          weight (.tick own now ignoreWindow redriveCleanup fuel) (.outside own) = 0 →
          total weight ((slots setups priority).absorb c
            ⟨c.state, false, [.tick own now ignoreWindow redriveCleanup fuel]⟩).threads =
              total weight c.threads := by
        intro weight light
        rw [total_absorb (slots setups priority) weight c _ rfl]
        have new : total weight ((slots setups priority).spawnFrom c.next
            [.tick own now ignoreWindow redriveCleanup fuel]) = 0 :=
          (total_singleton weight _).trans light
        show total weight c.threads + total weight ((slots setups priority).spawnFrom c.next
          [.tick own now ignoreWindow redriveCleanup fuel]) = _
        omega
      have stays := absorbed_stays (slots setups priority) c
        ⟨c.state, false, [.tick own now ignoreWindow redriveCleanup fuel]⟩ rfl
      have comes : ∀ u ∈ ((slots setups priority).absorb c
          ⟨c.state, false, [.tick own now ignoreWindow redriveCleanup fuel]⟩).threads,
          (∃ before ∈ c.threads, SameThread before u) ∨
            u.spec = .tick own now ignoreWindow redriveCleanup fuel ∧ u.notes = .outside own := by
        intro u hu
        rcases mem_absorb (slots setups priority) c _ u hu with ⟨_, old⟩ | ⟨new, hnew, same⟩
        · exact Or.inl old
        · obtain ⟨spec, _, _, _, notes, _⟩ := mem_spawn_from (slots setups priority) _ _ new hnew
          rw [List.mem_singleton.mp spec] at notes
          exact Or.inr ⟨same.spec.trans (List.mem_singleton.mp spec), same.notes.trans notes⟩
      constructor
      case distinct => exact distinct_absorb _ c _ sound.distinct
      case orderly =>
        exact orderly_absorb _ c _ sound.orderly fun spec _ => main_keeps setups spec
      case alive =>
        intro u hu
        have kept := unowned_orphan (slots setups priority) _ u hu rfl
        rcases List.mem_append.mp kept with old | new
        · exact sound.alive u old
        · obtain ⟨_, _, _, alive, _⟩ := mem_spawn_from (slots setups priority) _ _ u new
          exact alive
      case exclusive =>
        intro name
        exact exclusive_absorb (tickLock setups name priority) c
          (.tick own now ignoreWindow redriveCleanup fuel) _ rfl (sound.exclusive name)
      case owned =>
        intro u hu name owner item spec
        rcases comes u hu with ⟨before, hbefore, same⟩ | ⟨new, _⟩
        · obtain ⟨holder, hholder, id, inside⟩ :=
            sound.owned before hbefore name owner item (same.spec.symm.trans spec)
          obtain ⟨v, hv, still⟩ := stays holder hholder
          exact ⟨v, hv, still.id.trans id, by rw [still.notes]; exact inside⟩
        · rw [spec] at new
          cases new
      case within =>
        intro u hu name sent left hold notes
        rcases comes u hu with ⟨before, hbefore, same⟩ | ⟨_, new⟩
        · exact sound.within before hbefore name sent left hold (same.notes.symm.trans notes)
        · rw [notes] at new
          cases new
      case named =>
        intro u hu name held notes
        rcases comes u hu with ⟨before, hbefore, same⟩ | ⟨_, new⟩
        · rw [same.spec]
          exact sound.named before hbefore name held (same.notes.symm.trans notes)
        · rw [notes] at new
          cases new
      case items =>
        intro name
        rw [weighs (items name) rfl, weighs (started name) rfl]
        exact sound.items name
      case available =>
        intro name
        rw [weighs (taken name) rfl]
        exact sound.available name
      case guards =>
        rw [weighs entered rfl]
        exact sound.guards

theorem sound_start (permits : Nat) (c : State Name) (begins : Begins setups permits c) :
    Sound setups priority c := by
  have nobody : ∀ t, t ∉ c.threads := by
    intro t
    rw [begins.threads]
    exact List.not_mem_nil
  have empty : ∀ weight : Spec Name → Notes Name → Nat, total weight c.threads = 0 := by
    intro weight
    rw [begins.threads]
    rfl
  constructor
  case distinct =>
    refine ⟨fun t ht => absurd ht (nobody t), ?_⟩
    rw [begins.threads]
    exact List.nodup_nil
  case orderly => exact fun t ht => absurd ht (nobody t)
  case alive => exact fun t ht => absurd ht (nobody t)
  case exclusive =>
    exact fun name => ⟨fun t ht => absurd ht (nobody t), fun t ht => absurd ht (nobody t)⟩
  case owned => exact fun t ht => absurd ht (nobody t)
  case within => exact fun t ht => absurd ht (nobody t)
  case named => exact fun t ht => absurd ht (nobody t)
  case items =>
    intro name
    rw [empty, empty]
  case available =>
    intro name
    rw [empty, begins.available name]
    rfl
  case guards =>
    rw [empty, begins.gate]
    rfl

theorem sound_step (permits : Nat) (c after : State Name) (choice : Choice Answer (Event Name))
    (sound : Sound setups priority c ∧ Whole permits c.state.gate)
    (stepped : (slots setups priority).step c choice = some after) :
    Sound setups priority after ∧ Whole permits after.state.gate := by
  obtain ⟨sound, whole⟩ := sound
  rcases step_cases (slots setups priority) c after choice stepped with
    ⟨t, operation, ret, effect, next, calls, rfl⟩ | ⟨id, _, ⟨t, member, _, aborted⟩, rfl⟩ |
    ⟨event, reaction, _, reacted, rfl⟩
  · have called := called_of_calls setups priority c t operation ret effect next choice calls sound
    exact ⟨sound_settle setups priority c t operation ret effect next choice calls sound,
      whole_moves permits _ _ whole (gate_moves priority t.id (Machine.live c) c.state operation ret
        effect called.did)⟩
  · rw [sound.alive t member] at aborted
    cases aborted
  · refine ⟨sound_absorb setups priority c event reaction reacted sound, ?_⟩
    cases event
    cases reacted
    exact whole

theorem sound_reached (permits : Nat) (c : State Name)
    (reached : Reached (slots setups priority) (Begins setups permits) (fun _ _ => True) c) :
    Sound setups priority c ∧ Whole permits c.state.gate := by
  refine invariant_of_reached (slots setups priority) _ _
    (fun c => Sound setups priority c ∧ Whole permits c.state.gate) ?_ ?_ c reached
  · intro c begins
    refine ⟨sound_start setups priority permits c begins, ?_⟩
    rw [begins.gate]
    exact ⟨sound_new permits, by simp [Gate.total, Gate.new]⟩
  · exact fun c after choice sound _ stepped =>
      sound_step setups priority permits c after choice sound stepped

/-! ## A slot is complete at once -/

/-- An item is about to be started, or is processed until it drops its permit of the gate. -/
def handles : Slots.Program Name Unit → Bool
  | .call (.acquireOwned _) _ | .call (.spawn _ _ _) _ | .call .process _ | .call .dropGlobal _ => true
  | _ => false

omit [DecidableEq Name] in
theorem entered_of_handles (spec : Spec Name) (n : Notes Name) (program : Slots.Program Name Unit)
    (keeps : Keeps (discipline setups) program n fun _ n => Finished n) :
    entered spec n = (handles program).toNat := by
  cases program with
  | done value => exact blind_entered spec n keeps
  | call operation next =>
      have legal : Legal setups n operation := keeps.1
      cases legal <;> rfl

/-- The permits of the semaphore are not all taken before the tick has started its batch. -/
theorem available_at_acquire (c : State Name) (sound : Sound setups priority c) (t : Member Name)
    (member : t ∈ c.threads) (sent left : Nat) (more : left ≠ 0)
    (notes : t.notes = .inside name sent left .global) : 0 < c.state.available name := by
  have within := sound.within t member name sent left .global notes
  have inside : isInside name t.notes = true := by
    rw [notes]
    exact decide_eq_true rfl
  have only : ∀ u ∈ c.threads, isInside name u.notes = true → u = t := fun u hu also =>
    eq_of_same_id c sound.distinct u t hu member ((sound.exclusive name).one u hu t member also inside)
  have one : total (started name) c.threads = weigh (started name) t := by
    refine total_eq (started name) c.threads t member sound.distinct.unique fun u hu other => ?_
    have outside : isInside name u.notes ≠ true := fun also => other (by rw [only u hu also])
    rw [weigh]
    generalize u.notes = n at outside ⊢
    cases n with
    | inside own sent left hold => exact if_neg fun same => outside (decide_eq_true same)
    | _ => rfl
  have size : weigh (started name) t = sent := by
    rw [weigh, notes]
    exact if_pos rfl
  -- whoever has a permit of the semaphore is an item, for the tick itself has none yet
  have few : total (taken name) c.threads ≤ total (items name) c.threads := by
    refine total_le (items name) (taken name) c.threads fun u hu => ?_
    rw [weigh, weigh]
    cases here : u.notes with
    | outside own => exact Nat.zero_le _
    | item own held =>
        obtain ⟨owner, item, spec⟩ := sound.named u hu own held here
        rw [spec]
        cases held with
        | gone => exact Nat.zero_le _
        | working => exact le_refl _
        | released => exact le_refl _
    | inside own before rest hold =>
        by_cases mine : own = name
        · have same := only u hu (by rw [here]; exact decide_eq_true mine)
          rw [same, notes] at here
          cases here
          exact Nat.zero_le _
        · cases hold with
          | both =>
              rw [show taken name u.spec (.inside own before rest .both) = 0 from if_neg mine]
              exact Nat.zero_le _
          | _ => exact Nat.zero_le _
  have all := sound.items name
  have conserved := sound.available name
  omega

/-- In every run, a tick that has its permit of the gate takes one of its semaphore without waiting;
and the permits of the gate that are held are those of the items about to be started or being
processed. -/
theorem slot_never_waits (permits : Nat) (c : State Name)
    (reached : Reached (slots setups priority) (Begins setups permits) (fun _ _ => True) c) :
    (∀ t ∈ c.threads, ∀ name next, t.prog = .call (.acquireOwned name) next →
      0 < c.state.available name ∧
        ∀ answer, ((slots setups priority).step c (.run t.id answer)).isSome = true) ∧
    c.state.gate.guards = c.threads.countP (fun t => handles t.prog) ∧
    c.state.gate.total = permits := by
  obtain ⟨sound, whole⟩ := sound_reached setups priority permits c reached
  refine ⟨?_, ?_, whole.total⟩
  · intro t member name next prog
    have keeps := sound.orderly t member
    rw [prog] at keeps
    have legal : Legal setups t.notes (.acquireOwned name) := keeps.1
    have free : 0 < c.state.available name := by
      generalize notes : t.notes = n at legal
      cases legal with
      | acquire _ sent left more =>
          exact available_at_acquire setups name priority c sound t member sent left more notes
    refine ⟨free, fun answer => ?_⟩
    have performed : (slots setups priority).perform t (Machine.live c) c.state (.acquireOwned name)
        answer = take c.state name := rfl
    rw [Machine.step, find_thread c sound.distinct t member]
    simp only [prog]
    rw [performed, take, if_pos free]
    rfl
  · rw [sound.guards]
    exact total_kind entered c.threads _ fun t ht =>
      entered_of_handles setups t.spec t.notes t.prog (sound.orderly t ht)

/-! Two instances with one permit of the gate between them. -/

def claiming (batch : List Domain.WorkItem) : Answer
  | .store (.claimReady _ _) => .ok batch
  | .store operation => .ok (callStore (DurableStore.emptyStore "plant") operation).1
  | .fs operation => (FileTree.callFs (fun _ => none) operation (.asIs 0)).1
  | .deliver item _ _ => .ok ⟨item.size, .crc32c 0, []⟩
  | .verify _ _ _ _ | .abort _ _ _ | .awaitQuarantine _ => .ok ()
  | .draw | .startAction _ | .startQuarantine _ => 0
  | .joinAttempt => none
  | .awaitAction _ => .error "aborted"
  | .isActive => true
  | .discover => []
  | .evaluateSchedule => .all true
  | .deadlinePassed => false
  | .nextOfBatch _ => .drained
  | .spawnAttempts _ | .endAttempt _ | .endAction _ | .endQuarantine | .reportQuarantined _
  | .lockTick | .unlockTick | .spawnBatch _ _ | .abortBatch => ()

def oneItem : Domain.WorkItem := ⟨"plant", "a", .inProgress, 0, 0, 0, 0, 0, none, 0, 0⟩

def twoSetups : Bool → Setup := fun _ => Runs.smallSetup Runs.plainCompletion

def twoInstances : State Bool :=
  ⟨⟨Gate.new 1, fun name => (twoSetups name).perLimit, fun _ => false⟩, [], 0⟩

def goes (id calls : Nat) : List (Choice Answer (Event Bool)) :=
  List.replicate calls (.run id (claiming [oneItem]))

/-- The second tick waits in the gate until the item of the first one leaves it. -/
def untilHandedOver : List (Choice Answer (Event Bool)) :=
  [.env (.tick true 0 false false 2), .env (.tick false 0 false false 2)] ++ goes 0 11 ++ goes 1 9 ++
    goes 2 2 ++ goes 1 1

def takesOf (name : Bool) : Slots.Program Bool Unit → Bool
  | .call (.acquireOwned own) _ => own = name
  | _ => false

theorem takes_of_iff (name : Bool) (program : Slots.Program Bool Unit) :
    takesOf name program = true ↔ ∃ next, program = .call (.acquireOwned name) next := by
  constructor
  · intro takes
    unfold takesOf at takes
    split at takes
    · rename_i own next
      obtain rfl := of_decide_eq_true takes
      exact ⟨next, rfl⟩
    · cases takes
  · rintro ⟨next, rfl⟩
    exact decide_eq_true rfl

theorem slot_never_waits_handed_over :
    ∃ c, Reached (slots twoSetups fun _ => 0) (Begins twoSetups 1) (fun _ _ => True) c ∧
      ∃ t ∈ c.threads, ∃ next, t.prog = .call (.acquireOwned false) next ∧
        0 < c.state.available false ∧
        c.state.gate.guards = c.threads.countP (fun t => handles t.prog) ∧ c.state.gate.total = 1 := by
  obtain ⟨c, reached, here⟩ := exists_of_run (slots twoSetups fun _ => 0) (Begins twoSetups 1)
    (fun _ _ => True) (fun _ _ => true) (fun _ _ _ => trivial)
    (fun c => c.threads.any fun t => takesOf false t.prog)
    untilHandedOver twoInstances ⟨rfl, rfl, fun _ => rfl, fun _ => rfl⟩ (by decide +kernel)
  obtain ⟨t, member, takes⟩ := List.any_eq_true.mp here
  obtain ⟨next, prog⟩ := (takes_of_iff false t.prog).mp takes
  obtain ⟨acquires, held, whole⟩ := slot_never_waits twoSetups (fun _ => 0) 1 c reached
  exact ⟨c, reached, t, member, next, prog, (acquires t member false next prog).1, held, whole⟩

end FileReplicator.SlotRuns
