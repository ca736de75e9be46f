import FileReplicator.Interleaving
import FileReplicator.SqliteStore

/-!
# What a tick announces

A tick looks up each file that its scan has found ready, records it and announces
it if it was not known. The store may refuse any statement, a tick may be stopped
before any of its calls, and the workers and the other instances go on writing.
-/

namespace FileReplicator.Announcements

open Domain DurableStore Effects SqliteStore Interleaving
open Operations (StoreOp StoreRet Candidate)

/-! ## The tick -/

inductive Announcement where
  | fileReady (path : String) (size : Nat)
  | scanComplete (discovered awaiting : Nat)
  deriving DecidableEq

inductive Op where
  | statement (operation : StoreOp)
  | emit (event : Announcement)

abbrev Ret : Op → Type
  | .statement operation => Except ReplError (StoreRet operation)
  | .emit _ => Unit

abbrev Program (α : Type) := Prog Op Ret α

def get (relpath : String) : Program (Except ReplError (Option WorkItem)) :=
  Prog.perform (Op.statement (.getRow relpath))

def enqueue (c : Candidate) (now : Int) : Program (Except ReplError Unit) :=
  Prog.perform (Op.statement (.upsertReady c.relpath c.size c.mtimeMs now))

def listReady : Program (Except ReplError (List WorkItem)) :=
  Prog.perform (Op.statement (.listByState .ready))

def emit (event : Announcement) : Program Unit := Prog.perform (Op.emit event)

/-- `matches!(.., Ok(None))`. -/
def isNew : Except ReplError (Option WorkItem) → Bool
  | .ok none => true
  | _ => false

/-- `.map(|v| v.len() as u64).unwrap_or(0)`. -/
def lengthOr0 : Except ReplError (List WorkItem) → Nat
  | .ok items => items.length
  | .error _ => 0

section

variable (now : Int)

/-- `for c in report.ready`. -/
def announceEach : Nat → List Candidate → Program Nat
  | discovered, [] => return discovered
  | discovered, c :: rest => do
      let found ← get c.relpath
      match ← enqueue c now with
      | .error _ => announceEach discovered rest
      | .ok _ =>
          if isNew found then do
            emit (.fileReady c.relpath c.size)
            announceEach (discovered + 1) rest
          else announceEach discovered rest

def announceScan (ready : List Candidate) : Program Unit := do
  let discovered ← announceEach now 0 ready
  if 0 < discovered then do
    let backlog ← listReady
    emit (.scanComplete discovered (lengthOr0 backlog))
  else return ()

end

/-! ## What a tick knows of itself -/

inductive Look where
  | new
  | there
  | failed
  deriving DecidableEq

def lookOf : Except ReplError (Option WorkItem) → Look
  | .ok none => .new
  | .ok (some _) => .there
  | .error _ => .failed

theorem new_iff (found : Except ReplError (Option WorkItem)) :
    isNew found = true ↔ lookOf found = .new := by
  rcases found with e | _ | row
  · exact ⟨nofun, nofun⟩
  · exact ⟨fun _ => rfl, fun _ => rfl⟩
  · exact ⟨nofun, nofun⟩

structure Tally where
  /-- The file that was looked up last. -/
  looked : Option (String × Look)
  /-- The file that is recorded and still to be announced. -/
  owed : Option String
  announced : List String
  /-- The number that the scan was reported with. -/
  complete : Option Nat
  deriving DecidableEq

namespace Tally

def blank : Tally := ⟨none, none, [], none⟩

def told (tally : Tally) : List String := tally.announced ++ tally.owed.toList

def due (tally : Tally) : Option Nat :=
  if tally.announced = [] then none else some tally.announced.length

def allows (tally : Tally) : Op → Prop
  | .statement (.getRow _) => tally.owed = none
  | .statement (.upsertReady r _ _ _) => tally.owed = none ∧ ∃ look, tally.looked = some (r, look)
  | .statement (.listByState _) => True
  | .statement _ => False
  | .emit (.fileReady r _) => tally.owed = some r ∧ tally.complete = none
  | .emit (.scanComplete discovered _) =>
      tally.owed = none ∧ tally.complete = none ∧ tally.due = some discovered

def enqueued (tally : Tally) (relpath : String) : Except ReplError Unit → Tally
  | .ok _ =>
      { tally with
        looked := none
        owed := if tally.looked = some (relpath, .new) then some relpath else none }
  | .error _ => { tally with looked := none }

def learn (tally : Tally) : (operation : Op) → Ret operation → Tally
  | .statement (.getRow r), found => { tally with looked := some (r, lookOf found) }
  | .statement (.upsertReady r _ _ _), result => tally.enqueued r result
  | .emit (.fileReady r _), _ => { tally with announced := tally.announced ++ [r], owed := none }
  | .emit (.scanComplete discovered _), _ => { tally with complete := some discovered }
  | _, _ => tally

def Settled (tally : Tally) : Prop := tally.owed = none ∧ tally.complete = tally.due

end Tally

def herald : Discipline Op Ret Tally where
  allowed := Tally.allows
  possible := fun _ _ => True
  learn := Tally.learn

theorem each_counted (now : Int) (ready : List Candidate) (discovered : Nat) (tally : Tally)
    (nothing : tally.owed = none) (unreported : tally.complete = none)
    (counted : tally.announced.length = discovered) :
    Keeps herald (announceEach now discovered ready) tally fun value after =>
      after.owed = none ∧ after.complete = none ∧ after.announced.length = value := by
  induction ready generalizing discovered tally with
  | nil => exact ⟨nothing, unreported, counted⟩
  | cons c rest ih =>
      refine ⟨nothing, fun found _ => ⟨⟨nothing, _, rfl⟩, fun result _ => ?_⟩⟩
      cases result with
      | error e => exact ih discovered _ nothing unreported counted
      | ok _ =>
          by_cases new : isNew found = true
          · have owes : (Tally.enqueued { tally with looked := some (c.relpath, lookOf found) }
                c.relpath (.ok ())).owed = some c.relpath := by
              rw [(new_iff found).mp new]
              exact if_pos rfl
            have rule := ih (discovered + 1) ⟨none, none, tally.announced ++ [c.relpath], tally.complete⟩
              rfl unreported (by rw [List.length_append, counted]; rfl)
            simp only [new, if_true]
            exact ⟨⟨owes, unreported⟩, fun _ _ => rule⟩
          · simp only [new]
            refine ih discovered _ ?_ unreported counted
            refine if_neg fun same => new ((new_iff found).mpr ?_)
            exact (Prod.mk.inj (Option.some.inj same)).2

theorem scan_reported (now : Int) (ready : List Candidate) :
    Keeps herald (announceScan now ready) .blank fun _ after => after.Settled := by
  refine keeps_bind herald _ _ _ _ (keeps_mono herald _ _ _ _
    (each_counted now ready 0 .blank rfl rfl rfl) ?_)
  rintro discovered after ⟨nothing, unreported, counted⟩
  by_cases some : 0 < discovered
  · rw [if_pos some]
    have due : after.due = .some discovered := by
      rw [Tally.due, if_neg, counted]
      rintro none
      rw [none] at counted
      exact absurd some (by simp [← counted])
    exact ⟨trivial, fun _ _ => ⟨⟨nothing, unreported, due⟩, fun _ _ => ⟨nothing, due.symm⟩⟩⟩
  · rw [if_neg some]
    have none : after.announced = [] := List.length_eq_zero_iff.mp (by omega)
    exact ⟨nothing, by rw [unreported, Tally.due, if_pos none]⟩

/-! ## The machine -/

inductive Answer where
  | asIs
  | refused (error : ReplError)
  deriving DecidableEq

section

variable (inst : String)

def call (db : Database) (answer : Answer) : (operation : Op) → Ret operation × Database
  | .statement operation =>
      match answer with
      | .asIs => callDatabase db inst operation
      | .refused e => (.error e, db)
  | .emit _ => ((), db)

inductive Event where
  /-- A tick whose scan has found these files. -/
  | tick (now : Int) (ready : List Candidate)
  | statement (inst : String) (operation : StoreOp)
  /-- The tick is dropped, or the process ends. -/
  | stop

def isEnqueue : StoreOp → Bool
  | .upsertReady _ _ _ _ => true
  | _ => false

abbrev Scan := Int × List Candidate

def react (live : List Scan) (db : Database) : Event → Option (Reaction Database Scan)
  -- `tick_lock`
  | .tick now ready => if live.isEmpty then some ⟨db, false, [(now, ready)]⟩ else none
  | .statement other operation =>
      if other = inst ∧ isEnqueue operation then none
      else some ⟨(callDatabase db other operation).2, false, []⟩
  | .stop => some ⟨db, true, []⟩

def ticking : Machine Op Ret Database Scan Tally Answer Event where
  discipline := herald
  finished := Tally.Settled
  main := fun scan => announceScan scan.1 scan.2
  start := fun _ => .blank
  owner := fun _ => none
  perform := fun _ _ db operation answer =>
    let out := call inst db answer operation
    some (out.1, ⟨out.2, [], fun _ _ => .stays⟩)
  react := react inst

end

abbrev State := Config Op Ret Database Scan Tally
abbrev Tick := Thread Op Ret Scan Tally

/-! ## The ledger -/

structure Ledger where
  /-- What each tick knows of itself. -/
  tallies : Nat → Tally
  stopped : Nat → Bool
  /-- The files that were not there and were recorded after a look-up that had failed. -/
  unseen : List String

def unmarked : Ledger := ⟨fun _ => .blank, fun _ => false, []⟩

section

variable (inst : String)

def known (db : Database) (relpath : String) : Bool := (db.tables.items inst relpath).isSome

def unseenBy (db : Database) (tally : Tally) (operation : Op) (answer : Answer) : List String :=
  match operation, answer with
  | .statement (.upsertReady r _ _ _), .asIs =>
      if known inst db r = false ∧ tally.looked = some (r, .failed) then [r] else []
  | _, _ => []

def heed (t : Tick) (operation : Op) (answer : Answer) (c _ : State) (h : Ledger) : Ledger where
  tallies := fun i =>
    if i = t.id then t.notes.learn operation (call inst c.state answer operation).1 else h.tallies i
  stopped := h.stopped
  unseen := h.unseen ++ unseenBy inst c.state t.notes operation answer

def pass (event : Event) (c _ : State) (h : Ledger) : Ledger :=
  match event with
  | .stop => { h with stopped := fun i => h.stopped i || c.threads.any fun t => t.id = i }
  | _ => h

abbrev ledger : Chronicle Op Ret Database Scan Tally Answer Event Ledger :=
  chronicle unmarked (heed inst) pass

/-- No tick is at work, and these files are known. -/
def Starts (before : String → Bool) (c : State) : Prop :=
  c.threads = [] ∧ ∀ r, known inst c.state r = before r

/-- Nothing but an enqueue of the instance makes a row, and nothing takes one away. -/
theorem known_statement (db : Database) (other : String) (operation : StoreOp) (relpath : String)
    (plain : ¬(other = inst ∧ isEnqueue operation)) :
    known inst (callDatabase db other operation).2 relpath = known inst db relpath := by
  have updated : ∀ db : Database, ∀ r change,
      known inst (db.updateItem other r change) relpath = known inst db relpath := by
    intro db r change
    unfold known Database.updateItem
    dsimp only
    split
    · exact Option.isSome_map
    · rfl
  cases operation with
  | setState r state now => exact updated db r _
  | rollUpItem r state attempts gate error now => exact updated db r _
  | recordCleanupAttempt r error state gate now => exact updated db r _
  | setBytesDone r bytes now => exact updated db r _
  | upsertReady r size mtimeMs now =>
      have apart : other ≠ inst := fun same => plain ⟨same, rfl⟩
      have same : (db.upsertReady other r (UInt64.ofNat size) mtimeMs now).tables.items inst relpath =
          db.tables.items inst relpath := by
        have elsewhere : ¬(inst = other ∧ relpath = r) := fun both => apart both.1.symm
        simp only [Database.upsertReady, Rediscovery.upsertReady]
        split
        · exact if_neg elsewhere
        · exact if_neg elsewhere
      exact congrArg Option.isSome same
  | claimReady limit now =>
      simp only [callDatabase, Database.claimReady]
      split
      · rfl
      · rename_i items _
        clear * - updated
        induction items generalizing db with
        | nil => rfl
        | cons it rest ih => exact (ih _).trans (updated db it.relpath _)
  | _ => rfl

theorem known_enqueue (db : Database) (q : String) (size : UInt64) (mtimeMs now : Int)
    (relpath : String) :
    known inst (db.upsertReady inst q size mtimeMs now) relpath =
      (decide (relpath = q) || known inst db relpath) := by
  have items : (db.upsertReady inst q size mtimeMs now).tables.items inst relpath =
      (db.tables.insertItem inst q (Rediscovery.excluded size mtimeMs now)).items inst relpath := by
    simp only [Database.upsertReady, Rediscovery.upsertReady]
    split
    · rfl
    · rfl
  unfold known
  rw [items]
  by_cases here : relpath = q
  · simp [Rediscovery.Tables.insertItem, here]
  · simp [Rediscovery.Tables.insertItem, here]

def Looked (db : Database) (tally : Tally) : Prop :=
  ∀ r look, tally.looked = some (r, look) → (look = .new → known inst db r = false) ∧
    (look = .there → known inst db r = true)

theorem looked_get (db : Database) (relpath : String) :
    (lookOf (db.get inst relpath) = .new → known inst db relpath = false) ∧
      (lookOf (db.get inst relpath) = .there → known inst db relpath = true) := by
  unfold Database.get known
  cases db.tables.items inst relpath with
  | none => exact ⟨fun _ => rfl, nofun⟩
  | some row =>
      refine ⟨fun new => ?_, fun _ => rfl⟩
      dsimp only at new
      cases read : rowToItem inst relpath row with
      | ok item =>
          rw [read] at new
          cases new
      | error e =>
          rw [read] at new
          cases new

/-- What is known is accounted for by what was there, what the ticks tell, and what they missed. -/
structure Books (before known : String → Bool) (tallies : Nat → Tally) (unseen : List String) : Prop where
  old : ∀ r, before r = true → known r = true
  fresh : ∀ i, ∀ r ∈ (tallies i).told, known r = true ∧ before r = false
  once : ∀ i, (tallies i).told.Nodup
  apart : ∀ i j r, r ∈ (tallies i).told → r ∈ (tallies j).told → i = j
  covered : ∀ r, known r = true → before r = true ∨ (∃ i, r ∈ (tallies i).told) ∨ r ∈ unseen
  counted : ∀ i n, (tallies i).complete = some n → (tallies i).due = some n

structure Moves (known after : String → Bool) (tally next : Tally) (more missed : List String) : Prop where
  told : next.told = tally.told ++ more
  nodup : more.Nodup
  grows : ∀ r, known r = true → after r = true
  new : ∀ r ∈ more, known r = false ∧ after r = true
  explained : ∀ r, after r = true → known r = true ∨ r ∈ more ∨ r ∈ missed
  counted : (∀ n, tally.complete = some n → tally.due = some n) →
    ∀ n, next.complete = some n → next.due = some n

theorem books_move (before known after : String → Bool) (tallies : Nat → Tally)
    (unseen more missed : List String) (id : Nat) (next : Tally)
    (books : Books before known tallies unseen)
    (moves : Moves known after (tallies id) next more missed) :
    Books before after (fun i => if i = id then next else tallies i) (unseen ++ missed) := by
  have unsaid : ∀ i r, r ∈ (tallies i).told → r ∉ more := by
    intro i r member fresh
    have absent := (moves.new r fresh).1
    rw [(books.fresh i r member).1] at absent
    cases absent
  -- what a tick tells is old, or new and its own
  have cases : ∀ i r, r ∈ (if i = id then next else tallies i).told →
      r ∈ (tallies i).told ∨ i = id ∧ r ∈ more := by
    intro i r member
    by_cases own : i = id
    · rw [if_pos own, moves.told] at member
      rcases List.mem_append.mp member with old | new
      · exact Or.inl (own ▸ old)
      · exact Or.inr ⟨own, new⟩
    · rw [if_neg own] at member
      exact Or.inl member
  have grows : ∀ i r, r ∈ (tallies i).told → r ∈ (if i = id then next else tallies i).told := by
    intro i r member
    by_cases own : i = id
    · rw [if_pos own, moves.told]
      exact List.mem_append_left _ (own ▸ member)
    · rw [if_neg own]
      exact member
  refine ⟨fun r was => moves.grows r (books.old r was), ?_, ?_, ?_, ?_, ?_⟩
  · intro i r member
    rcases cases i r member with old | ⟨_, new⟩
    · obtain ⟨is, unknown⟩ := books.fresh i r old
      exact ⟨moves.grows r is, unknown⟩
    · obtain ⟨absent, is⟩ := moves.new r new
      refine ⟨is, ?_⟩
      cases was : before r with
      | false => rfl
      | true => exact absurd ((books.old r was).symm.trans absent) nofun
  · intro i
    by_cases own : i = id
    · rw [if_pos own, moves.told, List.nodup_append']
      exact ⟨books.once id, moves.nodup, fun r old new => unsaid id r old new⟩
    · rw [if_neg own]
      exact books.once i
  · intro i j r first second
    rcases cases i r first with old | ⟨rfl, new⟩
    · rcases cases j r second with other | ⟨_, new⟩
      · exact books.apart i j r old other
      · exact absurd new (unsaid i r old)
    · rcases cases j r second with other | ⟨same, _⟩
      · exact absurd new (unsaid j r other)
      · exact same.symm
  · intro r is
    rcases moves.explained r is with was | new | miss
    · rcases books.covered r was with old | ⟨i, told⟩ | unsaid
      · exact Or.inl old
      · exact Or.inr (Or.inl ⟨i, grows i r told⟩)
      · exact Or.inr (Or.inr (List.mem_append_left _ unsaid))
    · refine Or.inr (Or.inl ⟨id, ?_⟩)
      rw [if_pos rfl, moves.told]
      exact List.mem_append_right _ new
    · exact Or.inr (Or.inr (List.mem_append_right _ miss))
  · intro i
    by_cases own : i = id
    · rw [if_pos own]
      exact moves.counted (books.counted id)
    · rw [if_neg own]
      exact books.counted i

theorem moves_nothing (known : String → Bool) (tally next : Tally) (told : next.told = tally.told)
    (counted : (∀ n, tally.complete = some n → tally.due = some n) →
      ∀ n, next.complete = some n → next.due = some n) :
    Moves known known tally next [] [] where
  told := by rw [told, List.append_nil]
  nodup := List.nodup_nil
  grows := fun _ is => is
  new := fun _ member => by cases member
  explained := fun _ is => Or.inl is
  counted := counted

/-- A recorded file is new, or was there, or comes after a look-up that failed. -/
theorem enqueue_moves (db : Database) (q : String) (size : Nat) (mtimeMs now : Int) (tally : Tally)
    (look : Look) (nothing : tally.owed = none) (is : tally.looked = some (q, look))
    (looked : Looked inst db tally) :
    ∃ more, Moves (known inst db) (known inst (db.upsertReady inst q (UInt64.ofNat size) mtimeMs now))
      tally (tally.enqueued q (.ok ())) more
      (unseenBy inst db tally (.statement (.upsertReady q size mtimeMs now)) .asIs) := by
  have rows := known_enqueue inst db q (UInt64.ofNat size) mtimeMs now
  have grows : ∀ r, known inst db r = true →
      known inst (db.upsertReady inst q (UInt64.ofNat size) mtimeMs now) r = true := by
    intro r was
    rw [rows, was, Bool.or_true]
  have owed : (tally.enqueued q (.ok ())).owed = if look = .new then some q else none := by
    show (if tally.looked = some (q, Look.new) then some q else none) = _
    rw [is]
    by_cases new : look = .new
    · rw [if_pos new, if_pos (by rw [new])]
    · rw [if_neg new, if_neg fun same => new (Prod.mk.inj (Option.some.inj same)).2]
  have told : (tally.enqueued q (.ok ())).told =
      tally.told ++ (if look = .new then some q else none : Option String).toList := by
    show tally.announced ++ (tally.enqueued q (.ok ())).owed.toList = _
    rw [owed, Tally.told, nothing, Option.toList_none, List.append_nil]
  have split : ∀ r, known inst (db.upsertReady inst q (UInt64.ofNat size) mtimeMs now) r = true →
      r = q ∨ known inst db r = true := by
    intro r now
    rw [rows, Bool.or_eq_true, decide_eq_true_iff] at now
    exact now
  obtain ⟨absent, present⟩ := looked q look is
  cases look with
  | new =>
      refine ⟨[q], told, List.nodup_singleton q, grows, ?_, ?_, fun counted => counted⟩
      · intro r member
        rw [List.mem_singleton] at member
        subst member
        exact ⟨absent rfl, by rw [rows, decide_eq_true rfl, Bool.true_or]⟩
      · intro r now
        rcases split r now with rfl | was
        · exact Or.inr (Or.inl (List.mem_singleton_self r))
        · exact Or.inl was
  | there =>
      refine ⟨[], told, List.nodup_nil, grows, nofun, ?_, fun counted => counted⟩
      intro r now
      rcases split r now with rfl | was
      · exact Or.inl (present rfl)
      · exact Or.inl was
  | failed =>
      refine ⟨[], told, List.nodup_nil, grows, nofun, ?_, fun counted => counted⟩
      intro r now
      rcases split r now with rfl | was
      · cases was : known inst db r with
        | true => exact Or.inl rfl
        | false =>
            refine Or.inr (Or.inr ?_)
            rw [unseenBy, if_pos ⟨was, is⟩]
            exact List.mem_singleton_self r
      · exact Or.inl was

/-- What a call that is allowed does to the books, and to what the tick has seen. -/
theorem call_moves (db : Database) (answer : Answer) (operation : Op) (tally : Tally)
    (allowed : tally.allows operation) (looked : Looked inst db tally) :
    (∃ more, Moves (known inst db) (known inst (call inst db answer operation).2) tally
        (tally.learn operation (call inst db answer operation).1) more
        (unseenBy inst db tally operation answer)) ∧
      Looked inst (call inst db answer operation).2
        (tally.learn operation (call inst db answer operation).1) := by
  cases operation with
  | statement operation =>
      cases operation with
      | getRow r =>
          cases answer with
          | asIs =>
              refine ⟨⟨[], moves_nothing _ _ _ rfl fun counted => counted⟩, ?_⟩
              rintro q look ⟨⟩
              exact looked_get inst db r
          | refused e =>
              refine ⟨⟨[], moves_nothing _ _ _ rfl fun counted => counted⟩, ?_⟩
              rintro q look ⟨⟩
              exact ⟨nofun, nofun⟩
      | upsertReady r size mtimeMs now =>
          obtain ⟨nothing, look, is⟩ := allowed
          cases answer with
          | asIs =>
              exact ⟨enqueue_moves inst db r size mtimeMs now tally look nothing is looked, nofun⟩
          | refused e => exact ⟨⟨[], moves_nothing _ _ _ rfl fun counted => counted⟩, nofun⟩
      | listByState state =>
          cases answer with
          | asIs => exact ⟨⟨[], moves_nothing _ _ _ rfl fun counted => counted⟩, looked⟩
          | refused e => exact ⟨⟨[], moves_nothing _ _ _ rfl fun counted => counted⟩, looked⟩
      | _ => exact absurd allowed id
  | emit event =>
      cases event with
      | fileReady r size =>
          obtain ⟨owed, unreported⟩ := allowed
          refine ⟨⟨[], moves_nothing _ _ _ ?_ fun _ n reported => ?_⟩, looked⟩
          · show (tally.announced ++ [r]) ++ [] = tally.announced ++ tally.owed.toList
            rw [owed, List.append_nil]
            rfl
          · exact absurd (unreported.symm.trans reported) nofun
      | scanComplete discovered awaiting =>
          refine ⟨⟨[], moves_nothing _ _ _ rfl fun _ n reported => ?_⟩, looked⟩
          cases reported
          exact allowed.2.2

/-! ## The invariant -/

variable (before : String → Bool)

structure Working (h : Ledger) (c : State) (t : Tick) : Prop where
  going : t.aborted = false
  born : t.id < c.next
  noted : t.notes = h.tallies t.id
  looked : Looked inst c.state t.notes
  keeps : Keeps herald t.prog t.notes fun _ tally => tally.Settled

structure Sound (h : Ledger) (c : State) : Prop where
  threads : c.threads = [] ∨ ∃ t, c.threads = [t] ∧ Working inst h c t
  unborn : ∀ i, c.next ≤ i → h.tallies i = .blank
  books : Books before (known inst c.state) h.tallies h.unseen
  ended : ∀ i, i < c.next → h.stopped i = false → (∀ t ∈ c.threads, t.id ≠ i) → (h.tallies i).Settled

theorem no_orphans (threads : List Tick) : (ticking inst).abortOrphans threads = threads :=
  List.map_id threads

theorem settle_alone (c : State) (t after : Tick) (alone : c.threads = [t]) (same : t.id = after.id)
    (db : Database) :
    ((ticking inst).settle c after ⟨db, [], fun _ _ => .stays⟩).threads =
      if after.prog.isDone then [] else [after] := by
  unfold Machine.settle
  rw [no_orphans, alone]
  simp only [List.filterMap_cons, Machine.survivor, same, if_true, List.filterMap_nil,
    Machine.spawnFrom, List.append_nil]
  cases after.prog.isDone with
  | true => rfl
  | false => rfl

theorem sound_settle (h : Ledger) (c after : State) (sound : Sound inst before h c) (t : Tick)
    (operation : Op) (ret : Ret operation) (effect : Effect Database Scan)
    (next : Ret operation → Program Unit) (choice : Choice Answer Event)
    (calls : Calls (ticking inst) c t operation ret effect next choice)
    (same : after = (ticking inst).settle c ((ticking inst).resumed t operation ret next) effect) :
    Sound inst before ((ledger inst).follow c choice after h) after := by
  obtain ⟨answer, rfl, performed⟩ := calls.choice
  have out := Option.some.inj performed
  obtain rfl : (call inst c.state answer operation).1 = ret := congrArg Prod.fst out
  obtain rfl : Effect.mk (call inst c.state answer operation).2 [] (fun _ _ => Fate.stays) = effect :=
    congrArg Prod.snd out
  obtain ⟨alone, working⟩ : c.threads = [t] ∧ Working inst h c t := by
    rcases sound.threads with none | ⟨u, alone, working⟩
    · exact absurd calls.member (by rw [none]; exact List.not_mem_nil)
    · have is : t = u := List.mem_singleton.mp (alone ▸ calls.member)
      exact is ▸ ⟨alone, working⟩
  have distinct : Distinct c := by
    refine ⟨fun u member => ?_, by rw [alone]; exact List.nodup_singleton _⟩
    rw [alone, List.mem_singleton] at member
    exact member ▸ working.born
  rw [follow_call unmarked (heed inst) pass c after distinct t calls.member operation next calls.prog]
  have keeps := working.keeps
  rw [calls.prog] at keeps
  obtain ⟨⟨more, moves⟩, looked⟩ := call_moves inst c.state answer operation t.notes keeps.1
    working.looked
  have later := keeps.2 (call inst c.state answer operation).1 trivial
  have threads := settle_alone inst c t
    ((ticking inst).resumed t operation (call inst c.state answer operation).1 next) alone rfl
    (call inst c.state answer operation).2
  rw [← same] at threads
  have state : after.state = (call inst c.state answer operation).2 := by rw [same]; rfl
  have same_next : after.next = c.next := by rw [same]; rfl
  have own : (heed inst t operation answer c after h).tallies t.id =
      t.notes.learn operation (call inst c.state answer operation).1 := if_pos rfl
  refine ⟨?_, ?_, ?_, ?_⟩
  · rw [threads]
    cases done : ((ticking inst).resumed t operation (call inst c.state answer operation).1
        next).prog.isDone with
    | true => exact Or.inl rfl
    | false =>
        refine Or.inr ⟨_, rfl, working.going, ?_, own.symm, ?_, later⟩
        · rw [same_next]
          exact working.born
        · rw [state]
          exact looked
  · intro i beyond
    rw [same_next] at beyond
    have other : i ≠ t.id := by
      have born := working.born
      omega
    exact (if_neg other).trans (sound.unborn i beyond)
  · rw [state]
    rw [working.noted] at moves
    have books := books_move before _ _ h.tallies h.unseen more _ t.id _ sound.books moves
    rw [← working.noted] at books
    exact books
  · intro i born running absent
    by_cases is : i = t.id
    · subst is
      rw [own]
      -- the tick is at its end
      cases rest : next (call inst c.state answer operation).1 with
      | done value =>
          rw [rest] at later
          exact later
      | call more rest' =>
          rw [threads] at absent
          have going : ((ticking inst).resumed t operation (call inst c.state answer operation).1
              next).prog.isDone = false := by
            show (next _).isDone = false
            rw [rest]
            rfl
          rw [going, if_neg Bool.false_ne_true] at absent
          exact (absent _ (List.mem_singleton.mpr rfl) rfl).elim
    · have quiet : ∀ u ∈ c.threads, u.id ≠ i := by
        intro u member
        rw [alone, List.mem_singleton] at member
        exact fun eq => is (eq.symm.trans (congrArg Thread.id member))
      rw [same_next] at born
      have settled := sound.ended i born running quiet
      have kept : (heed inst t operation answer c after h).tallies i = h.tallies i := if_neg is
      rw [kept]
      exact settled

theorem sound_absorb (h : Ledger) (c : State) (sound : Sound inst before h c) (event : Event)
    (reaction : Reaction Database Scan)
    (reacted : react inst (Machine.live c) c.state event = some reaction) :
    Sound inst before (pass event c ((ticking inst).absorb c reaction) h)
      ((ticking inst).absorb c reaction) := by
  have threads : ((ticking inst).absorb c reaction).threads =
      (if reaction.stops then [] else c.threads) ++ (ticking inst).spawnFrom c.next reaction.spawned :=
    no_orphans inst _
  cases event with
  | tick now ready =>
      dsimp only [react] at reacted
      split at reacted
      · rename_i idle
        cases reacted
        have none : c.threads = [] := List.map_eq_nil_iff.mp (List.isEmpty_iff.mp idle)
        have started : ((ticking inst).absorb c ⟨c.state, false, [(now, ready)]⟩).threads =
            [⟨c.next, (now, ready), false, .blank, announceScan now ready⟩] := by
          rw [threads, none]
          rfl
        refine ⟨Or.inr ⟨_, started, rfl, Nat.lt_succ_self _, ?_, nofun, scan_reported now ready⟩, ?_,
          sound.books, ?_⟩
        · exact (sound.unborn c.next le_rfl).symm
        · exact fun i beyond => sound.unborn i ((Nat.le_succ _).trans beyond)
        · intro i born running absent
          rw [started] at absent
          have other : c.next ≠ i := absent _ (List.mem_singleton.mpr rfl)
          have earlier : i < c.next + 1 := born
          refine sound.ended i (by omega) running fun t member => ?_
          rw [none] at member
          cases member
      · cases reacted
  | statement other operation =>
      dsimp only [react] at reacted
      split at reacted
      · cases reacted
      · rename_i plain
        cases reacted
        have rows : known inst (callDatabase c.state other operation).2 = known inst c.state :=
          funext fun r => known_statement inst c.state other operation r plain
        have stay : ((ticking inst).absorb c
            ⟨(callDatabase c.state other operation).2, false, []⟩).threads = c.threads := by
          rw [threads]
          exact List.append_nil _
        refine ⟨?_, sound.unborn, ?_, ?_⟩
        · rcases sound.threads with none | ⟨t, alone, working⟩
          · exact Or.inl (stay.trans none)
          · refine Or.inr ⟨t, stay.trans alone, working.going, working.born, working.noted, ?_,
              working.keeps⟩
            intro r look is
            show (_ → known inst (callDatabase c.state other operation).2 r = _) ∧
              (_ → known inst (callDatabase c.state other operation).2 r = _)
            rw [rows]
            exact working.looked r look is
        · show Books before (known inst (callDatabase c.state other operation).2) _ _
          rw [rows]
          exact sound.books
        · intro i born running absent
          rw [stay] at absent
          exact sound.ended i born running absent
  | stop =>
      cases reacted
      refine ⟨Or.inl threads, sound.unborn, sound.books, fun i born running _ => ?_⟩
      have both : (h.stopped i || c.threads.any fun t => t.id = i) = false := running
      rw [Bool.or_eq_false_iff] at both
      refine sound.ended i born both.1 fun t member => ?_
      have other := List.any_eq_false.mp both.2 t member
      simpa using other

theorem sound_step (h : Ledger) (c after : State) (choice : Choice Answer Event)
    (sound : Sound inst before h c) (stepped : (ticking inst).step c choice = some after) :
    Sound inst before ((ledger inst).follow c choice after h) after := by
  rcases step_cases (ticking inst) c after choice stepped with
    ⟨t, operation, ret, effect, next, calls, same⟩ | ⟨id, rfl, ⟨t, member, _, aborted⟩, rfl⟩ |
    ⟨event, reaction, rfl, reacted, rfl⟩
  · exact sound_settle inst before h c after sound t operation ret effect next choice calls same
  · rcases sound.threads with none | ⟨u, alone, working⟩
    · rw [none] at member
      cases member
    · rw [alone, List.mem_singleton] at member
      rw [member, working.going] at aborted
      cases aborted
  · exact sound_absorb inst before h c sound event reaction reacted

/-- In every run a file is announced at most once, never if it was known before, and always before a
tick ends that has recorded it as new; a file that was recorded and never announced is one whose
look-up had failed or whose tick was stopped right then; and the number that a scan is reported with
is the number of the files that its tick has announced, once, with no report where there are none. -/
theorem announcements_accounted (h : Ledger) (c : State)
    (tracked : Tracked (ticking inst) (ledger inst) (Starts inst before) (fun _ _ _ => True) h c) :
    (∀ i, (h.tallies i).announced.Nodup) ∧
      (∀ i j r, r ∈ (h.tallies i).announced → r ∈ (h.tallies j).announced → i = j) ∧
      (∀ i, ∀ r ∈ (h.tallies i).announced, known inst c.state r = true ∧ before r = false) ∧
      (∀ r, known inst c.state r = true → before r = true ∨ r ∈ h.unseen ∨
        ∃ i, r ∈ (h.tallies i).announced ∨ (h.tallies i).owed = some r ∧
          ((∃ t ∈ c.threads, t.id = i) ∨ h.stopped i = true)) ∧
      (∀ i n, (h.tallies i).complete = some n →
        (h.tallies i).announced ≠ [] ∧ n = (h.tallies i).announced.length) ∧
      (∀ t ∈ c.threads, ∀ discovered awaiting next,
        t.prog = .call (.emit (.scanComplete discovered awaiting)) next →
          (h.tallies t.id).complete = none) ∧
      ∀ i, i < c.next → h.stopped i = false → (∀ t ∈ c.threads, t.id ≠ i) →
        (h.tallies i).complete = (h.tallies i).due := by
  have sound : Sound inst before h c := by
    apply invariant_of_tracked (ticking inst) (ledger inst) (Starts inst before) (fun _ _ _ => True)
      (Sound inst before) ?_
      (fun h c after choice sound _ stepped => sound_step inst before h c after choice sound stepped)
      h c tracked
    rintro c ⟨nobody, rows⟩
    have was : known inst c.state = before := funext rows
    refine ⟨Or.inl nobody, fun _ _ => rfl, ?_, fun i _ _ _ => ⟨rfl, rfl⟩⟩
    rw [was]
    exact ⟨fun _ is => is, nofun, fun _ => List.nodup_nil, nofun, fun _ is => Or.inl is, nofun⟩
  obtain ⟨threads, unborn, books, ended⟩ := sound
  have announced : ∀ i r, r ∈ (h.tallies i).announced → r ∈ (h.tallies i).told :=
    fun i r member => List.mem_append_left _ member
  refine ⟨fun i => (List.nodup_append'.mp (books.once i)).1,
    fun i j r first second => books.apart i j r (announced i r first) (announced j r second),
    fun i r member => books.fresh i r (announced i r member), ?_, ?_, ?_,
    fun i born running absent => (ended i born running absent).2⟩
  · intro r is
    rcases books.covered r is with was | ⟨i, told⟩ | missed
    · exact Or.inl was
    · refine Or.inr (Or.inr ⟨i, ?_⟩)
      rcases List.mem_append.mp told with said | owed
      · exact Or.inl said
      · have owes : (h.tallies i).owed = some r := Option.mem_toList.mp owed
        refine Or.inr ⟨owes, ?_⟩
        by_contra neither
        rw [not_or, Bool.not_eq_true] at neither
        by_cases born : i < c.next
        · have settled := ended i born neither.2 fun t member is => neither.1 ⟨t, member, is⟩
          exact absurd (settled.1.symm.trans owes) nofun
        · rw [unborn i (Nat.le_of_not_lt born)] at owes
          cases owes
    · exact Or.inr (Or.inl missed)
  · intro i n reported
    have due := books.counted i n reported
    unfold Tally.due at due
    split at due
    · cases due
    · rename_i some
      exact ⟨some, (Option.some.inj due).symm⟩
  · intro t member discovered awaiting next prog
    rcases threads with none | ⟨u, alone, working⟩
    · rw [none] at member
      cases member
    · rw [alone, List.mem_singleton] at member
      subst member
      have keeps := working.keeps
      rw [prog] at keeps
      rw [← working.noted]
      exact keeps.1.2.1

end

/-- A look-up fails in the first tick, the second is stopped after it has recorded a file, and the
third finds nothing new. -/
def threeTicks : List (Choice Answer Event) :=
  [.env (.tick 1 [⟨"a", 5, 0⟩, ⟨"b", 6, 0⟩]), .run 0 (.refused (.transient "busy")), .run 0 .asIs,
    .run 0 .asIs, .run 0 .asIs, .run 0 .asIs, .run 0 .asIs, .run 0 .asIs,
    .env (.statement "plant" (.claimReady 1 2)),
    .env (.tick 3 [⟨"b", 6, 0⟩, ⟨"c", 7, 0⟩]), .run 1 .asIs, .run 1 .asIs, .run 1 .asIs, .run 1 .asIs,
    .env .stop, .env (.tick 4 [⟨"c", 7, 0⟩]), .run 2 .asIs, .run 2 .asIs]

def nothingYet : State := ⟨emptyDatabase, [], 0⟩

theorem announcements_accounted_three :
    ∃ h c, Tracked (ticking "plant") (ledger "plant") (Starts "plant" fun _ => false)
        (fun _ _ _ => True) h c ∧ h.unseen = ["a"] ∧ (h.tallies 0).announced = ["b"] ∧
      (h.tallies 0).complete = some 1 ∧ (h.tallies 1).owed = some "c" ∧ h.stopped 1 = true ∧
      (h.tallies 2).complete = (h.tallies 2).due := by
  obtain ⟨h, c, tracked, found⟩ := exists_of_tracked_run (ticking "plant") (ledger "plant")
    (Starts "plant" fun _ => false) (fun _ _ _ => True) (fun _ _ _ => true) (fun _ _ _ _ => trivial)
    (fun h c => h.unseen = ["a"] && (h.tallies 0).announced = ["b"] &&
      (h.tallies 0).complete = some 1 && (h.tallies 1).owed = some "c" && h.stopped 1 &&
      2 < c.next && !h.stopped 2 && c.threads.isEmpty)
    threeTicks nothingYet ⟨rfl, fun _ => rfl⟩ (by decide)
  simp only [Bool.and_eq_true, decide_eq_true_iff, Bool.not_eq_true'] at found
  obtain ⟨⟨⟨⟨⟨⟨⟨unseen, announced⟩, complete⟩, owed⟩, stopped⟩, born⟩, running⟩, idle⟩ := found
  refine ⟨h, c, tracked, unseen, announced, complete, owed, stopped, ?_⟩
  refine (announcements_accounted "plant" (fun _ => false) h c tracked).2.2.2.2.2.2 2 born running ?_
  intro t member
  rw [List.isEmpty_iff.mp idle] at member
  cases member

end FileReplicator.Announcements
