import FileReplicator.Drains
import FileReplicator.Exclusion

/-!
# What a call does to a drain

The ticks of an instance take turns; each item belongs to the batch that its tick
waits for; and no call but its own claims adds to the rows that a tick that drains
may still claim, or takes from them. The books of a tick are what it has claimed.
-/

namespace FileReplicator.DrainCalls

open Domain DurableStore Effects Interleaving Exclusion Operations Instance Steps Runs Rows Backlog
open Drains

variable (setup : Setup)

abbrev crew := machine setup drains Finished start

abbrev Hand := Thread Op Ret Spec Notes

abbrev Crew := Config Op Ret World Spec Notes

/-! ## Where a tick is -/

def busy : Place → Bool
  | .claimed _ | .running _ | .closing _ | .draining => true
  | _ => false

def isEarly : Place → Bool
  | .waiting | .preparing => true
  | _ => false

def batchOf : Place → Option (List String)
  | .claimed batch | .running batch | .closing batch => some batch
  | _ => none

def outOf : Place → Option (List String)
  | .running batch | .closing batch => some batch
  | _ => none

theorem inside_of_busy (place : Place) (is : busy place = true) : place.inside = true := by
  cases place <;> first | rfl | cases is

theorem inside_of_out (place : Place) (batch : List String) (out : outOf place = some batch) :
    place.inside = true := by
  cases place <;> first | rfl | cases out

theorem quiet_of_busy (place : Place) (is : busy place = true) : place.quiet = false := by
  cases place <;> first | rfl | cases is

theorem between_of_out (place : Place) (batch : List String) (out : outOf place = some batch) :
    place.between = false := by
  cases place <;> first | rfl | cases out

theorem inside_of_leaving (p : Progress) (may : mayLeave p) : p.place.inside = true := by
  rcases may with at_ | ⟨between, _⟩
  · rw [at_]
    rfl
  · exact inside_of_between p.place between

theorem batch_of_out (place : Place) (batch : List String) (out : outOf place = some batch) :
    batchOf place = some batch ∧ busy place = true := by
  cases place <;> first | exact ⟨out, rfl⟩ | cases out

def isInside : Notes → Bool
  | .tick p => p.place.inside
  | _ => false

theorem plain_of_allowed (p : Progress) (operation : Op) (may : allowedTick p operation)
    (other : ofTick operation = false) : p.place.inside = true ∧
      ∀ change, stateOf operation = some change → p.place.quiet = true := by
  unfold allowedTick at may
  split at may
  all_goals first | cases other | exact may

/-- A tick without the lock asks whether the instance is active, and for the lock. -/
theorem outside_calls (p : Progress) (operation : Op) (may : allowedTick p operation)
    (outside : p.place.inside = false) (locks : operation ≠ .lockTick) :
    operation = .isActive := by
  have contradicts : p.place.inside ≠ true := by
    rw [outside]
    exact Bool.noConfusion
  cases own : ofTick operation with
  | false => exact absurd (plain_of_allowed p operation may own).1 contradicts
  | true =>
      cases operation with
      | store operation =>
          cases operation with
          | claimReady limit now => exact absurd (inside_of_between p.place may.2.1) contradicts
          | setBytesDone relpath bytes now => exact may.elim
          | _ => cases own
      | isActive => rfl
      | lockTick => exact absurd rfl locks
      | unlockTick => exact absurd (inside_of_leaving p may) contradicts
      | spawnBatch items now =>
          have at_ : p.place = .claimed (items.map WorkItem.relpath) := may
          rw [at_] at outside
          cases outside
      | nextOfBatch closable =>
          rcases may with ⟨batch, at_⟩ | ⟨batch, at_⟩
          · rw [at_] at outside
            cases outside
          · rw [at_] at outside
            cases outside
      | abortBatch =>
          obtain ⟨batch, at_⟩ := may
          rw [at_] at outside
          cases outside
      | _ => cases own

theorem ticking_kept (t : Running) (live : List Spec) (world : World) (operation : Op)
    (ret : Ret operation) (effect : Effect World Spec)
    (did : Did setup t live world operation ret effect) (locks : operation ≠ .lockTick)
    (unlocks : operation ≠ .unlockTick) : effect.state.ticking = world.ticking := by
  cases did with
  | locked free => exact absurd rfl locks
  | unlocked => exact absurd rfl unlocks
  | undelivered item label resume left error after stored =>
      rcases stored with rfl | ⟨bytes, _, rfl⟩ <;> rfl
  | _ => rfl

def isLock : Op → Bool
  | .lockTick => true
  | _ => false

def tickLock : Lock (crew setup) where
  locked := World.ticking
  inside := isInside
  takes := isLock
  starts := fun spec => by cases spec <;> rfl
  taken := by
    intro t live world operation answer ret effect performed takes
    cases did_retold setup t live world operation answer ret effect performed with
    | locked free => exact ⟨free, rfl⟩
    | _ => cases takes
  entered := by
    intro n operation ret takes may outside
    cases n with
    | tick p =>
        have locks : operation ≠ .lockTick := by
          rintro rfl
          cases takes
        obtain rfl := outside_calls p operation may outside locks
        exact outside
    | _ => rfl
  given := by
    intro t live world operation answer ret effect performed takes may locked unlocked
    have did := did_retold setup t live world operation answer ret effect performed
    by_cases unlocks : operation = .unlockTick
    · subst unlocks
      cases notes : t.notes with
      | tick p =>
          rw [notes] at may
          exact ⟨inside_of_leaving p may, rfl⟩
      | recover =>
          rw [notes] at may
          cases may
      | item own =>
          rw [notes] at may
          cases may.1
      | aside =>
          rw [notes] at may
          cases may.1
    · have still := ticking_kept setup _ _ world operation ret effect did (by
        rintro rfl
        cases takes) unlocks
      rw [still, locked] at unlocked
      cases unlocked
  left := by
    intro live world event reaction reacted
    cases event with
    | boot now =>
        change (if world.up then none else _) = some reaction at reacted
        split at reacted
        · cases reacted
        · cases reacted
          exact Or.inr rfl
    | periodic now fuel =>
        change (if _ then _ else none) = some reaction at reacted
        split at reacted
        · cases reacted
          exact Or.inr rfl
        · cases reacted
    | trigger now ignoreWindow fuel =>
        change (if world.up then _ else none) = some reaction at reacted
        split at reacted
        · cases reacted
          exact Or.inr rfl
        · cases reacted
    | crash =>
        cases reacted
        exact Or.inl rfl
    | touch path node =>
        cases reacted
        exact Or.inr rfl
    | alter relpath label object =>
        cases reacted
        exact Or.inr rfl
    | setActive active =>
        cases reacted
        exact Or.inr rfl

/-! ## What the ticks have claimed -/

structure Drain where
  /-- The rows that could be claimed when it claimed first. -/
  backlog : List WorkItem
  claims : List (List WorkItem)

abbrev Ledger := Nat → Option Drain

def noted (backlog rows : List WorkItem) : Option Drain → Drain
  | none => ⟨backlog, [rows]⟩
  | some d => { d with claims := d.claims ++ [rows] }

def heed (t : Hand) (operation : Op) (answer : Answer) (c _ : Crew) (ledger : Ledger) : Ledger :=
  match operation, answer with
  | .store (.claimReady limit now), .asIs => fun id =>
      if id = t.id then
        some (noted (c.state.store.select (eligible now)) (c.state.store.claimReady limit now).1
          (ledger id))
      else ledger id
  | _, _ => ledger

def pass (_ : Event) (_ _ : Crew) (ledger : Ledger) : Ledger := ledger

abbrev claiming : Chronicle Op Ret World Spec Notes Answer Event Ledger :=
  chronicle (fun _ => none) heed pass

/-- The claims so far are the first rows of the backlog, and they are no more than its rows. -/
structure InOrder (d : Drain) : Prop where
  sorted : d.backlog.Pairwise fun a b => a.discoveredAt ≤ b.discoveredAt
  different : (d.backlog.map WorkItem.relpath).Nodup
  first : d.claims.flatten.map slip <+: d.backlog.map slip
  rounds : d.claims.length ≤ d.backlog.length + 1

/-- The books of a tick that drains: what it has claimed and what is left are its backlog. -/
structure Balanced (store : Store) (p : Progress) (fuel : Nat) (d : Drain) : Prop where
  slips : d.claims.flatten.map slip ++ (store.select (eligible p.now)).map slip = d.backlog.map slip
  full : ∀ batch ∈ d.claims, batch ≠ []
  spent : d.claims.length + p.rounds = fuel
  held : ∀ batch, batchOf p.place = some batch →
    batch.Nodup ∧ ∀ relpath ∈ batch, notReady store relpath

def fits : Spec → Notes → Bool
  | .recover _, .recover => true
  | .tick now _ _ _, .tick p => p.now = now
  | .item _ item _, .item own => own = item.relpath
  | .attempt _ _, .aside | .action _ _, .aside | .quarantine _ _, .aside => true
  | _, _ => false

/-- The threads that recovery must not run beside. -/
def isWorking : Spec → Bool
  | .tick _ _ _ _ | .item _ _ _ => true
  | _ => false

structure Sound (c : Crew) : Prop where
  distinct : Distinct c
  orderly : Orderly (crew setup) c
  keyed : Keyed c.state.store
  exclusive : Exclusive (tickLock setup) c
  kinds : ∀ u ∈ c.threads, fits u.spec u.notes = true
  free : ∀ u ∈ c.threads, owner u.spec = none → u.aborted = false
  calm : ∀ u ∈ c.threads, isRecover u.spec = true → ∀ v ∈ c.threads, isWorking v.spec = false
  down : c.state.up = false → c.threads = []
  /-- The tick of an item waits for the batch the item is of. -/
  owned : ∀ u ∈ c.threads, ∀ id item now, u.spec = .item id item now →
    ∃ t ∈ c.threads, t.id = id ∧ ∃ p batch, t.notes = .tick p ∧ outOf p.place = some batch ∧
      item.relpath ∈ batch
  single : ∀ u ∈ c.threads, ∀ v ∈ c.threads, ∀ id item now other later, u.spec = .item id item now →
    v.spec = .item id other later → item.relpath = other.relpath → u.id = v.id

structure Booked (ledger : Ledger) (c : Crew) : Prop where
  fresh : ∀ id, c.next ≤ id → ledger id = none
  early : ∀ t ∈ c.threads, ∀ p, t.notes = .tick p → isEarly p.place = true → ledger t.id = none
  /-- The rounds of a tick that has claimed nothing are all of its rounds. -/
  whole : ∀ t ∈ c.threads, ∀ p now ignoreWindow redriveCleanup fuel, t.notes = .tick p →
    t.spec = .tick now ignoreWindow redriveCleanup fuel → isEarly p.place = true → p.rounds = fuel
  books : ∀ t ∈ c.threads, ∀ p now ignoreWindow redriveCleanup fuel, t.notes = .tick p →
    t.spec = .tick now ignoreWindow redriveCleanup fuel → busy p.place = true →
      ∃ d, ledger t.id = some d ∧ Balanced c.state.store p fuel d
  ordered : ∀ id d, ledger id = some d → InOrder d

/-! ## What a call does to where a tick is -/

def isClaim : Op → Bool
  | .store (.claimReady _ _) => true
  | _ => false

section Learning

variable (p : Progress) (operation : Op) (ret : Ret operation)

theorem learn_now : (learnTick p operation ret).now = p.now := by
  unfold learnTick
  split
  case h_5 rows => cases rows <;> rfl
  all_goals rfl

theorem learn_rounds (other : isClaim operation = false) :
    (learnTick p operation ret).rounds = p.rounds := by
  unfold learnTick
  split
  case h_5 => cases other
  all_goals rfl

inductive Moves : Bool → Place → Place → Prop where
  | stays (claims : Bool) (place : Place) : Moves claims place place
  | locks : Moves false .waiting .preparing
  | leaves (place : Place) : Moves false place .left
  | ends (claims : Bool) (place : Place) : Moves claims place .ending
  | claims (place : Place) (batch : List String) : Moves true place (.claimed batch)
  | starts (batch : List String) : Moves false (.claimed batch) (.running batch)
  | drains (batch : List String) : Moves false (.running batch) .draining
  | closes (batch : List String) : Moves false (.running batch) (.closing batch)

theorem learn_moves (may : allowedTick p operation) :
    Moves (isClaim operation) p.place (learnTick p operation ret).place := by
  cases other : ofTick operation with
  | false =>
      obtain ⟨_, learned, _⟩ := learn_other p operation ret other
      rw [learned]
      exact .stays _ _
  | true =>
      cases operation with
      | store operation =>
          cases operation with
          | claimReady limit now =>
              cases ret with
              | error e => exact .ends _ _
              | ok rows =>
                  cases rows with
                  | nil => exact .ends _ _
                  | cons it rest => exact .claims _ _
          | setBytesDone relpath bytes now => exact may.elim
          | _ => cases other
      | isActive => exact .stays _ _
      | lockTick =>
          have at_ : p.place = .waiting := may
          rw [at_]
          exact .locks
      | unlockTick => exact .leaves _
      | spawnBatch items now =>
          have at_ : p.place = .claimed (items.map WorkItem.relpath) := may
          rw [at_]
          exact .starts _
      | nextOfBatch closable =>
          rcases may with ⟨batch, at_⟩ | ⟨batch, at_⟩
          · cases ret with
            | drained =>
                show Moves false p.place p.place.drained
                rw [at_]
                exact .drains batch
            | closed =>
                show Moves false p.place p.place.closed
                rw [at_]
                exact .closes batch
          · cases ret with
            | drained =>
                show Moves false p.place p.place.drained
                rw [at_]
                exact .ends _ _
            | closed =>
                show Moves false p.place p.place.closed
                rw [at_]
                exact .stays _ _
      | abortBatch => exact .stays _ _
      | _ => cases other

theorem left_of_learn (may : allowedTick p operation) (unlocks : operation ≠ .unlockTick)
    (left : (learnTick p operation ret).place = .left) : p.place = .left := by
  cases other : ofTick operation with
  | false =>
      obtain ⟨_, learned, _⟩ := learn_other p operation ret other
      rw [learned] at left
      exact left
  | true =>
      cases operation with
      | store operation =>
          cases operation with
          | claimReady limit now =>
              cases ret with
              | error e => cases left
              | ok rows => cases rows <;> cases left
          | setBytesDone relpath bytes now => exact may.elim
          | _ => cases other
      | isActive => exact left
      | lockTick => cases left
      | unlockTick => exact absurd rfl unlocks
      | spawnBatch items now => cases left
      | nextOfBatch closable =>
          rcases may with ⟨batch, at_⟩ | ⟨batch, at_⟩ <;> cases ret <;>
            simp only [learnTick, at_, Place.drained, Place.closed] at left <;> cases left
      | abortBatch => exact left
      | _ => cases other

theorem learn_batch (may : allowedTick p operation) (other : isClaim operation = false)
    (is : busy (learnTick p operation ret).place = true) :
    busy p.place = true ∧ ∀ batch, batchOf (learnTick p operation ret).place = some batch →
      batchOf p.place = some batch := by
  have moves := learn_moves p operation ret may
  rw [other] at moves
  generalize (learnTick p operation ret).place = after at moves is
  generalize p.place = before at moves ⊢
  cases moves with
  | stays claims => exact ⟨is, fun _ => id⟩
  | starts batch => exact ⟨rfl, fun _ => id⟩
  | drains batch => exact ⟨rfl, fun _ none => by cases none⟩
  | closes batch => exact ⟨rfl, fun _ => id⟩
  | _ => cases is

theorem learn_early (may : allowedTick p operation)
    (is : isEarly (learnTick p operation ret).place = true) :
    isEarly p.place = true ∧ isClaim operation = false ∧
      (learnTick p operation ret).rounds = p.rounds := by
  cases other : isClaim operation with
  | false =>
      refine ⟨?_, rfl, learn_rounds p operation ret other⟩
      have moves := learn_moves p operation ret may
      rw [other] at moves
      generalize (learnTick p operation ret).place = after at moves is
      generalize p.place = before at moves ⊢
      cases moves with
      | stays claims => exact is
      | locks => rfl
      | _ => cases is
  | true =>
      cases operation with
      | store operation =>
          cases operation with
          | claimReady limit now =>
              cases ret with
              | error e => cases is
              | ok rows => cases rows <;> cases is
          | _ => cases other
      | _ => cases other

theorem learn_out (may : allowedTick p operation) (batch : List String)
    (out : outOf p.place = some batch) :
    outOf (learnTick p operation ret).place = some batch ∨ ∃ closable, operation = .nextOfBatch closable ∧
      (learnTick p operation ret).place = p.place.drained := by
  cases other : ofTick operation with
  | false =>
      obtain ⟨_, learned, _⟩ := learn_other p operation ret other
      rw [learned]
      exact Or.inl out
  | true =>
      have apart {place : Place} (at_ : p.place = place) (none : outOf place = none) : False := by
        rw [at_, none] at out
        cases out
      cases operation with
      | store operation =>
          cases operation with
          | claimReady limit now =>
              obtain ⟨_, between, _⟩ := may
              rw [between_of_out p.place batch out] at between
              cases between
          | setBytesDone relpath bytes now => exact may.elim
          | _ => cases other
      | isActive => exact Or.inl out
      | lockTick => exact (apart (show p.place = .waiting from may) rfl).elim
      | unlockTick =>
          rcases may with at_ | ⟨between, _⟩
          · exact (apart at_ rfl).elim
          · rw [between_of_out p.place batch out] at between
            cases between
      | spawnBatch items now =>
          exact (apart (show p.place = .claimed (items.map WorkItem.relpath) from may) rfl).elim
      | nextOfBatch closable =>
          cases ret with
          | drained => exact Or.inr ⟨closable, rfl, rfl⟩
          | closed =>
              left
              rcases may with ⟨b, at_⟩ | ⟨b, at_⟩
              · show outOf p.place.closed = some batch
                rw [at_] at out ⊢
                exact out
              · show outOf p.place.closed = some batch
                rw [at_] at out ⊢
                exact out
      | abortBatch => exact Or.inl out
      | _ => cases other

end Learning

/-! ## One call -/

def relpathOf : Spec → Option String
  | .item _ item _ => some item.relpath
  | _ => none

structure Called (c : Crew) (t : Hand) (operation : Op) (ret : Ret operation)
    (effect : Effect World Spec) (next : Ret operation → Program Unit) : Prop where
  member : t ∈ c.threads
  may : allowed t.notes operation
  later : Keeps drains (next ret) (learn t.notes operation ret) fun _ after => Finished after
  did : Did setup (retold t) (Machine.live c) c.state operation ret effect

section Call

variable {setup}
variable {c : Crew} {t : Hand} {operation : Op} {ret : Ret operation} {effect : Effect World Spec}
variable {next : Ret operation → Program Unit}

theorem Called.goes_on (called : Called setup c t operation ret effect next)
    (unfinished : ¬Finished (learn t.notes operation ret)) :
    ∃ v ∈ ((crew setup).settle c ((crew setup).resumed t operation ret next) effect).threads,
      SameThread ((crew setup).resumed t operation ret next) v := by
  refine caller_stays (crew setup) c t called.member operation ret next effect ?_
  have later := called.later
  cases rest : next ret with
  | done value =>
      rw [rest] at later
      exact absurd later unfinished
  | call operation rest => rfl

theorem Called.spares (called : Called setup c t operation ret effect next) (id : Nat) (spec : Spec)
    (p : Progress) (fit : fits spec (.tick p) = true) : effect.fate id spec ≠ .gone := by
  intro gone
  rcases did_gone setup _ _ _ _ _ _ called.did id spec gone with ⟨_, _, rfl⟩ | ⟨_, _, rfl⟩ | ⟨_, _, rfl⟩
  all_goals cases fit

/-- Only a tick that holds a batch starts threads that work on rows, and it starts an item for
each row of it. -/
theorem Called.started (called : Called setup c t operation ret effect next) (spec : Spec)
    (member : spec ∈ effect.spawned) :
    isRecover spec = false ∧ (isWorking spec = true →
      ∃ (p : Progress) (items : List WorkItem) (at_ : Int), t.notes = .tick p ∧
      p.place = .claimed (items.map WorkItem.relpath) ∧
      learn t.notes operation ret = .tick { p with place := .running (items.map WorkItem.relpath) } ∧
      effect.spawned = items.map fun item => .item t.id item at_) := by
  have may := called.may
  cases called.did with
  | spawnedBatch items at_ =>
      obtain ⟨item, _, rfl⟩ := List.mem_map.mp member
      refine ⟨rfl, fun _ => ?_⟩
      cases notes : t.notes with
      | tick p =>
          rw [notes] at may
          exact ⟨p, items, at_, rfl, may, rfl, rfl⟩
      | recover =>
          rw [notes] at may
          cases may
      | item own =>
          rw [notes] at may
          cases may.1
      | aside =>
          rw [notes] at may
          cases may.1
  | spawnedAttempts contexts =>
      obtain ⟨ctx, _, rfl⟩ := List.mem_map.mp member
      exact ⟨rfl, fun working => by cases working⟩
  | startedAction ctx =>
      obtain rfl := List.mem_singleton.mp member
      exact ⟨rfl, fun working => by cases working⟩
  | startedQuarantine job =>
      obtain rfl := List.mem_singleton.mp member
      exact ⟨rfl, fun working => by cases working⟩
  | _ => cases member

theorem fits_start (spec : Spec) : fits spec (start spec) = true := by
  cases spec with
  | tick now ignoreWindow redriveCleanup fuel => exact decide_eq_true rfl
  | item owner item now => exact decide_eq_true rfl
  | _ => rfl

theorem fits_learn (spec : Spec) (n : Notes) (operation : Op) (ret : Ret operation)
    (fit : fits spec n = true) : fits spec (learn n operation ret) = true := by
  cases n with
  | tick p =>
      cases spec with
      | tick now ignoreWindow redriveCleanup fuel =>
          have same : (learnTick p operation ret).now = now :=
            (learn_now p operation ret).trans (of_decide_eq_true fit)
          exact decide_eq_true same
      | _ => cases fit
  | _ => exact fit

theorem spec_of_tick (spec : Spec) (p : Progress) (fit : fits spec (.tick p) = true) :
    ∃ now ignoreWindow redriveCleanup fuel, spec = .tick now ignoreWindow redriveCleanup fuel := by
  cases spec with
  | tick now ignoreWindow redriveCleanup fuel => exact ⟨now, ignoreWindow, redriveCleanup, fuel, rfl⟩
  | _ => cases fit

theorem Called.kinds (called : Called setup c t operation ret effect next) (sound : Sound setup c) :
    ∀ u ∈ ((crew setup).settle c ((crew setup).resumed t operation ret next) effect).threads,
      fits u.spec u.notes = true := by
  refine all_settle (crew setup) (fun spec n => fits spec n = true) c t operation ret effect next ?_
    (fun u hu _ => sound.kinds u hu) fun spec _ => fits_start spec
  exact fits_learn t.spec t.notes operation ret (sound.kinds t called.member)

theorem Called.free (called : Called setup c t operation ret effect next) (sound : Sound setup c)
    (u : Hand)
    (member : u ∈ ((crew setup).settle c ((crew setup).resumed t operation ret next) effect).threads)
    (unowned : owner u.spec = none) : u.aborted = false := by
  have spares : ∀ id spec, owner spec = none → effect.fate id spec ≠ .aborted := by
    intro id spec nobody aborted
    obtain ⟨_, item, now, rfl⟩ := did_aborts setup _ _ _ _ _ _ called.did id spec aborted
    cases nobody
  rcases unowned_settle (crew setup) c _ u effect spares member unowned with rfl | old | new
  · exact sound.free t called.member unowned
  · exact sound.free u old unowned
  · exact (mem_spawn_from (crew setup) _ _ u new).2.2.2.1

theorem Called.origin (called : Called setup c t operation ret effect next) (u : Hand)
    (member : u ∈ ((crew setup).settle c ((crew setup).resumed t operation ret next) effect).threads) :
    (∃ x ∈ c.threads, x.id = u.id ∧ x.spec = u.spec) ∨
      ∃ new ∈ (crew setup).spawnFrom c.next effect.spawned, new.id = u.id ∧ new.spec = u.spec := by
  rcases mem_settle (crew setup) c _ u effect member with ⟨same, _⟩ | ⟨x, hx, _, same, _⟩ |
    ⟨new, hnew, same⟩
  · exact Or.inl ⟨t, called.member, same.id.symm, same.spec.symm⟩
  · exact Or.inl ⟨x, hx, same.id.symm, same.spec.symm⟩
  · exact Or.inr ⟨new, hnew, same.id.symm, same.spec.symm⟩

theorem Called.calm (called : Called setup c t operation ret effect next) (sound : Sound setup c)
    (u : Hand)
    (hu : u ∈ ((crew setup).settle c ((crew setup).resumed t operation ret next) effect).threads)
    (recovers : isRecover u.spec = true) (v : Hand)
    (hv : v ∈ ((crew setup).settle c ((crew setup).resumed t operation ret next) effect).threads) :
    isWorking v.spec = false := by
  rcases called.origin u hu with ⟨x, hx, _, spec⟩ | ⟨new, hnew, _, spec⟩
  · rw [← spec] at recovers
    rcases called.origin v hv with ⟨y, hy, _, other⟩ | ⟨new, hnew, _, other⟩
    · rw [← other]
      exact sound.calm x hx recovers y hy
    · rw [← other]
      cases working : isWorking new.spec with
      | false => rfl
      | true =>
          -- who starts an item is a tick, and no tick runs beside the recovery
          obtain ⟨_, items⟩ := called.started new.spec (mem_spawn_from (crew setup) _ _ new hnew).1
          obtain ⟨p, _, _, notes, _⟩ := items working
          have fit := sound.kinds t called.member
          rw [notes] at fit
          obtain ⟨_, _, _, _, tick⟩ := spec_of_tick t.spec p fit
          have quiet := sound.calm x hx recovers t called.member
          rw [tick] at quiet
          cases quiet
  · have other := (called.started new.spec (mem_spawn_from (crew setup) _ _ new hnew).1).1
    rw [spec, recovers] at other
    cases other

theorem Called.tick_stays (called : Called setup c t operation ret effect next)
    (sound : Sound setup c) (holder : Hand) (member : holder ∈ c.threads) (p : Progress)
    (batch : List String) (notes : holder.notes = .tick p) (out : outOf p.place = some batch) :
    (∃ v ∈ ((crew setup).settle c ((crew setup).resumed t operation ret next) effect).threads,
        v.id = holder.id ∧ ∃ after, v.notes = .tick after ∧ outOf after.place = some batch) ∨
      (holder.id = t.id ∧ isDrained (Machine.live c) t.id = true) := by
  by_cases mine : holder.id = t.id
  · obtain rfl := eq_of_same_id c sound.distinct holder t member called.member mine
    have may := called.may
    rw [notes] at may
    have learned : learn holder.notes operation ret = .tick (learnTick p operation ret) := by
      rw [notes]
      rfl
    have stays : outOf (learnTick p operation ret).place = some batch →
        ∃ v ∈ ((crew setup).settle c ((crew setup).resumed holder operation ret next) effect).threads,
          v.id = holder.id ∧ ∃ after, v.notes = .tick after ∧ outOf after.place = some batch := by
      intro still
      obtain ⟨v, hv, same⟩ := called.goes_on fun finished => by
        rw [learned] at finished
        rcases finished with at_ | at_
        · rw [at_] at still
          cases still
        · rw [at_] at still
          cases still
      exact ⟨v, hv, same.id, _, same.notes.trans learned, still⟩
    rcases learn_out p operation ret may batch out with still | ⟨closable, rfl, _⟩
    · exact Or.inl (stays still)
    · cases called.did with
      -- the batch is given up only when none of its items is left
      | drained closable finished => exact Or.inr ⟨rfl, finished⟩
      | closed =>
          left
          apply stays
          show outOf p.place.closed = some batch
          cases at_ : p.place with
          | running other => rw [at_] at out; exact out
          | closing other => rw [at_] at out; exact out
          | _ => rw [at_] at out; cases out
  · obtain ⟨v, hv, still⟩ := other_stays (crew setup) c ((crew setup).resumed t operation ret next)
      holder member mine effect (called.spares holder.id holder.spec p (by
        rw [← notes]
        exact sound.kinds holder member))
    exact Or.inl ⟨v, hv, still.id, p, still.notes.trans notes, out⟩

theorem Called.owned (called : Called setup c t operation ret effect next) (sound : Sound setup c)
    (u : Hand)
    (member : u ∈ ((crew setup).settle c ((crew setup).resumed t operation ret next) effect).threads)
    (id : Nat) (item : WorkItem) (now : Int) (spec : u.spec = .item id item now) :
    ∃ v ∈ ((crew setup).settle c ((crew setup).resumed t operation ret next) effect).threads,
      v.id = id ∧ ∃ p batch, v.notes = .tick p ∧ outOf p.place = some batch ∧ item.relpath ∈ batch := by
  rcases called.origin u member with ⟨x, hx, _, same⟩ | ⟨new, hnew, _, same⟩
  · obtain ⟨holder, hholder, hid, p, batch, notes, out, listed⟩ :=
      sound.owned x hx id item now (same.trans spec)
    rcases called.tick_stays sound holder hholder p batch notes out with
      ⟨v, hv, still, after, holds, waits⟩ | ⟨caller, drained⟩
    · exact ⟨v, hv, still.trans hid, after, batch, holds, waits, listed⟩
    -- the tick went on, so this item cannot be one of its batch
    · have gone := List.all_eq_true.mp drained x.spec (List.mem_map_of_mem hx)
      rw [same.trans spec] at gone
      exact absurd (hid.symm.trans caller) (of_decide_eq_true gone)
  · have listed := (mem_spawn_from (crew setup) _ _ new hnew).1
    obtain ⟨_, items⟩ := called.started new.spec listed
    obtain ⟨p, items, at_, notes, _, learned, all⟩ := items (by rw [same, spec]; rfl)
    rw [all, same, spec] at listed
    obtain ⟨other, found, eq⟩ := List.mem_map.mp listed
    cases eq
    obtain ⟨v, hv, still⟩ := called.goes_on fun finished => by
      rw [learned] at finished
      rcases finished with place | place <;> cases place
    exact ⟨v, hv, still.id, _, _, still.notes.trans learned, rfl, List.mem_map_of_mem found⟩

theorem Called.single (called : Called setup c t operation ret effect next) (sound : Sound setup c)
    (ledger : Ledger) (booked : Booked ledger c) (u v : Hand)
    (hu : u ∈ ((crew setup).settle c ((crew setup).resumed t operation ret next) effect).threads)
    (hv : v ∈ ((crew setup).settle c ((crew setup).resumed t operation ret next) effect).threads)
    (id : Nat) (item : WorkItem) (now : Int) (other : WorkItem) (later : Int)
    (spec_u : u.spec = .item id item now) (spec_v : v.spec = .item id other later)
    (same : item.relpath = other.relpath) : u.id = v.id := by
  -- a tick that starts a batch has no other out
  have apart : ∀ x ∈ c.threads, ∀ (old : WorkItem) (at_ : Int), x.spec = .item id old at_ →
      ∀ new ∈ (crew setup).spawnFrom c.next effect.spawned, ∀ (started : WorkItem) (at_ : Int),
        new.spec ≠ .item id started at_ := by
    intro x hx old at_ spec new hnew started later fresh
    obtain ⟨holder, hholder, hid, p, batch, notes, out, _⟩ := sound.owned x hx id old at_ spec
    have listed := (mem_spawn_from (crew setup) _ _ new hnew).1
    obtain ⟨q, items, first, mine, place, _, all⟩ :=
      (called.started new.spec listed).2 (by rw [fresh]; rfl)
    rw [all, fresh] at listed
    obtain ⟨_, _, eq⟩ := List.mem_map.mp listed
    cases eq
    obtain rfl := eq_of_same_id c sound.distinct holder t hholder called.member hid
    rw [mine] at notes
    cases notes
    rw [place] at out
    cases out
  rcases called.origin u hu with ⟨x, hx, hid, spec⟩ | ⟨x, hx, hid, spec⟩
  · rcases called.origin v hv with ⟨y, hy, hid', spec'⟩ | ⟨y, hy, hid', spec'⟩
    · rw [← hid, ← hid']
      exact sound.single x hx y hy id item now other later (spec.trans spec_u) (spec'.trans spec_v) same
    · exact absurd (spec'.trans spec_v) (apart x hx item now (spec.trans spec_u) y hy other later)
  · rcases called.origin v hv with ⟨y, hy, hid', spec'⟩ | ⟨y, hy, hid', spec'⟩
    · exact absurd (spec.trans spec_u) (apart y hy other later (spec'.trans spec_v) x hx item now)
    · obtain ⟨p, items, at_, notes, place, _, all⟩ :=
        (called.started x.spec (mem_spawn_from (crew setup) _ _ x hx).1).2 (by rw [spec, spec_u]; rfl)
      have fit := sound.kinds t called.member
      rw [notes] at fit
      obtain ⟨_, _, _, _, tick⟩ := spec_of_tick t.spec p fit
      obtain ⟨_, _, balanced⟩ := booked.books t called.member p _ _ _ _ notes tick (by rw [place]; rfl)
      have different := (balanced.held (items.map WorkItem.relpath) (by rw [place]; rfl)).1
      have key : ((effect.spawned).map relpathOf).Nodup := by
        rw [all, List.map_map]
        have same : items.map (relpathOf ∘ fun item => Spec.item t.id item at_) =
            (items.map WorkItem.relpath).map some := by
          rw [List.map_map]
          rfl
        rw [same]
        exact different.map (Option.some_injective _)
      rw [← hid, ← hid', spawned_same (crew setup) relpathOf c.next effect.spawned key x y hx hy (by
        rw [spec, spec', spec_u, spec_v]
        exact congrArg some same)]

theorem Called.steady (called : Called setup c t operation ret effect next)
    (other : isClaim operation = false)
    (quiet : ∀ relpath state, stateOf operation = some (relpath, state) →
      state ≠ .ready ∧ notReady c.state.store relpath) : Steady c.state.store effect.state.store := by
  cases called.did with
  | statement operation =>
      refine steady_call c.state.store operation (fun limit later claims => ?_)
        (fun relpath bytes now persists => ?_) quiet
      · subst claims
        cases other
      · subst persists
        exact no_progress t.notes relpath bytes now called.may
  | undelivered item label resume left error after stored =>
      rcases stored with rfl | ⟨bytes, _, rfl⟩
      · exact steady_of_same _ _ rfl rfl rfl
      · exact steady_of_same _ _ rfl rfl rfl
  | _ => exact steady_refl _

theorem claim_of_tick (operation : Op) (other : ofTick operation = false) :
    isClaim operation = false := by
  cases operation with
  | store operation => cases operation <;> first | rfl | cases other
  | _ => rfl

theorem Called.steady_for (called : Called setup c t operation ret effect next)
    (sound : Sound setup c) (ledger : Ledger) (booked : Booked ledger c) (v : Hand)
    (member : v ∈ c.threads) (p : Progress) (notes : v.notes = .tick p)
    (is : busy p.place = true) (apart : v.id ≠ t.id) :
    isClaim operation = false ∧ Steady c.state.store effect.state.store := by
  have fit_v := sound.kinds v member
  rw [notes] at fit_v
  obtain ⟨now, ignoreWindow, redriveCleanup, fuel, tick⟩ := spec_of_tick v.spec p fit_v
  have inside_v : isInside v.notes = true := by
    rw [notes]
    exact inside_of_busy p.place is
  have fit := sound.kinds t called.member
  have may := called.may
  cases mine : t.notes with
  | recover =>
      rw [mine] at fit
      -- no tick runs beside the startup recovery
      have recovers : isRecover t.spec = true := by
        cases spec : t.spec <;> rw [spec] at fit <;> first | rfl | cases fit
      have quiet := sound.calm t called.member recovers v member
      rw [tick] at quiet
      cases quiet
  | item own =>
      rw [mine] at fit may
      refine ⟨claim_of_tick operation may.1, called.steady (claim_of_tick operation may.1) ?_⟩
      -- its row is in the batch that is out, and no row of a batch is ready
      intro relpath state puts
      obtain ⟨rfl, leaves⟩ := may.2 relpath state puts
      refine ⟨leaves, ?_⟩
      cases spec : t.spec with
      | item id item at_ =>
          rw [spec] at fit
          have named : relpath = item.relpath := of_decide_eq_true fit
          obtain ⟨holder, hholder, _, q, batch, holds, out, listed⟩ :=
            sound.owned t called.member id item at_ spec
          have inside_holder : isInside holder.notes = true := by
            rw [holds]
            exact inside_of_out q.place batch out
          obtain rfl := eq_of_same_id c sound.distinct holder v hholder member
            (sound.exclusive.one holder hholder v member inside_holder inside_v)
          rw [notes] at holds
          cases holds
          obtain ⟨_, _, balanced⟩ := booked.books holder member p _ _ _ _ notes tick is
          rw [named]
          exact (balanced.held batch (batch_of_out p.place batch out).1).2 item.relpath listed
      | _ =>
          rw [spec] at fit
          cases fit
  | aside =>
      rw [mine] at may
      refine ⟨claim_of_tick operation may.1, called.steady (claim_of_tick operation may.1) ?_⟩
      intro relpath state puts
      rw [may.2] at puts
      cases puts
  | tick q =>
      rw [mine] at may
      -- another tick has not got the lock, and only takes it
      have outside : q.place.inside = false := by
        cases also : q.place.inside with
        | false => rfl
        | true =>
            have inside_t : isInside t.notes = true := by
              rw [mine]
              exact also
            exact absurd (sound.exclusive.one v member t called.member inside_v inside_t) apart
      by_cases locks : operation = .lockTick
      · subst locks
        exact ⟨rfl, called.steady rfl fun _ _ puts => by cases puts⟩
      · obtain rfl := outside_calls q operation may outside locks
        exact ⟨rfl, called.steady rfl fun _ _ puts => by cases puts⟩

theorem busy_calls (p : Progress) (operation : Op) (may : allowedTick p operation)
    (is : busy p.place = true) (other : isClaim operation = false) : stateOf operation = none := by
  cases own : ofTick operation with
  | false =>
      cases changes : stateOf operation with
      | none => rfl
      | some change =>
          have quiet := (plain_of_allowed p operation may own).2 change changes
          rw [quiet_of_busy p.place is] at quiet
          cases quiet
  | true =>
      cases operation with
      | store operation =>
          cases operation with
          | claimReady limit now => cases other
          | setBytesDone relpath bytes now => exact may.elim
          | _ => cases own
      | _ => rfl

theorem balanced_steady (store after : Store) (p q : Progress) (fuel : Nat) (d : Drain)
    (steady : Steady store after) (now : q.now = p.now) (rounds : q.rounds = p.rounds)
    (batch : ∀ batch, batchOf q.place = some batch → batchOf p.place = some batch)
    (balanced : Balanced store p fuel d) : Balanced after q fuel d := by
  constructor
  case slips =>
    rw [now, steady.rows]
    exact balanced.slips
  case full => exact balanced.full
  case spent =>
    rw [rounds]
    exact balanced.spent
  case held =>
    intro names holds
    obtain ⟨different, unready⟩ := balanced.held names (batch names holds)
    exact ⟨different, fun relpath member => steady.ready relpath (unready relpath member)⟩

/-! ### The books -/

theorem heed_other (t : Hand) (operation : Op) (answer : Answer) (c after : Crew) (ledger : Ledger)
    (other : isClaim operation = false) : heed t operation answer c after ledger = ledger := by
  unfold heed
  split
  · cases other
  · rfl

theorem heed_apart (t : Hand) (operation : Op) (answer : Answer) (c after : Crew) (ledger : Ledger)
    (id : Nat) (apart : id ≠ t.id) : heed t operation answer c after ledger id = ledger id := by
  unfold heed
  split
  · exact if_neg apart
  · rfl

theorem length_le_flatten {α : Type} (batches : List (List α)) (full : ∀ batch ∈ batches, batch ≠ []) :
    batches.length ≤ batches.flatten.length := by
  induction batches with
  | nil => exact Nat.le_refl _
  | cons batch rest ih =>
      have first : 0 < batch.length := List.length_pos_iff.mpr (full batch List.mem_cons_self)
      have later := ih fun b member => full b (List.mem_cons_of_mem _ member)
      rw [List.flatten_cons, List.length_cons, List.length_append]
      omega

section Claim

variable (store : Store) (limit : Nat) (p : Progress)

theorem rows_left (keyed : Keyed store) : ((store.claimReady limit p.now).1.map slip) ++
    ((store.claimReady limit p.now).2.select (eligible p.now)).map slip =
      (store.select (eligible p.now)).map slip := by
  rw [claimed_slips, select_claim store keyed, ← List.map_append, List.take_append_drop]

theorem order_first (keyed : Keyed store) :
    InOrder ⟨store.select (eligible p.now), [(store.claimReady limit p.now).1]⟩ := by
  constructor
  case sorted => exact select_sorted store _
  case different => exact select_nodup store keyed _
  case first =>
    show [(store.claimReady limit p.now).1].flatten.map slip <+: _
    rw [List.flatten_singleton, ← rows_left store limit p keyed]
    exact List.prefix_append _ _
  case rounds => exact Nat.succ_le_succ (Nat.zero_le _)

theorem order_next (keyed : Keyed store) (fuel : Nat) (d : Drain) (ordered : InOrder d)
    (balanced : Balanced store p fuel d) :
    InOrder { d with claims := d.claims ++ [(store.claimReady limit p.now).1] } := by
  have slips := balanced.slips
  rw [← rows_left store limit p keyed, ← List.append_assoc] at slips
  constructor
  case sorted => exact ordered.sorted
  case different => exact ordered.different
  case first =>
    show (d.claims ++ [(store.claimReady limit p.now).1]).flatten.map slip <+: d.backlog.map slip
    rw [List.flatten_append, List.flatten_singleton, List.map_append, ← slips]
    exact List.prefix_append _ _
  case rounds =>
    have claims := length_le_flatten d.claims balanced.full
    have all := congrArg List.length balanced.slips
    rw [List.length_append, List.length_map, List.length_map, List.length_map] at all
    show (d.claims ++ [(store.claimReady limit p.now).1]).length ≤ d.backlog.length + 1
    rw [List.length_append, List.length_singleton]
    omega

theorem held_claim (keyed : Keyed store) (batch : List String)
    (holds : batchOf (learnClaim p (store.claimReady limit p.now).1).place = some batch) :
    batch.Nodup ∧ ∀ relpath ∈ batch, notReady (store.claimReady limit p.now).2 relpath := by
  have named : batch = (store.claimReady limit p.now).1.map WorkItem.relpath := by
    cases rows : (store.claimReady limit p.now).1 with
    | nil =>
        rw [rows] at holds
        cases holds
    | cons it rest =>
        rw [rows] at holds
        exact (Option.some.inj holds).symm
  rw [named]
  exact ⟨claim_nodup store keyed limit p.now, claimed_not_ready store limit p.now⟩

theorem rows_of_busy (rows : List WorkItem) (is : busy (learnClaim p rows).place = true) :
    rows ≠ [] ∧ (learnClaim p rows).rounds = p.rounds - 1 := by
  cases rows with
  | nil => cases is
  | cons it rest => exact ⟨List.cons_ne_nil _ _, rfl⟩

theorem balanced_first (keyed : Keyed store)
    (is : busy (learnClaim p (store.claimReady limit p.now).1).place = true)
    (some_left : 0 < p.rounds) :
    Balanced (store.claimReady limit p.now).2 (learnClaim p (store.claimReady limit p.now).1) p.rounds
      ⟨store.select (eligible p.now), [(store.claimReady limit p.now).1]⟩ := by
  obtain ⟨full, rounds⟩ := rows_of_busy p _ is
  have now : (learnClaim p (store.claimReady limit p.now).1).now = p.now :=
    learn_now p (.store (.claimReady limit p.now)) (.ok (store.claimReady limit p.now).1)
  constructor
  case slips =>
    rw [now]
    show [(store.claimReady limit p.now).1].flatten.map slip ++ _ = _
    rw [List.flatten_singleton]
    exact rows_left store limit p keyed
  case full =>
    intro batch member
    obtain rfl := List.mem_singleton.mp member
    exact full
  case spent =>
    rw [rounds]
    show 1 + (p.rounds - 1) = p.rounds
    omega
  case held => exact held_claim store limit p keyed

theorem balanced_next (keyed : Keyed store) (fuel : Nat) (d : Drain)
    (is : busy (learnClaim p (store.claimReady limit p.now).1).place = true)
    (some_left : 0 < p.rounds) (balanced : Balanced store p fuel d) :
    Balanced (store.claimReady limit p.now).2 (learnClaim p (store.claimReady limit p.now).1) fuel
      { d with claims := d.claims ++ [(store.claimReady limit p.now).1] } := by
  obtain ⟨full, rounds⟩ := rows_of_busy p _ is
  have now : (learnClaim p (store.claimReady limit p.now).1).now = p.now :=
    learn_now p (.store (.claimReady limit p.now)) (.ok (store.claimReady limit p.now).1)
  constructor
  case slips =>
    rw [now]
    show (d.claims ++ [(store.claimReady limit p.now).1]).flatten.map slip ++ _ = d.backlog.map slip
    rw [List.flatten_append, List.flatten_singleton, List.map_append, List.append_assoc,
      rows_left store limit p keyed]
    exact balanced.slips
  case full =>
    intro batch member
    rcases List.mem_append.mp member with old | new
    · exact balanced.full batch old
    · obtain rfl := List.mem_singleton.mp new
      exact full
  case spent =>
    have spent := balanced.spent
    rw [rounds]
    show (d.claims ++ [(store.claimReady limit p.now).1]).length + (p.rounds - 1) = fuel
    rw [List.length_append, List.length_singleton]
    omega
  case held => exact held_claim store limit p keyed

end Claim

theorem tick_of_claim (n : Notes) (operation : Op) (may : allowed n operation)
    (claims : isClaim operation = true) :
    ∃ p limit, n = .tick p ∧ operation = .store (.claimReady limit p.now) ∧
      p.place.between = true ∧ 0 < p.rounds := by
  cases operation with
  | store operation =>
      cases operation with
      | claimReady limit now =>
          cases n with
          | tick p =>
              obtain ⟨rfl, between, some_left⟩ := may
              exact ⟨p, limit, rfl, rfl, between, some_left⟩
          | recover => cases may
          | item own => cases may.1
          | aside => cases may.1
      | _ => cases claims
  | _ => cases claims

theorem claim_books (sound : Sound setup c) (ledger : Ledger) (booked : Booked ledger c)
    (member : t ∈ c.threads) (p : Progress) (notes : t.notes = .tick p) (now : Int)
    (ignoreWindow redriveCleanup : Bool) (fuel : Nat)
    (tick : t.spec = .tick now ignoreWindow redriveCleanup fuel) (limit : Nat)
    (between : p.place.between = true) (some_left : 0 < p.rounds) (d : Drain)
    (books : d = noted (c.state.store.select (eligible p.now))
      (c.state.store.claimReady limit p.now).1 (ledger t.id)) :
    InOrder d ∧ (busy (learnClaim p (c.state.store.claimReady limit p.now).1).place = true →
      Balanced (c.state.store.claimReady limit p.now).2
        (learnClaim p (c.state.store.claimReady limit p.now).1) fuel d) := by
  cases early : isEarly p.place with
  | true =>
      -- the backlog of a drain is what its first claim finds
      rw [booked.early t member p notes early] at books
      rw [← booked.whole t member p _ _ _ _ notes tick early, books]
      exact ⟨order_first c.state.store limit p sound.keyed, fun is =>
        balanced_first c.state.store limit p sound.keyed is some_left⟩
  | false =>
      have is : busy p.place = true := by
        cases place : p.place with
        | draining => rfl
        | preparing =>
            rw [place] at early
            cases early
        | _ =>
            rw [place] at between
            cases between
      obtain ⟨before, found, balanced⟩ := booked.books t member p _ _ _ _ notes tick is
      rw [found] at books
      rw [books]
      exact ⟨order_next c.state.store limit p sound.keyed fuel before (booked.ordered t.id before found)
        balanced, fun is => balanced_next c.state.store limit p sound.keyed fuel before is some_left
          balanced⟩

theorem tick_of_learn (n : Notes) (operation : Op) (ret : Ret operation) (q : Progress)
    (learned : learn n operation ret = .tick q) : ∃ p, n = .tick p ∧ q = learnTick p operation ret := by
  cases n with
  | tick p => exact ⟨p, rfl, (Notes.tick.inj learned).symm⟩
  | _ => cases learned

theorem Called.books (called : Called setup c t operation ret effect next) (sound : Sound setup c)
    (ledger : Ledger) (booked : Booked ledger c) (answer : Answer) (after : Crew)
    (performed : perform setup c.state t (Machine.live c) operation answer = some (ret, effect))
    (p : Progress) (notes : t.notes = .tick p) (now : Int) (ignoreWindow redriveCleanup : Bool)
    (fuel : Nat) (tick : t.spec = .tick now ignoreWindow redriveCleanup fuel)
    (is : busy (learnTick p operation ret).place = true) :
    ∃ d, heed t operation answer c after ledger t.id = some d ∧
      Balanced effect.state.store (learnTick p operation ret) fuel d := by
  have may := called.may
  rw [notes] at may
  cases claims : isClaim operation with
  | false =>
      -- between two claims the rest of the backlog stays as it is
      obtain ⟨was, batch⟩ := learn_batch p operation ret may claims is
      obtain ⟨d, found, balanced⟩ := booked.books t called.member p _ _ _ _ notes tick was
      have steady := called.steady claims fun relpath state puts => by
        rw [busy_calls p operation may was claims] at puts
        cases puts
      rw [heed_other t operation answer c after ledger claims]
      exact ⟨d, found, balanced_steady _ _ p _ fuel d steady (learn_now p operation ret)
        (learn_rounds p operation ret claims) batch balanced⟩
  | true =>
      obtain ⟨q, limit, same, rfl, between, some_left⟩ := tick_of_claim (.tick p) operation may claims
      cases same
      cases answer with
      | asIs =>
          cases performed
          have both := claim_books sound ledger booked called.member p notes now ignoreWindow
            redriveCleanup fuel tick limit between some_left _ rfl
          exact ⟨_, if_pos rfl, both.2 is⟩
      | refused text =>
          cases performed
          cases is
      | _ => cases performed

theorem Called.booked (called : Called setup c t operation ret effect next) (sound : Sound setup c)
    (ledger : Ledger) (booked : Booked ledger c) (answer : Answer)
    (performed : perform setup c.state t (Machine.live c) operation answer = some (ret, effect)) :
    Booked (heed t operation answer c
        ((crew setup).settle c ((crew setup).resumed t operation ret next) effect) ledger)
      ((crew setup).settle c ((crew setup).resumed t operation ret next) effect) := by
  obtain ⟨after, here⟩ : ∃ after,
      after = (crew setup).settle c ((crew setup).resumed t operation ret next) effect := ⟨_, rfl⟩
  have below := sound.distinct.below t called.member
  have unwritten : ∀ id, c.next ≤ id → heed t operation answer c after ledger id = none := by
    intro id beyond
    rw [heed_apart t operation answer c after ledger id (by omega)]
    exact booked.fresh id beyond
  rw [← here]
  constructor
  case fresh =>
    intro id beyond
    apply unwritten
    rw [here] at beyond
    exact Nat.le_trans (Nat.le_add_right _ _) beyond
  case early =>
    intro u hu q notes early
    rw [here] at hu
    rcases mem_settle (crew setup) c _ u effect hu with ⟨same, _⟩ | ⟨x, hx, other, same, _⟩ |
      ⟨new, hnew, same⟩
    · obtain ⟨p, mine, rfl⟩ := tick_of_learn t.notes operation ret q (same.notes.symm.trans notes)
      have may := called.may
      rw [mine] at may
      obtain ⟨was, unclaimed, _⟩ := learn_early p operation ret may early
      rw [heed_other t operation answer c after ledger unclaimed, same.id]
      exact booked.early t called.member p mine was
    · rw [same.id, heed_apart t operation answer c after ledger x.id other]
      exact booked.early x hx q (same.notes.symm.trans notes) early
    · rw [same.id]
      exact unwritten new.id (mem_spawn_from (crew setup) _ _ new hnew).2.1
  case whole =>
    intro u hu q now ignoreWindow redriveCleanup fuel notes spec early
    rw [here] at hu
    rcases mem_settle (crew setup) c _ u effect hu with ⟨same, _⟩ | ⟨x, hx, other, same, _⟩ |
      ⟨new, hnew, same⟩
    · obtain ⟨p, mine, rfl⟩ := tick_of_learn t.notes operation ret q (same.notes.symm.trans notes)
      have may := called.may
      rw [mine] at may
      obtain ⟨was, _, rounds⟩ := learn_early p operation ret may early
      rw [rounds]
      exact booked.whole t called.member p _ _ _ _ mine (same.spec.symm.trans spec) was
    · exact booked.whole x hx q _ _ _ _ (same.notes.symm.trans notes) (same.spec.symm.trans spec) early
    · obtain ⟨_, _, _, _, started, _⟩ := mem_spawn_from (crew setup) _ _ new hnew
      rw [same.spec] at spec
      rw [same.notes, started, spec] at notes
      cases notes
      rfl
  case books =>
    intro u hu q now ignoreWindow redriveCleanup fuel notes spec is
    rw [here] at hu
    rcases mem_settle (crew setup) c _ u effect hu with ⟨same, _⟩ | ⟨x, hx, other, same, _⟩ |
      ⟨new, hnew, same⟩
    · obtain ⟨p, mine, rfl⟩ := tick_of_learn t.notes operation ret q (same.notes.symm.trans notes)
      rw [same.id, here]
      exact called.books sound ledger booked answer _ performed p mine now ignoreWindow redriveCleanup
        fuel (same.spec.symm.trans spec) is
    · have mine := same.notes.symm.trans notes
      obtain ⟨_, steady⟩ := called.steady_for sound ledger booked x hx q mine is other
      obtain ⟨d, found, balanced⟩ :=
        booked.books x hx q _ _ _ _ mine (same.spec.symm.trans spec) is
      rw [same.id, heed_apart t operation answer c after ledger x.id other, here]
      exact ⟨d, found, balanced_steady _ _ q q fuel d steady rfl rfl (fun _ => id) balanced⟩
    · obtain ⟨_, _, _, _, started, _⟩ := mem_spawn_from (crew setup) _ _ new hnew
      rw [same.spec] at spec
      rw [same.notes, started, spec] at notes
      cases notes
      cases is
  case ordered =>
    intro id d found
    cases claims : isClaim operation with
    | false =>
        rw [heed_other t operation answer c after ledger claims] at found
        exact booked.ordered id d found
    | true =>
        by_cases own : id = t.id
        · obtain ⟨p, limit, notes, rfl, between, some_left⟩ :=
            tick_of_claim t.notes operation called.may claims
          have fit := sound.kinds t called.member
          rw [notes] at fit
          obtain ⟨now, ignoreWindow, redriveCleanup, fuel, tick⟩ := spec_of_tick t.spec p fit
          cases answer with
          | asIs =>
              change (if id = t.id then _ else _) = some d at found
              rw [if_pos own, own] at found
              exact (claim_books sound ledger booked called.member p notes now ignoreWindow
                redriveCleanup fuel tick limit between some_left d (Option.some.inj found).symm).1
          | refused text => exact booked.ordered id d found
          | _ => cases performed
        · rw [heed_apart t operation answer c after ledger id own] at found
          exact booked.ordered id d found

end Call

theorem sound_settle (c : Crew) (sound : Sound setup c) (ledger : Ledger) (booked : Booked ledger c)
    (t : Hand) (operation : Op) (ret : Ret operation) (effect : Effect World Spec)
    (next : Ret operation → Program Unit) (choice : Choice Answer Event)
    (calls : Calls (crew setup) c t operation ret effect next choice)
    (called : Called setup c t operation ret effect next) (possible : Drains.possible operation ret) :
    Sound setup ((crew setup).settle c ((crew setup).resumed t operation ret next) effect) := by
  constructor
  case distinct => exact distinct_settle (crew setup) c _ effect sound.distinct
  case orderly =>
    exact orderly_settle (crew setup) c t operation ret effect next choice calls sound.orderly possible
      fun spec _ => main_keeps setup spec
  case keyed =>
    exact did_store setup Keyed (fun store operation keyed => keyed_call store keyed operation)
      (fun _ _ _ _ keyed => ⟨keyed.nodup, keyed.listed⟩) (retold t) _ c.state operation ret effect
      called.did sound.keyed
  case exclusive =>
    exact exclusive_settle (tickLock setup) c t operation ret effect next choice calls sound.orderly
      sound.exclusive
  case kinds => exact called.kinds sound
  case free => exact called.free sound
  case calm => exact called.calm sound
  case down =>
    intro down
    have was : c.state.up = false := by
      rw [← did_up setup _ _ _ _ _ _ called.did]
      exact down
    have member := called.member
    rw [sound.down was] at member
    cases member
  case owned => exact called.owned sound
  case single =>
    intro u hu v hv id item now other later spec_u spec_v same
    exact called.single sound ledger booked u v hu hv id item now other later spec_u spec_v same

end FileReplicator.DrainCalls
