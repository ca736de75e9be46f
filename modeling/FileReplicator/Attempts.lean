import Mathlib.Data.List.Basic

/-!
# A log of attempts with a budget

The attempts at one thing, the newest first: when each began, what came of it, and
until when the next one is to wait. A next one is begun only after a failure that may
be tried again, while the budget lasts, and not before that time.
-/

namespace FileReplicator.Attempts

variable {Key Outcome : Type}

structure Try (Key Outcome : Type) where
  key : Key
  clock : Int
  outcome : Option Outcome
  gate : Option Int
  deriving DecidableEq

/-! ## What is written down -/

def enter (key : Key) (clock : Int) (tries : List (Try Key Outcome)) : List (Try Key Outcome) :=
  ⟨key, clock, none, none⟩ :: tries

/-- What came of the newest one, if this is it. -/
def hear [DecidableEq Key] (key : Key) (outcome : Outcome) :
    List (Try Key Outcome) → List (Try Key Outcome)
  | [] => []
  | newest :: rest =>
      if newest.key = key then { newest with outcome := some outcome } :: rest else newest :: rest

def close (gate : Int) : List (Try Key Outcome) → List (Try Key Outcome)
  | [] => []
  | newest :: rest => { newest with gate := some gate } :: rest

section Budget

variable (transient : Outcome → Prop) (limit : Nat)

/-- It failed in a way that may be tried again, from its gate on. -/
def Reopened (last : Try Key Outcome) (clock : Int) : Prop :=
  ∃ outcome gate, last.outcome = some outcome ∧ transient outcome ∧ last.gate = some gate ∧
    gate ≤ clock

/-- Each attempt but the first came when the one before had been reopened. -/
def Chained : List (Try Key Outcome) → Prop
  | [] => True
  | newest :: rest => (∀ last ∈ rest.head?, Reopened transient last newest.clock) ∧ Chained rest

structure Budgeted (tries : List (Try Key Outcome)) : Prop where
  chained : Chained transient tries
  bounded : tries.length ≤ limit

/-- The next attempt may begin, after `count` others. -/
structure Ready (tries : List (Try Key Outcome)) (count : Nat) (clock : Int) : Prop where
  counted : tries.length = count
  left : count < limit
  reopened : ∀ last ∈ tries.head?, Reopened transient last clock

/-- An attempt is under way after `count` others, or its outcome is known. -/
structure Going (tries : List (Try Key Outcome)) (count : Nat) (key : Key)
    (outcome : Option Outcome) : Prop where
  counted : tries.length = count + 1
  newest : ∃ clock, tries.head? = some ⟨key, clock, outcome, none⟩

/-- The last attempt has come to this, and the next one waits for the gate. -/
structure Closed (tries : List (Try Key Outcome)) (count : Nat) (outcome : Outcome) (gate : Int) :
    Prop where
  counted : tries.length = count
  newest : ∃ last, tries.head? = some last ∧ last.outcome = some outcome ∧ last.gate = some gate

structure Final (tries : List (Try Key Outcome)) (outcome : Outcome) : Prop where
  newest : ∃ last, tries.head? = some last ∧ last.outcome = some outcome
  spent : ¬transient outcome ∨ limit ≤ tries.length

theorem ready_empty (clock : Int) (some_left : 0 < limit) :
    Ready transient limit ([] : List (Try Key Outcome)) 0 clock :=
  ⟨rfl, some_left, fun _ none => by cases none⟩

theorem not_ready_of_final (tries : List (Try Key Outcome)) (outcome : Outcome)
    (final : Final transient limit tries outcome) (count : Nat) (clock : Int) :
    ¬Ready transient limit tries count clock := by
  intro ready
  obtain ⟨last, newest, came⟩ := final.newest
  obtain ⟨other, _, known, again, _⟩ := ready.reopened last newest
  rw [came] at known
  cases known
  rcases final.spent with permanent | spent
  · exact permanent again
  · have left := ready.left
    rw [← ready.counted] at left
    omega

/-! ## One entry more -/

theorem going_enter (tries : List (Try Key Outcome)) (count : Nat) (clock : Int) (key : Key)
    (ready : Ready transient limit tries count clock) : Going (enter key clock tries) count key none :=
  ⟨congrArg Nat.succ ready.counted, clock, rfl⟩

theorem budgeted_enter (tries : List (Try Key Outcome)) (count : Nat) (clock : Int) (key : Key)
    (budgeted : Budgeted transient limit tries) (ready : Ready transient limit tries count clock) :
    Budgeted transient limit (enter key clock tries) := by
  constructor
  · exact ⟨ready.reopened, budgeted.chained⟩
  · have left := ready.left
    rw [← ready.counted] at left
    exact left

variable [DecidableEq Key]

theorem hear_other (tries : List (Try Key Outcome)) (key : Key) (outcome : Outcome)
    (other : ∀ newest ∈ tries.head?, newest.key ≠ key) : hear key outcome tries = tries := by
  cases tries with
  | nil => rfl
  | cons newest rest => exact if_neg (other newest rfl)

theorem going_hear (tries : List (Try Key Outcome)) (count : Nat) (key : Key) (outcome : Outcome)
    (before : Option Outcome) (going : Going tries count key before) :
    Going (hear key outcome tries) count key (some outcome) := by
  obtain ⟨clock, newest⟩ := going.newest
  cases tries with
  | nil => cases newest
  | cons head rest =>
      cases newest
      have heard : hear key outcome (⟨key, clock, before, none⟩ :: rest) =
          ⟨key, clock, some outcome, none⟩ :: rest := if_pos rfl
      rw [heard]
      exact ⟨going.counted, clock, rfl⟩

theorem budgeted_hear (tries : List (Try Key Outcome)) (key : Key) (outcome : Outcome)
    (budgeted : Budgeted transient limit tries) :
    Budgeted transient limit (hear key outcome tries) := by
  cases tries with
  | nil => exact budgeted
  | cons newest rest =>
      show Budgeted transient limit (if newest.key = key then _ else _)
      by_cases its : newest.key = key
      · rw [if_pos its]
        exact ⟨budgeted.chained, budgeted.bounded⟩
      · rw [if_neg its]
        exact budgeted

omit [DecidableEq Key] in
theorem budgeted_close (tries : List (Try Key Outcome)) (gate : Int)
    (budgeted : Budgeted transient limit tries) : Budgeted transient limit (close gate tries) := by
  cases tries with
  | nil => exact budgeted
  | cons newest rest => exact ⟨budgeted.chained, budgeted.bounded⟩

omit [DecidableEq Key] in
theorem closed_close (tries : List (Try Key Outcome)) (count : Nat) (key : Key) (outcome : Outcome)
    (gate : Int) (going : Going tries count key (some outcome)) :
    Closed (close gate tries) (count + 1) outcome gate := by
  obtain ⟨clock, newest⟩ := going.newest
  cases tries with
  | nil => cases newest
  | cons head rest =>
      cases newest
      exact ⟨going.counted, _, rfl, rfl, rfl⟩

omit [DecidableEq Key] in
theorem final_close (tries : List (Try Key Outcome)) (gate : Int) (outcome : Outcome)
    (final : Final transient limit tries outcome) :
    (close gate tries).map Try.key = tries.map Try.key ∧
      Final transient limit (close gate tries) outcome := by
  obtain ⟨⟨last, newest, came⟩, spent⟩ := final
  cases tries with
  | nil => cases newest
  | cons head rest =>
      cases newest
      exact ⟨rfl, ⟨_, rfl, came⟩, spent⟩

omit [DecidableEq Key] in
theorem ready_closed (tries : List (Try Key Outcome)) (count : Nat) (outcome : Outcome) (gate clock : Int)
    (closed : Closed tries count outcome gate) (again : transient outcome) (left : count < limit)
    (passed : gate ≤ clock) : Ready transient limit tries count clock := by
  obtain ⟨last, newest, came, gated⟩ := closed.newest
  refine ⟨closed.counted, left, fun other found => ?_⟩
  rw [newest] at found
  cases found
  exact ⟨outcome, gate, came, again, gated, passed⟩

omit [DecidableEq Key] in
theorem only_of_first (tries : List (Try Key Outcome)) (chained : Chained transient tries)
    (first : Try Key Outcome) (oldest : tries.getLast? = some first) (outcome : Outcome)
    (came : first.outcome = some outcome) (permanent : ¬transient outcome) : tries.length = 1 := by
  -- what follows the oldest attempt would have to follow a failure that may be tried again
  induction tries with
  | nil => cases oldest
  | cons newest rest ih =>
      obtain ⟨reopened, earlier⟩ := chained
      cases rest with
      | nil => rfl
      | cons last others =>
          have again : (last :: others).length = 1 := ih earlier (by
            rw [List.getLast?_cons_cons] at oldest
            exact oldest)
          obtain rfl : others = [] := List.length_eq_zero_iff.mp (Nat.succ.inj again)
          obtain rfl : last = first := Option.some.inj oldest
          obtain ⟨other, _, known, fails, _⟩ := reopened last rfl
          rw [came] at known
          cases known
          exact absurd fails permanent

end Budget

end FileReplicator.Attempts
