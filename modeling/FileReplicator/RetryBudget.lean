import FileReplicator.DurationText

/-!
# Retry budgets

A policy from the configuration, and what its decisions are worth when the time
budget and the delays are any that the configuration may hold. A budget or a
delay of `2 ^ 63` milliseconds does not fit the `i64` it is cast to.
-/

namespace FileReplicator.RetryBudget

open Domain Retry DurationText

structure RetryCfg where
  baseDelayMs : Option Nat
  maxDelayMs : Option Nat
  giveUpAfter : Option String
  maxAttempts : Option Nat
  deriving DecidableEq

/-- A field of the instance, or else the global one. -/
def field {α : Type} (inst shared : Option RetryCfg) (read : RetryCfg → Option α) : Option α :=
  (inst.bind read).orElse fun _ => shared.bind read

section Policy

variable (inst shared : Option RetryCfg)

def baseDelay : Nat := max ((field inst shared RetryCfg.baseDelayMs).getD defaultPolicy.baseDelayMs) 1

def maxDelay : Nat :=
  max ((field inst shared RetryCfg.maxDelayMs).getD defaultPolicy.maxDelayMs) (baseDelay inst shared)

def resolve : RetryPolicy where
  baseDelayMs := baseDelay inst shared
  maxDelayMs := maxDelay inst shared
  giveUpAfterMs :=
    match field inst shared RetryCfg.giveUpAfter with
    | some text =>
        match parseDurationMs text with
        | some ms => some (asI64 ms)
        | none => defaultPolicy.giveUpAfterMs
    | none => defaultPolicy.giveUpAfterMs
  maxAttempts := field inst shared RetryCfg.maxAttempts

/-! ## What a decision should be -/

def defaultGiveUpMs : Nat := 604800000

/-- The configured time budget, and the default one where there is none that can be read. -/
def giveUpMs : Nat := ((field inst shared RetryCfg.giveUpAfter).bind parseDurationMs).getD defaultGiveUpMs

end Policy

/-- The values of an `i64`. -/
def IsI64 (n : Int) : Prop := minI64 ≤ n ∧ n ≤ maxI64

instance (n : Int) : Decidable (IsI64 n) := inferInstanceAs (Decidable (_ ∧ _))

/-- The attempts, the clock and the draw of one decision, as large as the code's types allow. -/
structure Moment (policy : RetryPolicy) (item : WorkItem) (now : Int) (draw : Nat) : Prop where
  attempts : item.attempts ≤ maxU32
  capped : ∀ cap ∈ policy.maxAttempts, cap ≤ maxU32
  now : IsI64 now
  discovered : IsI64 item.discoveredAt
  drawn : draw ≤ policy.backoffCap (nextAttempt item.attempts)

/-- The item may not be tried again, whatever the time. -/
def SpentOut (maxAttempts : Option Nat) (item : WorkItem) (permanent : Bool) : Prop :=
  permanent = true ∨ ∃ cap ∈ maxAttempts, cap ≤ item.attempts + 1

/-- A decision is what the configuration says, in whole numbers. -/
structure Sound (inst shared : Option RetryCfg) (item : WorkItem) (permanent : Bool) (now : Int)
    (decision : RetryDecision) : Prop where
  givesUp : decision = .giveUp ↔
    SpentOut (field inst shared RetryCfg.maxAttempts) item permanent ∨
      (giveUpMs inst shared : Int) ≤ now - item.discoveredAt
  gated : ∀ gate, decision = .retry gate → now ≤ gate ∧
    gate ≤ now + min (baseDelay inst shared * 2 ^ item.attempts) (maxDelay inst shared)

theorem resolve_cap (inst shared : Option RetryCfg) (attempts : Nat) :
    (resolve inst shared).backoffCap (nextAttempt attempts) ≤
      min (baseDelay inst shared * 2 ^ attempts) (maxDelay inst shared) := by
  have positive : 1 ≤ baseDelay inst shared := Nat.le_max_right _ _
  have larger : baseDelay inst shared ≤ maxDelay inst shared := Nat.le_max_right _ _
  have shift : min (nextAttempt attempts - 1) 32 ≤ attempts := by
    unfold nextAttempt
    omega
  have exp : baseDelay inst shared * 2 ^ min (nextAttempt attempts - 1) 32 ≤
      baseDelay inst shared * 2 ^ attempts :=
    Nat.mul_le_mul_left _ (Nat.pow_le_pow_right (by decide) shift)
  have once : 1 ≤ baseDelay inst shared * 2 ^ attempts :=
    Nat.mul_pos positive (Nat.pow_pos (by decide))
  show max (min (min (baseDelay inst shared * 2 ^ min (nextAttempt attempts - 1) 32) maxU64)
    (maxDelay inst shared)) 1 ≤ _
  omega

theorem resolve_backoff (inst shared : Option RetryCfg) (attempts draw : Nat)
    (drawn : draw ≤ (resolve inst shared).backoffCap attempts) :
    (resolve inst shared).backoffMs attempts draw = draw :=
  Nat.min_eq_left drawn

/-! ## The budget -/

theorem give_up_le (inst shared : Option RetryCfg) : giveUpMs inst shared ≤ maxU64 := by
  unfold giveUpMs
  cases parsed : (field inst shared RetryCfg.giveUpAfter).bind parseDurationMs with
  | none => decide
  | some ms =>
      obtain ⟨text, _, read⟩ := Option.bind_eq_some_iff.mp parsed
      exact parse_duration_le text ms read

theorem resolve_budget (inst shared : Option RetryCfg) :
    (resolve inst shared).giveUpAfterMs = some (asI64 (giveUpMs inst shared)) := by
  unfold resolve giveUpMs
  cases field inst shared RetryCfg.giveUpAfter with
  | none => rfl
  | some text =>
      simp only [Option.bind_some]
      cases parseDurationMs text with
      | none => rfl
      | some ms => rfl

def isOver (budget now discoveredAt : Int) : Bool := budget ≤ saturatingAdd now (-discoveredAt)

theorem is_over_iff (budget now discoveredAt : Int) :
    isOver budget now discoveredAt = true ↔ budget ≤ saturatingAdd now (-discoveredAt) :=
  decide_eq_true_iff

/-- The cast budget is the configured one, or both are passed, or not even the cast one is. -/
def BudgetFits (inst shared : Option RetryCfg) (item : WorkItem) (now : Int) : Prop :=
  giveUpMs inst shared < 2 ^ 63 ∨ (giveUpMs inst shared : Int) ≤ now - item.discoveredAt ∨
    isOver (giveUpMs inst shared - 2 ^ 64) now item.discoveredAt = false

theorem over_iff (inst shared : Option RetryCfg) (item : WorkItem) (now : Int) :
    (isOver (asI64 (giveUpMs inst shared)) now item.discoveredAt = true ↔
        (giveUpMs inst shared : Int) ≤ now - item.discoveredAt) ↔ BudgetFits inst shared item now := by
  have bound := give_up_le inst shared
  unfold maxU64 at bound
  rw [BudgetFits, ← Bool.not_eq_true, is_over_iff, is_over_iff]
  unfold asI64 saturatingAdd minI64 maxI64
  split <;> omega

theorem over_of_passed (inst shared : Option RetryCfg) (item : WorkItem) (now : Int)
    (passed : (giveUpMs inst shared : Int) ≤ now - item.discoveredAt) :
    isOver (asI64 (giveUpMs inst shared)) now item.discoveredAt = true :=
  ((over_iff inst shared item now).mpr (Or.inr (Or.inl passed))).mpr passed

theorem next_attempt_reaches (attempts cap : Nat) (small : attempts ≤ maxU32) (capped : cap ≤ maxU32) :
    cap ≤ nextAttempt attempts ↔ cap ≤ attempts + 1 := by
  unfold nextAttempt
  omega

theorem decide_cases (inst shared : Option RetryCfg) (item : WorkItem) (permanent : Bool) (now : Int)
    (draw : Nat) (moment : Moment (resolve inst shared) item now draw) :
    (SpentOut (field inst shared RetryCfg.maxAttempts) item permanent ∧
        (resolve inst shared).decide item permanent now draw = .giveUp) ∨
      (¬SpentOut (field inst shared RetryCfg.maxAttempts) item permanent ∧
        ((isOver (asI64 (giveUpMs inst shared)) now item.discoveredAt = true ∧
            (resolve inst shared).decide item permanent now draw = .giveUp) ∨
          (isOver (asI64 (giveUpMs inst shared)) now item.discoveredAt = false ∧
            (resolve inst shared).decide item permanent now draw =
              .retry (saturatingAdd now (asI64 draw))))) := by
  have attempts : ((resolve inst shared).maxAttempts.any fun cap => cap ≤ nextAttempt item.attempts) =
      true ↔ ∃ cap ∈ field inst shared RetryCfg.maxAttempts, cap ≤ item.attempts + 1 := by
    rw [Option.any_eq_true]
    constructor
    · rintro ⟨cap, member, reached⟩
      exact ⟨cap, member, (next_attempt_reaches _ _ moment.attempts (moment.capped cap member)).mp
        (of_decide_eq_true reached)⟩
    · rintro ⟨cap, member, reached⟩
      exact ⟨cap, member, decide_eq_true
        ((next_attempt_reaches _ _ moment.attempts (moment.capped cap member)).mpr reached)⟩
  cases permanent with
  | true => exact Or.inl ⟨Or.inl rfl, rfl⟩
  | false =>
      simp only [RetryPolicy.decide, Bool.false_eq_true, if_false, resolve_budget, Option.any_some,
        resolve_backoff inst shared _ draw moment.drawn]
      split
      · rename_i reached
        exact Or.inl ⟨Or.inr (attempts.mp reached), rfl⟩
      · rename_i below
        refine Or.inr ⟨?_, ?_⟩
        · rintro (isPermanent | reached)
          · cases isPermanent
          · exact below (attempts.mpr reached)
        · cases tooLate : isOver (asI64 (giveUpMs inst shared)) now item.discoveredAt with
          | true => exact Or.inl ⟨rfl, if_pos tooLate⟩
          | false => exact Or.inr ⟨rfl, if_neg (Bool.eq_false_iff.mp tooLate)⟩

/-- The drawn delay fits an `i64`, or nothing is left to go back from. -/
def DelayFits (now : Int) (draw : Nat) : Prop := draw < 2 ^ 63 ∨ now = minI64

theorem gate_sound_iff (inst shared : Option RetryCfg) (item : WorkItem) (now : Int) (draw : Nat)
    (moment : Moment (resolve inst shared) item now draw) :
    (now ≤ saturatingAdd now (asI64 draw) ∧ saturatingAdd now (asI64 draw) ≤
        now + min (baseDelay inst shared * 2 ^ item.attempts) (maxDelay inst shared)) ↔
      DelayFits now draw := by
  have cap := resolve_cap inst shared item.attempts
  have drawn : draw ≤ min (baseDelay inst shared * 2 ^ item.attempts) (maxDelay inst shared) :=
    Nat.le_trans moment.drawn cap
  have bounds := moment.now
  have small : draw ≤ maxU64 := by
    have top : (resolve inst shared).backoffCap (nextAttempt item.attempts) ≤ max maxU64 1 :=
      Nat.max_le.mpr ⟨Nat.le_trans (Nat.le_trans (Nat.min_le_left _ _) (Nat.min_le_right _ _))
        (Nat.le_max_left _ _), Nat.le_max_right _ _⟩
    exact Nat.le_trans moment.drawn top
  unfold IsI64 minI64 maxI64 at bounds
  unfold maxU64 at small
  unfold DelayFits saturatingAdd asI64 minI64 maxI64
  omega

/-- A decision is what the configuration says exactly when the item may not be tried again in any
case, or the budget and, for an item within it, the drawn delay fit the integers they are cast to. -/
theorem decide_sound_iff (inst shared : Option RetryCfg) (item : WorkItem) (permanent : Bool)
    (now : Int) (draw : Nat) (moment : Moment (resolve inst shared) item now draw) :
    Sound inst shared item permanent now ((resolve inst shared).decide item permanent now draw) ↔
      SpentOut (field inst shared RetryCfg.maxAttempts) item permanent ∨
        (BudgetFits inst shared item now ∧
          ((giveUpMs inst shared : Int) ≤ now - item.discoveredAt ∨ DelayFits now draw)) := by
  have budget := over_iff inst shared item now
  rcases decide_cases inst shared item permanent now draw moment with
    ⟨spent, decided⟩ | ⟨open_, ⟨tooLate, decided⟩ | ⟨within, decided⟩⟩
  · refine ⟨fun _ => Or.inl spent, fun _ => ?_⟩
    rw [decided]
    exact ⟨⟨fun _ => Or.inl spent, fun _ => rfl⟩, fun _ retried => by cases retried⟩
  · rw [decided]
    constructor
    · rintro ⟨givesUp, _⟩
      have passed := (givesUp.mp rfl).resolve_left open_
      exact Or.inr ⟨Or.inr (Or.inl passed), Or.inl passed⟩
    · intro holds
      obtain ⟨fits, _⟩ := holds.resolve_left open_
      have passed := (budget.mpr fits).mp tooLate
      exact ⟨⟨fun _ => Or.inr passed, fun _ => rfl⟩, fun _ retried => by cases retried⟩
  · have notPassed : ¬(giveUpMs inst shared : Int) ≤ now - item.discoveredAt := by
      intro passed
      have tooLate := over_of_passed inst shared item now passed
      rw [within] at tooLate
      cases tooLate
    have fits : BudgetFits inst shared item now := by
      refine budget.mp ⟨fun tooLate => ?_, fun passed => absurd passed notPassed⟩
      rw [within] at tooLate
      cases tooLate
    rw [decided]
    constructor
    · rintro ⟨_, gated⟩
      exact Or.inr ⟨fits, Or.inr ((gate_sound_iff inst shared item now draw moment).mp
        (gated _ rfl))⟩
    · intro holds
      have delay := (holds.resolve_left open_).2.resolve_left notPassed
      refine ⟨⟨fun gaveUp => (by cases gaveUp), fun should => ?_⟩, fun gate retried => ?_⟩
      · exact absurd should (not_or.mpr ⟨open_, notPassed⟩)
      · cases retried
        exact (gate_sound_iff inst shared item now draw moment).mpr delay

/-- A first failure of an item found a second ago. -/
def freshItem : WorkItem where
  instanceId := "plant"
  relpath := "a"
  state := .inProgress
  size := 0
  discoveredAt := 0
  attempts := 0
  cleanupAttempts := 0
  nextAttemptAt := 0
  lastError := none
  bytesDone := 0
  updatedAt := 0

def withBudget (text : String) : Option RetryCfg :=
  some { baseDelayMs := none, maxDelayMs := none, giveUpAfter := some text, maxAttempts := none }

theorem fresh_moment (text : String) (draw : Nat)
    (drawn : draw ≤ (resolve (withBudget text) none).backoffCap 1) :
    Moment (resolve (withBudget text) none) freshItem 1000 draw :=
  ⟨by decide, fun _ capped => (by cases capped), by decide, by decide, drawn⟩

theorem decide_sound_week :
    Sound (withBudget "7d") none freshItem false 1000
      ((resolve (withBudget "7d") none).decide freshItem false 1000 500) :=
  (decide_sound_iff (withBudget "7d") none freshItem false 1000 500
    (fresh_moment "7d" 500 (by decide))).mpr
    (Or.inr ⟨Or.inl (by decide +kernel), Or.inr (Or.inl (by decide))⟩)

/-- A budget of half a billion years gives up at once. -/
theorem long_budget_gives_up :
    Moment (resolve (withBudget "200000000000d") none) freshItem 1000 500 ∧
      ¬Sound (withBudget "200000000000d") none freshItem false 1000
        ((resolve (withBudget "200000000000d") none).decide freshItem false 1000 500) := by
  refine ⟨fresh_moment "200000000000d" 500 (by decide), fun sound => ?_⟩
  have gaveUp : (resolve (withBudget "200000000000d") none).decide freshItem false 1000 500 = .giveUp := by
    decide +kernel
  rcases sound.givesUp.mp gaveUp with (isPermanent | ⟨cap, none, _⟩) | passed
  · cases isPermanent
  · cases none
  · have long : (1000 : Int) - freshItem.discoveredAt <
        giveUpMs (withBudget "200000000000d") Option.none := by decide +kernel
    omega

end FileReplicator.RetryBudget
