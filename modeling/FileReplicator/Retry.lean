import Mathlib.Algebra.Group.Int.Defs
import Mathlib.Algebra.Group.Nat.Defs
import FileReplicator.Domain

/-!
# Retry decisions

When a failed attempt is tried again. The random draw of the backoff is an
argument; the machine integers are bounded as the code's are.
-/

namespace FileReplicator.Retry

open Domain

def maxU32 : Nat := 2 ^ 32 - 1

def maxU64 : Nat := 2 ^ 64 - 1

def maxI64 : Int := 2 ^ 63 - 1

def minI64 : Int := -2 ^ 63

/-- `saturating_add(1)` on a `u32`. -/
def nextAttempt (attempts : Nat) : Nat := min (attempts + 1) maxU32

/-- `saturating_add` on an `i64`. -/
def saturatingAdd (a b : Int) : Int := max minI64 (min maxI64 (a + b))

/-- `as i64` on a `u64`. -/
def asI64 (n : Nat) : Int := if n < 2 ^ 63 then n else n - 2 ^ 64

structure RetryPolicy where
  baseDelayMs : Nat
  maxDelayMs : Nat
  giveUpAfterMs : Option Int
  maxAttempts : Option Nat
  deriving DecidableEq

/-- `RetryPolicy::default()`. -/
def defaultPolicy : RetryPolicy where
  baseDelayMs := 1000
  maxDelayMs := 900000
  giveUpAfterMs := some (7 * 24 * 60 * 60 * 1000)
  maxAttempts := none

def defaultCleanupMaxAttempts : Nat := 10

/-- The gate of an item whose cleanup is not retried on its own. -/
def cleanupNoRetry : Int := maxI64

inductive RetryDecision where
  | retry (nextAttemptAt : Int)
  | giveUp
  deriving DecidableEq

namespace RetryPolicy

variable (policy : RetryPolicy)

/-- The largest delay that `backoff_ms` draws. -/
def backoffCap (attempts : Nat) : Nat :=
  let exp := min (policy.baseDelayMs * 2 ^ min (attempts - 1) 32) maxU64
  max (min exp policy.maxDelayMs) 1

/-- `backoff_ms`, for a draw between 0 and the cap. -/
def backoffMs (attempts draw : Nat) : Nat := min draw (policy.backoffCap attempts)

def decide (item : WorkItem) (permanent : Bool) (now : Int) (draw : Nat) : RetryDecision :=
  let attempts := nextAttempt item.attempts
  if permanent then .giveUp
  else if policy.maxAttempts.any fun cap => cap ≤ attempts then .giveUp
  else if policy.giveUpAfterMs.any fun budget =>
      budget ≤ saturatingAdd now (-item.discoveredAt) then .giveUp
  else .retry (saturatingAdd now (asI64 (policy.backoffMs attempts draw)))

/-- `decide_cleanup`: the attempts of the completion action have a budget of their own. -/
def decideCleanup (permanent : Bool) (attemptsSoFar : Nat) (now : Int) (draw : Nat) :
    RetryDecision :=
  let attempts := nextAttempt attemptsSoFar
  if permanent then .giveUp
  else if policy.maxAttempts.getD defaultCleanupMaxAttempts ≤ attempts then .giveUp
  else .retry (saturatingAdd now (asI64 (policy.backoffMs attempts draw)))

end RetryPolicy

end FileReplicator.Retry
