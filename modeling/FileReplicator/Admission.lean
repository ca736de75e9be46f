import Mathlib.Data.List.Basic
import Mathlib.Data.List.Sort
import Mathlib.Data.Prod.Lex
import Mathlib.Tactic.Linarith

/-!
# Priority-aware admission

The gate as a state machine. The mutex makes each locked section one step; what
happens outside it (a waiter is polled, a cancelled future drops its receiver and
later its ticket) are steps of their own. Each acquire that had to wait is known
by its key, in one of four lists by the state of its channel.
-/

namespace FileReplicator.Admission

/-- `(priority, seq)`, in the order of the map. -/
abbrev Key := Int ×ₗ Nat

def key (priority : Int) (seq : Nat) : Key := toLex (priority, seq)

def priorityOf (k : Key) : Int := (ofLex k).1

def seqOf (k : Key) : Nat := (ofLex k).2

structure Gate where
  permits : Nat
  nextSeq : Nat
  /-- The keys of the map, in its order. -/
  waiters : List Key
  guards : Nat
  /-- Suspended at `rx.await`; nothing was sent. -/
  waiting : List Key
  /-- A permit was sent, the future has not been polled since. -/
  granted : List Key
  /-- The receiver was dropped before anything was sent; the ticket is still to be dropped. -/
  cancelled : List Key
  /-- The receiver was dropped after a permit was sent; the ticket is still to be dropped. -/
  revoked : List Key
  deriving DecidableEq

namespace Gate

def new (permits : Nat) : Gate where
  permits := permits
  nextSeq := 0
  waiters := []
  guards := 0
  waiting := []
  granted := []
  cancelled := []
  revoked := []

/-- The loop of `release_one_locked`: who gets the permit, and who stays queued. A send succeeds
iff the receiver is still there. -/
def handOver (waiting : List Key) : List Key → Option (Key × List Key)
  | [] => none
  | k :: rest => if k ∈ waiting then some (k, rest) else handOver waiting rest

variable (gate : Gate)

def releaseOneLocked : Gate :=
  match handOver gate.waiting gate.waiters with
  | none => { gate with waiters := [], permits := gate.permits + 1 }
  | some (k, rest) =>
      { gate with
        waiters := rest
        waiting := gate.waiting.erase k
        granted := k :: gate.granted }

def enqueue (priority : Int) : Gate :=
  let k := key priority gate.nextSeq
  { gate with
    nextSeq := gate.nextSeq + 1
    waiters := gate.waiters.orderedInsert (· ≤ ·) k
    waiting := k :: gate.waiting }

/-- `acquire`, up to its return on the fast path or its suspension. -/
def acquire (priority : Int) : Gate :=
  if 0 < gate.permits ∧ gate.waiters = [] then
    { gate with permits := gate.permits - 1, guards := gate.guards + 1 }
  else gate.enqueue priority

/-- The future is polled, finds its permit and returns the guard. -/
def observe (k : Key) : Option Gate :=
  if k ∈ gate.granted then
    some { gate with granted := gate.granted.erase k, guards := gate.guards + 1 }
  else none

def dropGuard : Option Gate :=
  if 0 < gate.guards then some { gate with guards := gate.guards - 1 }.releaseOneLocked else none

/-- The first step of dropping a suspended future. -/
def dropReceiver (k : Key) : Option Gate :=
  if k ∈ gate.waiting then
    some { gate with waiting := gate.waiting.erase k, cancelled := k :: gate.cancelled }
  else if k ∈ gate.granted then
    some { gate with granted := gate.granted.erase k, revoked := k :: gate.revoked }
  else none

/-- `WaiterTicket::drop` of a ticket that was not granted, once its record is gone. -/
def dropUngranted (k : Key) : Gate :=
  if k ∈ gate.waiters then { gate with waiters := gate.waiters.erase k } else gate.releaseOneLocked

/-- The second step of dropping a suspended future. -/
def dropTicket (k : Key) : Option Gate :=
  if k ∈ gate.cancelled then
    some ({ gate with cancelled := gate.cancelled.erase k }.dropUngranted k)
  else if k ∈ gate.revoked then
    some ({ gate with revoked := gate.revoked.erase k }.dropUngranted k)
  else none

/-- Free permits, live guards, and permits sent but not observed. -/
def total : Nat :=
  gate.permits + gate.guards + (gate.granted.length + gate.revoked.length)

end Gate

inductive Action where
  | acquire (priority : Int)
  | observe (k : Key)
  | dropGuard
  | dropReceiver (k : Key)
  | dropTicket (k : Key)
  deriving DecidableEq

def step (gate : Gate) : Action → Option Gate
  | .acquire priority => some (gate.acquire priority)
  | .observe k => gate.observe k
  | .dropGuard => gate.dropGuard
  | .dropReceiver k => gate.dropReceiver k
  | .dropTicket k => gate.dropTicket k

def run (gate : Gate) : List Action → Option Gate
  | [] => some gate
  | action :: rest => (step gate action).bind fun after => run after rest

/-- The ticket of a waiter that a release took out of the queue after its receiver was gone. -/
def Skipped (gate : Gate) : Action → Prop
  | .dropTicket k => k ∈ gate.cancelled ∧ k ∉ gate.waiters
  | _ => False

instance (gate : Gate) (action : Action) : Decidable (Skipped gate action) := by
  cases action <;> simp only [Skipped] <;> infer_instance

/-- No ticket along the run is dropped after a release skipped its waiter. -/
def Unskipped (gate : Gate) : List Action → Prop
  | [] => True
  | action :: rest => ¬ Skipped gate action ∧ ∀ after, step gate action = some after → Unskipped after rest

open Gate

theorem hand_over_none (waiting queue : List Key) (nobody : handOver waiting queue = none) :
    ∀ k ∈ queue, k ∉ waiting := by
  induction queue with
  | nil => simp
  | cons first rest ih =>
      rw [handOver] at nobody
      split at nobody
      · exact absurd nobody (by simp)
      · rename_i absent
        intro k member
        rcases List.mem_cons.mp member with rfl | later
        · exact absent
        · exact ih nobody k later

theorem hand_over_some (waiting queue rest : List Key) (k : Key)
    (found : handOver waiting queue = some (k, rest)) :
    k ∈ waiting ∧ ∃ skipped, queue = skipped ++ k :: rest ∧ ∀ other ∈ skipped, other ∉ waiting := by
  induction queue with
  | nil => simp [handOver] at found
  | cons first tail ih =>
      rw [handOver] at found
      split at found
      · rename_i present
        obtain ⟨rfl, rfl⟩ := Prod.mk.inj (Option.some.inj found)
        exact ⟨present, [], rfl, by simp⟩
      · rename_i absent
        obtain ⟨member, skipped, rfl, gone⟩ := ih found
        refine ⟨member, first :: skipped, rfl, ?_⟩
        intro other inside
        rcases List.mem_cons.mp inside with rfl | later
        · exact absent
        · exact gone other later

theorem release_cases (gate : Gate) :
    ((∀ k ∈ gate.waiters, k ∉ gate.waiting) ∧
      gate.releaseOneLocked = { gate with waiters := [], permits := gate.permits + 1 }) ∨
    ∃ k rest skipped, k ∈ gate.waiting ∧ gate.waiters = skipped ++ k :: rest ∧
      (∀ other ∈ skipped, other ∉ gate.waiting) ∧
      gate.releaseOneLocked =
        { gate with
          waiters := rest
          waiting := gate.waiting.erase k
          granted := k :: gate.granted } := by
  unfold releaseOneLocked
  cases found : handOver gate.waiting gate.waiters with
  | none => exact Or.inl ⟨hand_over_none _ _ found, rfl⟩
  | some out =>
      obtain ⟨k, rest⟩ := out
      obtain ⟨member, skipped, split, gone⟩ := hand_over_some _ _ _ _ found
      exact Or.inr ⟨k, rest, skipped, member, split, gone, rfl⟩

theorem total_release (gate : Gate) : gate.releaseOneLocked.total = gate.total + 1 := by
  rcases release_cases gate with ⟨_, released⟩ | ⟨k, rest, skipped, _, _, _, released⟩
  · rw [released]
    simp only [total]
    omega
  · rw [released]
    simp only [total, List.length_cons]
    omega

/-! ## What every step keeps -/

/-- The queue is in order, holds no one who was sent a permit, and no permit is free beside it. -/
structure Sound (gate : Gate) : Prop where
  ordered : gate.waiters.Pairwise (· < ·)
  numbered : ∀ k ∈ gate.waiters, seqOf k < gate.nextSeq
  known : ∀ k, k ∈ gate.waiting ∨ k ∈ gate.granted ∨ k ∈ gate.cancelled ∨ k ∈ gate.revoked →
    seqOf k < gate.nextSeq
  granted_out : ∀ k ∈ gate.granted, k ∉ gate.waiters
  revoked_out : ∀ k ∈ gate.revoked, k ∉ gate.waiters
  taken : gate.waiters ≠ [] → gate.permits = 0

theorem sound_new (permits : Nat) : Sound (Gate.new permits) := by
  constructor <;> simp [Gate.new]

theorem sound_release (gate : Gate) (sound : Sound gate) : Sound gate.releaseOneLocked := by
  rcases release_cases gate with ⟨_, released⟩ | ⟨k, rest, skipped, member, split, _, released⟩
  · rw [released]
    exact ⟨List.Pairwise.nil, by simp, sound.known, by simp, by simp, by simp⟩
  · have hsub : rest.Sublist gate.waiters := by
      rw [split]
      exact (List.sublist_cons_self k rest).trans (List.sublist_append_right skipped _)
    have htail : (k :: rest).Pairwise (· < ·) :=
      sound.ordered.sublist (by rw [split]; exact List.sublist_append_right skipped _)
    have hout : k ∉ rest := fun inside => lt_irrefl k ((List.pairwise_cons.mp htail).1 k inside)
    rw [released]
    constructor
    · exact sound.ordered.sublist hsub
    · exact fun other inside => sound.numbered other (hsub.subset inside)
    · intro other inside
      rcases inside with waiting | granted | rest
      · exact sound.known other (Or.inl (List.mem_of_mem_erase waiting))
      · rcases List.mem_cons.mp granted with rfl | earlier
        · exact sound.known other (Or.inl member)
        · exact sound.known other (Or.inr (Or.inl earlier))
      · exact sound.known other (Or.inr (Or.inr rest))
    · intro other inside
      rcases List.mem_cons.mp inside with rfl | earlier
      · exact hout
      · exact fun queued => sound.granted_out other earlier (hsub.subset queued)
    · exact fun other inside queued => sound.revoked_out other inside (hsub.subset queued)
    · exact fun _ => sound.taken (by simp [split])

theorem sound_acquire (gate : Gate) (priority : Int) (sound : Sound gate) :
    Sound (gate.acquire priority) := by
  unfold acquire
  split
  · rename_i free
    exact ⟨sound.ordered, sound.numbered, sound.known, sound.granted_out, sound.revoked_out,
      fun queued => absurd free.2 queued⟩
  · rename_i busy
    have hfree : gate.permits = 0 := by
      by_cases empty : gate.waiters = []
      · by_contra some
        exact busy ⟨Nat.pos_of_ne_zero some, empty⟩
      · exact sound.taken empty
    have hmem : ∀ k, k ∈ gate.waiters.orderedInsert (· ≤ ·) (key priority gate.nextSeq) →
        k = key priority gate.nextSeq ∨ k ∈ gate.waiters := by
      intro k inside
      exact (List.mem_orderedInsert _).mp inside
    have hfresh : ∀ k, seqOf k < gate.nextSeq → k ≠ key priority gate.nextSeq := by
      rintro k below rfl
      exact lt_irrefl _ below
    constructor
    · have hle : gate.waiters.Pairwise (· ≤ ·) := sound.ordered.imp le_of_lt
      have hsorted := List.Pairwise.orderedInsert (r := (· ≤ ·)) (key priority gate.nextSeq) _ hle
      have hnodup : (gate.waiters.orderedInsert (· ≤ ·) (key priority gate.nextSeq)).Nodup := by
        rw [(List.perm_orderedInsert _ _ _).nodup_iff, List.nodup_cons]
        refine ⟨fun inside => lt_irrefl _ (sound.numbered _ inside), ?_⟩
        exact sound.ordered.imp ne_of_lt
      exact (hsorted.and hnodup).imp fun both => lt_of_le_of_ne both.1 both.2
    · intro k inside
      rcases hmem k inside with rfl | before
      · exact Nat.lt_succ_self _
      · exact Nat.lt_succ_of_lt (sound.numbered k before)
    · intro k inside
      rcases inside with waiting | rest
      · rcases List.mem_cons.mp waiting with rfl | before
        · exact Nat.lt_succ_self _
        · exact Nat.lt_succ_of_lt (sound.known k (Or.inl before))
      · exact Nat.lt_succ_of_lt (sound.known k (Or.inr rest))
    · intro k inside queued
      rcases hmem k queued with same | before
      · exact hfresh k (sound.known k (Or.inr (Or.inl inside))) same
      · exact sound.granted_out k inside before
    · intro k inside queued
      rcases hmem k queued with same | before
      · exact hfresh k (sound.known k (Or.inr (Or.inr (Or.inr inside)))) same
      · exact sound.revoked_out k inside before
    · exact fun _ => hfree

theorem sound_drop_ungranted (gate : Gate) (k : Key) (sound : Sound gate) :
    Sound (gate.dropUngranted k) := by
  unfold dropUngranted
  split
  · have hsub := List.erase_sublist (a := k) (l := gate.waiters)
    constructor
    · exact sound.ordered.sublist hsub
    · exact fun other inside => sound.numbered other (hsub.subset inside)
    · exact sound.known
    · exact fun other inside queued => sound.granted_out other inside (hsub.subset queued)
    · exact fun other inside queued => sound.revoked_out other inside (hsub.subset queued)
    · exact fun queued => sound.taken fun empty => queued (by simp [empty])
  · exact sound_release gate sound

theorem sound_step (gate after : Gate) (action : Action) (sound : Sound gate)
    (stepped : step gate action = some after) : Sound after := by
  cases action with
  | acquire priority => exact Option.some.inj stepped ▸ sound_acquire gate priority sound
  | observe k =>
      simp only [step, Gate.observe] at stepped
      split at stepped
      · rw [← Option.some.inj stepped]
        have hsub : ∀ other ∈ gate.granted.erase k, other ∈ gate.granted :=
          fun other inside => List.mem_of_mem_erase inside
        constructor
        · exact sound.ordered
        · exact sound.numbered
        · intro other inside
          rcases inside with waiting | granted | rest
          · exact sound.known other (Or.inl waiting)
          · exact sound.known other (Or.inr (Or.inl (hsub other granted)))
          · exact sound.known other (Or.inr (Or.inr rest))
        · exact fun other inside => sound.granted_out other (hsub other inside)
        · exact sound.revoked_out
        · exact sound.taken
      · exact absurd stepped (by simp)
  | dropGuard =>
      simp only [step, Gate.dropGuard] at stepped
      split at stepped
      · rw [← Option.some.inj stepped]
        refine sound_release _ ?_
        exact ⟨sound.ordered, sound.numbered, sound.known, sound.granted_out, sound.revoked_out,
          sound.taken⟩
      · exact absurd stepped (by simp)
  | dropReceiver k =>
      simp only [step, Gate.dropReceiver] at stepped
      split at stepped
      · rename_i member
        rw [← Option.some.inj stepped]
        refine ⟨sound.ordered, sound.numbered, ?_, sound.granted_out, sound.revoked_out, sound.taken⟩
        intro other inside
        rcases inside with waiting | granted | cancelled | revoked
        · exact sound.known other (Or.inl (List.mem_of_mem_erase waiting))
        · exact sound.known other (Or.inr (Or.inl granted))
        · rcases List.mem_cons.mp cancelled with rfl | before
          · exact sound.known other (Or.inl member)
          · exact sound.known other (Or.inr (Or.inr (Or.inl before)))
        · exact sound.known other (Or.inr (Or.inr (Or.inr revoked)))
      · split at stepped
        · rename_i member
          rw [← Option.some.inj stepped]
          refine ⟨sound.ordered, sound.numbered, ?_, ?_, ?_, sound.taken⟩
          · intro other inside
            rcases inside with waiting | granted | cancelled | revoked
            · exact sound.known other (Or.inl waiting)
            · exact sound.known other (Or.inr (Or.inl (List.mem_of_mem_erase granted)))
            · exact sound.known other (Or.inr (Or.inr (Or.inl cancelled)))
            · rcases List.mem_cons.mp revoked with rfl | before
              · exact sound.known other (Or.inr (Or.inl member))
              · exact sound.known other (Or.inr (Or.inr (Or.inr before)))
          · exact fun other inside => sound.granted_out other (List.mem_of_mem_erase inside)
          · intro other inside
            rcases List.mem_cons.mp inside with rfl | before
            · exact sound.granted_out other member
            · exact sound.revoked_out other before
        · exact absurd stepped (by simp)
  | dropTicket k =>
      simp only [step, Gate.dropTicket] at stepped
      split at stepped
      · rw [← Option.some.inj stepped]
        refine sound_drop_ungranted _ k ?_
        refine ⟨sound.ordered, sound.numbered, ?_, sound.granted_out, sound.revoked_out, sound.taken⟩
        intro other inside
        rcases inside with waiting | granted | cancelled | revoked
        · exact sound.known other (Or.inl waiting)
        · exact sound.known other (Or.inr (Or.inl granted))
        · exact sound.known other (Or.inr (Or.inr (Or.inl (List.mem_of_mem_erase cancelled))))
        · exact sound.known other (Or.inr (Or.inr (Or.inr revoked)))
      · split at stepped
        · rw [← Option.some.inj stepped]
          refine sound_drop_ungranted _ k ?_
          refine ⟨sound.ordered, sound.numbered, ?_, sound.granted_out, ?_, sound.taken⟩
          · intro other inside
            rcases inside with waiting | granted | cancelled | revoked
            · exact sound.known other (Or.inl waiting)
            · exact sound.known other (Or.inr (Or.inl granted))
            · exact sound.known other (Or.inr (Or.inr (Or.inl cancelled)))
            · exact sound.known other (Or.inr (Or.inr (Or.inr (List.mem_of_mem_erase revoked))))
          · exact fun other inside => sound.revoked_out other (List.mem_of_mem_erase inside)
        · exact absurd stepped (by simp)

theorem sound_run (actions : List Action) (gate after : Gate) (sound : Sound gate)
    (ran : run gate actions = some after) : Sound after := by
  induction actions generalizing gate with
  | nil => exact Option.some.inj ran ▸ sound
  | cons action rest ih =>
      rw [run] at ran
      obtain ⟨middle, stepped, later⟩ := Option.bind_eq_some_iff.mp ran
      exact ih middle (sound_step gate middle action sound stepped) later

/-- One step keeps the total, but for the ticket of a skipped waiter, which makes up a permit. -/
theorem total_step (gate after : Gate) (action : Action) (sound : Sound gate)
    (stepped : step gate action = some after) :
    after.total = gate.total + if Skipped gate action then 1 else 0 := by
  cases action with
  | acquire priority =>
      rw [← Option.some.inj stepped, if_neg (by simp [Skipped])]
      unfold Gate.acquire
      split
      · rename_i free
        simp only [total]
        omega
      · rfl
  | observe k =>
      rw [if_neg (by simp [Skipped])]
      simp only [step, Gate.observe] at stepped
      split at stepped
      · rename_i member
        rw [← Option.some.inj stepped]
        have hlen := List.length_erase_of_mem member
        have hpos := List.length_pos_of_mem member
        simp only [total]
        omega
      · exact absurd stepped (by simp)
  | dropGuard =>
      rw [if_neg (by simp [Skipped])]
      simp only [step, Gate.dropGuard] at stepped
      split at stepped
      · rename_i held
        rw [← Option.some.inj stepped, total_release]
        simp only [total]
        omega
      · exact absurd stepped (by simp)
  | dropReceiver k =>
      rw [if_neg (by simp [Skipped])]
      simp only [step, Gate.dropReceiver] at stepped
      split at stepped
      · rw [← Option.some.inj stepped]
        rfl
      · split at stepped
        · rename_i member
          rw [← Option.some.inj stepped]
          have hlen := List.length_erase_of_mem member
          have hpos := List.length_pos_of_mem member
          simp only [total, List.length_cons]
          omega
        · exact absurd stepped (by simp)
  | dropTicket k =>
      simp only [step, Gate.dropTicket] at stepped
      split at stepped
      · rename_i member
        rw [← Option.some.inj stepped]
        by_cases queued : k ∈ gate.waiters
        · rw [if_neg (fun skipped => skipped.2 queued)]
          simp only [dropUngranted, queued, if_true, total]
          omega
        · rw [if_pos ⟨member, queued⟩]
          simp only [dropUngranted, queued, if_false]
          rw [total_release]
          rfl
      · rename_i absent
        split at stepped
        · rename_i member
          rw [← Option.some.inj stepped, if_neg (fun skipped => absent skipped.1)]
          have hout := sound.revoked_out k member
          have hlen := List.length_erase_of_mem member
          have hpos := List.length_pos_of_mem member
          simp only [dropUngranted, hout, if_false]
          rw [total_release]
          simp only [total]
          omega
        · exact absurd stepped (by simp)

theorem total_run (actions : List Action) (gate after : Gate) (sound : Sound gate)
    (ran : run gate actions = some after) :
    gate.total ≤ after.total ∧ (after.total = gate.total ↔ Unskipped gate actions) := by
  induction actions generalizing gate with
  | nil =>
      rw [← Option.some.inj ran]
      exact ⟨Nat.le_refl _, by simp [Unskipped]⟩
  | cons action rest ih =>
      rw [run] at ran
      obtain ⟨middle, stepped, later⟩ := Option.bind_eq_some_iff.mp ran
      have hstep := total_step gate middle action sound stepped
      obtain ⟨hle, hiff⟩ := ih middle (sound_step gate middle action sound stepped) later
      have hrest : (∀ next, step gate action = some next → Unskipped next rest) ↔
          Unskipped middle rest := by
        rw [stepped]
        simp
      rw [Unskipped, hrest]
      by_cases skipped : Skipped gate action
      · rw [if_pos skipped] at hstep
        refine ⟨by omega, ?_⟩
        constructor
        · omega
        · exact fun clean => absurd skipped clean.1
      · rw [if_neg skipped] at hstep
        refine ⟨by omega, ?_⟩
        rw [hstep, Nat.add_zero] at hiff
        rw [hiff]
        exact ⟨fun clean => ⟨skipped, clean⟩, fun clean => clean.2⟩

/-- Free permits, live guards and permits on their way are always the gate's permits, exactly in
the runs in which no release skips a waiter between its two drops. -/
theorem permits_conserved_iff (permits : Nat) (actions : List Action) (gate : Gate)
    (ran : run (Gate.new permits) actions = some gate) :
    (gate.permits + gate.guards + (gate.granted.length + gate.revoked.length) = permits ↔
        Unskipped (Gate.new permits) actions) ∧
      (Unskipped (Gate.new permits) actions → gate.guards ≤ permits) := by
  have hrun := (total_run actions (Gate.new permits) gate (sound_new permits) ran).2
  have hnew : (Gate.new permits).total = permits := by simp [total, Gate.new]
  rw [hnew] at hrun
  refine ⟨hrun, fun clean => ?_⟩
  have htotal := hrun.mpr clean
  unfold total at htotal
  omega

/-- A handed-over permit: one acquire holds it, the next waits for it and observes it. -/
def handedOver : List Action := [.acquire 0, .acquire 0, .dropGuard, .observe (key 0 0)]

theorem permits_conserved_handed_over :
    (0 + 1 + (0 + 0) = 1 ↔ Unskipped (Gate.new 1) handedOver) ∧
      (Unskipped (Gate.new 1) handedOver → 1 ≤ 1) :=
  permits_conserved_iff 1 handedOver { Gate.new 1 with permits := 0, nextSeq := 1, guards := 1 }
    (by decide)

/-- One permit is held, a second acquire waits and is cancelled; the guard is dropped between the
two drops of the cancelled future. Two acquires are then admitted at once. -/
theorem permit_made_up :
    ¬ ∀ (permits : Nat) (actions : List Action) (gate : Gate),
      run (Gate.new permits) actions = some gate →
        gate.permits + gate.guards + (gate.granted.length + gate.revoked.length) = permits ∧
          gate.guards ≤ permits := by
  intro conserved
  have both := conserved 1
    [.acquire 0, .acquire 0, .dropReceiver (key 0 0), .dropGuard, .dropTicket (key 0 0),
      .acquire 0, .acquire 0]
    { Gate.new 1 with permits := 0, nextSeq := 1, guards := 2 } (by decide)
  exact absurd both.2 (by decide)

/-! ## Order -/

def Live (gate : Gate) (k : Key) : Prop := k ∈ gate.waiters ∧ k ∈ gate.waiting

/-- Between the two states `k` is sent its permit. -/
def Grants (gate after : Gate) (k : Key) : Prop := k ∉ gate.granted ∧ k ∈ after.granted

def Releases (gate : Gate) : Action → Prop
  | .dropGuard => True
  | .dropTicket k => k ∉ gate.waiters
  | _ => False

theorem release_to_least (gate : Gate) (sound : Sound gate) :
    ((∀ k, ¬ Live gate k) ∧ gate.releaseOneLocked.permits = gate.permits + 1 ∧
      gate.releaseOneLocked.granted = gate.granted) ∨
    ∃ k, Live gate k ∧ (∀ other, Live gate other → k ≤ other) ∧
      gate.releaseOneLocked.permits = gate.permits ∧
      gate.releaseOneLocked.granted = k :: gate.granted := by
  rcases release_cases gate with ⟨nobody, released⟩ | ⟨k, rest, skipped, member, split, gone, released⟩
  · rw [released]
    exact Or.inl ⟨fun k live => nobody k live.1 live.2, rfl, rfl⟩
  · have queued : k ∈ gate.waiters := by simp [split]
    have htail : (k :: rest).Pairwise (· < ·) :=
      sound.ordered.sublist (by rw [split]; exact List.sublist_append_right skipped _)
    rw [released]
    refine Or.inr ⟨k, ⟨queued, member⟩, ?_, rfl, rfl⟩
    intro other live
    have hmem := live.1
    rw [split] at hmem
    rcases List.mem_append.mp hmem with before | inside
    · exact absurd live.2 (gone other before)
    · rcases List.mem_cons.mp inside with rfl | after
      · exact le_refl _
      · exact le_of_lt ((List.pairwise_cons.mp htail).1 other after)

/-- What a step does with permits: a release serves the least live waiter, and nothing else sends
one. -/
theorem step_grants (gate after : Gate) (action : Action) (sound : Sound gate)
    (stepped : step gate action = some after) :
    (Releases gate action ∧
      (((∀ k, ¬ Live gate k) ∧ after.permits = gate.permits + 1 ∧ after.granted = gate.granted) ∨
        ∃ k, Live gate k ∧ (∀ other, Live gate other → k ≤ other) ∧
          after.permits = gate.permits ∧ after.granted = k :: gate.granted)) ∨
    (¬ Releases gate action ∧ ∀ k ∈ after.granted, k ∈ gate.granted) := by
  cases action with
  | acquire priority =>
      refine Or.inr ⟨id, ?_⟩
      rw [← Option.some.inj stepped]
      unfold Gate.acquire
      split
      · exact fun k inside => inside
      · exact fun k inside => inside
  | observe k =>
      refine Or.inr ⟨id, ?_⟩
      simp only [step, Gate.observe] at stepped
      split at stepped
      · rw [← Option.some.inj stepped]
        exact fun other inside => List.mem_of_mem_erase inside
      · exact absurd stepped (by simp)
  | dropGuard =>
      refine Or.inl ⟨trivial, ?_⟩
      simp only [step, Gate.dropGuard] at stepped
      split at stepped
      · rw [← Option.some.inj stepped]
        refine release_to_least { gate with guards := gate.guards - 1 } ?_
        exact ⟨sound.ordered, sound.numbered, sound.known, sound.granted_out, sound.revoked_out,
          sound.taken⟩
      · exact absurd stepped (by simp)
  | dropReceiver k =>
      refine Or.inr ⟨id, ?_⟩
      simp only [step, Gate.dropReceiver] at stepped
      split at stepped
      · rw [← Option.some.inj stepped]
        exact fun other inside => inside
      · split at stepped
        · rw [← Option.some.inj stepped]
          exact fun other inside => List.mem_of_mem_erase inside
        · exact absurd stepped (by simp)
  | dropTicket k =>
      have hrest : ∀ cancelled revoked,
          after = { gate with cancelled := cancelled, revoked := revoked }.dropUngranted k →
          (∀ other ∈ revoked, other ∈ gate.revoked) → (∀ other ∈ cancelled, other ∈ gate.cancelled) →
          (k ∉ gate.waiters ∧
            (((∀ k, ¬ Live gate k) ∧ after.permits = gate.permits + 1 ∧
              after.granted = gate.granted) ∨
            ∃ k, Live gate k ∧ (∀ other, Live gate other → k ≤ other) ∧
              after.permits = gate.permits ∧ after.granted = k :: gate.granted)) ∨
          (¬ k ∉ gate.waiters ∧ ∀ other ∈ after.granted, other ∈ gate.granted) := by
        rintro cancelled revoked rfl hrevoked hcancelled
        by_cases queued : k ∈ gate.waiters
        · refine Or.inr ⟨not_not_intro queued, ?_⟩
          simp only [dropUngranted, queued, if_true]
          exact fun other inside => inside
        · refine Or.inl ⟨queued, ?_⟩
          simp only [dropUngranted, queued, if_false]
          refine release_to_least { gate with cancelled := cancelled, revoked := revoked } ?_
          refine ⟨sound.ordered, sound.numbered, ?_, sound.granted_out,
            fun other inside => sound.revoked_out other (hrevoked other inside), sound.taken⟩
          intro other inside
          rcases inside with waiting | granted | cancelledHere | revokedHere
          · exact sound.known other (Or.inl waiting)
          · exact sound.known other (Or.inr (Or.inl granted))
          · exact sound.known other (Or.inr (Or.inr (Or.inl (hcancelled other cancelledHere))))
          · exact sound.known other (Or.inr (Or.inr (Or.inr (hrevoked other revokedHere))))
      simp only [step, Gate.dropTicket] at stepped
      split at stepped
      · exact hrest (gate.cancelled.erase k) gate.revoked (Option.some.inj stepped).symm
          (fun _ inside => inside) fun _ inside => List.mem_of_mem_erase inside
      · split at stepped
        · exact hrest gate.cancelled (gate.revoked.erase k) (Option.some.inj stepped).symm
            (fun _ inside => List.mem_of_mem_erase inside) fun _ inside => inside
        · exact absurd stepped (by simp)

theorem lt_key (w : Key) (priority : Int) (seq : Nat) (better : priorityOf w ≤ priority)
    (earlier : seqOf w < seq) : w < key priority seq := by
  refine Prod.Lex.lt_iff.mpr ?_
  rcases lt_or_eq_of_le better with lower | same
  · exact Or.inl lower
  · exact Or.inr ⟨same, earlier⟩

/-- In every run: no permit is free while someone is queued; a permit given back goes to the least
live waiter, or is free if there is none; and who asks after a waiter of equal or better priority
was queued is queued behind it and gets no permit while that waiter is there. -/
theorem queue_order_kept (permits : Nat) (actions : List Action) (gate : Gate)
    (ran : run (Gate.new permits) actions = some gate) :
    (gate.waiters ≠ [] → gate.permits = 0) ∧
    (∀ action after, step gate action = some after → Releases gate action →
      ((∀ k, ¬ Live gate k) ∧ after.permits = gate.permits + 1) ∨
      ∃ k, Live gate k ∧ (∀ other, Live gate other → k ≤ other) ∧ k ∈ after.granted ∧
        after.permits = gate.permits) ∧
    (∀ w priority, Live gate w → priorityOf w ≤ priority →
      gate.acquire priority = gate.enqueue priority ∧
      ∀ later final action after, run (gate.enqueue priority) later = some final → Live final w →
        step final action = some after → ¬ Grants final after (key priority gate.nextSeq)) := by
  have sound := sound_run actions _ _ (sound_new permits) ran
  refine ⟨sound.taken, ?_, ?_⟩
  · intro action after stepped releases
    rcases step_grants gate after action sound stepped with ⟨_, outcome⟩ | ⟨none, _⟩
    · rcases outcome with ⟨nobody, free, _⟩ | ⟨k, live, least, same, sent⟩
      · exact Or.inl ⟨nobody, free⟩
      · exact Or.inr ⟨k, live, least, by simp [sent], same⟩
    · exact absurd releases none
  · intro w priority live better
    have queued : gate.waiters ≠ [] := fun empty => by
      have hmem := live.1
      simp [empty] at hmem
    have hqueues : gate.acquire priority = gate.enqueue priority := by
      unfold Gate.acquire
      rw [if_neg fun free => queued free.2]
    refine ⟨hqueues, ?_⟩
    intro later final action after ranLater stillLive stepped grants
    have hbefore : w < key priority gate.nextSeq :=
      lt_key w priority gate.nextSeq better (sound.numbered w live.1)
    have soundFinal : Sound final :=
      sound_run later _ _ (hqueues ▸ sound_acquire gate priority sound) ranLater
    rcases step_grants final after action soundFinal stepped with ⟨_, outcome⟩ | ⟨_, none⟩
    · rcases outcome with ⟨_, _, same⟩ | ⟨k, _, least, _, sent⟩
      · exact grants.1 (same ▸ grants.2)
      · have hmem := grants.2
        rw [sent] at hmem
        rcases List.mem_cons.mp hmem with rfl | old
        · exact absurd (least w stillLive) (not_le_of_gt hbefore)
        · exact grants.1 old
    · exact grants.1 (none _ grants.2)

/-- One acquire holds the permit, another of priority 5 waits for it. -/
def contended : Gate := ((Gate.new 1).acquire 0).acquire 5

theorem queue_order_kept_contended :
    contended.permits = 0 ∧ contended.acquire 7 = contended.enqueue 7 := by
  have kept := queue_order_kept 1 [.acquire 0, .acquire 5] contended (by decide)
  exact ⟨kept.1 (by decide), (kept.2.2 (key 5 0) 7 ⟨by decide, by decide⟩ (by decide)).1⟩

end FileReplicator.Admission
