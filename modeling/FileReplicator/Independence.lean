import Mathlib.Order.Bounds.Defs
import FileReplicator.RoundSteps

/-!
# Destinations retry independently

A round of an item leaves the row of every destination to that destination, and
the one gate of the item stands for the gates of all of them.
-/

namespace FileReplicator.Independence

open Domain DurableStore Effects FileTree SourceActions Retry Operations Worker Interleaving Instance
open Steps Runs Rounds RoundRuns RoundSteps

variable (setup : Setup)

theorem mem_verified (outcomes : List (String × DestOutcome)) (tally : Tally) (label : String) :
    label ∈ (outcomes.foldl Tally.count tally).verified ↔
      label ∈ tally.verified ∨ (label, .verified) ∈ outcomes := by
  induction outcomes generalizing tally with
  | nil => simp
  | cons p rest ih =>
      rw [List.foldl_cons, ih, List.mem_cons]
      obtain ⟨other, outcome⟩ := p
      cases outcome with
      | verified =>
          simp only [Tally.count, List.mem_insert_iff, Prod.mk.injEq, and_true]
          tauto
      | retry gate error => simp [Tally.count]
      | giveUp error attempts => simp [Tally.count]

theorem verified_nodup (outcomes : List (String × DestOutcome)) (tally : Tally)
    (nodup : tally.verified.Nodup) : (outcomes.foldl Tally.count tally).verified.Nodup := by
  induction outcomes generalizing tally with
  | nil => exact nodup
  | cons p rest ih =>
      apply ih
      obtain ⟨label, outcome⟩ := p
      cases outcome with
      | verified => exact nodup.insert
      | _ => exact nodup

theorem mem_giveups (outcomes : List (String × DestOutcome)) (tally : Tally)
    (g : String × String × Nat) :
    g ∈ (outcomes.foldl Tally.count tally).giveups ↔
      g ∈ tally.giveups ∨ (g.1, .giveUp g.2.1 g.2.2) ∈ outcomes := by
  induction outcomes generalizing tally with
  | nil => simp
  | cons p rest ih =>
      rw [List.foldl_cons, ih, List.mem_cons]
      obtain ⟨other, outcome⟩ := p
      obtain ⟨label, error, attempts⟩ := g
      cases outcome with
      | giveUp error attempts =>
          simp only [Tally.count, List.mem_append, List.mem_singleton, Prod.mk.injEq,
            DestOutcome.giveUp.injEq]
          tauto
      | retry gate error => simp [Tally.count]
      | verified => simp [Tally.count]

theorem mem_retries (outcomes : List (String × DestOutcome)) (tally : Tally)
    (r : String × Int × String) :
    r ∈ (outcomes.foldl Tally.count tally).retries ↔
      r ∈ tally.retries ∨ (r.1, .retry r.2.1 r.2.2) ∈ outcomes := by
  induction outcomes generalizing tally with
  | nil => simp
  | cons p rest ih =>
      rw [List.foldl_cons, ih, List.mem_cons]
      obtain ⟨other, outcome⟩ := p
      obtain ⟨label, gate, error⟩ := r
      cases outcome with
      | retry gate error =>
          simp only [Tally.count, List.mem_append, List.mem_singleton, Prod.mk.injEq,
            DestOutcome.retry.injEq]
          tauto
      | giveUp error attempts => simp [Tally.count]
      | verified => simp [Tally.count]

theorem earliest_least (now : Int) (gates : List Int) (some : gates ≠ []) :
    IsLeast {gate | gate ∈ gates} (earliest now gates) := by
  cases gates with
  | nil => exact absurd rfl some
  | cons first rest =>
      have least : (first :: rest).min? = Option.some (earliest now (first :: rest)) := List.min?_cons'
      obtain ⟨member, below⟩ := List.min?_eq_some_iff.mp least
      exact ⟨member, fun gate other => below gate other⟩

section Round

variable (item : WorkItem) (now : Int) (h : Log)

def left (before : String → Option DestState) (label : String) : Option DestState :=
  expected setup before item now label (h.status label)

/-- Some destination is not verified yet, and none gave up. -/
structure Waits (before : String → Option DestState) : Prop where
  pending : ∃ label ∈ setup.labels, phaseOf (left setup item now h before) label ≠ .verified
  hopeful : ∀ label error jitter, h.status label = .joined (.failed error jitter) →
    decision setup (ctxOf before item now label) error jitter ≠ .giveUp

def gates (dests : String → Option DestState) : Set Int :=
  {gate | ∃ label ∈ setup.labels, phaseOf dests label ≠ .verified ∧ nextAttemptOf dests label = gate}

/-- What a round leaves when every destination is retried on its own. -/
structure Independent (before after : Store) : Prop where
  attempted : h.attempted.Perm (dueLabels setup (before.dests item.relpath) now)
  joined : ∀ label ∈ dueLabels setup (before.dests item.relpath) now, ∃ v, h.status label = .joined v
  others : ∀ r, r ≠ item.relpath → after.dests r = before.dests r
  rows : ∃ row, after.items item.relpath = some row ∧ (row.state ≠ .completed →
    after.dests item.relpath = left setup item now h (before.dests item.relpath))
  idle : ∀ label, label ∉ dueLabels setup (before.dests item.relpath) now →
    left setup item now h (before.dests item.relpath) label = before.dests item.relpath label
  verified : ∀ label, h.status label = .joined .verified →
    phaseOf (left setup item now h (before.dests item.relpath)) label = .verified
  failed : ∀ label error jitter, h.status label = .joined (.failed error jitter) →
    left setup item now h (before.dests item.relpath) label =
      let own := attemptsOf (before.dests item.relpath) label
      let decided := failedPhase now
        (setup.retry.decide { item with attempts := own } error.isPermanent now jitter)
      some { dest := label, phase := decided.1, attempts := own + 1, nextAttemptAt := decided.2,
             lastError := some error.text }
  waits : Waits setup item now h (before.dests item.relpath) →
    ∃ row, after.items item.relpath = some row ∧ row.state = .failed ∧
      IsLeast (gates setup (after.dests item.relpath)) row.nextAttemptAt ∧
      (∀ later, row.nextAttemptAt ≤ later → dueLabels setup (after.dests item.relpath) later ≠ []) ∧
      ∀ later, later < row.nextAttemptAt →
        (∀ it ∈ (after.listByState .failed).filter (fun it => it.nextAttemptAt ≤ later),
          it.relpath ≠ item.relpath) ∧
        ∀ limit made, ∀ it ∈ (after.setState item.relpath .ready made).claimed limit later,
          it.relpath ≠ item.relpath

/-! ### What the tally of a round says of the rows -/

variable (before : String → Option DestState) (threads : List Member) (results : List AttemptResult)

theorem due_of_joined (attempts : Attempts setup before item now h threads results)
    (spawned : h.stage.spawned = true) (label : String) (v : Settled)
    (joined : h.status label = .joined v) : label ∈ dueLabels setup before now := by
  apply (attempts.spawned spawned label).mp
  rw [joined]
  exact Status.noConfusion

theorem mem_due (label : String) : label ∈ dueLabels setup before now ↔
    label ∈ setup.labels ∧ phaseOf before label ≠ .verified ∧ nextAttemptOf before label ≤ now := by
  simp [dueLabels, List.mem_filter]

theorem left_idle (label : String) (idle : h.status label = .unspawned) :
    left setup item now h before label = before label := by
  rw [left, idle]
  rfl

theorem phase_idle (label : String) (idle : h.status label = .unspawned) :
    phaseOf (left setup item now h before) label = phaseOf before label := by
  rw [phaseOf, phaseOf, left_idle setup item now h before label idle]

theorem gate_idle (label : String) (idle : h.status label = .unspawned) :
    nextAttemptOf (left setup item now h before) label = nextAttemptOf before label := by
  rw [nextAttemptOf, nextAttemptOf, left_idle setup item now h before label idle]

theorem phase_verified (label : String) (joined : h.status label = .joined .verified) :
    phaseOf (left setup item now h before) label = .verified := by
  rw [phaseOf, left, joined]
  cases prior : before label <;> simp [expected, settledState, prior]

theorem left_failed (label : String) (error : ReplError) (jitter : Nat)
    (joined : h.status label = .joined (.failed error jitter)) :
    left setup item now h before label =
      some (settledState setup (ctxOf before item now label) (before label) (.failed error jitter)) := by
  rw [left, joined]
  rfl

theorem outcome_verified (ctx : AttemptCtx) (v : Settled)
    (same : outcomeOf setup ctx v = .verified) : v = .verified := by
  cases v with
  | verified => rfl
  | failed error jitter =>
      rw [outcomeOf] at same
      split at same <;> cases same

theorem outcome_retry (ctx : AttemptCtx) (v : Settled) (gate : Int) (text : String)
    (same : outcomeOf setup ctx v = .retry gate text) :
    ∃ error jitter, v = .failed error jitter ∧ decision setup ctx error jitter = .retry gate := by
  cases v with
  | verified => cases same
  | failed error jitter =>
      rw [outcomeOf] at same
      split at same
      · rename_i decided
        cases same
        exact ⟨error, jitter, rfl, decided⟩
      · cases same

theorem outcome_give_up (ctx : AttemptCtx) (v : Settled) (text : String) (count : Nat)
    (same : outcomeOf setup ctx v = .giveUp text count) :
    ∃ error jitter, v = .failed error jitter ∧ decision setup ctx error jitter = .giveUp := by
  cases v with
  | verified => cases same
  | failed error jitter =>
      rw [outcomeOf] at same
      split at same
      · cases same
      · rename_i decided
        exact ⟨error, jitter, rfl, decided⟩

theorem tally_verified (attempts : Attempts setup before item now h threads results)
    (spawned : h.stage.spawned = true)
    (settled : ∀ label, h.status label = .unspawned ∨ ∃ v, h.status label = .joined v)
    (label : String) : label ∈ (tallyOf setup before h.stage.joined).verified ↔
      label ∈ setup.labels ∧ phaseOf (left setup item now h before) label = .verified := by
  rw [tallyOf, mem_verified]
  constructor
  · rintro (already | fresh)
    · have stands : label ∈ setup.labels ∧ phaseOf before label = .verified := by
        simpa [verifiedLabels, List.mem_filter] using already
      refine ⟨stands.1, ?_⟩
      rcases settled label with idle | ⟨v, joined⟩
      · rw [phase_idle setup item now h before label idle]
        exact stands.2
      · have due := due_of_joined setup item now h before threads results attempts spawned label v joined
        exact absurd stands.2 ((mem_due setup now before label).mp due).2.1
    · obtain ⟨v, joined, outcome⟩ := attempts.joined _ fresh
      rw [outcome_verified setup _ v outcome.symm] at joined
      have due := due_of_joined setup item now h before threads results attempts spawned label _ joined
      exact ⟨((mem_due setup now before label).mp due).1,
        phase_verified setup item now h before label joined⟩
  · rintro ⟨member, phase⟩
    rcases settled label with idle | ⟨v, joined⟩
    · rw [phase_idle setup item now h before label idle] at phase
      left
      simpa [verifiedLabels, List.mem_filter] using And.intro member phase
    · right
      have whole := attempts.whole label v joined
      cases v with
      | verified => exact whole
      | failed error jitter =>
          rw [phaseOf, left_failed setup item now h before label error jitter joined] at phase
          simp only [Option.map_some, Option.getD_some, settledState] at phase
          cases decided : decision setup (ctxOf before item now label) error jitter <;>
            rw [decided] at phase <;> cases phase

theorem nobody_gave_up (attempts : Attempts setup before item now h threads results)
    (waits : Waits setup item now h before) : (tallyOf setup before h.stage.joined).giveups = [] := by
  apply List.eq_nil_iff_forall_not_mem.mpr
  intro g member
  rcases (mem_giveups _ _ g).mp member with none | gave
  · cases none
  · obtain ⟨v, joined, outcome⟩ := attempts.joined _ gave
    obtain ⟨error, jitter, rfl, decided⟩ := outcome_give_up setup _ v _ _ outcome.symm
    exact waits.hopeful _ error jitter joined decided

theorem some_unverified (attempts : Attempts setup before item now h threads results)
    (spawned : h.stage.spawned = true)
    (settled : ∀ label, h.status label = .unspawned ∨ ∃ v, h.status label = .joined v)
    (waits : Waits setup item now h before) :
    (tallyOf setup before h.stage.joined).verified.length ≠ setup.labels.length := by
  intro all
  obtain ⟨label, member, pending⟩ := waits.pending
  have verified := tally_verified setup item now h before threads results attempts spawned settled
  have nodup : (tallyOf setup before h.stage.joined).verified.Nodup :=
    verified_nodup _ _ (setup.labels_nodup.filter _)
  have whole : (tallyOf setup before h.stage.joined).verified.Perm setup.labels :=
    (nodup.subperm fun other found => ((verified other).mp found).1).perm_of_length_le
      (le_of_eq all.symm)
  exact pending ((verified label).mp (whole.mem_iff.mpr member)).2

theorem mem_gates (attempts : Attempts setup before item now h threads results)
    (spawned : h.stage.spawned = true)
    (settled : ∀ label, h.status label = .unspawned ∨ ∃ v, h.status label = .joined v)
    (waits : Waits setup item now h before) (gate : Int) :
    gate ∈ (tallyOf setup before h.stage.joined).retries.map (·.2.1) ++
        (notDueLabels setup before now).map (nextAttemptOf before) ↔
      gate ∈ gates setup (left setup item now h before) := by
  rw [List.mem_append, List.mem_map, List.mem_map]
  constructor
  · rintro (⟨r, member, rfl⟩ | ⟨label, member, rfl⟩)
    · rcases (mem_retries _ _ r).mp member with none | retried
      · cases none
      obtain ⟨v, joined, outcome⟩ := attempts.joined _ retried
      obtain ⟨error, jitter, rfl, decided⟩ := outcome_retry setup _ v _ _ outcome.symm
      have due := due_of_joined setup item now h before threads results attempts spawned _ _ joined
      refine ⟨r.1, ((mem_due setup now before _).mp due).1, ?_⟩
      rw [phaseOf, nextAttemptOf, left_failed setup item now h before _ error jitter joined]
      simp only [Option.map_some, Option.getD_some, settledState, decided, failedPhase]
      exact ⟨DestPhase.noConfusion, trivial⟩
    · have waiting : label ∈ setup.labels ∧ phaseOf before label ≠ .verified ∧
          ¬ nextAttemptOf before label ≤ now := by
        simpa [notDueLabels, List.mem_filter] using member
      have idle : h.status label = .unspawned := by
        rcases settled label with idle | ⟨v, joined⟩
        · exact idle
        · have due := due_of_joined setup item now h before threads results attempts spawned label v
            joined
          exact absurd ((mem_due setup now before label).mp due).2.2 waiting.2.2
      refine ⟨label, waiting.1, ?_⟩
      rw [phase_idle setup item now h before label idle, gate_idle setup item now h before label idle]
      exact ⟨waiting.2.1, rfl⟩
  · rintro ⟨label, member, pending, rfl⟩
    rcases settled label with idle | ⟨v, joined⟩
    · right
      rw [phase_idle setup item now h before label idle] at pending
      refine ⟨label, ?_, ?_⟩
      · have notDue : label ∉ dueLabels setup before now := by
          intro due
          exact ((attempts.spawned spawned label).mpr due) idle
        rw [mem_due] at notDue
        have late : ¬ nextAttemptOf before label ≤ now := fun early => notDue ⟨member, pending, early⟩
        simpa [notDueLabels, List.mem_filter] using And.intro member (And.intro pending late)
      · rw [gate_idle setup item now h before label idle]
    · left
      cases v with
      | verified => exact absurd (phase_verified setup item now h before label joined) pending
      | failed error jitter =>
          cases decided : decision setup (ctxOf before item now label) error jitter with
          | giveUp => exact absurd decided (waits.hopeful label error jitter joined)
          | retry gate =>
              refine ⟨(label, gate, error.text), (mem_retries _ _ _).mpr (Or.inr ?_), ?_⟩
              · have whole := attempts.whole label _ joined
                rw [outcomeOf, decided] at whole
                exact whole
              · rw [nextAttemptOf, left_failed setup item now h before label error jitter joined]
                simp only [Option.map_some, Option.getD_some, settledState, decided, failedPhase]

end Round

variable (world : World) (item : WorkItem) (now : Int)

theorem concluded_of_over (h : Log) (c : Round) (kept : Kept setup world item now h c)
    (gone : ∀ t ∈ c.threads, t.id ≠ 1) : h.stage.concluded = true := by
  rcases kept.going.attempts.there with concluded | ⟨t, ht, notes⟩
  · exact concluded
  · cases kept.going.attempts.kinds t ht with
    | item id _ _ => exact absurd id (gone t ht)
    | owner _ same _ => rw [same] at notes; cases notes
    | attempt label _ same _ => rw [same] at notes; cases notes
    | pool same => rw [same] at notes; cases notes

theorem spawned_of_concluded (stage : Stage) (concluded : stage.concluded = true) :
    stage.spawned = true := by
  cases stage with
  | fresh => cases concluded
  | read existing => cases concluded
  | _ => rfl

/-- An item whose destinations wait was rolled up with the earliest of their gates. -/
theorem rolled_of_waits (h : Log) (c : Round) (going : Going setup world item now h c)
    (concluded : h.stage.concluded = true)
    (waits : Waits setup item now h (world.store.dests item.relpath)) :
    ∃ gate, h.stage = .rolled (world.store.dests item.relpath) h.stage.joined gate ∧
      gate = rolledGate setup (world.store.dests item.relpath) now h.stage.joined := by
  have settled := going.attempts.dry (dry_of_concluded _ concluded)
  have spawned := spawned_of_concluded _ concluded
  have nobody := nobody_gave_up setup item now h _ _ _ going.attempts waits
  have some := some_unverified setup item now h _ _ _ going.attempts spawned settled waits
  have read := going.attempts.read
  have grounds := going.grounds
  cases stage : h.stage with
  | rolled existing joined gate =>
      rw [stage] at grounds read
      have same := read existing rfl
      subst same
      exact ⟨gate, rfl, grounds.2.2⟩
  | exhausting existing joined =>
      rw [stage] at grounds nobody read
      rw [read existing rfl] at grounds
      exact absurd nobody grounds
  | completing existing joined =>
      rw [stage] at grounds some read
      rw [read existing rfl] at grounds
      exact absurd grounds.2 some
  | completed existing joined =>
      rw [stage] at grounds some read
      rw [read existing rfl] at grounds
      exact absurd grounds.2 some
  | broken =>
      rw [stage] at grounds
      exact grounds.elim
  | _ =>
      rw [stage] at concluded
      cases concluded

theorem unclaimed_before (store : Store) (relpath : String) (row : Row)
    (found : store.items relpath = some row) (later : Int) (early : later < row.nextAttemptAt) :
    (∀ it ∈ (store.listByState .failed).filter (fun it => it.nextAttemptAt ≤ later),
      it.relpath ≠ relpath) ∧
    ∀ limit made, ∀ it ∈ (store.setState relpath .ready made).claimed limit later,
      it.relpath ≠ relpath := by
  constructor
  · rintro it member rfl
    obtain ⟨listed, due⟩ := List.mem_filter.mp member
    obtain ⟨own, there, _, same⟩ := store.mem_list_by_state _ it listed
    rw [found] at there
    cases there
    have gate : it.nextAttemptAt = row.nextAttemptAt := by rw [same]; rfl
    have passed : it.nextAttemptAt ≤ later := of_decide_eq_true due
    omega
  · rintro limit made it member rfl
    obtain ⟨wanted, own, there, same⟩ := (store.setState it.relpath .ready made).mem_select _ it
      (List.mem_of_mem_take member)
    rw [Store.setState, Store.items_update, if_pos rfl, found] at there
    cases there
    have gate : it.nextAttemptAt = row.nextAttemptAt := by rw [same]; rfl
    rw [Bool.and_eq_true] at wanted
    have passed : it.nextAttemptAt ≤ later := of_decide_eq_true wanted.2
    omega

theorem independent_of_kept (h : Log) (c : Round) (kept : Kept setup world item now h c)
    (gone : ∀ t ∈ c.threads, t.id ≠ 1) :
    Independent setup item now h world.store c.state.store := by
  have attempts := kept.going.attempts
  have rows := kept.going.rows
  have concluded := concluded_of_over setup world item now h c kept gone
  have spawned := spawned_of_concluded _ concluded
  have settled := attempts.dry (dry_of_concluded _ concluded)
  have joined : ∀ label ∈ dueLabels setup (world.store.dests item.relpath) now,
      ∃ v, h.status label = .joined v := by
    intro label due
    exact (settled label).resolve_left ((attempts.spawned spawned label).mpr due)
  constructor
  · refine (List.perm_ext_iff_of_nodup attempts.attemptedOnce (mem_due_nodup setup _ now)).mpr ?_
    intro label
    rw [attempts.attempted]
    constructor
    · intro tried
      rcases settled label with idle | ⟨v, was⟩
      · rw [idle] at tried
        cases tried
      · exact due_of_joined setup item now h _ _ _ attempts spawned label v was
    · intro due
      obtain ⟨v, was⟩ := joined label due
      rw [was]
      rfl
  · exact joined
  · exact rows.foreign
  · obtain ⟨row, found, _, completed⟩ := rows.row
    refine ⟨row, found, fun unfinished => ?_⟩
    have stage : h.stage.isCompleted = false := by
      cases done : h.stage.isCompleted with
      | false => rfl
      | true => exact absurd (completed done) unfinished
    funext label
    exact rows.dests stage label
  · intro label idle
    apply left_idle
    rcases settled label with none | ⟨v, was⟩
    · exact none
    · exact absurd (due_of_joined setup item now h _ _ _ attempts spawned label v was) idle
  · exact phase_verified setup item now h _
  · exact left_failed setup item now h _
  · intro waits
    obtain ⟨gate, rolled, same⟩ := rolled_of_waits setup world item now h c kept.going concluded waits
    obtain ⟨row, found, was, _⟩ := rows.row
    obtain ⟨failed, gated⟩ := was _ _ _ rolled
    have dests : c.state.store.dests item.relpath = left setup item now h (world.store.dests item.relpath) :=
      funext (rows.dests (by rw [rolled]; rfl))
    have every := mem_gates setup item now h _ _ _ attempts spawned settled waits
    have least : IsLeast (gates setup (c.state.store.dests item.relpath)) row.nextAttemptAt := by
      obtain ⟨label, member, pending⟩ := waits.pending
      have first := earliest_least now _ (List.ne_nil_of_mem ((every _).mpr ⟨label, member, pending, rfl⟩))
      rw [dests, gated, same]
      exact ⟨(every _).mp first.1, fun other there => first.2 ((every other).mpr there)⟩
    refine ⟨row, found, failed, least, ?_, ?_⟩
    · intro later reached
      obtain ⟨label, member, pending, at_⟩ := least.1
      apply List.ne_nil_of_mem
      exact (mem_due setup later _ label).mpr ⟨member, pending, by rw [at_]; exact reached⟩
    · exact unclaimed_before c.state.store item.relpath row found

/-- Every round of an item, however its attempts end and in whichever order, leaves its
destinations to themselves. -/
theorem destinations_independent (blank : world.attempts 1 = [])
    (present : ∃ row, world.store.items item.relpath = some row) (h : Log) (c : Round)
    (tracked : Tracked (rounds setup) (rounded setup) (fun c => c = roundStart setup world item now)
      (fun _ c choice => Calm c choice) h c) (gone : ∀ t ∈ c.threads, t.id ≠ 1) :
    Independent setup item now h world.store c.state.store :=
  independent_of_kept setup world item now h c
    (kept_run setup world item now blank present h c tracked) gone

/-! ### Two destinations, and one -/

def bothSetup : Setup := { smallSetup plainCompletion with dests := [.local, .s3] }

def verifiedAlready : DestState := ⟨"local", .verified, 2, 7, none⟩

def claimedWorld : World :=
  { smallWorld oneFile with
    store := (((emptyStore "plant").insertRow "a"
      { Store.freshRow 0 0 0 with state := .inProgress }).setDest "a" "local" fun _ => verifiedAlready) }

def claimedItem : WorkItem :=
  (emptyStore "plant").toItem "a" { Store.freshRow 0 0 0 with state := .inProgress }

def calmAt (_ : Log) (_ : Round) : Choice Answer Event → Bool
  | .run _ (.refused _) => false
  | .run _ _ => true
  | _ => false

theorem calm_of_check (h : Log) (c : Round) (choice : Choice Answer Event)
    (checked : calmAt h c choice = true) : Calm c choice := by
  constructor
  · rintro t _ text rfl
    cases checked
  · rintro t _ text rfl
    cases checked
  · rintro event rfl
    cases checked
  · rintro id rfl
    cases checked

/-- The remote destination is not reached, and the item waits for it. -/
def untilWaiting : List Step :=
  go 1 [.asIs, .asIs] ++ go 2 [.asIs, .failed (.transient "down") false none, .number 3, .asIs, .asIs] ++
    go 1 [.number 0, .asIs]

def waitsFor (label : String) (h : Log) (c : Round) : Bool :=
  (c.threads.all fun t => t.id ≠ 1) &&
    (match h.status label with
      | .joined (.failed _ _) => true
      | _ => false) &&
    (c.state.store.items "a").any fun row => row.state = .failed && row.nextAttemptAt = 103

theorem destinations_independent_once :
    ∃ (h : Log) (c : Round), (c.state.store.items "a").any (fun row => row.nextAttemptAt = 103) = true ∧
      (∃ error jitter, h.status "s3" = .joined (.failed error jitter)) ∧
      Independent bothSetup claimedItem 100 h claimedWorld.store c.state.store := by
  obtain ⟨h, c, tracked, found⟩ := exists_of_tracked_run (rounds bothSetup) (rounded bothSetup)
    (fun c => c = roundStart bothSetup claimedWorld claimedItem 100) (fun _ c choice => Calm c choice)
    calmAt calm_of_check (waitsFor "s3") untilWaiting _ rfl (by decide +kernel)
  rw [waitsFor, Bool.and_eq_true, Bool.and_eq_true] at found
  obtain ⟨⟨gone, failed⟩, row⟩ := found
  have ended : ∀ t ∈ c.threads, t.id ≠ 1 := fun t ht => of_decide_eq_true (List.all_eq_true.mp gone t ht)
  refine ⟨h, c, ?_, ?_, destinations_independent bothSetup claimedWorld claimedItem 100 rfl
    ⟨_, rfl⟩ h c tracked ended⟩
  · obtain ⟨r, there, holds⟩ := (Option.any_eq_true _ _).mp row
    rw [there]
    exact (Bool.and_eq_true _ _ ▸ holds).2
  · cases status : h.status "s3" with
    | joined v =>
        cases v with
        | failed error jitter => exact ⟨error, jitter, rfl⟩
        | verified => rw [status] at failed; cases failed
    | _ => rw [status] at failed; cases failed

/-- The only destination is verified already: the file is deleted and the round completes. -/
def untilForgotten : List Step :=
  go 1 [.asIs, .asIs, .asIs, .asIs, .asIs, .asIs] ++ go 2 [.disk (.asIs 0), .disk (.asIs 0), .asIs] ++
    go 1 [.asIs, .asIs, .asIs, .asIs, .asIs]

def forgets (h : Log) (c : Round) : Bool :=
  (c.threads.all fun t => t.id ≠ 1) && h.attempted.isEmpty && (c.state.store.dests "a" "local").isNone

/-- A round may delete the row of a destination that is not due. -/
theorem verified_row_deleted :
    ∃ h c, Tracked (rounds (smallSetup plainCompletion)) (rounded (smallSetup plainCompletion))
        (fun c => c = roundStart (smallSetup plainCompletion) claimedWorld claimedItem 100)
        (fun _ c choice => Calm c choice) h c ∧
      (∀ t ∈ c.threads, t.id ≠ 1) ∧
      "local" ∉ dueLabels (smallSetup plainCompletion) (claimedWorld.store.dests "a") 100 ∧
      claimedWorld.store.dests "a" "local" = some verifiedAlready ∧
      c.state.store.dests "a" "local" = none := by
  obtain ⟨h, c, tracked, found⟩ := exists_of_tracked_run (rounds (smallSetup plainCompletion))
    (rounded (smallSetup plainCompletion))
    (fun c => c = roundStart (smallSetup plainCompletion) claimedWorld claimedItem 100)
    (fun _ c choice => Calm c choice) calmAt calm_of_check forgets untilForgotten _ rfl
    (by decide)
  rw [forgets, Bool.and_eq_true, Bool.and_eq_true] at found
  obtain ⟨⟨gone, _⟩, forgotten⟩ := found
  refine ⟨h, c, tracked, fun t ht => of_decide_eq_true (List.all_eq_true.mp gone t ht), by decide, rfl,
    Option.isNone_iff_eq_none.mp forgotten⟩

end FileReplicator.Independence
