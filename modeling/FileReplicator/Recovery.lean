import FileReplicator.Rows
import FileReplicator.Sequential

/-!
# Recovery by itself

Startup recovery when no statement is refused and nobody else writes to the
store: whatever the destinations and the file system answer, every row it lists
leaves its state along its own path, no other row changes, and a second recovery
finds nothing to do.
-/

namespace FileReplicator.Recovery

open Domain DurableStore Effects SourceActions Operations Worker FileReplicator.Sequential Runs Rows

variable (setup : Setup)

/-! ## What recovery sees -/

inductive Waiting where
  | nothing
  | action (handle : Nat)
  | quarantine (handle : Nat)
  deriving DecidableEq

structure Seen where
  store : Store
  /-- Destinations of rows that did not pass their re-verification. -/
  failed : List (String × String)
  waiting : Waiting

def may (s : Seen) : Op → Prop
  | .store _ | .verify _ _ _ _ | .draw | .reportQuarantined _ | .startAction _ | .startQuarantine _ =>
      s.waiting = .nothing
  | .awaitAction handle => s.waiting = .action handle
  | .awaitQuarantine handle => s.waiting = .quarantine handle
  | _ => False

def noteVerdict (s : Seen) (relpath label : String) : Except ReplError Unit → Seen
  | .ok () => s
  | .error _ => { s with failed := (relpath, label) :: s.failed }

inductive Does (s : Seen) : (operation : Op) → Ret operation → Seen → Prop where
  | statement (operation : StoreOp) :
      Does s (.store operation) (.ok (callStore s.store operation).1)
        { s with store := (callStore s.store operation).2 }
  | verified (item : WorkItem) (label : String) (expected : Delivered) (policy : Verify)
      (verdict : Except ReplError Unit) :
      Does s (.verify item label expected policy) verdict
        (noteVerdict s item.relpath label verdict)
  | drawn (n : Nat) : Does s .draw n s
  | reported (relpath : String) : Does s (.reportQuarantined relpath) () s
  | startedAction (ctx : CleanupCtx) (handle : Nat) :
      Does s (.startAction ctx) handle { s with waiting := .action handle }
  | awaitedAction (handle : Nat) (result : Except String (Except ReplError CleanupDone)) :
      Does s (.awaitAction handle) result { s with waiting := .nothing }
  | startedQuarantine (job : QuarantineJob) (handle : Nat) :
      Does s (.startQuarantine job) handle { s with waiting := .quarantine handle }
  | awaitedQuarantine (handle : Nat) (result : Except String Unit) :
      Does s (.awaitQuarantine handle) result { s with waiting := .nothing }

/-- A program that alone writes to the store, while no statement is refused. -/
def undisturbed : Semantics Op Ret Seen := ⟨may, Does⟩

def Seen.failing (s : Seen) (relpath : String) : Prop := ∃ label, (relpath, label) ∈ s.failed

def exhaustedAs : OnExhausted → ItemState
  | .retainInPlace => .retained
  | .quarantine => .quarantined

/-- The state of a row after recovery, from its state before and whether a destination failed. -/
def Settles (failing : Prop) : ItemState → ItemState → Prop
  | .inProgress, after => after = .ready
  | .verified, after =>
      (after = .ready ∨ after = .completed ∨ after = .cleanupFailed) ∧ (after = .ready ↔ failing)
  | .cleanupPending, after => after = .completed ∨ after = .cleanupFailed
  | .exhausted, after => after = exhaustedAs setup.completion.onExhausted
  | before, after => after = before

structure Wrote (relpath : String) (change : Row → Row) (s after : Seen) : Prop where
  items : after.store.items = (s.store.updateRow relpath change).items
  order : after.store.order = s.store.order
  dests : ∀ r, r ≠ relpath → after.store.dests r = s.store.dests r
  failing : ∀ r, r ≠ relpath → (after.failing r ↔ s.failing r)
  idle : after.waiting = .nothing

theorem wrote_trans {relpath : String} {first second : Row → Row} {s middle after : Seen}
    (early : Wrote relpath first s middle) (late : Wrote relpath second middle after) :
    Wrote relpath (second ∘ first) s after := by
  constructor
  · funext r
    rw [late.items, Store.items_update, Store.items_update, early.items, Store.items_update]
    split
    · rw [Option.map_map]
    · rfl
  · exact late.order.trans early.order
  · intro r other
    rw [late.dests r other, early.dests r other]
  · intro r other
    exact (late.failing r other).trans (early.failing r other)
  · exact late.idle

theorem wrote_nothing (relpath : String) (s : Seen) (idle : s.waiting = .nothing) :
    Wrote relpath id s s := by
  constructor
  · funext r
    rw [Store.items_update]
    split
    · simp
    · rfl
  · rfl
  · exact fun _ _ => rfl
  · exact fun _ _ => Iff.rfl
  · exact idle

theorem statement_succeeds (operation : StoreOp) (s : Seen)
    (post : StoreRet operation → Seen → Prop) (idle : s.waiting = .nothing)
    (holds : post (callStore s.store operation).1
      { s with store := (callStore s.store operation).2 }) :
    Succeeds undisturbed (statement operation) s post := by
  apply ensures_perform undisturbed
  · exact idle
  · intro ret after does
    cases does
    exact ⟨_, rfl, holds⟩

theorem wrote_update (relpath : String) (change : Row → Row) (s : Seen) (after : Store)
    (idle : s.waiting = .nothing) (items : after.items = (s.store.updateRow relpath change).items)
    (order : after.order = s.store.order)
    (dests : ∀ r, r ≠ relpath → after.dests r = s.store.dests r) :
    Wrote relpath change s { s with store := after } :=
  ⟨items, order, dests, fun _ _ => Iff.rfl, idle⟩

theorem wrote_aside (relpath : String) (s : Seen) (after : Store) (idle : s.waiting = .nothing)
    (items : after.items = s.store.items) (order : after.order = s.store.order)
    (dests : ∀ r, r ≠ relpath → after.dests r = s.store.dests r) :
    Wrote relpath id s { s with store := after } := by
  have same := wrote_nothing relpath s idle
  exact ⟨items.trans same.items, order, dests, fun _ _ => Iff.rfl, idle⟩

theorem clear_resume_all_wrote (relpath : String) (s : Seen) (idle : s.waiting = .nothing) :
    Ensures undisturbed (bestEffort (clearResumeAll relpath)) s fun _ after =>
      Wrote relpath id s after ∧ after.failed = s.failed := by
  apply ensures_best_effort
  apply statement_succeeds _ s _ idle
  exact ⟨wrote_aside relpath s _ idle rfl rfl fun _ _ => rfl, rfl⟩

theorem clear_dest_states_wrote (relpath : String) (s : Seen) (idle : s.waiting = .nothing) :
    Ensures undisturbed (bestEffort (clearDestStates relpath)) s fun _ after =>
      Wrote relpath id s after ∧ after.failed = s.failed := by
  apply ensures_best_effort
  apply statement_succeeds _ s _ idle
  refine ⟨wrote_aside relpath s _ idle rfl rfl fun r other => ?_, rfl⟩
  funext dest
  simp [callStore, Store.clearDestStates, other]

theorem delivered_checksum_ensures (relpath : String) (labels : List String) (s : Seen)
    (idle : s.waiting = .nothing) :
    Ensures undisturbed (deliveredChecksum relpath labels) s fun _ after => after = s := by
  induction labels with
  | nil => exact rfl
  | cons label rest ih =>
      rw [deliveredChecksum]
      apply ensures_bind
      apply ensures_mono undisturbed _ _ _ _ (statement_succeeds (.loadResume relpath label) s
        (fun _ after => after = s) idle rfl)
      rintro loaded after ⟨_, _, rfl⟩
      split
      · exact ih
      · exact rfl

def Cleaned (state : ItemState) : Prop := state = .completed ∨ state = .cleanupFailed

theorem finish_completed_succeeds (item : WorkItem) (now : Int) (s : Seen)
    (idle : s.waiting = .nothing) :
    Succeeds undisturbed (finishCompleted item now) s fun _ after =>
      after.failed = s.failed ∧ ∃ change, Wrote item.relpath change s after ∧
        ∀ row, Cleaned (change row).state := by
  rw [finishCompleted]
  apply succeeds_bind
  apply statement_succeeds _ s _ idle
  have marked := wrote_update item.relpath
    (fun row => { row with state := .completed, updatedAt := now }) s
    (s.store.setState item.relpath .completed now) idle rfl rfl fun _ _ => rfl
  apply succeeds_bind
  apply succeeds_always
  apply ensures_mono undisturbed _ _ _ _ (clear_resume_all_wrote item.relpath _ marked.idle)
  rintro _ first ⟨wrote_first, failed_first⟩
  apply succeeds_bind
  apply succeeds_always
  apply ensures_mono undisturbed _ _ _ _
    (clear_dest_states_wrote item.relpath first wrote_first.idle)
  rintro _ second ⟨wrote_second, failed_second⟩
  apply succeeds_bind
  apply statement_succeeds (.bumpStats 1 0 (UInt64.ofNat item.size).toInt64) second _
    wrote_second.idle
  have counted := wrote_aside item.relpath second
    (second.store.bumpStats 1 0 (UInt64.ofNat item.size).toInt64)
    wrote_second.idle rfl rfl fun _ _ => rfl
  apply succeeds_pure
  refine ⟨failed_second.trans failed_first, _,
    wrote_trans marked (wrote_trans wrote_first (wrote_trans wrote_second counted)), ?_⟩
  exact fun row => Or.inl rfl

theorem record_cleanup_failure_succeeds (item : WorkItem) (error : ReplError) (now : Int) (s : Seen)
    (idle : s.waiting = .nothing) :
    Succeeds undisturbed (recordCleanupFailure setup item error now) s fun _ after =>
      after.failed = s.failed ∧ ∃ change, Wrote item.relpath change s after ∧
        ∀ row, Cleaned (change row).state := by
  rw [recordCleanupFailure]
  apply succeeds_bind
  apply succeeds_always
  apply ensures_perform undisturbed
  · exact idle
  intro jitter after drawn
  cases drawn
  apply succeeds_bind
  apply statement_succeeds _ s _ idle
  apply succeeds_pure
  refine ⟨rfl, _, wrote_update item.relpath _ s _ idle rfl rfl fun _ _ => rfl, ?_⟩
  exact fun row => Or.inr rfl

theorem run_cleanup_succeeds (item : WorkItem) (now : Int) (s : Seen) (idle : s.waiting = .nothing) :
    Succeeds undisturbed (runCleanup setup item now) s fun _ after =>
      after.failed = s.failed ∧ ∃ change, Wrote item.relpath change s after ∧
        ∀ row, Cleaned (change row).state := by
  rw [runCleanup]
  apply succeeds_bind
  apply statement_succeeds _ s _ idle
  have marked := wrote_update item.relpath
    (fun row => { row with state := .cleanupPending, updatedAt := now }) s
    (s.store.setState item.relpath .cleanupPending now) idle rfl rfl fun _ _ => rfl
  apply succeeds_bind
  apply succeeds_always
  apply ensures_mono undisturbed _ _ _ _
    (delivered_checksum_ensures item.relpath setup.labels _ marked.idle)
  rintro checksum _ rfl
  apply succeeds_bind
  apply succeeds_always
  apply ensures_perform undisturbed
  · exact idle
  intro handle _ started
  cases started
  apply succeeds_bind
  apply succeeds_always
  apply ensures_perform undisturbed
  · rfl
  intro outcome _ awaited
  cases awaited
  -- both ways to settle write to the row once more
  have settled : Succeeds undisturbed (settleCleanup setup item now (joinOutcome outcome))
      ({ s with store := s.store.setState item.relpath .cleanupPending now, waiting := .nothing })
      fun _ after => after.failed = s.failed ∧ ∃ change,
        Wrote item.relpath change
          ({ s with store := s.store.setState item.relpath .cleanupPending now, waiting := .nothing })
          after ∧
        ∀ row, Cleaned (change row).state := by
    cases joinOutcome outcome with
    | ok done => exact finish_completed_succeeds item now _ rfl
    | error e => exact record_cleanup_failure_succeeds setup item e now _ rfl
  apply succeeds_mono undisturbed _ _ _ _ settled
  rintro _ after ⟨failed, change, wrote, cleaned⟩
  refine ⟨failed, change ∘ _, wrote_trans marked ?_, fun row => cleaned _⟩
  rw [← idle] at wrote
  exact wrote

theorem finish_exhausted_succeeds (item : WorkItem) (lastError : String) (attempts : Nat) (now : Int)
    (s : Seen) (idle : s.waiting = .nothing) :
    Succeeds undisturbed (finishExhausted setup item lastError attempts now) s fun _ after =>
      after.failed = s.failed ∧ ∃ change, Wrote item.relpath change s after ∧
        ∀ row, (change row).state = exhaustedAs setup.completion.onExhausted := by
  unfold finishExhausted
  cases setup.completion.onExhausted with
  | retainInPlace =>
      apply succeeds_bind
      apply statement_succeeds _ s _ idle
      apply succeeds_pure
      refine ⟨rfl, _, wrote_update item.relpath _ s _ idle rfl rfl fun _ _ => rfl, ?_⟩
      exact fun row => rfl
  | quarantine =>
      apply succeeds_bind
      apply succeeds_always
      apply ensures_perform undisturbed
      · exact idle
      intro handle _ started
      cases started
      apply succeeds_bind
      apply succeeds_always
      apply ensures_perform undisturbed
      · rfl
      intro joined _ awaited
      cases awaited
      apply succeeds_bind
      apply statement_succeeds _ _ _ rfl
      apply succeeds_bind
      apply succeeds_always
      apply ensures_perform undisturbed
      · rfl
      intro _ _ reported
      cases reported
      apply succeeds_pure
      refine ⟨rfl, fun row => { row with state := .quarantined, updatedAt := now }, ?_,
        fun row => rfl⟩
      exact ⟨rfl, rfl, fun _ _ => rfl, fun _ _ => Iff.rfl, rfl⟩

/-- Destinations of a row were verified again: one has failed if there was one before or the result
is false. -/
structure Reverified (relpath : String) (s : Seen) (passed : Bool) (after : Seen) : Prop where
  wrote : Wrote relpath id s after
  failing : after.failing relpath ↔ s.failing relpath ∨ passed = false

theorem phase_elsewhere (store : Store) (relpath label r : String) (phase : DestPhase)
    (other : r ≠ relpath) : (store.setDestPhase relpath label phase).dests r = store.dests r := by
  funext dest
  simp [Store.setDestPhase, Store.setDest, other]

theorem settle_reverify_succeeds (it : WorkItem) (label : String) (s : Seen)
    (verdict : Except ReplError Unit) (idle : s.waiting = .nothing) :
    Succeeds undisturbed (settleReverify it label verdict) (noteVerdict s it.relpath label verdict)
      (Reverified it.relpath s) := by
  cases verdict with
  | ok passed =>
      apply succeeds_bind
      apply statement_succeeds _ s _ idle
      apply succeeds_pure
      refine ⟨wrote_aside it.relpath s _ idle rfl rfl fun r other => ?_, ?_⟩
      · exact phase_elsewhere s.store it.relpath label r .verified other
      · simp [Seen.failing]
  | error e =>
      have noted : (noteVerdict s it.relpath label (.error e)).waiting = .nothing := idle
      apply succeeds_bind
      apply statement_succeeds _ _ _ noted
      apply succeeds_bind
      apply succeeds_always
      apply ensures_best_effort
      apply statement_succeeds _ _ _ (by exact noted)
      apply succeeds_pure
      constructor
      · have same := wrote_nothing it.relpath s idle
        refine ⟨same.items, rfl, fun r other => ?_, fun r other => ?_, idle⟩
        · exact phase_elsewhere s.store it.relpath label r .pending other
        · simp [Seen.failing, noteVerdict, other]
      · simp [Seen.failing, noteVerdict]

theorem reverify_one_dest_succeeds (it : WorkItem) (label : String) (s : Seen)
    (idle : s.waiting = .nothing) :
    Succeeds undisturbed (reverifyOneDest it label) s (Reverified it.relpath s) := by
  rw [reverifyOneDest]
  apply succeeds_bind
  apply statement_succeeds _ s _ idle
  apply succeeds_bind
  apply succeeds_always
  apply ensures_perform undisturbed
  · exact idle
  intro verdict _ verified
  cases verified
  exact settle_reverify_succeeds it label s verdict idle

theorem reverified_trans {relpath : String} {s middle after : Seen} {first second : Bool}
    (early : Reverified relpath s first middle) (late : Reverified relpath middle second after) :
    Reverified relpath s (first && second) after := by
  refine ⟨wrote_trans early.wrote late.wrote, ?_⟩
  rw [late.failing, early.failing, Bool.and_eq_false_iff, or_assoc]

theorem reverify_each_succeeds (it : WorkItem) (labels : List String) (s : Seen)
    (idle : s.waiting = .nothing) :
    Succeeds undisturbed (reverifyEach it labels) s (Reverified it.relpath s) := by
  induction labels generalizing s with
  | nil => exact ⟨true, rfl, wrote_nothing it.relpath s idle, by simp⟩
  | cons label rest ih =>
      rw [reverifyEach]
      apply succeeds_bind
      apply succeeds_mono undisturbed _ _ _ _ (reverify_one_dest_succeeds it label s idle)
      intro first middle early
      apply succeeds_bind
      apply succeeds_mono undisturbed _ _ _ _ (ih middle early.wrote.idle)
      intro second after late
      exact ⟨_, rfl, reverified_trans early late⟩

/-! ## One row -/

/-- The row of an item goes where recovery takes it. -/
def Moves (it : WorkItem) (s after : Seen) : Prop :=
  ∃ change, Wrote it.relpath change s after ∧ ∀ row, row.state = it.state →
    Settles setup (after.failing it.relpath) it.state (change row).state

theorem settles_verified (failing : Prop) (state : ItemState) (passed : ¬failing)
    (cleaned : Cleaned state) : Settles setup failing .verified state := by
  refine ⟨Or.inr cleaned, fun ready => ?_, fun failed => absurd failed passed⟩
  rcases cleaned with rfl | rfl
  · cases ready
  · cases ready

theorem set_ready_succeeds (relpath : String) (now : Int) (s : Seen) (idle : s.waiting = .nothing) :
    Succeeds undisturbed (setState relpath .ready now) s fun _ after =>
      (after.failing relpath ↔ s.failing relpath) ∧
        Wrote relpath (fun row => { row with state := .ready, updatedAt := now }) s after := by
  apply statement_succeeds _ s _ idle
  exact ⟨Iff.rfl, wrote_update relpath _ s _ idle rfl rfl fun _ _ => rfl⟩

theorem recover_verified_succeeds (it : WorkItem) (now : Int) (s : Seen)
    (idle : s.waiting = .nothing) (state : it.state = .verified) (clean : ¬s.failing it.relpath) :
    Succeeds undisturbed (recoverVerified setup it now) s fun _ after => Moves setup it s after := by
  rw [recoverVerified]
  apply succeeds_bind
  apply succeeds_mono undisturbed _ _ _ _ (reverify_each_succeeds it setup.labels s idle)
  intro passed middle reverified
  cases passed with
  | true =>
      apply succeeds_bind
      apply succeeds_mono undisturbed _ _ _ _ (run_cleanup_succeeds setup it now middle
        reverified.wrote.idle)
      rintro _ after ⟨failed, change, wrote, cleaned⟩
      apply succeeds_pure
      refine ⟨_, wrote_trans reverified.wrote wrote, fun row _ => ?_⟩
      rw [state]
      apply settles_verified setup _ _ _ (cleaned row)
      rw [Seen.failing, failed]
      intro failing
      rcases reverified.failing.mp failing with before | wrong
      · exact clean before
      · cases wrong
  | false =>
      apply succeeds_mono undisturbed _ _ _ _ (set_ready_succeeds it.relpath now middle
        reverified.wrote.idle)
      rintro _ after ⟨failing, wrote⟩
      refine ⟨_, wrote_trans reverified.wrote wrote, fun row _ => ?_⟩
      rw [state]
      have failed := failing.mpr (reverified.failing.mpr (Or.inr rfl))
      exact ⟨Or.inl rfl, fun _ => failed, fun _ => rfl⟩

theorem reverify_persisted_succeeds (it : WorkItem) (s : Seen) (idle : s.waiting = .nothing) :
    Succeeds undisturbed (reverifyPersistedVerified setup it) s fun _ after =>
      Wrote it.relpath id s after := by
  rw [reverifyPersistedVerified]
  apply succeeds_bind
  apply statement_succeeds _ s _ idle
  apply succeeds_bind
  apply succeeds_mono undisturbed _ _ _ _ (reverify_each_succeeds it _ s idle)
  intro passed after reverified
  exact ⟨(), rfl, reverified.wrote⟩

theorem recover_one_succeeds (now : Int) (it : WorkItem) (s : Seen) (idle : s.waiting = .nothing)
    (state : it.state = .inProgress ∨ it.state = .verified ∨ it.state = .cleanupPending)
    (clean : ¬s.failing it.relpath) :
    Succeeds undisturbed (recoverOne setup now it) s fun _ after => Moves setup it s after := by
  unfold recoverOne
  rcases state with state | state | state
  · rw [state]
    apply succeeds_bind
    apply succeeds_mono undisturbed _ _ _ _ (reverify_persisted_succeeds setup it s idle)
    intro _ middle reverified
    apply succeeds_mono undisturbed _ _ _ _ (set_ready_succeeds it.relpath now middle reverified.idle)
    rintro _ after ⟨_, wrote⟩
    refine ⟨_, wrote_trans reverified wrote, fun row _ => ?_⟩
    rw [state]
    rfl
  · have verified := recover_verified_succeeds setup it now s idle state clean
    rw [state]
    exact verified
  · rw [state]
    apply succeeds_bind
    apply succeeds_mono undisturbed _ _ _ _ (run_cleanup_succeeds setup it now s idle)
    rintro _ after ⟨_, change, wrote, cleaned⟩
    apply succeeds_pure
    refine ⟨change, wrote, fun row _ => ?_⟩
    rw [state]
    exact cleaned row

theorem exhaust_one_succeeds (now : Int) (it : WorkItem) (s : Seen) (idle : s.waiting = .nothing)
    (state : it.state = .exhausted) :
    Succeeds undisturbed (finishExhausted setup it (it.lastError.getD "exhausted") it.attempts now) s
      fun _ after => Moves setup it s after := by
  apply succeeds_mono undisturbed _ _ _ _ (finish_exhausted_succeeds setup it _ _ now s idle)
  rintro _ after ⟨_, change, wrote, ended⟩
  refine ⟨change, wrote, fun row _ => ?_⟩
  rw [state]
  exact ended row

/-! ## A list of rows -/

structure Swept (rows : List WorkItem) (s after : Seen) : Prop where
  moved : ∀ it ∈ rows, ∀ row, s.store.items it.relpath = some row →
    ∃ later, after.store.items it.relpath = some later ∧
      Settles setup (after.failing it.relpath) row.state later.state
  others : ∀ r, r ∉ rows.map WorkItem.relpath →
    after.store.items r = s.store.items r ∧ (after.failing r ↔ s.failing r)
  order : after.store.order = s.store.order
  idle : after.waiting = .nothing

/-- A list of rows as the store has them, none of which has a failed destination. -/
structure Fresh (rows : List WorkItem) (s : Seen) : Prop where
  nodup : (rows.map WorkItem.relpath).Nodup
  current : ∀ it ∈ rows, ∀ row, s.store.items it.relpath = some row → row.state = it.state
  clean : ∀ it ∈ rows, ¬s.failing it.relpath
  idle : s.waiting = .nothing

theorem not_mem_tail {it : WorkItem} {rest : List WorkItem}
    (nodup : ((it :: rest).map WorkItem.relpath).Nodup) :
    it.relpath ∉ rest.map WorkItem.relpath := by
  rw [List.map_cons, List.nodup_cons] at nodup
  exact nodup.1

theorem fresh_tail (it : WorkItem) (rest : List WorkItem) (s middle : Seen)
    (fresh : Fresh (it :: rest) s) (moves : Moves setup it s middle) : Fresh rest middle := by
  obtain ⟨change, wrote, _⟩ := moves
  have apart : ∀ other ∈ rest, other.relpath ≠ it.relpath := by
    intro other member same
    apply not_mem_tail fresh.nodup
    rw [← same]
    exact List.mem_map_of_mem member
  constructor
  · have nodup := fresh.nodup
    rw [List.map_cons, List.nodup_cons] at nodup
    exact nodup.2
  · intro other member row found
    apply fresh.current other (List.mem_cons_of_mem _ member) row
    rwa [wrote.items, Store.items_update, if_neg (apart other member)] at found
  · intro other member failing
    exact fresh.clean other (List.mem_cons_of_mem _ member)
      ((wrote.failing _ (apart other member)).mp failing)
  · exact wrote.idle

theorem swept_cons (it : WorkItem) (rest : List WorkItem) (s middle after : Seen)
    (fresh : Fresh (it :: rest) s) (moves : Moves setup it s middle)
    (swept : Swept setup rest middle after) : Swept setup (it :: rest) s after := by
  obtain ⟨change, wrote, settles⟩ := moves
  have mine := swept.others it.relpath (not_mem_tail fresh.nodup)
  constructor
  · intro other member row found
    rcases List.mem_cons.mp member with rfl | later
    · refine ⟨change row, ?_, ?_⟩
      · rw [mine.1, wrote.items, Store.items_update, if_pos rfl, found, Option.map_some]
      · have current := fresh.current other member row found
        rw [mine.2, current]
        exact settles row current
    · have apart : other.relpath ≠ it.relpath := by
        intro same
        apply not_mem_tail fresh.nodup
        rw [← same]
        exact List.mem_map_of_mem later
      apply swept.moved other later row
      rw [wrote.items, Store.items_update, if_neg apart, found]
  · intro r absent
    rw [List.map_cons, List.mem_cons, not_or] at absent
    obtain ⟨items, failing⟩ := swept.others r absent.2
    constructor
    · rw [items, wrote.items, Store.items_update, if_neg absent.1]
    · exact failing.trans (wrote.failing r absent.1)
  · exact swept.order.trans wrote.order
  · exact swept.idle

theorem swept_nil (s : Seen) (idle : s.waiting = .nothing) : Swept setup [] s s := by
  constructor
  · intro _ member
    cases member
  · exact fun r _ => ⟨rfl, Iff.rfl⟩
  · rfl
  · exact idle

theorem recover_each_succeeds (now : Int) (rows : List WorkItem) (s : Seen) (fresh : Fresh rows s)
    (states : ∀ it ∈ rows,
      it.state = .inProgress ∨ it.state = .verified ∨ it.state = .cleanupPending) :
    Succeeds undisturbed (recoverEach setup now rows) s fun _ after => Swept setup rows s after := by
  induction rows generalizing s with
  | nil => exact ⟨(), rfl, swept_nil setup s fresh.idle⟩
  | cons it rest ih =>
      rw [recoverEach]
      apply succeeds_bind
      apply succeeds_mono undisturbed _ _ _ _ (recover_one_succeeds setup now it s fresh.idle
        (states it List.mem_cons_self) (fresh.clean it List.mem_cons_self))
      intro _ middle moves
      apply succeeds_mono undisturbed _ _ _ _ (ih middle (fresh_tail setup it rest s middle fresh moves)
        fun other member => states other (List.mem_cons_of_mem _ member))
      intro _ after swept
      exact swept_cons setup it rest s middle after fresh moves swept

theorem exhaust_each_succeeds (now : Int) (rows : List WorkItem) (s : Seen) (fresh : Fresh rows s)
    (states : ∀ it ∈ rows, it.state = .exhausted) :
    Succeeds undisturbed (exhaustEach setup now rows) s fun _ after => Swept setup rows s after := by
  induction rows generalizing s with
  | nil => exact ⟨(), rfl, swept_nil setup s fresh.idle⟩
  | cons it rest ih =>
      rw [exhaustEach]
      apply succeeds_bind
      apply succeeds_mono undisturbed _ _ _ _ (exhaust_one_succeeds setup now it s fresh.idle
        (states it List.mem_cons_self))
      intro _ middle moves
      apply succeeds_mono undisturbed _ _ _ _ (ih middle (fresh_tail setup it rest s middle fresh moves)
        fun other member => states other (List.mem_cons_of_mem _ member))
      intro _ after swept
      exact swept_cons setup it rest s middle after fresh moves swept

/-! ## All rows -/

def interrupted : ItemState → Bool
  | .inProgress | .verified | .cleanupPending | .exhausted => true
  | _ => false

structure Recovered (before : Store) (after : Seen) : Prop where
  moved : ∀ r row, before.items r = some row → ∃ later, after.store.items r = some later ∧
    Settles setup (after.failing r) row.state later.state
  others : ∀ r, (∀ row, before.items r = some row → interrupted row.state = false) →
    after.store.items r = before.items r

theorem settles_uninterrupted (failing : Prop) (before after : ItemState)
    (settles : Settles setup failing before after) : interrupted after = false := by
  cases before with
  | verified =>
      rcases settles.1 with rfl | rfl | rfl
      · rfl
      · rfl
      · rfl
  | inProgress =>
      cases settles
      rfl
  | cleanupPending =>
      rcases settles with rfl | rfl
      · rfl
      · rfl
  | exhausted =>
      cases settles
      cases setup.completion.onExhausted <;> rfl
  | _ =>
      cases settles
      rfl

theorem settles_same (failing : Prop) (state : ItemState) (calm : interrupted state = false) :
    Settles setup failing state state := by
  cases state with
  | inProgress => cases calm
  | verified => cases calm
  | cleanupPending => cases calm
  | exhausted => cases calm
  | _ => rfl

structure Table (store : Store) : Prop where
  keyed : Keyed store
  listed : Listed store

theorem table_swept (rows : List WorkItem) (s after : Seen) (table : Table s.store)
    (present : ∀ it ∈ rows, s.store.items it.relpath ≠ none) (swept : Swept setup rows s after) :
    Table after.store := by
  have same : ∀ r, after.store.items r = none ↔ s.store.items r = none := by
    intro r
    by_cases listed : r ∈ rows.map WorkItem.relpath
    · obtain ⟨it, member, rfl⟩ := List.mem_map.mp listed
      obtain ⟨row, found⟩ := Option.ne_none_iff_exists'.mp (present it member)
      obtain ⟨later, here, _⟩ := swept.moved it member row found
      rw [here, found]
      constructor <;> intro none <;> cases none
    · rw [(swept.others r listed).1]
  constructor
  · constructor
    · rw [swept.order]
      exact table.keyed.nodup
    · intro r member
      rw [swept.order] at member
      rw [Ne, same]
      exact table.keyed.listed r member
  · intro r found
    rw [Ne, same] at found
    rw [swept.order]
    exact table.listed r found

theorem mem_incomplete_iff (store : Store) (table : Table store) (r : String) (row : Row)
    (found : store.items r = some row) :
    r ∈ store.recoverIncomplete.map WorkItem.relpath ↔
      row.state = .inProgress ∨ row.state = .verified ∨ row.state = .cleanupPending := by
  have wanted : ∀ it : WorkItem, store.toItem r row = it →
      (it ∈ store.recoverIncomplete ↔
        row.state = .inProgress ∨ row.state = .verified ∨ row.state = .cleanupPending) := by
    rintro it rfl
    rw [Store.recoverIncomplete, mem_select_iff store table.listed]
    simp only [Bool.or_eq_true, decide_eq_true_eq, or_assoc]
    exact and_iff_left ⟨row, found, rfl⟩
  constructor
  · intro member
    obtain ⟨it, hit, rfl⟩ := List.mem_map.mp member
    obtain ⟨row', found', _, same⟩ := store.mem_recover_incomplete it hit
    rw [found] at found'
    cases found'
    exact (wanted it same.symm).mp hit
  · intro state
    exact List.mem_map.mpr ⟨store.toItem r row, (wanted _ rfl).mpr state, rfl⟩

theorem mem_state_iff (store : Store) (table : Table store) (state : ItemState) (r : String)
    (row : Row) (found : store.items r = some row) :
    r ∈ (store.listByState state).map WorkItem.relpath ↔ row.state = state := by
  constructor
  · intro member
    obtain ⟨it, hit, rfl⟩ := List.mem_map.mp member
    obtain ⟨row', found', state', _⟩ := store.mem_list_by_state state it hit
    rw [found] at found'
    cases found'
    exact state'
  · intro wanted
    refine List.mem_map.mpr ⟨store.toItem r row, ?_, rfl⟩
    rw [Store.listByState, mem_select_iff store table.listed]
    exact ⟨decide_eq_true wanted, row, found, rfl⟩

theorem fresh_incomplete (s : Seen) (table : Table s.store) (idle : s.waiting = .nothing)
    (clean : s.failed = []) : Fresh s.store.recoverIncomplete s := by
  constructor
  · exact select_nodup s.store table.keyed _
  · intro it member row found
    obtain ⟨row', found', state, _⟩ := s.store.mem_recover_incomplete it member
    rw [found] at found'
    cases found'
    exact state
  · rintro it _ ⟨label, failed⟩
    rw [clean] at failed
    cases failed
  · exact idle

theorem exhausted_unlisted (s middle : Seen)
    (swept : Swept setup s.store.recoverIncomplete s middle) (r : String) (row : Row)
    (found : middle.store.items r = some row) (exhausted : row.state = .exhausted) :
    r ∉ s.store.recoverIncomplete.map WorkItem.relpath := by
  intro listed
  obtain ⟨it, member, rfl⟩ := List.mem_map.mp listed
  obtain ⟨before, was, _, _⟩ := s.store.mem_recover_incomplete it member
  obtain ⟨later, here, settles⟩ := swept.moved it member before was
  rw [found] at here
  cases here
  have calm := settles_uninterrupted setup _ _ _ settles
  rw [exhausted] at calm
  cases calm

theorem fresh_exhausted (s middle : Seen) (after : Table middle.store)
    (clean : s.failed = []) (swept : Swept setup s.store.recoverIncomplete s middle) :
    Fresh (middle.store.listByState .exhausted) middle := by
  constructor
  · exact select_nodup middle.store after.keyed _
  · intro it member row found
    obtain ⟨row', found', state, same⟩ := middle.store.mem_list_by_state .exhausted it member
    rw [found] at found'
    cases found'
    rw [same]
    rfl
  · intro it member failing
    obtain ⟨row, found, state, _⟩ := middle.store.mem_list_by_state .exhausted it member
    have unlisted := exhausted_unlisted setup s middle swept it.relpath row found state
    obtain ⟨label, failed⟩ := (swept.others it.relpath unlisted).2.mp failing
    rw [clean] at failed
    cases failed
  · exact swept.idle

theorem recovered_other (s middle after : Seen) (table : Table s.store)
    (first : Swept setup s.store.recoverIncomplete s middle)
    (second : Swept setup (middle.store.listByState .exhausted) middle after) (r : String)
    (calm : ∀ row, s.store.items r = some row → interrupted row.state = false) :
    after.store.items r = s.store.items r := by
  have unlisted : r ∉ s.store.recoverIncomplete.map WorkItem.relpath := by
    intro listed
    obtain ⟨it, member, rfl⟩ := List.mem_map.mp listed
    obtain ⟨row, found, _, _⟩ := s.store.mem_recover_incomplete it member
    have state := (mem_incomplete_iff s.store table it.relpath row found).mp listed
    have still := calm row found
    rcases state with state | state | state <;> rw [state] at still <;> cases still
  have same := (first.others r unlisted).1
  have unexhausted : r ∉ (middle.store.listByState .exhausted).map WorkItem.relpath := by
    intro listed
    obtain ⟨it, member, rfl⟩ := List.mem_map.mp listed
    obtain ⟨row, found, state, _⟩ := middle.store.mem_list_by_state .exhausted it member
    have still := calm row (same ▸ found)
    rw [state] at still
    cases still
  rw [(second.others r unexhausted).1, same]

/-- A row goes where it settles by the first list, the second, or by staying as it is. -/
theorem recovered_row (s middle after : Seen) (table : Table s.store)
    (table_middle : Table middle.store) (first : Swept setup s.store.recoverIncomplete s middle)
    (second : Swept setup (middle.store.listByState .exhausted) middle after) (r : String)
    (row : Row) (found : s.store.items r = some row) :
    ∃ later, after.store.items r = some later ∧
      Settles setup (after.failing r) row.state later.state := by
  by_cases listed : r ∈ s.store.recoverIncomplete.map WorkItem.relpath
  · obtain ⟨it, member, rfl⟩ := List.mem_map.mp listed
    obtain ⟨later, here, settles⟩ := first.moved it member row found
    have unexhausted : it.relpath ∉ (middle.store.listByState .exhausted).map WorkItem.relpath := by
      rw [mem_state_iff middle.store table_middle .exhausted it.relpath later here]
      intro exhausted
      have calm := settles_uninterrupted setup _ _ _ settles
      rw [exhausted] at calm
      cases calm
    obtain ⟨same, failing⟩ := second.others it.relpath unexhausted
    refine ⟨later, same.trans here, ?_⟩
    rw [failing]
    exact settles
  · have here := (first.others r listed).1.trans found
    by_cases exhausted : row.state = .exhausted
    · have member := (mem_state_iff middle.store table_middle .exhausted r row here).mpr exhausted
      obtain ⟨it, hit, rfl⟩ := List.mem_map.mp member
      exact second.moved it hit row here
    · have unexhausted : r ∉ (middle.store.listByState .exhausted).map WorkItem.relpath := by
        rwa [mem_state_iff middle.store table_middle .exhausted r row here]
      refine ⟨row, ((second.others r unexhausted).1).trans here, settles_same setup _ row.state ?_⟩
      rw [mem_incomplete_iff s.store table r row found] at listed
      cases state : row.state with
      | inProgress => exact absurd (Or.inl state) listed
      | verified => exact absurd (Or.inr (Or.inl state)) listed
      | cleanupPending => exact absurd (Or.inr (Or.inr state)) listed
      | exhausted => exact absurd state exhausted
      | _ => rfl

theorem recover_succeeds (now : Int) (s : Seen) (table : Table s.store) (idle : s.waiting = .nothing)
    (clean : s.failed = []) :
    Succeeds undisturbed (recover setup now) s fun _ after =>
      Recovered setup s.store after ∧ Table after.store ∧ after.waiting = .nothing := by
  rw [recover]
  apply succeeds_bind
  apply statement_succeeds _ s _ idle
  have states : ∀ it ∈ s.store.recoverIncomplete,
      it.state = .inProgress ∨ it.state = .verified ∨ it.state = .cleanupPending := by
    intro it member
    obtain ⟨row, found, state, _⟩ := s.store.mem_recover_incomplete it member
    rw [← state, ← mem_incomplete_iff s.store table it.relpath row found]
    exact List.mem_map_of_mem member
  have present : ∀ it ∈ s.store.recoverIncomplete, s.store.items it.relpath ≠ none := by
    intro it member
    obtain ⟨row, found, _, _⟩ := s.store.mem_recover_incomplete it member
    rw [found]
    exact Option.some_ne_none row
  apply succeeds_bind
  apply succeeds_mono undisturbed _ _ _ _ (recover_each_succeeds setup now s.store.recoverIncomplete
    s (fresh_incomplete s table idle clean) states)
  intro _ middle first
  have table_middle := table_swept setup _ s middle table present first
  apply succeeds_bind
  apply statement_succeeds _ middle _ first.idle
  have exhausted : ∀ it ∈ middle.store.listByState .exhausted, it.state = .exhausted := by
    intro it member
    obtain ⟨row, _, state, same⟩ := middle.store.mem_list_by_state .exhausted it member
    rw [same]
    exact state
  have present_middle : ∀ it ∈ middle.store.listByState .exhausted,
      middle.store.items it.relpath ≠ none := by
    intro it member
    obtain ⟨row, found, _, _⟩ := middle.store.mem_list_by_state .exhausted it member
    rw [found]
    exact Option.some_ne_none row
  apply succeeds_mono undisturbed _ _ _ _ (exhaust_each_succeeds setup now
    (middle.store.listByState .exhausted) middle
    (fresh_exhausted setup s middle table_middle clean first) exhausted)
  intro _ after second
  refine ⟨⟨fun r row found => ?_, fun r calm => ?_⟩,
    table_swept setup _ middle after table_middle present_middle second, second.idle⟩
  · exact recovered_row setup s middle after table table_middle first second r row found
  · exact recovered_other setup s middle after table first second r calm

end FileReplicator.Recovery
