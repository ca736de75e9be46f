import FileReplicator.ControlRuns
import FileReplicator.Rows

/-!
# The reads of a status document

A status document is made of seven reads, each under a lock of its own, and whatever
the instances ask of the database in between is done. Every part of the document is
exact of the moment it was read; when nothing of the instance comes between them, the
parts account for each of its items.
-/

namespace FileReplicator.StatusReads

open Domain DurableStore Effects Json Operations Startup SqliteStore StatusDocument ControlRuns

/-- What is asked of the database before each call of the document. -/
abbrev Gaps := Nat → List (String × Query)

def dbAfter (gaps : Gaps) : Nat → Database
  | 0 => emptyDatabase
  | k + 1 => (serve (dbAfter gaps k) (gaps k)).2

def runBetween {α : Type} (gaps : Gaps) (answers : Nat → ControlRuns.Answer) :
    Nat → ControlRuns.World → Commands.Program α → α
  | _, _, .done value => value
  | k, world, .call operation next =>
      let out := ControlRuns.call { world with db := (serve world.db (gaps k)).2 } (answers k) operation
      runBetween gaps answers (k + 1) out.2 (next out.1)

def refuses : ControlRuns.Answer → Bool
  | .refused _ => true
  | _ => false

section

variable (gaps : Gaps) (answers : Nat → ControlRuns.Answer) (inst : Startup.Instance)

/-- The rows of the instance when the call of this number is made. -/
def storeAt (k : Nat) : Store := (dbAfter gaps (k + 1)).store inst.id

/-- What a read finds; nothing when it is refused. -/
def found (k : Nat) (state : ItemState) : List WorkItem :=
  if refuses (answers k) then [] else (storeAt gaps inst k).listByState state

def statsFound : Stats :=
  if refuses (answers 1) then ⟨0, 0, 0⟩ else (storeAt gaps inst 1).stats.read.toOption.getD ⟨0, 0, 0⟩

def failedFound : List WorkItem :=
  found gaps answers inst 4 .failed ++ found gaps answers inst 5 .exhausted ++
    found gaps answers inst 6 .quarantined ++ found gaps answers inst 7 .cleanupFailed

/-- The document, with the reads in their order. -/
def statusOf (rfc3339Ms : Int → String) (now : Int) (active : String → Bool) : Value :=
  runBetween gaps answers 0 ⟨emptyDatabase, none, active⟩ (Commands.instanceStatus rfc3339Ms inst now)

structure Filed (store : Store) : Prop where
  keyed : Runs.Keyed store
  listed : Rows.Listed store

theorem serve_filed (db : Database) (queries : List (String × Query)) (written : Written db)
    (filed : ∀ id, Filed (db.store id)) (fit : allFit db queries = true) :
    Written (serve db queries).2 ∧ ∀ id, Filed ((serve db queries).2.store id) := by
  induction queries generalizing db with
  | nil => exact ⟨written, filed⟩
  | cons query rest ih =>
      rw [allFit, Bool.and_eq_true] at fit
      refine ih _ (written_answer db query.1 written query.2 fit.1) (fun id => ?_) fit.2
      by_cases own : query.1 = id
      · subst own
        have left := congrArg Own.store (answer_seen db query.1 written query.2 fit.1).2
        rw [show (answer db query.1 query.2).2.store query.1 = _ from left]
        cases query.2 with
        | statement operation =>
            exact ⟨Runs.keyed_call _ (filed query.1).keyed operation,
              Rows.listed_call _ operation (filed query.1).listed⟩
        | _ => exact filed query.1
      · have left := congrArg Own.store (answer_frame db query.1 id (Ne.symm own) query.2)
        rw [show (answer db query.1 query.2).2.store id = _ from left]
        exact filed id

variable (fit : ∀ k, allFit (dbAfter gaps k) (gaps k) = true)

include fit

theorem filed_after (k : Nat) :
    Written (dbAfter gaps k) ∧ ∀ id, Filed ((dbAfter gaps k).store id) := by
  induction k with
  | zero =>
      exact ⟨written_empty, fun id =>
        ⟨⟨List.nodup_nil, fun r member => absurd member List.not_mem_nil⟩, fun r some => absurd rfl some⟩⟩
  | succ k ih => exact serve_filed _ _ ih.1 ih.2 (fit k)

theorem store_of_quiet (k : Nat) (quiet : ∀ query ∈ gaps (k + 1), query.1 ≠ inst.id) :
    storeAt gaps inst (k + 1) = storeAt gaps inst k := by
  obtain ⟨_, left⟩ := shared_as_alone (dbAfter gaps (k + 1)) (gaps (k + 1))
    (filed_after gaps fit (k + 1)).1 (fit (k + 1)) inst.id
  have none : ownOf inst.id (gaps (k + 1)) = [] := by
    rw [ownOf, List.map_eq_nil_iff, List.filter_eq_nil_iff]
    exact fun query member own => quiet query member (of_decide_eq_true own)
  rw [none] at left
  exact congrArg Own.store left

theorem list_read (k : Nat) (state : ItemState) :
    ((answers k).read ((dbAfter gaps (k + 1)).listByState inst.id state)).toOption.getD [] =
      found gaps answers inst k state := by
  have listed := list_by_state_seen (dbAfter gaps (k + 1)) inst.id (filed_after gaps fit (k + 1)).1 state
  unfold found
  cases answers k with
  | refused e => rfl
  | _ => exact congrArg (fun read => read.toOption.getD []) listed

omit fit in
theorem stats_read :
    ((answers 1).read ((dbAfter gaps 2).readStats inst.id)).toOption.getD ⟨0, 0, 0⟩ =
      statsFound gaps answers inst := by
  unfold statsFound
  cases answers 1 with
  | refused e => rfl
  | _ => exact congrArg (fun read => read.toOption.getD ⟨0, 0, 0⟩) (read_stats_seen _ _)

/-- A read finds the items that are in the state at its moment, each of them once and the oldest
first. -/
structure Lists (store : Store) (state : ItemState) (items : List WorkItem) : Prop where
  sort : ∀ w, w ∈ items ↔
    ∃ row, store.items w.relpath = some row ∧ row.state = state ∧ w = store.toItem w.relpath row
  once : (items.map WorkItem.relpath).Nodup
  oldestFirst : items.Pairwise fun a b => a.discoveredAt ≤ b.discoveredAt

omit fit in
theorem status_eq (rfc3339Ms : Int → String) (now : Int) (active : String → Bool) :
    statusOf gaps answers inst rfc3339Ms now active =
      instanceStateSnapshot rfc3339Ms now ((answers 1).read ((dbAfter gaps 2).readStats inst.id))
        (fun state => match state with
          | .ready => (answers 2).read ((dbAfter gaps 3).listByState inst.id .ready)
          | .inProgress => (answers 3).read ((dbAfter gaps 4).listByState inst.id .inProgress)
          | .failed => (answers 4).read ((dbAfter gaps 5).listByState inst.id .failed)
          | .exhausted => (answers 5).read ((dbAfter gaps 6).listByState inst.id .exhausted)
          | .quarantined => (answers 6).read ((dbAfter gaps 7).listByState inst.id .quarantined)
          | .cleanupFailed => (answers 7).read ((dbAfter gaps 8).listByState inst.id .cleanupFailed)
          | _ => .ok [])
        inst (active inst.id) := rfl

theorem status_tells (rfc3339Ms : Int → String) (now : Int) (active : String → Bool) :
    Tells (statusOf gaps answers inst rfc3339Ms now active) (statsFound gaps answers inst)
      (found gaps answers inst 2 .ready) (found gaps answers inst 3 .inProgress)
      (failedFound gaps answers inst) := by
  rw [status_eq, instanceStateSnapshot, failedFound]
  simp only [list_read gaps answers inst fit, stats_read gaps answers inst]
  exact tells_of_inputs rfc3339Ms now _

theorem lists_found (k : Nat) (state : ItemState) (answered : refuses (answers k) = false) :
    Lists (storeAt gaps inst k) state (found gaps answers inst k state) := by
  rw [found, answered]
  obtain ⟨keyed, listed⟩ := (filed_after gaps fit (k + 1)).2 inst.id
  constructor
  · intro w
    constructor
    · exact (storeAt gaps inst k).mem_list_by_state state w
    · rintro ⟨row, here, is, same⟩
      refine (Rows.mem_select_iff _ listed _ w).mpr ⟨?_, row, here, same⟩
      rw [same]
      exact decide_eq_true is
  · exact Runs.select_nodup _ keyed _
  · exact Rows.select_sorted _ _

/-- Nothing of the instance comes between the lists, and none of them is refused. -/
structure Quiet : Prop where
  others : ∀ k, 2 < k → k < 8 → ∀ query ∈ gaps k, query.1 ≠ inst.id
  answered : ∀ k, 1 < k → k < 8 → refuses (answers k) = false

theorem quiet_found (quiet : Quiet gaps answers inst) (k : Nat) (first : 1 < k) (last : k < 8)
    (state : ItemState) :
    found gaps answers inst k state = (storeAt gaps inst 2).listByState state := by
  have same : storeAt gaps inst k = storeAt gaps inst 2 := by
    obtain ⟨later, rfl⟩ := Nat.exists_eq_add_of_le first
    clear first
    induction later with
    | zero => rfl
    | succ later ih =>
        exact (store_of_quiet gaps inst fit (2 + later) (quiet.others _ (by omega) last)).trans
          (ih (by omega))
  rw [found, quiet.answered k first last, same]
  rfl

end

/-- An item waits when the first list is read; it is claimed and fails before the last one. -/
def movedOn : Gaps
  | 0 => [("plant", .statement (.upsertReady "a" 5 0 1)), ("plant", .statement (.upsertReady "b" 7 0 2)),
      ("dock", .statement (.upsertReady "a" 1 0 2)), ("plant", .statement (.setState "b" .completed 4))]
  | 3 => [("plant", .statement (.claimReady 4 5))]
  | 4 => [("plant", .statement (.rollUpItem "a" .failed 1 9 (some "gone") 6))]
  | _ => []

def plantInstance : Startup.Instance := ⟨"plant", true, true, "local", "immediate"⟩

end FileReplicator.StatusReads
