import FileReplicator.DurableStore

/-!
# What a rediscovery decides

The statements of `upsert_ready` over the tables of all instances, as they are
written: a case for each column, decided on the text of the state, and a test in
the code that deletes the other rows of the item.
-/

namespace FileReplicator.Rediscovery

open Domain DurableStore

/-- A row of `work_items`: the state is a text, the counts of bytes an `i64` each. -/
structure ItemRow where
  state : String
  size : Int64
  mtimeMs : Int
  discoveredAt : Int
  attempts : Nat
  cleanupAttempts : Nat
  nextAttemptAt : Int
  lastError : Option String
  bytesDone : Int64
  updatedAt : Int
  deriving DecidableEq

structure Tables where
  items : String → String → Option ItemRow
  /-- The keys of the items as they were inserted. -/
  order : List (String × String)
  dests : String → String → String → Option DestState
  resume : String → String → String → Option ResumeState

/-! ## The insertion -/

def excluded (size : UInt64) (mtimeMs now : Int) : ItemRow where
  state := "ready"
  size := size.toInt64
  mtimeMs := mtimeMs
  discoveredAt := now
  attempts := 0
  cleanupAttempts := 0
  nextAttemptAt := 0
  lastError := none
  bytesDone := 0
  updatedAt := now

/-- `WHEN state IN (..) AND (size <> excluded.size OR mtime_ms <> excluded.mtime_ms)`. -/
def isChanged (row new : ItemRow) : Bool :=
  ["completed", "quarantined", "retained"].contains row.state &&
    (row.size ≠ new.size || row.mtimeMs ≠ new.mtimeMs)

/-- `CASE WHEN .. THEN reset ELSE kept END`. -/
def caseChanged {α : Type} (row new : ItemRow) (reset kept : α) : α :=
  if isChanged row new then reset else kept

/-- `ON CONFLICT DO UPDATE SET ..`. -/
def onConflict (row new : ItemRow) : ItemRow where
  state := caseChanged row new "ready" row.state
  attempts := caseChanged row new 0 row.attempts
  nextAttemptAt := caseChanged row new 0 row.nextAttemptAt
  lastError := caseChanged row new none row.lastError
  bytesDone := caseChanged row new 0 row.bytesDone
  cleanupAttempts := caseChanged row new 0 row.cleanupAttempts
  discoveredAt := caseChanged row new new.discoveredAt row.discoveredAt
  size := new.size
  mtimeMs := new.mtimeMs
  updatedAt := new.updatedAt

namespace Tables

variable (tables : Tables)

def insertItem (inst relpath : String) (new : ItemRow) : Tables :=
  { tables with
    items := fun i r =>
      if i = inst ∧ r = relpath then
        some (match tables.items i r with
          | some row => onConflict row new
          | none => new)
      else tables.items i r
    order :=
      match tables.items inst relpath with
      | some _ => tables.order
      | none => tables.order ++ [(inst, relpath)] }

def deleteDestState (inst relpath : String) : Tables :=
  { tables with
    dests := fun i r => if i = inst ∧ r = relpath then fun _ => none else tables.dests i r }

def deleteResume (inst relpath : String) : Tables :=
  { tables with
    resume := fun i r => if i = inst ∧ r = relpath then fun _ => none else tables.resume i r }

end Tables

/-- The test in the code, on the row as it was. -/
def isReset (prior : Option ItemRow) (size : UInt64) (mtimeMs : Int) : Bool :=
  match prior with
  | some row =>
      (ItemState.fromStr row.state).any ItemState.isTerminal &&
        (row.size ≠ size.toInt64 || row.mtimeMs ≠ mtimeMs)
  | none => false

inductive Deletion where
  | destState
  | resume
  deriving DecidableEq

/-- The tables after the transaction, and what it has deleted the rows of. -/
structure Outcome where
  tables : Tables
  deleted : List Deletion

def upsertReady (tables : Tables) (inst relpath : String) (size : UInt64) (mtimeMs now : Int) :
    Outcome :=
  let inserted := tables.insertItem inst relpath (excluded size mtimeMs now)
  if isReset (tables.items inst relpath) size mtimeMs then
    ⟨(inserted.deleteDestState inst relpath).deleteResume inst relpath, [.destState, .resume]⟩
  else ⟨inserted, []⟩

theorem terminal_text (text : String) :
    ["completed", "quarantined", "retained"].contains text =
      (ItemState.fromStr text).any ItemState.isTerminal := by
  unfold ItemState.fromStr
  split
  all_goals first | rfl | skip
  rename_i completed _ _ quarantined retained
  simpa using ⟨completed, quarantined, retained⟩

theorem changed_iff_reset (row : ItemRow) (size : UInt64) (mtimeMs now : Int) :
    isChanged row (excluded size mtimeMs now) = isReset (some row) size mtimeMs := by
  rw [isChanged, isReset, terminal_text]
  rfl

/-- The row is of a finished item, and of another file. -/
def Changed (row : ItemRow) (size : UInt64) (mtimeMs : Int) : Prop :=
  (∃ state, ItemState.fromStr row.state = some state ∧ state.isTerminal = true) ∧
    (row.size.toUInt64 ≠ size ∨ row.mtimeMs ≠ mtimeMs)

theorem size_differs_iff (stored : Int64) (size : UInt64) :
    stored ≠ size.toInt64 ↔ stored.toUInt64 ≠ size := by
  constructor
  · rintro differs rfl
    exact differs rfl
  · rintro differs rfl
    exact differs rfl

theorem reset_iff (row : ItemRow) (size : UInt64) (mtimeMs : Int) :
    isReset (some row) size mtimeMs = true ↔ Changed row size mtimeMs := by
  rw [isReset, Bool.and_eq_true, Option.any_eq_true, Changed, Bool.or_eq_true, decide_eq_true_iff,
    decide_eq_true_iff, size_differs_iff]

/-! ## What the transaction does -/

def resetRow (size : UInt64) (mtimeMs now : Int) : ItemRow := excluded size mtimeMs now

def keptRow (row : ItemRow) (size : UInt64) (mtimeMs now : Int) : ItemRow :=
  { row with size := size.toInt64, mtimeMs := mtimeMs, updatedAt := now }

theorem on_conflict_changed (row : ItemRow) (size : UInt64) (mtimeMs now : Int)
    (changed : isChanged row (excluded size mtimeMs now) = true) :
    onConflict row (excluded size mtimeMs now) = resetRow size mtimeMs now := by
  simp only [onConflict, caseChanged, changed, if_true]
  rfl

theorem on_conflict_same (row : ItemRow) (size : UInt64) (mtimeMs now : Int)
    (same : isChanged row (excluded size mtimeMs now) = false) :
    onConflict row (excluded size mtimeMs now) = keptRow row size mtimeMs now := by
  simp only [onConflict, caseChanged, same, Bool.false_eq_true, if_false]
  rfl

/-- What `upsert_ready` makes of an item that has a row. -/
structure Decided (tables : Tables) (inst relpath : String) (row : ItemRow) (size : UInt64)
    (mtimeMs now : Int) (outcome : Outcome) : Prop where
  cases : isChanged row (excluded size mtimeMs now) = true ↔ Changed row size mtimeMs
  deletions : (.destState ∈ outcome.deleted ↔ Changed row size mtimeMs) ∧
    (.resume ∈ outcome.deleted ↔ Changed row size mtimeMs)
  reset : Changed row size mtimeMs →
    outcome.tables.items inst relpath = some (resetRow size mtimeMs now) ∧
      (∀ dest, outcome.tables.dests inst relpath dest = none) ∧
      ∀ dest, outcome.tables.resume inst relpath dest = none
  kept : ¬Changed row size mtimeMs →
    outcome.tables.items inst relpath = some (keptRow row size mtimeMs now) ∧
      outcome.tables.dests = tables.dests ∧ outcome.tables.resume = tables.resume
  stored : ∀ after, outcome.tables.items inst relpath = some after → after.size.toUInt64 = size
  others : ∀ i r, ¬(i = inst ∧ r = relpath) →
    outcome.tables.items i r = tables.items i r ∧ outcome.tables.dests i r = tables.dests i r ∧
      outcome.tables.resume i r = tables.resume i r

theorem inserted_row (tables : Tables) (inst relpath : String) (row new : ItemRow)
    (found : tables.items inst relpath = some row) :
    (tables.insertItem inst relpath new).items inst relpath = some (onConflict row new) := by
  simp only [Tables.insertItem, and_self, if_true, found]

/-- An item is reset, its destination states and its checkpoints deleted, exactly when it is finished
and its file another one; of any other item only size, age and time of update change, and rows of
other items never do. -/
theorem upsert_decides (tables : Tables) (inst relpath : String) (row : ItemRow)
    (found : tables.items inst relpath = some row) (size : UInt64) (mtimeMs now : Int) :
    Decided tables inst relpath row size mtimeMs now
      (upsertReady tables inst relpath size mtimeMs now) := by
  have agree := changed_iff_reset row size mtimeMs now
  have decision := reset_iff row size mtimeMs
  have inserted := inserted_row tables inst relpath row (excluded size mtimeMs now) found
  have frame : ∀ i r, ¬(i = inst ∧ r = relpath) →
      (tables.insertItem inst relpath (excluded size mtimeMs now)).items i r = tables.items i r :=
    fun i r other => if_neg other
  cases reset : isReset (some row) size mtimeMs with
  | true =>
      have changed := decision.mp reset
      have outcome : upsertReady tables inst relpath size mtimeMs now =
          ⟨((tables.insertItem inst relpath (excluded size mtimeMs now)).deleteDestState inst
            relpath).deleteResume inst relpath, [.destState, .resume]⟩ := by
        rw [upsertReady, found, if_pos reset]
      rw [on_conflict_changed row size mtimeMs now (agree.trans reset)] at inserted
      rw [outcome]
      constructor
      case cases => rw [agree, decision]
      case deletions =>
        exact ⟨iff_of_true List.mem_cons_self changed,
          iff_of_true (List.mem_cons_of_mem _ List.mem_cons_self) changed⟩
      case reset =>
        refine fun _ => ⟨inserted, fun dest => ?_, fun dest => ?_⟩
        · exact congrFun (if_pos ⟨rfl, rfl⟩) dest
        · exact congrFun (if_pos ⟨rfl, rfl⟩) dest
      case kept => exact fun same => absurd changed same
      case stored =>
        intro after here
        rw [← Option.some.inj (inserted.symm.trans here)]
        rfl
      case others => exact fun i r other => ⟨frame i r other, if_neg other, if_neg other⟩
  | false =>
      have same : ¬Changed row size mtimeMs := by
        rw [← decision, reset]
        exact Bool.false_ne_true
      have outcome : upsertReady tables inst relpath size mtimeMs now =
          ⟨tables.insertItem inst relpath (excluded size mtimeMs now), []⟩ := by
        rw [upsertReady, found, if_neg (by rw [reset]; exact Bool.false_ne_true)]
      rw [on_conflict_same row size mtimeMs now (agree.trans reset)] at inserted
      rw [outcome]
      constructor
      case cases => rw [agree, decision]
      case deletions =>
        exact ⟨iff_of_false List.not_mem_nil same, iff_of_false List.not_mem_nil same⟩
      case reset => exact fun changed => absurd changed same
      case kept => exact fun _ => ⟨inserted, rfl, rfl⟩
      case stored =>
        intro after here
        rw [← Option.some.inj (inserted.symm.trans here)]
        rfl
      case others => exact fun i r other => ⟨frame i r other, rfl, rfl⟩

/-- A completed item whose file is larger than any `i64` now. -/
def completedRow : ItemRow := { excluded 5 0 0 with state := "completed", attempts := 3 }

def oneRow : Tables where
  items := fun i r => if i = "plant" ∧ r = "a" then some completedRow else none
  order := [("plant", "a")]
  dests := fun _ _ _ => none
  resume := fun _ _ _ => none

theorem upsert_decides_large :
    Changed completedRow 9223372036854775813 0 ∧
      Decided oneRow "plant" "a" completedRow 9223372036854775813 0 9
        (upsertReady oneRow "plant" "a" 9223372036854775813 0 9) :=
  ⟨⟨⟨.completed, rfl, rfl⟩, Or.inl (by decide)⟩,
    upsert_decides oneRow "plant" "a" completedRow rfl 9223372036854775813 0 9⟩

/-- A row as the engine reads it; `row_to_item` knows every state that was written. -/
def rowOf (row : ItemRow) : Row where
  state := (ItemState.fromStr row.state).getD .ready
  size := row.size.toUInt64.toNat
  mtimeMs := row.mtimeMs
  discoveredAt := row.discoveredAt
  attempts := row.attempts
  cleanupAttempts := row.cleanupAttempts
  nextAttemptAt := row.nextAttemptAt
  lastError := row.lastError
  bytesDone := row.bytesDone.toUInt64.toNat
  updatedAt := row.updatedAt

def storeOf (tables : Tables) (inst : String) (stats : StatsRow) : Store where
  instanceId := inst
  items := fun r => (tables.items inst r).map rowOf
  order := (tables.order.filter fun key => key.1 = inst).map Prod.snd
  dests := tables.dests inst
  resume := tables.resume inst
  stats := stats

theorem resets_row_of (row : ItemRow) (size : UInt64) (mtimeMs : Int) :
    Store.resets (rowOf row) size.toNat mtimeMs = isReset (some row) size mtimeMs := by
  have sizes : decide ((rowOf row).size ≠ size.toNat) = decide (row.size ≠ size.toInt64) := by
    rw [decide_eq_decide, size_differs_iff]
    exact not_congr UInt64.toNat_inj
  have terminal : (rowOf row).state.isTerminal =
      (ItemState.fromStr row.state).any ItemState.isTerminal := by
    rw [rowOf]
    cases ItemState.fromStr row.state <;> rfl
  rw [Store.resets, isReset, terminal, sizes]
  rfl

theorem rows_inserted (tables : Tables) (inst relpath : String) (new row after : ItemRow)
    (found : tables.items inst relpath = some row) (update : onConflict row new = after)
    (change : Row → Row) (same : change (rowOf row) = rowOf after) :
    (fun r => ((tables.insertItem inst relpath new).items inst r).map rowOf) =
      fun r => if r = relpath then ((tables.items inst r).map rowOf).map change
        else (tables.items inst r).map rowOf := by
  funext r
  by_cases own : r = relpath
  · subst own
    rw [inserted_row tables inst r row new found, if_pos rfl, found, update]
    exact congrArg some same.symm
  · rw [if_neg own]
    exact congrArg _ (if_neg fun both => own both.2)

/-- The statement of the engine's store is this transaction, seen by the one instance. -/
theorem store_of_upsert (tables : Tables) (inst relpath : String) (size : UInt64) (mtimeMs now : Int)
    (stats : StatsRow) :
    storeOf (upsertReady tables inst relpath size mtimeMs now).tables inst stats =
      (storeOf tables inst stats).upsertReady relpath size.toNat mtimeMs now := by
  cases found : tables.items inst relpath with
  | none =>
      have here : (storeOf tables inst stats).items relpath = none := congrArg (Option.map rowOf) found
      have items : (fun r => ((tables.insertItem inst relpath (excluded size mtimeMs now)).items inst
          r).map rowOf) = fun r => if r = relpath then some (Store.freshRow size.toNat mtimeMs now)
            else (tables.items inst r).map rowOf := by
        funext r
        by_cases own : r = relpath
        · subst own
          simp only [Tables.insertItem, and_self, if_true, found]
          rfl
        · rw [if_neg own]
          exact congrArg _ (if_neg fun both => own both.2)
      simp only [upsertReady, Store.upsertReady, here, found, isReset, Bool.false_eq_true, if_false]
      simp only [storeOf, items, Store.insertRow]
      simp [Tables.insertItem, found]
  | some row =>
      have here : (storeOf tables inst stats).items relpath = some (rowOf row) :=
        congrArg (Option.map rowOf) found
      have resets := resets_row_of row size mtimeMs
      have agree := changed_iff_reset row size mtimeMs now
      have order : (tables.insertItem inst relpath (excluded size mtimeMs now)).order = tables.order := by
        simp only [Tables.insertItem, found]
      cases reset : isReset (some row) size mtimeMs with
      | true =>
          have items := rows_inserted tables inst relpath _ row _ found
            (on_conflict_changed row size mtimeMs now (agree.trans reset))
            (fun row => Store.rediscovered row size.toNat mtimeMs now)
            (by rw [Store.rediscovered, resets.trans reset]; rfl)
          simp only [upsertReady, Store.upsertReady, here, found, reset, resets, if_true]
          simp only [storeOf, Tables.deleteResume, Tables.deleteDestState, items, order,
            Store.updateRow, Store.clearDestStates, Store.clearResumeAll]
          congr 1
          · funext r
            by_cases own : r = relpath <;> simp [own, Tables.insertItem]
          · funext r
            by_cases own : r = relpath <;> simp [own, Tables.insertItem]
      | false =>
          have items := rows_inserted tables inst relpath _ row _ found
            (on_conflict_same row size mtimeMs now (agree.trans reset))
            (fun row => Store.rediscovered row size.toNat mtimeMs now)
            (by rw [Store.rediscovered, resets.trans reset]; rfl)
          simp only [upsertReady, Store.upsertReady, here, found, reset, resets, Bool.false_eq_true,
            if_false]
          simp only [storeOf, items, order, Store.updateRow]
          rfl

end FileReplicator.Rediscovery
