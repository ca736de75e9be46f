import Mathlib.Data.List.Sort
import FileReplicator.Operations
import FileReplicator.Rediscovery

/-!
# One database for all instances

The statements of the store as they are run, over the tables that all instances
share: keyed by the instance, with the state of an item as a text. An instance
sees a store of its own in them, and the statements of the others leave it alone.
-/

namespace FileReplicator.SqliteStore

open Domain Columns DurableStore Operations Rediscovery

/-- A row of `activation`, without its key. -/
structure ActivationRow where
  active : Int
  source : String
  updatedAt : Int
  deriving DecidableEq

structure Activation where
  active : Bool
  source : String
  updatedAt : Int
  deriving DecidableEq

structure Database where
  tables : Tables
  stats : String → Option StatsRow
  activation : String → Option ActivationRow

def emptyDatabase : Database where
  tables := ⟨fun _ _ => none, [], fun _ _ _ => none, fun _ _ _ => none⟩
  stats := fun _ => none
  activation := fun _ => none

/-! ## Statements -/

def rowToItem (inst relpath : String) (row : ItemRow) : Except ReplError WorkItem :=
  match ItemState.fromStr row.state with
  | some state =>
      .ok
        { instanceId := inst
          relpath := relpath
          state := state
          size := row.size.toUInt64.toNat
          discoveredAt := row.discoveredAt
          attempts := row.attempts
          cleanupAttempts := row.cleanupAttempts
          nextAttemptAt := row.nextAttemptAt
          lastError := row.lastError
          bytesDone := row.bytesDone.toUInt64.toNat
          updatedAt := row.updatedAt }
  | none => .error (.state ("unknown item state " ++ row.state))

def collectItems (inst : String) : List (String × ItemRow) → Except ReplError (List WorkItem)
  | [] => .ok []
  | row :: rest => do
      let item ← rowToItem inst row.1 row.2
      let items ← collectItems inst rest
      return item :: items

namespace Database

variable (db : Database) (inst : String)

/-- `UPDATE work_items SET .. WHERE instance = ?1 AND relpath = ?2`. -/
def updateItem (relpath : String) (change : ItemRow → ItemRow) : Database :=
  { db with tables := { db.tables with
      items := fun i r =>
        if i = inst ∧ r = relpath then (db.tables.items i r).map change else db.tables.items i r } }

/-- `SELECT .. FROM work_items WHERE instance = ?1 AND .. ORDER BY discovered_at ASC`. -/
def selectItems (wanted : ItemRow → Bool) : List (String × ItemRow) :=
  let rows := db.tables.order.filterMap fun key =>
    if key.1 = inst then (db.tables.items key.1 key.2).map (Prod.mk key.2) else none
  (rows.filter fun row => wanted row.2).insertionSort fun a b => a.2.discoveredAt ≤ b.2.discoveredAt

def upsertReady (relpath : String) (size : UInt64) (mtimeMs now : Int) : Database :=
  { db with tables := (Rediscovery.upsertReady db.tables inst relpath size mtimeMs now).tables }

def markClaimed (now : Int) : List WorkItem → Database → Database
  | [], db => db
  | it :: rest, db =>
      markClaimed now rest (db.updateItem inst it.relpath fun row =>
        { row with state := "in_progress", updatedAt := now })

/-- `LIMIT ?3` of `limit as i64`; a negative one is none. -/
def limited (limit : Nat) (rows : List (String × ItemRow)) : List (String × ItemRow) :=
  if limit < 2 ^ 63 then rows.take limit else rows

/-- A row that cannot be read rolls the transaction back. -/
def claimReady (limit : Nat) (now : Int) : Except ReplError (List WorkItem) × Database :=
  let rows := db.selectItems inst fun row => row.state = "ready" && row.nextAttemptAt ≤ now
  match collectItems inst (limited limit rows) with
  | .error e => (.error e, db)
  | .ok items =>
      (.ok (items.map fun it => { it with state := .inProgress, updatedAt := now }),
        markClaimed inst now items db)

def get (relpath : String) : Except ReplError (Option WorkItem) :=
  match db.tables.items inst relpath with
  | some row => (rowToItem inst relpath row).map some
  | none => .ok none

def recoverIncomplete : Except ReplError (List WorkItem) :=
  collectItems inst (db.selectItems inst fun row =>
    ["in_progress", "verified", "cleanup_pending"].contains row.state)

def listByState (state : ItemState) : Except ReplError (List WorkItem) :=
  collectItems inst (db.selectItems inst fun row => row.state = state.asStr)

def setState (relpath : String) (state : ItemState) (now : Int) : Database :=
  db.updateItem inst relpath fun row => { row with state := state.asStr, updatedAt := now }

def recordCleanupAttempt (relpath error : String) (next : ItemState) (nextAttemptAt now : Int) :
    Database :=
  db.updateItem inst relpath fun row =>
    { row with
      cleanupAttempts := row.cleanupAttempts + 1
      lastError := some error
      state := next.asStr
      nextAttemptAt := nextAttemptAt
      updatedAt := now }

def setBytesDone (relpath : String) (bytes : UInt64) (now : Int) : Database :=
  db.updateItem inst relpath fun row => { row with bytesDone := bytes.toInt64, updatedAt := now }

def rollUpItem (relpath : String) (state : ItemState) (attempts : Nat) (nextAttemptAt : Int)
    (lastError : Option String) (now : Int) : Database :=
  db.updateItem inst relpath fun row =>
    { row with
      state := state.asStr
      attempts := attempts
      nextAttemptAt := nextAttemptAt
      lastError := lastError
      updatedAt := now }

def setResume (relpath dest : String) (checkpoint : Option ResumeState) : Database :=
  { db with tables := { db.tables with
      resume := fun i r d =>
        if i = inst ∧ r = relpath ∧ d = dest then checkpoint else db.tables.resume i r d } }

def saveResume (relpath dest : String) (checkpoint : ResumeState) : Database :=
  db.setResume inst relpath dest (some checkpoint)

def clearResume (relpath dest : String) : Database := db.setResume inst relpath dest none

def clearResumeAll (relpath : String) : Database :=
  { db with tables := db.tables.deleteResume inst relpath }

def clearDestStates (relpath : String) : Database :=
  { db with tables := db.tables.deleteDestState inst relpath }

/-- `INSERT INTO dest_state .. ON CONFLICT DO UPDATE SET ..`. -/
def upsertDest (relpath dest : String) (new : DestState) (update : DestState → DestState) :
    Database :=
  { db with tables := { db.tables with
      dests := fun i r d =>
        if i = inst ∧ r = relpath ∧ d = dest then
          some (match db.tables.dests i r d with
            | some row => update row
            | none => new)
        else db.tables.dests i r d } }

def setDestPhase (relpath dest : String) (phase : DestPhase) : Database :=
  db.upsertDest inst relpath dest
    { dest := dest, phase := phase, attempts := 0, nextAttemptAt := 0, lastError := none }
    fun row => { row with phase := phase }

def recordDestAttempt (relpath dest error : String) (phase : DestPhase) (nextAttemptAt : Int) :
    Database :=
  db.upsertDest inst relpath dest
    { dest := dest
      phase := phase
      attempts := 1
      nextAttemptAt := nextAttemptAt
      lastError := some error }
    fun row =>
      { row with
        attempts := row.attempts + 1
        phase := phase
        nextAttemptAt := nextAttemptAt
        lastError := some error }

def bumpStats (replicated failed bytes : Int64) : Database :=
  { db with stats := fun i =>
      if i = inst then
        some (match db.stats i with
          | some row => row.bump replicated failed bytes
          | none => ⟨.integer replicated, .integer failed, .integer bytes⟩)
      else db.stats i }

/-- `stats`; no row is as good as zeros. -/
def readStats : Except ReplError Stats :=
  match db.stats inst with
  | some row => row.read
  | none => .ok ⟨0, 0, 0⟩

def loadActivation : Option Activation :=
  (db.activation inst).map fun row => ⟨row.active ≠ 0, row.source, row.updatedAt⟩

def setActivation (active : Bool) (source : String) (now : Int) : Database :=
  { db with activation := fun i =>
      if i = inst then some ⟨if active then 1 else 0, source, now⟩ else db.activation i }

def clearActivation : Database :=
  { db with activation := fun i => if i = inst then none else db.activation i }

end Database

def callDatabase (db : Database) (inst : String) :
    (op : StoreOp) → Except ReplError (StoreRet op) × Database
  | .destStates r => (.ok (db.tables.dests inst r), db)
  | .getRow r => (db.get inst r, db)
  | .loadResume r d => (.ok (db.tables.resume inst r d), db)
  | .saveResume r d checkpoint => (.ok (), db.saveResume inst r d checkpoint)
  | .clearResume r d => (.ok (), db.clearResume inst r d)
  | .clearResumeAll r => (.ok (), db.clearResumeAll inst r)
  | .clearDestStates r => (.ok (), db.clearDestStates inst r)
  | .setDestPhase r d phase => (.ok (), db.setDestPhase inst r d phase)
  | .recordDestAttempt r d error phase gate =>
      (.ok (), db.recordDestAttempt inst r d error phase gate)
  | .setState r state now => (.ok (), db.setState inst r state now)
  | .rollUpItem r state attempts gate error now =>
      (.ok (), db.rollUpItem inst r state attempts gate error now)
  | .recordCleanupAttempt r error state gate now =>
      (.ok (), db.recordCleanupAttempt inst r error state gate now)
  | .setBytesDone r bytes now => (.ok (), db.setBytesDone inst r (UInt64.ofNat bytes) now)
  | .bumpStats replicated failed bytes => (.ok (), db.bumpStats inst replicated failed bytes)
  | .upsertReady r size mtimeMs now =>
      (.ok (), db.upsertReady inst r (UInt64.ofNat size) mtimeMs now)
  | .claimReady limit now => db.claimReady inst limit now
  | .recoverIncomplete => (db.recoverIncomplete inst, db)
  | .listByState state => (db.listByState inst state, db)

/-- A count of bytes is a `u64`, and the number of a row an `i64`. -/
def fits (db : Database) : StoreOp → Bool
  | .upsertReady _ size _ _ => size < 2 ^ 64 && db.tables.order.length + 1 < 2 ^ 63
  | .setBytesDone _ bytes _ => bytes < 2 ^ 64
  | _ => true

/-! ## What every statement keeps -/

structure Written (db : Database) : Prop where
  states : ∀ i r row, db.tables.items i r = some row → ∃ state : ItemState, row.state = state.asStr
  keyed : ∀ i r d row, db.tables.dests i r d = some row → row.dest = d
  few : db.tables.order.length < 2 ^ 63

theorem written_empty : Written emptyDatabase :=
  ⟨fun _ _ _ none => (nomatch none), fun _ _ _ _ none => (nomatch none), Nat.two_pow_pos 63⟩

section Keeping

variable (db : Database) (inst : String) (written : Written db)

include written

theorem written_update (relpath : String) (change : ItemRow → ItemRow)
    (texts : ∀ row, (∃ state : ItemState, row.state = state.asStr) →
      ∃ state : ItemState, (change row).state = state.asStr) :
    Written (db.updateItem inst relpath change) := by
  refine ⟨?_, written.keyed, written.few⟩
  intro i r row found
  simp only [Database.updateItem] at found
  split at found
  · obtain ⟨before, stored, rfl⟩ := Option.map_eq_some_iff.mp found
    exact texts before (written.states i r before stored)
  · exact written.states i r row found

theorem written_claimed (now : Int) (items : List WorkItem) :
    Written (Database.markClaimed inst now items db) := by
  induction items generalizing db with
  | nil => exact written
  | cons it rest ih =>
      exact ih _ (written_update db inst written it.relpath _ fun _ _ => ⟨.inProgress, rfl⟩)

theorem written_dest (relpath dest : String) (new : DestState) (update : DestState → DestState)
    (own : new.dest = dest) (same : ∀ row, (update row).dest = row.dest) :
    Written (db.upsertDest inst relpath dest new update) := by
  refine ⟨written.states, ?_, written.few⟩
  intro i r d row found
  simp only [Database.upsertDest] at found
  split at found
  · rename_i here
    obtain rfl := Option.some.inj found
    cases stored : db.tables.dests i r d with
    | none => exact own.trans here.2.2.symm
    | some before => exact (same before).trans (written.keyed i r d before stored)
  · exact written.keyed i r d row found

theorem written_upsert (relpath : String) (size : UInt64) (mtimeMs now : Int)
    (room : db.tables.order.length + 1 < 2 ^ 63) :
    Written (db.upsertReady inst relpath size mtimeMs now) := by
  have inserted : Written { db with
      tables := db.tables.insertItem inst relpath (excluded size mtimeMs now) } := by
    refine ⟨?_, written.keyed, ?_⟩
    · intro i r row found
      simp only [Tables.insertItem] at found
      split at found
      · obtain rfl := Option.some.inj found
        cases stored : db.tables.items i r with
        | none => exact ⟨.ready, rfl⟩
        | some before =>
            simp only [onConflict, caseChanged]
            split
            · exact ⟨.ready, rfl⟩
            · exact written.states i r before stored
      · exact written.states i r row found
    · simp only [Tables.insertItem]
      split
      · exact written.few
      · rw [List.length_append]
        exact room
  simp only [Database.upsertReady, Rediscovery.upsertReady]
  split
  · -- what is deleted takes nothing away from the rows that are left
    refine ⟨inserted.states, ?_, inserted.few⟩
    intro i r d row found
    simp only [Tables.deleteResume, Tables.deleteDestState] at found
    split at found
    · cases found
    · exact inserted.keyed i r d row found
  · exact inserted

theorem written_call (operation : StoreOp) (fit : fits db operation = true) :
    Written (callDatabase db inst operation).2 := by
  have ofText := fun (state : ItemState) (row : ItemRow)
    (_ : ∃ state : ItemState, row.state = state.asStr) =>
      (⟨state, rfl⟩ : ∃ s : ItemState, state.asStr = s.asStr)
  cases operation with
  | setDestPhase r d phase => exact written_dest db inst written r d _ _ rfl fun _ => rfl
  | recordDestAttempt r d error phase gate =>
      exact written_dest db inst written r d _ _ rfl fun _ => rfl
  | clearDestStates r =>
      refine ⟨written.states, ?_, written.few⟩
      intro i r' d row found
      simp only [callDatabase, Database.clearDestStates, Tables.deleteDestState] at found
      split at found
      · cases found
      · exact written.keyed i r' d row found
  | setState r state now => exact written_update db inst written r _ (ofText state)
  | rollUpItem r state attempts gate error now =>
      exact written_update db inst written r _ (ofText state)
  | recordCleanupAttempt r error state gate now =>
      exact written_update db inst written r _ (ofText state)
  | setBytesDone r bytes now => exact written_update db inst written r _ fun _ text => text
  | upsertReady r size mtimeMs now =>
      simp only [fits, Bool.and_eq_true, decide_eq_true_eq] at fit
      exact written_upsert db inst written r _ mtimeMs now fit.2
  | claimReady limit now =>
      simp only [callDatabase, Database.claimReady]
      split
      · exact written
      · exact written_claimed db inst written now _
  | _ => exact ⟨written.states, written.keyed, written.few⟩

end Keeping

/-! ## What an instance sees -/

def Database.store (db : Database) (inst : String) : Store :=
  storeOf db.tables inst ((db.stats inst).getD .zero)

section Seen

variable (db : Database) (inst : String)

theorem row_to_item_eq (relpath : String) (row : ItemRow)
    (text : ∃ state : ItemState, row.state = state.asStr) :
    rowToItem inst relpath row = .ok ((db.store inst).toItem relpath (rowOf row)) := by
  obtain ⟨state, text⟩ := text
  have known : ItemState.fromStr row.state = some state := text ▸ ItemState.from_str_as_str state
  simp only [rowToItem, Store.toItem, rowOf, known, Option.getD_some]
  rfl

theorem collect_items_eq (rows : List (String × ItemRow))
    (texts : ∀ row ∈ rows, ∃ state : ItemState, row.2.state = state.asStr) :
    collectItems inst rows =
      .ok (rows.map fun row => (db.store inst).toItem row.1 (rowOf row.2)) := by
  induction rows with
  | nil => rfl
  | cons row rest ih =>
      rw [collectItems, row_to_item_eq db inst row.1 row.2 (texts row List.mem_cons_self),
        ih fun other member => texts other (List.mem_cons_of_mem row member)]
      rfl

/-- The rows of an instance, in the order of their numbers. -/
def rowsOf : List (String × ItemRow) :=
  db.tables.order.filterMap fun key =>
    if key.1 = inst then (db.tables.items key.1 key.2).map (Prod.mk key.2) else none

theorem rows_of_spec (row : String × ItemRow) (member : row ∈ rowsOf db inst) :
    db.tables.items inst row.1 = some row.2 := by
  obtain ⟨key, _, found⟩ := List.mem_filterMap.mp member
  split at found
  · rename_i own
    obtain ⟨stored, here, rfl⟩ := Option.map_eq_some_iff.mp found
    exact own ▸ here
  · cases found

theorem rows_seen :
    (rowsOf db inst).map (fun row => (db.store inst).toItem row.1 (rowOf row.2)) =
      (db.store inst).order.filterMap fun r =>
        ((db.store inst).items r).map ((db.store inst).toItem r) := by
  have order : (db.store inst).order = (db.tables.order.filter fun key => key.1 = inst).map Prod.snd :=
    rfl
  rw [order, List.filterMap_map, List.filterMap_filter, rowsOf, List.map_filterMap]
  congr 1
  funext key
  by_cases own : key.1 = inst
  · simp only [own, if_true, decide_true, Function.comp_apply, Option.map_map]
    show _ = ((db.tables.items inst key.2).map rowOf).map _
    rw [Option.map_map]
    rfl
  · simp [own]

theorem selected_of (wanted : ItemRow → Bool) (row : String × ItemRow)
    (member : row ∈ db.selectItems inst wanted) : db.tables.items inst row.1 = some row.2 := by
  rw [Database.selectItems, List.mem_insertionSort, List.mem_filter] at member
  exact rows_of_spec db inst row member.1

/-- A query finds the rows that the store of the instance finds, in the same order. -/
theorem select_seen (wanted : ItemRow → Bool) (seen : WorkItem → Bool)
    (same : ∀ r row, db.tables.items inst r = some row →
      seen ((db.store inst).toItem r (rowOf row)) = wanted row) :
    (db.selectItems inst wanted).map (fun row => (db.store inst).toItem row.1 (rowOf row.2)) =
      (db.store inst).select seen := by
  have sorting := List.map_insertionSort
    (r := fun a b : String × ItemRow => a.2.discoveredAt ≤ b.2.discoveredAt)
    (s := fun a b : WorkItem => a.discoveredAt ≤ b.discoveredAt)
    (fun row => (db.store inst).toItem row.1 (rowOf row.2))
    ((rowsOf db inst).filter fun row => wanted row.2) fun _ _ _ _ => Iff.rfl
  refine sorting.trans ?_
  rw [Store.select]
  congr 1
  rw [← rows_seen, List.filter_map]
  congr 1
  refine List.filter_congr fun row member => ?_
  exact (same row.1 row.2 (rows_of_spec db inst row member)).symm

variable (written : Written db)

include written

theorem listed_seen (wanted : ItemRow → Bool) (seen : WorkItem → Bool)
    (same : ∀ r row, db.tables.items inst r = some row →
      seen ((db.store inst).toItem r (rowOf row)) = wanted row) :
    collectItems inst (db.selectItems inst wanted) = .ok ((db.store inst).select seen) := by
  rw [collect_items_eq db inst _ fun row member =>
    written.states inst row.1 row.2 (selected_of db inst wanted row member)]
  rw [select_seen db inst wanted seen same]

theorem state_seen (r : String) (row : ItemRow) (found : db.tables.items inst r = some row)
    (state : ItemState) :
    ((db.store inst).toItem r (rowOf row)).state = state ↔ row.state = state.asStr := by
  obtain ⟨stored, text⟩ := written.states inst r row found
  have known : ((db.store inst).toItem r (rowOf row)).state = stored := by
    simp only [Store.toItem, rowOf, text, ItemState.from_str_as_str, Option.getD_some]
  rw [known, text]
  constructor
  · rintro rfl
    rfl
  · intro same
    have back := congrArg ItemState.fromStr same
    rw [ItemState.from_str_as_str, ItemState.from_str_as_str] at back
    exact Option.some.inj back

theorem list_by_state_seen (state : ItemState) :
    db.listByState inst state = .ok ((db.store inst).listByState state) :=
  listed_seen db inst written _ _ fun r row found =>
    decide_eq_decide.mpr (state_seen db inst written r row found state)

theorem recover_incomplete_seen :
    db.recoverIncomplete inst = .ok (db.store inst).recoverIncomplete := by
  refine listed_seen db inst written _ _ fun r row found => ?_
  have text := state_seen db inst written r row found
  rw [Bool.eq_iff_iff]
  simp only [Bool.or_eq_true, decide_eq_true_eq, text, ItemState.asStr, List.contains_iff_mem,
    List.mem_cons, List.not_mem_nil, or_false, or_assoc]

theorem get_seen (relpath : String) : db.get inst relpath = .ok ((db.store inst).get relpath) := by
  show _ = Except.ok (((db.tables.items inst relpath).map rowOf).map _)
  cases found : db.tables.items inst relpath with
  | none => simp only [Database.get, found, Option.map_none]
  | some row =>
      simp only [Database.get, found, Option.map_some]
      rw [row_to_item_eq db inst relpath row (written.states inst relpath row found)]
      rfl

theorem claimed_seen (limit : Nat) (now : Int) :
    collectItems inst (Database.limited limit (db.selectItems inst fun row =>
      row.state = "ready" && row.nextAttemptAt ≤ now)) =
      .ok ((db.store inst).claimed limit now) := by
  have wanted := select_seen db inst (fun row => row.state = "ready" && row.nextAttemptAt ≤ now)
    (fun it => it.state = .ready && it.nextAttemptAt ≤ now) (by
      intro r row found
      rw [decide_eq_decide.mpr (state_seen db inst written r row found .ready)]
      rfl)
  have cut : Database.limited limit (db.selectItems inst fun row =>
      row.state = "ready" && row.nextAttemptAt ≤ now) =
      (db.selectItems inst fun row => row.state = "ready" && row.nextAttemptAt ≤ now).take limit := by
    unfold Database.limited
    split
    · rfl
    · -- there are not so many rows
      rename_i large
      refine (List.take_of_length_le ?_).symm
      have some : (db.selectItems inst fun row => row.state = "ready" && row.nextAttemptAt ≤ now).length ≤
          db.tables.order.length := by
        rw [Database.selectItems, List.length_insertionSort]
        exact (List.length_filter_le _ _).trans (List.length_filterMap_le _ _)
      have few := written.few
      omega
  rw [cut, collect_items_eq db inst _ fun row member => written.states inst row.1 row.2
    (selected_of db inst _ row (List.mem_of_mem_take member)), List.map_take, wanted]
  rfl

end Seen

/-! ## Statements as an instance sees them -/

def claimedRow (now : Int) (row : ItemRow) : ItemRow :=
  { row with state := "in_progress", updatedAt := now }

theorem mark_claimed_items (inst : String) (now : Int) (items : List WorkItem) (db : Database)
    (i r : String) :
    (Database.markClaimed inst now items db).tables.items i r =
      if i = inst ∧ r ∈ items.map WorkItem.relpath then
        (db.tables.items i r).map (claimedRow now)
      else db.tables.items i r := by
  induction items generalizing db with
  | nil => simp [Database.markClaimed]
  | cons it rest ih =>
      rw [Database.markClaimed, ih]
      -- a row that is marked twice is as it was after the first time
      by_cases own : i = inst
      · by_cases first : r = it.relpath
        · by_cases later : r ∈ rest.map WorkItem.relpath
          · simp only [own, first ▸ later, List.map_cons, Database.updateItem, and_self, if_true,
              first, List.mem_cons, true_or]
            cases db.tables.items inst it.relpath <;> rfl
          · simp only [own, first ▸ later, List.map_cons, Database.updateItem, and_self, if_true,
              first, List.mem_cons, true_or, and_false, if_false]
            rfl
        · simp [own, first, Database.updateItem]
      · simp [own, Database.updateItem]

theorem mark_claimed_frame (inst : String) (now : Int) (items : List WorkItem) (db : Database) :
    let after := Database.markClaimed inst now items db
    after.tables.order = db.tables.order ∧ after.tables.dests = db.tables.dests ∧
      after.tables.resume = db.tables.resume ∧ after.stats = db.stats := by
  induction items generalizing db with
  | nil => exact ⟨rfl, rfl, rfl, rfl⟩
  | cons it rest ih => exact ih _

section Calls

variable (db : Database) (inst : String)

theorem update_seen (relpath : String) (change : ItemRow → ItemRow) (shown : Row → Row)
    (same : ∀ row, rowOf (change row) = shown (rowOf row)) :
    (db.updateItem inst relpath change).store inst = (db.store inst).updateRow relpath shown := by
  have items : (fun r => ((db.updateItem inst relpath change).tables.items inst r).map rowOf) =
      fun r => if r = relpath then ((db.tables.items inst r).map rowOf).map shown
        else (db.tables.items inst r).map rowOf := by
    funext r
    by_cases own : r = relpath
    · simp only [Database.updateItem, own, and_self, if_true, Option.map_map]
      exact congrArg (fun f => Option.map f _) (funext same)
    · simp only [Database.updateItem, own, and_false, if_false]
  simp only [Database.store, storeOf, Store.updateRow, items]
  rfl

theorem claim_seen (written : Written db) (limit : Nat) (now : Int) :
    (db.claimReady inst limit now).1 = .ok ((db.store inst).claimReady limit now).1 ∧
      (db.claimReady inst limit now).2.store inst = ((db.store inst).claimReady limit now).2 := by
  simp only [Database.claimReady, claimed_seen db inst written limit now, Store.claimReady, true_and]
  obtain ⟨order, dests, resume, stats⟩ :=
    mark_claimed_frame inst now ((db.store inst).claimed limit now) db
  have items : (fun r => ((Database.markClaimed inst now ((db.store inst).claimed limit now)
      db).tables.items inst r).map rowOf) =
      fun r => if r ∈ ((db.store inst).claimed limit now).map WorkItem.relpath then
        ((db.tables.items inst r).map rowOf).map fun row =>
          { row with state := .inProgress, updatedAt := now }
        else (db.tables.items inst r).map rowOf := by
    funext r
    rw [mark_claimed_items]
    by_cases picked : r ∈ ((db.store inst).claimed limit now).map WorkItem.relpath
    · rw [if_pos ⟨rfl, picked⟩, if_pos picked, Option.map_map, Option.map_map]
      rfl
    · rw [if_neg fun both => picked both.2, if_neg picked]
  show storeOf _ inst _ = _
  simp only [storeOf, items, order, dests, resume, stats]
  rfl

theorem set_resume_seen (relpath dest : String) (checkpoint : Option ResumeState) :
    (db.setResume inst relpath dest checkpoint).store inst =
      (db.store inst).setResume relpath dest checkpoint := by
  simp only [Database.store, storeOf, Store.setResume, Database.setResume, true_and]

theorem clear_resume_all_seen (relpath : String) :
    (db.clearResumeAll inst relpath).store inst = (db.store inst).clearResumeAll relpath := by
  simp only [Database.store, storeOf, Store.clearResumeAll, Database.clearResumeAll,
    Tables.deleteResume, true_and]
  congr 1
  funext r d
  by_cases own : r = relpath <;> simp [own]

theorem clear_dest_states_seen (relpath : String) :
    (db.clearDestStates inst relpath).store inst = (db.store inst).clearDestStates relpath := by
  simp only [Database.store, storeOf, Store.clearDestStates, Database.clearDestStates,
    Tables.deleteDestState, true_and]
  congr 1
  funext r d
  by_cases own : r = relpath <;> simp [own]

theorem upsert_dest_seen (relpath dest : String) (new : DestState) (update : DestState → DestState)
    (change : Option DestState → DestState) (made : change none = new)
    (updated : ∀ row, db.tables.dests inst relpath dest = some row → change (some row) = update row) :
    (db.upsertDest inst relpath dest new update).store inst =
      (db.store inst).setDest relpath dest change := by
  simp only [Database.store, storeOf, Store.setDest, Database.upsertDest, true_and]
  congr 1
  funext r d
  by_cases own : r = relpath ∧ d = dest
  · obtain ⟨rfl, rfl⟩ := own
    rw [if_pos ⟨rfl, rfl⟩, if_pos ⟨rfl, rfl⟩]
    cases found : db.tables.dests inst r d with
    | none => exact congrArg some made.symm
    | some row => exact congrArg some (updated row found).symm
  · rw [if_neg own, if_neg own]

theorem bump_stats_seen (replicated failed bytes : Int64) :
    (db.bumpStats inst replicated failed bytes).store inst =
      (db.store inst).bumpStats replicated failed bytes := by
  simp only [Database.store, storeOf, Store.bumpStats, Database.bumpStats, if_true, Option.getD_some]
  cases db.stats inst with
  | none => rw [Option.getD_none, StatsRow.bump_zero]
  | some row => rfl

theorem call_seen (written : Written db) (operation : StoreOp) (fit : fits db operation = true) :
    (callDatabase db inst operation).1 = .ok (callStore (db.store inst) operation).1 ∧
      (callDatabase db inst operation).2.store inst = (callStore (db.store inst) operation).2 := by
  cases operation with
  | destStates r => exact ⟨rfl, rfl⟩
  | getRow r => exact ⟨get_seen db inst written r, rfl⟩
  | loadResume r d => exact ⟨rfl, rfl⟩
  | saveResume r d checkpoint => exact ⟨rfl, set_resume_seen db inst r d _⟩
  | clearResume r d => exact ⟨rfl, set_resume_seen db inst r d none⟩
  | clearResumeAll r => exact ⟨rfl, clear_resume_all_seen db inst r⟩
  | clearDestStates r => exact ⟨rfl, clear_dest_states_seen db inst r⟩
  | setDestPhase r d phase =>
      exact ⟨rfl, upsert_dest_seen db inst r d _ _
        (fun prior =>
          match prior with
          | some d => { d with phase := phase }
          | none =>
              { dest := d, phase := phase, attempts := 0, nextAttemptAt := 0, lastError := none })
        rfl fun _ _ => rfl⟩
  | recordDestAttempt r d error phase gate =>
      refine ⟨rfl, upsert_dest_seen db inst r d _ _
        (fun prior =>
          { dest := d
            phase := phase
            attempts := ((prior.map DestState.attempts).getD 0) + 1
            nextAttemptAt := gate
            lastError := some error }) rfl fun row found => ?_⟩
      -- the row is under its own destination
      obtain rfl := written.keyed inst r d row found
      rfl
  | setState r state now =>
      refine ⟨rfl, update_seen db inst r _ _ fun row => ?_⟩
      simp only [rowOf, ItemState.from_str_as_str, Option.getD_some]
  | rollUpItem r state attempts gate error now =>
      refine ⟨rfl, update_seen db inst r _ _ fun row => ?_⟩
      simp only [rowOf, ItemState.from_str_as_str, Option.getD_some]
  | recordCleanupAttempt r error state gate now =>
      refine ⟨rfl, update_seen db inst r _ _ fun row => ?_⟩
      simp only [rowOf, ItemState.from_str_as_str, Option.getD_some]
  | setBytesDone r bytes now =>
      refine ⟨rfl, update_seen db inst r _ _ fun row => ?_⟩
      simp only [rowOf, UInt64.toUInt64_toInt64, UInt64.toNat_ofNat_of_lt' (of_decide_eq_true fit)]
  | bumpStats replicated failed bytes => exact ⟨rfl, bump_stats_seen db inst replicated failed bytes⟩
  | upsertReady r size mtimeMs now =>
      simp only [fits, Bool.and_eq_true, decide_eq_true_eq] at fit
      refine ⟨rfl, ?_⟩
      have upserted := store_of_upsert db.tables inst r (UInt64.ofNat size) mtimeMs now
        ((db.stats inst).getD .zero)
      rwa [UInt64.toNat_ofNat_of_lt' fit.1] at upserted
  | claimReady limit now => exact claim_seen db inst written limit now
  | recoverIncomplete =>
      simp only [callDatabase, recover_incomplete_seen db inst written]
      exact ⟨rfl, rfl⟩
  | listByState state =>
      simp only [callDatabase, list_by_state_seen db inst written state]
      exact ⟨rfl, rfl⟩

end Calls

section Others

variable (db : Database) (inst other : String) (apart : other ≠ inst)

include apart

theorem update_frame (relpath : String) (change : ItemRow → ItemRow) :
    (db.updateItem inst relpath change).store other = db.store other := by
  have items : (db.updateItem inst relpath change).tables.items other = db.tables.items other := by
    funext r
    exact if_neg fun both => apart both.1
  simp only [Database.store, storeOf, items]
  rfl

theorem upsert_dest_frame (relpath dest : String) (new : DestState)
    (update : DestState → DestState) :
    (db.upsertDest inst relpath dest new update).store other = db.store other := by
  have dests : (db.upsertDest inst relpath dest new update).tables.dests other =
      db.tables.dests other := by
    funext r d
    exact if_neg fun all => apart all.1
  simp only [Database.store, storeOf, dests]
  rfl

theorem set_resume_frame (relpath dest : String) (checkpoint : Option ResumeState) :
    (db.setResume inst relpath dest checkpoint).store other = db.store other := by
  have resume : (db.setResume inst relpath dest checkpoint).tables.resume other =
      db.tables.resume other := by
    funext r d
    exact if_neg fun all => apart all.1
  simp only [Database.store, storeOf, resume]
  rfl

theorem clear_resume_all_frame (relpath : String) :
    (db.clearResumeAll inst relpath).store other = db.store other := by
  have resume : (db.clearResumeAll inst relpath).tables.resume other = db.tables.resume other := by
    funext r
    exact if_neg fun both => apart both.1
  simp only [Database.store, storeOf, resume]
  rfl

theorem clear_dest_states_frame (relpath : String) :
    (db.clearDestStates inst relpath).store other = db.store other := by
  have dests : (db.clearDestStates inst relpath).tables.dests other = db.tables.dests other := by
    funext r
    exact if_neg fun both => apart both.1
  simp only [Database.store, storeOf, dests]
  rfl

theorem bump_stats_frame (replicated failed bytes : Int64) :
    (db.bumpStats inst replicated failed bytes).store other = db.store other := by
  simp only [Database.store, Database.bumpStats, apart, if_false]

theorem upsert_ready_frame (relpath : String) (size : UInt64) (mtimeMs now : Int) :
    (db.upsertReady inst relpath size mtimeMs now).store other = db.store other := by
  have elsewhere : ∀ r, ¬(other = inst ∧ r = relpath) := fun r both => apart both.1
  have inserted : ∀ new, storeOf (db.tables.insertItem inst relpath new) other
      ((db.stats other).getD .zero) = db.store other := by
    intro new
    have items : (db.tables.insertItem inst relpath new).items other = db.tables.items other := by
      funext r
      exact if_neg (elsewhere r)
    have order : ((db.tables.insertItem inst relpath new).order.filter fun key => key.1 = other) =
        db.tables.order.filter fun key => key.1 = other := by
      simp only [Tables.insertItem]
      split
      · rfl
      · rw [List.filter_append]
        simp [apart.symm]
    simp only [Database.store, storeOf, items, order]
    rfl
  simp only [Database.upsertReady, Rediscovery.upsertReady]
  split
  · show storeOf (((db.tables.insertItem inst relpath _).deleteDestState inst
      relpath).deleteResume inst relpath) other _ = _
    rw [← inserted (excluded size mtimeMs now)]
    have dests : ((db.tables.insertItem inst relpath (excluded size mtimeMs now)).deleteDestState inst
        relpath).dests other = db.tables.dests other := by
      funext r
      exact if_neg (elsewhere r)
    have resume : (((db.tables.insertItem inst relpath (excluded size mtimeMs now)).deleteDestState
        inst relpath).deleteResume inst relpath).resume other = db.tables.resume other := by
      funext r
      exact if_neg (elsewhere r)
    simp only [storeOf, resume]
    simp only [Tables.deleteResume, dests]
    rfl
  · exact inserted _

theorem claim_frame (limit : Nat) (now : Int) :
    (db.claimReady inst limit now).2.store other = db.store other := by
  simp only [Database.claimReady]
  split
  · rfl
  · rename_i items _
    clear * - apart
    induction items generalizing db with
    | nil => rfl
    | cons it rest ih => exact (ih _).trans (update_frame db inst other apart it.relpath _)

theorem call_frame (operation : StoreOp) :
    (callDatabase db inst operation).2.store other = db.store other := by
  cases operation with
  | saveResume r d checkpoint => exact set_resume_frame db inst other apart r d _
  | clearResume r d => exact set_resume_frame db inst other apart r d none
  | clearResumeAll r => exact clear_resume_all_frame db inst other apart r
  | clearDestStates r => exact clear_dest_states_frame db inst other apart r
  | setDestPhase r d phase => exact upsert_dest_frame db inst other apart r d _ _
  | recordDestAttempt r d error phase gate => exact upsert_dest_frame db inst other apart r d _ _
  | setState r state now => exact update_frame db inst other apart r _
  | rollUpItem r state attempts gate error now => exact update_frame db inst other apart r _
  | recordCleanupAttempt r error state gate now => exact update_frame db inst other apart r _
  | setBytesDone r bytes now => exact update_frame db inst other apart r _
  | bumpStats replicated failed bytes =>
      exact bump_stats_frame db inst other apart replicated failed bytes
  | upsertReady r size mtimeMs now => exact upsert_ready_frame db inst other apart r _ mtimeMs now
  | claimReady limit now => exact claim_frame db inst other apart limit now
  | _ => rfl

end Others

/-! ## Statements of all instances -/

/-- What an instance asks of the database: the statements of its threads, and those about its
statistics and its activation. -/
inductive Query where
  | statement (operation : StoreOp)
  | stats
  | loadActivation
  | setActivation (active : Bool) (source : String) (now : Int)
  | clearActivation

abbrev Reply : Query → Type
  | .statement operation => StoreRet operation
  | .stats => Stats
  | .loadActivation => Option Activation
  | .setActivation _ _ _ => Unit
  | .clearActivation => Unit

def answer (db : Database) (inst : String) :
    (query : Query) → Except ReplError (Reply query) × Database
  | .statement operation => callDatabase db inst operation
  | .stats => (db.readStats inst, db)
  | .loadActivation => (.ok (db.loadActivation inst), db)
  | .setActivation active source now => (.ok (), db.setActivation inst active source now)
  | .clearActivation => (.ok (), db.clearActivation inst)

def fitsQuery (db : Database) : Query → Bool
  | .statement operation => fits db operation
  | _ => true

structure Own where
  store : Store
  activation : Option ActivationRow

def Database.own (db : Database) (inst : String) : Own := ⟨db.store inst, db.activation inst⟩

/-- A query of an instance to a database of its own. -/
def answerAlone (own : Own) : (query : Query) → Except ReplError (Reply query) × Own
  | .statement operation =>
      (.ok (callStore own.store operation).1, { own with store := (callStore own.store operation).2 })
  | .stats => (own.store.stats.read, own)
  | .loadActivation =>
      (.ok (own.activation.map fun row => ⟨row.active ≠ 0, row.source, row.updatedAt⟩), own)
  | .setActivation active source now =>
      (.ok (), { own with activation := some ⟨if active then 1 else 0, source, now⟩ })
  | .clearActivation => (.ok (), { own with activation := none })

theorem written_answer (db : Database) (inst : String) (written : Written db) (query : Query)
    (fit : fitsQuery db query = true) : Written (answer db inst query).2 := by
  cases query with
  | statement operation => exact written_call db inst written operation fit
  | _ => exact ⟨written.states, written.keyed, written.few⟩

theorem activation_call (db : Database) (inst : String) (operation : StoreOp) :
    (callDatabase db inst operation).2.activation = db.activation := by
  have claimed (now : Int) (items : List WorkItem) (db : Database) :
      (Database.markClaimed inst now items db).activation = db.activation := by
    induction items generalizing db with
    | nil => rfl
    | cons it rest ih => exact ih _
  cases operation with
  | claimReady limit now =>
      simp only [callDatabase, Database.claimReady]
      split
      · rfl
      · exact claimed now _ db
  | _ => rfl

theorem read_stats_seen (db : Database) (inst : String) :
    db.readStats inst = (db.store inst).stats.read := by
  show _ = ((db.stats inst).getD .zero).read
  cases found : db.stats inst with
  | none => rw [Database.readStats, found]; rfl
  | some row => rw [Database.readStats, found]; rfl

theorem answer_seen (db : Database) (inst : String) (written : Written db) (query : Query)
    (fit : fitsQuery db query = true) :
    (answer db inst query).1 = (answerAlone (db.own inst) query).1 ∧
      (answer db inst query).2.own inst = (answerAlone (db.own inst) query).2 := by
  cases query with
  | statement operation =>
      obtain ⟨answered, left⟩ := call_seen db inst written operation fit
      refine ⟨answered, ?_⟩
      rw [Database.own, answer, left, activation_call]
      rfl
  | stats => exact ⟨read_stats_seen db inst, rfl⟩
  | loadActivation => exact ⟨rfl, rfl⟩
  | setActivation active source now =>
      exact ⟨rfl, congrArg (Own.mk _) (if_pos rfl)⟩
  | clearActivation => exact ⟨rfl, congrArg (Own.mk _) (if_pos rfl)⟩

theorem answer_frame (db : Database) (inst other : String) (apart : other ≠ inst)
    (query : Query) : (answer db inst query).2.own other = db.own other := by
  cases query with
  | statement operation =>
      rw [Database.own, answer, call_frame db inst other apart, activation_call]
      rfl
  | setActivation active source now => exact congrArg (Own.mk _) (if_neg apart)
  | clearActivation => exact congrArg (Own.mk _) (if_neg apart)
  | _ => rfl

abbrev Answered := Σ query : Query, Except ReplError (Reply query)

/-- The instances make their queries in this order. -/
def serve : Database → List (String × Query) → List (String × Answered) × Database
  | db, [] => ([], db)
  | db, query :: rest =>
      let out := answer db query.1 query.2
      let later := serve out.2 rest
      ((query.1, ⟨query.2, out.1⟩) :: later.1, later.2)

/-- An instance makes its queries to a database of its own. -/
def serveAlone : Own → List Query → List Answered × Own
  | own, [] => ([], own)
  | own, query :: rest =>
      let out := answerAlone own query
      let later := serveAlone out.2 rest
      (⟨query, out.1⟩ :: later.1, later.2)

def allFit : Database → List (String × Query) → Bool
  | _, [] => true
  | db, query :: rest =>
      fitsQuery db query.2 && allFit (answer db query.1 query.2).2 rest

def ownOf {α : Type} (inst : String) (l : List (String × α)) : List α :=
  (l.filter fun entry => entry.1 = inst).map Prod.snd

theorem own_of_cons {α : Type} (inst : String) (entry : String × α) (rest : List (String × α)) :
    ownOf inst (entry :: rest) =
      if entry.1 = inst then entry.2 :: ownOf inst rest else ownOf inst rest := by
  by_cases own : entry.1 = inst
  · simp [ownOf, own]
  · simp [ownOf, own]

/-- Whatever the others do, an instance gets the answers that a database of its own would give it, and
no query fails for what the others have written. -/
theorem shared_as_alone (db : Database) (queries : List (String × Query)) (written : Written db)
    (fit : allFit db queries = true) (inst : String) :
    ownOf inst (serve db queries).1 = (serveAlone (db.own inst) (ownOf inst queries)).1 ∧
      (serve db queries).2.own inst = (serveAlone (db.own inst) (ownOf inst queries)).2 := by
  induction queries generalizing db with
  | nil => exact ⟨rfl, rfl⟩
  | cons query rest ih =>
      rw [allFit, Bool.and_eq_true] at fit
      obtain ⟨answers, left⟩ :=
        ih _ (written_answer db query.1 written query.2 fit.1) fit.2
      rw [serve, own_of_cons, own_of_cons]
      by_cases own : query.1 = inst
      · subst own
        obtain ⟨answered, seen⟩ := answer_seen db query.1 written query.2 fit.1
        rw [if_pos rfl, if_pos rfl, serveAlone, answers, left, seen, answered]
        exact ⟨rfl, rfl⟩
      · rw [if_neg own, if_neg own, answers, left,
          answer_frame db query.1 inst (Ne.symm own) query.2]
        exact ⟨rfl, rfl⟩

def twoInstances : List (String × Query) :=
  [("plant", .statement (.upsertReady "a" 5 0 1)), ("dock", .statement (.upsertReady "a" 7 0 2)),
    ("plant", .statement (.claimReady 4 3)), ("dock", .setActivation false "control" 3),
    ("dock", .statement (.setState "a" .completed 4)), ("dock", .statement (.bumpStats 1 0 7)),
    ("plant", .statement (.setBytesDone "a" 3 4)), ("dock", .statement (.upsertReady "a" 8 0 5)),
    ("plant", .statement (.listByState .inProgress)), ("plant", .stats), ("plant", .loadActivation)]

theorem two_instances_as_alone :
    ownOf "plant" (serve emptyDatabase twoInstances).1 =
        (serveAlone (emptyDatabase.own "plant") (ownOf "plant" twoInstances)).1 ∧
      (serve emptyDatabase twoInstances).2.own "plant" =
        (serveAlone (emptyDatabase.own "plant") (ownOf "plant" twoInstances)).2 :=
  shared_as_alone emptyDatabase twoInstances written_empty (by decide) "plant"

end FileReplicator.SqliteStore
