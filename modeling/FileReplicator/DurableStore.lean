import Mathlib.Data.List.Sort
import FileReplicator.Columns

/-!
# The durable store

The tables of one instance and the statements over them. Every statement is one
transaction; rows are never deleted from the item table.
-/

namespace FileReplicator.DurableStore

open Domain Columns

/-- A row of `work_items`, without its key. -/
structure Row where
  state : ItemState
  size : Nat
  mtimeMs : Int
  discoveredAt : Int
  attempts : Nat
  cleanupAttempts : Nat
  nextAttemptAt : Int
  lastError : Option String
  bytesDone : Nat
  updatedAt : Int
  deriving DecidableEq

/-- What `stats` reads. -/
structure Stats where
  replicated : Nat
  failed : Nat
  bytes : Nat
  deriving DecidableEq

/-- A row of `stats`, without its key. -/
structure StatsRow where
  replicated : Column
  failed : Column
  bytes : Column
  deriving DecidableEq

namespace StatsRow

def zero : StatsRow := ⟨.integer 0, .integer 0, .integer 0⟩

def bump (row : StatsRow) (replicated failed bytes : Int64) : StatsRow where
  replicated := row.replicated.add replicated
  failed := row.failed.add failed
  bytes := row.bytes.add bytes

def read (row : StatsRow) : Except ReplError Stats := do
  let replicated ← row.replicated.read "0" "replicated"
  let failed ← row.failed.read "1" "failed"
  let bytes ← row.bytes.read "2" "bytes"
  return ⟨replicated, failed, bytes⟩

theorem bump_zero (replicated failed bytes : Int64) :
    zero.bump replicated failed bytes = ⟨.integer replicated, .integer failed, .integer bytes⟩ := by
  simp only [bump, zero, Column.add_to_zero]

end StatsRow

/-- The rows of one instance. `order` lists the relpaths as their rows were inserted. -/
structure Store where
  instanceId : String
  items : String → Option Row
  order : List String
  dests : String → String → Option DestState
  resume : String → String → Option ResumeState
  stats : StatsRow

def emptyStore (instanceId : String) : Store where
  instanceId := instanceId
  items := fun _ => none
  order := []
  dests := fun _ _ => none
  resume := fun _ _ => none
  stats := .zero

namespace Store

variable (store : Store)

/-- `row_to_item`. -/
def toItem (relpath : String) (row : Row) : WorkItem where
  instanceId := store.instanceId
  relpath := relpath
  state := row.state
  size := row.size
  discoveredAt := row.discoveredAt
  attempts := row.attempts
  cleanupAttempts := row.cleanupAttempts
  nextAttemptAt := row.nextAttemptAt
  lastError := row.lastError
  bytesDone := row.bytesDone
  updatedAt := row.updatedAt

def updateRow (relpath : String) (change : Row → Row) : Store :=
  { store with items := fun r => if r = relpath then (store.items r).map change else store.items r }

/-! ## Items -/

def freshRow (size : Nat) (mtimeMs now : Int) : Row where
  state := .ready
  size := size
  mtimeMs := mtimeMs
  discoveredAt := now
  attempts := 0
  cleanupAttempts := 0
  nextAttemptAt := 0
  lastError := none
  bytesDone := 0
  updatedAt := now

/-- A finished item whose file is another one now. -/
def resets (row : Row) (size : Nat) (mtimeMs : Int) : Bool :=
  row.state.isTerminal && (row.size ≠ size || row.mtimeMs ≠ mtimeMs)

def rediscovered (row : Row) (size : Nat) (mtimeMs now : Int) : Row :=
  if resets row size mtimeMs then freshRow size mtimeMs now
  else { row with size := size, mtimeMs := mtimeMs, updatedAt := now }

def clearDestStates (relpath : String) : Store :=
  { store with dests := fun r dest => if r = relpath then none else store.dests r dest }

def clearResumeAll (relpath : String) : Store :=
  { store with resume := fun r dest => if r = relpath then none else store.resume r dest }

def insertRow (relpath : String) (row : Row) : Store :=
  { store with
    items := fun r => if r = relpath then some row else store.items r
    order := store.order ++ [relpath] }

def upsertReady (relpath : String) (size : Nat) (mtimeMs now : Int) : Store :=
  match store.items relpath with
  | none => store.insertRow relpath (freshRow size mtimeMs now)
  | some row =>
      let updated := store.updateRow relpath fun row => rediscovered row size mtimeMs now
      if resets row size mtimeMs then (updated.clearDestStates relpath).clearResumeAll relpath
      else updated

/-- The rows a query selects, in `discovered_at` order. -/
def select (wanted : WorkItem → Bool) : List WorkItem :=
  -- `ORDER BY discovered_at` leaves the order of equal times open; here they stand as inserted,
  -- and no result depends on it.
  let rows := store.order.filterMap fun r => (store.items r).map (store.toItem r)
  (rows.filter wanted).insertionSort fun a b => a.discoveredAt ≤ b.discoveredAt

def claimed (limit : Nat) (now : Int) : List WorkItem :=
  (store.select fun it => it.state = .ready && it.nextAttemptAt ≤ now).take limit

/-- `claim_ready`: the items as they are after the claim, and the store after it. -/
def claimReady (limit : Nat) (now : Int) : List WorkItem × Store :=
  let picked := store.claimed limit now
  (picked.map fun it => { it with state := .inProgress, updatedAt := now },
    { store with
      items := fun r =>
        if r ∈ picked.map WorkItem.relpath then
          (store.items r).map fun row => { row with state := .inProgress, updatedAt := now }
        else store.items r })

def get (relpath : String) : Option WorkItem :=
  (store.items relpath).map (store.toItem relpath)

def recoverIncomplete : List WorkItem :=
  store.select fun it =>
    it.state = .inProgress || it.state = .verified || it.state = .cleanupPending

def listByState (state : ItemState) : List WorkItem :=
  store.select fun it => it.state = state

def setState (relpath : String) (state : ItemState) (now : Int) : Store :=
  store.updateRow relpath fun row => { row with state := state, updatedAt := now }

def recordCleanupAttempt (relpath error : String) (next : ItemState) (nextAttemptAt now : Int) :
    Store :=
  store.updateRow relpath fun row =>
    { row with
      cleanupAttempts := row.cleanupAttempts + 1
      lastError := some error
      state := next
      nextAttemptAt := nextAttemptAt
      updatedAt := now }

def setBytesDone (relpath : String) (bytes : Nat) (now : Int) : Store :=
  store.updateRow relpath fun row => { row with bytesDone := bytes, updatedAt := now }

def rollUpItem (relpath : String) (state : ItemState) (attempts : Nat) (nextAttemptAt : Int)
    (lastError : Option String) (now : Int) : Store :=
  store.updateRow relpath fun row =>
    { row with
      state := state
      attempts := attempts
      nextAttemptAt := nextAttemptAt
      lastError := lastError
      updatedAt := now }

/-! ## Checkpoints and destinations -/

def setResume (relpath dest : String) (checkpoint : Option ResumeState) : Store :=
  { store with
    resume := fun r d => if r = relpath ∧ d = dest then checkpoint else store.resume r d }

def saveResume (relpath dest : String) (checkpoint : ResumeState) : Store :=
  store.setResume relpath dest (some checkpoint)

def clearResume (relpath dest : String) : Store :=
  store.setResume relpath dest none

def setDest (relpath dest : String) (change : Option DestState → DestState) : Store :=
  { store with
    dests := fun r d =>
      if r = relpath ∧ d = dest then some (change (store.dests r d)) else store.dests r d }

def setDestPhase (relpath dest : String) (phase : DestPhase) : Store :=
  store.setDest relpath dest fun prior =>
    match prior with
    | some d => { d with phase := phase }
    | none =>
        { dest := dest, phase := phase, attempts := 0, nextAttemptAt := 0, lastError := none }

def recordDestAttempt (relpath dest error : String) (phase : DestPhase) (nextAttemptAt : Int) :
    Store :=
  store.setDest relpath dest fun prior =>
    { dest := dest
      phase := phase
      attempts := ((prior.map DestState.attempts).getD 0) + 1
      nextAttemptAt := nextAttemptAt
      lastError := some error }

def bumpStats (replicated failed bytes : Int64) : Store :=
  { store with stats := store.stats.bump replicated failed bytes }

/-- The phase of a destination; no row is as good as a pending one. -/
def phase (relpath dest : String) : DestPhase :=
  ((store.dests relpath dest).map DestState.phase).getD .pending

/-! ## What the statements touch -/

theorem items_update (relpath r : String) (change : Row → Row) :
    (store.updateRow relpath change).items r =
      if r = relpath then (store.items r).map change else store.items r :=
  rfl

theorem state_of_bytes_done (r relpath : String) (bytes : Nat) (now : Int) (row : Row)
    (found : (store.setBytesDone r bytes now).items relpath = some row) :
    ∃ before, store.items relpath = some before ∧ before.state = row.state := by
  rw [setBytesDone, items_update] at found
  split at found
  · obtain ⟨before, here, rfl⟩ := Option.map_eq_some_iff.mp found
    exact ⟨before, here, rfl⟩
  · exact ⟨row, found, rfl⟩

theorem mem_select (wanted : WorkItem → Bool) (it : WorkItem) (member : it ∈ store.select wanted) :
    wanted it = true ∧ ∃ row, store.items it.relpath = some row ∧
      it = store.toItem it.relpath row := by
  rw [select, List.mem_insertionSort, List.mem_filter] at member
  obtain ⟨hrow, hwanted⟩ := member
  obtain ⟨r, _, hitem⟩ := List.mem_filterMap.mp hrow
  obtain ⟨row, found, rfl⟩ := Option.map_eq_some_iff.mp hitem
  exact ⟨hwanted, row, found, rfl⟩

theorem mem_list_by_state (state : ItemState) (it : WorkItem)
    (member : it ∈ store.listByState state) :
    ∃ row, store.items it.relpath = some row ∧ row.state = state ∧
      it = store.toItem it.relpath row := by
  obtain ⟨hstate, row, found, heq⟩ := store.mem_select _ it member
  have hrow : it.state = row.state := by rw [heq]; rfl
  exact ⟨row, found, hrow ▸ of_decide_eq_true hstate, heq⟩

theorem mem_recover_incomplete (it : WorkItem) (member : it ∈ store.recoverIncomplete) :
    ∃ row, store.items it.relpath = some row ∧ row.state = it.state ∧
      it = store.toItem it.relpath row := by
  obtain ⟨_, row, found, heq⟩ := store.mem_select _ it member
  exact ⟨row, found, by rw [heq]; rfl, heq⟩

theorem claim_relpaths (limit : Nat) (now : Int) :
    (store.claimReady limit now).1.map WorkItem.relpath =
      (store.claimed limit now).map WorkItem.relpath := by
  simp only [claimReady, List.map_map]
  rfl

theorem ready_of_claimed (limit : Nat) (now : Int) (relpath : String)
    (listed : relpath ∈ (store.claimed limit now).map WorkItem.relpath) :
    ∃ row, store.items relpath = some row ∧ row.state = .ready := by
  obtain ⟨it, member, rfl⟩ := List.mem_map.mp listed
  obtain ⟨wanted, row, found, same⟩ := store.mem_select _ it (List.mem_of_mem_take member)
  rw [Bool.and_eq_true, decide_eq_true_eq] at wanted
  exact ⟨row, found, by rw [← wanted.1, same]; rfl⟩

@[simp] theorem phase_set_state (relpath r dest : String) (state : ItemState) (now : Int) :
    (store.setState relpath state now).phase r dest = store.phase r dest :=
  rfl

theorem phase_set_dest (relpath dest r d : String) (change : Option DestState → DestState) :
    (store.setDest relpath dest change).phase r d =
      if r = relpath ∧ d = dest then (change (store.dests r d)).phase else store.phase r d := by
  simp only [phase, setDest]
  split <;> rfl

theorem phase_set_dest_phase (relpath dest r d : String) (newPhase : DestPhase) :
    (store.setDestPhase relpath dest newPhase).phase r d =
      if r = relpath ∧ d = dest then newPhase else store.phase r d := by
  rw [setDestPhase, phase_set_dest]
  congr 1
  cases store.dests r d <;> rfl

theorem phase_record_dest_attempt (relpath dest error r d : String) (newPhase : DestPhase)
    (nextAttemptAt : Int) :
    (store.recordDestAttempt relpath dest error newPhase nextAttemptAt).phase r d =
      if r = relpath ∧ d = dest then newPhase else store.phase r d :=
  store.phase_set_dest relpath dest r d _

theorem phase_clear (relpath r dest : String) :
    (store.clearDestStates relpath).phase r dest =
      if r = relpath then .pending else store.phase r dest := by
  simp only [phase, clearDestStates]
  split <;> rfl

/-- What a rediscovery leaves: a new row, or a row started over with no destination state, or a row
that only its signature changed. -/
theorem upsert_cases (relpath : String) (size : Nat) (mtimeMs now : Int) :
    let after := store.upsertReady relpath size mtimeMs now
    (∀ r, r ≠ relpath → after.items r = store.items r ∧ ∀ dest, after.phase r dest = store.phase r dest) ∧
    ((store.items relpath = none ∧ after.items relpath = some (freshRow size mtimeMs now) ∧
        ∀ dest, after.phase relpath dest = store.phase relpath dest) ∨
      (∃ row, store.items relpath = some row ∧ resets row size mtimeMs = true ∧
        after.items relpath = some (freshRow size mtimeMs now) ∧
        ∀ dest, after.phase relpath dest = .pending) ∨
      (∃ row, store.items relpath = some row ∧ resets row size mtimeMs = false ∧
        after.items relpath = some { row with size := size, mtimeMs := mtimeMs, updatedAt := now } ∧
        ∀ dest, after.phase relpath dest = store.phase relpath dest)) := by
  cases found : store.items relpath with
  | none =>
      simp only [upsertReady, found]
      refine ⟨fun r other => ⟨by simp [insertRow, other], fun dest => rfl⟩, Or.inl ⟨trivial, ?_⟩⟩
      exact ⟨by simp [insertRow], fun dest => rfl⟩
  | some row =>
      by_cases finished : resets row size mtimeMs = true
      · simp only [upsertReady, found, finished, if_true]
        have hitems : ((store.updateRow relpath fun row => rediscovered row size mtimeMs now
            ).clearDestStates relpath |>.clearResumeAll relpath).items =
            (store.updateRow relpath fun row => rediscovered row size mtimeMs now).items := rfl
        have hphase : ∀ r dest, ((store.updateRow relpath fun row =>
            rediscovered row size mtimeMs now).clearDestStates relpath |>.clearResumeAll
            relpath).phase r dest = if r = relpath then .pending else store.phase r dest :=
          fun r dest => phase_clear _ relpath r dest
        refine ⟨fun r other => ⟨?_, fun dest => ?_⟩, Or.inr (Or.inl ⟨row, rfl, finished, ?_, fun dest => ?_⟩)⟩
        · rw [hitems, items_update, if_neg other]
        · rw [hphase, if_neg other]
        · rw [hitems, items_update, if_pos rfl, found]
          simp [rediscovered, finished]
        · rw [hphase, if_pos rfl]
      · simp only [upsertReady, found, finished]
        refine ⟨fun r other => ⟨?_, fun dest => rfl⟩,
          Or.inr (Or.inr ⟨row, rfl, by simpa using finished, ?_, fun dest => rfl⟩)⟩
        · simp only [Bool.false_eq_true, if_false]
          rw [items_update, if_neg other]
        · simp only [Bool.false_eq_true, if_false]
          rw [items_update, if_pos rfl, found]
          simp [rediscovered, finished]

end Store

end FileReplicator.DurableStore
