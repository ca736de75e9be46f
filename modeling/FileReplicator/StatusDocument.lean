import Mathlib.Data.Nat.Basic
import FileReplicator.Json
import FileReplicator.Percentages
import FileReplicator.Runs
import FileReplicator.Startup

/-!
# The status document

What `get-status` tells of an instance: how many items wait, are under way and have
failed, with at most a hundred of them listed of each sort, and what has been
replicated. A read that the store refuses counts as nothing found.
-/

namespace FileReplicator.StatusDocument

open Domain DurableStore Json Operations Startup Percentages

def maxListed : Nat := 100

/-- Whole seconds, and none when the clock is behind. -/
def ageSecs (now discoveredAt : Int) : Int := max (now - discoveredAt) 0 / 1000

/-! ## Documents -/

structure StatusInputs where
  id : String
  active : Bool
  configuredEnabled : Bool
  scheduleMode : String
  destLabel : String
  stats : Stats
  awaiting : List WorkItem
  inProgress : List WorkItem
  failed : List WorkItem

section

variable (rfc3339Ms : Int → String) (now : Int)

def awaitingFile (w : WorkItem) : Value :=
  .obj [("path", .str w.relpath), ("size", .ofNat w.size), ("ageSecs", .int (ageSecs now w.discoveredAt))]

def inProgressRow (destLabel : String) (w : WorkItem) : Value :=
  .obj [("path", .str w.relpath), ("size", .ofNat w.size), ("bytesDone", .ofNat w.bytesDone),
    ("percent", .float (percent w.bytesDone w.size)), ("destination", .str destLabel),
    ("attempt", .ofNat (w.attempts + 1))]

def failedItem (w : WorkItem) : Value :=
  .obj ([("path", .str w.relpath), ("attempts", .ofNat w.attempts),
      ("lastError", .str (w.lastError.getD "")), ("state", .str w.state.asStr)] ++
    (if w.state = .quarantined then [("quarantinedAt", .str (rfc3339Ms w.updatedAt))] else []) ++
    (if w.state = .cleanupFailed then [("cleanupAttempts", .ofNat w.cleanupAttempts)] else []))

def instanceStatusJson (inp : StatusInputs) : Value :=
  .obj [
    ("instance", .str inp.id),
    ("active", .bool inp.active),
    ("configuredEnabled", .bool inp.configuredEnabled),
    ("schedule", .obj [("mode", .str inp.scheduleMode)]),
    ("awaiting", .obj [
      ("count", .ofNat inp.awaiting.length),
      ("bytes", .ofNat ((inp.awaiting.map WorkItem.size).sum % 2 ^ 64)),
      ("files", .arr ((inp.awaiting.take maxListed).map (awaitingFile now)))]),
    ("inProgress", .arr ((inp.inProgress.take maxListed).map (inProgressRow inp.destLabel))),
    ("replicated", .obj [("count", .ofNat inp.stats.replicated), ("bytes", .ofNat inp.stats.bytes)]),
    ("failed", .obj [
      ("count", .ofNat inp.failed.length),
      ("items", .arr ((inp.failed.take maxListed).map (failedItem rfc3339Ms)))])]

/-- The document from the answers of the store; `unwrap_or_default`. -/
def instanceStateSnapshot (stats : Except ReplError Stats)
    (listByState : ItemState → Except ReplError (List WorkItem)) (inst : Instance) (active : Bool) :
    Value :=
  let list := fun state => (listByState state).toOption.getD []
  instanceStatusJson rfc3339Ms now {
    id := inst.id
    active := active
    configuredEnabled := inst.configEnabled
    scheduleMode := inst.scheduleMode
    destLabel := inst.destKind
    stats := stats.toOption.getD ⟨0, 0, 0⟩
    awaiting := list .ready
    inProgress := list .inProgress
    failed := list .failed ++ list .exhausted ++ list .quarantined ++ list .cleanupFailed }

end

def disabledStatusJson (info : DisabledInstanceInfo) : Value :=
  .obj [
    ("instance", .str info.id),
    ("active", .bool false),
    ("configuredEnabled", .bool false),
    ("disabled", .bool true),
    ("disabledReason", .str info.reason),
    ("disabledRole", .str info.role),
    ("disabledPath", .str info.path),
    ("schedule", .obj [("mode", .str "disabled")]),
    ("awaiting", .obj [("count", .ofNat 0), ("bytes", .ofNat 0), ("files", .arr [])]),
    ("inProgress", .arr []),
    ("replicated", .obj [("count", .ofNat 0), ("bytes", .ofNat 0)]),
    ("failed", .obj [("count", .ofNat 0), ("items", .arr [])])]

/-! ## What a document tells -/

/-- The paths that a list of the document holds. -/
def told (list : List String) (doc : Value) : List String :=
  ((doc.pointer list).elim [] Value.items).filterMap fun row => (row.get "path").bind Value.asStr

/-- The document is made of these statistics and these items. A sum of sizes is a `u64`. -/
structure Tells (doc : Value) (stats : Stats) (awaiting inProgress failed : List WorkItem) : Prop where
  awaitingFiles : told ["awaiting", "files"] doc = (awaiting.take maxListed).map WorkItem.relpath
  inProgressRows : told ["inProgress"] doc = (inProgress.take maxListed).map WorkItem.relpath
  failedItems : told ["failed", "items"] doc = (failed.take maxListed).map WorkItem.relpath
  awaitingCount : doc.pointer ["awaiting", "count"] = some (.ofNat awaiting.length)
  awaitingBytes : doc.pointer ["awaiting", "bytes"] =
    some (.ofNat ((awaiting.map WorkItem.size).sum % 2 ^ 64))
  failedCount : doc.pointer ["failed", "count"] = some (.ofNat failed.length)
  replicatedCount : doc.pointer ["replicated", "count"] = some (.ofNat stats.replicated)
  replicatedBytes : doc.pointer ["replicated", "bytes"] = some (.ofNat stats.bytes)

theorem told_rows (l : List WorkItem) (row : WorkItem → Value)
    (names : ∀ w, (row w).get "path" = some (.str w.relpath)) :
    (l.map row).filterMap (fun value => (value.get "path").bind Value.asStr) =
      l.map WorkItem.relpath := by
  induction l with
  | nil => rfl
  | cons w rest ih =>
      rw [List.map_cons, List.filterMap_cons, names, ih]
      rfl

theorem tells_of_inputs (rfc3339Ms : Int → String) (now : Int) (inp : StatusInputs) :
    Tells (instanceStatusJson rfc3339Ms now inp) inp.stats inp.awaiting inp.inProgress inp.failed where
  awaitingFiles := told_rows (inp.awaiting.take maxListed) (awaitingFile now) fun _ => rfl
  inProgressRows := told_rows (inp.inProgress.take maxListed) (inProgressRow inp.destLabel) fun _ => rfl
  failedItems := told_rows (inp.failed.take maxListed) (failedItem rfc3339Ms) fun _ => rfl
  awaitingCount := rfl
  awaitingBytes := rfl
  failedCount := rfl
  replicatedCount := rfl
  replicatedBytes := rfl

def itemsIn (store : Store) (states : List ItemState) : List WorkItem := states.flatMap store.listByState

def failedStates : List ItemState := [.failed, .exhausted, .quarantined, .cleanupFailed]

/-- The states of which a document says nothing: the item is on its way to its end, or there. -/
def silentStates : List ItemState := [.verified, .cleanupPending, .completed, .retained]

section

variable (store : Store) (keyed : Runs.Keyed store)

theorem mem_items_in (states : List ItemState) (w : WorkItem) (member : w ∈ itemsIn store states) :
    ∃ row, store.items w.relpath = some row ∧ row.state ∈ states := by
  obtain ⟨state, among, listed⟩ := List.mem_flatMap.mp member
  obtain ⟨row, stored, rfl, _⟩ := store.mem_list_by_state state w listed
  exact ⟨row, stored, among⟩

include keyed

theorem items_in_nodup (states : List ItemState) (distinct : states.Nodup) :
    ((itemsIn store states).map WorkItem.relpath).Nodup := by
  induction states with
  | nil => exact List.nodup_nil
  | cons state rest ih =>
      rw [List.nodup_cons] at distinct
      rw [itemsIn, List.flatMap_cons, List.map_append]
      refine List.nodup_append'.mpr ⟨Runs.select_nodup store keyed _, ih distinct.2, ?_⟩
      intro r left right
      obtain ⟨w, here, rfl⟩ := List.mem_map.mp left
      obtain ⟨v, there, same⟩ := List.mem_map.mp right
      obtain ⟨row, stored, is, _⟩ := store.mem_list_by_state state w here
      obtain ⟨other, also, among⟩ := mem_items_in store rest v there
      rw [same, stored, Option.some_inj] at also
      rw [also] at is
      exact distinct.1 (is ▸ among)

theorem rows_length :
    (store.order.filterMap fun r => (store.items r).map (store.toItem r)).length =
      store.order.length := by
  have present := keyed.listed
  generalize store.order = order at present ⊢
  induction order with
  | nil => rfl
  | cons r rest ih =>
      obtain ⟨row, stored⟩ := Option.ne_none_iff_exists'.mp (present r List.mem_cons_self)
      simp only [List.filterMap_cons, stored, Option.map_some, List.length_cons]
      rw [ih fun other member => present other (List.mem_cons_of_mem r member)]

omit keyed

theorem items_in_length (states : List ItemState) :
    (itemsIn store states).length = (states.map fun state =>
      (store.order.filterMap fun r => (store.items r).map (store.toItem r)).countP
        fun w : WorkItem => w.state = state).sum := by
  rw [itemsIn, List.length_flatMap]
  congr 1
  refine List.map_congr_left fun state _ => ?_
  rw [Store.listByState, Store.select, List.length_insertionSort, List.countP_eq_length_filter]

theorem items_in_append (some more : List ItemState) :
    itemsIn store (some ++ more) = itemsIn store some ++ itemsIn store more := List.flatMap_append

theorem states_counted (l : List WorkItem) :
    l.length = ((ItemState.ready :: .inProgress :: (failedStates ++ silentStates)).map fun state =>
      l.countP fun w : WorkItem => w.state = state).sum := by
  induction l with
  | nil => rfl
  | cons w rest ih =>
      simp only [failedStates, silentStates, List.cons_append, List.nil_append, List.map_cons,
        List.map_nil, List.sum_cons, List.sum_nil, List.countP_cons, List.length_cons] at ih ⊢
      cases w.state <;> simp <;> omega

end

/-- The document shows items in these states, as many as it may. -/
structure Shows (store : Store) (doc : Value) (list : List String) (states : List ItemState) : Prop where
  within : ∀ r ∈ told list doc, ∃ row, store.items r = some row ∧ row.state ∈ states
  full : (told list doc).length = min maxListed (itemsIn store states).length

/-- The document accounts for every item of the instance. -/
structure Accounts (store : Store) (doc : Value) : Prop where
  awaiting : Shows store doc ["awaiting", "files"] [.ready]
  inProgress : Shows store doc ["inProgress"] [.inProgress]
  failed : Shows store doc ["failed", "items"] failedStates
  once : (told ["awaiting", "files"] doc ++ told ["inProgress"] doc ++
    told ["failed", "items"] doc).Nodup
  rows : store.order.length = (itemsIn store [.ready]).length + (itemsIn store [.inProgress]).length +
    (itemsIn store failedStates).length + (itemsIn store silentStates).length

theorem shows_of_told (store : Store) (doc : Value) (list : List String) (states : List ItemState)
    (is : told list doc = ((itemsIn store states).take maxListed).map WorkItem.relpath) :
    Shows store doc list states := by
  constructor
  · intro r member
    rw [is] at member
    obtain ⟨w, among, rfl⟩ := List.mem_map.mp member
    exact mem_items_in store states w (List.mem_of_mem_take among)
  · rw [is, List.length_map, List.length_take]

theorem told_sublist (doc : Value) (list : List String) (l : List WorkItem)
    (is : told list doc = (l.take maxListed).map WorkItem.relpath) :
    (told list doc).Sublist (l.map WorkItem.relpath) := by
  rw [is]
  exact (List.take_sublist _ _).map _

theorem accounts_of_tells (store : Store) (keyed : Runs.Keyed store) (doc : Value) (stats : Stats)
    (tells : Tells doc stats (itemsIn store [.ready]) (itemsIn store [.inProgress])
      (itemsIn store failedStates)) : Accounts store doc := by
  have apart := items_in_nodup store keyed ([.ready] ++ [.inProgress] ++ failedStates) (by decide)
  refine {
    awaiting := shows_of_told _ _ _ _ tells.awaitingFiles
    inProgress := shows_of_told _ _ _ _ tells.inProgressRows
    failed := shows_of_told _ _ _ _ tells.failedItems
    once := ?_
    rows := ?_ }
  · rw [items_in_append, items_in_append, List.map_append, List.map_append] at apart
    refine List.Nodup.sublist ?_ apart
    refine List.Sublist.append (List.Sublist.append ?_ ?_) ?_
    · exact told_sublist _ _ _ tells.awaitingFiles
    · exact told_sublist _ _ _ tells.inProgressRows
    · exact told_sublist _ _ _ tells.failedItems
  · rw [← rows_length _ keyed, states_counted, items_in_length, items_in_length, items_in_length,
      items_in_length]
    simp only [List.map_cons, List.map_nil, List.map_append, List.sum_cons, List.sum_nil,
      List.sum_append]
    omega

end FileReplicator.StatusDocument
