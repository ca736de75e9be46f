import FileReplicator.Runs

/-!
# Rows and queries

Which rows a query finds, in which order, and that no row is ever out of its
reach. What holds of the store after every statement holds of it in every run.
-/

namespace FileReplicator.Rows

open Domain DurableStore Operations Interleaving Instance Protocol Steps Runs

variable (setup : Setup)

/-! ## Every row is listed -/

def Listed (store : Store) : Prop := ∀ r, store.items r ≠ none → r ∈ store.order

theorem listed_empty (instanceId : String) : Listed (emptyStore instanceId) :=
  fun _ present => absurd rfl present

theorem listed_of_same (store after : Store) (listed : Listed store)
    (order : after.order = store.order) (items : ∀ r, after.items r ≠ none → store.items r ≠ none) :
    Listed after := by
  intro r present
  rw [order]
  exact listed r (items r present)

theorem listed_update (store : Store) (listed : Listed store) (relpath : String)
    (change : Row → Row) : Listed (store.updateRow relpath change) := by
  apply listed_of_same store (store.updateRow relpath change) listed rfl
  intro r present
  rw [Store.items_update] at present
  split at present
  · simpa using present
  · exact present

theorem listed_insert (store : Store) (listed : Listed store) (relpath : String) (row : Row) :
    Listed (store.insertRow relpath row) := by
  intro r present
  show r ∈ store.order ++ [relpath]
  by_cases own : r = relpath
  · rw [own]
    exact List.mem_append_right _ (List.mem_singleton_self _)
  · simp only [Store.insertRow, own, if_false] at present
    exact List.mem_append_left _ (listed r present)

theorem listed_upsert (store : Store) (listed : Listed store) (relpath : String) (size : Nat)
    (mtimeMs now : Int) : Listed (store.upsertReady relpath size mtimeMs now) := by
  cases found : store.items relpath with
  | none =>
      simp only [Store.upsertReady, found]
      exact listed_insert store listed relpath _
  | some row =>
      simp only [Store.upsertReady, found]
      have updated := listed_update store listed relpath fun row =>
        Store.rediscovered row size mtimeMs now
      split
      · exact listed_of_same _ _ updated rfl fun r present => present
      · exact updated

theorem listed_claim (store : Store) (listed : Listed store) (limit : Nat) (now : Int) :
    Listed (store.claimReady limit now).2 := by
  apply listed_of_same store (store.claimReady limit now).2 listed rfl
  intro r present
  simp only [Store.claimReady] at present
  split at present
  · simpa using present
  · exact present

theorem listed_call (store : Store) (operation : StoreOp) (listed : Listed store) :
    Listed (callStore store operation).2 := by
  cases operation with
  | upsertReady relpath size mtimeMs now => exact listed_upsert store listed relpath size mtimeMs now
  | claimReady limit now => exact listed_claim store listed limit now
  | setState relpath state now => exact listed_update store listed relpath _
  | rollUpItem relpath state attempts gate error now => exact listed_update store listed relpath _
  | recordCleanupAttempt relpath error state gate now => exact listed_update store listed relpath _
  | setBytesDone relpath bytes now => exact listed_update store listed relpath _
  | _ => exact listed

theorem mem_select_iff (store : Store) (listed : Listed store) (wanted : WorkItem → Bool)
    (it : WorkItem) :
    it ∈ store.select wanted ↔ wanted it = true ∧
      ∃ row, store.items it.relpath = some row ∧ it = store.toItem it.relpath row := by
  constructor
  · exact store.mem_select wanted it
  · rintro ⟨hwanted, row, found, same⟩
    rw [Store.select, List.mem_insertionSort, List.mem_filter]
    refine ⟨List.mem_filterMap.mpr ⟨it.relpath, listed _ (by simp [found]), ?_⟩, hwanted⟩
    rw [found, Option.map_some, ← same]

theorem select_sorted (store : Store) (wanted : WorkItem → Bool) :
    (store.select wanted).Pairwise fun a b => a.discoveredAt ≤ b.discoveredAt := by
  have total : Std.Total fun a b : WorkItem => a.discoveredAt ≤ b.discoveredAt :=
    ⟨fun a b => Int.le_total _ _⟩
  have trans : IsTrans WorkItem fun a b => a.discoveredAt ≤ b.discoveredAt :=
    ⟨fun a b c => Int.le_trans⟩
  exact List.pairwise_insertionSort _ _

def eligible (later : Int) (it : WorkItem) : Bool :=
  it.state = .ready && it.nextAttemptAt ≤ later

/-- A claim leaves a row that it may take only for a full batch of rows discovered no later. -/
theorem claimed_or_full (store : Store) (limit : Nat) (later : Int) (it : WorkItem)
    (found : it ∈ store.select (eligible later)) :
    it ∈ store.claimed limit later ∨ ((store.claimed limit later).length = limit ∧
      ∀ other ∈ store.claimed limit later, other.discoveredAt ≤ it.discoveredAt) := by
  have sorted := select_sorted store (eligible later)
  rw [← List.take_append_drop limit (store.select (eligible later))] at found sorted
  rcases List.mem_append.mp found with taken | left
  · exact Or.inl taken
  · have some_left := List.length_pos_of_mem left
    rw [List.length_drop] at some_left
    refine Or.inr ⟨?_, fun other member => (List.pairwise_append.mp sorted).2.2 other member it left⟩
    show ((store.select (eligible later)).take limit).length = limit
    rw [List.length_take]
    omega

theorem did_store (kept : Store → Prop)
    (statement : ∀ store operation, kept store → kept (callStore store operation).2)
    (checkpoint : ∀ store relpath label left, kept store →
      kept (Store.setResume store relpath label left))
    (t : Running) (live : List Spec) (world : World) (operation : Op) (ret : Ret operation)
    (effect : Effect World Spec) (did : Did setup t live world operation ret effect)
    (holds : kept world.store) : kept effect.state.store := by
  cases did with
  | statement operation => exact statement _ operation holds
  | undelivered item label resume left error after stored =>
      rcases stored with rfl | ⟨bytes, _, rfl⟩
      · exact checkpoint _ _ _ _ holds
      · exact checkpoint _ _ _ _ holds
  | _ => exact holds

/-- What every statement and every checkpoint of a destination keeps, every step keeps. -/
theorem store_step (kept : Store → Prop)
    (statement : ∀ store operation, kept store → kept (callStore store operation).2)
    (checkpoint : ∀ store relpath label left, kept store →
      kept (Store.setResume store relpath label left))
    (c after : State) (choice : Step) (stepped : (engine setup).step c choice = some after)
    (holds : kept c.state.store) : kept after.state.store := by
  rcases step_cases (engine setup) c after choice stepped with
    ⟨t, operation, ret, effect, next, calls, rfl⟩ | ⟨id, _, _, rfl⟩ |
    ⟨event, reaction, _, reacted, rfl⟩
  · obtain ⟨answer, _, performed⟩ := calls.choice
    exact did_store setup kept statement checkpoint t _ _ operation ret effect
      (did_of_perform setup t _ _ operation answer ret effect performed) holds
  · exact holds
  · obtain ⟨store, _⟩ := react_base _ _ event reaction reacted
    show kept reaction.state.store
    rw [store]
    exact holds

theorem listed_step (c after : State) (choice : Step)
    (stepped : (engine setup).step c choice = some after) (listed : Listed c.state.store) :
    Listed after.state.store :=
  store_step setup Listed (fun store operation => listed_call store operation)
    (fun _ _ _ _ listed => listed) c after choice stepped listed

end FileReplicator.Rows
