import FileReplicator.Rows
import FileReplicator.TickCalls

/-!
# The backlog of a drain

The rows that a claim may take, in the order of their discovery. A claim takes the
first of them and leaves the others; no statement that makes no row ready and
leaves the ready rows alone adds to them, takes from them or moves them.
-/

namespace FileReplicator.Backlog

open Domain DurableStore Operations Runs Rows TickCalls

section Sorting

variable {α : Type} (r : α → α → Prop) [DecidableRel r] [IsTrans α r]

theorem filter_ordered_insert (keep : α → Bool) (a : α) (l : List α) (sorted : l.Pairwise r) :
    (l.orderedInsert r a).filter keep =
      if keep a then (l.filter keep).orderedInsert r a else l.filter keep := by
  induction l with
  | nil =>
      rw [List.orderedInsert_nil]
      split <;> simp [*]
  | cons b rest ih =>
      obtain ⟨first, later⟩ := List.pairwise_cons.mp sorted
      by_cases before : r a b
      · rw [List.orderedInsert_cons_of_le r rest before]
        cases kept : keep a with
        | false => simp [kept]
        | true =>
            -- what is kept of the list comes after `a` as a whole
            have all : ∀ c ∈ (b :: rest).filter keep, r a c := by
              intro c member
              rcases List.mem_cons.mp (List.mem_filter.mp member).1 with rfl | behind
              · exact before
              · exact IsTrans.trans a b c before (first c behind)
            rw [List.filter_cons_of_pos kept, if_pos rfl]
            cases left : (b :: rest).filter keep with
            | nil => rfl
            | cons c tail =>
                rw [List.orderedInsert_cons_of_le r tail (all c (left ▸ List.mem_cons_self))]
      · rw [List.orderedInsert_of_not_le r rest before]
        cases kept : keep b with
        | false =>
            rw [List.filter_cons_of_neg (by simp [kept]), List.filter_cons_of_neg (by simp [kept])]
            exact ih later
        | true =>
            rw [List.filter_cons_of_pos kept, List.filter_cons_of_pos kept, ih later,
              List.orderedInsert_of_not_le r _ before]
            split <;> rfl

/-- Insertion keeps the order of equals, so that a filter may come first or last. -/
theorem filter_insertion_sort [Std.Total r] (keep : α → Bool) (l : List α) :
    (l.filter keep).insertionSort r = (l.insertionSort r).filter keep := by
  induction l with
  | nil => rfl
  | cons a rest ih =>
      rw [List.insertionSort_cons, filter_ordered_insert r keep a _ (List.pairwise_insertionSort r rest)]
      cases kept : keep a with
      | false =>
          rw [List.filter_cons_of_neg (by simp [kept]), ih]
          rfl
      | true => rw [List.filter_cons_of_pos kept, List.insertionSort_cons, ih, if_pos rfl]

end Sorting

theorem filter_drop {α : Type} (name : α → String) (l : List α) (n : Nat)
    (different : (l.map name).Nodup) :
    l.filter (fun a => name a ∉ (l.take n).map name) = l.drop n := by
  induction l generalizing n with
  | nil => simp
  | cons a rest ih =>
      rw [List.map_cons, List.nodup_cons] at different
      cases n with
      | zero => simp
      | succ n =>
          rw [List.take_succ_cons, List.drop_succ_cons, List.filter_cons_of_neg (by simp),
            ← ih n different.2]
          apply List.filter_congr
          intro b member
          have other : name b ≠ name a := by
            intro same
            exact different.1 (same ▸ List.mem_map_of_mem member)
          simp [other]

/-! ## The rows of a store -/

def rows (store : Store) : List WorkItem :=
  store.order.filterMap fun r => (store.items r).map (store.toItem r)

theorem select_eq (store : Store) (wanted : WorkItem → Bool) :
    store.select wanted =
      ((rows store).filter wanted).insertionSort fun a b => a.discoveredAt ≤ b.discoveredAt :=
  rfl

theorem select_congr (store after : Store) (wanted : WorkItem → Bool)
    (order : after.order = store.order)
    (same : ∀ r, ((after.items r).map (after.toItem r)).filter wanted =
      ((store.items r).map (store.toItem r)).filter wanted) :
    after.select wanted = store.select wanted := by
  have wantedRows : (rows after).filter wanted = (rows store).filter wanted := by
    simp only [rows, order, List.filter_filterMap]
    congr 1
    exact funext same
  rw [select_eq, select_eq, wantedRows]

def notReady (store : Store) (relpath : String) : Prop :=
  ∀ row, store.items relpath = some row → row.state ≠ .ready

/-- Whatever the time, the same rows may be claimed, and no row has become ready. -/
structure Steady (store after : Store) : Prop where
  rows : ∀ later, after.select (eligible later) = store.select (eligible later)
  ready : ∀ relpath, notReady store relpath → notReady after relpath

theorem steady_refl (store : Store) : Steady store store := ⟨fun _ => rfl, fun _ => id⟩

theorem steady_of_same (store after : Store) (order : after.order = store.order)
    (items : after.items = store.items) (same : after.instanceId = store.instanceId) :
    Steady store after := by
  constructor
  · intro later
    apply select_congr store after _ order
    intro r
    have named : after.toItem r = store.toItem r := by
      funext row
      simp only [Store.toItem, same]
    rw [items, named]
  · intro relpath was
    rwa [notReady, items]

theorem steady_update (store : Store) (relpath : String) (change : Row → Row)
    (was : notReady store relpath) (becomes : ∀ row, (change row).state ≠ .ready) :
    Steady store (store.updateRow relpath change) := by
  have items : ∀ r, (store.updateRow relpath change).items r =
      if r = relpath then (store.items r).map change else store.items r :=
    fun r => store.items_update relpath r change
  constructor
  · intro later
    apply select_congr store (store.updateRow relpath change) _ rfl
    intro r
    rw [items]
    by_cases own : r = relpath
    · subst own
      rw [if_pos rfl]
      cases found : store.items r with
      | none => rfl
      | some row =>
          have before : eligible later (store.toItem r row) = false := by
            have state : (store.toItem r row).state ≠ .ready := was row found
            simp [eligible, state]
          have after : eligible later ((store.updateRow r change).toItem r (change row)) = false := by
            have state : ((store.updateRow r change).toItem r (change row)).state ≠ .ready := becomes row
            simp [eligible, state]
          simp [Option.filter, before, after]
    · rw [if_neg own]
      rfl
  · intro r before row found
    rw [items] at found
    split at found
    · obtain ⟨old, _, rfl⟩ := Option.map_eq_some_iff.mp found
      exact becomes old
    · exact before row found

/-- The row that a statement other than a claim puts into a state. -/
def puts : StoreOp → Option (String × ItemState)
  | .upsertReady relpath _ _ _ => some (relpath, .ready)
  | operation => newState operation

theorem steady_call (store : Store) (operation : StoreOp)
    (other : ∀ limit later, operation ≠ .claimReady limit later)
    (still : ∀ relpath bytes now, operation ≠ .setBytesDone relpath bytes now)
    (calm : ∀ relpath state, puts operation = some (relpath, state) →
      state ≠ .ready ∧ notReady store relpath) : Steady store (callStore store operation).2 := by
  cases operation with
  | upsertReady relpath size mtimeMs now => exact absurd rfl (calm relpath .ready rfl).1
  | claimReady limit later => exact absurd rfl (other limit later)
  | setBytesDone relpath bytes now => exact absurd rfl (still relpath bytes now)
  | setState relpath state now =>
      obtain ⟨leaves, was⟩ := calm relpath state rfl
      exact steady_update store relpath _ was fun _ => leaves
  | rollUpItem relpath state attempts gate error now =>
      obtain ⟨leaves, was⟩ := calm relpath state rfl
      exact steady_update store relpath _ was fun _ => leaves
  | recordCleanupAttempt relpath error state gate now =>
      obtain ⟨leaves, was⟩ := calm relpath state rfl
      exact steady_update store relpath _ was fun _ => leaves
  | _ => exact steady_of_same _ _ rfl rfl rfl

theorem claimed_relpaths (store : Store) (limit : Nat) (later : Int) :
    (store.claimReady limit later).1.map WorkItem.relpath =
      ((store.select (eligible later)).take limit).map WorkItem.relpath := by
  show (((store.claimed limit later).map fun it => { it with state := .inProgress, updatedAt := later
    }).map WorkItem.relpath) = _
  rw [List.map_map]
  rfl

/-- What a claim does not touch: which row it is, and when it was discovered. -/
def slip (it : WorkItem) : String × Int := (it.relpath, it.discoveredAt)

theorem claimed_slips (store : Store) (limit : Nat) (later : Int) :
    (store.claimReady limit later).1.map slip =
      ((store.select (eligible later)).take limit).map slip := by
  show (((store.claimed limit later).map fun it => { it with state := .inProgress, updatedAt := later
    }).map slip) = _
  rw [List.map_map]
  rfl

theorem items_claim (store : Store) (limit : Nat) (later : Int) (r : String) :
    (store.claimReady limit later).2.items r =
      if r ∈ ((store.select (eligible later)).take limit).map WorkItem.relpath then
        (store.items r).map fun row => { row with state := .inProgress, updatedAt := later }
      else store.items r :=
  rfl

theorem claimed_not_ready (store : Store) (limit : Nat) (later : Int) (r : String)
    (member : r ∈ (store.claimReady limit later).1.map WorkItem.relpath) :
    notReady (store.claimReady limit later).2 r := by
  intro row found
  rw [claimed_relpaths] at member
  rw [items_claim, if_pos member] at found
  obtain ⟨old, _, rfl⟩ := Option.map_eq_some_iff.mp found
  exact ItemState.noConfusion

theorem select_claim (store : Store) (keyed : Keyed store) (limit : Nat) (later : Int) :
    (store.claimReady limit later).2.select (eligible later) =
      (store.select (eligible later)).drop limit := by
  have total : Std.Total fun a b : WorkItem => a.discoveredAt ≤ b.discoveredAt :=
    ⟨fun a b => Int.le_total _ _⟩
  have trans : IsTrans WorkItem fun a b => a.discoveredAt ≤ b.discoveredAt :=
    ⟨fun a b c => Int.le_trans⟩
  obtain ⟨taken, named⟩ : ∃ taken, taken =
      ((store.select (eligible later)).take limit).map WorkItem.relpath := ⟨_, rfl⟩
  have left : (rows (store.claimReady limit later).2).filter (eligible later) =
      ((rows store).filter (eligible later)).filter fun it => it.relpath ∉ taken := by
    rw [List.filter_filter, rows, rows, List.filter_filterMap, List.filter_filterMap]
    apply List.filterMap_congr
    intro r _
    rw [items_claim, ← named]
    by_cases own : r ∈ taken
    · rw [if_pos own]
      cases store.items r with
      | none => rfl
      | some row => simp [Option.filter, eligible, Store.toItem, own]
    · rw [if_neg own]
      cases store.items r with
      | none => rfl
      | some row =>
          have same : (store.claimReady limit later).2.toItem r row = store.toItem r row := rfl
          have apart : (store.toItem r row).relpath ∉ taken := own
          simp [Option.filter, same, apart]
  rw [select_eq, left, filter_insertion_sort, ← select_eq, named]
  exact filter_drop WorkItem.relpath _ limit (select_nodup store keyed _)

end FileReplicator.Backlog
