import Mathlib.Data.List.AList

/-!
# Tables

A finite map from keys to values, as an association list without a repeated key.
What is added here to the library's operations is the sweep that keeps some keys,
and the values of a table.
-/

namespace FileReplicator.Tables

abbrev Table (κ υ : Type) := AList fun _ : κ => υ

variable {κ υ : Type} [DecidableEq κ]

def retain (keep : κ → Bool) (table : Table κ υ) : Table κ υ :=
  ⟨table.entries.filter fun e => keep e.1, table.nodupKeys.sublist List.filter_sublist⟩

def values (table : Table κ υ) : List υ := table.entries.map Sigma.snd

theorem lookup_eq_some (table : Table κ υ) (key : κ) (value : υ) :
    table.lookup key = some value ↔ ⟨key, value⟩ ∈ table.entries := AList.mem_lookup_iff

theorem lookup_retain (keep : κ → Bool) (table : Table κ υ) (key : κ) :
    (retain keep table).lookup key = if keep key then table.lookup key else none := by
  have entries : ∀ value : υ, (retain keep table).lookup key = some value ↔
      table.lookup key = some value ∧ keep key := by
    intro value
    rw [lookup_eq_some, lookup_eq_some]
    exact List.mem_filter
  by_cases kept : keep key
  · rw [if_pos kept]
    refine Option.ext fun value => ?_
    simpa [kept] using entries value
  · rw [if_neg kept]
    refine Option.eq_none_iff_forall_ne_some.mpr fun value held => ?_
    exact kept ((entries value).mp held).2

theorem mem_values (table : Table κ υ) (value : υ) :
    value ∈ values table ↔ ∃ key, table.lookup key = some value := by
  simp only [values, List.mem_map, lookup_eq_some]
  constructor
  · rintro ⟨⟨key, _⟩, member, rfl⟩
    exact ⟨key, member⟩
  · rintro ⟨key, member⟩
    exact ⟨⟨key, value⟩, member, rfl⟩

theorem lookup_insert (table : Table κ υ) (key other : κ) (value : υ) :
    (table.insert other value).lookup key = if key = other then some value else table.lookup key := by
  by_cases same : key = other
  · subst same
    rw [if_pos rfl, AList.lookup_insert]
  · rw [if_neg same, AList.lookup_insert_ne same]

theorem lookup_erase (table : Table κ υ) (key other : κ) :
    (table.erase other).lookup key = if key = other then none else table.lookup key := by
  by_cases same : key = other
  · subst same
    rw [if_pos rfl, AList.lookup_erase]
  · rw [if_neg same, AList.lookup_erase_ne same]

end FileReplicator.Tables
