import Mathlib.Logic.Function.Iterate
import FileReplicator.DurationText

/-!
# Counters in a table

A column of `INTEGER` affinity holds an `i64`. A sum that leaves the range is made a
`REAL`, which is not read as a number any more.
-/

namespace FileReplicator.Columns

open Domain Retry DurationText

/-- The double nearest to a whole number, the even one of two. -/
def nearestWhole (value : Int) : Int :=
  let unit := 2 ^ (value.natAbs.log2 - 52)
  value.sign * (halfEven value.natAbs unit * unit : Nat)

/-- A sum of whole numbers is whole, as a `REAL` too. -/
inductive Column where
  | integer (value : Int64)
  | real (value : Int)
  deriving DecidableEq

namespace Column

/-- A `REAL` is stored as an integer where it is one. -/
def ofReal (value : Int) : Column :=
  if minI64 < value ∧ value < maxI64 then .integer (Int64.ofInt value) else .real value

/-- `column + ?`. -/
def add (delta : Int64) : Column → Column
  | .integer value =>
      let sum := value.toInt + delta.toInt
      if minI64 ≤ sum ∧ sum ≤ maxI64 then .integer (Int64.ofInt sum)
      else ofReal (nearestWhole (nearestWhole value.toInt + nearestWhole delta.toInt))
  | .real value =>
      -- a double with nothing added to it is itself
      if delta = 0 then .real value
      else ofReal (nearestWhole (value + nearestWhole delta.toInt))

/-- `r.get::<_, i64>(index)?.max(0) as u64`. -/
def read (index name : String) : Column → Except ReplError Nat
  | .integer value => .ok value.toInt.toNat
  | .real _ => .error (.state ("Invalid column type Real at index: " ++ index ++ ", name: " ++ name))

/-! ## Sums that fit -/

theorem add_zero (column : Column) : column.add 0 = column := by
  cases column with
  | integer value =>
      have low := value.le_toInt
      have high := value.toInt_lt
      have same : value.toInt + Int64.toInt 0 = value.toInt := Int.add_zero _
      simp only [add, same, minI64, maxI64]
      rw [if_pos ⟨by omega, by omega⟩, Int64.ofInt_toInt]
  | real value => rfl

theorem add_to_zero (delta : Int64) : (integer 0).add delta = integer delta := by
  have low := delta.le_toInt
  have high := delta.toInt_lt
  have same : Int64.toInt 0 + delta.toInt = delta.toInt := Int.zero_add _
  simp only [add, same, minI64, maxI64]
  rw [if_pos ⟨by omega, by omega⟩, Int64.ofInt_toInt]

def Shows (column : Column) (n : Nat) : Prop := ∃ value, column = .integer value ∧ value.toInt = n

theorem shows_zero : (integer 0).Shows 0 := ⟨0, rfl, rfl⟩

theorem read_of_shows {column : Column} {n : Nat} (shows : column.Shows n) (index name : String) :
    column.read index name = .ok n := by
  obtain ⟨value, rfl, same⟩ := shows
  rw [read, same, Int.toNat_natCast]

theorem to_int_of_small (delta : Int64) (small : delta.toUInt64.toNat < 2 ^ 63) :
    delta.toInt = delta.toUInt64.toNat := by
  have bits : delta.toInt = delta.toBitVec.toInt := rfl
  have same : delta.toUInt64.toNat = delta.toBitVec.toNat := rfl
  rw [bits, BitVec.toInt_eq_toNat_cond, same, if_pos (by omega)]

theorem shows_add {column : Column} {n : Nat} (shows : column.Shows n) (delta : Int64)
    (room : n + delta.toUInt64.toNat < 2 ^ 63) :
    (column.add delta).Shows (n + delta.toUInt64.toNat) := by
  obtain ⟨value, rfl, same⟩ := shows
  have whole := to_int_of_small delta (by omega)
  refine ⟨Int64.ofInt (n + delta.toUInt64.toNat : Nat), ?_,
    Int64.toInt_ofInt_of_le (by omega) (by omega)⟩
  simp only [add, same, whole, minI64, maxI64]
  rw [if_pos ⟨by omega, by omega⟩]
  rfl

/-- What was in the column when it began, and what has been added since. -/
def Grew (before column : Column) (sum : Nat) : Prop :=
  ∀ n, before.Shows n → n + sum < 2 ^ 63 → column.Shows (n + sum)

theorem grew_refl (column : Column) : Grew column column 0 := fun _ shows _ => shows

theorem grew_add {before column : Column} {sum : Nat} (grew : Grew before column sum)
    (delta : Int64) : Grew before (column.add delta) (sum + delta.toUInt64.toNat) := by
  intro n shows room
  rw [← Nat.add_assoc] at room ⊢
  exact shows_add (grew n shows (by omega)) delta room

theorem grew_iterate (column : Column) (count : Nat) : Grew column ((add 1)^[count] column) count := by
  induction count with
  | zero => exact grew_refl column
  | succ count ih =>
      rw [Function.iterate_succ_apply']
      exact grew_add ih 1

end Column

end FileReplicator.Columns
