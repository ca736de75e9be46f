import Mathlib.Algebra.Order.Group.Int
import Mathlib.Data.List.Chain
import Mathlib.Tactic.Linarith

/-!
# Spaced sequences

Elements that carry a value and a time, of which any two stand a step of the value or
an interval of time apart. The range of the values and the time that passes bound how
many there are.
-/

namespace FileReplicator.Spacing

variable {α : Type} (value clock : α → Int)

/-- The second is not below the first and not before it. -/
def Follows (a b : α) : Prop := value a ≤ value b ∧ clock a ≤ clock b

/-- The second is a step above the first, or an interval after it. -/
def Apart (step interval : Int) (a b : α) : Prop :=
  step ≤ value b - value a ∨ interval ≤ clock b - clock a

/-- The gaps behind an element are rises and waits, and no more of either than there is
room for. -/
theorem gaps_split (step interval top final : Int) (x : α) (rest : List α)
    (ordered : (x :: rest).Pairwise (Follows value clock))
    (apart : (x :: rest).IsChain (Apart value clock step interval))
    (below : ∀ a ∈ x :: rest, value a ≤ top ∧ clock a ≤ final) :
    ∃ rises waits : Nat, rest.length = rises + waits ∧
      rises * step ≤ top - value x ∧ waits * interval ≤ final - clock x := by
  induction rest generalizing x with
  | nil =>
      have room := below x List.mem_cons_self
      exact ⟨0, 0, rfl, by omega, by omega⟩
  | cons y rest ih =>
      obtain ⟨gap, apart⟩ := List.isChain_cons_cons.mp apart
      obtain ⟨follows, ordered⟩ := List.pairwise_cons.mp ordered
      obtain ⟨above, after⟩ := follows y List.mem_cons_self
      obtain ⟨rises, waits, count, values, times⟩ :=
        ih y ordered apart fun a member => below a (List.mem_cons_of_mem x member)
      rcases gap with rise | wait
      · refine ⟨rises + 1, waits, ?_, ?_, by omega⟩
        · rw [List.length_cons, count]
          omega
        · push_cast
          linarith
      · refine ⟨rises, waits + 1, ?_, by omega, ?_⟩
        · rw [List.length_cons, count]
          omega
        · push_cast
          linarith

/-- At most one more than the steps of the range and the intervals of the time. -/
theorem length_le (step interval range start final : Int) (step_pos : 0 < step)
    (interval_pos : 0 < interval) (range_nonneg : 0 ≤ range) (passes : start ≤ final) (l : List α)
    (ordered : l.Pairwise (Follows value clock))
    (apart : l.IsChain (Apart value clock step interval))
    (inside : ∀ a ∈ l, 0 ≤ value a ∧ value a ≤ range ∧ start ≤ clock a ∧ clock a ≤ final) :
    (l.length : Int) ≤ range / step + (final - start) / interval + 1 := by
  cases l with
  | nil =>
      have steps := Int.ediv_nonneg range_nonneg step_pos.le
      have intervals := Int.ediv_nonneg (Int.sub_nonneg.mpr passes) interval_pos.le
      rw [List.length_nil]
      omega
  | cons x rest =>
      obtain ⟨rises, waits, count, values, times⟩ := gaps_split value clock step interval range final
        x rest ordered apart fun a member => ⟨(inside a member).2.1, (inside a member).2.2.2⟩
      obtain ⟨nonneg, _, since, _⟩ := inside x List.mem_cons_self
      have steps : (rises : Int) ≤ range / step :=
        (Int.le_ediv_iff_mul_le step_pos).mpr (by omega)
      have intervals : (waits : Int) ≤ (final - start) / interval :=
        (Int.le_ediv_iff_mul_le interval_pos).mpr (by omega)
      rw [List.length_cons, count]
      push_cast
      omega

end FileReplicator.Spacing
