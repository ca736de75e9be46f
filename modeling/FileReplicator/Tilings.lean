import Mathlib.Algebra.Order.Floor.Div

/-!
# Tilings of an interval

Spans of numbers that cut an interval into pieces, one after the other. Strides
of one length, the last one shorter, cut every interval so.
-/

namespace FileReplicator.Tilings

/-- The numbers from `start` on, `length` of them. -/
structure Span where
  start : Nat
  length : Nat
  deriving DecidableEq, Repr

def Span.stop (s : Span) : Nat := s.start + s.length

def Span.Holds (s : Span) (i : Nat) : Prop := s.start ≤ i ∧ i < s.stop

/-- Spans that are not empty, each from where the one before stops, from `first` to `last`. -/
def Tiles : Nat → Nat → List Span → Prop
  | first, last, [] => first = last
  | first, last, s :: rest => s.start = first ∧ 0 < s.length ∧ Tiles s.stop last rest

theorem tiles_le (first last : Nat) (spans : List Span) (tiles : Tiles first last spans) :
    first ≤ last := by
  induction spans generalizing first with
  | nil => exact le_of_eq tiles
  | cons s rest ih =>
      obtain ⟨rfl, _, later⟩ := tiles
      exact le_trans (Nat.le_add_right _ _) (ih _ later)

theorem tiles_positive (first last : Nat) (spans : List Span) (tiles : Tiles first last spans) :
    ∀ s ∈ spans, 0 < s.length := by
  induction spans generalizing first with
  | nil => simp
  | cons s rest ih =>
      obtain ⟨_, positive, later⟩ := tiles
      exact List.forall_mem_cons.mpr ⟨positive, ih _ later⟩

theorem tiles_after (first last : Nat) (spans : List Span) (tiles : Tiles first last spans) :
    ∀ s ∈ spans, first ≤ s.start := by
  induction spans generalizing first with
  | nil => simp
  | cons s rest ih =>
      obtain ⟨rfl, _, later⟩ := tiles
      refine List.forall_mem_cons.mpr ⟨le_rfl, fun other member => ?_⟩
      exact le_trans (Nat.le_add_right _ _) (ih _ later other member)

theorem tiles_disjoint (first last : Nat) (spans : List Span) (tiles : Tiles first last spans) :
    spans.Pairwise fun earlier later => earlier.stop ≤ later.start := by
  induction spans generalizing first with
  | nil => exact List.Pairwise.nil
  | cons s rest ih =>
      obtain ⟨_, _, later⟩ := tiles
      exact List.Pairwise.cons (tiles_after _ _ _ later) (ih _ later)

theorem tiles_cover (first last : Nat) (spans : List Span) (tiles : Tiles first last spans) (i : Nat) :
    (∃ s ∈ spans, s.Holds i) ↔ first ≤ i ∧ i < last := by
  induction spans generalizing first with
  | nil =>
      have same : first = last := tiles
      simp only [List.not_mem_nil, false_and, exists_false, false_iff]
      omega
  | cons s rest ih =>
      obtain ⟨rfl, _, later⟩ := tiles
      have inside := tiles_le _ _ _ later
      have rest_holds := ih _ later
      simp only [Span.Holds, Span.stop, List.exists_mem_cons_iff] at inside rest_holds ⊢
      rw [rest_holds]
      omega

/-! ## Strides -/

/-- `count` spans of one length, cut off at `last`. -/
def strides (chunk last : Nat) : Nat → Nat → List Span
  | 0, _ => []
  | count + 1, first => ⟨first, min chunk (last - first)⟩ :: strides chunk last count (first + chunk)

theorem strides_eq_map (chunk last count first : Nat) :
    strides chunk last count first = (List.range count).map fun index =>
      ⟨first + index * chunk, min chunk (last - (first + index * chunk))⟩ := by
  induction count generalizing first with
  | zero => rfl
  | succ count ih =>
      rw [strides, ih, List.range_succ_eq_map, List.map_cons, List.map_map]
      simp only [Nat.zero_mul, Nat.add_zero, List.cons.injEq, true_and]
      refine List.map_congr_left fun index _ => ?_
      have moved : first + chunk + index * chunk = first + (index + 1) * chunk := by
        rw [Nat.succ_mul]
        omega
      simp only [Function.comp_apply, moved, Nat.succ_eq_add_one]

/-- So many strides reach over a gap, and one less do not. -/
def Counted (chunk gap count : Nat) : Prop := gap ≤ count * chunk ∧ count * chunk < gap + chunk

theorem counted_succ (chunk gap count : Nat) (counted : Counted chunk (gap + chunk) (count + 1)) :
    Counted chunk gap count := by
  unfold Counted at *
  rw [Nat.succ_mul] at counted
  omega

theorem tiles_strides (chunk last count first : Nat) (inside : first ≤ last)
    (counted : Counted chunk (last - first) count) :
    Tiles first last (strides chunk last count first) := by
  induction count generalizing first with
  | zero =>
      have same : first = last := by
        have reach := counted.1
        omega
      exact same
  | succ count ih =>
      have positive : 0 < chunk := by
        have short := counted.2
        have reach := counted.1
        omega
      have more : count * chunk < last - first := by
        have short := counted.2
        rw [Nat.succ_mul] at short
        omega
      refine ⟨rfl, ?_, ?_⟩
      · show 0 < min chunk (last - first)
        omega
      · show Tiles (first + min chunk (last - first)) last (strides chunk last count (first + chunk))
        rcases Nat.eq_zero_or_pos count with rfl | started
        · have reach := counted.1
          rw [Nat.zero_add, Nat.one_mul] at reach
          rw [Nat.min_eq_right reach]
          show first + (last - first) = last
          omega
        · have whole : chunk ≤ count * chunk := Nat.le_mul_of_pos_left chunk started
          rw [Nat.min_eq_left (by omega)]
          refine ih (first + chunk) (by omega) (counted_succ chunk _ count ?_)
          rw [show last - (first + chunk) + chunk = last - first by omega]
          exact counted

theorem strides_length_le (chunk last count first : Nat) :
    ∀ s ∈ strides chunk last count first, s.length ≤ chunk := by
  rw [strides_eq_map]
  intro s member
  obtain ⟨index, _, rfl⟩ := List.mem_map.mp member
  exact Nat.min_le_left _ _

theorem strides_full (chunk last count first : Nat) (counted : Counted chunk (last - first) count) :
    ∀ s ∈ (strides chunk last count first).dropLast, s.length = chunk := by
  intro s member
  cases count with
  | zero => cases member
  | succ count =>
      rw [strides_eq_map, List.range_succ, List.map_append, List.map_singleton,
        List.dropLast_concat] at member
      obtain ⟨index, before, rfl⟩ := List.mem_map.mp member
      have short := counted.2
      have step := Nat.mul_le_mul_right chunk (Nat.succ_le_of_lt (List.mem_range.mp before))
      rw [Nat.succ_mul] at short step
      show min chunk (last - (first + index * chunk)) = chunk
      omega

theorem strides_start_dvd (align chunk last count first : Nat) (whole : align ∣ chunk)
    (aligned : align ∣ first) : ∀ s ∈ strides chunk last count first, align ∣ s.start := by
  rw [strides_eq_map]
  intro s member
  obtain ⟨index, _, rfl⟩ := List.mem_map.mp member
  exact Nat.dvd_add aligned (Nat.dvd_trans whole (Nat.dvd_mul_left _ _))

end FileReplicator.Tilings
