import Mathlib.Algebra.Order.Field.Basic
import Mathlib.Algebra.Order.Floor.Semifield
import Mathlib.Data.Rat.Floor
import Mathlib.Tactic.Positivity
import Mathlib.Tactic.Ring
import FileReplicator.LenientNumbers

/-!
# Binary64 rounding

Rounding to nearest keeps the order of what it rounds and leaves alone what a double
can hold. Products and quotients of doubles are the exact ones rounded, so they keep
the order too.
-/

namespace FileReplicator.Rounding

open DurationText LenientNumbers Retry

/-- A whole number nearest to `x`, the even one of two. -/
structure RoundsTo (x : ℚ) (whole : Nat) : Prop where
  low : x ≤ whole + 1 / 2
  high : (whole : ℚ) ≤ x + 1 / 2
  even_low : x = whole + 1 / 2 → whole % 2 = 0
  even_high : (whole : ℚ) = x + 1 / 2 → whole % 2 = 0

theorem RoundsTo.mono {x y : ℚ} {a b : Nat} (left : RoundsTo x a) (right : RoundsTo y b)
    (order : x ≤ y) : a ≤ b := by
  by_contra greater
  have next : (b : ℚ) + 1 ≤ a := by exact_mod_cast (by omega : b + 1 ≤ a)
  have hlow := right.low
  have hhigh := left.high
  -- only two ties could be that close, and then one of the two numbers is odd
  have even_a := left.even_high (by linarith)
  have even_b := right.even_low (by linarith)
  have same : a = b + 1 := by exact_mod_cast (by linarith : (a : ℚ) = b + 1)
  omega

theorem RoundsTo.whole (k : Nat) : RoundsTo k k where
  low := by linarith
  high := by linarith
  even_low := fun same => absurd same (by linarith)
  even_high := fun same => absurd same (by linarith)

theorem RoundsTo.unique {x : ℚ} {a b : Nat} (left : RoundsTo x a) (right : RoundsTo x b) : a = b :=
  Nat.le_antisymm (left.mono right (le_refl x)) (right.mono left (le_refl x))

theorem half_even_rounds (numerator denominator : Nat) (positive : 0 < denominator) :
    RoundsTo (numerator / denominator) (halfEven numerator denominator) := by
  have hpos : (0 : ℚ) < denominator := by exact_mod_cast positive
  have rest := Nat.mod_lt numerator positive
  have split : (numerator : ℚ) / denominator =
      (numerator / denominator : Nat) + ((numerator % denominator : Nat) : ℚ) / denominator := by
    rw [div_eq_iff hpos.ne', add_mul, div_mul_cancel₀ _ hpos.ne', mul_comm]
    exact_mod_cast (Nat.div_add_mod numerator denominator).symm
  unfold halfEven
  generalize numerator / denominator = quotient at split ⊢
  generalize numerator % denominator = remainder at rest split ⊢
  have hrest : (0 : ℚ) ≤ (remainder : ℚ) / denominator := by positivity
  have hless : (remainder : ℚ) / denominator < 1 := by
    rw [div_lt_one hpos]
    exact_mod_cast rest
  have half : (remainder : ℚ) / denominator = (2 * remainder : Nat) / denominator / 2 := by
    push_cast
    ring
  rw [split]
  -- the comparison of the remainder with half the denominator, and its tie
  by_cases down : 2 * remainder < denominator ∨ 2 * remainder = denominator ∧ quotient % 2 = 0
  · rw [if_pos down]
    have low : (remainder : ℚ) / denominator ≤ 1 / 2 := by
      rw [half, div_le_div_iff_of_pos_right two_pos, div_le_one hpos]
      exact_mod_cast (by omega : 2 * remainder ≤ denominator)
    refine ⟨by linarith, by linarith, fun tie => ?_, fun tie => absurd tie (by linarith)⟩
    have equal : (2 * remainder : Nat) / (denominator : ℚ) = 1 := by linarith
    rw [div_eq_one_iff_eq hpos.ne'] at equal
    have exact : 2 * remainder = denominator := by exact_mod_cast equal
    omega
  · rw [if_neg down]
    have high : 1 / 2 ≤ (remainder : ℚ) / denominator := by
      rw [half, div_le_div_iff_of_pos_right two_pos, one_le_div hpos]
      exact_mod_cast (by omega : denominator ≤ 2 * remainder)
    have next : ((quotient + 1 : Nat) : ℚ) = quotient + 1 := Nat.cast_succ quotient
    refine ⟨by linarith, by linarith, fun tie => absurd tie (by linarith), fun tie => ?_⟩
    have equal : (2 * remainder : Nat) / (denominator : ℚ) = 1 := by linarith
    rw [div_eq_one_iff_eq hpos.ne'] at equal
    have exact : 2 * remainder = denominator := by exact_mod_cast equal
    omega

/-! ## Fractions and units -/

def ratio (fraction : Nat × Nat) : ℚ := fraction.1 / fraction.2

theorem scaled_ratio (numerator denominator : Nat) (exponent : Int) :
    ratio (scaled numerator denominator exponent) =
      (numerator : ℚ) / denominator * (2 : ℚ) ^ (-exponent) := by
  unfold scaled ratio
  by_cases up : 0 ≤ exponent
  · rw [if_pos up]
    obtain ⟨e, rfl⟩ := Int.eq_ofNat_of_zero_le up
    rw [zpow_neg, Int.toNat_natCast, zpow_natCast]
    push_cast
    rw [div_mul_eq_div_div, div_eq_mul_inv _ ((2 : ℚ) ^ e)]
  · rw [if_neg up]
    obtain ⟨e, he⟩ := Int.eq_ofNat_of_zero_le (show 0 ≤ -exponent by omega)
    rw [he, Int.toNat_natCast, zpow_natCast]
    push_cast
    ring

theorem scaled_positive (numerator denominator : Nat) (exponent : Int) (positive : 0 < denominator) :
    0 < (scaled numerator denominator exponent).2 := by
  unfold scaled
  split
  · exact Nat.mul_pos positive (Nat.two_pow_pos _)
  · exact positive

theorem ratio_le_iff (fraction : Nat × Nat) (k : Nat) (positive : 0 < fraction.2) :
    k * fraction.2 ≤ fraction.1 ↔ (k : ℚ) ≤ ratio fraction := by
  have hpos : (0 : ℚ) < fraction.2 := by exact_mod_cast positive
  rw [ratio, le_div_iff₀ hpos]
  exact_mod_cast Iff.rfl

theorem power_pos (exponent : Int) : (0 : ℚ) < 2 ^ exponent := zpow_pos two_pos exponent

theorem power_add (a b : Int) : (2 : ℚ) ^ (a + b) = 2 ^ a * 2 ^ b :=
  zpow_add₀ two_ne_zero a b

theorem power_le {a b : Int} (order : a ≤ b) : (2 : ℚ) ^ a ≤ 2 ^ b :=
  zpow_le_zpow_right₀ one_le_two order

theorem power_lt_iff {a b : Int} : (2 : ℚ) ^ a < 2 ^ b ↔ a < b :=
  zpow_lt_zpow_iff_right₀ one_lt_two

theorem power_cast (k : Nat) : ((2 ^ k : Nat) : ℚ) = 2 ^ (k : Int) := by
  rw [Nat.cast_pow, Nat.cast_ofNat, zpow_natCast]

theorem cast_le_power {n k : Nat} (bound : n ≤ 2 ^ k) : (n : ℚ) ≤ 2 ^ (k : Int) := by
  rw [← power_cast]
  exact_mod_cast bound

theorem log_bounds (n : Nat) (positive : 0 < n) :
    (2 : ℚ) ^ (n.log2 : Int) ≤ n ∧ (n : ℚ) < 2 ^ ((n.log2 : Int) + 1) := by
  have low := Nat.log2_self_le (Nat.pos_iff_ne_zero.mp positive)
  have high := Nat.lt_log2_self (n := n)
  constructor
  · rw [← power_cast]
    exact_mod_cast low
  · rw [← Nat.cast_succ, ← power_cast]
    exact_mod_cast high

/-- The unit is that of the power of two below the fraction, or the least there is. -/
theorem unit_spec (numerator denominator : Nat) (some : 0 < numerator) (positive : 0 < denominator) :
    ∃ top : Int, (2 : ℚ) ^ top ≤ (numerator : ℚ) / denominator ∧
      (numerator : ℚ) / denominator < 2 ^ (top + 1) ∧
      unitOf numerator denominator = max (top - 52) (-1074) := by
  have hpos : (0 : ℚ) < denominator := by exact_mod_cast positive
  obtain ⟨above_low, above_high⟩ := log_bounds numerator some
  obtain ⟨below_low, below_high⟩ := log_bounds denominator positive
  unfold unitOf
  generalize hestimate : ((numerator.log2 : Int) - denominator.log2) = estimate
  have upper : (numerator : ℚ) / denominator < 2 ^ (estimate + 1) := by
    rw [div_lt_iff₀ hpos]
    calc (numerator : ℚ) < 2 ^ ((numerator.log2 : Int) + 1) := above_high
      _ = 2 ^ (estimate + 1) * 2 ^ (denominator.log2 : Int) := by
          rw [← power_add]
          congr 1
          omega
      _ ≤ 2 ^ (estimate + 1) * denominator :=
          mul_le_mul_of_nonneg_left below_low (power_pos _).le
  have lower : (2 : ℚ) ^ (estimate - 1) ≤ (numerator : ℚ) / denominator := by
    rw [le_div_iff₀ hpos]
    calc (2 : ℚ) ^ (estimate - 1) * denominator
        ≤ 2 ^ (estimate - 1) * 2 ^ ((denominator.log2 : Int) + 1) :=
          mul_le_mul_of_nonneg_left below_high.le (power_pos _).le
      _ = 2 ^ (numerator.log2 : Int) := by
          rw [← power_add]
          congr 1
          omega
      _ ≤ numerator := above_low
  -- the lengths leave two candidates, and the comparison with one decides
  have test : (scaled numerator denominator estimate).2 ≤ (scaled numerator denominator estimate).1 ↔
      (2 : ℚ) ^ estimate ≤ (numerator : ℚ) / denominator := by
    have hone := ratio_le_iff _ 1 (scaled_positive numerator denominator estimate positive)
    rw [Nat.one_mul, Nat.cast_one, scaled_ratio, zpow_neg, ← div_eq_mul_inv,
      one_le_div (power_pos estimate)] at hone
    exact hone
  by_cases above : (2 : ℚ) ^ estimate ≤ (numerator : ℚ) / denominator
  · refine ⟨estimate, above, upper, ?_⟩
    simp only [if_pos (test.mpr above)]
  · refine ⟨estimate - 1, lower, ?_, ?_⟩
    · rw [show estimate - 1 + 1 = estimate by omega]
      exact not_le.mp above
    · simp only [if_neg (mt test.mp above)]

/-! ## Nearest doubles -/

/-- What the fraction's mantissa is a multiple of, and rounded to. -/
def mantissa (numerator denominator : Nat) : Nat :=
  halfEven (scaled numerator denominator (unitOf numerator denominator)).1
    (scaled numerator denominator (unitOf numerator denominator)).2

theorem mantissa_rounds (numerator denominator : Nat) (positive : 0 < denominator) :
    RoundsTo ((numerator : ℚ) / denominator * 2 ^ (-unitOf numerator denominator))
      (mantissa numerator denominator) := by
  rw [← scaled_ratio]
  exact half_even_rounds _ _ (scaled_positive _ _ _ positive)

theorem mantissa_zero (denominator : Nat) (positive : 0 < denominator) :
    mantissa 0 denominator = 0 := by
  have rounds := mantissa_rounds 0 denominator positive
  rw [Nat.cast_zero, zero_div, zero_mul] at rounds
  exact rounds.unique (RoundsTo.whole 0)

theorem mantissa_le (numerator denominator : Nat) (positive : 0 < denominator) :
    mantissa numerator denominator ≤ 2 ^ 53 := by
  rcases Nat.eq_zero_or_pos numerator with rfl | some
  · rw [mantissa_zero denominator positive]
    exact Nat.zero_le _
  obtain ⟨top, _, high, unit⟩ := unit_spec numerator denominator some positive
  refine (mantissa_rounds numerator denominator positive).mono (RoundsTo.whole (2 ^ 53)) ?_
  calc (numerator : ℚ) / denominator * 2 ^ (-unitOf numerator denominator)
      ≤ 2 ^ (top + 1) * 2 ^ (-unitOf numerator denominator) :=
        mul_le_mul_of_nonneg_right high.le (power_pos _).le
    _ = 2 ^ (top + 1 - unitOf numerator denominator) := by rw [← power_add, sub_eq_add_neg]
    _ ≤ 2 ^ (53 : Int) := power_le (by omega)
    _ = ((2 ^ 53 : Nat) : ℚ) := (power_cast 53).symm

theorem nearest_spec (negative : Bool) (numerator denominator : Nat) (positive : 0 < denominator)
    (small : (numerator : ℚ) / denominator ≤ 2 ^ (1000 : Int)) :
    nearest negative numerator denominator =
      .finite negative (mantissa numerator denominator) (unitOf numerator denominator) := by
  -- zero has a unit too, which says nothing about its size
  have unit : unitOf numerator denominator ≤ 948 ∨ mantissa numerator denominator = 0 := by
    rcases Nat.eq_zero_or_pos numerator with rfl | some
    · exact Or.inr (mantissa_zero denominator positive)
    obtain ⟨top, low, _, unit⟩ := unit_spec numerator denominator some positive
    have bound : top < 1001 :=
      power_lt_iff.mp (lt_of_le_of_lt (low.trans small) (power_lt_iff.mpr (by omega)))
    exact Or.inl (by omega)
  have finite : (mantissa numerator denominator : ℚ) * 2 ^ unitOf numerator denominator <
      ((2 ^ 1024 : Nat) : ℚ) := by
    rcases unit with unit | zero
    · calc (mantissa numerator denominator : ℚ) * 2 ^ unitOf numerator denominator
          ≤ 2 ^ (53 : Int) * 2 ^ (948 : Int) := by
            refine mul_le_mul ?_ (power_le unit) (power_pos _).le (power_pos _).le
            exact cast_le_power (mantissa_le numerator denominator positive)
        _ = 2 ^ ((53 : Int) + 948) := (power_add 53 948).symm
        _ < 2 ^ (1024 : Int) := power_lt_iff.mpr (by omega)
        _ = ((2 ^ 1024 : Nat) : ℚ) := (power_cast 1024).symm
    · rw [zero, Nat.cast_zero, zero_mul]
      positivity
  have test := ratio_le_iff (scaled (mantissa numerator denominator) 1
    (-unitOf numerator denominator)) (2 ^ 1024) (scaled_positive _ _ _ Nat.one_pos)
  rw [scaled_ratio, Nat.cast_one, div_one, neg_neg] at test
  unfold nearest
  exact if_neg (mt test.mp (not_le.mpr finite))

def rounded (numerator denominator : Nat) : ℚ :=
  mantissa numerator denominator * 2 ^ unitOf numerator denominator

theorem rounded_nonneg (numerator denominator : Nat) : 0 ≤ rounded numerator denominator :=
  mul_nonneg (Nat.cast_nonneg _) (power_pos _).le

theorem rounded_zero (denominator : Nat) (positive : 0 < denominator) :
    rounded 0 denominator = 0 := by
  rw [rounded, mantissa_zero denominator positive, Nat.cast_zero, zero_mul]

theorem rounded_mono {a b c d : Nat} (left : 0 < b) (right : 0 < d)
    (order : (a : ℚ) / b ≤ (c : ℚ) / d) : rounded a b ≤ rounded c d := by
  rcases Nat.eq_zero_or_pos a with rfl | some
  · rw [rounded_zero b left]
    exact rounded_nonneg c d
  have positive : (0 : ℚ) < (a : ℚ) / b := by positivity
  have other : 0 < c := by
    refine Nat.pos_of_ne_zero fun zero => ?_
    rw [zero, Nat.cast_zero, zero_div] at order
    exact absurd order (not_le.mpr positive)
  obtain ⟨below, low_below, high_below, unit_below⟩ := unit_spec a b some left
  obtain ⟨above, low_above, high_above, unit_above⟩ := unit_spec c d other right
  have tops : below < above + 1 := power_lt_iff.mp (lt_of_le_of_lt (low_below.trans order) high_above)
  have rounds_left := mantissa_rounds a b left
  have rounds_right := mantissa_rounds c d right
  rcases Int.lt_or_eq_of_le (show unitOf a b ≤ unitOf c d by omega) with coarser | same
  · -- in a coarser unit the larger one has 53 bits, which the smaller cannot exceed
    have least : 2 ^ 52 ≤ mantissa c d := by
      refine (RoundsTo.whole (2 ^ 52)).mono rounds_right ?_
      calc ((2 ^ 52 : Nat) : ℚ) = 2 ^ above * 2 ^ (-unitOf c d) := by
            rw [← power_add, show above + -unitOf c d = 52 by omega]
            norm_num
        _ ≤ (c : ℚ) / d * 2 ^ (-unitOf c d) :=
            mul_le_mul_of_nonneg_right low_above (power_pos _).le
    calc rounded a b ≤ 2 ^ (53 : Int) * 2 ^ unitOf a b := by
          refine mul_le_mul_of_nonneg_right ?_ (power_pos _).le
          exact cast_le_power (mantissa_le a b left)
      _ = 2 ^ (53 + unitOf a b) := (power_add _ _).symm
      _ ≤ 2 ^ (52 + unitOf c d) := power_le (by omega)
      _ = 2 ^ (52 : Int) * 2 ^ unitOf c d := power_add _ _
      _ ≤ rounded c d := by
          refine mul_le_mul_of_nonneg_right ?_ (power_pos _).le
          exact_mod_cast least
  · -- in one unit the mantissas compare
    have mantissas : mantissa a b ≤ mantissa c d := by
      refine rounds_left.mono rounds_right ?_
      rw [same]
      exact mul_le_mul_of_nonneg_right order (power_pos _).le
    rw [rounded, rounded, same]
    exact mul_le_mul_of_nonneg_right (by exact_mod_cast mantissas) (power_pos _).le

theorem rounded_exact (numerator denominator k : Nat) (exponent : Int) (positive : 0 < denominator)
    (bits : k < 2 ^ 53) (least : -1074 ≤ exponent)
    (same : (numerator : ℚ) / denominator = k * 2 ^ exponent) :
    rounded numerator denominator = k * 2 ^ exponent := by
  rcases Nat.eq_zero_or_pos numerator with rfl | some
  · rw [rounded_zero denominator positive, ← same, Nat.cast_zero, zero_div]
  obtain ⟨top, low, _, unit⟩ := unit_spec numerator denominator some positive
  have bound : top < 53 + exponent := by
    refine power_lt_iff.mp (lt_of_le_of_lt low ?_)
    rw [same, power_add]
    refine mul_lt_mul_of_pos_right ?_ (power_pos _)
    exact_mod_cast bits
  obtain ⟨shift, hshift⟩ := Int.eq_ofNat_of_zero_le
    (show 0 ≤ exponent - unitOf numerator denominator by omega)
  have power : (2 : ℚ) ^ exponent = 2 ^ shift * 2 ^ unitOf numerator denominator := by
    rw [← zpow_natCast, ← power_add, ← hshift]
    congr 1
    omega
  -- in the finer unit it is a whole number, so there is nothing to round
  have rounds := mantissa_rounds numerator denominator positive
  rw [same, power, mul_assoc, mul_assoc, ← power_add, Int.add_right_neg, zpow_zero, mul_one,
    show (k : ℚ) * 2 ^ shift = ((k * 2 ^ shift : Nat) : ℚ) by push_cast; rfl] at rounds
  rw [rounded, rounds.unique (RoundsTo.whole _), power]
  push_cast
  ring

/-- The double nearest to a number that is not negative, as a number. -/
def nearestValue (x : ℚ) : ℚ := rounded x.num.toNat x.den

theorem as_fraction (x : ℚ) (nonneg : 0 ≤ x) : (x.num.toNat : ℚ) / x.den = x := by
  have num : ((x.num.toNat : Int) : ℚ) = x.num := by
    rw [Int.toNat_of_nonneg (Rat.num_nonneg.mpr nonneg)]
  rw [← Int.cast_natCast, num, Rat.num_div_den]

theorem rounded_eq (numerator denominator : Nat) (positive : 0 < denominator) :
    rounded numerator denominator = nearestValue ((numerator : ℚ) / denominator) := by
  have same := as_fraction ((numerator : ℚ) / denominator) (by positivity)
  exact le_antisymm (rounded_mono positive (Rat.den_pos _) same.ge)
    (rounded_mono (Rat.den_pos _) positive same.le)

theorem nearest_value_nonneg (x : ℚ) : 0 ≤ nearestValue x := rounded_nonneg _ _

theorem nearest_value_mono {x y : ℚ} (nonneg : 0 ≤ x) (order : x ≤ y) :
    nearestValue x ≤ nearestValue y := by
  refine rounded_mono (Rat.den_pos x) (Rat.den_pos y) ?_
  rw [as_fraction x nonneg, as_fraction y (nonneg.trans order)]
  exact order

theorem nearest_value_exact (k : Nat) (exponent : Int) (bits : k < 2 ^ 53)
    (least : -1074 ≤ exponent) : nearestValue (k * 2 ^ exponent) = k * 2 ^ exponent :=
  rounded_exact _ _ k exponent (Rat.den_pos _) bits least
    (as_fraction _ (mul_nonneg (Nat.cast_nonneg k) (power_pos exponent).le))

theorem nearest_value_close (x : ℚ) (nonneg : 0 ≤ x) :
    |nearestValue x - x| ≤ x * 2 ^ (-53 : Int) + 2 ^ (-1075 : Int) := by
  have fraction := as_fraction x nonneg
  have right : 0 ≤ x * 2 ^ (-53 : Int) := mul_nonneg nonneg (power_pos _).le
  rcases Nat.eq_zero_or_pos x.num.toNat with zero | some
  · rw [zero, Nat.cast_zero, zero_div] at fraction
    rw [nearestValue, zero, rounded_zero _ (Rat.den_pos x), ← fraction, sub_zero, abs_zero]
    exact add_nonneg (fraction ▸ right) (power_pos _).le
  obtain ⟨top, low, _, unit⟩ := unit_spec x.num.toNat x.den some (Rat.den_pos x)
  have rounds := mantissa_rounds x.num.toNat x.den (Rat.den_pos x)
  rw [fraction] at low rounds
  unfold nearestValue rounded
  generalize unitOf x.num.toNat x.den = u at unit rounds ⊢
  generalize mantissa x.num.toNat x.den = m at rounds ⊢
  have undone : x * 2 ^ (-u) * 2 ^ u = x := by
    rw [mul_assoc, ← power_add, neg_add_cancel, zpow_zero, mul_one]
  have half : 1 / 2 * (2 : ℚ) ^ u ≤ x * 2 ^ (-53 : Int) + 2 ^ (-1075 : Int) := by
    have halved : 1 / 2 * (2 : ℚ) ^ u = 2 ^ (u - 1) := by
      rw [show u - 1 = -1 + u by omega, power_add]
      norm_num
    rw [halved, unit]
    rcases le_total (top - 52) (-1074) with least | normal
    · rw [max_eq_right least]
      exact le_add_of_nonneg_left right
    · rw [max_eq_left normal]
      refine le_add_of_le_of_nonneg ?_ (power_pos _).le
      calc (2 : ℚ) ^ (top - 52 - 1) = 2 ^ top * 2 ^ (-53 : Int) := by
            rw [← power_add]
            congr 1
            omega
        _ ≤ x * 2 ^ (-53 : Int) := mul_le_mul_of_nonneg_right low (power_pos _).le
  have below := mul_le_mul_of_nonneg_right rounds.low (power_pos u).le
  have above := mul_le_mul_of_nonneg_right rounds.high (power_pos u).le
  rw [undone, add_mul] at below
  rw [add_mul, undone] at above
  generalize x * 2 ^ (-53 : Int) + 2 ^ (-1075 : Int) = bound at half ⊢
  rw [abs_le]
  constructor
  · linarith
  · linarith

theorem nearest_value_whole (k : Nat) (bits : k < 2 ^ 53) : nearestValue k = k := by
  have exact := nearest_value_exact k 0 bits (by omega)
  rwa [zpow_zero, mul_one] at exact

/-! ## Arithmetic -/

/-- The double is finite, not negative, and stands for `value`. -/
def Holds (x : Float64) (value : ℚ) : Prop :=
  ∃ mantissa exponent, x = .finite false mantissa exponent ∧ value = mantissa * 2 ^ exponent

theorem double_value_of_holds {x : Float64} {value : ℚ} (holds : Holds x value) :
    doubleValue x = value := by
  obtain ⟨mantissa, exponent, rfl, rfl⟩ := holds
  rfl

theorem nearest_holds (numerator denominator : Nat) (positive : 0 < denominator)
    (small : (numerator : ℚ) / denominator ≤ 2 ^ (1000 : Int)) :
    Holds (nearest false numerator denominator) (nearestValue ((numerator : ℚ) / denominator)) :=
  ⟨_, _, nearest_spec false numerator denominator positive small,
    (rounded_eq numerator denominator positive).symm⟩

/-- `n as f64`. -/
def asF64 (n : Nat) : Float64 := nearest false n 1

theorem as_f64_holds (n : Nat) (small : (n : ℚ) ≤ 2 ^ (1000 : Int)) :
    Holds (asF64 n) (nearestValue n) := by
  have holds := nearest_holds n 1 Nat.one_pos (by rwa [Nat.cast_one, div_one])
  rwa [Nat.cast_one, div_one] at holds

/-- `x / y`. -/
def div : Float64 → Float64 → Float64
  | .nan, _ | _, .nan => .nan
  | .infinite _, .infinite _ => .nan
  | .infinite left, .finite right _ _ => .infinite (left != right)
  | .finite left _ _, .infinite right => .finite (left != right) 0 0
  | .finite left a e, .finite right b f =>
      if b = 0 then (if a = 0 then .nan else .infinite (left != right))
      else nearest (left != right) (scaled a b (f - e)).1 (scaled a b (f - e)).2

theorem div_holds {x y : Float64} {v w : ℚ} (left : Holds x v) (right : Holds y w) (positive : 0 < w)
    (small : v / w ≤ 2 ^ (1000 : Int)) : Holds (div x y) (nearestValue (v / w)) := by
  obtain ⟨a, e, rfl, rfl⟩ := left
  obtain ⟨b, f, rfl, rfl⟩ := right
  have some : 0 < b := by
    refine Nat.pos_of_ne_zero fun zero => ?_
    rw [zero, Nat.cast_zero, zero_mul] at positive
    exact absurd positive (lt_irrefl 0)
  have fraction : ratio (scaled a b (f - e)) = a * 2 ^ e / (b * 2 ^ f) := by
    rw [scaled_ratio, show -(f - e) = e + -f by omega, power_add, zpow_neg, mul_div_mul_comm,
      div_eq_mul_inv (2 ^ e)]
  rw [← fraction] at small ⊢
  rw [div, if_neg some.ne']
  exact nearest_holds _ _ (scaled_positive a b _ some) small

theorem mul_nat_holds {x : Float64} {v : ℚ} (k : Nat) (holds : Holds x v)
    (small : v * k ≤ 2 ^ (1000 : Int)) : Holds (x.mulNat k) (nearestValue (v * k)) := by
  obtain ⟨m, e, rfl, rfl⟩ := holds
  have fraction : ratio (scaled (m * k) 1 (-e)) = m * 2 ^ e * k := by
    rw [scaled_ratio, neg_neg, Nat.cast_one, div_one]
    push_cast
    ring
  rw [← fraction] at small ⊢
  rw [Float64.mulNat]
  exact nearest_holds _ _ (scaled_positive _ 1 _ Nat.one_pos) small

/-- `round() as i32`: halves away from zero, saturating. -/
def roundAsI32 : Float64 → Int
  | .nan => 0
  | .infinite true => -2147483648
  | .infinite false => 2147483647
  | .finite negative mantissa exponent =>
      let size := scaled mantissa 1 (-exponent)
      let whole : Int := ((2 * size.1 + size.2) / (2 * size.2) : Nat)
      if negative then max (-2147483648) (-whole) else min whole 2147483647

theorem half_up_eq (m : Nat) (e : Int) :
    (2 * (scaled m 1 (-e)).1 + (scaled m 1 (-e)).2) / (2 * (scaled m 1 (-e)).2) =
      ⌊(m : ℚ) * 2 ^ e + 1 / 2⌋₊ := by
  have hpos : (0 : ℚ) < (scaled m 1 (-e)).2 := by exact_mod_cast scaled_positive m 1 (-e) Nat.one_pos
  have fraction := scaled_ratio m 1 (-e)
  rw [Nat.cast_one, div_one, neg_neg] at fraction
  have sum : (m : ℚ) * 2 ^ e + 1 / 2 =
      ((2 * (scaled m 1 (-e)).1 + (scaled m 1 (-e)).2 : Nat) : ℚ) /
        ((2 * (scaled m 1 (-e)).2 : Nat) : ℚ) := by
    rw [← fraction, ratio]
    push_cast
    field_simp
  rw [sum, Nat.floor_div_eq_div]

theorem round_as_i32_spec {x : Float64} {v : ℚ} (holds : Holds x v) :
    roundAsI32 x = min (⌊v + 1 / 2⌋₊ : Int) 2147483647 := by
  obtain ⟨m, e, rfl, rfl⟩ := holds
  rw [← half_up_eq]
  rfl

theorem round_as_u64_spec {x : Float64} {v : ℚ} (holds : Holds x v) :
    x.roundAsU64 = min ⌊v + 1 / 2⌋₊ maxU64 := by
  obtain ⟨m, e, rfl, rfl⟩ := holds
  rw [← half_up_eq]
  rfl

end FileReplicator.Rounding
