import FileReplicator.ProgressEvents

/-!
# Percentages

The percentage of an item under way, with one decimal, as the machine computes it
from the bytes that are done: within its range, and never falling.
-/

namespace FileReplicator.Percentages

open Retry DurationText LenientNumbers Rounding ProgressEvents

/-- `f64::round`: halves away from zero. -/
def round : Float64 → Float64
  | .finite negative mantissa exponent =>
      let size := scaled mantissa 1 (-exponent)
      nearest negative ((2 * size.1 + size.2) / (2 * size.2)) 1
  | x => x

/-- `x > n`. -/
def above (n : Nat) : Float64 → Bool
  | .finite false mantissa exponent =>
      n * (scaled mantissa 1 (-exponent)).2 < (scaled mantissa 1 (-exponent)).1
  | .infinite false => true
  | _ => false

/-- `clamp(0.0, n)`. -/
def clamp (n : Nat) (x : Float64) : Float64 :=
  if x.isNegative then asF64 0 else if above n x then asF64 n else x

def percent (bytesDone size : Nat) : Float64 :=
  if size = 0 then (if bytesDone = 0 then asF64 0 else asF64 100)
  else
    let p := (div (asF64 bytesDone) (asF64 size)).mulNat 100
    clamp 100 (div (round (p.mulNat 10)) (asF64 10))

/-! ## What a percentage stands for -/

theorem cast_small (n : Nat) (bits : n ≤ 2 ^ 53) : (n : ℚ) ≤ 2 ^ (1000 : Int) :=
  (cast_le_power bits).trans (power_le (by omega))

theorem nearest_le_power (x : ℚ) (exponent : Int) (nonneg : 0 ≤ x) (le : x ≤ 2 ^ exponent)
    (least : -1074 ≤ exponent) : nearestValue x ≤ 2 ^ exponent := by
  rw [← nearest_power exponent least]
  exact nearest_value_mono nonneg le

theorem round_holds {x : Float64} {v : ℚ} (holds : Holds x v) (small : v + 1 / 2 ≤ 2 ^ (1000 : Int)) :
    Holds (round x) (nearestValue ⌊v + 1 / 2⌋₊) := by
  obtain ⟨m, e, rfl, rfl⟩ := holds
  have nonneg : 0 ≤ (m : ℚ) * 2 ^ e + 1 / 2 := by
    have magnitude := magnitude_nonneg m e
    linarith
  have least := (Nat.floor_le nonneg).trans small
  rw [← half_up_eq] at least ⊢
  exact as_f64_holds _ least

theorem clamp_holds {x : Float64} {v : ℚ} (n : Nat) (bits : n < 2 ^ 53) (holds : Holds x v) :
    Holds (clamp n x) (min v n) := by
  obtain ⟨m, e, rfl, rfl⟩ := holds
  have limit := cast_small n bits.le
  have order := ratio_le_iff (scaled m 1 (-e)) n (scaled_positive m 1 (-e) Nat.one_pos)
  have fraction := scaled_ratio m 1 (-e)
  rw [Nat.cast_one, div_one, neg_neg] at fraction
  rw [fraction] at order
  rw [clamp, if_neg (by simp [Float64.isNegative])]
  by_cases beyond : above n (.finite false m e) = true
  · rw [if_pos beyond]
    have larger := order.mp (Nat.le_of_lt (of_decide_eq_true beyond))
    rw [min_eq_right larger]
    have whole := as_f64_holds n limit
    rwa [nearest_value_whole n bits] at whole
  · rw [if_neg beyond]
    refine ⟨m, e, rfl, min_eq_left ?_⟩
    by_contra more
    have inside : ¬ n * (scaled m 1 (-e)).2 < (scaled m 1 (-e)).1 := fun lt => beyond (decide_eq_true lt)
    have equal : (scaled m 1 (-e)).1 = n * (scaled m 1 (-e)).2 :=
      Nat.le_antisymm (Nat.le_of_not_lt inside) (order.mpr (le_of_not_ge more))
    apply more
    have hpos : ((scaled m 1 (-e)).2 : ℚ) ≠ 0 := by
      exact_mod_cast (scaled_positive m 1 (-e) Nat.one_pos).ne'
    rw [← fraction, ratio, equal, Nat.cast_mul, mul_div_cancel_right₀ _ hpos]

/-- Tenths of a percent, each step rounded as the machine rounds it. -/
def tenths (done size : Nat) : ℚ :=
  nearestValue ⌊nearestValue (nearestValue (share done size * 100) * 10) + 1 / 2⌋₊

theorem percent_holds (done size : Nat) (size_pos : 0 < size) (done_fits : done ≤ maxU64)
    (size_fits : size ≤ maxU64) :
    Holds (percent done size) (min (nearestValue (tenths done size / 10)) 100) := by
  have least := one_le_nearest size size_pos
  have within : (2 : ℚ) ^ (64 : Int) ≤ 2 ^ (1000 : Int) := power_le (by omega)
  have quotient := share_le done size size_pos done_fits
  have divided : Holds (div (asF64 done) (asF64 size)) (share done size) :=
    div_holds (as_f64_holds done ((bytes_small done done_fits).trans within))
      (as_f64_holds size ((bytes_small size size_fits).trans within)) (by linarith)
      (quotient.trans within)
  have bounded : share done size ≤ 2 ^ (64 : Int) :=
    nearest_le_power _ 64 (div_nonneg (nearest_value_nonneg _) (by linarith)) quotient (by omega)
  have nonneg : 0 ≤ share done size := nearest_value_nonneg _
  have hundred : share done size * 100 ≤ 2 ^ (71 : Int) := by
    calc share done size * 100 ≤ 2 ^ (64 : Int) * 2 ^ (7 : Int) :=
          mul_le_mul bounded (by norm_num) (by norm_num) (power_pos _).le
      _ = 2 ^ (71 : Int) := (power_add 64 7).symm
  have product := mul_nat_holds 100 divided (hundred.trans (power_le (by omega)))
  have first := nearest_le_power _ 71 (mul_nonneg nonneg (by norm_num)) hundred (by omega)
  have ten : nearestValue (share done size * 100) * 10 ≤ 2 ^ (75 : Int) := by
    calc nearestValue (share done size * 100) * 10 ≤ 2 ^ (71 : Int) * 2 ^ (4 : Int) :=
          mul_le_mul first (by norm_num) (by norm_num) (power_pos _).le
      _ = 2 ^ (75 : Int) := (power_add 71 4).symm
  have tenfold := mul_nat_holds 10 product (ten.trans (power_le (by omega)))
  have second := nearest_le_power _ 75 (mul_nonneg (nearest_value_nonneg _) (by norm_num)) ten
    (by omega)
  have half : nearestValue (nearestValue (share done size * 100) * 10) + 1 / 2 ≤ 2 ^ (76 : Int) := by
    have twice : (2 : ℚ) ^ (76 : Int) = 2 ^ (75 : Int) * 2 ^ (1 : Int) := power_add 75 1
    have one : (1 : ℚ) ≤ 2 ^ (75 : Int) := by norm_num
    rw [twice, zpow_one]
    linarith
  have rounded := round_holds tenfold (half.trans (power_le (by omega)))
  have whole : ((⌊nearestValue (nearestValue (share done size * 100) * 10) + 1 / 2⌋₊ : Nat) : ℚ) ≤
      2 ^ (76 : Int) :=
    (Nat.floor_le (by have := nearest_value_nonneg (nearestValue (share done size * 100) * 10); linarith)).trans
      half
  have third := nearest_le_power _ 76 (Nat.cast_nonneg _) whole (by omega)
  have base := as_f64_holds 10 (cast_small 10 (by omega))
  rw [nearest_value_whole 10 (by omega)] at base
  have tenth : tenths done size / 10 ≤ 2 ^ (1000 : Int) := by
    have up : (2 : ℚ) ^ (76 : Int) ≤ 2 ^ (1000 : Int) := power_le (by omega)
    have low : 0 ≤ tenths done size := nearest_value_nonneg _
    have high : tenths done size ≤ 2 ^ (76 : Int) := third
    exact (div_le_self low (by norm_num)).trans (high.trans up)
  have final := clamp_holds 100 (by omega) (div_holds rounded base (by norm_num) tenth)
  rw [percent, if_neg size_pos.ne']
  exact final

theorem percent_range (done size : Nat) (done_fits : done ≤ maxU64) (size_fits : size ≤ maxU64) :
    0 ≤ doubleValue (percent done size) ∧ doubleValue (percent done size) ≤ 100 := by
  by_cases none : size = 0
  · subst none
    by_cases zero : done = 0
    · subst zero
      decide +kernel
    · rw [percent, if_pos rfl, if_neg zero]
      decide +kernel
  · rw [double_value_of_holds
      (percent_holds done size (Nat.pos_of_ne_zero none) done_fits size_fits)]
    exact ⟨le_min (nearest_value_nonneg _) (by norm_num), min_le_right _ _⟩

theorem percent_mono (a b size : Nat) (order : a ≤ b) (fits : b ≤ maxU64) (size_fits : size ≤ maxU64) :
    doubleValue (percent a size) ≤ doubleValue (percent b size) := by
  by_cases none : size = 0
  · subst none
    by_cases zero : b = 0
    · obtain rfl : a = b := by omega
      exact le_refl _
    · have top : percent b 0 = asF64 100 := by rw [percent, if_pos rfl, if_neg zero]
      have hundred : doubleValue (asF64 100) = 100 := by
        have holds := double_value_of_holds (as_f64_holds 100 (cast_small 100 (by omega)))
        rw [nearest_value_whole 100 (by omega)] at holds
        exact_mod_cast holds
      rw [top, hundred]
      exact (percent_range a 0 (order.trans fits) size_fits).2
  · have size_pos := Nat.pos_of_ne_zero none
    rw [double_value_of_holds (percent_holds a size size_pos (order.trans fits) size_fits),
      double_value_of_holds (percent_holds b size size_pos fits size_fits)]
    have shares := share_mono a b size size_pos order
    have nonneg : 0 ≤ share a size := nearest_value_nonneg _
    have products : nearestValue (share a size * 100) ≤ nearestValue (share b size * 100) :=
      nearest_value_mono (mul_nonneg nonneg (by norm_num)) (by linarith)
    have tens : nearestValue (nearestValue (share a size * 100) * 10) ≤
        nearestValue (nearestValue (share b size * 100) * 10) :=
      nearest_value_mono (mul_nonneg (nearest_value_nonneg _) (by norm_num)) (by linarith)
    have floors : tenths a size ≤ tenths b size :=
      nearest_value_mono (Nat.cast_nonneg _) (by exact_mod_cast Nat.floor_mono (by linarith))
    have low : 0 ≤ tenths a size := nearest_value_nonneg _
    exact min_le_min_right _ (nearest_value_mono (by linarith) (by linarith))

/-- The percentage is never out of its range, and does not fall while bytes are written. -/
theorem percent_steady (a b size : Nat) (order : a ≤ b) (fits : b ≤ maxU64)
    (size_fits : size ≤ maxU64) :
    0 ≤ doubleValue (percent a size) ∧ doubleValue (percent a size) ≤ doubleValue (percent b size) ∧
      doubleValue (percent b size) ≤ 100 :=
  ⟨(percent_range a size (order.trans fits) size_fits).1, percent_mono a b size order fits size_fits,
    (percent_range b size fits size_fits).2⟩

theorem percent_steady_third :
    0 ≤ doubleValue (percent 1 3) ∧ doubleValue (percent 1 3) ≤ doubleValue (percent 2 3) ∧
      doubleValue (percent 2 3) ≤ 100 :=
  percent_steady 1 2 3 (by omega) (by unfold maxU64; omega) (by unfold maxU64; omega)

/-- A thousandth that is missing is not seen. -/
example : percent 99999 100000 = percent 100000 100000 := by decide +kernel

end FileReplicator.Percentages
