import Mathlib.Data.Rat.Cast.Order
import Mathlib.Tactic.FieldSimp
import Mathlib.Tactic.Linarith
import FileReplicator.DurationText

/-!
# Lenient numbers

The numbers of a configuration may arrive as doubles. An integer of the field's
range is taken as it is, however it is written; whatever else is a number is taken
too, as some other number.
-/

namespace FileReplicator.LenientNumbers

open DurationText Retry

/-! ## Casts of doubles -/

def truncated (mantissa : Nat) (exponent : Int) : Nat :=
  (scaled mantissa 1 (-exponent)).1 / (scaled mantissa 1 (-exponent)).2

/-- `as u64`, which stops at the ends of the range. -/
def castU64 : Float64 → Nat
  | .finite true _ _ | .infinite true | .nan => 0
  | .infinite false => maxU64
  | .finite false mantissa exponent => min (truncated mantissa exponent) maxU64

/-- `as i64`. -/
def castI64 : Float64 → Int
  | .nan => 0
  | .infinite true => minI64
  | .infinite false => maxI64
  | .finite true mantissa exponent => max minI64 (-(truncated mantissa exponent : Int))
  | .finite false mantissa exponent => min (truncated mantissa exponent : Int) maxI64

def doubleValue : Float64 → ℚ
  | .finite true mantissa exponent => -(mantissa * (2 : ℚ) ^ exponent)
  | .finite false mantissa exponent => mantissa * (2 : ℚ) ^ exponent
  | _ => 0

theorem magnitude_nonneg (mantissa : Nat) (exponent : Int) :
    (0 : ℚ) ≤ mantissa * (2 : ℚ) ^ exponent :=
  mul_nonneg (Nat.cast_nonneg mantissa) (zpow_nonneg (by norm_num) exponent)

theorem truncated_of_whole (mantissa k : Nat) (exponent : Int)
    (whole : (mantissa : ℚ) * (2 : ℚ) ^ exponent = k) : truncated mantissa exponent = k := by
  unfold truncated scaled
  -- the exponent divides by a power of two, or multiplies with one
  by_cases down : 0 ≤ -exponent
  · rw [if_pos down]
    obtain ⟨e, he⟩ := Int.eq_ofNat_of_zero_le down
    have hpos : (0 : ℚ) < 2 ^ e := by positivity
    rw [show exponent = -(e : Int) by omega, zpow_neg, zpow_natCast, ← div_eq_mul_inv,
      div_eq_iff hpos.ne'] at whole
    have hmul : mantissa = k * 2 ^ e := by exact_mod_cast whole
    rw [he, Int.toNat_natCast, hmul, one_mul]
    exact Nat.mul_div_cancel k (by positivity)
  · rw [if_neg down]
    obtain ⟨e, he⟩ := Int.eq_ofNat_of_zero_le (show 0 ≤ exponent by omega)
    rw [he, zpow_natCast] at whole
    rw [he, neg_neg, Int.toNat_natCast, Nat.div_one]
    exact_mod_cast whole

theorem cast_u64_of_whole (x : Float64) (k : Nat) (fits : k < 2 ^ 64) (finite : x.isFinite = true)
    (whole : doubleValue x = k) : castU64 x = k := by
  cases x with
  | finite negative mantissa exponent =>
      cases negative with
      | true =>
          -- a value that is not negative is zero here
          have nonneg := magnitude_nonneg mantissa exponent
          have low : (0 : ℚ) ≤ k := Nat.cast_nonneg k
          rw [doubleValue] at whole
          have zero : (k : ℚ) = 0 := by linarith
          have none : k = 0 := by exact_mod_cast zero
          rw [none]
          rfl
      | false =>
          rw [castU64, truncated_of_whole mantissa k exponent whole]
          exact Nat.min_eq_left (by unfold maxU64; omega)
  | infinite negative => cases finite
  | nan => cases finite

theorem cast_i64_of_whole (x : Float64) (z : Int) (low : minI64 ≤ z) (high : z ≤ maxI64)
    (finite : x.isFinite = true) (whole : doubleValue x = z) : castI64 x = z := by
  cases x with
  | finite negative mantissa exponent =>
      have nonneg := magnitude_nonneg mantissa exponent
      cases negative with
      | true =>
          rw [doubleValue] at whole
          have sign : (z : ℚ) ≤ 0 := by linarith
          have upper : z ≤ 0 := by exact_mod_cast sign
          obtain ⟨k, hk⟩ := Int.eq_ofNat_of_zero_le (show 0 ≤ -z by omega)
          have same : z = -(k : Int) := by omega
          subst same
          have magnitude : (mantissa : ℚ) * (2 : ℚ) ^ exponent = k := by
            push_cast at whole
            linarith
          rw [castI64, truncated_of_whole mantissa k exponent magnitude]
          exact max_eq_right low
      | false =>
          rw [doubleValue] at whole
          have sign : (0 : ℚ) ≤ z := by linarith
          have lower : 0 ≤ z := by exact_mod_cast sign
          obtain ⟨k, rfl⟩ := Int.eq_ofNat_of_zero_le lower
          rw [castI64, truncated_of_whole mantissa k exponent (by exact_mod_cast whole)]
          exact min_eq_left high
  | infinite negative => cases finite
  | nan => cases finite

/-! ## Values -/

inductive Number where
  | posInt (n : Nat) (fits : n < 2 ^ 64)
  | negInt (n : Nat) (fits : 0 < n ∧ n ≤ 2 ^ 63)
  | float (x : Float64) (finite : x.isFinite = true)

namespace Number

def value : Number → ℚ
  | posInt n _ => n
  | negInt n _ => -(n : ℚ)
  | float x _ => doubleValue x

def asU64 : Number → Option Nat
  | posInt n _ => some n
  | _ => none

def asI64 : Number → Option Int
  | posInt n _ => if n < 2 ^ 63 then some n else none
  | negInt n _ => some (-n)
  | float _ _ => none

def asF64 : Number → Option Float64
  | posInt n _ => some (nearest false n 1)
  | negInt n _ => some (nearest true n 1)
  | float x _ => some x

end Number

inductive Value where
  | null
  | number (n : Number)
  | other (text : String)

def Value.notANumber : Value → String
  | .other text => "expected a number, got " ++ text
  | _ => "expected a number, got null"

/-! ## The deserializers -/

/-- The integer view of a number, or else its cast. -/
def readU64 (n : Number) : Option Nat := n.asU64.or (n.asF64.map castU64)

def lenientU64 : Value → Except String Nat
  | .number n =>
      match readU64 n with
      | some v => .ok v
      | none => .error "expected a non-negative integer"
  | value => .error value.notANumber

def lenientOptU64 : Value → Except String (Option Nat)
  | .null => .ok none
  | .number n =>
      match readU64 n with
      | some v => .ok (some v)
      | none => .error "expected a non-negative integer"
  | value => .error value.notANumber

/-- `as` to an unsigned type of `bits` bits. -/
def narrow (bits : Nat) (out : Except String (Option Nat)) : Except String (Option Nat) :=
  out.map fun value => value.map fun n => n % 2 ^ bits

def lenientOptU32 (value : Value) : Except String (Option Nat) := narrow 32 (lenientOptU64 value)

def lenientOptU16 (value : Value) : Except String (Option Nat) := narrow 16 (lenientOptU64 value)

/-- A `usize` has the bits of a pointer. -/
def lenientOptUsize (pointerBits : Nat) (value : Value) : Except String (Option Nat) :=
  narrow pointerBits (lenientOptU64 value)

def readI64 (n : Number) : Option Int := n.asI64.or (n.asF64.map castI64)

def asI32 (n : Int) : Int := n.bmod (2 ^ 32)

def lenientI32 : Value → Except String Int
  | .number n =>
      match (readI64 n).map asI32 with
      | some v => .ok v
      | none => .error "expected an integer"
  | value => .error value.notANumber

inductive Field where
  | u64
  | optU64
  | optU32
  | optU16
  | optUsize (pointerBits : Nat) (fits : pointerBits ≤ 64)
  | i32

namespace Field

def InRange : Field → Int → Prop
  | u64, z | optU64, z => 0 ≤ z ∧ z < 2 ^ 64
  | optU32, z => 0 ≤ z ∧ z < 2 ^ 32
  | optU16, z => 0 ≤ z ∧ z < 2 ^ 16
  | optUsize pointerBits _, z => 0 ≤ z ∧ z < 2 ^ pointerBits
  | i32, z => -2 ^ 31 ≤ z ∧ z < 2 ^ 31

def accept (n : Number) : Field → Option Int
  | u64 => (lenientU64 (.number n)).toOption.map Int.ofNat
  | optU64 => (lenientOptU64 (.number n)).toOption.join.map Int.ofNat
  | optU32 => (lenientOptU32 (.number n)).toOption.join.map Int.ofNat
  | optU16 => (lenientOptU16 (.number n)).toOption.join.map Int.ofNat
  | optUsize pointerBits _ => (lenientOptUsize pointerBits (.number n)).toOption.join.map Int.ofNat
  | i32 => (lenientI32 (.number n)).toOption

end Field

/-- An integer of the range is taken as it is, and no other number is taken. -/
def Exact (field : Field) (n : Number) : Prop :=
  ((field.accept n).isSome ↔ ∃ z : Int, n.value = z ∧ field.InRange z) ∧
    ∀ z : Int, field.accept n = some z → n.value = z

theorem read_u64 (n : Number) : ∃ v, readU64 n = some v ∧
    ∀ k : Nat, k < 2 ^ 64 → n.value = k → v = k := by
  cases n with
  | posInt n fits =>
      refine ⟨n, rfl, fun k _ whole => ?_⟩
      rw [Number.value] at whole
      exact_mod_cast whole
  | negInt n fits =>
      refine ⟨_, rfl, fun k _ whole => ?_⟩
      rw [Number.value] at whole
      have positive : (0 : ℚ) < n := by exact_mod_cast fits.1
      have nonneg : (0 : ℚ) ≤ k := Nat.cast_nonneg k
      exact absurd whole (by linarith)
  | float x finite =>
      exact ⟨_, rfl, fun k small whole => cast_u64_of_whole x k small finite whole⟩

theorem read_i64 (n : Number) : ∃ v, readI64 n = some v ∧
    ∀ z : Int, minI64 ≤ z → z ≤ maxI64 → n.value = z → v = z := by
  cases n with
  | posInt n fits =>
      by_cases small : n < 2 ^ 63
      · refine ⟨n, by rw [readI64, Number.asI64, if_pos small]; rfl, fun z _ _ whole => ?_⟩
        rw [Number.value] at whole
        exact_mod_cast whole
      · -- it is read as a double, but no integer of the range has this value
        refine ⟨_, by rw [readI64, Number.asI64, if_neg small]; rfl, fun z _ high whole => ?_⟩
        rw [Number.value] at whole
        have same : (n : Int) = z := by exact_mod_cast whole
        exact absurd high (by unfold maxI64; omega)
  | negInt n fits =>
      refine ⟨-n, rfl, fun z _ _ whole => ?_⟩
      rw [Number.value] at whole
      exact_mod_cast whole
  | float x finite =>
      exact ⟨_, rfl, fun z low high whole => cast_i64_of_whole x z low high finite whole⟩

theorem accept_spec (field : Field) (n : Number) : ∃ v, field.accept n = some v ∧
    ∀ z : Int, n.value = z → field.InRange z → v = z := by
  obtain ⟨u, readU, exactU⟩ := read_u64 n
  have plain : ∀ z : Int, n.value = z → 0 ≤ z → z < 2 ^ 64 → (u : Int) = z := by
    intro z whole low high
    obtain ⟨k, rfl⟩ := Int.eq_ofNat_of_zero_le low
    exact_mod_cast exactU k (by exact_mod_cast high) (by exact_mod_cast whole)
  -- what a narrower field keeps of it
  have kept : ∀ bits : Nat, bits ≤ 64 → ∀ z : Int, n.value = z → 0 ≤ z → z < 2 ^ bits →
      ((u % 2 ^ bits : Nat) : Int) = z := by
    intro bits small z whole low high
    have wide : (2 : Int) ^ bits ≤ 2 ^ 64 := pow_le_pow_right₀ (by decide) small
    have same := plain z whole low (high.trans_le wide)
    subst same
    exact_mod_cast Nat.mod_eq_of_lt (by exact_mod_cast high)
  have narrowed : ∀ bits : Nat,
      (narrow bits (lenientOptU64 (.number n))).toOption.join = some (u % 2 ^ bits) := by
    intro bits
    simp [narrow, lenientOptU64, readU, Except.map, Except.toOption]
  cases field with
  | u64 =>
      refine ⟨u, ?_, fun z whole inside => plain z whole inside.1 inside.2⟩
      simp [Field.accept, lenientU64, readU, Except.toOption]
  | optU64 =>
      refine ⟨u, ?_, fun z whole inside => plain z whole inside.1 inside.2⟩
      simp [Field.accept, lenientOptU64, readU, Except.toOption]
  | optU32 =>
      exact ⟨_, congrArg (Option.map Int.ofNat) (narrowed 32),
        fun z whole inside => kept 32 (by decide) z whole inside.1 inside.2⟩
  | optU16 =>
      exact ⟨_, congrArg (Option.map Int.ofNat) (narrowed 16),
        fun z whole inside => kept 16 (by decide) z whole inside.1 inside.2⟩
  | optUsize pointerBits fits =>
      exact ⟨_, congrArg (Option.map Int.ofNat) (narrowed pointerBits),
        fun z whole inside => kept pointerBits fits z whole inside.1 inside.2⟩
  | i32 =>
      obtain ⟨i, readI, exactI⟩ := read_i64 n
      refine ⟨asI32 i, by simp [Field.accept, lenientI32, readI, Except.toOption], ?_⟩
      intro z whole inside
      obtain ⟨low, high⟩ := inside
      -- what fits into 32 bits does not wrap
      rw [exactI z (by unfold minI64; omega) (by unfold maxI64; omega) whole]
      exact Int.bmod_eq_of_le (by omega) (by omega)

/-- A number that is no integer of the range is taken all the same. -/
theorem exact_iff_in_range (field : Field) (n : Number) :
    Exact field n ↔ ∃ z : Int, n.value = z ∧ field.InRange z := by
  obtain ⟨v, taken, itself⟩ := accept_spec field n
  constructor
  · intro asked
    exact asked.1.mp (by rw [taken]; rfl)
  · rintro ⟨z, whole, inside⟩
    refine ⟨⟨fun _ => ⟨z, whole, inside⟩, fun _ => by rw [taken]; rfl⟩, ?_⟩
    intro w accepted
    rw [taken, Option.some.injEq] at accepted
    rw [whole, ← accepted, itself z whole inside]

/-- A port of 65537 becomes 1. -/
theorem port_wraps : ¬ ∀ (field : Field) (n : Number), Exact field n := by
  intro all
  have port := (all .optU16 (.posInt 65537 (by decide))).2 1 (by decide)
  norm_num [Number.value] at port

end FileReplicator.LenientNumbers
