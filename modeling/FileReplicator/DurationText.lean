import FileReplicator.Retry

/-!
# Human durations

A duration is read as a binary64 number with a unit, multiplied out and rounded
to milliseconds; every step rounds as the machine does.
-/

namespace FileReplicator.DurationText

open Retry

/-! ## Binary64 numbers -/

/-- An `f64`: a sign and a magnitude `mantissa * 2 ^ exponent`, or one of the values apart. -/
inductive Float64 where
  | finite (negative : Bool) (mantissa : Nat) (exponent : Int)
  | infinite (negative : Bool)
  | nan
  deriving DecidableEq

/-- The integer nearest `numerator / denominator`, the even one of two. -/
def halfEven (numerator denominator : Nat) : Nat :=
  let quotient := numerator / denominator
  let rest := 2 * (numerator % denominator)
  if rest < denominator ∨ (rest = denominator ∧ quotient % 2 = 0) then quotient else quotient + 1

/-- `numerator / denominator * 2 ^ -exponent` as a fraction. -/
def scaled (numerator denominator : Nat) (exponent : Int) : Nat × Nat :=
  if 0 ≤ exponent then (numerator, denominator * 2 ^ exponent.toNat)
  else (numerator * 2 ^ (-exponent).toNat, denominator)

/-- The unit in the last place of `numerator / denominator`: 53 bits, down to the subnormal ones. -/
def unitOf (numerator denominator : Nat) : Int :=
  let estimate : Int := numerator.log2 - denominator.log2
  let shifted := scaled numerator denominator estimate
  let top := if shifted.2 ≤ shifted.1 then estimate else estimate - 1
  max (top - 52) (-1074)

/-- Rounding to nearest, ties to even; what is too large becomes infinite. -/
def nearest (negative : Bool) (numerator denominator : Nat) : Float64 :=
  let exponent := unitOf numerator denominator
  let shifted := scaled numerator denominator exponent
  let mantissa := halfEven shifted.1 shifted.2
  let size := scaled mantissa 1 (-exponent)
  if 2 ^ 1024 * size.2 ≤ size.1 then .infinite negative else .finite negative mantissa exponent

namespace Float64

def mulNat (factor : Nat) : Float64 → Float64
  | .finite negative mantissa exponent =>
      let product := scaled (mantissa * factor) 1 (-exponent)
      nearest negative product.1 product.2
  | x => x

/-- `round() as u64`: halves away from zero, saturating. -/
def roundAsU64 : Float64 → Nat
  | .finite true _ _ | .infinite true | .nan => 0
  | .infinite false => maxU64
  | .finite false mantissa exponent =>
      let size := scaled mantissa 1 (-exponent)
      min ((2 * size.1 + size.2) / (2 * size.2)) maxU64

/-- `v < 0.0`. -/
def isNegative : Float64 → Bool
  | .finite negative mantissa _ => negative && mantissa ≠ 0
  | .infinite negative => negative
  | .nan => false

def isFinite : Float64 → Bool
  | .finite _ _ _ => true
  | _ => false

end Float64

theorem round_as_u64_le (x : Float64) : x.roundAsU64 ≤ maxU64 := by
  cases x with
  | finite negative mantissa exponent =>
      cases negative with
      | true => exact Nat.zero_le _
      | false => exact Nat.min_le_right _ _
  | infinite negative =>
      cases negative with
      | true => exact Nat.zero_le _
      | false => exact Nat.le_refl _
  | nan => exact Nat.zero_le _

/-! ## Decimal text -/

def digitsValue (digits : List Char) : Nat :=
  digits.foldl (fun value c => 10 * value + (c.toNat - '0'.toNat)) 0

def signed : List Char → Bool × List Char
  | '-' :: rest => (true, rest)
  | '+' :: rest => (false, rest)
  | text => (false, text)

/-- The exponent behind an `e`, or none at all. -/
def exponentOf : List Char → Option Int
  | [] => some 0
  | 'e' :: rest =>
      let (negative, digits) := signed rest
      if digits ≠ [] ∧ digits.all Char.isDigit then
        some (if negative then -(digitsValue digits : Int) else digitsValue digits)
      else none
  | _ => none

/-- The fraction behind a dot, and what follows it. -/
def fractionOf : List Char → List Char × List Char
  | '.' :: rest => (rest.takeWhile Char.isDigit, rest.dropWhile Char.isDigit)
  | text => ([], text)

/-- Digits with at most one dot among them, and an exponent. -/
def parseNumber (negative : Bool) (text : List Char) : Option Float64 :=
  let whole := text.takeWhile Char.isDigit
  let (fraction, rest) := fractionOf (text.dropWhile Char.isDigit)
  if whole = [] ∧ fraction = [] then none
  else
    (exponentOf rest).map fun exponent =>
      let shift : Int := exponent - fraction.length
      let digits := digitsValue (whole ++ fraction)
      if 0 ≤ shift then nearest negative (digits * 10 ^ shift.toNat) 1
      else nearest negative digits (10 ^ (-shift).toNat)

/-- `str::parse::<f64>`, of a text in lower case. -/
def parseF64 (text : List Char) : Option Float64 :=
  let (negative, body) := signed text
  if body = "inf".toList ∨ body = "infinity".toList then some (.infinite negative)
  else if body = "nan".toList then some .nan
  else parseNumber negative body

def isWhitespace (c : Char) : Bool :=
  let n := c.toNat
  (9 ≤ n && n ≤ 13) || n = 0x20 || n = 0x85 || n = 0xA0 || n = 0x1680 ||
    (0x2000 ≤ n && n ≤ 0x200A) || n = 0x2028 || n = 0x2029 || n = 0x202F || n = 0x205F || n = 0x3000

def trim (text : List Char) : List Char :=
  ((text.dropWhile isWhitespace).reverse.dropWhile isWhitespace).reverse

/-- The number and the milliseconds of its unit; `ms` is tried before the single letters. -/
def splitUnit (text : List Char) : List Char × Nat :=
  match text.reverse with
  | 's' :: 'm' :: rest => (rest.reverse, 1)
  | 's' :: rest => (rest.reverse, 1000)
  | 'm' :: rest => (rest.reverse, 60000)
  | 'h' :: rest => (rest.reverse, 3600000)
  | 'd' :: rest => (rest.reverse, 86400000)
  | _ => (text, 1)

def parseDurationMs (input : String) : Option Nat :=
  let text := (trim input.toList).map Char.toLower
  if text = [] then none
  else
    let (number, unit) := splitUnit text
    match parseF64 (trim number) with
    | none => none
    | some v => if v.isNegative || !v.isFinite then none else some (v.mulNat unit).roundAsU64

theorem parse_duration_le (input : String) (ms : Nat) (parsed : parseDurationMs input = some ms) :
    ms ≤ maxU64 := by
  simp only [parseDurationMs] at parsed
  split at parsed
  · cases parsed
  · split at parsed
    · cases parsed
    · split at parsed
      · cases parsed
      · cases parsed
        exact round_as_u64_le _

example : parseDurationMs "7d" = some 604800000 := by decide +kernel

example : parseDurationMs " 1.5H " = some 5400000 := by decide +kernel

example : parseDurationMs "-5s" = none := by decide +kernel

end FileReplicator.DurationText
