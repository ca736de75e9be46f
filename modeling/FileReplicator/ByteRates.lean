import FileReplicator.Rounding
import FileReplicator.Sugar

/-!
# Byte rates

A bandwidth is written as a number with a unit, in bytes or in bits, in any case and
with white space around its parts. It is computed in doubles and means what it says.
-/

namespace FileReplicator.ByteRates

open Retry DurationText Rounding
open Sugar (stripSuffix)

/-- The text without the end that makes it a rate, and whether it counts bits. -/
def splitRate (lower : List Char) : List Char × Bool :=
  match stripSuffix ['b', 'p', 's'] lower with
  | some stripped => (stripped, true)
  | none =>
      match stripSuffix ['/', 's', 'e', 'c'] lower with
      | some stripped => (stripped, false)
      | none =>
          match stripSuffix ['/', 's'] lower with
          | some stripped => (stripped, false)
          | none => (lower, false)

def isNumeric (c : Char) : Bool := c.isDigit || c = '.'

def stripByte (unit : List Char) : List Char :=
  (((stripSuffix ['b', 'y', 't', 'e', 's'] unit).orElse fun _ =>
    stripSuffix ['b', 'y', 't', 'e'] unit).orElse fun _ => stripSuffix ['b'] unit).getD unit

def prefixMult : List Char → Option Nat
  | [] => some 1
  | ['k'] => some 1000
  | ['k', 'i'] => some 1024
  | ['m'] => some 1000000
  | ['m', 'i'] => some (1024 ^ 2)
  | ['g'] => some 1000000000
  | ['g', 'i'] => some (1024 ^ 3)
  | ['t'] => some 1000000000000
  | ['t', 'i'] => some (1024 ^ 4)
  | _ => none

/-- `parse_byte_rate`; `debug` is how a text is quoted in an error. -/
def parseByteRate (debug : String → String) (input : String) : Except String Nat :=
  let s := trim input.toList
  if s = [] then .error "empty byte-rate"
  else
    let (body, isBits) := splitRate (s.map Char.toLower)
    let body := trim body
    let numStr := trim (body.takeWhile isNumeric)
    if numStr = [] then .error ("no numeric value in byte-rate " ++ debug input)
    else
      match parseF64 numStr with
      | none => .error ("invalid number in byte-rate " ++ debug input)
      | some value =>
          if value.isNegative || !value.isFinite then
            .error ("byte-rate must be non-negative and finite: " ++ debug input)
          else
            let unit := trim (body.dropWhile isNumeric)
            let unit := if isBits then unit else stripByte unit
            match prefixMult unit with
            | none =>
                .error ("unknown byte-rate unit " ++ debug (String.ofList unit) ++ " in " ++ debug input)
            | some mult =>
                let bytesPerSec := value.mulNat mult
                .ok (if isBits then div bytesPerSec (asF64 8) else bytesPerSec).roundAsU64

/-! ## Rates as they are written -/

structure Decimal where
  whole : List Char
  fraction : Option (List Char)
  whole_digits : ∀ c ∈ whole, c.isDigit = true
  fraction_digits : ∀ c ∈ fraction.getD [], c.isDigit = true
  some_digit : whole ++ fraction.getD [] ≠ []

namespace Decimal

variable (d : Decimal)

def text : List Char := d.whole ++ d.fraction.elim [] fun f => '.' :: f

def digits : Nat := digitsValue (d.whole ++ d.fraction.getD [])

def places : Nat := (d.fraction.getD []).length

def value : ℚ := d.digits / (10 ^ d.places : Nat)

end Decimal

inductive Scale where
  | one | kilo | kibi | mega | mebi | giga | gibi | tera | tebi
  deriving DecidableEq

def Scale.text : Scale → List Char
  | .one => []
  | .kilo => ['k']
  | .kibi => ['k', 'i']
  | .mega => ['m']
  | .mebi => ['m', 'i']
  | .giga => ['g']
  | .gibi => ['g', 'i']
  | .tera => ['t']
  | .tebi => ['t', 'i']

def Scale.factor : Scale → Nat
  | .one => 1
  | .kilo => 1000
  | .kibi => 1024
  | .mega => 1000 ^ 2
  | .mebi => 1024 ^ 2
  | .giga => 1000 ^ 3
  | .gibi => 1024 ^ 3
  | .tera => 1000 ^ 4
  | .tebi => 1024 ^ 4

inductive Ending where
  | nothing | b | byte | bytes
  deriving DecidableEq

def Ending.text : Ending → List Char
  | .nothing => []
  | .b => ['b']
  | .byte => ['b', 'y', 't', 'e']
  | .bytes => ['b', 'y', 't', 'e', 's']

inductive Per where
  | nothing | s | sec
  deriving DecidableEq

def Per.text : Per → List Char
  | .nothing => []
  | .s => ['/', 's']
  | .sec => ['/', 's', 'e', 'c']

inductive Quantity where
  | bytes (scale : Scale) (ending : Ending) (per : Per)
  | bits (scale : Scale)

namespace Quantity

def scale : Quantity → Scale
  | bytes scale _ _ => scale
  | bits scale => scale

def isBits : Quantity → Bool
  | bytes _ _ _ => false
  | bits _ => true

def word : Quantity → List Char
  | bytes scale ending _ => scale.text ++ ending.text
  | bits scale => scale.text

def suffix : Quantity → List Char
  | bytes _ _ per => per.text
  | bits _ => ['b', 'p', 's']

def factor (q : Quantity) : ℚ := if q.isBits then q.scale.factor / 8 else q.scale.factor

end Quantity

def Blank (text : List Char) : Prop := ∀ c ∈ text, isWhitespace c = true

/-- The text is this number of this unit, whatever its case and its white space. -/
def Spelled (text : String) (amount : Decimal) (q : Quantity) : Prop :=
  ∃ front mid gap back, Blank front ∧ Blank mid ∧ Blank gap ∧ Blank back ∧
    text.toList.map Char.toLower = front ++ (amount.text ++ mid ++ q.word ++ gap ++ q.suffix) ++ back

/-! ## White space -/

structure Solid (text : List Char) : Prop where
  first : ∀ c, text.head? = some c → isWhitespace c = false
  last : ∀ c, text.getLast? = some c → isWhitespace c = false

theorem solid_of_all (text : List Char) (all : ∀ c ∈ text, isWhitespace c = false) : Solid text :=
  ⟨fun c is => all c (List.mem_of_head? is), fun c is => all c (List.mem_of_getLast? is)⟩

theorem drop_blank (text : List Char) (first : ∀ c, text.head? = some c → isWhitespace c = false) :
    text.dropWhile isWhitespace = text := by
  cases text with
  | nil => rfl
  | cons c rest => rw [List.dropWhile_cons_of_neg (by rw [first c rfl]; exact Bool.false_ne_true)]

theorem trim_solid (text : List Char) (solid : Solid text) : trim text = text := by
  unfold trim
  rw [drop_blank text solid.first, drop_blank text.reverse, List.reverse_reverse]
  intro c is
  rw [List.head?_reverse] at is
  exact solid.last c is

theorem trim_around (front text back : List Char) (before : Blank front) (after : Blank back) :
    trim (front ++ text ++ back) = trim text := by
  have reversed : Blank back.reverse := fun c member => after c (List.mem_reverse.mp member)
  unfold trim
  rw [List.append_assoc, List.dropWhile_append_of_pos before, List.dropWhile_append]
  split
  · rename_i none
    have nothing : text.dropWhile isWhitespace = [] := List.isEmpty_iff.mp none
    have gone : (back ++ []).dropWhile isWhitespace = [] := List.dropWhile_append_of_pos after
    rw [List.append_nil] at gone
    rw [nothing, gone]
  · rw [List.reverse_append, List.dropWhile_append_of_pos reversed]

theorem trim_joined (head mid tail : List Char) (some : head ≠ []) (left : Solid head)
    (blank : Blank mid) (right : Solid tail) :
    trim (head ++ mid ++ tail) = head ++ (if tail = [] then [] else mid) ++ tail := by
  by_cases none : tail = []
  · have alone := trim_around [] head mid nofun blank
    rw [List.nil_append] at alone
    rw [none, if_pos rfl, List.append_nil, List.append_nil, List.append_nil, alone,
      trim_solid head left]
  · rw [if_neg none]
    refine trim_solid _ ⟨fun c is => ?_, fun c is => ?_⟩
    · rw [List.append_assoc, List.head?_append_of_ne_nil _ some] at is
      exact left.first c is
    · rw [List.getLast?_append_of_ne_nil _ none] at is
      exact right.last c is

theorem whitespace_lower (c : Char) : isWhitespace c.toLower = isWhitespace c := by
  by_cases upper : c.val ≥ 'A'.val ∧ c.val ≤ 'Z'.val
  · have letters : ∀ n < 91, 65 ≤ n →
        isWhitespace (Char.ofNat n).toLower = isWhitespace (Char.ofNat n) := by decide
    have low : 65 ≤ c.toNat := upper.1
    have high : c.toNat ≤ 90 := upper.2
    have this := letters c.toNat (by omega) low
    rwa [Char.ofNat_toNat] at this
  · unfold Char.toLower
    rw [dif_neg upper]

theorem trim_lower (text : List Char) : trim (text.map Char.toLower) = (trim text).map Char.toLower := by
  have same : isWhitespace ∘ Char.toLower = isWhitespace := funext whitespace_lower
  unfold trim
  rw [List.dropWhile_map, same, ← List.map_reverse, List.dropWhile_map, same, ← List.map_reverse]

/-! ## Reading the parts -/

theorem strip_suffix_append (tail body : List Char) : stripSuffix tail (body ++ tail) = some body := by
  have ends : tail.isSuffixOf (body ++ tail) = true := by
    rw [List.isSuffixOf_iff_suffix]
    exact List.suffix_append body tail
  rw [stripSuffix, if_pos ends, List.length_append, Nat.add_sub_cancel, List.take_left]

theorem strip_suffix_none (tail text : List Char) (last : tail.getLast? ≠ text.getLast?) (some : tail ≠ []) :
    stripSuffix tail text = none := by
  refine if_neg fun ends => last ?_
  rw [List.isSuffixOf_iff_suffix] at ends
  obtain ⟨body, rfl⟩ := ends
  rw [List.getLast?_append_of_ne_nil _ some]

theorem strip_suffix_apart (pre ending body text : List Char) (length : ending.length = text.length)
    (apart : ending ≠ text) : stripSuffix (pre ++ ending) (body ++ text) = none := by
  refine if_neg fun ends => apart ?_
  rw [List.isSuffixOf_iff_suffix] at ends
  obtain ⟨rest, same⟩ := ends
  rw [← List.append_assoc] at same
  exact (List.append_inj' same length).2

def unrated (body : List Char) : Bool :=
  body.getLast?.any (fun c => c ≠ 's' && c ≠ 'c') || ['e', 's'].isSuffixOf body

theorem split_unrated (body : List Char) (is : unrated body = true) : splitRate body = (body, false) := by
  unfold splitRate
  rw [unrated, Bool.or_eq_true] at is
  rcases is with other | bytes
  · obtain ⟨c, last, apart⟩ := (Option.any_eq_true _ _).mp other
    simp only [Bool.and_eq_true, decide_eq_true_eq] at apart
    have no_s : ∀ tail : List Char, tail.getLast? = some 's' ∨ tail.getLast? = some 'c' →
        tail ≠ [] → stripSuffix tail body = none := by
      intro tail ends some
      refine strip_suffix_none tail body ?_ some
      rw [last]
      rcases ends with s | c
      · rw [s]
        exact fun same => apart.1 (Option.some.inj same).symm
      · rw [c]
        exact fun same => apart.2 (Option.some.inj same).symm
    rw [no_s ['b', 'p', 's'] (by simp) (by simp), no_s ['/', 's', 'e', 'c'] (by simp) (by simp),
      no_s ['/', 's'] (by simp) (by simp)]
  · rw [List.isSuffixOf_iff_suffix] at bytes
    obtain ⟨rest, rfl⟩ := bytes
    have bits := strip_suffix_apart ['b'] ['p', 's'] rest ['e', 's'] rfl (by decide)
    have sec := strip_suffix_apart ['/', 's'] ['e', 'c'] rest ['e', 's'] rfl (by decide)
    have s := strip_suffix_apart [] ['/', 's'] rest ['e', 's'] rfl (by decide)
    simp only [List.cons_append, List.nil_append] at bits sec s
    rw [bits, sec, s]

theorem split_spelled (body : List Char) (q : Quantity) (rated : q.suffix ≠ []) :
    splitRate (body ++ q.suffix) = (body, q.isBits) := by
  have s_bits := strip_suffix_apart ['b'] ['p', 's'] body ['/', 's'] rfl (by decide)
  have s_sec := strip_suffix_apart ['/', 's'] ['e', 'c'] body ['/', 's'] rfl (by decide)
  have sec_bits := strip_suffix_none ['b', 'p', 's'] (body ++ ['/', 's', 'e', 'c']) (by simp) (by simp)
  simp only [List.cons_append, List.nil_append] at s_bits s_sec
  cases q with
  | bits scale =>
      simp only [splitRate, Quantity.suffix, Quantity.isBits, strip_suffix_append]
  | bytes scale ending per =>
      cases per with
      | nothing => exact absurd rfl rated
      | s =>
          simp only [splitRate, Quantity.suffix, Quantity.isBits, Per.text, s_bits, s_sec,
            strip_suffix_append]
      | sec =>
          simp only [splitRate, Quantity.suffix, Quantity.isBits, Per.text, sec_bits,
            strip_suffix_append]

/-! The characters of the parts. -/

theorem digit_solid (c : Char) (digit : c.isDigit = true) : isWhitespace c = false := by
  unfold Char.isDigit at digit
  simp only [Bool.and_eq_true, decide_eq_true_eq] at digit
  have low : 48 ≤ c.toNat := digit.1
  have high : c.toNat ≤ 57 := digit.2
  simp only [isWhitespace, Bool.or_eq_false_iff, Bool.and_eq_false_iff, decide_eq_false_iff_not]
  omega

theorem numeric_solid (c : Char) (numeric : isNumeric c = true) : isWhitespace c = false := by
  rw [isNumeric, Bool.or_eq_true, decide_eq_true_eq] at numeric
  rcases numeric with digit | rfl
  · exact digit_solid c digit
  · rfl

theorem text_numeric (d : Decimal) (c : Char) (member : c ∈ d.text) : isNumeric c = true := by
  rw [isNumeric, Bool.or_eq_true, decide_eq_true_eq]
  rcases List.mem_append.mp member with whole | rest
  · exact Or.inl (d.whole_digits c whole)
  · cases fraction : d.fraction with
    | none =>
        rw [fraction] at rest
        cases rest
    | some f =>
        rw [fraction] at rest
        rcases List.mem_cons.mp rest with dot | digit
        · exact Or.inr dot
        · refine Or.inl (d.fraction_digits c ?_)
          rw [fraction]
          exact digit

theorem text_ne_nil (d : Decimal) : d.text ≠ [] := by
  intro none
  obtain ⟨whole, rest⟩ := List.append_eq_nil_iff.mp none
  have some := d.some_digit
  cases fraction : d.fraction with
  | none =>
      rw [whole, fraction] at some
      exact some rfl
  | some f =>
      rw [fraction] at rest
      cases rest

theorem text_solid (d : Decimal) : Solid d.text :=
  solid_of_all _ fun c member => numeric_solid c (text_numeric d c member)

theorem numeric_unrated (d : Decimal) : unrated d.text = true := by
  rw [unrated, Bool.or_eq_true]
  refine Or.inl ((Option.any_eq_true _ _).mpr
    ⟨_, List.getLast?_eq_some_getLast (text_ne_nil d), ?_⟩)
  have numeric := text_numeric d _ (List.getLast_mem (text_ne_nil d))
  simp only [Bool.and_eq_true, decide_eq_true_eq]
  constructor
  · intro same
    rw [same] at numeric
    cases numeric
  · intro same
    rw [same] at numeric
    cases numeric

theorem word_letters (q : Quantity) :
    (∀ c ∈ q.word, isWhitespace c = false) ∧ (∀ c, q.word.head? = some c → isNumeric c = false) ∧
      (q.word ≠ [] → unrated q.word = true) := by
  have letters : ∀ word : List Char, word.all (fun c => !isWhitespace c && !isNumeric c) = true →
      (∀ c ∈ word, isWhitespace c = false) ∧ ∀ c, word.head? = some c → isNumeric c = false := by
    intro word all
    simp only [List.all_eq_true, Bool.and_eq_true, Bool.not_eq_true'] at all
    exact ⟨fun c member => (all c member).1, fun c is => (all c (List.mem_of_head? is)).2⟩
  cases q with
  | bits scale =>
      have all : scale.text.all (fun c => !isWhitespace c && !isNumeric c) = true := by
        cases scale <;> rfl
      have ends : scale.text ≠ [] → unrated scale.text = true := by
        cases scale <;> decide
      exact ⟨(letters _ all).1, (letters _ all).2, ends⟩
  | bytes scale ending per =>
      have all : (scale.text ++ ending.text).all (fun c => !isWhitespace c && !isNumeric c) = true := by
        cases scale <;> cases ending <;> rfl
      have ends : scale.text ++ ending.text ≠ [] → unrated (scale.text ++ ending.text) = true := by
        cases scale <;> cases ending <;> decide
      exact ⟨(letters _ all).1, (letters _ all).2, ends⟩

theorem word_solid (q : Quantity) : Solid q.word := solid_of_all _ (word_letters q).1

theorem unrated_append (body word : List Char) (some : word ≠ []) (is : unrated word = true) :
    unrated (body ++ word) = true := by
  rw [unrated, Bool.or_eq_true] at is ⊢
  rw [List.getLast?_append_of_ne_nil _ some]
  refine is.imp_right fun ends => ?_
  rw [List.isSuffixOf_iff_suffix] at ends ⊢
  exact ends.trans (List.suffix_append body word)

theorem body_spelled (text : String) (amount : Decimal) (q : Quantity) (spelled : Spelled text amount q) :
    trim text.toList ≠ [] ∧ ∃ body mid, Blank mid ∧
      splitRate ((trim text.toList).map Char.toLower) = (body, q.isBits) ∧
      trim body = amount.text ++ mid ++ q.word := by
  obtain ⟨front, mid, gap, back, before, between, apart, after, lower⟩ := spelled
  have joined := trim_joined amount.text mid q.word (text_ne_nil amount) (text_solid amount) between
    (word_solid q)
  have around := trim_around [] (amount.text ++ mid ++ q.word) gap nofun apart
  rw [List.nil_append, joined] at around
  have left : Blank (if q.word = [] then [] else mid) := by
    by_cases none : q.word = []
    · rw [if_pos none]
      nofun
    · rw [if_neg none]
      exact between
  have whole := trim_lower text.toList
  rw [lower, trim_around front _ back before after] at whole
  have some : ∀ rest, amount.text ++ rest ≠ [] := fun rest none =>
    text_ne_nil amount (List.append_eq_nil_iff.mp none).1
  by_cases rated : q.suffix = []
  · have bytes : q.isBits = false := by
      cases q with
      | bytes scale ending per => rfl
      | bits scale => cases rated
    have again := trim_joined amount.text _ q.word (text_ne_nil amount) (text_solid amount) left
      (word_solid q)
    rw [rated, List.append_nil, around] at whole
    refine ⟨fun none => ?_, amount.text ++ (if q.word = [] then [] else mid) ++ q.word, _, left, ?_, ?_⟩
    · rw [none, List.append_assoc] at whole
      exact some _ whole
    · rw [← whole, bytes]
      refine split_unrated _ ?_
      by_cases none : q.word = []
      · rw [if_pos none, none, List.append_nil, List.append_nil]
        exact numeric_unrated amount
      · exact unrated_append _ _ none ((word_letters q).2.2 none)
    · rw [again]
      by_cases none : q.word = []
      · simp only [if_pos none]
      · simp only [if_neg none]
  · have solid : Solid (amount.text ++ mid ++ q.word ++ gap ++ q.suffix) := by
      refine ⟨fun c is => ?_, fun c is => ?_⟩
      · rw [List.append_assoc, List.append_assoc, List.append_assoc,
          List.head?_append_of_ne_nil _ (text_ne_nil amount)] at is
        exact (text_solid amount).first c is
      · rw [List.getLast?_append_of_ne_nil _ rated] at is
        cases q with
        | bytes scale ending per =>
            cases per with
            | nothing => exact absurd rfl rated
            | s => cases is; rfl
            | sec => cases is; rfl
        | bits scale => cases is; rfl
    rw [trim_solid _ solid] at whole
    refine ⟨fun none => ?_, _, _, left, ?_, around⟩
    · rw [none, List.map_nil, List.append_assoc, List.append_assoc, List.append_assoc] at whole
      exact some _ whole
    · rw [← whole]
      exact split_spelled _ q rated

theorem take_exact (p : Char → Bool) (text rest : List Char) (all : ∀ c ∈ text, p c = true)
    (stops : ∀ c, rest.head? = some c → p c = false) :
    (text ++ rest).takeWhile p = text ∧ (text ++ rest).dropWhile p = rest := by
  rw [List.takeWhile_append_of_pos all, List.dropWhile_append_of_pos all]
  cases rest with
  | nil => exact ⟨List.append_nil text, rfl⟩
  | cons c rest =>
      have stop : ¬p c = true := by rw [stops c rfl]; exact Bool.false_ne_true
      rw [List.takeWhile_cons_of_neg stop, List.dropWhile_cons_of_neg stop]
      exact ⟨List.append_nil text, rfl⟩

theorem parts_spelled (amount : Decimal) (mid : List Char) (q : Quantity) (blank : Blank mid) :
    (amount.text ++ mid ++ q.word).takeWhile isNumeric = amount.text ∧
      trim ((amount.text ++ mid ++ q.word).dropWhile isNumeric) = q.word := by
  obtain ⟨taken, dropped⟩ := take_exact isNumeric amount.text (mid ++ q.word) (text_numeric amount) (by
    intro c is
    cases mid with
    | nil => exact (word_letters q).2.1 c is
    | cons b rest =>
        cases is
        cases numeric : isNumeric c with
        | false => rfl
        | true =>
            have white := blank c List.mem_cons_self
            rw [numeric_solid c numeric] at white
            cases white)
  have around := trim_around mid q.word [] blank nofun
  rw [List.append_nil, trim_solid _ (word_solid q)] at around
  rw [List.append_assoc, taken, dropped, around]
  exact ⟨rfl, rfl⟩

theorem strip_byte_word (scale : Scale) (ending : Ending) :
    stripByte (scale.text ++ ending.text) = scale.text := by
  cases scale <;> cases ending <;> rfl

theorem prefix_mult_scale (scale : Scale) : prefixMult scale.text = some scale.factor := by
  cases scale <;> rfl

theorem signed_text (d : Decimal) : signed d.text = (false, d.text) ∧ d.text ≠ "inf".toList ∧
    d.text ≠ "infinity".toList ∧ d.text ≠ "nan".toList := by
  have first := text_numeric d
  have some := text_ne_nil d
  generalize d.text = text at first some
  cases text with
  | nil => exact absurd rfl some
  | cons c rest =>
      have numeric := first c List.mem_cons_self
      refine ⟨?_, ?_, ?_, ?_⟩
      · unfold signed
        split
        · rename_i same
          rw [(List.cons.inj same).1] at numeric
          cases numeric
        · rename_i same
          rw [(List.cons.inj same).1] at numeric
          cases numeric
        · rfl
      all_goals
        intro same
        have head := (List.cons.inj same).1
        rw [head] at numeric
        cases numeric

theorem parse_text (d : Decimal) : parseF64 d.text = some (nearest false d.digits (10 ^ d.places)) := by
  obtain ⟨sign, inf, infinity, nan⟩ := signed_text d
  have parsed : parseNumber false d.text = some (nearest false d.digits (10 ^ d.places)) := by
    have some := d.some_digit
    unfold parseNumber Decimal.text Decimal.digits Decimal.places
    cases fraction : d.fraction with
    | none =>
        obtain ⟨taken, dropped⟩ := take_exact Char.isDigit d.whole [] d.whole_digits nofun
        rw [List.append_nil] at taken dropped
        rw [fraction, Option.getD_none, List.append_nil] at some
        simp only [Option.elim_none, taken, dropped, fractionOf, some, false_and, if_false, exponentOf,
          Option.map_some, Option.getD_none, List.append_nil, List.length_nil, Nat.cast_zero, sub_zero,
          le_refl, if_true, Int.toNat_zero, pow_zero, Nat.mul_one]
    | some f =>
        have digits := d.fraction_digits
        rw [fraction, Option.getD_some] at digits some
        obtain ⟨taken, dropped⟩ := take_exact Char.isDigit d.whole ('.' :: f) d.whole_digits (by
          intro c is
          cases is
          rfl)
        obtain ⟨inside, left⟩ := take_exact Char.isDigit f [] digits nofun
        rw [List.append_nil] at inside left
        have either : ¬(d.whole = [] ∧ f = []) := fun none => some (List.append_eq_nil_iff.mpr none)
        simp only [Option.elim_some, taken, dropped, fractionOf, inside, left, either, if_false,
          exponentOf, Option.map_some, Option.getD_some]
        by_cases short : f = []
        · rw [short]
          simp
        · have long : ¬(0 : Int) ≤ 0 - f.length := by
            have positive := List.length_pos_iff.mpr short
            omega
          rw [if_neg long, show (-(0 - (f.length : Int))).toNat = f.length by omega]
  simp only [parseF64, sign, inf, infinity, nan, or_self, if_false, parsed]

/-! ## The numbers -/

theorem least_unit_le : (2 : ℚ) ^ (-1075 : Int) ≤ 1 / 2 ^ 60 := by
  have least := power_le (show (-1075 : Int) ≤ -60 by omega)
  rw [zpow_neg 2 60] at least
  exact least.trans (by norm_num)

theorem product_close (a : ℚ) (mult : Nat) (nonneg : 0 ≤ a) (scale : mult ≤ 2 ^ 40) :
    |nearestValue (nearestValue a * mult) - a * mult| ≤ a * mult * (9 / 2 ^ 55) + 1 / 16 := by
  have tiny := least_unit_le
  have positive := power_pos (-1075)
  have epsilon : (2 : ℚ) ^ (-53 : Int) = 1 / 2 ^ 53 := by norm_num
  have m_nonneg : (0 : ℚ) ≤ mult := Nat.cast_nonneg mult
  have m_le : (mult : ℚ) ≤ 2 ^ 40 := by exact_mod_cast scale
  have first := nearest_value_close a nonneg
  have second := nearest_value_close (nearestValue a * mult)
    (mul_nonneg (nearest_value_nonneg a) m_nonneg)
  rw [epsilon] at first second
  generalize (2 : ℚ) ^ (-1075 : Int) = t at tiny positive first second
  have scaled : |nearestValue a * mult - a * mult| ≤ a * mult * (1 / 2 ^ 53) + 1 / 2 ^ 20 := by
    rw [← sub_mul, abs_mul, abs_of_nonneg m_nonneg]
    calc |nearestValue a - a| * mult ≤ (a * (1 / 2 ^ 53) + t) * mult :=
          mul_le_mul_of_nonneg_right first m_nonneg
      _ = a * mult * (1 / 2 ^ 53) + t * mult := by ring
      _ ≤ a * mult * (1 / 2 ^ 53) + 1 / 2 ^ 60 * 2 ^ 40 :=
          add_le_add_right (mul_le_mul tiny m_le m_nonneg (by norm_num)) _
      _ = a * mult * (1 / 2 ^ 53) + 1 / 2 ^ 20 := by norm_num
  have least : 0 ≤ a * mult := mul_nonneg nonneg m_nonneg
  generalize nearestValue a * mult = w at scaled second ⊢
  generalize a * (mult : ℚ) = p at scaled least ⊢
  generalize nearestValue w = r at second ⊢
  rw [abs_le] at *
  constructor
  · linarith [scaled.1, scaled.2, second.1, second.2]
  · linarith [scaled.1, scaled.2, second.1, second.2]

theorem scale_range (scale : Scale) : 1 ≤ scale.factor ∧ scale.factor ≤ 2 ^ 40 := by
  cases scale <;> decide

def computed (amount : Decimal) (q : Quantity) : Float64 :=
  let bytesPerSec := (nearest false amount.digits (10 ^ amount.places)).mulNat q.scale.factor
  if q.isBits then div bytesPerSec (asF64 8) else bytesPerSec

theorem value_nonneg (amount : Decimal) : 0 ≤ amount.value := by
  unfold Decimal.value
  positivity

theorem value_small (amount : Decimal) (q : Quantity) (fits : amount.value * q.factor ≤ 2 ^ 50) :
    amount.value ≤ amount.value * q.scale.factor ∧ amount.value * q.scale.factor ≤ 2 ^ 53 := by
  have one_le : (1 : ℚ) ≤ q.scale.factor := by exact_mod_cast (scale_range q.scale).1
  refine ⟨le_mul_of_one_le_right (value_nonneg amount) one_le, ?_⟩
  unfold Quantity.factor at fits
  split at fits
  · linarith
  · linarith

theorem value_le (amount : Decimal) (q : Quantity) (fits : amount.value * q.factor ≤ 2 ^ 50) :
    amount.value ≤ 2 ^ (53 : Int) := by
  obtain ⟨alone, product⟩ := value_small amount q fits
  rw [show (2 : ℚ) ^ (53 : Int) = 2 ^ 53 by norm_num]
  exact alone.trans product

theorem parsed_holds (amount : Decimal) (q : Quantity) (fits : amount.value * q.factor ≤ 2 ^ 50) :
    Holds (nearest false amount.digits (10 ^ amount.places)) (nearestValue amount.value) :=
  nearest_holds _ _ (Nat.pow_pos (by omega)) ((value_le amount q fits).trans (power_le (by omega)))

theorem computed_close (amount : Decimal) (q : Quantity) (fits : amount.value * q.factor ≤ 2 ^ 50) :
    ∃ r, Holds (computed amount q) r ∧ |r - amount.value * q.factor| < 1 / 2 := by
  have most := (scale_range q.scale).2
  have nonneg := value_nonneg amount
  obtain ⟨alone, product⟩ := value_small amount q fits
  have small_value := value_le amount q fits
  have parsed := parsed_holds amount q fits
  have close := product_close amount.value q.scale.factor nonneg most
  -- no step comes near the largest double
  have nearest_le : nearestValue amount.value ≤ 2 ^ (53 : Int) := by
    have exact := nearest_value_exact 1 53 (by omega) (by omega)
    rw [Nat.cast_one, one_mul] at exact
    rw [← exact]
    exact nearest_value_mono nonneg small_value
  have wide : nearestValue amount.value * q.scale.factor ≤ 2 ^ (1000 : Int) := by
    have factor_le : (q.scale.factor : ℚ) ≤ 2 ^ (40 : Int) := cast_le_power most
    calc nearestValue amount.value * q.scale.factor ≤ 2 ^ (53 : Int) * 2 ^ (40 : Int) :=
          mul_le_mul nearest_le factor_le (Nat.cast_nonneg _) (power_pos 53).le
      _ = 2 ^ ((53 : Int) + 40) := (power_add 53 40).symm
      _ ≤ 2 ^ (1000 : Int) := power_le (by omega)
  have multiplied := mul_nat_holds q.scale.factor parsed wide
  have product_nonneg := nearest_value_nonneg (nearestValue amount.value * q.scale.factor)
  have least_product : 0 ≤ amount.value * q.scale.factor := nonneg.trans alone
  unfold computed Quantity.factor at *
  cases bits : q.isBits with
  | false =>
      rw [bits, if_neg Bool.false_ne_true] at fits
      rw [if_neg Bool.false_ne_true, if_neg Bool.false_ne_true]
      refine ⟨_, multiplied, lt_of_le_of_lt close ?_⟩
      linarith
  | true =>
      rw [bits, if_pos rfl, ← mul_div_assoc] at fits
      rw [if_pos rfl, if_pos rfl, ← mul_div_assoc]
      have eight := as_f64_holds 8 ((by norm_num : ((8 : Nat) : ℚ) ≤ 2 ^ (3 : Int)).trans (power_le (by omega)))
      rw [nearest_value_whole 8 (by omega)] at eight
      generalize nearestValue (nearestValue amount.value * q.scale.factor) = p at *
      generalize amount.value * (q.scale.factor : ℚ) = written at *
      rw [abs_le] at close
      have small : p / (8 : Nat) ≤ 2 ^ (1000 : Int) := by
        have coarse : p / (8 : Nat) ≤ 2 ^ (60 : Int) := by
          rw [show (2 : ℚ) ^ (60 : Int) = 2 ^ 60 by norm_num, Nat.cast_ofNat]
          linarith [close.2]
        exact coarse.trans (power_le (by omega))
      have divided := div_holds multiplied eight (Nat.cast_pos.mpr (by omega)) small
      refine ⟨_, divided, ?_⟩
      have eighth : 0 ≤ p / (8 : Nat) := div_nonneg product_nonneg (Nat.cast_nonneg _)
      have last := nearest_value_close (p / (8 : Nat)) eighth
      have tiny := least_unit_le
      rw [show (2 : ℚ) ^ (-53 : Int) = 1 / 2 ^ 53 by norm_num, abs_le] at last
      generalize (2 : ℚ) ^ (-1075 : Int) = t at tiny last
      rw [Nat.cast_ofNat] at last ⊢
      rw [abs_lt]
      constructor
      · linarith [close.1, close.2, last.1, last.2]
      · linarith [close.1, close.2, last.1, last.2]

/-- Every rate that is written as it should be, up to a thousand million million bytes a second, is
read, and what is read is less than a byte away from what is written, and just that if it is a whole
number of bytes. -/
theorem rate_as_written (debug : String → String) (text : String) (amount : Decimal) (q : Quantity)
    (spelled : Spelled text amount q) (fits : amount.value * q.factor ≤ 2 ^ 50) :
    ∃ n : Nat, parseByteRate debug text = .ok n ∧ |(n : ℚ) - amount.value * q.factor| < 1 ∧
      ∀ k : Nat, amount.value * q.factor = k → n = k := by
  obtain ⟨some, body, mid, blank, split, trimmed⟩ := body_spelled text amount q spelled
  obtain ⟨number, unit⟩ := parts_spelled amount mid q blank
  obtain ⟨r, holds, close⟩ := computed_close amount q fits
  have read : parseByteRate debug text = .ok (computed amount q).roundAsU64 := by
    obtain ⟨m, e, value, _⟩ := parsed_holds amount q fits
    have known : prefixMult (if q.isBits then q.word else stripByte q.word) = Option.some q.scale.factor := by
      cases q with
      | bits scale => exact prefix_mult_scale scale
      | bytes scale ending per =>
          show prefixMult (stripByte (scale.text ++ ending.text)) = _
          rw [strip_byte_word]
          exact prefix_mult_scale scale
    unfold parseByteRate
    simp only [some, if_false, split, trimmed, number, unit, trim_solid _ (text_solid amount),
      text_ne_nil amount, parse_text, value, known, Float64.isNegative, Float64.isFinite]
    unfold computed
    rw [value]
    rfl
  have nonneg : 0 ≤ r := by
    obtain ⟨m, e, _, rfl⟩ := holds
    exact LenientNumbers.magnitude_nonneg m e
  rw [abs_lt] at close
  have below := Nat.floor_le (show (0 : ℚ) ≤ r + 1 / 2 by linarith)
  have above := Nat.lt_floor_add_one (r + 1 / 2)
  have rounds : (computed amount q).roundAsU64 = ⌊r + 1 / 2⌋₊ := by
    rw [round_as_u64_spec holds]
    refine Nat.min_eq_left ?_
    have bound : ((⌊r + 1 / 2⌋₊ : Nat) : ℚ) ≤ (maxU64 : Nat) := by
      refine below.trans ?_
      rw [show ((maxU64 : Nat) : ℚ) = 18446744073709551615 by norm_num [maxU64]]
      linarith
    exact_mod_cast bound
  rw [rounds] at read
  generalize ⌊r + 1 / 2⌋₊ = n at read below above
  have near : |(n : ℚ) - amount.value * q.factor| < 1 := by
    rw [abs_lt]
    constructor
    · linarith
    · linarith
  refine ⟨n, read, near, fun k whole => ?_⟩
  rw [whole, abs_lt] at near
  have low : (k : ℚ) < n + 1 := by linarith
  have high : (n : ℚ) < k + 1 := by linarith
  have low' : k < n + 1 := by exact_mod_cast low
  have high' : n < k + 1 := by exact_mod_cast high
  omega

def oneAndAHalf : Decimal := ⟨['1'], some ['5'], by simp, by simp, by simp⟩

theorem rate_as_written_megabits :
    parseByteRate id " 1.5 Mbps" = .ok 187500 := by
  have space : Blank [' '] := by simp [Blank, show isWhitespace ' ' = true from rfl]
  have spelled : Spelled " 1.5 Mbps" oneAndAHalf (.bits .mega) :=
    ⟨[' '], [' '], [], [], space, space, nofun, nofun, by decide⟩
  have digits : oneAndAHalf.digits = 15 := by decide
  have places : oneAndAHalf.places = 1 := rfl
  have meant : oneAndAHalf.value * (Quantity.bits .mega).factor = (187500 : Nat) := by
    rw [Decimal.value, digits, places]
    norm_num [Quantity.factor, Quantity.isBits, Quantity.scale, Scale.factor]
  obtain ⟨n, read, _, whole⟩ := rate_as_written id " 1.5 Mbps" oneAndAHalf (.bits .mega) spelled
    (by rw [meant]; norm_num)
  rw [whole 187500 meant] at read
  exact read

end FileReplicator.ByteRates
