import Mathlib.Tactic.Ring
import FileReplicator.Sugar

/-!
# Intervals in English

What fires when a phrase asks for something every so many seconds, minutes or hours.
A step of a cron field starts anew with each minute, hour or day, so the distance is
kept only by a step that fits into it a whole number of times.
-/

namespace FileReplicator.IntervalPhrases

open DurationText Sugar WindowEdges

section Steps

def Consecutive (occurs : Int → Prop) (a b : Int) : Prop :=
  occurs a ∧ occurs b ∧ a < b ∧ ∀ t, a < t → t < b → ¬occurs t

/-- Whole units, numbered anew in each period, of which every `n`-th is taken. -/
def Stepped (size period n t : Int) : Prop := size ∣ t ∧ t / size % period % n = 0

variable (size period n : Int) (sized : 0 < size) (periodic : 0 < period) (positive : 0 < n)

include sized

theorem stepped_mul (q : Int) : Stepped size period n (q * size) ↔ q % period % n = 0 := by
  rw [Stepped, Int.mul_ediv_cancel q sized.ne']
  exact and_iff_right (Int.dvd_mul_left q size)

theorem stepped_of_dvd (fits : n ∣ period) (t : Int) :
    Stepped size period n t ↔ n * size ∣ t := by
  constructor
  · rintro ⟨⟨q, rfl⟩, step⟩
    rw [Int.mul_ediv_cancel_left q sized.ne', Int.emod_emod_of_dvd q fits] at step
    rw [Int.mul_comm n size]
    exact Int.mul_dvd_mul_left size (Int.dvd_of_emod_eq_zero step)
  · rintro ⟨k, rfl⟩
    rw [Int.mul_right_comm, stepped_mul size period n sized, Int.emod_emod_of_dvd _ fits]
    exact Int.mul_emod_right n k

include periodic positive

/-- The last step of a period and the first one of the next are too close, unless the steps fit. -/
theorem short_step (apart : ¬n ∣ period) :
    Consecutive (Stepped size period n) (period / n * n * size) (period * size) := by
  have split := Int.ediv_mul_add_emod period n
  have rest := Int.emod_nonneg period positive.ne'
  have below := Int.emod_lt_of_pos period positive
  have some : period % n ≠ 0 := fun none => apart (Int.dvd_of_emod_eq_zero none)
  have wholes : 0 ≤ period / n := Int.ediv_nonneg periodic.le positive.le
  have start : 0 ≤ period / n * n := Int.mul_nonneg wholes positive.le
  refine ⟨?_, ?_, ?_, ?_⟩
  · rw [stepped_mul size period n sized, Int.emod_eq_of_lt start (by omega)]
    exact Int.mul_emod_left _ n
  · rw [stepped_mul size period n sized, Int.emod_self, Int.zero_emod]
  · exact Int.mul_lt_mul_of_pos_right (by omega) sized
  · rintro t after before ⟨⟨q, rfl⟩, step⟩
    rw [Int.mul_comm size q] at after before
    -- a step between the two would be closer to the last one of the period than `n`
    have low : period / n * n < q := Int.lt_of_mul_lt_mul_right after sized.le
    have high : q < period := Int.lt_of_mul_lt_mul_right before sized.le
    rw [Int.mul_ediv_cancel_left q sized.ne', Int.emod_eq_of_lt (by omega) high] at step
    have count : q % n = q - period / n * n := by
      have shifted : q = (q - period / n * n) + n * (period / n) := by ring
      rw [shifted, Int.add_mul_emod_self_left, Int.emod_eq_of_lt (by omega) (by omega)]
      ring
    omega

/-- The steps are as far apart as they are long, exactly if they fit into the period. -/
theorem spaced_iff_fits :
    (∀ a b, Consecutive (Stepped size period n) a b → b - a = n * size) ↔ n ∣ period := by
  constructor
  · intro spaced
    by_contra apart
    -- then the distance over the end of the period is short, and by spacing it is `n` all the same
    have gap := spaced _ _ (short_step size period n sized periodic positive apart)
    rw [← Int.sub_mul] at gap
    have same : period - period / n * n = n := Int.eq_of_mul_eq_mul_right sized.ne' gap
    exact apart ⟨period / n + 1, by rw [Int.mul_add, Int.mul_one, Int.mul_comm n]; omega⟩
  · rintro fits a b ⟨first, last, order, none⟩
    rw [stepped_of_dvd size period n sized fits] at first last
    have step : 0 < n * size := Int.mul_pos positive sized
    have gap : n * size ∣ b - a := Int.dvd_sub last first
    have least : n * size ≤ b - a := Int.le_of_dvd (by omega) gap
    by_contra more
    -- else the next multiple after `a` is in between
    refine none (a + n * size) (by omega) (by omega) ?_
    rw [stepped_of_dvd size period n sized fits]
    exact Int.dvd_add first (Int.dvd_refl _)

end Steps

def readNat (digits : List Char) : Option Nat :=
  if digits ≠ [] ∧ digits.all Char.isDigit then some (digitsValue digits) else none

/-- A field that starts at `low`: everything, every so many of them, a range or one value. -/
def fieldMatches (low : Nat) (field : List Char) (value : Nat) : Bool :=
  match field with
  | ['*'] => true
  | '*' :: '/' :: digits => (readNat digits).any fun n => n ≠ 0 ∧ (value - low) % n = 0
  | _ =>
      match splitOnce ['-'] field with
      | some (first, last) =>
          (readNat first).any fun n => n ≤ value ∧ (readNat last).any fun m => value ≤ m
      | none => readNat field = some value

/-- The day of the month, the month and the day of the week. -/
structure Date where
  dom : Nat
  month : Nat
  dow : Nat

/-- A day has to match both of its fields, or one of them if both restrict it. -/
def dayMatches (dom month dow : List Char) (date : Date) : Bool :=
  fieldMatches 1 month date.month &&
    if dom ≠ ['*'] ∧ dow ≠ ['*'] then
      fieldMatches 1 dom date.dom || fieldMatches 0 dow date.dow
    else fieldMatches 1 dom date.dom && fieldMatches 0 dow date.dow

def timeMatches (second minute hour : List Char) (t : Int) : Bool :=
  fieldMatches 0 second (t % 60).toNat && fieldMatches 0 minute (t / 60 % 60).toNat &&
    fieldMatches 0 hour (t / 3600 % 24).toNat

/-- An expression fires at a second of UTC; without a field for them, the seconds are zero. -/
def fires (calendar : Int → Date) (expr : String) (t : Int) : Bool :=
  match expr.toList.splitOn ' ' with
  | [minute, hour, dom, month, dow] =>
      timeMatches ['0'] minute hour t && dayMatches dom month dow (calendar (t / 86400))
  | [second, minute, hour, dom, month, dow] =>
      timeMatches second minute hour t && dayMatches dom month dow (calendar (t / 86400))
  | _ => false

/-! ## The expressions of intervals -/

def size : Interval → Nat
  | .seconds => 1
  | .minutes => 60
  | .hours => 3600

/-- How many units the field of the unit counts before it starts anew. -/
def period : Interval → Nat
  | .seconds | .minutes => 60
  | .hours => 24

theorem read_digits (n : Nat) : readNat (Nat.toDigits 10 n) = some n := by
  have digits : (Nat.toDigits 10 n).all Char.isDigit = true :=
    List.all_eq_true.mpr fun c member => Nat.isDigit_of_mem_toDigits (by decide) (by decide) member
  rw [readNat, if_pos ⟨Nat.toDigits_ne_nil, digits⟩]
  exact congrArg some Nat.ofDigitChars_ten_toDigits

theorem digits_no_space (n : Nat) : ' ' ∉ Nat.toDigits 10 n := by
  intro member
  have digit := Nat.isDigit_of_mem_toDigits (by decide) (by decide) member
  exact absurd digit (by decide)

theorem split_step (n : Nat) (rest : List Char) :
    ('*' :: '/' :: (Nat.toDigits 10 n ++ ' ' :: rest)).splitOn ' ' =
      ('*' :: '/' :: Nat.toDigits 10 n) :: rest.splitOn ' ' := by
  have apart : ' ' ∉ '*' :: '/' :: Nat.toDigits 10 n := by simp [digits_no_space]
  rw [← List.cons_append, ← List.cons_append, List.splitOn_append_cons_self,
    List.splitOn_eq_singleton apart]
  rfl

theorem any_matches (value : Nat) : fieldMatches 0 ['*'] value = true := rfl

theorem zero_matches (value : Int) (low : 0 ≤ value) :
    fieldMatches 0 ['0'] value.toNat = true ↔ value = 0 := by
  have alone : fieldMatches 0 ['0'] value.toNat = decide (some 0 = some value.toNat) := rfl
  rw [alone, decide_eq_true_eq, Option.some.injEq]
  omega

theorem step_matches (n : Nat) (positive : 0 < n) (value : Int) (low : 0 ≤ value) :
    fieldMatches 0 ('*' :: '/' :: Nat.toDigits 10 n) value.toNat = true ↔ value % n = 0 := by
  obtain ⟨v, rfl⟩ := Int.eq_ofNat_of_zero_le low
  have whole : v % n = 0 ↔ (v : Int) % n = 0 := by exact_mod_cast Iff.rfl
  rw [← whole]
  simp [fieldMatches, read_digits, positive.ne']

theorem day_matches_any (date : Date) : dayMatches ['*'] ['*'] ['*'] date = true := rfl

/-- What an interval's expression fires at: every `n`-th of its units, of those numbered within the
larger unit. -/
theorem fires_interval (calendar : Int → Date) (unit : Interval) (n : Nat) (positive : 0 < n)
    (t : Int) :
    fires calendar (unit.cron n) t = true ↔ Stepped (size unit) (period unit) n t := by
  have second : 0 ≤ t % 60 := by omega
  have minute : 0 ≤ t / 60 % 60 := by omega
  have hour : 0 ≤ t / 3600 % 24 := by omega
  cases unit with
  | seconds =>
      have fields : (Interval.seconds.cron n).toList.splitOn ' ' =
          [('*' :: '/' :: Nat.toDigits 10 n), ['*'], ['*'], ['*'], ['*'], ['*']] := by
        have text : (Interval.seconds.cron n).toList =
            '*' :: '/' :: (Nat.toDigits 10 n ++ ' ' :: "* * * * *".toList) := by
          simp [Interval.cron]
        rw [text, split_step]
        rfl
      simp only [fires, fields, timeMatches, day_matches_any, any_matches, Bool.and_true,
        step_matches n positive _ second, Stepped, size, period]
      rw [Nat.cast_one, Int.ediv_one]
      exact (and_iff_right (Int.one_dvd t)).symm
  | minutes =>
      have fields : (Interval.minutes.cron n).toList.splitOn ' ' =
          [('*' :: '/' :: Nat.toDigits 10 n), ['*'], ['*'], ['*'], ['*']] := by
        have text : (Interval.minutes.cron n).toList =
            '*' :: '/' :: (Nat.toDigits 10 n ++ ' ' :: "* * * *".toList) := by
          simp [Interval.cron]
        rw [text, split_step]
        rfl
      simp only [fires, fields, timeMatches, day_matches_any, any_matches, Bool.and_true,
        Bool.and_eq_true, zero_matches _ second, step_matches n positive _ minute, Stepped, size,
        period]
      exact and_congr_left fun _ => Int.dvd_iff_emod_eq_zero.symm
  | hours =>
      have fields : (Interval.hours.cron n).toList.splitOn ' ' =
          [['0'], ('*' :: '/' :: Nat.toDigits 10 n), ['*'], ['*'], ['*']] := by
        have text : (Interval.hours.cron n).toList =
            ['0'] ++ ' ' :: '*' :: '/' :: (Nat.toDigits 10 n ++ ' ' :: "* * *".toList) := by
          simp [Interval.cron]
        rw [text, List.splitOn_append_cons_self, split_step]
        rfl
      simp only [fires, fields, timeMatches, day_matches_any, Bool.and_true,
        Bool.and_eq_true, zero_matches _ second, zero_matches _ minute,
        step_matches n positive _ hour, Stepped, size, period]
      -- seconds and minutes both zero: a whole number of hours
      refine and_congr_left fun _ => ?_
      push_cast
      omega

/-- The phrase is refused, or the expression it stands for fires at intervals of just that many
units. -/
def Honoured (calendar : Int → Date) (phrase word : String) (unit : Interval) : Prop :=
  match toCron phrase with
  | .ok cron => ∃ n, parseCount word = some n ∧
      ∀ a b, Consecutive (fun t => fires calendar cron t = true) a b → b - a = n * size unit
  | .error e => e = .unrecognizedPhrase phrase

theorem count_positive (word : String) (n : Nat) (counted : parseCount word = some n) : 0 < n := by
  unfold parseCount at counted
  split at counted
  · split at counted
    · cases counted
    · cases counted
      omega
  · cases counted

/-- A phrase is honoured exactly if its number fits into the larger unit, or is none at all. -/
theorem interval_honoured_iff (calendar : Int → Date) (phrase word : String) (unit : Interval)
    (form : wordsOf phrase = ["every", word, unit.word]) :
    Honoured calendar phrase word unit ↔
      ∀ n, parseCount word = some n → n ∣ period unit := by
  unfold Honoured toCron
  rw [form, cron_of_interval]
  cases counted : parseCount word with
  | none => simp
  | some n =>
      have positive := count_positive word n counted
      have spaced := spaced_iff_fits (size unit) (period unit) n (by cases unit <;> decide)
        (by cases unit <;> decide) (by exact_mod_cast positive)
      have occurs : (fun t => fires calendar (unit.cron n) t = true) =
          Stepped (size unit) (period unit) n :=
        funext fun t => propext (fires_interval calendar unit n positive t)
      simp only [Option.map_some, Option.some.injEq, occurs]
      rw [Int.natCast_dvd_natCast] at spaced
      constructor
      · rintro ⟨m, rfl, apart⟩ k rfl
        exact spaced.mp apart
      · intro fits
        exact ⟨n, rfl, spaced.mpr (fits n rfl)⟩

theorem interval_honoured_quarter :
    Honoured (fun _ => ⟨1, 1, 4⟩) "every 15 minutes" "15" .minutes := by
  have form : wordsOf "every 15 minutes" = ["every", "15", Interval.minutes.word] := by
    decide
  refine (interval_honoured_iff (fun _ => ⟨1, 1, 4⟩) "every 15 minutes" "15" .minutes form).mpr ?_
  intro n counted
  have fifteen : parseCount "15" = some 15 := by decide
  rw [fifteen, Option.some.injEq] at counted
  subst counted
  decide

/-- Every seven minutes: the last time in an hour is only four minutes before the next hour. -/
theorem seven_minutes_not_honoured : ¬ ∀ (calendar : Int → Date) (phrase word : String)
    (unit : Interval), wordsOf phrase = ["every", word, unit.word] →
      Honoured calendar phrase word unit := by
  intro all
  have honoured := all (fun _ => ⟨1, 1, 4⟩) "every 7 minutes" "7" .minutes (by decide)
  have cron : toCron "every 7 minutes" = .ok (Interval.minutes.cron 7) := by decide
  rw [Honoured, cron] at honoured
  obtain ⟨n, counted, spaced⟩ := honoured
  have seven : parseCount "7" = some 7 := by decide
  rw [seven, Option.some.injEq] at counted
  subst counted
  have short := short_step 60 60 7 (by decide) (by decide) (by decide) (by decide)
  have occurs : (fun t => fires (fun _ => ⟨1, 1, 4⟩) (Interval.minutes.cron 7) t = true) =
      Stepped 60 60 7 :=
    funext fun t => propext (fires_interval _ .minutes 7 (by decide) t)
  rw [occurs] at spaced
  exact absurd (spaced _ _ short) (by decide)

end FileReplicator.IntervalPhrases
