import FileReplicator.DurationText
import FileReplicator.WindowEdges

/-!
# English phrases

A phrase that is no cron expression is one of a few forms, and stands for a cron
expression. Case and the amount of white space make no difference.
-/

namespace FileReplicator.Sugar

open DurationText WindowEdges

/-! ## Texts -/

def isWhitespace (c : Char) : Bool :=
  let n := c.toNat
  (9 ≤ n && n ≤ 13) || n = 0x20 || n = 0x85 || n = 0xA0 || n = 0x1680 ||
    (0x2000 ≤ n && n ≤ 0x200A) || n = 0x2028 || n = 0x2029 || n = 0x202F || n = 0x205F || n = 0x3000

def splitWhitespace (text : List Char) : List (List Char) :=
  (text.splitOnP isWhitespace).filter (· ≠ [])

def trim (text : List Char) : List Char :=
  ((text.dropWhile isWhitespace).reverse.dropWhile isWhitespace).reverse

/-- `split_once`: at the first place where the separator stands. -/
def splitOnce (sep : List Char) : List Char → Option (List Char × List Char)
  | [] => if sep = [] then some ([], []) else none
  | c :: rest =>
      if sep.isPrefixOf (c :: rest) then some ([], (c :: rest).drop sep.length)
      else (splitOnce sep rest).map fun cut => (c :: cut.1, cut.2)

def stripSuffix (tail text : List Char) : Option (List Char) :=
  if tail.isSuffixOf text then some (text.take (text.length - tail.length)) else none

/-- `parse::<u32>`. -/
def parseU32 (text : List Char) : Option Nat :=
  let digits := match text with
    | '+' :: rest => rest
    | _ => text
  if digits ≠ [] ∧ digits.all Char.isDigit ∧ digitsValue digits < 2 ^ 32 then
    some (digitsValue digits)
  else none

/-- Lower case, with one space between two words. -/
def normalize (phrase : String) : List Char :=
  [' '].intercalate (splitWhitespace ((trim phrase.toList).map Char.toLower))

def wordsOf (phrase : String) : List String := (splitWhitespace (normalize phrase)).map String.ofList

/-- `N` of `every N …`; zero is no step. -/
def parseCount (word : String) : Option Nat :=
  match parseU32 word.toList with
  | some n => if n = 0 then none else some n
  | none => none

/-- The hour of a clock of twelve hours, or of twenty-four. -/
def hourOf (meridiem : Option Bool) (hour : Nat) : Option Nat :=
  match meridiem with
  | some isPm =>
      if 1 ≤ hour ∧ hour ≤ 12 then
        some (if isPm ∧ hour ≠ 12 then hour + 12 else if ¬isPm ∧ hour = 12 then 0 else hour)
      else none
  | none => if hour ≤ 23 then some hour else none

/-- The text before `am` or `pm`, and which of them it is. -/
def meridiemOf (text : List Char) : List Char × Option Bool :=
  match stripSuffix ['a', 'm'] text, stripSuffix ['p', 'm'] text with
  | some body, _ => (trim body, some false)
  | none, some body => (trim body, some true)
  | none, none => (text, none)

def parseTime (text : List Char) : Option (Nat × Nat) :=
  let text := trim text
  if text = [] then none
  else do
    let (body, meridiem) := meridiemOf text
    let (hour, minute) := (splitOnce [':'] body).getD (body, ['0'])
    let hour ← parseU32 (trim hour)
    let minute ← parseU32 (trim minute)
    if 59 < minute then none
    else
      let hour ← hourOf meridiem hour
      return (hour, minute)

def weekdayNum (word : String) : Option Nat :=
  if word ∈ ["sun", "sunday"] then some 0
  else if word ∈ ["mon", "monday"] then some 1
  else if word ∈ ["tue", "tues", "tuesday"] then some 2
  else if word ∈ ["wed", "wednesday"] then some 3
  else if word ∈ ["thu", "thur", "thurs", "thursday"] then some 4
  else if word ∈ ["fri", "friday"] then some 5
  else if word ∈ ["sat", "saturday"] then some 6
  else none

/-- A time of day, on the days that the last field names. -/
def atTime (rest : List String) (days : String) : Option String :=
  (parseTime ([' '].intercalate (rest.map String.toList))).map fun time =>
    toString time.2 ++ " " ++ toString time.1 ++ " * * " ++ days

def cronOf (words : List String) : Option String :=
  match words with
  | ["hourly"] => some "0 * * * *"
  | ["daily"] | ["every", "day"] => some "0 0 * * *"
  | ["every", n, "seconds"] => (parseCount n).map fun n => "*/" ++ toString n ++ " * * * * *"
  | ["every", n, "minutes"] => (parseCount n).map fun n => "*/" ++ toString n ++ " * * * *"
  | ["every", n, "hours"] => (parseCount n).map fun n => "0 */" ++ toString n ++ " * * *"
  | ["every", n, "minutes", "on", "weekdays"] =>
      (parseCount n).map fun n => "*/" ++ toString n ++ " * * * 1-5"
  | "daily" :: "at" :: rest | "every" :: "day" :: "at" :: rest => atTime rest "*"
  | "every" :: "weekday" :: "at" :: rest => atTime rest "1-5"
  | "every" :: day :: "at" :: rest => (weekdayNum day).bind fun dow => atTime rest (toString dow)
  | "weekly" :: "on" :: day :: "at" :: rest =>
      (weekdayNum day).bind fun dow => atTime rest (toString dow)
  | _ => none

def toCron (phrase : String) : Except ScheduleError String :=
  match cronOf (wordsOf phrase) with
  | some cron => .ok cron
  | none => .error (.unrecognizedPhrase phrase)

inductive Interval where
  | seconds
  | minutes
  | hours
  deriving DecidableEq

def Interval.word : Interval → String
  | .seconds => "seconds"
  | .minutes => "minutes"
  | .hours => "hours"

def Interval.cron (n : Nat) : Interval → String
  | .seconds => "*/" ++ toString n ++ " * * * * *"
  | .minutes => "*/" ++ toString n ++ " * * * *"
  | .hours => "0 */" ++ toString n ++ " * * *"

theorem cron_of_interval (word : String) (unit : Interval) :
    cronOf ["every", word, unit.word] = (parseCount word).map fun n => unit.cron n := by
  cases unit <;> simp [cronOf, Interval.word, Interval.cron]

example : toCron "  Every 15  MINUTES " = .ok "*/15 * * * *" := by decide

example : toCron "weekly on friday at 5:30 pm" = .ok "30 17 * * 5" := by decide

end FileReplicator.Sugar
