import FileReplicator.CronFires
import FileReplicator.Retry
import FileReplicator.Windows

/-!
# Edges of a window

When the run loop is to wake for a window: its close while it is open, its next
opening while it is closed. Until then nothing changes; whether anything changes
then depends on the schedule.
-/

namespace FileReplicator.WindowEdges

open Scheduling Windows

/-! ## Building a window schedule -/

inductive ScheduleError where
  | invalidCron (expr : String)
  | invalidTimezone (name : String)
  | unrecognizedPhrase (phrase : String)
  | ambiguousWindowClose
  | invalidDuration
  | neverFires (expr : String)
  deriving DecidableEq

inductive Failure where
  | error (e : ScheduleError)
  | panic
  deriving DecidableEq

/-- What the texts of a configuration are read with: timezones, cron expressions and the phrases
that stand for them. -/
structure Reader (Tz : Type) where
  tz : String → Option Tz
  parse : String → Tz → Option CronExpr
  toCron : String → Except ScheduleError String
  windowBetween : String → Option (String × String)
  /-- `as_str` of a parsed expression. -/
  trimmed : String → String

/-- `WindowSchedule`. -/
structure WindowCfg where
  opening : String
  close : Option String
  durationMins : Option Nat
  timezone : Option String
  onWindowClose : Operations.WindowClose

section FromCfg

variable {Tz : Type} (reader : Reader Tz) (builtAt : Int)

def resolveTz (explicit defaultTz : Option String) : Except Failure Tz :=
  let raw := (explicit.or defaultTz).getD "UTC"
  match reader.tz raw with
  | some tz => .ok tz
  | none => .error (.error (.invalidTimezone raw))

/-- `CronExpr::parse`, with its text. -/
def parseCron (expr : String) (tz : Tz) : Except Failure (CronExpr × String) :=
  match reader.parse expr tz with
  | some cron => .ok (cron, reader.trimmed expr)
  | none => .error (.error (.invalidCron expr))

def parseCronOrSugar (expr : String) (tz : Tz) : Except Failure (CronExpr × String) :=
  match parseCron reader expr tz with
  | .ok cron => .ok cron
  | .error _ =>
      match reader.toCron expr with
      | .ok translated => parseCron reader translated tz
      | .error e => .error (.error e)

/-- `ensure_fires`, at the time of the build. -/
def ensureFires (cron : CronExpr × String) : Except Failure Unit :=
  if (cron.1.nextFire builtAt).isNone then .error (.error (.neverFires cron.2)) else .ok ()

/-- `Duration::minutes(mins as i64)`, in milliseconds; it panics out of its range. -/
def minutes (mins : Nat) : Except Failure Int :=
  if (Retry.asI64 mins * 60).natAbs ≤ 9223372036854775 then .ok (Retry.asI64 mins * 60000)
  else .error .panic

def windowFromCfg (defaultTz : Option String) (cfg : WindowCfg) : Except Failure WindowSched := do
  let tz ← resolveTz reader cfg.timezone defaultTz
  match cfg.close, cfg.durationMins with
  | some _, some _ => .error (.error .ambiguousWindowClose)
  | some closeText, none => do
      let opening ← parseCronOrSugar reader cfg.opening tz
      ensureFires builtAt opening
      let close ← parseCronOrSugar reader closeText tz
      return ⟨opening.1, .cron close.1, cfg.onWindowClose⟩
  | none, some mins => do
      if mins = 0 then throw (.error .invalidDuration)
      let opening ← parseCronOrSugar reader cfg.opening tz
      ensureFires builtAt opening
      let length ← minutes mins
      return ⟨opening.1, .duration length, cfg.onWindowClose⟩
  | none, none =>
      match reader.windowBetween cfg.opening with
      | some (openCron, closeCron) => do
          let opening ← parseCron reader openCron tz
          ensureFires builtAt opening
          let close ← parseCron reader closeCron tz
          return ⟨opening.1, .cron close.1, cfg.onWindowClose⟩
      | none => .error (.error .ambiguousWindowClose)

end FromCfg

def nextWake (schedule : Schedule) (now : Int) : Option Int :=
  match schedule with
  | .immediate => none
  | .cron expr => expr.nextFire now
  | .window w =>
      some (match w.windowState now with
        | .opened until_ => until_
        | .closed opensAt => opensAt)

def isOpen (w : WindowSched) (now : Int) : Bool :=
  match w.windowState now with
  | .opened _ => true
  | .closed _ => false

structure FindsFirst (expr : CronExpr) (occurs : Int → Prop) : Prop where
  found : ∀ now fire, expr.nextFireInclusive now = some fire →
    occurs fire ∧ now ≤ fire ∧ ∀ other, occurs other → now ≤ other → fire ≤ other
  none : ∀ now, expr.nextFireInclusive now = none → ∀ other, occurs other → other < now

structure Finds (w : WindowSched) (opens closes : Int → Prop) : Prop where
  last : FindsLast w.open_ opens
  first : FindsFirst w.open_ opens
  close : ∀ expr, w.close = .cron expr → FindsFirst expr closes

/-! ## The timetable of a schedule -/

def closeAfter (w : WindowSched) (lastOpen : Int) : Option Int :=
  match w.close with
  | .cron close => close.nextFireInclusive lastOpen
  | .duration length => some (lastOpen + length)

def timetable (w : WindowSched) (opens : Int → Prop) : Timetable Int := ⟨opens, closeAfter w⟩

section Searches

variable (w : WindowSched) (opens closes : Int → Prop) (finds : Finds w opens closes)

theorem window_state_eq (now : Int) : w.windowState now = w.stateFor now (closeAfter w) := by
  unfold WindowSched.windowState closeAfter
  cases w.close <;> rfl

theorem closed_at (now opensAt : Int) (state : w.windowState now = .closed opensAt) :
    opensAt = w.nextOpenAtOrAfter now := by
  rw [window_state_eq, WindowSched.stateFor] at state
  split at state
  · cases state
  · cases state
    rfl

include finds

theorem last_iff (now o : Int) : (timetable w opens).Last now o ↔ w.open_.prevFire now = some o := by
  constructor
  · intro last
    cases found : w.open_.prevFire now with
    | none => exact absurd last.1.2 (not_le.mpr (finds.last.none now found o last.1.1))
    | some fire =>
        obtain ⟨occurs, before, greatest⟩ := finds.last.found now fire found
        exact congrArg some (le_antisymm (last.2 ⟨occurs, before⟩) (greatest o last.1.1 last.1.2))
  · intro found
    obtain ⟨occurs, before, greatest⟩ := finds.last.found now o found
    exact ⟨⟨occurs, before⟩, fun other member => greatest other member.1 member.2⟩

theorem has_last : (timetable w opens).HasLast := by
  intro now o occurs before
  cases found : w.open_.prevFire now with
  | none => exact absurd before (not_le.mpr (finds.last.none now found o occurs))
  | some last => exact ⟨last, (last_iff w opens closes finds now last).mpr found⟩

theorem opened_iff (now c : Int) :
    w.windowState now = .opened c ↔
      ∃ o, (timetable w opens).Last now o ∧ closeAfter w o = some c ∧ now < c := by
  rw [window_state_eq, WindowSched.stateFor]
  constructor
  · intro opened
    split at opened
    · rename_i close filtered
      cases opened
      obtain ⟨bound, before⟩ := Option.filter_eq_some_iff.mp filtered
      obtain ⟨o, last, close⟩ := Option.bind_eq_some_iff.mp bound
      exact ⟨o, (last_iff w opens closes finds now o).mpr last, close, of_decide_eq_true before⟩
    · cases opened
  · rintro ⟨o, last, close, before⟩
    rw [(last_iff w opens closes finds now o).mp last, Option.bind_some, close, Option.filter_some,
      if_pos (decide_eq_true before)]

theorem is_open_iff (now : Int) : isOpen w now = true ↔ (timetable w opens).OpenAt now := by
  rw [isOpen]
  constructor
  · intro opened
    split at opened
    · rename_i c state
      obtain ⟨o, last, close, before⟩ := (opened_iff w opens closes finds now c).mp state
      exact ⟨o, c, last, close, before⟩
    · cases opened
  · rintro ⟨o, c, last, close, before⟩
    rw [(opened_iff w opens closes finds now c).mpr ⟨o, last, close, before⟩]

/-- The close of a later opening inside of a span is not before the end of the span. -/
theorem lasting : (timetable w opens).Lasting := by
  intro o o' c order close inside
  unfold timetable closeAfter at *
  cases kind : w.close with
  | cron expr =>
      rw [kind] at close
      have search := finds.close expr kind
      obtain ⟨occurs, _, least⟩ := search.found o c close
      -- the close of the earlier opening is a close after the later one too
      cases found : expr.nextFireInclusive o' with
      | none => exact absurd (search.none o' found c occurs) (not_lt.mpr (le_of_lt inside))
      | some c' =>
          obtain ⟨occurs', after, _⟩ := search.found o' c' found
          exact ⟨c', found, least c' occurs' (le_trans order after)⟩
  | duration length =>
      rw [kind] at close
      cases close
      exact ⟨o' + length, rfl, by omega⟩

theorem next_open (now : Int) :
    (∃ fire, (timetable w opens).Next now fire ∧ w.nextOpenAtOrAfter now = fire) ∨
      (∀ o, opens o → o < now) ∧ w.nextOpenAtOrAfter now = now := by
  rw [WindowSched.nextOpenAtOrAfter]
  cases found : w.open_.nextFireInclusive now with
  | none => exact Or.inr ⟨finds.first.none now found, rfl⟩
  | some fire =>
      obtain ⟨occurs, after, least⟩ := finds.first.found now fire found
      exact Or.inl ⟨fire, ⟨⟨occurs, after⟩, fun other member => least other member.1 member.2⟩, rfl⟩

/-- Between an instant and the wake computed for it, a window neither opens nor closes. -/
theorem constant_until_wake (now wake : Int) (wakes : nextWake (.window w) now = some wake) :
    (∀ t, now ≤ t → t < wake → isOpen w t = isOpen w now) ∧
      (∀ until_, w.windowState now = .opened until_ → ∀ t, now ≤ t → isOpen w t = false → until_ ≤ t) ∧
      ∀ opensAt, w.windowState now = .closed opensAt →
        ∀ t, now ≤ t → isOpen w t = true → opensAt ≤ t := by
  have stays : ∀ until_, w.windowState now = .opened until_ →
      ∀ t, now ≤ t → t < until_ → isOpen w t = true := by
    intro until_ state t reached before
    obtain ⟨o, last, close, _⟩ := (opened_iff w opens closes finds now until_).mp state
    rw [is_open_iff w opens closes finds]
    exact (timetable w opens).open_until (lasting w opens closes finds)
      (has_last w opens closes finds) now t o until_ last close reached before
  have sleeps : ∀ opensAt, w.windowState now = .closed opensAt →
      ∀ t, now ≤ t → t < opensAt → isOpen w t = false := by
    intro opensAt state t reached before
    have shut : ¬(timetable w opens).OpenAt now := by
      rw [← is_open_iff w opens closes finds, isOpen, state]
      exact Bool.false_ne_true
    rw [closed_at w now opensAt state] at before
    rw [← Bool.not_eq_true, is_open_iff w opens closes finds]
    refine (timetable w opens).closed_until now t shut reached fun o occurs after => ?_
    rcases next_open w opens closes finds now with ⟨fire, next, same⟩ | ⟨none, _⟩
    · exact lt_of_lt_of_le (same ▸ before) (next.2 ⟨occurs, after⟩)
    · exact absurd (none o occurs) (not_lt.mpr after)
  -- both ends of the span bound what the other state may do
  refine ⟨fun t reached before => ?_, fun until_ state t reached shut => ?_,
    fun opensAt state t reached opened => ?_⟩
  · cases state : w.windowState now with
    | opened until_ =>
        rw [nextWake, state] at wakes
        cases wakes
        rw [stays until_ state t reached before, isOpen, state]
    | closed opensAt =>
        rw [nextWake, state] at wakes
        cases wakes
        rw [sleeps opensAt state t reached before, isOpen, state]
  · by_contra early
    rw [stays until_ state t reached (not_le.mp early)] at shut
    cases shut
  · by_contra early
    rw [sleeps opensAt state t reached (not_le.mp early)] at opened
    cases opened

/-! ## Edges -/

omit finds in
theorem wake_opened (now until_ : Int) (state : w.windowState now = .opened until_) :
    nextWake (.window w) now = some until_ := by
  rw [nextWake, state]

omit finds in
theorem wake_closed (now opensAt : Int) (state : w.windowState now = .closed opensAt) :
    nextWake (.window w) now = some opensAt := by
  rw [nextWake, state]

/-- The wake is later, and finds the window the other way round. -/
def IsEdge (now : Int) : Prop :=
  ∃ wake, nextWake (.window w) now = some wake ∧ now < wake ∧ isOpen w wake = !isOpen w now

/-- An opening lies ahead, and it is the next one. -/
def OpensLater (now fire : Int) : Prop := (timetable w opens).Next now fire ∧ now < fire

/-- What makes the wake an edge: with a close of its own the window is open, or its next opening is
not now and not at a close, and a close follows. With a length, no opening follows inside of the
open span or at its end; and while it is closed the next opening is not now, and the length is
positive. -/
def HasEdge (now : Int) : Prop :=
  match w.close with
  | .cron _ =>
      (timetable w opens).OpenAt now ∨
        ∃ fire, OpensLater w opens now fire ∧ ¬closes fire ∧ ∃ close, closes close ∧ fire < close
  | .duration length =>
      ((timetable w opens).OpenAt now ∧
          ∀ last, (timetable w opens).Last now last → ∀ o, opens o → last < o → last + length < o) ∨
        ¬(timetable w opens).OpenAt now ∧ 0 < length ∧ ∃ fire, OpensLater w opens now fire

omit finds in
theorem edge_of_open (now until_ : Int) (state : w.windowState now = .opened until_)
    (ahead : now < until_) : IsEdge w now ↔ isOpen w until_ = false := by
  have opened : isOpen w now = true := by rw [isOpen, state]
  constructor
  · rintro ⟨wake, wakes, _, other⟩
    rw [wake_opened w now until_ state] at wakes
    cases wakes
    rw [other, opened]
    rfl
  · intro shut
    exact ⟨until_, wake_opened w now until_ state, ahead, by rw [shut, opened]; rfl⟩

/-- While the window is closed, its wake is an edge if it opens later and stays open then. -/
theorem edge_of_closed (now : Int) (shut : isOpen w now = false) :
    IsEdge w now ↔ ∃ fire, OpensLater w opens now fire ∧
      ∃ close, closeAfter w fire = some close ∧ fire < close := by
  obtain ⟨opensAt, state⟩ : ∃ opensAt, w.windowState now = .closed opensAt := by
    cases state : w.windowState now with
    | opened until_ =>
        rw [isOpen, state] at shut
        cases shut
    | closed opensAt => exact ⟨opensAt, rfl⟩
  have wake := wake_closed w now opensAt state
  have at_open : ∀ fire, (timetable w opens).Next now fire →
      (isOpen w fire = true ↔ ∃ close, closeAfter w fire = some close ∧ fire < close) := by
    intro fire next
    have last := (timetable w opens).last_of_next now fire next
    rw [is_open_iff w opens closes finds]
    constructor
    · rintro ⟨o, close, last', closes', before⟩
      rw [(timetable w opens).last_unique fire fire o last last']
      rw [← (timetable w opens).last_unique fire fire o last last'] at closes' ⊢
      exact ⟨close, closes', before⟩
    · rintro ⟨close, closes', before⟩
      exact ⟨fire, close, last, closes', before⟩
  constructor
  · rintro ⟨w', wakes, later, other⟩
    rw [wake] at wakes
    cases wakes
    rw [shut] at other
    rcases next_open w opens closes finds now with ⟨fire, next, same⟩ | ⟨_, same⟩
    · rw [← closed_at w now opensAt state] at same
      subst same
      exact ⟨_, ⟨next, later⟩, (at_open _ next).mp other⟩
    · rw [← closed_at w now opensAt state] at same
      exact absurd later (by omega)
  · rintro ⟨fire, ⟨next, later⟩, stays⟩
    rcases next_open w opens closes finds now with ⟨fire', next', same⟩ | ⟨none, _⟩
    · rw [← closed_at w now opensAt state] at same
      have unique : fire = fire' := next.unique next'
      subst unique
      subst same
      exact ⟨_, wake, later, by rw [(at_open _ next).mpr stays, shut]; rfl⟩
    · exact absurd (none fire next.1.1) (not_lt.mpr next.1.2)

theorem cron_shut (expr : CronExpr) (kind : w.close = .cron expr) (now c : Int)
    (state : w.windowState now = .opened c) : isOpen w c = false := by
  obtain ⟨o, last, close, before⟩ := (opened_iff w opens closes finds now c).mp state
  have search := finds.close expr kind
  rw [closeAfter, kind] at close
  obtain ⟨occurs, _, _⟩ := search.found o c close
  rw [← Bool.not_eq_true, is_open_iff w opens closes finds]
  rintro ⟨o', c', last', close', later⟩
  simp only [timetable, closeAfter, kind] at close'
  obtain ⟨_, _, least⟩ := search.found o' c' close'
  exact absurd (least c occurs last'.1.2) (not_le.mpr later)

theorem duration_shut_iff (length : Int) (kind : w.close = .duration length) (o : Int) :
    isOpen w (o + length) = false ↔ ∀ o', opens o' → o < o' → o + length < o' := by
  rw [← Bool.not_eq_true, is_open_iff w opens closes finds]
  constructor
  · intro shut o' occurs after
    by_contra inside
    obtain ⟨later, last'⟩ := has_last w opens closes finds (o + length) o' occurs (not_lt.mp inside)
    have order : o' ≤ later := last'.2 ⟨occurs, not_lt.mp inside⟩
    refine shut ⟨later, later + length, last', ?_, by omega⟩
    simp only [timetable, closeAfter, kind]
  · rintro none ⟨o', c', last', close', later⟩
    simp only [timetable, closeAfter, kind, Option.some.injEq] at close'
    have bound : o + length < o' := none o' last'.1.1 (by omega)
    exact absurd last'.1.2 (not_le.mpr bound)

/-- A wake is an edge of the window exactly under this condition on its openings and closes. -/
theorem wakes_at_edges_iff (now : Int) : IsEdge w now ↔ HasEdge w opens closes now := by
  unfold HasEdge
  cases state : w.windowState now with
  | opened c =>
      have opened : (timetable w opens).OpenAt now := by
        rw [← is_open_iff w opens closes finds, isOpen, state]
      obtain ⟨o, last, close, before⟩ := (opened_iff w opens closes finds now c).mp state
      rw [edge_of_open w now c state before]
      cases kind : w.close with
      | cron expr =>
          -- a close cron closes at its own occurrence, whatever opens inside of the span
          exact iff_of_true (cron_shut w opens closes finds expr kind now c state) (Or.inl opened)
      | duration length =>
          rw [closeAfter, kind] at close
          cases close
          -- a window of a length stays open where an opening inside of it has a later end
          rw [duration_shut_iff w opens closes finds length kind o]
          constructor
          · intro none
            refine Or.inl ⟨opened, fun last' isLast => ?_⟩
            rw [(timetable w opens).last_unique now last' o isLast last]
            exact none
          · rintro (⟨_, none⟩ | ⟨shut, _⟩)
            · exact none o last
            · exact absurd opened shut
  | closed opensAt =>
      have shut : isOpen w now = false := by rw [isOpen, state]
      have closed : ¬(timetable w opens).OpenAt now := by
        rw [← is_open_iff w opens closes finds, shut]
        exact Bool.false_ne_true
      rw [edge_of_closed w opens closes finds now shut]
      cases kind : w.close with
      | cron expr =>
          have search := finds.close expr kind
          simp only [closed, false_or]
          refine exists_congr fun fire => and_congr_right fun _ => ?_
          simp only [closeAfter, kind]
          constructor
          · rintro ⟨close, found, later⟩
            obtain ⟨occurs, _, least⟩ := search.found fire close found
            refine ⟨fun atClose => ?_, close, occurs, later⟩
            exact absurd (least fire atClose le_rfl) (not_le.mpr later)
          · rintro ⟨apart, close, occurs, later⟩
            cases found : expr.nextFireInclusive fire with
            | none => exact absurd (search.none fire found close occurs) (by omega)
            | some first =>
                obtain ⟨occurs', after, _⟩ := search.found fire first found
                refine ⟨first, rfl, lt_of_le_of_ne after ?_⟩
                rintro rfl
                exact apart occurs'
      | duration length =>
          simp only [closed, false_and, false_or, not_false_eq_true, true_and, closeAfter, kind,
            Option.some.injEq]
          constructor
          · rintro ⟨fire, later, close, rfl, positive⟩
            exact ⟨by omega, fire, later⟩
          · rintro ⟨positive, fire, later⟩
            exact ⟨fire, later, fire + length, rfl, by omega⟩

end Searches

/-! ## Hourly windows -/

def hourlyFor (length : Int) : WindowSched :=
  ⟨CronFires.hourly, .duration length, .pauseResume⟩

theorem hourly_first : FindsFirst CronFires.hourly CronFires.onTheHour := by
  constructor
  · intro now fire found
    simp only [CronFires.hourly, Option.some.injEq] at found
    unfold CronFires.onTheHour
    by_cases whole : now % CronFires.hour = 0
    · rw [if_pos whole] at found
      unfold CronFires.hour at *
      exact ⟨by omega, by omega, fun other _ after => by omega⟩
    · rw [if_neg whole] at found
      unfold CronFires.hour at *
      exact ⟨by omega, by omega, fun other occurs after => by omega⟩
  · intro now missing
    cases missing

theorem hourly_finds (length : Int) :
    Finds (hourlyFor length) CronFires.onTheHour fun _ => False := by
  refine ⟨CronFires.hourly_finds, hourly_first, fun expr kind => ?_⟩
  cases kind

theorem constant_half_hour :
    isOpen (hourlyFor 1800000) 1799000 = isOpen (hourlyFor 1800000) 0 :=
  (constant_until_wake (hourlyFor 1800000) CronFires.onTheHour (fun _ => False)
    (hourly_finds 1800000) 0 1800000 (by decide)).1 1799000 (by decide) (by decide)

theorem half_hour_edge : IsEdge (hourlyFor 1800000) 0 := by
  have finds := hourly_finds 1800000
  refine (wakes_at_edges_iff (hourlyFor 1800000) CronFires.onTheHour (fun _ => False) finds 0).mpr
    (Or.inl ⟨(is_open_iff _ _ _ finds 0).mp (by decide), fun last isLast o occurs after => ?_⟩)
  have found := (last_iff _ _ _ finds 0 last).mp isLast
  have zero : last = 0 := by
    simp only [hourlyFor, CronFires.hourly, Option.some.injEq] at found
    exact found.symm
  simp only [CronFires.onTheHour, CronFires.hour] at occurs
  omega

/-- A configuration is read with one expression only. -/
def hourlyReader : Reader Unit where
  tz := fun _ => some ()
  parse := fun expr _ => if expr = "0 * * * *" then some CronFires.hourly else none
  toCron := fun phrase => .error (.unrecognizedPhrase phrase)
  windowBetween := fun _ => none
  trimmed := fun expr => expr

/-- Every hour for ninety minutes: the window is open again before it closes. -/
theorem wake_without_edge :
    ¬∀ (reader : Reader Unit) (builtAt : Int) (cfg : WindowCfg) (w : WindowSched)
      (opens closes : Int → Prop), windowFromCfg reader builtAt none cfg = .ok w →
      Finds w opens closes → ∀ now, IsEdge w now := by
  intro edges
  obtain ⟨wake, wakes, _, other⟩ := edges hourlyReader 0
    ⟨"0 * * * *", none, some 90, none, .pauseResume⟩ (hourlyFor 5400000) CronFires.onTheHour
    (fun _ => False) rfl (hourly_finds 5400000) 0
  have close : nextWake (.window (hourlyFor 5400000)) 0 = some 5400000 := by decide
  rw [close] at wakes
  cases wakes
  exact absurd other (by decide)

end FileReplicator.WindowEdges
