import FileReplicator.WindowEdges

/-!
# Usable windows

What becomes of a window's configuration: an error, a panic, or a schedule, which
then may open or not, and may be evaluated at an instant or not. Instants have a
range, and so has what is added to them.
-/

namespace FileReplicator.UsableWindows

open Scheduling WindowEdges Windows

/-! ## The range of instants -/

/-- `DateTime::<Utc>::MIN_UTC` and `MAX_UTC`, in milliseconds. -/
def Representable (t : Int) : Prop := -8334601228800000 ≤ t ∧ t ≤ 8210266876799999

instance (t : Int) : Decidable (Representable t) := inferInstanceAs (Decidable (_ ∧ _))

/-- `DateTime + Duration`, which panics out of range. -/
def addDuration (t length : Int) : Except Failure Int :=
  if Representable (t + length) then .ok (t + length) else .error .panic

section Evaluation

variable (w : WindowSched)

/-- `window_state`, with the additions it makes; what the search finds can be represented. -/
def checkedState (now : Int) : Except Failure WindowState :=
  match w.close with
  | .cron close => .ok (w.stateFor now close.nextFireInclusive)
  | .duration length =>
      match (w.open_.prevFire now).filter fun fire => decide (Representable fire) with
      | some lastOpen =>
          match addDuration lastOpen length with
          | .ok close =>
              .ok (if now < close then .opened close else .closed (w.nextOpenAtOrAfter now))
          | .error e => .error e
      | none => .ok (.closed (w.nextOpenAtOrAfter now))

/-- `admission` of a window. -/
def checkedAdmission (now : Int) : Except Failure Admission :=
  (checkedState w now).map fun
    | .opened until_ => .windowed until_ w.onClose
    | .closed _ => .none

/-- `next_wake` of a window. -/
def checkedNextWake (now : Int) : Except Failure (Option Int) :=
  (checkedState w now).map fun
    | .opened until_ => some until_
    | .closed opensAt => some opensAt

def Returns {α : Type} (out : Except Failure α) : Prop := ∃ value, out = .ok value

/-- A window that opens again and again, for a while each time, and can always be evaluated. -/
structure Usable : Prop where
  opens : ∀ t, ∃ a b, t ≤ a ∧ a < b ∧ ∀ s, a ≤ s → s < b → isOpen w s = true
  evaluates : ∀ now, Representable now →
    Returns (checkedState w now) ∧ Returns (checkedAdmission w now) ∧
      Returns (checkedNextWake w now)

end Evaluation

def Settled : Except Failure WindowSched → Prop
  | .ok w => Usable w
  | .error (.error _) => True
  | .error .panic => False

structure Searches (expr : CronExpr) (occurs : Int → Prop) : Prop where
  last : FindsLast expr occurs
  first : FindsFirst expr occurs

def PairFits (opens closes : Int → Prop) : Prop :=
  ∀ t, ∃ o c, t ≤ o ∧ opens o ∧ ¬closes o ∧ closes c ∧ o < c

/-- There is an opening after every instant, the length is positive, and no opening comes so late
that its close is out of range. -/
def LengthFits (opens : Int → Prop) (length : Int) : Prop :=
  0 < length ∧ (∀ t, ∃ o, t ≤ o ∧ opens o) ∧
    ∀ o, opens o → Representable o → Representable (o + length)

section Configurations

variable {Tz : Type} (reader : Reader Tz) (occurs : CronExpr → Int → Prop) (builtAt : Int)

/-- If both ends are read and the opening fires, they fit together. -/
def CloseFits (opening closing : Except Failure (CronExpr × String)) : Prop :=
  ∀ o c, opening = .ok o → ensureFires builtAt o = .ok () → closing = .ok c →
    PairFits (occurs o.1) (occurs c.1)

/-- If a configuration is read at all, what it says about a window makes one. -/
def Fits (defaultTz : Option String) (cfg : WindowCfg) : Prop :=
  ∀ tz, resolveTz reader cfg.timezone defaultTz = .ok tz →
    match cfg.close, cfg.durationMins with
    | some _, some _ => True
    | some closeText, none =>
        CloseFits occurs builtAt (parseCronOrSugar reader cfg.opening tz)
          (parseCronOrSugar reader closeText tz)
    | none, some mins =>
        mins ≠ 0 → ∀ o, parseCronOrSugar reader cfg.opening tz = .ok o →
          ensureFires builtAt o = .ok () →
          ∃ length, minutes mins = .ok length ∧ LengthFits (occurs o.1) length
    | none, none =>
        ∀ openCron closeCron, reader.windowBetween cfg.opening = some (openCron, closeCron) →
          CloseFits occurs builtAt (parseCron reader openCron tz) (parseCron reader closeCron tz)

end Configurations

theorem returns_iff (opening : CronExpr) (onClose : Operations.WindowClose) (length now : Int) :
    Returns (checkedState ⟨opening, .duration length, onClose⟩ now) ↔
      ∀ last, opening.prevFire now = some last → Representable last →
        Representable (last + length) := by
  simp only [Returns, checkedState, addDuration]
  cases search : opening.prevFire now with
  | none => simp
  | some last =>
      by_cases inside : Representable last
      · rw [Option.filter_some, if_pos (decide_eq_true inside)]
        by_cases close : Representable (last + length)
        · simp only [if_pos close]
          exact ⟨fun _ _ same _ => by cases same; exact close, fun _ => ⟨_, rfl⟩⟩
        · simp only [if_neg close]
          exact ⟨fun out => (by obtain ⟨_, h⟩ := out; cases h), fun all =>
            absurd (all last rfl inside) close⟩
      · rw [Option.filter_some, if_neg (by simpa using inside)]
        exact ⟨fun _ _ same within => by cases same; exact absurd within inside,
          fun _ => ⟨_, rfl⟩⟩

section Fitting

variable (opening : CronExpr) (opens : Int → Prop) (found : Searches opening opens)
  (onClose : Operations.WindowClose)

include found

theorem usable_pair_iff (closing : CronExpr) (closes : Int → Prop)
    (foundClose : Searches closing closes) :
    Usable ⟨opening, .cron closing, onClose⟩ ↔ PairFits opens closes := by
  have finds : Finds ⟨opening, .cron closing, onClose⟩ opens closes := by
    refine ⟨found.last, found.first, fun expr kind => ?_⟩
    cases kind
    exact foundClose.first
  have again := (timetable ⟨opening, .cron closing, onClose⟩ opens).open_again_iff
    (lasting _ opens closes finds) (has_last _ opens closes finds)
  simp only [← is_open_iff _ opens closes finds] at again
  have pair : PairFits opens closes ↔ ∀ t, ∃ o c, t ≤ o ∧ opens o ∧
      closing.nextFireInclusive o = some c ∧ o < c := by
    refine forall_congr' fun t => exists_congr fun o => ?_
    constructor
    · rintro ⟨c, after, occurs, apart, closed, later⟩
      cases search : closing.nextFireInclusive o with
      | none => exact absurd (foundClose.first.none o search c closed) (by omega)
      | some first =>
          obtain ⟨occursFirst, reached, _⟩ := foundClose.first.found o first search
          refine ⟨first, after, occurs, rfl, lt_of_le_of_ne reached ?_⟩
          rintro rfl
          exact apart occursFirst
    · rintro ⟨c, after, occurs, search, later⟩
      obtain ⟨closed, _, least⟩ := foundClose.first.found o c search
      refine ⟨c, after, occurs, fun atClose => ?_, closed, later⟩
      -- a close at the opening itself would have been the first one
      exact absurd (least o atClose le_rfl) (not_le.mpr later)
  rw [pair]
  -- with a close of its own nothing is added, so evaluation never fails
  constructor
  · intro usable
    exact again.mp usable.opens
  · intro fits
    exact ⟨again.mpr fits, fun now _ => ⟨⟨_, rfl⟩, ⟨_, rfl⟩, ⟨_, rfl⟩⟩⟩

theorem usable_length_iff (length : Int) :
    Usable ⟨opening, .duration length, onClose⟩ ↔ LengthFits opens length := by
  have finds : Finds ⟨opening, .duration length, onClose⟩ opens fun _ => False := by
    refine ⟨found.last, found.first, fun expr kind => ?_⟩
    cases kind
  have again := (timetable ⟨opening, .duration length, onClose⟩ opens).open_again_iff
    (lasting _ opens _ finds) (has_last _ opens _ finds)
  simp only [← is_open_iff _ opens _ finds] at again
  have lengths : (∀ t, ∃ o c, t ≤ o ∧ opens o ∧ some (o + length) = some c ∧ o < c) ↔
      0 < length ∧ ∀ t, ∃ o, t ≤ o ∧ opens o := by
    constructor
    · intro all
      refine ⟨?_, fun t => ?_⟩
      · obtain ⟨o, c, _, _, same, later⟩ := all 0
        cases same
        omega
      · obtain ⟨o, _, after, occurs, _⟩ := all t
        exact ⟨o, after, occurs⟩
    · rintro ⟨positive, all⟩ t
      obtain ⟨o, after, occurs⟩ := all t
      exact ⟨o, _, after, occurs, rfl, by omega⟩
  have evaluated : (∀ now, Representable now →
      Returns (checkedState ⟨opening, .duration length, onClose⟩ now)) ↔
      ∀ o, opens o → Representable o → Representable (o + length) := by
    constructor
    · intro all o occurs inside
      -- evaluated at an opening, the last opening is that one
      have last : opening.prevFire o = some o := by
        cases search : opening.prevFire o with
        | none => exact absurd (found.last.none o search o occurs) (by omega)
        | some fire =>
            obtain ⟨_, before, greatest⟩ := found.last.found o fire search
            exact congrArg some (le_antisymm before (greatest o occurs le_rfl))
      exact (returns_iff opening onClose length o).mp (all o inside) o last inside
    · intro all now _
      refine (returns_iff opening onClose length now).mpr fun fire search inside => ?_
      exact all fire (found.last.found now fire search).1 inside
  constructor
  · intro usable
    obtain ⟨positive, recurs⟩ := lengths.mp (again.mp usable.opens)
    exact ⟨positive, recurs, evaluated.mp fun now inside => (usable.evaluates now inside).1⟩
  · rintro ⟨positive, recurs, inside⟩
    refine ⟨again.mpr (lengths.mpr ⟨positive, recurs⟩), fun now reached => ?_⟩
    obtain ⟨state, ok⟩ := evaluated.mpr inside now reached
    exact ⟨⟨state, ok⟩, ⟨_, by rw [checkedAdmission, ok]; rfl⟩,
      ⟨_, by rw [checkedNextWake, ok]; rfl⟩⟩

end Fitting

/-! ## Outcomes -/

def Refuses {α : Type} (out : Except Failure α) : Prop := out ≠ .error .panic

section Outcomes

variable {Tz : Type} (reader : Reader Tz) (builtAt : Int)

theorem parse_refuses (expr : String) (tz : Tz) : Refuses (parseCron reader expr tz) := by
  unfold Refuses parseCron
  cases reader.parse expr tz <;> simp

theorem sugar_refuses (expr : String) (tz : Tz) : Refuses (parseCronOrSugar reader expr tz) := by
  unfold Refuses parseCronOrSugar
  cases parseCron reader expr tz with
  | ok cron => simp
  | error _ =>
      cases reader.toCron expr with
      | ok translated => exact parse_refuses reader translated tz
      | error e => simp

theorem fires_refuses (cron : CronExpr × String) : Refuses (ensureFires builtAt cron) := by
  unfold Refuses ensureFires
  split <;> simp

theorem settled_refused (e : Failure) (refuses : Refuses (.error e : Except Failure WindowSched)) :
    Settled (.error e) := by
  cases e with
  | error e => trivial
  | panic => exact refuses rfl

theorem settled_bind_iff {α : Type} (out : Except Failure α) (next : α → Except Failure WindowSched)
    (refuses : Refuses out) :
    Settled (out.bind next) ↔ ∀ a, out = .ok a → Settled (next a) := by
  cases out with
  | error e =>
      -- there is nothing to go on with, and an error is a settled outcome
      refine iff_of_true (settled_refused e ?_) fun a read => by cases read
      exact fun same => refuses (by cases same; rfl)
  | ok a =>
      constructor
      · intro settled a' same
        cases same
        exact settled
      · intro all
        exact all a rfl

theorem settled_close_iff (occurs : CronExpr → Int → Prop)
    (opening closing : Except Failure (CronExpr × String)) (onClose : Operations.WindowClose)
    (refusesOpening : Refuses opening) (refusesClosing : Refuses closing)
    (found : ∀ o, opening = .ok o → Searches o.1 (occurs o.1))
    (foundClose : ∀ c, closing = .ok c → Searches c.1 (occurs c.1)) :
    Settled (opening.bind fun o => (ensureFires builtAt o).bind fun _ => closing.bind fun c =>
      .ok ⟨o.1, .cron c.1, onClose⟩) ↔ CloseFits occurs builtAt opening closing := by
  rw [settled_bind_iff opening _ refusesOpening]
  constructor
  · intro all o c read fired readClose
    have inner := (settled_bind_iff _ _ (fires_refuses builtAt o)).mp (all o read) () fired
    have usable := (settled_bind_iff closing _ refusesClosing).mp inner c readClose
    exact (usable_pair_iff o.1 (occurs o.1) (found o read) onClose c.1 (occurs c.1)
      (foundClose c readClose)).mp usable
  · intro fits o read
    refine (settled_bind_iff _ _ (fires_refuses builtAt o)).mpr fun _ fired => ?_
    refine (settled_bind_iff closing _ refusesClosing).mpr fun c readClose => ?_
    exact (usable_pair_iff o.1 (occurs o.1) (found o read) onClose c.1 (occurs c.1)
      (foundClose c readClose)).mpr (fits o c read fired readClose)

theorem settled_length_iff (occurs : CronExpr → Int → Prop)
    (opening : Except Failure (CronExpr × String)) (mins : Nat) (onClose : Operations.WindowClose)
    (refusesOpening : Refuses opening)
    (found : ∀ o, opening = .ok o → Searches o.1 (occurs o.1)) :
    Settled (opening.bind fun o => (ensureFires builtAt o).bind fun _ => (minutes mins).bind
      fun length => .ok ⟨o.1, .duration length, onClose⟩) ↔
      ∀ o, opening = .ok o → ensureFires builtAt o = .ok () →
        ∃ length, minutes mins = .ok length ∧ LengthFits (occurs o.1) length := by
  rw [settled_bind_iff opening _ refusesOpening]
  refine forall_congr' fun o => forall_congr' fun read => ?_
  rw [settled_bind_iff _ _ (fires_refuses builtAt o)]
  have measured : Settled ((minutes mins).bind fun length => .ok ⟨o.1, .duration length, onClose⟩) ↔
      ∃ length, minutes mins = .ok length ∧ LengthFits (occurs o.1) length := by
    cases length : minutes mins with
    | error e =>
        -- a length out of range is no error but a panic
        have panics : e = .panic := by
          unfold minutes at length
          split at length
          · cases length
          · cases length
            rfl
        subst panics
        simp [Except.bind, Settled]
    | ok span =>
        simp only [Except.bind, Settled, Except.ok.injEq, exists_eq_left']
        exact usable_length_iff o.1 (occurs o.1) (found o read) onClose span
  rw [measured]
  exact ⟨fun all fired => all () fired, fun all _ fired => all fired⟩

theorem parse_found (occurs : CronExpr → Int → Prop)
    (found : ∀ text tz expr, reader.parse text tz = some expr → Searches expr (occurs expr))
    (expr : String) (tz : Tz) (o : CronExpr × String) (read : parseCron reader expr tz = .ok o) :
    Searches o.1 (occurs o.1) := by
  unfold parseCron at read
  cases parsed : reader.parse expr tz with
  | some cron =>
      rw [parsed] at read
      cases read
      exact found expr tz cron parsed
  | none =>
      rw [parsed] at read
      cases read

theorem sugar_found (occurs : CronExpr → Int → Prop)
    (found : ∀ text tz expr, reader.parse text tz = some expr → Searches expr (occurs expr))
    (expr : String) (tz : Tz) (o : CronExpr × String)
    (read : parseCronOrSugar reader expr tz = .ok o) : Searches o.1 (occurs o.1) := by
  unfold parseCronOrSugar at read
  cases parsed : parseCron reader expr tz with
  | ok cron =>
      rw [parsed] at read
      cases read
      exact parse_found reader occurs found expr tz o parsed
  | error _ =>
      rw [parsed] at read
      cases translated : reader.toCron expr with
      | ok cron =>
          rw [translated] at read
          exact parse_found reader occurs found cron tz o read
      | error e =>
          rw [translated] at read
          cases read

/-- A configuration becomes an error or a usable window exactly if its ends, or its length, fit. -/
theorem settled_iff_fits (occurs : CronExpr → Int → Prop)
    (found : ∀ text tz expr, reader.parse text tz = some expr → Searches expr (occurs expr))
    (defaultTz : Option String) (cfg : WindowCfg) :
    Settled (windowFromCfg reader builtAt defaultTz cfg) ↔
      Fits reader occurs builtAt defaultTz cfg := by
  have zone : Refuses (resolveTz reader cfg.timezone defaultTz) := by
    unfold Refuses resolveTz
    simp only
    split <;> simp
  unfold windowFromCfg Fits
  simp only [bind, pure, Except.pure]
  rw [settled_bind_iff _ _ zone]
  refine forall_congr' fun tz => forall_congr' fun _ => ?_
  cases cfg.close with
  | some closeText =>
      cases cfg.durationMins with
      | some mins => exact iff_of_true trivial trivial  -- a close and a length: an error
      | none =>
          exact settled_close_iff builtAt occurs _ _ cfg.onWindowClose
            (sugar_refuses reader cfg.opening tz) (sugar_refuses reader closeText tz)
            (sugar_found reader occurs found cfg.opening tz)
            (sugar_found reader occurs found closeText tz)
  | none =>
      cases cfg.durationMins with
      | some mins =>
          by_cases zero : mins = 0  -- the length is measured only if it is not zero
          · subst zero
            exact iff_of_true trivial fun some => absurd rfl some
          · have read := settled_length_iff builtAt occurs (parseCronOrSugar reader cfg.opening tz)
              mins cfg.onWindowClose (sugar_refuses reader cfg.opening tz)
              (sugar_found reader occurs found cfg.opening tz)
            simp only [if_neg zero]
            exact read.trans ⟨fun all _ => all, fun all => all zero⟩
      | none =>
          cases between : reader.windowBetween cfg.opening with
          | none => exact iff_of_true trivial fun _ _ none => by cases none
          | some ends =>
              obtain ⟨openCron, closeCron⟩ := ends
              have read := settled_close_iff builtAt occurs (parseCron reader openCron tz)
                (parseCron reader closeCron tz) cfg.onWindowClose (parse_refuses reader openCron tz)
                (parse_refuses reader closeCron tz) (parse_found reader occurs found openCron tz)
                (parse_found reader occurs found closeCron tz)
              refine read.trans ⟨fun fits o c same => ?_, fun all => all openCron closeCron rfl⟩
              cases same
              exact fits

end Outcomes

theorem hourly_searches (text : String) (tz : Unit) (expr : CronExpr)
    (parsed : hourlyReader.parse text tz = some expr) : Searches expr CronFires.onTheHour := by
  simp only [hourlyReader] at parsed
  split at parsed
  · cases parsed
    exact ⟨CronFires.hourly_finds, hourly_first⟩
  · cases parsed

/-- Half an hour of every hour. -/
theorem settled_half_hour :
    Settled (windowFromCfg hourlyReader 0 none
      ⟨"0 * * * *", none, some 30, none, .pauseResume⟩) := by
  refine (settled_iff_fits hourlyReader 0 (fun _ => CronFires.onTheHour) hourly_searches none
    ⟨"0 * * * *", none, some 30, none, .pauseResume⟩).mpr fun tz _ => ?_
  intro _ o read _
  refine ⟨1800000, rfl, by decide, fun t => ⟨t / 3600000 * 3600000 + 3600000, ?_⟩, ?_⟩
  · unfold CronFires.onTheHour CronFires.hour
    omega
  · intro o occurs inside
    unfold CronFires.onTheHour CronFires.hour at occurs
    unfold Representable at *
    omega

/-- From nine to nine: the window is accepted, and is never open. -/
theorem same_ends_never_open : ¬ ∀ (reader : Reader Unit) (builtAt : Int)
    (occurs : CronExpr → Int → Prop),
    (∀ text tz expr, reader.parse text tz = some expr → Searches expr (occurs expr)) →
    ∀ (defaultTz : Option String) (cfg : WindowCfg),
      Settled (windowFromCfg reader builtAt defaultTz cfg) := by
  intro all
  have settled : Usable ⟨CronFires.hourly, .cron CronFires.hourly, .pauseResume⟩ :=
    all hourlyReader 0 (fun _ => CronFires.onTheHour) hourly_searches none
      ⟨"0 * * * *", some "0 * * * *", none, none, .pauseResume⟩
  have found : Searches CronFires.hourly CronFires.onTheHour :=
    ⟨CronFires.hourly_finds, hourly_first⟩
  obtain ⟨o, _, _, opens, apart, _⟩ :=
    (usable_pair_iff _ _ found .pauseResume _ _ found).mp settled 0
  exact apart opens

/-- A length of some billions of years is no error. -/
example : windowFromCfg hourlyReader 0 none
    ⟨"0 * * * *", none, some 4000000000000000, none, .pauseResume⟩ = .error .panic := rfl

end FileReplicator.UsableWindows
