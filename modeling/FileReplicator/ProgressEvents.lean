import FileReplicator.Rounding
import FileReplicator.Spacing

/-!
# Progress events

The bytes an attempt reports go through two filters in a row: the sink forwards the
first report, the terminal ones and one every few MiB, and the throttle of the drainer
decides which of these become events. The two run concurrently with a channel between
them, so the drainer may be any number of reports behind.
-/

namespace FileReplicator.ProgressEvents

open DurationText LenientNumbers Retry Rounding Spacing

/-! ## Percent -/

/-- `n as f64` for an `i32`. -/
def i32AsF64 (n : Int) : Float64 := nearest (n < 0) n.natAbs 1

def percentInt (done size : Nat) : Int :=
  if size = 0 then (if done = 0 then 0 else 100)
  else max 0 (min (roundAsI32 ((div (asF64 done) (asF64 size)).mulNat 100)) 100)

theorem percent_int_range (done size : Nat) :
    0 ≤ percentInt done size ∧ percentInt done size ≤ 100 := by
  unfold percentInt
  split
  · split <;> omega
  · omega

theorem i32_as_f64_value (percent : Int) (low : 0 ≤ percent) (high : percent ≤ 100) :
    doubleValue (i32AsF64 percent) = percent := by
  obtain ⟨n, rfl⟩ := Int.eq_ofNat_of_zero_le low
  have small : (n : ℚ) ≤ 2 ^ (1000 : Int) :=
    (cast_le_power (by omega : n ≤ 2 ^ 7)).trans (power_le (by omega))
  have holds := double_value_of_holds (as_f64_holds n small)
  rw [nearest_value_whole n (by omega)] at holds
  have sign : decide ((n : Int) < 0) = false := decide_eq_false (by omega)
  rw [i32AsF64, sign, Int.natAbs_natCast]
  exact_mod_cast holds

/-- The share of `done` bytes, rounded as the machine rounds it. -/
def share (done size : Nat) : ℚ := nearestValue (nearestValue done / nearestValue size)

theorem bytes_small (n : Nat) (fits : n ≤ maxU64) : (n : ℚ) ≤ 2 ^ (64 : Int) := by
  unfold maxU64 at fits
  exact cast_le_power (by omega : n ≤ 2 ^ 64)

theorem nearest_power (exponent : Int) (least : -1074 ≤ exponent) :
    nearestValue (2 ^ exponent) = 2 ^ exponent := by
  have exact := nearest_value_exact 1 exponent (by omega) least
  rwa [Nat.cast_one, one_mul] at exact

theorem nearest_bytes_le (n : Nat) (fits : n ≤ maxU64) : nearestValue n ≤ 2 ^ (64 : Int) := by
  rw [← nearest_power 64 (by omega)]
  exact nearest_value_mono (Nat.cast_nonneg n) (bytes_small n fits)

theorem one_le_nearest (size : Nat) (size_pos : 0 < size) : 1 ≤ nearestValue size := by
  have one := nearest_value_whole 1 (by omega)
  rw [Nat.cast_one] at one
  rw [← one]
  exact nearest_value_mono zero_le_one (by exact_mod_cast size_pos)

theorem share_mono (a b size : Nat) (size_pos : 0 < size) (order : a ≤ b) :
    share a size ≤ share b size := by
  have least := one_le_nearest size size_pos
  refine nearest_value_mono (div_nonneg (nearest_value_nonneg _) (by linarith)) ?_
  refine div_le_div_of_nonneg_right ?_ (by linarith)
  exact nearest_value_mono (Nat.cast_nonneg a) (by exact_mod_cast order)

theorem share_le (done size : Nat) (size_pos : 0 < size) (fits : done ≤ maxU64) :
    nearestValue done / nearestValue size ≤ 2 ^ (64 : Int) := by
  have least := one_le_nearest size size_pos
  exact (div_le_self (nearest_value_nonneg _) least).trans (nearest_bytes_le done fits)

theorem percent_int_eq (done size : Nat) (size_pos : 0 < size) (done_fits : done ≤ maxU64)
    (size_fits : size ≤ maxU64) :
    percentInt done size = min (⌊nearestValue (share done size * 100) + 1 / 2⌋₊ : Int) 100 := by
  have least := one_le_nearest size size_pos
  have within : (2 : ℚ) ^ (64 : Int) ≤ 2 ^ (1000 : Int) := power_le (by omega)
  have quotient := share_le done size size_pos done_fits
  have divided : Holds (div (asF64 done) (asF64 size)) (share done size) :=
    div_holds (as_f64_holds done ((bytes_small done done_fits).trans within))
      (as_f64_holds size ((bytes_small size size_fits).trans within)) (by linarith)
      (quotient.trans within)
  have bounded : share done size ≤ 2 ^ (64 : Int) := by
    rw [← nearest_power 64 (by omega)]
    exact nearest_value_mono (div_nonneg (nearest_value_nonneg _) (by linarith)) quotient
  have product := mul_nat_holds 100 divided (by
    calc share done size * (100 : Nat) ≤ 2 ^ (64 : Int) * 2 ^ (7 : Int) := by
          refine mul_le_mul bounded ?_ (Nat.cast_nonneg _) (power_pos _).le
          exact cast_le_power (by omega : 100 ≤ 2 ^ 7)
      _ = 2 ^ ((64 : Int) + 7) := (power_add 64 7).symm
      _ ≤ 2 ^ (1000 : Int) := power_le (by omega))
  rw [percentInt, if_neg size_pos.ne', round_as_i32_spec product, Nat.cast_ofNat]
  omega

theorem percent_int_mono (a b size : Nat) (size_pos : 0 < size) (order : a ≤ b)
    (fits : b ≤ maxU64) (size_fits : size ≤ maxU64) : percentInt a size ≤ percentInt b size := by
  rw [percent_int_eq a size size_pos (order.trans fits) size_fits,
    percent_int_eq b size size_pos fits size_fits]
  have shares := share_mono a b size size_pos order
  have products : nearestValue (share a size * 100) ≤ nearestValue (share b size * 100) :=
    nearest_value_mono (mul_nonneg (nearest_value_nonneg _) (by norm_num)) (by linarith)
  have floors : ⌊nearestValue (share a size * 100) + 1 / 2⌋₊ ≤
      ⌊nearestValue (share b size * 100) + 1 / 2⌋₊ := Nat.floor_mono (by linarith)
  omega

theorem percent_int_full (size : Nat) (size_pos : 0 < size) (fits : size ≤ maxU64) :
    percentInt size size = 100 := by
  have least := one_le_nearest size size_pos
  have one := nearest_value_whole 1 (by omega)
  have hundred := nearest_value_whole 100 (by omega)
  rw [Nat.cast_one] at one
  rw [Nat.cast_ofNat] at hundred
  have whole : share size size = 1 := by
    rw [share, div_self (by linarith), one]
  rw [percent_int_eq size size size_pos fits fits, whole, one_mul, hundred]
  have floor : ⌊(100 : ℚ) + 1 / 2⌋₊ = 100 := by
    rw [Nat.floor_eq_iff (by norm_num)]
    norm_num
  rw [floor]
  rfl

example : percentInt 220200960 734003200 = 30 := by decide +kernel

/-! ## The throttle -/

def defaultProgressPercentStep : Int := 10

def defaultProgressIntervalMs : Int := 5000

structure ProgressThrottle where
  lastPercent : Int
  lastEmitMs : Int
  percentStep : Int
  intervalMs : Int
  step_pos : 1 ≤ percentStep
  interval_nonneg : 0 ≤ intervalMs

namespace ProgressThrottle

def new (percentStep intervalMs : Int) : ProgressThrottle where
  lastPercent := -1
  lastEmitMs := 0
  percentStep := max percentStep 1
  intervalMs := max intervalMs 0
  step_pos := Int.le_max_right _ _
  interval_nonneg := Int.le_max_right _ _

def withDefaults : ProgressThrottle := new defaultProgressPercentStep defaultProgressIntervalMs

/-- The clock is never negative, so no difference of two readings overflows. -/
def due (throttle : ProgressThrottle) (percent nowMs : Int) : Bool :=
  let firstAtZero := throttle.lastPercent < 0 ∧ percent ≤ 0
  firstAtZero ∨ 100 ≤ percent ∨ throttle.percentStep ≤ percent - throttle.lastPercent ∨
    throttle.intervalMs ≤ nowMs - throttle.lastEmitMs

def advance (throttle : ProgressThrottle) (percent nowMs : Int) : ProgressThrottle :=
  { throttle with lastPercent := percent, lastEmitMs := nowMs }

def shouldEmit (throttle : ProgressThrottle) (percent nowMs : Int) : Bool × ProgressThrottle :=
  let emit := throttle.due percent nowMs
  (emit, if emit then throttle.advance percent nowMs else throttle)

end ProgressThrottle

section Passing

variable {α : Type} (percent clock : α → Int)

/-- What the throttle lets pass of what it is asked about. -/
def passed : ProgressThrottle → List α → List α
  | _, [] => []
  | throttle, a :: rest =>
      if throttle.due (percent a) (clock a) then
        a :: passed (throttle.advance (percent a) (clock a)) rest
      else passed throttle rest

theorem passed_sublist (throttle : ProgressThrottle) (l : List α) :
    (passed percent clock throttle l).Sublist l := by
  induction l generalizing throttle with
  | nil => exact List.Sublist.slnil
  | cons a rest ih =>
      unfold passed
      split
      · exact (ih _).cons_cons a
      · exact (ih _).cons a

theorem passed_complete (throttle : ProgressThrottle) (l : List α) :
    (passed percent clock throttle l).filter (fun a => 100 ≤ percent a) =
      l.filter fun a => 100 ≤ percent a := by
  induction l generalizing throttle with
  | nil => rfl
  | cons a rest ih =>
      unfold passed
      split
      · rw [List.filter_cons, List.filter_cons, ih]
      · -- a hundred is always due, so what is held back is below it
        rename_i held
        have short : ¬ 100 ≤ percent a := fun full => held (by simp [ProgressThrottle.due, full])
        rw [ih, List.filter_cons_of_neg (by simpa using short)]

/-- Since the throttle last let something pass, only something apart from it has passed. -/
theorem passed_since (throttle : ProgressThrottle) (l : List α) (started : 0 ≤ throttle.lastPercent)
    (later : ∀ a ∈ l, throttle.lastPercent ≤ percent a ∧ throttle.lastEmitMs ≤ clock a)
    (ordered : l.Pairwise (Follows percent clock)) :
    ∀ a ∈ passed percent clock throttle l, percent a < 100 →
      throttle.percentStep ≤ percent a - throttle.lastPercent ∨
        throttle.intervalMs ≤ clock a - throttle.lastEmitMs := by
  induction l generalizing throttle with
  | nil => exact fun a member => nomatch member
  | cons b rest ih =>
      obtain ⟨follows, ordered⟩ := List.pairwise_cons.mp ordered
      obtain ⟨above, after⟩ := later b List.mem_cons_self
      unfold passed
      split
      · -- the throttle counts from `b` now, and what passes later follows `b`
        rename_i due
        intro a member short
        have bound : percent b ≤ percent a ∧ clock b ≤ clock a := by
          rcases List.mem_cons.mp member with rfl | behind
          · exact ⟨le_refl _, le_refl _⟩
          · exact follows a ((passed_sublist percent clock _ rest).subset behind)
        have gap : throttle.percentStep ≤ percent b - throttle.lastPercent ∨
            throttle.intervalMs ≤ clock b - throttle.lastEmitMs := by
          simp only [ProgressThrottle.due, decide_eq_true_eq] at due
          omega
        omega
      · exact ih throttle started (fun a member => later a (List.mem_cons_of_mem b member)) ordered

theorem passed_apart (throttle : ProgressThrottle) (l : List α) (nonneg : ∀ a ∈ l, 0 ≤ percent a)
    (ordered : l.Pairwise (Follows percent clock)) :
    (passed percent clock throttle l).Pairwise fun a b =>
      percent b < 100 → Apart percent clock throttle.percentStep throttle.intervalMs a b := by
  induction l generalizing throttle with
  | nil => exact List.Pairwise.nil
  | cons a rest ih =>
      obtain ⟨follows, ordered⟩ := List.pairwise_cons.mp ordered
      have tail := fun b member => nonneg b (List.mem_cons_of_mem a member)
      unfold passed
      split
      · refine List.Pairwise.cons ?_ (ih (throttle.advance (percent a) (clock a)) tail ordered)
        exact passed_since percent clock (throttle.advance (percent a) (clock a)) rest
          (nonneg a List.mem_cons_self) follows ordered
      · exact ih throttle tail ordered

end Passing

/-! ## The sink, the channel and the drainer -/

def progressStepBytes : Nat := 4 * 1024 * 1024

structure Transfer where
  instanceId : String
  relpath : String
  label : String
  size : Nat
  attempt : Nat
  fits : size ≤ maxU64

structure ReplicationProgress where
  path : String
  size : Nat
  bytesDone : Nat
  percent : Float64
  destination : String
  attempt : Nat

/-- A call of `set_bytes_done`, which may fail unnoticed. -/
structure SetBytesDone where
  instanceId : String
  relpath : String
  bytesDone : Nat
  nowMs : Int

/-- The sink's `last` and `first`, the channel, the throttle, and a record of what was
asked of the store, of the throttle and of the broker. -/
structure Pipe where
  last : Nat
  first : Bool
  stored : List SetBytesDone
  channel : List Nat
  throttle : ProgressThrottle
  asked : List (Nat × Int)
  emitted : List (Int × ReplicationProgress)

def buildProgress : Pipe where
  last := 0
  first := true
  stored := []
  channel := []
  throttle := .withDefaults
  asked := []
  emitted := []

def persistProgress (t : Transfer) (p : Pipe) (done : Nat) (nowMs : Int) : Bool × Pipe :=
  if progressStepBytes ≤ done - p.last then
    (true, { p with
      last := done
      stored := p.stored ++ [⟨t.instanceId, t.relpath, done, nowMs⟩] })
  else (false, p)

def report (enabled : Bool) (t : Transfer) (p : Pipe) (done : Nat) (nowMs : Int) : Pipe :=
  let persisted := persistProgress t p done nowMs
  if enabled then
    let checkpoint := persisted.1
    let isFirst := persisted.2.first
    let isTerminal := 0 < t.size ∧ t.size ≤ done
    { persisted.2 with
      first := false
      channel :=
        if checkpoint ∨ isFirst ∨ isTerminal then persisted.2.channel ++ [done]
        else persisted.2.channel }
  else persisted.2

def replicationProgress (t : Transfer) (done : Nat) : ReplicationProgress where
  path := t.relpath
  size := t.size
  bytesDone := done
  percent := i32AsF64 (percentInt done t.size)
  destination := t.label
  attempt := t.attempt

/-- One turn of the drainer's loop, which waits while the channel is empty. -/
def drain (t : Transfer) (p : Pipe) (nowMs : Int) : Option Pipe :=
  match p.channel with
  | [] => none
  | done :: rest =>
      let pct := percentInt done t.size
      let decision := p.throttle.shouldEmit pct nowMs
      some { p with
        channel := rest
        throttle := decision.2
        asked := p.asked ++ [(done, nowMs)]
        emitted :=
          if decision.1 then p.emitted ++ [(nowMs, replicationProgress t done)] else p.emitted }

/-- The destination reports, or the drainer gets on, each when the clock reads `nowMs`. -/
inductive Action where
  | report (done : Nat) (nowMs : Int)
  | drain (nowMs : Int)

def step (enabled : Bool) (t : Transfer) (p : Pipe) : Action → Option Pipe
  | .report done nowMs => some (report enabled t p done nowMs)
  | .drain nowMs => drain t p nowMs

def run (enabled : Bool) (t : Transfer) : Pipe → List Action → Option Pipe
  | p, [] => some p
  | p, action :: rest => (step enabled t p action).bind fun next => run enabled t next rest

def reports : List Action → List Nat
  | [] => []
  | .report done _ :: rest => done :: reports rest
  | .drain _ :: rest => reports rest

def readings : List Action → List Int
  | [] => []
  | .report _ _ :: rest => readings rest
  | .drain nowMs :: rest => nowMs :: readings rest

/-- The reports the sink forwards, whatever the drainer does. -/
def forwarded (t : Transfer) : Nat → Bool → List Nat → List Nat
  | _, _, [] => []
  | last, first, done :: rest =>
      let checkpoint := progressStepBytes ≤ done - last
      let tail := forwarded t (if checkpoint then done else last) false rest
      if checkpoint ∨ first ∨ (0 < t.size ∧ t.size ≤ done) then done :: tail else tail

theorem forwarded_sublist (t : Transfer) (last : Nat) (first : Bool) (dones : List Nat) :
    (forwarded t last first dones).Sublist dones := by
  induction dones generalizing last first with
  | nil => exact List.Sublist.slnil
  | cons done rest ih =>
      simp only [forwarded]
      split
      · exact (ih _ _).cons_cons done
      · exact (ih _ _).cons done

theorem forwarded_head (t : Transfer) (last : Nat) (dones : List Nat) :
    (forwarded t last true dones).head? = dones.head? := by
  cases dones with
  | nil => rfl
  | cons done rest => simp [forwarded]

theorem forwarded_terminal (t : Transfer) (size_pos : 0 < t.size) (last : Nat) (first : Bool)
    (dones : List Nat) :
    (forwarded t last first dones).filter (fun done => t.size ≤ done) =
      dones.filter fun done => t.size ≤ done := by
  induction dones generalizing last first with
  | nil => rfl
  | cons done rest ih =>
      simp only [forwarded]
      split
      · rw [List.filter_cons, List.filter_cons, ih]
      · -- a terminal report is sent whatever `last` and `first` say
        rename_i dropped
        have short : ¬ t.size ≤ done := fun full => dropped (Or.inr (Or.inr ⟨size_pos, full⟩))
        rw [ih, List.filter_cons_of_neg (by simpa using short)]

theorem persist_spec (t : Transfer) (p : Pipe) (done : Nat) (nowMs : Int) :
    (persistProgress t p done nowMs).1 = decide (progressStepBytes ≤ done - p.last) ∧
      (persistProgress t p done nowMs).2.last =
        (if progressStepBytes ≤ done - p.last then done else p.last) ∧
      (persistProgress t p done nowMs).2.first = p.first ∧
      (persistProgress t p done nowMs).2.channel = p.channel ∧
      (persistProgress t p done nowMs).2.throttle = p.throttle ∧
      (persistProgress t p done nowMs).2.asked = p.asked ∧
      (persistProgress t p done nowMs).2.emitted = p.emitted := by
  unfold persistProgress
  split
  · rename_i passes
    exact ⟨(decide_eq_true passes).symm, rfl, rfl, rfl, rfl, rfl, rfl⟩
  · rename_i short
    exact ⟨(decide_eq_false short).symm, rfl, rfl, rfl, rfl, rfl, rfl⟩

theorem report_spec (t : Transfer) (p : Pipe) (done : Nat) (nowMs : Int) (rest : List Nat) :
    let next := report true t p done nowMs
    next.channel ++ forwarded t next.last next.first rest =
        p.channel ++ forwarded t p.last p.first (done :: rest) ∧
      next.throttle = p.throttle ∧ next.asked = p.asked ∧ next.emitted = p.emitted := by
  obtain ⟨checkpoint, last, first, channel, throttle, asked, emitted⟩ := persist_spec t p done nowMs
  refine ⟨?_, throttle, asked, emitted⟩
  simp only [report, if_true, forwarded, checkpoint, last, first, channel, decide_eq_true_eq]
  split
  · rw [List.append_assoc, List.singleton_append]
  · rfl

def eventOf (t : Transfer) (a : Nat × Int) : Int × ReplicationProgress :=
  (a.2, replicationProgress t a.1)

def percentOf (t : Transfer) (a : Nat × Int) : Int := percentInt a.1 t.size

theorem drain_spec (t : Transfer) (p next : Pipe) (nowMs : Int) (drained : drain t p nowMs = some next) :
    ∃ done, p.channel = done :: next.channel ∧ next.last = p.last ∧ next.first = p.first ∧
      next.asked = p.asked ++ [(done, nowMs)] ∧
      ∀ asked, next.emitted ++ (passed (percentOf t) Prod.snd next.throttle asked).map (eventOf t) =
        p.emitted ++
          (passed (percentOf t) Prod.snd p.throttle ((done, nowMs) :: asked)).map (eventOf t) := by
  unfold drain at drained
  split at drained
  · cases drained
  · rename_i done rest pending
    obtain rfl := Option.some.inj drained
    refine ⟨done, pending, rfl, rfl, rfl, fun asked => ?_⟩
    by_cases due : p.throttle.due (percentInt done t.size) nowMs = true
    · simp only [passed, ProgressThrottle.shouldEmit, percentOf, due, if_true, List.map_cons,
        List.append_assoc, List.singleton_append, eventOf]
    · simp only [passed, ProgressThrottle.shouldEmit, percentOf, due, if_false, Bool.false_eq_true]

/-- However the two tasks interleave, the throttle is asked about what the sink forwards,
in order, and what passes it is emitted. -/
theorem run_spec (t : Transfer) (p q : Pipe) (schedule : List Action)
    (ran : run true t p schedule = some q) :
    ∃ asked, q.asked = p.asked ++ asked ∧
      asked.map Prod.fst ++ q.channel =
        p.channel ++ forwarded t p.last p.first (reports schedule) ∧
      asked.map Prod.snd = readings schedule ∧
      q.emitted = p.emitted ++
        (passed (percentOf t) Prod.snd p.throttle asked).map (eventOf t) := by
  induction schedule generalizing p with
  | nil =>
      obtain rfl := Option.some.inj ran
      exact ⟨[], (List.append_nil _).symm, (List.append_nil _).symm, rfl,
        (List.append_nil _).symm⟩
  | cons action rest ih =>
      obtain ⟨next, moved, ran⟩ := Option.bind_eq_some_iff.mp ran
      obtain ⟨asked, total, sent, times, events⟩ := ih next ran
      cases action with
      | report done nowMs =>
          obtain rfl := Option.some.inj moved
          obtain ⟨channel, throttle, before, emitted⟩ := report_spec t p done nowMs (reports rest)
          rw [before] at total
          rw [emitted, throttle] at events
          exact ⟨asked, total, sent.trans channel, times, events⟩
      | drain nowMs =>
          obtain ⟨done, channel, last, first, before, emitted⟩ := drain_spec t p next nowMs moved
          refine ⟨(done, nowMs) :: asked, ?_, ?_, ?_, ?_⟩
          · rw [total, before, List.append_assoc, List.singleton_append]
          · rw [channel, List.map_cons, List.cons_append, sent, last, first]
            rfl
          · rw [List.map_cons, times]
            rfl
          · rw [events]
            exact emitted asked

/-! ## What subscribers see -/

def percentage (e : Int × ReplicationProgress) : ℚ := doubleValue e.2.percent

theorem percentage_event (t : Transfer) (a : Nat × Int) :
    percentage (eventOf t a) = percentOf t a := by
  obtain ⟨low, high⟩ := percent_int_range a.1 t.size
  simp only [percentage, eventOf, replicationProgress, percentOf]
  exact i32_as_f64_value _ low high

theorem short_event (t : Transfer) :
    (fun e => decide (percentage e < 100)) ∘ eventOf t = fun a => decide (percentOf t a < 100) := by
  funext a
  rw [Function.comp_apply, percentage_event]
  exact decide_eq_decide.mpr (by exact_mod_cast Iff.rfl)

/-- What the events of an attempt that reported `dones` promise. -/
structure Promised (t : Transfer) (dones : List Nat) (p : Pipe) : Prop where
  first_asked : (p.asked.map Prod.fst).head? = dones.head?
  terminal_asked : (p.asked.map Prod.fst).filter (fun done => t.size ≤ done) =
    dones.filter fun done => t.size ≤ done
  terminal_emitted : (p.emitted.map fun e => e.2.bytesDone).filter (fun done => t.size ≤ done) =
    dones.filter fun done => t.size ≤ done
  terminal_percent : ∀ e ∈ p.emitted, t.size ≤ e.2.bytesDone → percentage e = 100
  ends_complete : ∃ e, p.emitted.getLast? = some e ∧ e.2.bytesDone = t.size ∧ percentage e = 100
  in_range : ∀ e ∈ p.emitted, 0 ≤ percentage e ∧ percentage e ≤ 100
  ordered : p.emitted.Pairwise fun a b => percentage a ≤ percentage b
  apart : p.emitted.IsChain fun a b => percentage b < 100 →
    (defaultProgressPercentStep : ℚ) ≤ percentage b - percentage a ∨
      defaultProgressIntervalMs ≤ b.1 - a.1
  few : ∀ start final : Int, start ≤ final →
    (∀ e ∈ p.emitted, percentage e < 100 → start ≤ e.1 ∧ e.1 ≤ final) →
    ((p.emitted.filter fun e => percentage e < 100).length : Int) ≤
      100 / defaultProgressPercentStep + (final - start) / defaultProgressIntervalMs + 1

theorem le_last {dones : List Nat} {size : Nat} (order : dones.Pairwise (· ≤ ·))
    (ends : dones.getLast? = some size) : ∀ done ∈ dones, done ≤ size := by
  obtain ⟨init, rfl⟩ := List.getLast?_eq_some_iff.mp ends
  intro done member
  rcases List.mem_append.mp member with before | last
  · exact (List.pairwise_append.mp order).2.2 done before size List.mem_cons_self
  · exact (List.mem_singleton.mp last).le

theorem last_of_sorted {dones : List Nat} {size : Nat} (order : dones.Pairwise (· ≤ ·))
    (bounded : ∀ done ∈ dones, done ≤ size) (member : size ∈ dones) :
    dones.getLast? = some size := by
  cases last : dones.getLast? with
  | none =>
      rw [List.getLast?_eq_none_iff.mp last] at member
      exact nomatch member
  | some done =>
      have above := le_last order last size member
      have below := bounded done (List.mem_of_getLast? last)
      rw [Nat.le_antisymm below above]

/-- The reports that pass the throttle of a transfer. -/
def kept (t : Transfer) (asked : List (Nat × Int)) : List (Nat × Int) :=
  passed (percentOf t) Prod.snd .withDefaults asked

section Kept

variable (t : Transfer) (asked : List (Nat × Int))

theorem kept_sublist : (kept t asked).Sublist asked := passed_sublist _ _ _ asked

theorem percent_of_range (a : Nat × Int) : 0 ≤ percentOf t a ∧ percentOf t a ≤ 100 :=
  percent_int_range a.1 t.size

theorem percent_of_terminal (size_pos : 0 < t.size) (a : Nat × Int) (bounded : a.1 ≤ t.size)
    (terminal : t.size ≤ a.1) : percentOf t a = 100 := by
  rw [percentOf, Nat.le_antisymm bounded terminal]
  exact percent_int_full t.size size_pos t.fits

theorem asked_follows (size_pos : 0 < t.size) (bounded : ∀ a ∈ asked, a.1 ≤ t.size)
    (order : (asked.map Prod.fst).Pairwise (· ≤ ·)) (times : (asked.map Prod.snd).Pairwise (· ≤ ·)) :
    asked.Pairwise (Follows (percentOf t) Prod.snd) := by
  rw [List.pairwise_map] at order times
  refine (order.and times).imp_of_mem fun {a b} _ member later => ⟨?_, later.2⟩
  exact percent_int_mono a.1 b.1 t.size size_pos later.1 ((bounded b member).trans t.fits) t.fits

theorem kept_terminal (size_pos : 0 < t.size) (bounded : ∀ a ∈ asked, a.1 ≤ t.size) :
    ((kept t asked).map Prod.fst).filter (fun done => t.size ≤ done) =
      (asked.map Prod.fst).filter fun done => t.size ≤ done := by
  have through : ∀ l : List (Nat × Int), l.Sublist asked →
      (l.map Prod.fst).filter (fun done => t.size ≤ done) =
        ((l.filter fun a => 100 ≤ percentOf t a).map Prod.fst).filter fun done => t.size ≤ done := by
    intro l part
    rw [List.filter_map, List.filter_map, List.filter_filter]
    congr 1
    refine List.filter_congr fun a member => ?_
    by_cases terminal : t.size ≤ a.1
    · have full := percent_of_terminal t size_pos a (bounded a (part.subset member)) terminal
      simp [terminal, full]
    · simp [terminal]
  rw [through _ (kept_sublist t asked), through asked (List.Sublist.refl _), kept, passed_complete]

theorem kept_last {dones : List Nat}
    (part : (asked.map Prod.fst).Sublist dones) (order : dones.Pairwise (· ≤ ·))
    (ends : dones.getLast? = some t.size)
    (terminal : ((kept t asked).map Prod.fst).filter (fun done => t.size ≤ done) =
      dones.filter fun done => t.size ≤ done) :
    ((kept t asked).map Prod.fst).getLast? = some t.size := by
  have reported : t.size ∈ dones.filter fun done => t.size ≤ done :=
    List.mem_filter.mpr ⟨List.mem_of_getLast? ends, decide_eq_true (le_refl t.size)⟩
  have passes : t.size ∈ (kept t asked).map Prod.fst := by
    rw [← terminal] at reported
    exact List.mem_of_mem_filter reported
  have kept_dones := ((kept_sublist t asked).map Prod.fst).trans part
  exact last_of_sorted (order.sublist kept_dones)
    (fun done member => le_last order ends done (kept_dones.subset member)) passes

theorem kept_apart (follows : asked.Pairwise (Follows (percentOf t) Prod.snd)) :
    (kept t asked).Pairwise fun a b => percentOf t b < 100 →
      Apart (percentOf t) Prod.snd defaultProgressPercentStep defaultProgressIntervalMs a b :=
  passed_apart (percentOf t) Prod.snd .withDefaults asked
    (fun a _ => (percent_of_range t a).1) follows

/-- The range of the percent and the time that passes bound what passes below 100. -/
theorem kept_few (follows : asked.Pairwise (Follows (percentOf t) Prod.snd)) (start final : Int)
    (passes : start ≤ final)
    (inside : ∀ a ∈ kept t asked, percentOf t a < 100 → start ≤ a.2 ∧ a.2 ≤ final) :
    (((kept t asked).filter fun a => percentOf t a < 100).length : Int) ≤
      100 / defaultProgressPercentStep + (final - start) / defaultProgressIntervalMs + 1 := by
  have part : ((kept t asked).filter fun a => percentOf t a < 100).Sublist (kept t asked) :=
    List.filter_sublist
  -- any two that pass stand apart, so what is left after the filter does
  refine length_le (percentOf t) Prod.snd _ _ _ start final (by decide) (by decide) (by decide)
    passes _ (follows.sublist (part.trans (kept_sublist t asked))) ?_ ?_
  · refine (((kept_apart t asked follows).sublist part).imp_of_mem ?_).isChain
    intro a b _ member apart
    exact apart (by simpa using (List.mem_filter.mp member).2)
  · intro a member
    obtain ⟨member, short⟩ := List.mem_filter.mp member
    obtain ⟨low, high⟩ := percent_of_range t a
    obtain ⟨since, till⟩ := inside a member (by simpa using short)
    exact ⟨low, high, since, till⟩

end Kept

theorem flushed_spec (t : Transfer) (p : Pipe) (schedule : List Action)
    (ran : run true t buildProgress schedule = some p) (flushed : p.channel = []) :
    p.asked.map Prod.fst = forwarded t 0 true (reports schedule) ∧
      p.asked.map Prod.snd = readings schedule ∧
      p.emitted = (kept t p.asked).map (eventOf t) := by
  obtain ⟨asked, total, sent, times, events⟩ := run_spec t buildProgress p schedule ran
  change p.asked = asked at total
  rw [flushed, List.append_nil] at sent
  rw [← total] at sent times events
  exact ⟨sent, times, events⟩

/-- Whatever the interleaving, an attempt that reports all its bytes keeps the promise. -/
theorem progress_promised (t : Transfer) (size_pos : 0 < t.size) (schedule : List Action)
    (p : Pipe) (order : (reports schedule).Pairwise (· ≤ ·))
    (ends : (reports schedule).getLast? = some t.size)
    (clock : (readings schedule).Pairwise (· ≤ ·))
    (ran : run true t buildProgress schedule = some p) (flushed : p.channel = []) :
    Promised t (reports schedule) p := by
  obtain ⟨sent, times, events⟩ := flushed_spec t p schedule ran flushed
  have part : (p.asked.map Prod.fst).Sublist (reports schedule) := sent ▸ forwarded_sublist t 0 true _
  have bounded : ∀ a ∈ p.asked, a.1 ≤ t.size := fun a member =>
    le_last order ends a.1 (part.subset (List.mem_map_of_mem member))
  -- the percent is rounded twice on its way, and still does not go back
  have follows := asked_follows t p.asked size_pos bounded (order.sublist part) (times ▸ clock)
  have kept_part := kept_sublist t p.asked
  have terminal_asked : (p.asked.map Prod.fst).filter (fun done => t.size ≤ done) =
      (reports schedule).filter fun done => t.size ≤ done := by
    rw [sent]
    exact forwarded_terminal t size_pos 0 true _
  have emitted_dones : p.emitted.map (fun e => e.2.bytesDone) = (kept t p.asked).map Prod.fst := by
    rw [events, List.map_map]
    rfl
  have terminal_emitted := (kept_terminal t p.asked size_pos bounded).trans terminal_asked
  have source : ∀ e ∈ p.emitted, ∃ a ∈ kept t p.asked, eventOf t a = e := by
    rw [events]
    exact fun e member => List.mem_map.mp member
  have terminal_percent : ∀ e ∈ p.emitted, t.size ≤ e.2.bytesDone → percentage e = 100 := by
    intro e member terminal
    obtain ⟨a, passes, rfl⟩ := source e member
    rw [percentage_event, percent_of_terminal t size_pos a (bounded a (kept_part.subset passes))
      terminal]
    rfl
  constructor
  case first_asked =>
    rw [sent]
    exact forwarded_head t 0 _
  case terminal_asked => exact terminal_asked
  case terminal_emitted => exact emitted_dones ▸ terminal_emitted
  case terminal_percent => exact terminal_percent
  case ends_complete =>
    have last := kept_last t p.asked part order ends terminal_emitted
    rw [← emitted_dones, List.getLast?_map] at last
    obtain ⟨e, last, complete⟩ := Option.map_eq_some_iff.mp last
    exact ⟨e, last, complete, terminal_percent e (List.mem_of_getLast? last) complete.ge⟩
  case in_range =>
    intro e member
    obtain ⟨a, _, rfl⟩ := source e member
    rw [percentage_event]
    exact_mod_cast percent_of_range t a
  case ordered =>
    rw [events, List.pairwise_map]
    refine (follows.sublist kept_part).imp fun {a b} later => ?_
    rw [percentage_event, percentage_event]
    exact_mod_cast later.1
  case apart =>
    rw [events]
    refine (List.pairwise_map.mpr ((kept_apart t p.asked follows).imp fun {a b} apart short => ?_)).isChain
    rw [percentage_event] at short
    rw [percentage_event, percentage_event]
    exact_mod_cast apart (by exact_mod_cast short)
  case few =>
    intro start final passes inside
    have few := kept_few t p.asked follows start final passes fun a member short => ?_
    · rwa [events, List.filter_map, List.length_map, short_event]
    · refine inside (eventOf t a) ?_ ?_
      · exact events ▸ List.mem_map_of_mem member
      · rw [percentage_event]
        exact_mod_cast short

/-- The file is big enough for the first chunk to be 0%, and the drainer falls behind. -/
def bigFile : Transfer where
  instanceId := "plant"
  relpath := "big.bin"
  label := "local"
  size := 13631488
  attempt := 1
  fits := by decide

def bigRun : List Action :=
  [.report 65536 1000, .report 5242880 1010, .drain 1020, .report 6291456 1030, .drain 1040,
    .report 13631488 1050, .drain 1060]

theorem big_file_promised :
    ∃ p, run true bigFile buildProgress bigRun = some p ∧
      Promised bigFile [65536, 5242880, 6291456, 13631488] p := by
  have flushed : (run true bigFile buildProgress bigRun).map Pipe.channel = some [] := by
    decide
  obtain ⟨p, ran, empty⟩ := Option.map_eq_some_iff.mp flushed
  exact ⟨p, ran, progress_promised bigFile (by decide) bigRun p (by decide) rfl (by decide) ran empty⟩

end FileReplicator.ProgressEvents
