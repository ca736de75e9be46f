import FileReplicator.Readiness

/-!
# Quiet periods

The tracker keeps one instant for each path. It stands for a whole history of
calls: the file has been the same at every observation since then, and nothing has
dropped it. A file is ready when that is long enough ago. A recheck is asked for
while a window is open, and only then.
-/

namespace FileReplicator.QuietPeriods

open Readiness Readiness.StabilityTracker Tables

variable {Path : Type} [DecidableEq Path]

/-! ## Histories -/

inductive Call (Path : Type) where
  | observe (path : Path) (obs : Observation)
  | forget (path : Path)
  | retain (present : Finset Path)

structure Moment (Path : Type) where
  time : Nat
  call : Call Path

def perform (t : StabilityTracker Path) : Moment Path → StabilityTracker Path
  | ⟨now, .observe path obs⟩ => (t.observe now path obs).2
  | ⟨_, .forget path⟩ => t.forget path
  | ⟨_, .retain present⟩ => t.retain present

def track (quiet : Nat) (history : List (Moment Path)) : StabilityTracker Path :=
  history.foldl perform (new quiet)

def Monotone (history : List (Moment Path)) (now : Nat) : Prop :=
  (history.map Moment.time ++ [now]).Pairwise (· ≤ ·)

/-- The call may change what is known of the path. -/
def concerns (path : Path) : Moment Path → Bool
  | ⟨_, .observe other _⟩ => path = other
  | ⟨_, .forget other⟩ => path = other
  | ⟨_, .retain present⟩ => path ∉ present

/-- The call shows the file unchanged, or does not touch it. -/
def Keeps (path : Path) (obs : Observation) : Moment Path → Prop
  | ⟨_, .observe other seen⟩ => path = other → seen = obs
  | ⟨_, .forget other⟩ => path ≠ other
  | ⟨_, .retain present⟩ => path ∈ present

/-- The path was observed at an instant, and has been kept so since then. -/
def HeldSince (time : Nat) (path : Path) (obs : Observation) (history : List (Moment Path)) : Prop :=
  ∃ before after, history = before ++ ⟨time, .observe path obs⟩ :: after ∧
    ∀ m ∈ after, Keeps path obs m

/-! ## One path of the table -/

def sighted (now : Nat) (obs : Observation) : Option Entry → Entry
  | some entry => if entry.last = obs then entry else ⟨obs, now⟩
  | none => ⟨obs, now⟩

def follow (path : Path) (entry : Option Entry) : Moment Path → Option Entry
  | ⟨now, .observe other obs⟩ => if path = other then some (sighted now obs entry) else entry
  | ⟨_, .forget other⟩ => if path = other then none else entry
  | ⟨_, .retain present⟩ => if path ∈ present then entry else none

def entryOf (path : Path) (history : List (Moment Path)) : Option Entry :=
  history.foldl (follow path) none

theorem entry_of_snoc (path : Path) (history : List (Moment Path)) (m : Moment Path) :
    entryOf path (history ++ [m]) = follow path (entryOf path history) m := by
  simp [entryOf]

theorem observe_spec (t : StabilityTracker Path) (now : Nat) (path other : Path) (obs : Observation) :
    (t.observe now path obs).2.quiet = t.quiet ∧
      (t.observe now path obs).2.seen.lookup other =
        if other = path then some (sighted now obs (t.seen.lookup path)) else t.seen.lookup other := by
  unfold StabilityTracker.observe
  cases found : t.seen.lookup path with
  | none => exact ⟨rfl, lookup_insert t.seen other path _⟩
  | some entry =>
      by_cases changed : entry.last = obs
      · simp only [changed, ne_eq, not_true, if_false, sighted, if_true]
        refine ⟨trivial, ?_⟩
        by_cases same : other = path
        · rw [if_pos same, same, found]
        · rw [if_neg same]
      · simp only [changed, ne_eq, not_false_eq_true, if_true, sighted, if_false]
        exact ⟨trivial, lookup_insert t.seen other path _⟩

theorem lookup_perform (t : StabilityTracker Path) (m : Moment Path) (path : Path) :
    (perform t m).seen.lookup path = follow path (t.seen.lookup path) m := by
  obtain ⟨now, call⟩ := m
  cases call with
  | observe other obs =>
      rw [perform, follow, (observe_spec t now other path obs).2]
      by_cases same : path = other
      · rw [if_pos same, if_pos same, same]
      · rw [if_neg same, if_neg same]
  | forget other => exact lookup_erase t.seen path other
  | retain present =>
      refine (lookup_retain _ t.seen path).trans ?_
      simp [follow]

theorem quiet_perform (t : StabilityTracker Path) (m : Moment Path) :
    (perform t m).quiet = t.quiet := by
  obtain ⟨now, call⟩ := m
  cases call with
  | observe other obs => exact (observe_spec t now other other obs).1
  | forget other => rfl
  | retain present => rfl

theorem quiet_track (quiet : Nat) (history : List (Moment Path)) :
    (track quiet history).quiet = quiet := by
  induction history using List.reverseRecOn with
  | nil => rfl
  | append_singleton history m ih =>
      rw [track, List.foldl_append, List.foldl_cons, List.foldl_nil, quiet_perform]
      exact ih

theorem lookup_track (quiet : Nat) (history : List (Moment Path)) (path : Path) :
    (track quiet history).seen.lookup path = entryOf path history := by
  induction history using List.reverseRecOn with
  | nil => rfl
  | append_singleton history m ih =>
      rw [track, List.foldl_append, List.foldl_cons, List.foldl_nil, lookup_perform, entry_of_snoc]
      exact congrArg (fun entry => follow path entry m) ih

theorem answer_iff (t : StabilityTracker Path) (now : Nat) (path : Path) (obs : Observation)
    (positive : 0 < t.quiet) :
    (t.observe now path obs).1 = true ↔
      ∃ since, t.seen.lookup path = some ⟨obs, since⟩ ∧ since + t.quiet ≤ now := by
  unfold StabilityTracker.observe
  cases found : t.seen.lookup path with
  | none => simpa using Nat.pos_iff_ne_zero.mp positive
  | some entry =>
      obtain ⟨last, since⟩ := entry
      by_cases changed : last = obs
      · subst changed
        simp
        omega
      · simp [changed]

/-! ## What an entry stands for -/

omit [DecidableEq Path] in
theorem HeldSince.snoc {time : Nat} {path : Path} {obs : Observation} {history : List (Moment Path)}
    {m : Moment Path} (held : HeldSince time path obs history) (kept : Keeps path obs m) :
    HeldSince time path obs (history ++ [m]) := by
  obtain ⟨before, after, cut, keeps⟩ := held
  refine ⟨before, after ++ [m], by rw [cut, List.append_assoc, List.cons_append], ?_⟩
  intro n member
  cases List.mem_append.mp member with
  | inl earlier => exact keeps n earlier
  | inr last => rwa [List.mem_singleton.mp last]

/-- The induction is on the history from its end; a call either keeps the stretch or begins one. -/
theorem held_of_entry (path : Path) (history : List (Moment Path)) :
    ∀ entry, entryOf path history = some entry → HeldSince entry.since path entry.last history := by
  induction history using List.reverseRecOn with
  | nil =>
      intro entry found
      cases found
  | append_singleton history m ih =>
      intro entry found
      rw [entry_of_snoc] at found
      obtain ⟨time, call⟩ := m
      cases call with
      | observe other obs =>
          by_cases same : path = other
          · subst same
            rw [follow, if_pos rfl] at found
            cases before : entryOf path history with
            | none =>
                -- the first sighting, or the first after the path was dropped
                rw [before] at found
                cases found
                exact ⟨history, [], rfl, by simp⟩
            | some earlier =>
                rw [before] at found
                by_cases changed : earlier.last = obs
                · -- the entry is kept, and with it the instant it started at
                  rw [sighted, if_pos changed] at found
                  cases found
                  exact (ih _ before).snoc fun _ => changed.symm
                · rw [sighted, if_neg changed] at found
                  cases found
                  exact ⟨history, [], rfl, by simp⟩
          · rw [follow, if_neg same] at found
            exact (ih entry found).snoc fun h => absurd h same
      | forget other =>
          by_cases same : path = other
          · rw [follow, if_pos same] at found
            cases found
          · rw [follow, if_neg same] at found
            exact (ih entry found).snoc same
      | retain present =>
          by_cases kept : path ∈ present
          · rw [follow, if_pos kept] at found
            exact (ih entry found).snoc kept
          · rw [follow, if_neg kept] at found
            cases found

theorem follow_keeps (path : Path) (entry : Entry) (m : Moment Path)
    (kept : Keeps path entry.last m) : follow path (some entry) m = some entry := by
  obtain ⟨time, call⟩ := m
  cases call with
  | observe other obs =>
      by_cases same : path = other
      · rw [follow, if_pos same, sighted, if_pos (kept same).symm]
      · rw [follow, if_neg same]
  | forget other => rw [follow, if_neg kept]
  | retain present => exact if_pos kept

theorem foldl_keeps (path : Path) (entry : Entry) (after : List (Moment Path))
    (keeps : ∀ m ∈ after, Keeps path entry.last m) :
    after.foldl (follow path) (some entry) = some entry := by
  induction after with
  | nil => rfl
  | cons m rest ih =>
      rw [List.foldl_cons, follow_keeps path entry m (keeps m List.mem_cons_self)]
      exact ih fun n member => keeps n (List.mem_cons_of_mem m member)

theorem entry_of_held (time now : Nat) (path : Path) (obs : Observation)
    (history : List (Moment Path)) (monotone : Monotone history now)
    (held : HeldSince time path obs history) :
    ∃ since, since ≤ time ∧ entryOf path history = some ⟨obs, since⟩ := by
  obtain ⟨before, after, rfl, keeps⟩ := held
  have entered : ∃ since, since ≤ time ∧
      follow path (entryOf path before) ⟨time, .observe path obs⟩ = some ⟨obs, since⟩ := by
    rw [follow, if_pos rfl]
    cases earlier : entryOf path before with
    | none => exact ⟨time, Nat.le_refl time, rfl⟩
    | some entry =>
        by_cases same : entry.last = obs
        · -- the instant of the entry is one of the history, so not after this one
          refine ⟨entry.since, ?_, by rw [sighted, if_pos same, ← same]⟩
          obtain ⟨first, rest, rfl, _⟩ := held_of_entry path before entry earlier
          simp only [Monotone, List.map_append, List.map_cons, List.append_assoc,
            List.cons_append] at monotone
          have later := (List.pairwise_cons.mp (List.pairwise_append.mp monotone).2.1).1
          exact later time (by simp)
        · exact ⟨time, Nat.le_refl time, by rw [sighted, if_neg same]⟩
  obtain ⟨since, early, entry⟩ := entered
  refine ⟨since, early, ?_⟩
  rw [entryOf, List.foldl_append, List.foldl_cons]
  exact (congrArg (after.foldl (follow path)) entry).trans (foldl_keeps path ⟨obs, since⟩ after keeps)

theorem follow_other (path : Path) (entry : Option Entry) (m : Moment Path)
    (apart : concerns path m = false) : follow path entry m = entry := by
  obtain ⟨time, call⟩ := m
  cases call <;> simp_all [concerns, follow]

theorem entry_of_concerning (path : Path) (history : List (Moment Path)) :
    entryOf path history = entryOf path (history.filter (concerns path)) := by
  rw [entryOf, entryOf, List.foldl_filter]
  congr
  funext entry m
  cases apart : concerns path m with
  | true => rfl
  | false => simpa using follow_other path entry m apart

/-- A file is ready exactly if it was seen long enough ago and has been the same ever since; what
is done about other paths makes no difference. -/
theorem ready_iff_held (quiet now : Nat) (history : List (Moment Path)) (path : Path)
    (obs : Observation) (positive : 0 < quiet) (monotone : Monotone history now) :
    (((track quiet history).observe now path obs).1 = true ↔
        ∃ time, time + quiet ≤ now ∧ HeldSince time path obs history) ∧
      ∀ others : List (Moment Path),
        others.filter (concerns path) = history.filter (concerns path) →
        ((track quiet others).observe now path obs).1 =
          ((track quiet history).observe now path obs).1 := by
  have answer : ∀ calls : List (Moment Path),
      ((track quiet calls).observe now path obs).1 = true ↔
        ∃ since, entryOf path calls = some ⟨obs, since⟩ ∧ since + quiet ≤ now := by
    intro calls
    rw [answer_iff _ now path obs (by rwa [quiet_track]), quiet_track, lookup_track]
  constructor
  · rw [answer]
    constructor
    · rintro ⟨since, found, due⟩
      exact ⟨since, due, held_of_entry path history _ found⟩
    · rintro ⟨time, due, held⟩
      obtain ⟨since, early, found⟩ := entry_of_held time now path obs history monotone held
      exact ⟨since, found, by omega⟩
  · intro others same
    rw [Bool.eq_iff_iff, answer, answer, entry_of_concerning path others, same,
      ← entry_of_concerning]

/-- A file seen twice and a neighbour that comes, changes and goes. -/
theorem ready_iff_held_settled :
    ((track 5 [⟨0, .observe "a" ⟨10, 1⟩⟩, ⟨2, .observe "b" ⟨1, 1⟩⟩, ⟨4, .retain {"a"}⟩]).observe
      6 "a" ⟨10, 1⟩).1 = true := by
  refine (ready_iff_held 5 6 _ "a" ⟨10, 1⟩ (by decide) (by unfold Monotone; decide)).1.mpr ?_
  exact ⟨0, by decide, [], [⟨2, .observe "b" ⟨1, 1⟩⟩, ⟨4, .retain {"a"}⟩], rfl,
    by simp [Keeps]⟩

/-! ## Rechecks -/

/-- The window of an entry is open, and ends at an instant the clock can represent. -/
def Open (quiet lastInstant now : Nat) (entry : Entry) : Prop :=
  now < entry.since + quiet ∧ entry.since + quiet ≤ lastInstant

/-- The path was last observed as not yet ready. -/
def Unready (quiet : Nat) (path : Path) (history : List (Moment Path)) : Prop :=
  ∃ before after time obs, history = before ++ ⟨time, .observe path obs⟩ :: after ∧
    ((track quiet before).observe time path obs).1 = false ∧
    ∀ m ∈ after, ∀ seen, m.call ≠ .observe path seen

/-- For each tracked file that exists and is not ready, a recheck comes no later than its window
ends. -/
def Rechecked (quiet lastInstant now : Nat) (exist : Path → Prop) (history : List (Moment Path)) :
    Prop :=
  ∀ path entry, (track quiet history).seen.lookup path = some entry → exist path →
    Unready quiet path history →
    ∃ wait, (track quiet history).pendingRecheck lastInstant now = some wait ∧
      wait ≤ entry.since + quiet - now

omit [DecidableEq Path] in
theorem remaining_iff (t : StabilityTracker Path) (lastInstant now wait : Nat) (entry : Entry) :
    t.remaining lastInstant now entry = some wait ↔
      Open t.quiet lastInstant now entry ∧ wait = entry.since + t.quiet - now := by
  unfold remaining Open
  by_cases due : entry.since + t.quiet ≤ lastInstant ∧ now < entry.since + t.quiet
  · rw [if_pos due, Option.some.injEq]
    exact ⟨fun same => ⟨⟨due.2, due.1⟩, same.symm⟩, fun h => h.2.symm⟩
  · rw [if_neg due]
    constructor
    · intro h
      cases h
    · intro h
      exact absurd ⟨h.1.2, h.1.1⟩ due

theorem recheck_iff (t : StabilityTracker Path) (lastInstant now wait : Nat) :
    t.pendingRecheck lastInstant now = some wait ↔
      (∃ path entry, t.seen.lookup path = some entry ∧ Open t.quiet lastInstant now entry ∧
        wait = entry.since + t.quiet - now) ∧
      ∀ path entry, t.seen.lookup path = some entry → Open t.quiet lastInstant now entry →
        wait ≤ entry.since + t.quiet - now := by
  rw [pendingRecheck, List.min?_eq_some_iff]
  simp only [List.mem_filterMap, mem_values, remaining_iff]
  constructor
  · rintro ⟨⟨entry, ⟨path, found⟩, opened, first⟩, least⟩
    refine ⟨⟨path, entry, found, opened, first⟩, ?_⟩
    intro other later foundLater openedLater
    exact least _ ⟨later, ⟨other, foundLater⟩, openedLater, rfl⟩
  · rintro ⟨⟨path, entry, found, opened, first⟩, least⟩
    refine ⟨⟨entry, ⟨path, found⟩, opened, first⟩, ?_⟩
    rintro _ ⟨later, ⟨other, foundLater⟩, openedLater, rfl⟩
    exact least other later foundLater openedLater

theorem rechecks_of_open (t : StabilityTracker Path) (lastInstant now : Nat)
    (path : Path) (entry : Entry) (found : t.seen.lookup path = some entry)
    (opened : Open t.quiet lastInstant now entry) :
    ∃ wait, t.pendingRecheck lastInstant now = some wait ∧ 0 < wait := by
  cases asked : t.pendingRecheck lastInstant now with
  | some wait =>
      obtain ⟨⟨_, first, _, running, rfl⟩, _⟩ := (recheck_iff t lastInstant now wait).mp asked
      exact ⟨_, rfl, Nat.sub_pos_of_lt running.1⟩
  | none =>
      -- then no entry at all has something left to wait for
      rw [pendingRecheck, List.min?_eq_none_iff, List.filterMap_eq_nil_iff] at asked
      have none := asked entry ((mem_values t.seen entry).mpr ⟨path, found⟩)
      rw [(remaining_iff t lastInstant now _ entry).mpr ⟨opened, rfl⟩] at none
      cases none

/-- A recheck that is late for a file whose window is over never comes at all: each file has to be
inside its window when the recheck is asked for. -/
theorem rechecked_iff_open (quiet lastInstant now : Nat) (exist : Path → Prop)
    (history : List (Moment Path)) :
    Rechecked quiet lastInstant now exist history ↔
      ∀ path entry, (track quiet history).seen.lookup path = some entry → exist path →
        Unready quiet path history →
        now < entry.since + quiet ∧
          ∃ other first, (track quiet history).seen.lookup other = some first ∧
            Open quiet lastInstant now first := by
  have spec := recheck_iff (track quiet history) lastInstant now
  have some := rechecks_of_open (track quiet history) lastInstant now
  rw [quiet_track] at spec some
  constructor
  · intro rechecked path entry found alive unready
    obtain ⟨wait, asked, soon⟩ := rechecked path entry found alive unready
    obtain ⟨⟨other, first, foundFirst, opened, rfl⟩, _⟩ := (spec wait).mp asked
    have running := opened.1
    exact ⟨by omega, other, first, foundFirst, opened⟩
  · intro inside path entry found alive unready
    obtain ⟨running, other, first, foundFirst, opened⟩ := inside path entry found alive unready
    obtain ⟨wait, asked, _⟩ := some other first foundFirst opened
    refine ⟨wait, asked, ?_⟩
    have least := ((spec wait).mp asked).2
    -- a file whose window ends beyond the clock's range is not asked for itself
    by_cases reached : entry.since + quiet ≤ lastInstant
    · exact least path entry found ⟨running, reached⟩
    · have earlier := least other first foundFirst opened
      have end_first := opened.2
      omega

/-- The tick that follows the only observation of a file takes longer than its quiet period. -/
theorem recheck_missed :
    ¬ Rechecked 5 100 6 (fun _ => True) [⟨0, .observe "a" ⟨10, 1⟩⟩, ⟨0, .retain {"a"}⟩] := by
  intro rechecked
  have unready : Unready 5 "a" [⟨0, .observe "a" ⟨10, 1⟩⟩, ⟨0, .retain {"a"}⟩] :=
    ⟨[], _, 0, ⟨10, 1⟩, rfl, by decide, by simp⟩
  obtain ⟨wait, asked, _⟩ := rechecked "a" ⟨⟨10, 1⟩, 0⟩ (by decide) trivial unready
  have ended : (track 5 [⟨0, .observe "a" ⟨10, 1⟩⟩, ⟨0, .retain {"a"}⟩]).pendingRecheck 100 6 =
      none := by decide
  rw [ended] at asked
  cases asked

end FileReplicator.QuietPeriods
