import Mathlib.Algebra.Order.Field.Rat
import Mathlib.Tactic.FieldSimp
import Mathlib.Tactic.Ring
import FileReplicator.VirtualSchedule

/-!
# The bandwidth governor

A token bucket for each instance and one for all. A transfer takes its bytes out
of both, one after the other, waits the larger of the two waits and writes. Time
and tokens are exact.
-/

namespace FileReplicator.Bandwidth

open VirtualSchedule

structure TokenBucket where
  rate : Nat
  capacity : ℚ
  tokens : ℚ
  last : ℚ

namespace TokenBucket

/-- A full bucket; a rate of zero limits nothing. -/
def new (rate : Nat) (now : ℚ) : TokenBucket := ⟨rate, rate, rate, now⟩

/-- `acquire`: how long to wait before `n` bytes may be sent, and the bucket without them. -/
def acquire (bucket : TokenBucket) (now : ℚ) (n : Nat) : ℚ × TokenBucket :=
  if bucket.rate = 0 then (0, bucket)
  else
    let elapsed := max 0 (now - bucket.last)
    let tokens := min (bucket.tokens + elapsed * bucket.rate) bucket.capacity
    if (n : ℚ) ≤ tokens then (0, { bucket with tokens := tokens - n, last := now })
    else ((n - tokens) / bucket.rate, { bucket with tokens := tokens - n, last := now })

end TokenBucket

/-- When the global bucket lets the bytes through, and when they are written. -/
structure Release where
  due : ℚ
  wrote : ℚ
  deriving DecidableEq

/-- One call of `throttle`; the release is set once the global bucket is asked. -/
structure Transfer (ι : Type) where
  inst : ι
  bytes : Nat
  entered : ℚ
  wait : ℚ
  release : Option Release

structure Governor (ι : Type) where
  now : ℚ
  perInstance : ι → TokenBucket
  shared : TokenBucket
  transfers : List (Transfer ι)

/-- The two halves of `throttle` are steps of their own: other calls may come between them. -/
inductive Step (ι : Type) where
  | elapse (span : ℚ)
  | acquireInstance (inst : ι) (bytes : Nat)
  | acquireGlobal (k : Nat)

variable {ι : Type} [DecidableEq ι]

def begin (rates : ι → Nat) (shared : Nat) : Governor ι where
  now := 0
  perInstance := fun inst => .new (rates inst) 0
  shared := .new shared 0
  transfers := []

def enter (g : Governor ι) (inst : ι) (bytes : Nat) : Governor ι :=
  let out := (g.perInstance inst).acquire g.now bytes
  { g with
    perInstance := Function.update g.perInstance inst out.2
    transfers := g.transfers ++ [⟨inst, bytes, g.now, out.1, none⟩] }

/-- The sleep lasts the larger wait, and the write follows at once. -/
def pass (g : Governor ι) (k : Nat) (t : Transfer ι) : Governor ι :=
  let out := g.shared.acquire g.now t.bytes
  { g with
    shared := out.2
    transfers := g.transfers.set k
      { t with release := some ⟨g.now + out.1, g.now + max t.wait out.1⟩ } }

def step (g : Governor ι) : Step ι → Option (Governor ι)
  | .elapse span => if 0 ≤ span then some { g with now := g.now + span } else none
  | .acquireInstance inst bytes => some (enter g inst bytes)
  | .acquireGlobal k =>
      match g.transfers[k]? with
      | some t => if t.release = none then some (pass g k t) else none
      | none => none

inductive Reached (rates : ι → Nat) (shared : Nat) : Governor ι → Prop where
  | begin : Reached rates shared (begin rates shared)
  | step (g after : Governor ι) (action : Step ι) (reached : Reached rates shared g)
      (performed : step g action = some after) : Reached rates shared after

/-! ## What a bucket lets through -/

inductive Bucket (ι : Type) where
  | perInstance (inst : ι)
  | shared

namespace Governor

variable (g : Governor ι)

def bucket : Bucket ι → TokenBucket
  | .perInstance inst => g.perInstance inst
  | .shared => g.shared

end Governor

/-- When a bucket on its own would let a transfer write, if it has been asked. -/
def Transfer.due (t : Transfer ι) : Bucket ι → Option ℚ
  | .perInstance inst => if t.inst = inst then some (t.entered + t.wait) else none
  | .shared => t.release.map Release.due

/-- When a transfer that passes the bucket writes, and how much later that is than the bucket would
have it. -/
def Transfer.written (t : Transfer ι) (which : Bucket ι) : Option (ℚ × ℚ) :=
  match t.due which, t.release with
  | some due, some release => some (release.wrote, release.wrote - due)
  | _, _ => none

namespace Governor

variable (g : Governor ι) (which : Bucket ι) (first last : ℚ)

/-- The transfers that pass a bucket and write in an interval. -/
def writesIn : List (Transfer ι) :=
  g.transfers.filter fun t => (t.written which).any fun w => decide (first ≤ w.1 ∧ w.1 ≤ last)

def bytesIn : Nat := ((g.writesIn which first last).map Transfer.bytes).sum

def largestIn : Nat := ((g.writesIn which first last).map Transfer.bytes).foldr max 0

/-- The longest time that anything but the bucket held one of those writes. -/
def heldIn : ℚ :=
  ((g.writesIn which first last).map fun t => ((t.written which).map Prod.snd).getD 0).foldr max 0

end Governor

/-! ## A bucket is a virtual schedule

Its burst lasts one second. -/

namespace TokenBucket

/-- The moment at which the tokens taken so far are paid for. -/
def paid (bucket : TokenBucket) : ℚ := bucket.last - bucket.tokens / bucket.rate

/-- What buckets keep: the capacity is a second's tokens, and the clock has not gone back. -/
structure Sane (bucket : TokenBucket) (now : ℚ) : Prop where
  capacity : bucket.capacity = bucket.rate
  past : bucket.last ≤ now

theorem acquire_sane (bucket : TokenBucket) (now : ℚ) (n : Nat) (sane : bucket.Sane now) :
    (bucket.acquire now n).2.Sane now ∧ (bucket.acquire now n).2.rate = bucket.rate := by
  unfold acquire
  split
  · exact ⟨sane, rfl⟩
  · dsimp only
    split
    · exact ⟨⟨sane.capacity, le_rfl⟩, rfl⟩
    · exact ⟨⟨sane.capacity, le_rfl⟩, rfl⟩

theorem Sane.later {bucket : TokenBucket} {now : ℚ} (sane : bucket.Sane now) (after : ℚ)
    (forward : now ≤ after) : bucket.Sane after :=
  ⟨sane.capacity, sane.past.trans forward⟩

theorem acquire_paid (bucket : TokenBucket) (now : ℚ) (n : Nat) (sane : bucket.Sane now)
    (limited : 0 < bucket.rate) :
    (bucket.acquire now n).2.paid = charge (bucket.rate : ℚ) 1 bucket.paid now n := by
  have hrate : (0 : ℚ) < bucket.rate := by exact_mod_cast limited
  have hleft : (bucket.acquire now n).2.paid =
      now - (min (bucket.tokens + max 0 (now - bucket.last) * bucket.rate) bucket.capacity - n) /
        bucket.rate := by
    unfold acquire
    rw [if_neg limited.ne']
    dsimp only
    split <;> rfl
  have helapsed : max 0 (now - bucket.last) = now - bucket.last :=
    max_eq_right (by linarith [sane.past])
  rw [hleft, helapsed, sane.capacity, charge, paid]
  rcases le_total (bucket.tokens + (now - bucket.last) * bucket.rate) bucket.rate with low | full
  · have hmax : now - 1 ≤ bucket.last - bucket.tokens / bucket.rate := by
      rw [le_sub_iff_add_le, ← le_sub_iff_add_le', div_le_iff₀ hrate]
      linarith
    rw [min_eq_left low, max_eq_left hmax]
    field_simp
    ring
  · have hmax : bucket.last - bucket.tokens / bucket.rate ≤ now - 1 := by
      rw [sub_le_iff_le_add, ← sub_le_iff_le_add', le_div_iff₀ hrate]
      linarith
    rw [min_eq_right full, max_eq_right hmax]
    field_simp
    ring

theorem acquire_due (bucket : TokenBucket) (now : ℚ) (n : Nat) (limited : 0 < bucket.rate) :
    now + (bucket.acquire now n).1 = dueAt (bucket.acquire now n).2.paid now := by
  have hrate : (0 : ℚ) < bucket.rate := by exact_mod_cast limited
  unfold acquire
  rw [if_neg limited.ne']
  dsimp only
  split
  · rename_i enough
    have hshare := div_nonneg (sub_nonneg.mpr enough) hrate.le
    simp only [dueAt, paid, add_zero]
    exact (max_eq_left (by linarith)).symm
  · rename_i short
    have hshare := div_nonneg (sub_nonneg.mpr (not_le.mp short).le) hrate.le
    simp only [dueAt, paid]
    generalize min (bucket.tokens + max 0 (now - bucket.last) * (bucket.rate : ℚ))
      bucket.capacity = tokens at hshare ⊢
    have hdebt : now - (tokens - n) / bucket.rate = now + (n - tokens) / bucket.rate := by ring
    rw [hdebt, max_eq_right (by linarith)]

end TokenBucket

/-! ## The buckets of a run -/

section Ledgers

variable (which : Bucket ι)

/-- What was taken out of a bucket, with the moment it was due. -/
def charged (t : Transfer ι) : Option (Charge ℚ) := (t.due which).map fun due => ⟨t.bytes, due⟩

def ledger (transfers : List (Transfer ι)) : Multiset (Charge ℚ) :=
  ↑(transfers.filterMap (charged which))

theorem ledger_append (transfers : List (Transfer ι)) (t : Transfer ι) :
    ledger which (transfers ++ [t]) =
      match charged which t with
      | some c => c ::ₘ ledger which transfers
      | none => ledger which transfers := by
  unfold ledger
  rw [List.filterMap_append]
  cases h : charged which t with
  | none => simp [h]
  | some c =>
      rw [List.filterMap_cons_some h, List.filterMap_nil, ← Multiset.coe_add, add_comm]
      rfl

omit [DecidableEq ι] in
theorem split_at (transfers : List (Transfer ι)) (k : Nat) (t : Transfer ι)
    (here : transfers[k]? = some t) : ∃ before after, transfers = before ++ t :: after ∧
      ∀ other, transfers.set k other = before ++ other :: after := by
  obtain ⟨inside, rfl⟩ := List.getElem?_eq_some_iff.mp here
  refine ⟨transfers.take k, transfers.drop (k + 1), ?_, fun other => ?_⟩
  · rw [List.getElem_cons_drop, List.take_append_drop]
  · exact List.set_eq_take_append_cons_drop.trans (if_pos inside)

theorem ledger_set (transfers : List (Transfer ι)) (k : Nat) (t other : Transfer ι)
    (here : transfers[k]? = some t) (same : charged which other = charged which t) :
    ledger which (transfers.set k other) = ledger which transfers := by
  obtain ⟨before, after, rfl, replaced⟩ := split_at transfers k t here
  rw [replaced other, ledger, ledger, List.filterMap_append, List.filterMap_append,
    List.filterMap_cons, List.filterMap_cons, same]

theorem ledger_set_new (transfers : List (Transfer ι)) (k : Nat) (t other : Transfer ι)
    (c : Charge ℚ) (here : transfers[k]? = some t) (none : charged which t = none)
    (new : charged which other = some c) :
    ledger which (transfers.set k other) = c ::ₘ ledger which transfers := by
  obtain ⟨before, after, rfl, replaced⟩ := split_at transfers k t here
  rw [replaced other, ledger, ledger, List.filterMap_append, List.filterMap_append,
    List.filterMap_cons_some new, List.filterMap_cons_none none, Multiset.cons_coe,
    Multiset.coe_eq_coe]
  exact List.perm_middle

end Ledgers

/-- In a run every bucket is a meter of what was taken out of it. -/
structure Sound (rates : ι → Nat) (shared : Nat) (g : Governor ι) : Prop where
  sane : ∀ which, (g.bucket which).Sane g.now
  perInstance : ∀ inst, (g.perInstance inst).rate = rates inst
  shared : g.shared.rate = shared
  waited : ∀ t ∈ g.transfers, t.entered ≤ g.now ∧
    ∀ release, t.release = some release → t.entered + t.wait ≤ release.wrote ∧
      release.due ≤ release.wrote
  metered : ∀ which, 0 < (g.bucket which).rate →
    Metered ((g.bucket which).rate : ℚ) 1 (g.bucket which).paid (ledger which g.transfers)

theorem metered_acquire (bucket : TokenBucket) (now : ℚ) (n : Nat) (charges : Multiset (Charge ℚ))
    (sane : bucket.Sane now) (limited : 0 < bucket.rate)
    (metered : Metered (bucket.rate : ℚ) 1 bucket.paid charges) :
    Metered ((bucket.acquire now n).2.rate : ℚ) 1 (bucket.acquire now n).2.paid
      (⟨n, now + (bucket.acquire now n).1⟩ ::ₘ charges) := by
  have hrate : (0 : ℚ) < bucket.rate := by exact_mod_cast limited
  rw [(bucket.acquire_sane now n sane).2, bucket.acquire_due now n limited,
    bucket.acquire_paid now n sane limited]
  exact metered_charge _ _ _ _ _ hrate zero_le_one (Nat.cast_nonneg n) charges metered

section Steps

variable (rates : ι → Nat) (shared : Nat)

theorem sound_begin : Sound rates shared (begin rates shared) := by
  constructor
  · intro which
    cases which <;> exact ⟨rfl, le_rfl⟩
  · exact fun _ => rfl
  · rfl
  · intro t member
    cases member
  · intro which _
    exact metered_start _ _ _

variable (g : Governor ι) (sound : Sound rates shared g)

include sound

theorem sound_elapse (span : ℚ) (forward : 0 ≤ span) :
    Sound rates shared { g with now := g.now + span } := by
  constructor
  · intro which
    have hsane := (sound.sane which).later (g.now + span) (by linarith)
    cases which <;> exact hsane
  · exact sound.perInstance
  · exact sound.shared
  · intro t member
    have hwaited := sound.waited t member
    exact ⟨hwaited.1.trans (le_add_of_nonneg_right forward), hwaited.2⟩
  · intro which limited
    have hmetered := sound.metered which
    cases which <;> exact hmetered limited

theorem sound_enter (inst : ι) (bytes : Nat) : Sound rates shared (enter g inst bytes) := by
  have hacquired := (g.perInstance inst).acquire_sane g.now bytes (sound.sane (.perInstance inst))
  constructor
  · intro which
    cases which with
    | shared => exact sound.sane .shared
    | perInstance other =>
        by_cases same : other = inst
        · subst same
          simp only [Governor.bucket, enter, Function.update_self]
          exact hacquired.1
        · simp only [Governor.bucket, enter, Function.update_of_ne same]
          exact sound.sane (.perInstance other)
  · intro other
    by_cases same : other = inst
    · subst same
      simp only [enter, Function.update_self]
      rw [hacquired.2]
      exact sound.perInstance other
    · simp only [enter, Function.update_of_ne same]
      exact sound.perInstance other
  · exact sound.shared
  · intro t member
    rcases List.mem_append.mp member with before | new
    · exact sound.waited t before
    · rw [List.mem_singleton.mp new]
      refine ⟨le_rfl, fun release released => ?_⟩
      cases released
  · intro which limited
    simp only [enter]
    rw [ledger_append]
    cases which with
    | shared => exact sound.metered .shared limited
    | perInstance other =>
        by_cases same : other = inst
        · subst same
          simp only [Governor.bucket, enter, Function.update_self, hacquired.2] at limited
          simp only [Governor.bucket, Function.update_self, charged, Transfer.due, if_true,
            Option.map_some]
          exact metered_acquire _ g.now bytes _ (sound.sane (.perInstance other)) limited
            (sound.metered (.perInstance other) limited)
        · simp only [Governor.bucket, enter, Function.update_of_ne same] at limited
          simp only [Governor.bucket, Function.update_of_ne same, charged, Transfer.due,
            if_neg (Ne.symm same), Option.map_none]
          exact sound.metered (.perInstance other) limited

theorem sound_pass (k : Nat) (t : Transfer ι) (here : g.transfers[k]? = some t)
    (waiting : t.release = none) : Sound rates shared (pass g k t) := by
  have hacquired := g.shared.acquire_sane g.now t.bytes (sound.sane .shared)
  constructor
  · intro which
    cases which with
    | shared => exact hacquired.1
    | perInstance other => exact sound.sane (.perInstance other)
  · exact sound.perInstance
  · exact hacquired.2.trans sound.shared
  · intro other member
    rcases List.mem_or_eq_of_mem_set member with before | rfl
    · exact sound.waited other before
    · have hentered := (sound.waited t (List.mem_of_getElem? here)).1
      refine ⟨hentered, fun release released => ?_⟩
      cases released
      exact ⟨add_le_add hentered (le_max_left _ _), add_le_add_right (le_max_right _ _) _⟩
  · intro which limited
    cases which with
    | shared =>
        simp only [Governor.bucket, pass, hacquired.2] at limited
        simp only [pass]
        rw [ledger_set_new .shared g.transfers k t _ _ here (by simp [charged, Transfer.due, waiting])
          rfl]
        exact metered_acquire _ g.now t.bytes _ (sound.sane .shared) limited
          (sound.metered .shared limited)
    | perInstance other =>
        simp only [pass]
        rw [ledger_set (.perInstance other) g.transfers k t
          { t with release := some ⟨g.now + (g.shared.acquire g.now t.bytes).1,
            g.now + max t.wait (g.shared.acquire g.now t.bytes).1⟩ } here rfl]
        exact sound.metered (.perInstance other) limited

omit sound in
theorem sound_of_reached (reached : Reached rates shared g) : Sound rates shared g := by
  induction reached with
  | begin => exact sound_begin rates shared
  | step before after action _ performed ih =>
      cases action with
      | elapse span =>
          rw [step] at performed
          split at performed
          · rename_i forward
            cases performed
            exact sound_elapse rates shared before ih span forward
          · cases performed
      | acquireInstance inst bytes =>
          cases performed
          exact sound_enter rates shared before ih inst bytes
      | acquireGlobal k =>
          rw [step] at performed
          split at performed
          · rename_i t here
            split at performed
            · rename_i waiting
              cases performed
              exact sound_pass rates shared before ih k t here waiting
            · cases performed
          · cases performed

end Steps

theorem le_foldr_max {α : Type} [LinearOrder α] (values : List α) (least : α) :
    least ≤ values.foldr max least ∧ ∀ a ∈ values, a ≤ values.foldr max least := by
  induction values with
  | nil => exact ⟨le_rfl, fun a member => (by cases member)⟩
  | cons b rest ih =>
      refine ⟨ih.1.trans (le_max_right _ _), fun a member => ?_⟩
      rcases List.mem_cons.mp member with rfl | later
      · exact le_max_left _ _
      · exact (ih.2 a later).trans (le_max_right _ _)

theorem total_of_due (which : Bucket ι) (transfers : List (Transfer ι))
    (asked : ∀ t ∈ transfers, ∃ due, t.due which = some due) :
    total (ledger which transfers) = ((transfers.map Transfer.bytes).sum : Nat) := by
  induction transfers with
  | nil => simp [ledger, total]
  | cons t rest ih =>
      obtain ⟨due, hdue⟩ := asked t List.mem_cons_self
      have hcharged : charged which t = some ⟨t.bytes, due⟩ := by simp [charged, hdue]
      have hrest := ih fun other member => asked other (List.mem_cons_of_mem _ member)
      rw [ledger, List.filterMap_cons_some hcharged, ← Multiset.cons_coe, total_cons]
      rw [ledger] at hrest
      rw [hrest, List.map_cons, List.sum_cons, Nat.cast_add]

section Cap

variable (rates : ι → Nat) (shared : Nat) (g : Governor ι) (which : Bucket ι) (first last : ℚ)

theorem write_in (sound : Sound rates shared g) (t : Transfer ι)
    (member : t ∈ g.writesIn which first last) : ∃ due, t.due which = some due ∧
      first - g.heldIn which first last ≤ due ∧ due ≤ last ∧
      t.bytes ≤ g.largestIn which first last := by
  have hheld := (le_foldr_max ((g.writesIn which first last).map fun t =>
    ((t.written which).map Prod.snd).getD 0) 0).2 _ (List.mem_map_of_mem member)
  have hlargest := (le_foldr_max ((g.writesIn which first last).map Transfer.bytes) 0).2 _
    (List.mem_map_of_mem member)
  obtain ⟨among, written⟩ := List.mem_filter.mp member
  cases hdue : t.due which with
  | none => simp [Transfer.written, hdue] at written
  | some due =>
      cases hrelease : t.release with
      | none => simp [Transfer.written, hdue, hrelease] at written
      | some release =>
          have hwritten : t.written which = some (release.wrote, release.wrote - due) := by
            simp [Transfer.written, hdue, hrelease]
          have hlate : due ≤ release.wrote := by
            have hwaited := (sound.waited t among).2 release hrelease
            cases which with
            | perInstance inst =>
                rw [Transfer.due] at hdue
                split at hdue
                · cases hdue
                  exact hwaited.1
                · cases hdue
            | shared =>
                rw [Transfer.due, hrelease] at hdue
                cases hdue
                exact hwaited.2
          simp only [hwritten, Option.any_some, decide_eq_true_eq] at written
          simp only [hwritten, Option.map_some, Option.getD_some] at hheld
          refine ⟨due, rfl, ?_, hlate.trans written.2, hlargest⟩
          have := written.1
          rw [Governor.heldIn]
          linarith

/-- In every interval the writes that pass a limited bucket have at most a second's bytes, the bytes
of the interval and of the time that something else held one of them, and one write more. -/
theorem bandwidth_capped (reached : Reached rates shared g)
    (limited : 0 < (g.bucket which).rate) (forward : first ≤ last) :
    (g.bytesIn which first last : ℚ) ≤
      (g.bucket which).rate +
        (g.bucket which).rate * (last - first + g.heldIn which first last) +
        g.largestIn which first last := by
  have sound := sound_of_reached rates shared g reached
  have hheld : 0 ≤ g.heldIn which first last := (le_foldr_max _ _).1
  have hbelow : ledger which (g.writesIn which first last) ≤ ledger which g.transfers :=
    Multiset.coe_le.mpr (List.Sublist.filterMap _ List.filter_sublist).subperm
  have hwithin : ∀ c ∈ ledger which (g.writesIn which first last),
      first - g.heldIn which first last ≤ c.due ∧ c.due ≤ last ∧
        c.amount ≤ (g.largestIn which first last : Nat) := by
    intro c member
    obtain ⟨t, among, hcharged⟩ := List.mem_filterMap.mp (Multiset.mem_coe.mp member)
    obtain ⟨due, hdue, early, late, small⟩ := write_in rates shared g which first last sound t among
    simp only [charged, hdue, Option.map_some, Option.some.injEq] at hcharged
    subst hcharged
    exact ⟨early, late, Nat.cast_le.mpr small⟩
  have hinterval := metered_interval _ 1 _ _ _ (sound.metered which limited)
    (Nat.cast_pos.mpr limited) zero_le_one _ _ _ (by linarith) (Nat.cast_nonneg _) hbelow hwithin
  have htotal := total_of_due which (g.writesIn which first last) fun t among =>
    (write_in rates shared g which first last sound t among).imp fun _ h => h.1
  rw [htotal] at hinterval
  rw [Governor.bytesIn]
  have hlength : last - (first - g.heldIn which first last) =
      last - first + g.heldIn which first last := by ring
  rw [hlength, mul_one] at hinterval
  linarith

end Cap

/-! ## A debt of the other bucket

A large write of one instance puts the global bucket in debt. The small writes
of another instance wait for it and then come at the global rate. -/

def run (g : Governor ι) : List (Step ι) → Option (Governor ι)
  | [] => some g
  | action :: rest => (step g action).bind fun after => run after rest

theorem reached_of_run (rates : ι → Nat) (shared : Nat) (g after : Governor ι)
    (reached : Reached rates shared g) (actions : List (Step ι))
    (ran : run g actions = some after) : Reached rates shared after := by
  induction actions generalizing g with
  | nil =>
      cases ran
      exact reached
  | cons action rest ih =>
      obtain ⟨now, performed, later⟩ := Option.bind_eq_some_iff.mp ran
      exact ih now (.step g now action reached performed) later

def slowAndFree : Bool → Nat
  | false => 1
  | true => 0

/-- Forty bytes of the free instance, then a byte of the slow one each second. -/
def behindDebt : List (Step Bool) :=
  [.acquireInstance true 40, .acquireGlobal 0,
    .acquireInstance false 1, .acquireGlobal 1, .elapse 1,
    .acquireInstance false 1, .acquireGlobal 2, .elapse 1,
    .acquireInstance false 1, .acquireGlobal 3, .elapse 1,
    .acquireInstance false 1, .acquireGlobal 4, .elapse 1,
    .acquireInstance false 1, .acquireGlobal 5]

/-- The five bytes held back since the start come within a second. -/
theorem bandwidth_capped_behind_debt : ∃ g : Governor Bool, Reached slowAndFree 4 g ∧
    (g.bytesIn (.perInstance false) 9 (41 / 4) : ℚ) = 5 ∧
    (g.bytesIn (.perInstance false) 9 (41 / 4) : ℚ) ≤
      (g.bucket (.perInstance false)).rate +
        (g.bucket (.perInstance false)).rate *
          (41 / 4 - 9 + g.heldIn (.perInstance false) 9 (41 / 4)) +
        g.largestIn (.perInstance false) 9 (41 / 4) := by
  have hrun : ((run (begin slowAndFree 4) behindDebt).all fun g =>
      decide ((g.bytesIn (.perInstance false) 9 (41 / 4) : ℚ) = 5 ∧
        0 < (g.bucket (.perInstance false)).rate)) = true := by decide +kernel
  have hsome : (run (begin slowAndFree 4) behindDebt).isSome = true := by decide
  obtain ⟨g, ran⟩ := Option.isSome_iff_exists.mp hsome
  rw [ran, Option.all_some, decide_eq_true_eq] at hrun
  have reached := reached_of_run slowAndFree 4 _ g .begin behindDebt ran
  exact ⟨g, reached, hrun.1, bandwidth_capped slowAndFree 4 g (.perInstance false) 9 (41 / 4)
    reached hrun.2 (by decide +kernel)⟩

theorem debt_released_at_once : ¬ ∀ g : Governor Bool, Reached slowAndFree 4 g →
    ∀ which, 0 < (g.bucket which).rate → ∀ first last, first ≤ last → ∀ most : Nat,
      (∀ t ∈ g.transfers, (t.due which).isSome = true → t.bytes ≤ most) →
        (g.bytesIn which first last : ℚ) ≤
          (g.bucket which).rate + (g.bucket which).rate * (last - first) + most := by
  intro capped
  have hrun : ((run (begin slowAndFree 4) behindDebt).all fun g =>
      decide ((g.bytesIn (.perInstance false) 9 (41 / 4) : ℚ) = 5 ∧
        (g.bucket (.perInstance false)).rate = 1 ∧
        ∀ t ∈ g.transfers, (t.due (.perInstance false)).isSome = true → t.bytes ≤ 1)) = true := by
    decide +kernel
  have hsome : (run (begin slowAndFree 4) behindDebt).isSome = true := by decide
  obtain ⟨g, ran⟩ := Option.isSome_iff_exists.mp hsome
  rw [ran, Option.all_some, decide_eq_true_eq] at hrun
  obtain ⟨hbytes, hrate, hsmall⟩ := hrun
  have reached := reached_of_run slowAndFree 4 _ g .begin behindDebt ran
  have hcap := capped g reached (.perInstance false) (by rw [hrate]; decide) 9 (41 / 4)
    (by decide +kernel) 1 hsmall
  rw [hbytes, hrate] at hcap
  norm_num at hcap

end FileReplicator.Bandwidth
