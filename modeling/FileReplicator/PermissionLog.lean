import Mathlib.Data.Finset.Insert
import FileReplicator.Domain
import FileReplicator.Tables

/-!
# The permission log

An error at a path is logged once, and again after an hour or once the path has
been accessible in between. Entries are kept for a path and a kind of error;
recovery goes by the path alone.
-/

namespace FileReplicator.PermissionLog

open Tables

variable {κ : Type} [DecidableEq κ]

def relogIntervalMs : Int := 60 * 60 * 1000

/-- When a path and a kind of error were last logged. -/
abbrev Log (κ : Type) := Table (String × κ) Int

def new : Log κ := ∅

/-- The difference of two clock values, in 64 bits. -/
def elapsed (now last : Int) : Int := Int.bmod (now - last) 18446744073709551616

def shouldLog (log : Log κ) (path : String) (kind : κ) (now : Int) : Bool × Log κ :=
  match log.lookup (path, kind) with
  | some last =>
      if relogIntervalMs ≤ elapsed now last then (true, log.insert (path, kind) now)
      else (false, log)
  | none => (true, log.insert (path, kind) now)

/-- One key that is gone: its path is told once. -/
def evict (out : List String × Log κ) (key : String × κ) : List String × Log κ :=
  (if key.1 ∈ out.1 then out.1 else out.1 ++ [key.1], out.2.erase key)

/-- `recovered`, with the keys in the order in which the map gives them. -/
def recoveredIn (order : List (String × κ)) (stillErroring : Finset String) (log : Log κ) :
    List String × Log κ :=
  (order.filter fun key => decide (key.1 ∉ stillErroring)).foldl evict ([], log)

def recovered (stillErroring : Finset String) (log : Log κ) : List String × Log κ :=
  recoveredIn log.keys stillErroring log

def tell (now : Int) (out : List (String × κ) × Log κ) (issue : String × κ) :
    List (String × κ) × Log κ :=
  let answer := shouldLog out.2 issue.1 issue.2 now
  (if answer.1 then out.1 ++ [issue] else out.1, answer.2)

/-- `report_scan_issues`: which issues are told, which paths are told to be accessible again. -/
def reportScanIssues (issues : List (String × κ)) (now : Int) (log : Log κ) :
    List (String × κ) × List String × Log κ :=
  let told := issues.foldl (tell now) ([], log)
  let gone := recovered (issues.map Prod.fst).toFinset told.2
  (told.1, gone.1, gone.2)

/-! ## What a call does -/

theorem lookup_should_log (log : Log κ) (path : String) (kind : κ) (now : Int) (key : String × κ) :
    (shouldLog log path kind now).2.lookup key =
      if key = (path, kind) ∧ (shouldLog log path kind now).1 = true then some now
      else log.lookup key := by
  unfold shouldLog
  cases found : log.lookup (path, kind) with
  | none => simp [lookup_insert]
  | some last =>
      by_cases due : relogIntervalMs ≤ elapsed now last
      · simp [due, lookup_insert]
      · simp [due]

theorem should_log_iff (log : Log κ) (path : String) (kind : κ) (now : Int) :
    (shouldLog log path kind now).1 = true ↔
      ∀ last, log.lookup (path, kind) = some last → relogIntervalMs ≤ elapsed now last := by
  unfold shouldLog
  cases log.lookup (path, kind) with
  | none => simp
  | some last => by_cases due : relogIntervalMs ≤ elapsed now last <;> simp [due]

theorem elapsed_le (now last : Int) (forward : last ≤ now) : elapsed now last ≤ now - last := by
  have whole : ∀ (x : Int) (m : Nat), 0 ≤ x → Int.bmod x m ≤ x := by
    intro x m forward
    have turns : 0 ≤ (m : Int) * (x / m) :=
      Int.mul_nonneg (Int.natCast_nonneg m) (Int.ediv_nonneg forward (Int.natCast_nonneg m))
    rw [Int.bmod_eq_emod, Int.emod_def]
    split_ifs <;> omega
  exact whole (now - last) _ (by omega)

/-- Keys that are gone leave the log one by one, and their paths are gathered without repetition. -/
theorem foldl_evict (gone : List (String × κ)) (out : List String × Log κ) (distinct : out.1.Nodup) :
    (gone.foldl evict out).1.Nodup ∧
      (∀ path, path ∈ (gone.foldl evict out).1 ↔
        path ∈ out.1 ∨ ∃ kind, (path, kind) ∈ gone) ∧
      ∀ key, (gone.foldl evict out).2.lookup key = if key ∈ gone then none else out.2.lookup key := by
  induction gone generalizing out with
  | nil => simpa using distinct
  | cons first rest ih =>
      have kept : (evict out first).1.Nodup := by
        by_cases known : first.1 ∈ out.1
        · simpa [evict, known] using distinct
        · simp only [evict, if_neg known]
          exact List.nodup_append'.mpr ⟨distinct, List.nodup_singleton _, by simpa using known⟩
      have told : ∀ path, path ∈ (evict out first).1 ↔ path ∈ out.1 ∨ path = first.1 := by
        intro path
        by_cases known : first.1 ∈ out.1
        · simp only [evict, if_pos known]
          exact ⟨Or.inl, fun h => h.elim id fun same => same ▸ known⟩
        · simp [evict, known]
      obtain ⟨nodup, paths, table⟩ := ih (evict out first) kept
      rw [List.foldl_cons]
      refine ⟨nodup, fun path => ?_, fun key => ?_⟩
      · rw [paths, told]
        simp only [List.mem_cons, Prod.ext_iff]
        grind
      · rw [table, evict, lookup_erase]
        by_cases same : key = first
        · simp [same]
        · simp [same]

/-- What is recovered is the tracked paths that do not fail any more, each of them once; the entries
of the others stay. -/
theorem recovered_spec (log : Log κ) (stillErroring : Finset String) (order : List (String × κ))
    (all : order.Perm log.keys) :
    (recoveredIn order stillErroring log).1.Nodup ∧
      (∀ path, path ∈ (recoveredIn order stillErroring log).1 ↔
        path ∉ stillErroring ∧ ∃ kind last, log.lookup (path, kind) = some last) ∧
      ∀ key, (recoveredIn order stillErroring log).2.lookup key =
        if key.1 ∈ stillErroring then log.lookup key else none := by
  obtain ⟨nodup, paths, table⟩ := foldl_evict
    (order.filter fun key => decide (key.1 ∉ stillErroring)) ([], log) List.nodup_nil
  have tracked : ∀ key, key ∈ order ↔ ∃ last, log.lookup key = some last := by
    intro key
    rw [all.mem_iff, ← AList.mem_keys, ← AList.lookup_isSome, Option.isSome_iff_exists]
  refine ⟨nodup, fun path => ?_, fun key => ?_⟩
  · rw [recoveredIn, paths]
    simp only [List.mem_filter, tracked, decide_eq_true_eq, List.not_mem_nil, false_or]
    constructor
    · rintro ⟨kind, ⟨last, found⟩, gone⟩
      exact ⟨gone, kind, last, found⟩
    · rintro ⟨gone, kind, last, found⟩
      exact ⟨kind, ⟨last, found⟩, gone⟩
  · rw [recoveredIn, table]
    simp only [List.mem_filter, tracked, decide_eq_true_eq]
    by_cases failing : key.1 ∈ stillErroring
    · simp [failing]
    · cases found : log.lookup key with
      | none => simp [failing]
      | some last => simp [failing, (tracked key).mpr ⟨last, found⟩]

theorem mem_recovered (log : Log κ) (stillErroring : Finset String) (path : String) :
    path ∈ (recovered stillErroring log).1 ↔
      path ∉ stillErroring ∧ ∃ kind last, log.lookup (path, kind) = some last :=
  (recovered_spec log stillErroring log.keys (List.Perm.refl _)).2.1 path

theorem lookup_recovered (log : Log κ) (stillErroring : Finset String) (key : String × κ) :
    (recovered stillErroring log).2.lookup key =
      if key.1 ∈ stillErroring then log.lookup key else none :=
  (recovered_spec log stillErroring log.keys (List.Perm.refl _)).2.2 key

/-! ## Histories -/

inductive Call (κ : Type) where
  | shouldLog (path : String) (kind : κ) (now : Int)
  | recovered (stillErroring : Finset String)

def perform (log : Log κ) : Call κ → Log κ
  | .shouldLog path kind now => (shouldLog log path kind now).2
  | .recovered stillErroring => (recovered stillErroring log).2

def replay (history : List (Call κ)) : Log κ := history.foldl perform new

/-- A report is a call for each issue and one for the paths that are accessible again, none of which
has an issue. -/
theorem report_spec (issues : List (String × κ)) (now : Int) (log : Log κ) :
    (reportScanIssues issues now log).2.2 =
        (issues.map (fun issue : String × κ => Call.shouldLog issue.1 issue.2 now) ++
          [Call.recovered (issues.map Prod.fst).toFinset]).foldl perform log ∧
      ∀ path ∈ (reportScanIssues issues now log).2.1, path ∉ issues.map Prod.fst := by
  have told : ∀ out : List (String × κ) × Log κ, (issues.foldl (tell now) out).2 =
      (issues.map fun issue : String × κ => Call.shouldLog issue.1 issue.2 now).foldl perform out.2 := by
    induction issues with
    | nil => exact fun _ => rfl
    | cons first rest ih =>
        intro out
        rw [List.foldl_cons, ih, List.map_cons, List.foldl_cons]
        rfl
  constructor
  · rw [List.foldl_append, ← told ([], log)]
    rfl
  · intro path member
    have gone := ((mem_recovered _ _ path).mp member).1
    simpa using gone

def answer (history : List (Call κ)) (path : String) (kind : κ) (now : Int) : Bool :=
  (shouldLog (replay history) path kind now).1

def Call.time : Call κ → Option Int
  | .shouldLog _ _ now => some now
  | .recovered _ => none

def Ordered (history : List (Call κ)) : Prop := (history.filterMap Call.time).Pairwise (· ≤ ·)

/-- The call may change what is known of the pair. -/
def concerns (path : String) (kind : κ) : Call κ → Bool
  | .shouldLog other kind' _ => (other, kind') = (path, kind)
  | .recovered stillErroring => path ∉ stillErroring

/-- The pair has not been asked about since the start, or since its path was given up. -/
def Fresh (path : String) (kind : κ) (history : List (Call κ)) : Prop :=
  ∃ before after, history = before ++ after ∧
    (before = [] ∨ ∃ earlier stillErroring,
      before = earlier ++ [.recovered stillErroring] ∧ path ∉ stillErroring) ∧
    ∀ c ∈ after, ∀ now, c ≠ .shouldLog path kind now

/-- The path was reported to be accessible again somewhere between. -/
def Restored (path : String) (before between : List (Call κ)) : Prop :=
  ∃ first stillErroring last, between = first ++ .recovered stillErroring :: last ∧
    path ∈ (recovered stillErroring (replay (before ++ first))).1

theorem replay_snoc (history : List (Call κ)) (c : Call κ) :
    replay (history ++ [c]) = perform (replay history) c := by
  simp [replay]

theorem lookup_ask (log : Log κ) (path : String) (kind : κ) (now : Int) :
    (perform log (.shouldLog path kind now)).lookup (path, kind) =
      if (shouldLog log path kind now).1 then some now else log.lookup (path, kind) := by
  rw [perform, lookup_should_log]
  simp

theorem lookup_given_up (log : Log κ) (stillErroring : Finset String) (path : String) (kind : κ)
    (gone : path ∉ stillErroring) :
    (perform log (.recovered stillErroring)).lookup (path, kind) = none := by
  rw [perform, lookup_recovered, if_neg gone]

theorem lookup_other (log : Log κ) (c : Call κ) (path : String) (kind : κ)
    (apart : concerns path kind c = false) :
    (perform log c).lookup (path, kind) = log.lookup (path, kind) := by
  cases c with
  | shouldLog other kind' now =>
      rw [perform, lookup_should_log, if_neg fun h => of_decide_eq_false apart h.1.symm]
  | recovered stillErroring =>
      have failing : path ∈ stillErroring := not_not.mp (of_decide_eq_false apart)
      rw [perform, lookup_recovered, if_pos failing]

theorem Restored.snoc {path : String} {before between : List (Call κ)}
    (restored : Restored path before between) (c : Call κ) :
    Restored path before (between ++ [c]) := by
  obtain ⟨first, stillErroring, last, cut, told⟩ := restored
  exact ⟨first, stillErroring, last ++ [c], by rw [cut, List.append_assoc, List.cons_append], told⟩

/-! ## What is known of a pair -/

/-- Until its path is reported, a pair that was logged stays tracked, with the time of a call that
came since. The induction is on the calls from the last one. -/
theorem tracked_or_restored (path : String) (kind : κ) (first : Int) (before between : List (Call κ))
    (logged : answer before path kind first = true) :
    Restored path (before ++ [.shouldLog path kind first]) between ∨
      ∃ last, (replay (before ++ [.shouldLog path kind first] ++ between)).lookup (path, kind) =
          some last ∧
        (last = first ∨ ∃ c ∈ between, c.time = some last) := by
  induction between using List.reverseRecOn with
  | nil =>
      refine Or.inr ⟨first, ?_, Or.inl rfl⟩
      rw [List.append_nil, replay_snoc, lookup_ask]
      exact if_pos logged
  | append_singleton between c ih =>
      rcases ih with restored | ⟨last, found, since⟩
      · exact Or.inl (restored.snoc c)
      · have later : last = first ∨ ∃ d ∈ between ++ [c], d.time = some last :=
          since.imp_right fun ⟨d, member, time⟩ => ⟨d, List.mem_append_left _ member, time⟩
        rw [← List.append_assoc, replay_snoc]
        cases touched : concerns path kind c with
        | false =>
            rw [lookup_other _ c path kind touched]
            exact Or.inr ⟨last, found, later⟩
        | true =>
            cases c with
            | shouldLog other kind' now =>
                have same : (other, kind') = (path, kind) := of_decide_eq_true touched
                cases same
                rw [lookup_ask]
                -- asked again: logged at that time, or the entry is left as it is
                split
                · exact Or.inr ⟨now, rfl, Or.inr ⟨.shouldLog path kind now, by simp, rfl⟩⟩
                · exact Or.inr ⟨last, found, later⟩
            | recovered stillErroring =>
                -- given up while tracked, so it is among the paths reported
                have gone : path ∉ stillErroring := of_decide_eq_true touched
                exact Or.inl ⟨between, stillErroring, [], rfl,
                  (mem_recovered _ stillErroring path).mpr ⟨gone, kind, last, found⟩⟩

theorem untracked_of_fresh (path : String) (kind : κ) (history : List (Call κ))
    (fresh : Fresh path kind history) : (replay history).lookup (path, kind) = none := by
  obtain ⟨before, after, rfl, opened, unasked⟩ := fresh
  induction after using List.reverseRecOn with
  | nil =>
      rw [List.append_nil]
      rcases opened with rfl | ⟨earlier, stillErroring, rfl, gone⟩
      · rfl
      · rw [replay_snoc, lookup_given_up _ stillErroring path kind gone]
  | append_singleton after c ih =>
      have untracked := ih fun d member => unasked d (List.mem_append_left _ member)
      rw [← List.append_assoc, replay_snoc]
      cases touched : concerns path kind c with
      | false => rw [lookup_other _ c path kind touched, untracked]
      | true =>
          cases c with
          | shouldLog other kind' now =>
              have same : (other, kind') = (path, kind) := of_decide_eq_true touched
              cases same
              exact absurd rfl (unasked _ (by simp) now)
          | recovered stillErroring =>
              exact lookup_given_up _ stillErroring path kind (of_decide_eq_true touched)

theorem answer_congr (log other : Log κ) (path : String) (kind : κ) (now : Int)
    (same : log.lookup (path, kind) = other.lookup (path, kind)) :
    (shouldLog log path kind now).1 = (shouldLog other path kind now).1 := by
  rw [Bool.eq_iff_iff, should_log_iff, should_log_iff, same]

theorem lookup_concerning (path : String) (kind : κ) (history : List (Call κ)) :
    (replay history).lookup (path, kind) =
      (replay (history.filter (concerns path kind))).lookup (path, kind) := by
  induction history using List.reverseRecOn with
  | nil => rfl
  | append_singleton history c ih =>
      rw [replay_snoc, List.filter_append]
      cases touched : concerns path kind c with
      | false =>
          rw [lookup_other _ c path kind touched, ih, List.filter_cons_of_neg (by simp [touched]),
            List.filter_nil, List.append_nil]
      | true =>
          rw [List.filter_cons_of_pos touched, List.filter_nil, replay_snoc]
          cases c with
          | shouldLog other kind' now =>
              have same : (other, kind') = (path, kind) := of_decide_eq_true touched
              cases same
              rw [lookup_ask, lookup_ask, answer_congr _ _ _ _ _ ih, ih]
          | recovered stillErroring =>
              have gone : path ∉ stillErroring := of_decide_eq_true touched
              rw [lookup_given_up _ _ _ _ gone, lookup_given_up _ _ _ _ gone]

theorem spaced (path : String) (kind : κ) (before between : List (Call κ)) (first last : Int)
    (ordered : Ordered (before ++ [.shouldLog path kind first] ++ between ++
      [.shouldLog path kind last]))
    (logged : answer before path kind first = true)
    (again : answer (before ++ [.shouldLog path kind first] ++ between) path kind last = true) :
    relogIntervalMs ≤ last - first ∨
      Restored path (before ++ [.shouldLog path kind first]) between := by
  rcases tracked_or_restored path kind first before between logged with restored | ⟨noted, found, since⟩
  · exact Or.inr restored
  · left
    have due := (should_log_iff _ path kind last).mp again noted found
    simp only [Ordered, List.filterMap_append, List.append_assoc, List.filterMap_cons, Call.time,
      List.filterMap_nil] at ordered
    have tail := (List.pairwise_append.mp ordered).2.1
    obtain ⟨_, _, across⟩ := List.pairwise_append.mp tail
    have forward : noted ≤ last ∧ first ≤ noted := by
      rcases since with rfl | ⟨c, member, time⟩
      · exact ⟨across _ (by simp) last (by simp), le_rfl⟩
      · have among : noted ∈ between.filterMap Call.time := List.mem_filterMap.mpr ⟨c, member, time⟩
        obtain ⟨_, ends, _⟩ := List.pairwise_append.mp tail
        refine ⟨?_, across first (by simp) noted (List.mem_append_left _ among)⟩
        exact (List.pairwise_append.mp ends).2.2 noted among last (by simp)
    -- the 64-bit difference may wrap, but only to something smaller
    have wrapped := elapsed_le last noted forward.1
    omega

/-- An error is told when it is new, when its path was accessible in between, and after an hour; what
is recovered is told path by path, and no other pair or path makes a difference. -/
theorem logged_once (path : String) (kind : κ) :
    (∀ before between first last,
        Ordered (before ++ [.shouldLog path kind first] ++ between ++ [.shouldLog path kind last]) →
        answer before path kind first = true →
        answer (before ++ [.shouldLog path kind first] ++ between) path kind last = true →
        relogIntervalMs ≤ last - first ∨
          Restored path (before ++ [.shouldLog path kind first]) between) ∧
      (∀ history now, Fresh path kind history → answer history path kind now = true) ∧
      (∀ (log : Log κ) (order : List (String × κ)) (stillErroring : Finset String),
        order.Perm log.keys →
        (recoveredIn order stillErroring log).1.Nodup ∧
          (∀ path, path ∈ (recoveredIn order stillErroring log).1 ↔
            path ∉ stillErroring ∧ ∃ kind last, log.lookup (path, kind) = some last) ∧
          ∀ key, (recoveredIn order stillErroring log).2.lookup key =
            if key.1 ∈ stillErroring then log.lookup key else none) ∧
      ∀ history others now,
        others.filter (concerns path kind) = history.filter (concerns path kind) →
        answer others path kind now = answer history path kind now := by
  refine ⟨spaced path kind, ?_, fun log order stillErroring all =>
    recovered_spec log stillErroring order all, ?_⟩
  · intro history now fresh
    refine (should_log_iff _ path kind now).mpr fun last found => ?_
    rw [untracked_of_fresh path kind history fresh] at found
    cases found
  · intro history others now same
    refine answer_congr _ _ path kind now ?_
    rw [lookup_concerning path kind others, same, ← lookup_concerning]

/-- An hour after it was told, an error is told again. -/
theorem logged_once_hourly :
    relogIntervalMs ≤ 3600000 - 0 ∨
      Restored "/in" ([] ++ [.shouldLog "/in" Domain.IoKind.permissionDenied 0])
        [.shouldLog "/in" .notFound 5, .shouldLog "/in" .permissionDenied 10, .recovered {"/in"}] := by
  refine (logged_once "/in" Domain.IoKind.permissionDenied).1 []
    [.shouldLog "/in" .notFound 5, .shouldLog "/in" .permissionDenied 10, .recovered {"/in"}]
    0 3600000 ?_ ?_ ?_
  · unfold Ordered
    decide
  · decide
  · decide

end FileReplicator.PermissionLog
