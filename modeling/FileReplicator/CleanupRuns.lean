import FileReplicator.Annotations
import FileReplicator.CleanupRows
import FileReplicator.DrainRuns

/-!
# Cleanups in undisturbed runs

Ticks of the run loop and what they start, while no statement is refused, nothing is
triggered or restarted, and no batch is aborted. Whoever is to do with a row's cleanup
is alone with the row: the tick that has the lock and no batch out, or the item of the
row.
-/

namespace FileReplicator.CleanupRuns

open Domain DurableStore Effects Interleaving Annotations Attempts SourceActions Retry Operations Worker
open Instance Steps Drains.Place
open DrainCalls (crew outOf relpathOf)
open CleanupCalls (Notes Role Stage isOrdinary learnMarked learnStarted learnOutcome cleaning)
open CleanupRows

variable (setup : Setup)

/-! ## The instance -/

abbrev Pair := Drains.Notes × CleanupCalls.Notes

def finished (n : Pair) : Prop := Drains.Finished n.1 ∧ CleanupCalls.Finished n.2

/-- The instance, with how far its ticks are and what they clean up. -/
abbrev squad := machine setup (both Drains.drains (cleaning setup)) finished fun spec =>
  (Drains.start spec, CleanupCalls.start spec)

abbrev Hand := Thread Op Ret Spec Pair

abbrev Squad := Config Op Ret World Spec Pair

theorem squad_annotates : Annotates (squad setup) (crew setup) Prod.fst where
  main := rfl
  owner := rfl
  react := rfl
  start := fun _ => rfl
  learn := fun _ _ _ => rfl
  perform := by
    intro t live world operation answer
    show perform setup world t live operation answer =
      perform setup world (forgetThread Prod.fst t) live operation answer
    rw [perform_retold, perform_retold setup (forgetThread Prod.fst t)]
    rfl

theorem main_keeps (spec : Spec) (ordinary : isOrdinary spec = true) :
    Keeps (both Drains.drains (cleaning setup)) (main setup spec)
      (Drains.start spec, CleanupCalls.start spec) fun _ after => finished after :=
  keeps_both Drains.drains (cleaning setup) (main setup spec) _ _ _ _ (Drains.main_keeps setup spec)
    (CleanupCalls.main_keeps setup spec ordinary)

def isRefusal : Answer → Bool
  | .refused _ => true
  | _ => false

/-- A call that no fault of the store refuses and that aborts no batch. -/
def calm (operation : Op) (answer : Answer) : Bool :=
  match operation with
  | .store _ => !isRefusal answer
  | .abortBatch => false
  | _ => true

def nextCall (c : Squad) (id : Nat) : Option Op :=
  match (c.threads.find? fun t => t.id = id).map Thread.prog with
  | some (.call operation _) => some operation
  | _ => none

/-- No fault of the store, no abort of a batch, no trigger, no restart; and no clock reads the time
that stands for never. -/
def undisturbed (c : Squad) : Choice Answer Event → Bool
  | .run id answer => (nextCall c id).all fun operation => calm operation answer
  | .kill _ => true
  | .env .crash | .env (.boot _) | .env (.trigger _ _ _) => false
  | .env (.periodic now _) => now < cleanupNoRetry
  | .env _ => true

theorem calm_of_undisturbed (c : Squad) (distinct : Distinct c) (t : Hand) (member : t ∈ c.threads)
    (operation : Op) (next : Ret operation → Program Unit) (prog : t.prog = .call operation next)
    (answer : Answer) (met : undisturbed c (.run t.id answer) = true) :
    calm operation answer = true := by
  have calls : nextCall c t.id = some operation := by
    rw [nextCall, find_thread c distinct t member, Option.map_some, prog]
  rw [undisturbed, calls] at met
  exact met

/-! ## Where a thread is -/

/-- Where the tick is and what it has listed go together. -/
def Stands (place : Drains.Place) (n : Notes) : Prop :=
  match n.role with
  | .outside => place.inside = false ∧ n.Idle
  | .promoting _ | .listing | .cleaning => place = .preparing
  | .claiming held => place.inside = true ∧ n.Idle ∧ (held = [] ∨ outOf place = none)
  | _ => False

def Fits : Spec → Pair → Prop
  | .tick now _ redriveCleanup _, (.tick p, n) =>
      redriveCleanup = false ∧ now < cleanupNoRetry ∧ n.now = now ∧ Stands p.place n
  | .item _ item now, (.item own, n) =>
      own = item.relpath ∧ n.role = .item ∧ n.now = now ∧ ∀ copy ∈ n.desk, copy.relpath = item.relpath
  | .attempt _ _, (.aside, n) | .action _ _, (.aside, n) | .quarantine _ _, (.aside, n) =>
      n.role = .aside ∧ n.Idle
  | _, _ => False

theorem fits_start (spec : Spec) (ordinary : isOrdinary spec = true)
    (early : ∀ now ignoreWindow redriveCleanup fuel,
      spec = .tick now ignoreWindow redriveCleanup fuel → now < cleanupNoRetry) :
    Fits spec (Drains.start spec, CleanupCalls.start spec) := by
  cases spec with
  | recover now => cases ordinary
  | tick now ignoreWindow redriveCleanup fuel =>
      cases redriveCleanup with
      | true => cases ordinary
      | false => exact ⟨rfl, early _ _ _ _ rfl, rfl, rfl, rfl, rfl⟩
  | item owner item now =>
      refine ⟨rfl, rfl, rfl, fun copy member => ?_⟩
      obtain rfl := List.mem_singleton.mp member
      rfl
  | _ => exact ⟨rfl, rfl, rfl⟩

theorem fits_cases (spec : Spec) (n : Pair) (fits : Fits spec n) :
    (∃ now ignoreWindow fuel p, spec = .tick now ignoreWindow false fuel ∧ n.1 = .tick p ∧
      now < cleanupNoRetry ∧ n.2.now = now ∧ Stands p.place n.2) ∨
    (∃ id item now, spec = .item id item now ∧ n.1 = .item item.relpath ∧ n.2.role = .item ∧
      n.2.now = now ∧ ∀ copy ∈ n.2.desk, copy.relpath = item.relpath) ∨
    (n.1 = .aside ∧ n.2.role = .aside ∧ n.2.Idle) := by
  obtain ⟨place, n⟩ := n
  cases spec with
  | recover now => cases place <;> cases fits
  | tick now ignoreWindow redriveCleanup fuel =>
      cases place with
      | tick p =>
          obtain ⟨rfl, early, clock, stands⟩ := fits
          exact Or.inl ⟨now, ignoreWindow, fuel, p, rfl, rfl, early, clock, stands⟩
      | _ => cases fits
  | item id item now =>
      cases place with
      | item own =>
          obtain ⟨rfl, role, clock, desk⟩ := fits
          exact Or.inr (Or.inl ⟨id, item, now, rfl, rfl, role, clock, desk⟩)
      | _ => cases fits
  | _ =>
      cases place with
      | aside => exact Or.inr (Or.inr ⟨rfl, fits⟩)
      | _ => cases fits

section Learning

variable (n : Notes) (operation : Op) (ret : Ret operation)

theorem learn_now : (CleanupCalls.learn n operation ret).now = n.now := by
  unfold CleanupCalls.learn
  split
  case h_3 =>
    rename_i state rows
    cases state <;> rfl
  case h_6 =>
    unfold learnMarked
    split <;> rfl
  case h_9 =>
    unfold learnStarted
    split <;> rfl
  case h_10 =>
    unfold learnOutcome
    split <;> rfl
  all_goals rfl

def isEarly : Role → Bool
  | .promoting _ | .listing | .cleaning => true
  | _ => false

/-- What a call that is not a tick's own does to what its caller cleans up: nothing, or the caller
lists rows and goes on listing, or it goes on with a row that it has. -/
theorem learn_cases (other : Drains.ofTick operation = false)
    (may : CleanupCalls.allowed setup n operation) :
    CleanupCalls.learn n operation ret = n ∨
    (isEarly n.role = true ∧ isEarly (CleanupCalls.learn n operation ret).role = true) ∨
    ((CleanupCalls.learn n operation ret).role = n.role ∧ n.desk ≠ [] ∧
      ∀ copy ∈ (CleanupCalls.learn n operation ret).desk, copy ∈ n.desk) := by
  have lists {role : Role} (is : n.role = role) (early : isEarly role = true) : isEarly n.role = true := by
    rw [is]
    exact early
  -- the row at hand is let go of
  have freed (copy : WorkItem) (is : n.stage.copy = some copy) :
      n.desk ≠ [] ∧ ∀ copy ∈ Notes.desk { n with stage := .free }, copy ∈ n.desk := by
    constructor
    · rw [Notes.desk, is]
      exact List.cons_ne_nil _ _
    · exact fun copy member => List.mem_append_right _ member
  -- the row at hand stays at hand
  have restaged (copy : WorkItem) (is : n.stage.copy = some copy) (stage : Stage)
      (same : stage.copy = some copy) :
      n.desk ≠ [] ∧ ∀ copy ∈ Notes.desk { n with stage := stage }, copy ∈ n.desk := by
    have desk : Notes.desk { n with stage := stage } = n.desk := by
      rw [Notes.desk, Notes.desk, is, same]
    rw [desk, Notes.desk, is]
    exact ⟨List.cons_ne_nil _ _, fun _ => id⟩
  cases operation with
  | store operation =>
      cases operation with
      | listByState state =>
          cases state with
          | failed =>
              have early := lists may.1 rfl
              cases ret with
              | error e => exact Or.inl rfl
              | ok rows => exact Or.inr (Or.inl ⟨early, rfl⟩)
          | cleanupPending =>
              obtain ⟨_, rows, role⟩ := may
              have early := lists role rfl
              cases ret with
              | error e => exact Or.inl rfl
              | ok rows => exact Or.inr (Or.inl ⟨early, rfl⟩)
          | cleanupFailed =>
              have early := lists may.2 rfl
              cases ret with
              | error e => exact Or.inl rfl
              | ok rows => exact Or.inr (Or.inl ⟨early, rfl⟩)
          | _ => exact may.elim
      | setState relpath state now =>
          cases state with
          | cleanupPending =>
              obtain ⟨_, free, copy, rest, first, _⟩ := may
              have marks : CleanupCalls.learn n (.store (.setState relpath .cleanupPending now)) ret =
                  { n with copies := rest, stage := .marked copy } := by
                show learnMarked n = _
                rw [learnMarked, first]
              have desk : Notes.desk { n with copies := rest, stage := .marked copy } = n.desk := by
                rw [Notes.desk, Notes.desk, free, first]
                rfl
              rw [marks, desk, Notes.desk, first]
              refine Or.inr (Or.inr ⟨rfl, ?_, fun _ => id⟩)
              exact List.append_ne_nil_of_right_ne_nil _ (List.cons_ne_nil _ _)
          | completed =>
              obtain ⟨_, copy, done, is, _⟩ := may
              exact Or.inr (Or.inr ⟨rfl, freed copy (by rw [is]; rfl)⟩)
          | _ => exact Or.inl rfl
      | recordCleanupAttempt relpath error state gate now =>
          obtain ⟨_, _, copy, e, jitter, is, _⟩ := may
          exact Or.inr (Or.inr ⟨rfl, freed copy (by rw [is]; rfl)⟩)
      | claimReady limit now => cases other
      | _ => exact Or.inl rfl
  | startAction ctx =>
      obtain ⟨_, copy, is, _⟩ := may
      have starts : CleanupCalls.learn n (.startAction ctx) ret =
          { n with stage := .acting copy ret } := by
        show learnStarted n ret = _
        rw [learnStarted, is]
      rw [starts]
      exact Or.inr (Or.inr ⟨rfl, restaged copy (by rw [is]; rfl) _ rfl⟩)
  | awaitAction handle =>
      obtain ⟨_, copy, is⟩ := may
      have hears : CleanupCalls.learn n (.awaitAction handle) ret =
          { n with stage := .acted copy (joinOutcome ret) } := by
        show learnOutcome n ret = _
        rw [learnOutcome, is]
      rw [hears]
      exact Or.inr (Or.inr ⟨rfl, restaged copy (by rw [is]; rfl) _ rfl⟩)
  | lockTick => cases other
  | unlockTick => cases other
  | spawnBatch items now => cases other
  | _ => exact Or.inl rfl

/-- A tick that has not claimed has not claimed after a call that is not a tick's own. -/
theorem learn_role (other : Drains.ofTick operation = false)
    (may : CleanupCalls.allowed setup n operation) (early : isEarly n.role = true) :
    isEarly (CleanupCalls.learn n operation ret).role = true := by
  rcases learn_cases setup n operation ret other may with same | ⟨_, still⟩ | ⟨role, _⟩
  · rw [same]
    exact early
  · exact still
  · rw [role]
    exact early

theorem learn_idle (other : Drains.ofTick operation = false) (may : CleanupCalls.allowed setup n operation)
    (idle : n.Idle) (late : isEarly n.role = false) : CleanupCalls.learn n operation ret = n := by
  rcases learn_cases setup n operation ret other may with same | ⟨early, _⟩ | ⟨_, busy, _⟩
  · exact same
  · exact Bool.noConfusion (late.symm.trans early)
  · apply absurd _ busy
    rw [Notes.desk, idle.stage, idle.copies]
    rfl

theorem learn_desk (may : CleanupCalls.allowed setup n operation) (role : n.role = .item)
    (other : Drains.ofTick operation = false) :
    (CleanupCalls.learn n operation ret).role = .item ∧
      ∀ copy ∈ (CleanupCalls.learn n operation ret).desk, copy ∈ n.desk := by
  rcases learn_cases setup n operation ret other may with same | ⟨early, _⟩ | ⟨still, _, fewer⟩
  · rw [same]
    exact ⟨role, fun _ => id⟩
  · rw [role] at early
    cases early
  · exact ⟨still.trans role, fewer⟩

end Learning

theorem early_stands (place : Drains.Place) (n : Notes) (early : isEarly n.role = true) :
    Stands place n ↔ place = .preparing := by
  cases role : n.role with
  | promoting rows => simp only [Stands, role]
  | listing => simp only [Stands, role]
  | cleaning => simp only [Stands, role]
  | _ =>
      rw [role] at early
      cases early

theorem stands_early (p : Drains.Progress) (n : Notes) (operation : Op) (ret : Ret operation)
    (early : isEarly n.role = true) (at_ : p.place = .preparing)
    (may : Drains.allowedTick p operation) (also : CleanupCalls.allowed setup n operation)
    (possible : CleanupCalls.possible operation ret) :
    Stands (Drains.learnTick p operation ret).place (CleanupCalls.learn n operation ret) := by
  have apart {place : Drains.Place} (is : p.place = place) (is_not : Drains.Place.preparing ≠ place) :
      False := is_not (at_.symm.trans is)
  cases own : Drains.ofTick operation with
  | false =>
      obtain ⟨drains, learned, _⟩ := Drains.learn_other p operation ret own
      rw [learned]
      exact (early_stands _ _ (learn_role setup n operation ret own also early)).mpr at_
  | true =>
      cases operation with
      | store operation =>
          cases operation with
          | claimReady limit now =>
              cases ret with
              | error e => exact possible.elim
              | ok rows =>
                  obtain ⟨_, idle⟩ := also
                  cases rows with
                  | nil => exact ⟨rfl, ⟨idle.copies, idle.stage⟩, Or.inl rfl⟩
                  | cons item rest => exact ⟨rfl, ⟨idle.copies, idle.stage⟩, Or.inr rfl⟩
          | setBytesDone relpath bytes now => exact may.elim
          | _ => cases own
      | isActive => exact (apart may Drains.Place.noConfusion).elim
      | lockTick => exact (apart may Drains.Place.noConfusion).elim
      | unlockTick => exact ⟨rfl, also.copies, also.stage⟩
      | spawnBatch items now => exact (apart may Drains.Place.noConfusion).elim
      | nextOfBatch closable =>
          rcases may with ⟨batch, is⟩ | ⟨batch, is⟩
          · exact (apart is Drains.Place.noConfusion).elim
          · exact (apart is Drains.Place.noConfusion).elim
      | abortBatch => exact possible.elim
      | _ => cases own

theorem stands_claiming (p : Drains.Progress) (n : Notes) (operation : Op) (ret : Ret operation)
    (held : List WorkItem) (role : n.role = .claiming held) (inside : p.place.inside = true)
    (idle : n.Idle) (out : held = [] ∨ outOf p.place = none)
    (may : Drains.allowedTick p operation) (also : CleanupCalls.allowed setup n operation)
    (possible : CleanupCalls.possible operation ret) :
    Stands (Drains.learnTick p operation ret).place (CleanupCalls.learn n operation ret) := by
  have apart (is : p.place = .waiting) : False := by
    rw [is] at inside
    cases inside
  have claims (after : Drains.Place) (within : after.inside = true)
      (still : held = [] ∨ outOf after = none) : Stands after n := by
    simp only [Stands, role]
    exact ⟨within, idle, still⟩
  cases own : Drains.ofTick operation with
  | false =>
      obtain ⟨drains, learned, _⟩ := Drains.learn_other p operation ret own
      rw [learned, learn_idle setup n operation ret own also idle (by rw [role]; rfl)]
      exact claims p.place inside out
  | true =>
      cases operation with
      | store operation =>
          cases operation with
          | claimReady limit now =>
              cases ret with
              | error e => exact possible.elim
              | ok rows =>
                  cases rows with
                  | nil => exact ⟨rfl, ⟨idle.copies, idle.stage⟩, Or.inl rfl⟩
                  | cons item rest => exact ⟨rfl, ⟨idle.copies, idle.stage⟩, Or.inr rfl⟩
          | setBytesDone relpath bytes now => exact may.elim
          | _ => cases own
      | isActive => exact (apart may).elim
      | lockTick => exact (apart may).elim
      | unlockTick => exact ⟨rfl, idle.copies, idle.stage⟩
      | spawnBatch items now => exact ⟨rfl, ⟨idle.copies, idle.stage⟩, Or.inl rfl⟩
      | nextOfBatch closable =>
          -- a tick waits for a batch that it has started
          have waits : held = [] := by
            rcases out with empty | none
            · exact empty
            · rcases may with ⟨batch, is⟩ | ⟨batch, is⟩
              · rw [is] at none
                cases none
              · rw [is] at none
                cases none
          have moved : (Drains.learnTick p (.nextOfBatch closable) ret).place.inside = true := by
            rcases may with ⟨batch, is⟩ | ⟨batch, is⟩ <;> cases ret
            · show p.place.drained.inside = true
              rw [is]
              rfl
            · show p.place.closed.inside = true
              rw [is]
              rfl
            · show p.place.drained.inside = true
              rw [is]
              rfl
            · show p.place.closed.inside = true
              rw [is]
              rfl
          exact claims _ moved (Or.inl waits)
      | abortBatch => exact possible.elim
      | _ => cases own

theorem fits_learn (spec : Spec) (n : Pair) (operation : Op) (ret : Ret operation) (fits : Fits spec n)
    (may : Drains.allowed n.1 operation) (also : CleanupCalls.allowed setup n.2 operation)
    (possible : CleanupCalls.possible operation ret) :
    Fits spec (Drains.learn n.1 operation ret, CleanupCalls.learn n.2 operation ret) := by
  rcases fits_cases spec n fits with ⟨now, ignoreWindow, fuel, p, rfl, place, early, clock, stands⟩ |
    ⟨id, item, now, rfl, place, role, clock, desk⟩ | ⟨place, role, idle⟩
  · obtain ⟨_, n⟩ := n
    cases place
    refine ⟨rfl, early, (learn_now n operation ret).trans clock, ?_⟩
    cases role : n.role with
    | outside =>
        rw [Stands, role] at stands
        obtain ⟨outside, idle⟩ := stands
        by_cases locks : operation = .lockTick
        · subst locks
          exact rfl
        · obtain rfl := DrainCalls.outside_calls p operation may outside locks
          show Stands p.place n
          rw [Stands, role]
          exact ⟨outside, idle⟩
    | claiming held =>
        rw [Stands, role] at stands
        obtain ⟨inside, idle, out⟩ := stands
        exact stands_claiming setup p n operation ret held role inside idle out may also possible
    | aside =>
        rw [Stands, role] at stands
        cases stands
    | item =>
        rw [Stands, role] at stands
        cases stands
    | _ =>
        have is : isEarly n.role = true := by rw [role]; rfl
        exact stands_early setup p n operation ret is ((early_stands p.place n is).mp stands) may also
          possible
  · obtain ⟨_, n⟩ := n
    cases place
    obtain ⟨still, fewer⟩ := learn_desk setup n operation ret also role may.1
    exact ⟨rfl, still, (learn_now n operation ret).trans clock, fun copy member =>
      desk copy (fewer copy member)⟩
  · obtain ⟨_, n⟩ := n
    cases place
    have same : CleanupCalls.learn n operation ret = n :=
      learn_idle setup n operation ret may.1 also idle (by rw [show n.role = .aside from role]; rfl)
    rw [same]
    exact fits

/-! ## Alone with a row -/

/-- The thread may be to do with the row's cleanup: it is the item of the row, or the tick that has
the lock and no batch out. -/
def Engaged (r : String) (t : Hand) : Prop :=
  relpathOf t.spec = some r ∨
    ∃ p, t.notes.1 = .tick p ∧ p.place.inside = true ∧ outOf p.place = none

section Alone

variable (r : String)

theorem no_item_beside (c : Squad) (sound : DrainCalls.Sound setup (forget Prod.fst c)) (t u : Hand)
    (ht : t ∈ c.threads) (hu : u ∈ c.threads) (of_u : relpathOf u.spec = some r)
    (p : Drains.Progress) (notes : t.notes.1 = .tick p) (inside : p.place.inside = true) :
    outOf p.place ≠ none := by
  intro out
  cases spec : u.spec with
  | item id item now =>
      obtain ⟨holder, hholder, _, q, batch, holds, waits, _⟩ :=
        sound.owned (forgetThread Prod.fst u) (mem_forget Prod.fst c u hu) id item now spec
      -- the tick of the item has the lock, so it is this one
      have same : holder.id = (forgetThread Prod.fst t).id := by
        refine sound.exclusive.one holder hholder _ (mem_forget Prod.fst c t ht) ?_ ?_
        · show DrainCalls.isInside holder.notes = true
          rw [holds]
          exact DrainCalls.inside_of_out q.place batch waits
        · show DrainCalls.isInside t.notes.1 = true
          rw [notes]
          exact inside
      obtain rfl := eq_of_same_id (forget Prod.fst c) sound.distinct holder (forgetThread Prod.fst t)
        hholder (mem_forget Prod.fst c t ht) same
      have one : Drains.Notes.tick p = .tick q := notes.symm.trans holds
      cases one
      rw [out] at waits
      cases waits
  | _ =>
      rw [spec] at of_u
      cases of_u

theorem engaged_one (c : Squad) (sound : DrainCalls.Sound setup (forget Prod.fst c)) (t u : Hand)
    (ht : t ∈ c.threads) (hu : u ∈ c.threads) (one : Engaged r t) (other : Engaged r u) :
    t.id = u.id := by
  rcases one with of_t | ⟨p, notes, inside, out⟩
  · rcases other with of_u | ⟨q, also, within, free⟩
    · exact DrainRuns.one_at_work setup (forget Prod.fst c) sound (forgetThread Prod.fst t)
        (forgetThread Prod.fst u) (mem_forget Prod.fst c t ht) (mem_forget Prod.fst c u hu) r of_t of_u
    · exact absurd free (no_item_beside setup r c sound u t hu ht of_t q also within)
  · rcases other with of_u | ⟨q, also, within, free⟩
    · exact absurd out (no_item_beside setup r c sound t u ht hu of_u p notes inside)
    · refine sound.exclusive.one _ (mem_forget Prod.fst c t ht) _ (mem_forget Prod.fst c u hu) ?_ ?_
      · show DrainCalls.isInside t.notes.1 = true
        rw [notes]
        exact inside
      · show DrainCalls.isInside u.notes.1 = true
        rw [also]
        exact within

theorem silent_of_idle (n : Notes) (idle : n.Idle) (promotes : ∀ rows, n.role = .promoting rows → r ∉ rows)
    (held : ∀ held, n.role = .claiming held → held = []) : Silent r n := by
  constructor
  case promotes => exact promotes
  case held =>
    intro items role item member
    rw [held items role] at member
    cases member
  case desk =>
    intro copy member
    rw [Notes.desk, idle.stage, idle.copies] at member
    cases member

theorem silent_of_apart (t : Hand) (fits : Fits t.spec t.notes) (apart : ¬Engaged r t) :
    Silent r t.notes.2 := by
  rcases fits_cases t.spec t.notes fits with ⟨now, ignoreWindow, fuel, p, _, notes, _, _, stands⟩ |
    ⟨id, item, now, spec, _, role, _, desk⟩ | ⟨_, role, idle⟩
  · have early (at_ : p.place = .preparing) : False :=
      apart (Or.inr ⟨p, notes, by rw [at_]; rfl, by rw [at_]; rfl⟩)
    cases role : t.notes.2.role with
    | outside =>
        rw [Stands, role] at stands
        refine silent_of_idle r _ stands.2 (fun rows same => ?_) fun held same => ?_
        · rw [role] at same
          cases same
        · rw [role] at same
          cases same
    | claiming held =>
        rw [Stands, role] at stands
        obtain ⟨inside, idle, out⟩ := stands
        have empty : held = [] := by
          rcases out with empty | none
          · exact empty
          · exact absurd (Or.inr ⟨p, notes, inside, none⟩) apart
        refine silent_of_idle r _ idle (fun rows same => ?_) fun other same => ?_
        · rw [role] at same
          cases same
        · rw [role] at same
          cases same
          exact empty
    | aside =>
        rw [Stands, role] at stands
        cases stands
    | item =>
        rw [Stands, role] at stands
        cases stands
    | _ =>
        rw [Stands, role] at stands
        exact (early stands).elim
  · constructor
    case promotes =>
      intro rows same
      rw [same] at role
      cases role
    case held =>
      intro held same
      rw [same] at role
      cases role
    case desk =>
      intro copy member own
      refine apart (Or.inl ?_)
      rw [spec, ← own, desk copy member]
      rfl
  · refine silent_of_idle r _ idle (fun rows same => ?_) fun held same => ?_
    · rw [same] at role
      cases role
    · rw [same] at role
      cases role

theorem engaged_of_at (t : Hand) (fits : Fits t.spec t.notes) (at_ : At r t.notes.2) : Engaged r t := by
  by_contra apart
  obtain ⟨copy, staged, own⟩ := at_
  refine (silent_of_apart r t fits apart).desk copy ?_ own
  rw [Notes.desk, staged]
  exact List.mem_cons_self

theorem out_of_quiet (place : Drains.Place) (quiet : place.quiet = true) : outOf place = none := by
  cases place <;> first | rfl | cases quiet

theorem out_of_between (place : Drains.Place) (between : place.between = true) : outOf place = none := by
  cases place <;> first | rfl | cases between

theorem engaged_of_puts (t : Hand) (fits : Fits t.spec t.notes) (operation : Op)
    (may : Drains.allowed t.notes.1 operation) (state : ItemState)
    (puts : Drains.stateOf operation = some (r, state)) : Engaged r t := by
  rcases fits_cases t.spec t.notes fits with ⟨_, _, _, p, _, notes, _⟩ | ⟨_, item, _, spec, notes, _⟩ |
    ⟨notes, _⟩
  -- a tick puts rows into states only while it has the lock and no batch out
  · have other : Drains.ofTick operation = false := by
      cases operation with
      | store operation => cases operation <;> first | rfl | cases puts
      | _ => cases puts
    rw [notes] at may
    obtain ⟨inside, quiet⟩ := DrainCalls.plain_of_allowed p operation may other
    exact Or.inr ⟨p, notes, inside, out_of_quiet p.place (quiet (r, state) puts)⟩
  · rw [notes] at may
    refine Or.inl ?_
    rw [spec, (may.2 r state puts).1]
    rfl
  · rw [notes] at may
    have none : Drains.stateOf operation = none := may.2
    rw [none] at puts
    cases puts

theorem engaged_of_claim (t : Hand) (operation : Op) (may : Drains.allowed t.notes.1 operation)
    (claims : DrainCalls.isClaim operation = true) : Engaged r t := by
  obtain ⟨p, limit, notes, _, between, _⟩ := DrainCalls.tick_of_claim t.notes.1 operation may claims
  exact Or.inr ⟨p, notes, Drains.inside_of_between p.place between, out_of_between p.place between⟩

theorem tick_of_early (t : Hand) (fits : Fits t.spec t.notes) (early : isEarly t.notes.2.role = true) :
    t.notes.2.now < cleanupNoRetry ∧ ∃ p, t.notes.1 = .tick p ∧ p.place = .preparing := by
  rcases fits_cases t.spec t.notes fits with ⟨_, _, _, p, _, notes, before, clock, stands⟩ |
    ⟨_, _, _, _, _, role, _⟩ | ⟨_, role, _⟩
  · refine ⟨?_, p, notes, (early_stands p.place _ early).mp stands⟩
    rw [clock]
    exact before
  · rw [role] at early
    cases early
  · rw [role] at early
    cases early

theorem engaged_of_early (t : Hand) (fits : Fits t.spec t.notes) (early : isEarly t.notes.2.role = true) :
    Engaged r t := by
  obtain ⟨_, p, notes, at_⟩ := tick_of_early t fits early
  exact Or.inr ⟨p, notes, by rw [at_]; rfl, by rw [at_]; rfl⟩

end Alone

end FileReplicator.CleanupRuns
