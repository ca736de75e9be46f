import FileReplicator.OneAction
import FileReplicator.Vouching

/-!
# Completion actions in every run

The ticks take turns, an item is of one batch, and the recovery runs alone; so only
one thread at a time may clean up after an item, and an action runs as long as the
thread that awaits it is there. Two actions of an item can run at once only when a
worker is dropped before its action has ended, or a trigger is served before the
recovery is over.
-/

namespace FileReplicator.ActionRuns

open Domain Effects SourceActions Interleaving Annotations Operations Worker Instance
open Protocol Steps Runs Handles Assurance Vouching OneAction
open Drains (stateOf ofTick learnTick allowedTick)

variable (setup : Setup)

/-- Where a thread stands that may clean up after the item. -/
def Entitled (relpath : String) : Drains.Notes → Prop
  | .recover => True
  | .tick p => p.place.quiet = true
  | .item own => own = relpath
  | .aside => False

theorem entitled_of_puts (n : Drains.Notes) (operation : Op) (relpath : String) (state : ItemState)
    (may : Drains.allowed n operation) (puts : stateOf operation = some (relpath, state)) :
    Entitled relpath n := by
  cases n with
  | recover => trivial
  | item own => exact (may.2 relpath state puts).1.symm
  | aside =>
      rw [may.2] at puts
      cases puts
  | tick p =>
      have other : ofTick operation = false := by
        cases operation with
        | store statement => cases statement <;> first | rfl | cases puts
        | _ => cases puts
      exact (DrainCalls.plain_of_allowed p operation may other).2 _ puts

section Entitled

variable {setup}
variable {c : Duo}

/-- Such a thread recovers, or it is a tick that has the lock and no batch out, or it is the item. -/
theorem entitled_cases (staffed : Staffed setup c) (u : Hand) (member : u ∈ c.threads)
    (relpath : String) (entitled : Entitled relpath u.notes.2) :
    isRecover u.spec = true ∨
      (DrainCalls.isWorking u.spec = true ∧ ∃ p, u.notes.2 = .tick p ∧ p.place.quiet = true) ∨
      ∃ id item now, u.spec = .item id item now ∧ item.relpath = relpath := by
  have fit := fits_of staffed u member
  cases spec : u.spec with
  | recover now => exact Or.inl rfl
  | tick now ignoreWindow redriveCleanup fuel =>
      rw [spec] at fit
      cases notes : u.notes.2 with
      | tick p =>
          rw [notes] at entitled
          exact Or.inr (Or.inl ⟨rfl, p, rfl, entitled⟩)
      | _ =>
          rw [notes] at fit
          cases fit
  | item id item now =>
      rw [spec] at fit
      cases notes : u.notes.2 with
      | item own =>
          rw [notes] at fit entitled
          have named : own = item.relpath := of_decide_eq_true fit
          exact Or.inr (Or.inr ⟨id, item, now, rfl, named.symm.trans entitled⟩)
      | _ =>
          rw [notes] at fit
          cases fit
  | _ =>
      rw [spec] at fit
      cases notes : u.notes.2 with
      | aside =>
          rw [notes] at entitled
          exact entitled.elim
      | _ =>
          rw [notes] at fit
          cases fit

theorem entitled_one (staffed : Staffed setup c)
    (alone : ∀ u ∈ c.threads, ∀ v ∈ c.threads, isRecover u.spec = true → isRecover v.spec = true →
      u.id = v.id)
    (u v : Hand) (hu : u ∈ c.threads) (hv : v ∈ c.threads) (relpath : String)
    (first : Entitled relpath u.notes.2) (second : Entitled relpath v.notes.2) : u.id = v.id := by
  have calm (x y : Hand) (hx : x ∈ c.threads) (hy : y ∈ c.threads) (recovers : isRecover x.spec = true)
      (works : DrainCalls.isWorking y.spec = true) : False := by
    have apart : DrainCalls.isWorking y.spec = false := staffed.turns.calm _
      (mem_forget Prod.snd c x hx) recovers _ (mem_forget Prod.snd c y hy)
    rw [apart] at works
    cases works
  have at_work (x : Hand) (id : Nat) (item : WorkItem) (now : Int) (spec : x.spec = .item id item now) :
      DrainCalls.isWorking x.spec = true := by
    rw [spec]
    rfl
  rcases entitled_cases staffed u hu relpath first with recovers | ⟨works, p, tick, quiet⟩ |
    ⟨id, item, now, spec, named⟩ <;>
    rcases entitled_cases staffed v hv relpath second with other | ⟨busy, q, waits, calms⟩ |
      ⟨from_id, another, later, also, same⟩
  · exact alone u hu v hv recovers other
  · exact (calm u v hu hv recovers busy).elim
  · exact (calm u v hu hv recovers (at_work v from_id another later also)).elim
  · exact (calm v u hv hu other works).elim
  · exact staffed.turns.exclusive.one _ (mem_forget Prod.snd c u hu) _ (mem_forget Prod.snd c v hv)
      (inside_of_quiet_tick u p tick quiet) (inside_of_quiet_tick v q waits calms)
  · exact absurd also (no_item staffed u hu p tick quiet v hv from_id another later)
  · exact (calm v u hv hu other (at_work u id item now spec)).elim
  · exact absurd spec (no_item staffed v hv q waits calms u hu id item now)
  · refine DrainRuns.one_at_work setup _ staffed.turns _ _ (mem_forget Prod.snd c u hu)
      (mem_forget Prod.snd c v hv) relpath ?_ ?_
    · show DrainCalls.relpathOf u.spec = some relpath
      rw [spec, ← named]
      rfl
    · show DrainCalls.relpathOf v.spec = some relpath
      rw [also, ← same]
      rfl

end Entitled

theorem row_learn (n : Notes) (operation : Op) (ret : Ret operation)
    (may : allowed setup n operation) (relpath : String)
    (row : rowOf (learn setup n operation ret).stage = some relpath) :
    rowOf n.stage = some relpath ∨ ∃ now, operation = .store (.setState relpath .cleanupPending now) := by
  have staged := learn_stage setup n operation ret may
  generalize (learn setup n operation ret).stage = after at staged row
  cases staged with
  | same operation ret plain => exact Or.inl row
  | marked own now ret from_idle =>
      cases row
      exact Or.inr ⟨now, rfl⟩
  | acting ctx handle from_marked =>
      left
      rw [from_marked]
      exact row
  | acted ctx handle done from_acting =>
      left
      rw [from_acting]
      exact row
  | failed ctx handle result from_acting =>
      left
      rw [from_acting]
      exact row
  | _ => cases row

theorem row_acting (n : Notes) (handle : Nat) (ctx : CleanupCtx) (acting : n.stage = .acting handle ctx)
    (operation : Op) (ret : Ret operation) (may : allowed setup n operation) :
    rowOf (learn setup n operation ret).stage = some ctx.relpath := by
  have still : rowOf n.stage = some ctx.relpath := by
    rw [acting]
    rfl
  have idle : n.stage ≠ .idle := by
    rw [acting]
    exact Stage.noConfusion
  cases operation with
  | store operation =>
      cases operation with
      | setState relpath state now =>
          cases state with
          | cleanupPending => exact absurd may.1 idle
          | verified => exact absurd may.2.1 idle
          | ready => exact absurd may.1 idle
          | retained => exact absurd may.1 idle
          | completed =>
              obtain ⟨_, _, acted, _⟩ := may
              rw [acting] at acted
              cases acted
          | quarantined =>
              obtain ⟨_, _, moved, _⟩ := may
              rw [acting] at moved
              cases moved
          | _ => exact may.elim
      | rollUpItem relpath state attempts gate error now => exact absurd may.2.1 idle
      | recordCleanupAttempt relpath error state gate now =>
          obtain ⟨_, _, _, failed, _⟩ := may
          rw [acting] at failed
          cases failed
      | destStates relpath => exact absurd may.1 idle
      | getRow relpath => exact absurd may.2 idle
      | listByState state => exact absurd may.1 idle
      | _ => cases ret <;> exact still
  | deliver item label resume => cases ret <;> exact still
  | verify item label expected policy => cases ret <;> exact still
  | joinAttempt =>
      obtain ⟨_, _, _, at_⟩ := may
      exact absurd at_ idle
  | startAction own =>
      have marked := may.1
      rw [acting] at marked
      cases marked
  | awaitAction own =>
      simp only [learn, learnOutcome, acting]
      split <;> rfl
  | startQuarantine job => exact absurd may.1 idle
  | awaitQuarantine own =>
      obtain ⟨_, moving⟩ := may
      rw [acting] at moving
      cases moving
  | _ => exact still

/-- While a thread cleans up, it stays where it is among the ticks, unless it gives back the
lock. -/
theorem entitled_learn (n : Pair) (operation : Op) (ret : Ret operation) (relpath : String)
    (may : allowed setup n.1 operation) (turn : Drains.allowed n.2 operation)
    (unlocks : operation ≠ .unlockTick)
    (busy : rowOf n.1.stage = some relpath ∨
      ∃ now, operation = .store (.setState relpath .cleanupPending now))
    (entitled : Entitled relpath n.2) : Entitled relpath (Drains.learn n.2 operation ret) := by
  cases place : n.2 with
  | tick p =>
      rw [place] at entitled turn
      cases other : ofTick operation with
      | false =>
          obtain ⟨drains, learned, _⟩ := Drains.learn_other p operation ret other
          show (learnTick p operation ret).place.quiet = true
          rw [learned]
          exact entitled
      | true =>
          -- the calls of a tick alone are made outside any cleanup
          have working : n.1.stage ≠ .idle := by
            intro idle
            rcases busy with row | ⟨now, rfl⟩
            · rw [idle] at row
              cases row
            · cases other
          cases operation with
          | store operation =>
              cases operation with
              | claimReady limit now => exact absurd may.2 working
              | setBytesDone r bytes now => exact turn.elim
              | _ => cases other
          | unlockTick => exact absurd rfl unlocks
          | spawnBatch items now => exact absurd may.2.1 working
          | nextOfBatch closable => exact absurd may.2.1 working
          | abortBatch => exact absurd may.2.1 working
          | isActive => exact entitled
          | lockTick =>
              have waits : p.place = .waiting := turn
              change p.place.quiet = true at entitled
              rw [waits] at entitled
              cases entitled
          | _ => cases other
  | _ =>
      rw [place] at entitled
      exact entitled

/-! ## Every step -/

/-- Each action has the thread that awaits it, and who cleans up may do so. -/
structure Handled (c : Duo) : Prop where
  staffed : Staffed setup c
  pool : Pool (forget Prod.fst c)
  one : One (forget Prod.fst c)
  recovers : ∀ u ∈ c.threads, ∀ v ∈ c.threads, isRecover u.spec = true → isRecover v.spec = true →
    u.id = v.id
  entitled : ∀ u ∈ c.threads, ∀ relpath, rowOf u.notes.1.stage = some relpath →
    Entitled relpath u.notes.2
  awaited : ∀ u ∈ c.threads, ∀ relpath, actsOn u.spec = some relpath →
    ∃ v ∈ c.threads, rowOf v.notes.1.stage = some relpath

/-- No worker is dropped while the action of its item runs. -/
def Spared (c : Duo) : Choice Answer Event → Prop
  | .kill id => ∀ t ∈ c.threads, t.id = id → ∀ owner item now, t.spec = .item owner item now →
      ∀ u ∈ c.threads, actsOn u.spec ≠ some item.relpath
  | _ => True

/-- Triggers come after the recovery, and no worker is dropped that has an action running. -/
def Met (c : Duo) (choice : Choice Answer Event) : Prop :=
  DrainRuns.afterRecovery (forget Prod.snd c) choice = true ∧ Spared c choice

section Steps

variable {setup}
variable {c after : Duo}

theorem enters_prog (prog : Program Unit) (relpath : String) (entering : enters prog = some relpath) :
    ∃ now next, prog = .call (.store (.setState relpath .cleanupPending now)) next := by
  unfold enters at entering
  split at entering
  · cases entering
    exact ⟨_, _, rfl⟩
  · cases entering

/-- Who may clean up after an item finds nobody in a cleanup of it, and no action of it. -/
theorem nobody_cleans (handled : Handled setup c) (t : Hand) (member : t ∈ c.threads)
    (relpath : String) (entitled : Entitled relpath t.notes.2) (idle : t.notes.1.stage = .idle)
    (u : Hand) (other : u ∈ c.threads) :
    rowOf u.notes.1.stage ≠ some relpath ∧ actsOn u.spec ≠ some relpath := by
  have nobody (v : Hand) (hv : v ∈ c.threads) : rowOf v.notes.1.stage ≠ some relpath := by
    intro cleans
    have same := entitled_one handled.staffed handled.recovers v t hv member relpath
      (handled.entitled v hv relpath cleans) entitled
    obtain rfl := eq_of_same_id c (distinct_of_forget Prod.fst c handled.staffed.base.distinct) v t hv
      member same
    rw [idle] at cleans
    cases cleans
  refine ⟨nobody u other, fun acts => ?_⟩
  obtain ⟨v, hv, cleans⟩ := handled.awaited u other relpath acts
  exact nobody v hv cleans

theorem enters_alone (handled : Handled setup c) (choice : Choice Answer Event) :
    Alone (forget Prod.fst c) choice := by
  intro t member answer _ relpath entering u hu
  obtain ⟨t, ht, rfl⟩ := List.mem_map.mp member
  obtain ⟨u, hother, rfl⟩ := List.mem_map.mp hu
  obtain ⟨now, next, prog⟩ := enters_prog _ relpath entering
  obtain ⟨may, turn⟩ := allowed_of handled.staffed ht prog
  exact nobody_cleans handled t ht relpath (entitled_of_puts _ _ relpath .cleanupPending turn rfl)
    may.1 u hother

section Call

variable {t : Hand} {operation : Op} {ret : Ret operation} {effect : Effect World Spec}
variable {next : Ret operation → Program Unit}

theorem recovers_settle (called : Called setup c t operation ret effect next)
    (handled : Handled setup c) :
    ∀ u ∈ ((duo setup).settle c ((duo setup).resumed t operation ret next) effect).threads,
      ∀ v ∈ ((duo setup).settle c ((duo setup).resumed t operation ret next) effect).threads,
        isRecover u.spec = true → isRecover v.spec = true → u.id = v.id := by
  have origin (u : Hand)
      (hu : u ∈ ((duo setup).settle c ((duo setup).resumed t operation ret next) effect).threads)
      (recovers : isRecover u.spec = true) : ∃ x ∈ c.threads, x.id = u.id ∧ isRecover x.spec = true := by
    rcases mem_settle (duo setup) c _ u effect hu with ⟨same, _⟩ | ⟨x, hx, _, same, _⟩ |
      ⟨new, hnew, same⟩
    · exact ⟨t, called.member, same.id.symm, same.spec ▸ recovers⟩
    · exact ⟨x, hx, same.id.symm, same.spec ▸ recovers⟩
    · -- no call starts a recovery
      have spawned := (mem_spawn_from (duo setup) _ _ new hnew).1
      rw [← same.spec] at spawned
      cases called.did with
      | spawnedAttempts contexts =>
          obtain ⟨ctx, _, spec⟩ := List.mem_map.mp spawned
          rw [← spec] at recovers
          cases recovers
      | startedAction ctx =>
          rw [List.mem_singleton.mp spawned] at recovers
          cases recovers
      | startedQuarantine job =>
          rw [List.mem_singleton.mp spawned] at recovers
          cases recovers
      | spawnedBatch items now =>
          obtain ⟨item, _, spec⟩ := List.mem_map.mp spawned
          rw [← spec] at recovers
          cases recovers
      | _ => cases spawned
  intro u hu v hv first second
  obtain ⟨x, hx, xid, xrec⟩ := origin u hu first
  obtain ⟨y, hy, yid, yrec⟩ := origin v hv second
  rw [← xid, ← yid]
  exact handled.recovers x hx y hy xrec yrec

theorem entitled_settle (called : Called setup c t operation ret effect next)
    (handled : Handled setup c) :
    ∀ u ∈ ((duo setup).settle c ((duo setup).resumed t operation ret next) effect).threads,
      ∀ relpath, rowOf u.notes.1.stage = some relpath → Entitled relpath u.notes.2 := by
  intro u hu relpath row
  rcases mem_settle (duo setup) c _ u effect hu with ⟨same, going⟩ | ⟨before, hbefore, _, same, _⟩ |
    ⟨new, hnew, same⟩
  · rw [same.notes] at row ⊢
    have busy := row_learn setup t.notes.1 operation ret called.may relpath row
    refine entitled_learn setup t.notes operation ret relpath called.may called.turn ?_ busy ?_
    · rintro rfl
      have ended := ends_unlocked handled.staffed t called.member next called.prog
      exact absurd (ended.symm.trans going) Bool.noConfusion
    · rcases busy with before | ⟨now, rfl⟩
      · exact handled.entitled t called.member relpath before
      · exact entitled_of_puts _ _ relpath .cleanupPending called.turn rfl
  · rw [same.notes] at row ⊢
    exact handled.entitled before hbefore relpath row
  · obtain ⟨_, _, _, _, notes, _⟩ := mem_spawn_from (duo setup) _ _ new hnew
    rw [same.notes, notes] at row
    change rowOf (start new.spec).stage = some relpath at row
    rw [start_idle] at row
    cases row

theorem cleans_stays (called : Called setup c t operation ret effect next) (handled : Handled setup c)
    (v : Hand) (hv : v ∈ c.threads) (relpath : String)
    (cleans : rowOf v.notes.1.stage = some relpath) (other : v.id ≠ t.id) :
    ∃ w ∈ ((duo setup).settle c ((duo setup).resumed t operation ret next) effect).threads,
      rowOf w.notes.1.stage = some relpath := by
  have rows : hasRows v.notes.1.role = true := by
    refine has_rows setup c handled.staffed v hv (Or.inr fun idle => ?_)
    rw [idle] at cleans
    cases cleans
  obtain ⟨w, hw, same⟩ := other_stays (duo setup) c ((duo setup).resumed t operation ret next) v hv
    other effect fun gone => by
      rw [role_of handled.staffed v hv] at rows
      rcases did_gone setup _ _ _ _ _ _ called.did v.id v.spec gone with ⟨_, _, spec⟩ |
        ⟨_, _, spec⟩ | ⟨_, _, spec⟩
      all_goals
        rw [spec] at rows
        cases rows
  refine ⟨w, hw, ?_⟩
  rw [same.notes]
  exact cleans

theorem caller_cleans (called : Called setup c t operation ret effect next)
    (relpath : String) (row : rowOf (learn setup t.notes.1 operation ret).stage = some relpath)
    (rest : Keeps (discipline setup) (next ret) (learn setup t.notes.1 operation ret) fun _ after =>
      after.stage = .idle) :
    ∃ w ∈ ((duo setup).settle c ((duo setup).resumed t operation ret next) effect).threads,
      rowOf w.notes.1.stage = some relpath := by
  obtain ⟨w, hw, same⟩ := caller_stays (duo setup) c t called.member operation ret next effect (by
    cases program : next ret with
    | call _ _ => rfl
    | done value =>
        rw [program] at rest
        have idle : (learn setup t.notes.1 operation ret).stage = .idle := rest
        rw [idle] at row
        cases row)
  refine ⟨w, hw, ?_⟩
  rw [same.notes]
  exact row

theorem awaited_settle (called : Called setup c t operation ret effect next) (handled : Handled setup c)
    (rest : Keeps (discipline setup) (next ret) (learn setup t.notes.1 operation ret) fun _ after =>
      after.stage = .idle) :
    ∀ u ∈ ((duo setup).settle c ((duo setup).resumed t operation ret next) effect).threads,
      ∀ relpath, actsOn u.spec = some relpath →
        ∃ v ∈ ((duo setup).settle c ((duo setup).resumed t operation ret next) effect).threads,
          rowOf v.notes.1.stage = some relpath := by
  -- an action that was there is awaited by a thread that still has its cleanup to finish
  have old (x : Hand) (hx : x ∈ c.threads) (relpath : String) (acts : actsOn x.spec = some relpath) :
      ∃ v ∈ ((duo setup).settle c ((duo setup).resumed t operation ret next) effect).threads,
        rowOf v.notes.1.stage = some relpath := by
    obtain ⟨v, hv, cleans⟩ := handled.awaited x hx relpath acts
    by_cases mine : v.id = t.id
    · obtain rfl := eq_of_same_id c (distinct_of_forget Prod.fst c handled.staffed.base.distinct) v t hv
        called.member mine
      obtain ⟨handle, ctx, acting, _⟩ := handled.one.own _ (mem_forget Prod.fst c v hv) _
        (mem_forget Prod.fst c x hx) relpath cleans acts
      change v.notes.1.stage = .acting handle ctx at acting
      have own : ctx.relpath = relpath := by
        rw [acting] at cleans
        exact Option.some.inj cleans
      apply caller_cleans called relpath _ rest
      rw [← own]
      exact row_acting setup v.notes.1 handle ctx acting operation ret called.may
    · exact cleans_stays called handled v hv relpath cleans mine
  intro u hu relpath acts
  rcases mem_settle (duo setup) c _ u effect hu with ⟨same, _⟩ | ⟨before, hbefore, _, same, _⟩ |
    ⟨new, hnew, same⟩
  · exact old t called.member relpath (same.spec ▸ acts)
  · exact old before hbefore relpath (same.spec ▸ acts)
  · have spawned := (mem_spawn_from (duo setup) _ _ new hnew).1
    rw [← same.spec] at spawned
    cases called.did with
    | startedAction ctx =>
        rw [List.mem_singleton.mp spawned] at acts
        exact caller_cleans called relpath acts rest
    | spawnedAttempts contexts =>
        obtain ⟨ctx, _, spec⟩ := List.mem_map.mp spawned
        rw [← spec] at acts
        cases acts
    | startedQuarantine job =>
        rw [List.mem_singleton.mp spawned] at acts
        cases acts
    | spawnedBatch items now =>
        obtain ⟨item, _, spec⟩ := List.mem_map.mp spawned
        rw [← spec] at acts
        cases acts
    | _ => cases spawned

end Call

theorem awaited_without (handled : Handled setup c) (id : Nat) (spared : Spared c (.kill id))
    (killed : ∃ t ∈ c.threads, t.id = id ∧ t.aborted = true) :
    ∀ u ∈ ((duo setup).without c id).threads, ∀ relpath, actsOn u.spec = some relpath →
      ∃ v ∈ ((duo setup).without c id).threads, rowOf v.notes.1.stage = some relpath := by
  intro u hu relpath acts
  obtain ⟨x, hx, _, same⟩ := mem_without (duo setup) c id u hu
  rw [same.spec] at acts
  obtain ⟨v, hv, cleans⟩ := handled.awaited x hx relpath acts
  have other : v.id ≠ id := by
    intro gone
    obtain ⟨t, ht, tid, aborted⟩ := killed
    obtain rfl := eq_of_same_id c (distinct_of_forget Prod.fst c handled.staffed.base.distinct) v t hv
      ht (gone.trans tid.symm)
    -- only an item is ever aborted of those that clean up, and it cleans up after its own row
    rcases entitled_cases handled.staffed v hv relpath (handled.entitled v hv relpath cleans) with
      recovers | ⟨works, p, tick, _⟩ | ⟨owner, item, now, spec, named⟩
    · have kept := handled.staffed.turns.free _ (mem_forget Prod.snd c v hv) (by
        show owner v.spec = none
        cases spec : v.spec <;> rw [spec] at recovers <;> first | rfl | cases recovers)
      exact absurd (aborted.symm.trans kept) Bool.noConfusion
    · have fit := fits_of handled.staffed v hv
      rw [tick] at fit
      obtain ⟨_, _, _, _, spec⟩ := DrainCalls.spec_of_tick v.spec p fit
      have kept := handled.staffed.turns.free _ (mem_forget Prod.snd c v hv) (by
        show owner v.spec = none
        rw [spec]
        rfl)
      exact absurd (aborted.symm.trans kept) Bool.noConfusion
    · exact spared v hv gone owner item now spec x hx (acts.trans (congrArg some named.symm))
  obtain ⟨w, hw, still⟩ := spared_stays (duo setup) c id v hv other
  refine ⟨w, hw, ?_⟩
  rw [still.notes]
  exact cleans

theorem recovers_absorb (handled : Handled setup c) (reaction : Reaction World Spec)
    (outside : DrainRuns.Outside (forget Prod.snd c) reaction) :
    ∀ u ∈ ((duo setup).absorb c reaction).threads, ∀ v ∈ ((duo setup).absorb c reaction).threads,
      isRecover u.spec = true → isRecover v.spec = true → u.id = v.id := by
  have kept (none : ∀ spec ∈ reaction.spawned, isRecover spec = false) :
      ∀ u ∈ ((duo setup).absorb c reaction).threads, ∀ v ∈ ((duo setup).absorb c reaction).threads,
        isRecover u.spec = true → isRecover v.spec = true → u.id = v.id := by
    have origin (u : Hand) (hu : u ∈ ((duo setup).absorb c reaction).threads)
        (recovers : isRecover u.spec = true) : ∃ x ∈ c.threads, SameThread x u := by
      rcases mem_absorb (duo setup) c reaction u hu with ⟨_, old⟩ | ⟨new, hnew, same⟩
      · exact old
      · rw [same.spec, none new.spec (mem_spawn_from (duo setup) _ _ new hnew).1] at recovers
        cases recovers
    intro u hu v hv first second
    obtain ⟨x, hx, same⟩ := origin u hu first
    obtain ⟨y, hy, also⟩ := origin v hv second
    rw [same.id, also.id]
    exact handled.recovers x hx y hy (same.spec ▸ first) (also.spec ▸ second)
  cases outside with
  | crash world store down => exact kept fun _ none => by cases none
  | change world store up => exact kept fun _ none => by cases none
  | tick world store up recovered now ignoreWindow redriveCleanup fuel =>
      apply kept
      intro spec spawned
      rw [List.mem_singleton.mp spawned]
      rfl
  | boot world store up nobody now =>
      -- the recovery is the only thread there is
      have first (u : Hand) (hu : u ∈ ((duo setup).absorb c ⟨world, false, [.recover now]⟩).threads) :
          u.id = c.next := by
        rcases mem_absorb (duo setup) c _ u hu with ⟨_, x, hx, _⟩ | ⟨new, hnew, same⟩
        · rw [List.map_eq_nil_iff.mp nobody] at hx
          cases hx
        · obtain ⟨_, from_, below, _⟩ := mem_spawn_from (duo setup) _ _ new hnew
          rw [List.length_singleton] at below
          rw [same.id]
          omega
      intro u hu v hv _ _
      rw [first u hu, first v hv]

theorem awaited_absorb (handled : Handled setup c) (event : Event) (reaction : Reaction World Spec)
    (reacted : react c.state (Machine.live c) event = some reaction) :
    ∀ u ∈ ((duo setup).absorb c reaction).threads, ∀ relpath, actsOn u.spec = some relpath →
      ∃ v ∈ ((duo setup).absorb c reaction).threads, rowOf v.notes.1.stage = some relpath := by
  intro u hu relpath acts
  rcases mem_absorb (duo setup) c reaction u hu with ⟨going, x, hx, same⟩ | ⟨new, hnew, same⟩
  · obtain ⟨v, hv, cleans⟩ := handled.awaited x hx relpath (same.spec ▸ acts)
    obtain ⟨w, hw, still⟩ := absorbed_stays (duo setup) c reaction going v hv
    refine ⟨w, hw, ?_⟩
    rw [still.notes]
    exact cleans
  · have spawned := (mem_spawn_from (duo setup) _ _ new hnew).1
    rw [← same.spec] at spawned
    rw [acts_on_of_pooled u.spec ((react_pool _ _ event reaction reacted).2.2 u.spec spawned)] at acts
    cases acts

theorem handled_step (choice : Choice Answer Event) (handled : Handled setup c) (met : Met c choice)
    (stepped : (duo setup).step c choice = some after) : Handled setup after := by
  have staffed := staffed_step choice handled.staffed met.1 stepped
  have whole := whole_step setup _ _ choice ⟨handled.staffed.base, handled.pool, handled.one⟩
    (enters_alone handled choice) (step_forget (duo_engine setup) c after choice stepped)
  rcases step_cases (duo setup) c after choice stepped with
    ⟨t, operation, ret, effect, next, calls, rfl⟩ | ⟨id, rfl, killed, rfl⟩ |
    ⟨event, reaction, rfl, reacted, rfl⟩
  · have called := called_of_calls handled.staffed choice calls
    refine ⟨staffed, whole.pool, whole.one, recovers_settle called handled,
      entitled_settle called handled, awaited_settle called handled ?_⟩
    have keeps := handled.staffed.base.orderly _ (mem_forget Prod.fst c t called.member)
    change Keeps _ t.prog t.notes.1 _ at keeps
    rw [calls.prog] at keeps
    exact keeps.2 ret (did_possible setup _ handled.staffed.base _ operation ret effect (by
      rw [live_forget]
      exact called.did))
  · refine ⟨staffed, whole.pool, whole.one, ?_, ?_, awaited_without handled id met.2 killed⟩
    · intro u hu v hv first second
      obtain ⟨x, hx, _, same⟩ := mem_without (duo setup) c id u hu
      obtain ⟨y, hy, _, also⟩ := mem_without (duo setup) c id v hv
      rw [same.id, also.id]
      exact handled.recovers x hx y hy (same.spec ▸ first) (also.spec ▸ second)
    · exact all_without (duo setup) (fun _ n => ∀ relpath, rowOf n.1.stage = some relpath →
        Entitled relpath n.2) c id handled.entitled
  · refine ⟨staffed, whole.pool, whole.one, recovers_absorb handled reaction ?_, ?_,
      awaited_absorb handled event reaction reacted⟩
    · refine DrainRuns.outside_of_react setup _ handled.staffed.turns event reaction met.1 ?_
      rw [live_forget]
      exact reacted
    · refine all_absorb (duo setup) (fun _ n => ∀ relpath, rowOf n.1.stage = some relpath →
        Entitled relpath n.2) c reaction handled.entitled fun spec _ relpath row => ?_
      change rowOf (start spec).stage = some relpath at row
      rw [start_idle] at row
      cases row

end Steps

theorem handled_begins (c : Duo) (begins : Begins (forget Prod.fst c)) : Handled setup c := by
  have nobody : ∀ t, t ∉ c.threads := by
    intro t
    rw [List.map_eq_nil_iff.mp begins.threads]
    exact List.not_mem_nil
  have whole := whole_begins setup _ begins
  exact ⟨staffed_begins setup c begins, whole.pool, whole.one, fun t ht => absurd ht (nobody t),
    fun t ht => absurd ht (nobody t), fun t ht => absurd ht (nobody t)⟩

/-- Of a run whose triggers come after the recovery, and which drops no worker whose action runs: at
no time do two completion actions of one item run, and none runs when the item is persisted as
completed or as failed to clean up. -/
theorem one_action_at_a_time (c : Duo)
    (reached : Reached (duo setup) (fun c => Begins (forget Prod.fst c)) Met c) :
    (∀ t ∈ c.threads, ∀ u ∈ c.threads, ∀ relpath, actsOn t.spec = some relpath →
      actsOn u.spec = some relpath → t = u) ∧
    ∀ t ∈ c.threads, ∀ operation next relpath, t.prog = .call (.store operation) next →
      (persists .completed operation = some relpath ∨
        persists .cleanupFailed operation = some relpath) →
      ∀ u ∈ c.threads, actsOn u.spec ≠ some relpath := by
  have handled := invariant_of_reached (duo setup) (fun c => Begins (forget Prod.fst c)) Met
    (Handled setup) (handled_begins setup)
    (fun c after choice handled met stepped => handled_step choice handled met stepped) c reached
  constructor
  · intro t ht u hu relpath tacts uacts
    exact eq_of_same_id c (distinct_of_forget Prod.fst c handled.staffed.base.distinct) t u ht hu
      (handled.one.actions _ (mem_forget Prod.fst c t ht) _ (mem_forget Prod.fst c u hu) relpath tacts
        uacts)
  · intro t ht operation next relpath prog recorded u hu acts
    obtain ⟨may, _⟩ := allowed_of handled.staffed ht prog
    obtain ⟨row, finished⟩ := cleans_of_recorded setup t.notes.1 operation relpath recorded may
    obtain ⟨handle, ctx, acting, _⟩ := handled.one.own _ (mem_forget Prod.fst c t ht) _
      (mem_forget Prod.fst c u hu) relpath row acts
    exact finished handle ctx acting

/-! ## One file -/

/-- `Spared`, on one choice. -/
def sparedAt (c : Duo) : Choice Answer Event → Bool
  | .kill id => c.threads.all fun t => t.id ≠ id ||
      match t.spec with
      | .item _ item _ => c.threads.all fun u => actsOn u.spec ≠ some item.relpath
      | _ => true
  | _ => true

theorem met_of_check (c : Duo) (choice : Choice Answer Event)
    (checked : (DrainRuns.afterRecovery (forget Prod.snd c) choice && sparedAt c choice) = true) :
    Met c choice := by
  rw [Bool.and_eq_true] at checked
  refine ⟨checked.1, ?_⟩
  cases choice with
  | kill id =>
      intro t ht same owner item now spec u hu acts
      have here := List.all_eq_true.mp checked.2 t ht
      rw [same, spec] at here
      simp only [ne_eq, not_true_eq_false, decide_false, Bool.false_or] at here
      exact of_decide_eq_true (List.all_eq_true.mp here u hu) acts
  | _ => trivial

def oneWaiting : Duo := ⟨smallWorld oneFile, [], 0⟩

/-- A trigger claims the file, its attempt delivers it, and the worker marks it for its cleanup. -/
def untilMarked : List (Choice Answer Event) :=
  [.env (.boot 0)] ++ go 0 [.asIs, .asIs] ++ [.env (.trigger 0 false 1)] ++
    go 1 [.asIs, .asIs, .found [⟨"a", 0, 0⟩], .asIs, .asIs, .asIs, .asIs,
      .scheduled (.windowed .pauseResume), .asIs, .asIs, .asIs] ++
    go 2 [.asIs, .asIs] ++ go 3 [.asIs, .asIs, .asIs, .asIs, .asIs, .asIs] ++
    go 2 [.number 0, .asIs, .asIs, .asIs]

/-- The window closes, the worker is dropped, and the revert starts the action. -/
def untilReverted : List (Choice Answer Event) :=
  go 1 [.closed, .asIs] ++ [.kill 2] ++ go 1 [.asIs, .asIs, .asIs, .asIs, .asIs]

theorem one_action_reverted :
    ∃ c, Reached (duo (smallSetup plainCompletion)) (fun c => Begins (forget Prod.fst c)) Met c ∧
      c.threads.any (fun t => actsOn t.spec = some "a") = true ∧
      (∀ t ∈ c.threads, ∀ u ∈ c.threads, ∀ relpath, actsOn t.spec = some relpath →
        actsOn u.spec = some relpath → t = u) ∧
      ∀ t ∈ c.threads, ∀ operation next relpath, t.prog = .call (.store operation) next →
        (persists .completed operation = some relpath ∨
          persists .cleanupFailed operation = some relpath) →
        ∀ u ∈ c.threads, actsOn u.spec ≠ some relpath := by
  obtain ⟨c, reached, acting⟩ := exists_of_run (duo (smallSetup plainCompletion))
    (fun c => Begins (forget Prod.fst c)) Met _ met_of_check
    (fun c => c.threads.any fun t => actsOn t.spec = some "a") (untilMarked ++ untilReverted) oneWaiting
    (small_begins oneFile) (by decide +kernel)
  exact ⟨c, reached, acting, one_action_at_a_time (smallSetup plainCompletion) c reached⟩

/-- The worker has started its action when it is dropped, and the revert starts another one. -/
theorem two_actions_at_once :
    ∃ c, Reached (duo (smallSetup plainCompletion)) (fun c => Begins (forget Prod.fst c))
        (fun _ _ => True) c ∧
      ∃ t ∈ c.threads, ∃ u ∈ c.threads, t ≠ u ∧ actsOn t.spec = some "a" ∧
        actsOn u.spec = some "a" := by
  obtain ⟨c, reached, both⟩ := exists_of_run (duo (smallSetup plainCompletion))
    (fun c => Begins (forget Prod.fst c)) (fun _ _ => True) (fun _ _ => true) (fun _ _ _ => trivial)
    (fun c => c.threads.any fun t => c.threads.any fun u =>
      t.id ≠ u.id && actsOn t.spec = some "a" && actsOn u.spec = some "a")
    (untilMarked ++ go 2 [.asIs] ++ untilReverted) oneWaiting (small_begins oneFile) (by decide +kernel)
  obtain ⟨t, ht, other⟩ := List.any_eq_true.mp both
  obtain ⟨u, hu, acting⟩ := List.any_eq_true.mp other
  simp only [Bool.and_eq_true, decide_eq_true_eq] at acting
  refine ⟨c, reached, t, ht, u, hu, ?_, acting.1.2, acting.2⟩
  rintro rfl
  exact acting.1.1 rfl

end FileReplicator.ActionRuns
