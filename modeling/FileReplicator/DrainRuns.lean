import FileReplicator.DrainCalls

/-!
# Drains in every run

Once the startup recovery is over: no two items of one row run at once, and a tick
that drains claims the rows of the backlog it found one after the other, each once,
and ends.
-/

namespace FileReplicator.DrainRuns

open Domain DurableStore Effects Interleaving Exclusion Operations Instance Steps Runs Rows Backlog
open Drains DrainCalls

variable (setup : Setup)

/-! ## What comes from outside -/

/-- What comes from outside once the recovery is over, or before it begins. -/
inductive Outside (c : Crew) : Reaction World Spec → Prop where
  | crash (world : World) (store : world.store = c.state.store) (down : world.up = false) :
      Outside c ⟨world, true, []⟩
  | change (world : World) (store : world.store = c.state.store) (up : world.up = c.state.up) :
      Outside c ⟨world, false, []⟩
  | boot (world : World) (store : world.store = c.state.store) (up : world.up = true)
      (nobody : c.threads = []) (now : Int) : Outside c ⟨world, false, [.recover now]⟩
  | tick (world : World) (store : world.store = c.state.store) (up : world.up = true)
      (recovered : ∀ u ∈ c.threads, isRecover u.spec = false) (now : Int)
      (ignoreWindow redriveCleanup : Bool) (fuel : Nat) :
      Outside c ⟨world, false, [.tick now ignoreWindow redriveCleanup fuel]⟩

def recovering (c : Crew) : Bool := (Machine.live c).any isRecover

/-- Triggers come after the startup recovery, as the ticks of the run loop do. -/
def afterRecovery (c : Crew) : Choice Answer Event → Bool
  | .env (.trigger _ _ _) => !recovering c
  | _ => true

theorem none_recovering (c : Crew) (recovered : recovering c = false) :
    ∀ u ∈ c.threads, isRecover u.spec = false := by
  intro u hu
  have none := List.any_eq_false.mp recovered u.spec (List.mem_map_of_mem hu)
  simpa using none

theorem outside_of_react (c : Crew) (sound : Sound setup c) (event : Event)
    (reaction : Reaction World Spec) (met : afterRecovery c (.env event) = true)
    (reacted : react c.state (Machine.live c) event = some reaction) : Outside c reaction := by
  cases event with
  | crash =>
      cases reacted
      exact .crash _ rfl rfl
  | boot now =>
      simp only [react] at reacted
      split at reacted
      · cases reacted
      · rename_i down
        cases reacted
        exact .boot { c.state with up := true } rfl rfl (sound.down (by simpa using down)) now
  | periodic now fuel =>
      simp only [react] at reacted
      split at reacted
      · rename_i may
        rw [Bool.and_eq_true, Bool.not_eq_true'] at may
        cases reacted
        exact .tick _ rfl may.1 (none_recovering c may.2) now false false fuel
      · cases reacted
  | trigger now ignoreWindow fuel =>
      simp only [react] at reacted
      split at reacted
      · rename_i up
        cases reacted
        exact .tick _ rfl up (none_recovering c (by simpa [afterRecovery] using met)) now ignoreWindow
          true fuel
      · cases reacted
  | touch path node =>
      cases reacted
      exact .change _ rfl rfl
  | alter relpath label object =>
      cases reacted
      exact .change _ rfl rfl
  | setActive active =>
      cases reacted
      exact .change _ rfl rfl

theorem no_threads (threads : List Hand) (nobody : threads = []) :
    (crew setup).abortOrphans threads = [] := by
  rw [nobody]
  rfl

theorem sound_absorb (c : Crew) (sound : Sound setup c) (event : Event)
    (reaction : Reaction World Spec) (met : afterRecovery c (.env event) = true)
    (reacted : react c.state (Machine.live c) event = some reaction) :
    Sound setup ((crew setup).absorb c reaction) := by
  have outside := outside_of_react setup c sound event reaction met reacted
  have store : reaction.state.store = c.state.store := by cases outside <;> assumption
  have unowned : ∀ spec ∈ reaction.spawned, owner spec = none ∧ ∀ id item now,
      spec ≠ .item id item now := by
    intro spec member
    cases outside with
    | boot world store up nobody now =>
        obtain rfl := List.mem_singleton.mp member
        exact ⟨rfl, fun _ _ _ => Spec.noConfusion⟩
    | tick world store up recovered now ignoreWindow redriveCleanup fuel =>
        obtain rfl := List.mem_singleton.mp member
        exact ⟨rfl, fun _ _ _ => Spec.noConfusion⟩
    | _ => cases member
  have item_of : ∀ u ∈ ((crew setup).absorb c reaction).threads, ∀ id item now,
      u.spec = .item id item now → reaction.stops = false ∧ ∃ x ∈ c.threads, SameThread x u := by
    intro u hu id item now spec
    rcases mem_absorb (crew setup) c reaction u hu with old | ⟨new, hnew, same⟩
    · exact old
    · exact absurd (same.spec.symm.trans spec)
        ((unowned new.spec (mem_spawn_from (crew setup) _ _ new hnew).1).2 id item now)
  constructor
  case distinct => exact distinct_absorb (crew setup) c reaction sound.distinct
  case orderly =>
    exact orderly_absorb (crew setup) c reaction sound.orderly fun spec _ => main_keeps setup spec
  case keyed =>
    show Keyed reaction.state.store
    rw [store]
    exact sound.keyed
  case exclusive => exact exclusive_absorb (tickLock setup) c event reaction reacted sound.exclusive
  case kinds =>
    exact all_absorb (crew setup) (fun spec n => fits spec n = true) c reaction sound.kinds
      fun spec _ => fits_start spec
  case free =>
    intro u hu nobody
    rcases List.mem_append.mp (unowned_orphan (crew setup) _ u hu nobody) with old | new
    · split at old
      · cases old
      · exact sound.free u old nobody
    · exact (mem_spawn_from (crew setup) _ _ u new).2.2.2.1
  case calm =>
    intro u hu recovers v hv
    cases outside with
    | crash world store down =>
        rcases mem_absorb (crew setup) c _ u hu with ⟨going, _⟩ | ⟨new, hnew, _⟩
        · cases going
        · cases hnew
    | change world store up =>
        rcases mem_absorb (crew setup) c _ u hu with ⟨_, x, hx, same⟩ | ⟨new, hnew, _⟩
        · rcases mem_absorb (crew setup) c _ v hv with ⟨_, y, hy, also⟩ | ⟨new, hnew, _⟩
          · rw [also.spec]
            exact sound.calm x hx (same.spec ▸ recovers) y hy
          · cases hnew
        · cases hnew
    | boot world store up nobody now =>
        rcases mem_absorb (crew setup) c _ v hv with ⟨_, y, hy, _⟩ | ⟨new, hnew, same⟩
        · rw [nobody] at hy
          cases hy
        · rw [same.spec, List.mem_singleton.mp (mem_spawn_from (crew setup) _ _ new hnew).1]
          rfl
    | tick world store up recovered now ignoreWindow redriveCleanup fuel =>
        rcases mem_absorb (crew setup) c _ u hu with ⟨_, x, hx, same⟩ | ⟨new, hnew, same⟩
        · have none := recovered x hx
          rw [← same.spec, recovers] at none
          cases none
        · rw [same.spec, List.mem_singleton.mp (mem_spawn_from (crew setup) _ _ new hnew).1] at recovers
          cases recovers
  case down =>
    intro down
    cases outside with
    | crash world store _ => exact no_threads setup _ rfl
    | change world store up =>
        exact no_threads setup _ (by
          rw [sound.down (up.symm.trans down)]
          rfl)
    | boot world store up nobody now => exact absurd (up.symm.trans down) Bool.noConfusion
    | tick world store up recovered now ignoreWindow redriveCleanup fuel =>
        exact absurd (up.symm.trans down) Bool.noConfusion
  case owned =>
    intro u hu id item now spec
    obtain ⟨going, x, hx, same⟩ := item_of u hu id item now spec
    obtain ⟨holder, hholder, hid, p, batch, notes, out, listed⟩ :=
      sound.owned x hx id item now (same.spec.symm.trans spec)
    obtain ⟨v, hv, still⟩ := absorbed_stays (crew setup) c reaction going holder hholder
    exact ⟨v, hv, still.id.trans hid, p, batch, still.notes.trans notes, out, listed⟩
  case single =>
    intro u hu v hv id item now other later spec_u spec_v named
    obtain ⟨_, x, hx, same⟩ := item_of u hu id item now spec_u
    obtain ⟨_, y, hy, also⟩ := item_of v hv id other later spec_v
    rw [same.id, also.id]
    exact sound.single x hx y hy id item now other later (same.spec.symm.trans spec_u)
      (also.spec.symm.trans spec_v) named

theorem booked_absorb (c : Crew) (ledger : Ledger) (booked : Booked ledger c)
    (reaction : Reaction World Spec) (store : reaction.state.store = c.state.store) :
    Booked ledger ((crew setup).absorb c reaction) := by
  constructor
  case fresh => exact fun id beyond => booked.fresh id (Nat.le_trans (Nat.le_add_right _ _) beyond)
  case early =>
    intro u hu q notes early
    rcases mem_absorb (crew setup) c reaction u hu with ⟨_, x, hx, same⟩ | ⟨new, hnew, same⟩
    · rw [same.id]
      exact booked.early x hx q (same.notes.symm.trans notes) early
    · rw [same.id]
      exact booked.fresh new.id (mem_spawn_from (crew setup) _ _ new hnew).2.1
  case whole =>
    intro u hu q now ignoreWindow redriveCleanup fuel notes spec early
    rcases mem_absorb (crew setup) c reaction u hu with ⟨_, x, hx, same⟩ | ⟨new, hnew, same⟩
    · exact booked.whole x hx q _ _ _ _ (same.notes.symm.trans notes) (same.spec.symm.trans spec) early
    · obtain ⟨_, _, _, _, started, _⟩ := mem_spawn_from (crew setup) _ _ new hnew
      rw [same.spec] at spec
      rw [same.notes, started, spec] at notes
      cases notes
      rfl
  case books =>
    intro u hu q now ignoreWindow redriveCleanup fuel notes spec is
    rcases mem_absorb (crew setup) c reaction u hu with ⟨_, x, hx, same⟩ | ⟨new, hnew, same⟩
    · rw [same.id]
      show ∃ d, ledger x.id = some d ∧ Balanced reaction.state.store q fuel d
      rw [store]
      exact booked.books x hx q _ _ _ _ (same.notes.symm.trans notes) (same.spec.symm.trans spec) is
    · obtain ⟨_, _, _, _, started, _⟩ := mem_spawn_from (crew setup) _ _ new hnew
      rw [same.spec] at spec
      rw [same.notes, started, spec] at notes
      cases notes
      cases is
  case ordered => exact booked.ordered

theorem sound_without (c : Crew) (sound : Sound setup c) (id : Nat)
    (killed : ∃ t ∈ c.threads, t.id = id ∧ t.aborted = true) :
    Sound setup ((crew setup).without c id) := by
  constructor
  case distinct => exact distinct_without (crew setup) c id sound.distinct
  case orderly => exact orderly_without (crew setup) c id sound.orderly
  case keyed => exact sound.keyed
  case exclusive => exact exclusive_without (tickLock setup) c id sound.exclusive
  case kinds => exact all_without (crew setup) (fun spec n => fits spec n = true) c id sound.kinds
  case free =>
    intro u hu nobody
    have member := (List.mem_filter.mp (unowned_orphan (crew setup) _ u hu nobody)).1
    exact sound.free u member nobody
  case calm =>
    intro u hu recovers v hv
    obtain ⟨x, hx, _, same⟩ := mem_without (crew setup) c id u hu
    obtain ⟨y, hy, _, also⟩ := mem_without (crew setup) c id v hv
    rw [also.spec]
    exact sound.calm x hx (same.spec ▸ recovers) y hy
  case down =>
    intro down
    exact no_threads setup _ (by
      rw [sound.down down]
      rfl)
  case owned =>
    intro u hu own item now spec
    obtain ⟨x, hx, _, same⟩ := mem_without (crew setup) c id u hu
    obtain ⟨holder, hholder, hid, p, batch, notes, out, listed⟩ :=
      sound.owned x hx own item now (same.spec.symm.trans spec)
    have fit := sound.kinds holder hholder
    rw [notes] at fit
    obtain ⟨_, _, _, _, tick⟩ := spec_of_tick holder.spec p fit
    have other := apart_of_killed c sound.distinct id killed holder hholder
      (sound.free holder hholder (by rw [tick]; rfl))
    obtain ⟨v, hv, still⟩ := spared_stays (crew setup) c id holder hholder other
    exact ⟨v, hv, still.id.trans hid, p, batch, still.notes.trans notes, out, listed⟩
  case single =>
    intro u hu v hv own item now other later spec_u spec_v named
    obtain ⟨x, hx, _, same⟩ := mem_without (crew setup) c id u hu
    obtain ⟨y, hy, _, also⟩ := mem_without (crew setup) c id v hv
    rw [same.id, also.id]
    exact sound.single x hx y hy own item now other later (same.spec.symm.trans spec_u)
      (also.spec.symm.trans spec_v) named

theorem booked_without (c : Crew) (ledger : Ledger) (booked : Booked ledger c) (id : Nat) :
    Booked ledger ((crew setup).without c id) := by
  constructor
  case fresh => exact booked.fresh
  case early =>
    intro u hu q notes early
    obtain ⟨x, hx, _, same⟩ := mem_without (crew setup) c id u hu
    rw [same.id]
    exact booked.early x hx q (same.notes.symm.trans notes) early
  case whole =>
    intro u hu q now ignoreWindow redriveCleanup fuel notes spec early
    obtain ⟨x, hx, _, same⟩ := mem_without (crew setup) c id u hu
    exact booked.whole x hx q _ _ _ _ (same.notes.symm.trans notes) (same.spec.symm.trans spec) early
  case books =>
    intro u hu q now ignoreWindow redriveCleanup fuel notes spec is
    obtain ⟨x, hx, _, same⟩ := mem_without (crew setup) c id u hu
    rw [same.id]
    exact booked.books x hx q _ _ _ _ (same.notes.symm.trans notes) (same.spec.symm.trans spec) is
  case ordered => exact booked.ordered

theorem did_possible (t : Running) (live : List Spec) (world : World) (operation : Op)
    (ret : Ret operation) (effect : Effect World Spec)
    (did : Did setup t live world operation ret effect) : possible operation ret := by
  cases did with
  | closed => rfl
  | _ => trivial

theorem called_of (c : Crew) (sound : Sound setup c) (t : Hand) (operation : Op)
    (ret : Ret operation) (effect : Effect World Spec) (next : Ret operation → Program Unit)
    (choice : Choice Answer Event) (calls : Calls (crew setup) c t operation ret effect next choice) :
    Called setup c t operation ret effect next := by
  obtain ⟨answer, _, performed⟩ := calls.choice
  have did := did_retold setup t _ c.state operation answer ret effect performed
  have keeps := calls_keep (crew setup) c t operation ret effect next _ calls sound.orderly
  exact ⟨calls.member, keeps.1, keeps.2 ret (did_possible setup (retold t) _ c.state operation ret
    effect did), did⟩

theorem booked_step (ledger : Ledger) (c after : Crew) (choice : Choice Answer Event)
    (holds : Sound setup c ∧ Booked ledger c) (met : afterRecovery c choice = true)
    (stepped : (crew setup).step c choice = some after) :
    Sound setup after ∧ Booked (claiming.follow c choice after ledger) after := by
  obtain ⟨sound, booked⟩ := holds
  rcases step_cases (crew setup) c after choice stepped with
    ⟨t, operation, ret, effect, next, calls, rfl⟩ | ⟨id, rfl, killed, rfl⟩ |
    ⟨event, reaction, rfl, reacted, rfl⟩
  · have called := called_of setup c sound t operation ret effect next choice calls
    have later := sound_settle setup c sound ledger booked t operation ret effect next choice calls
      called (did_possible setup (retold t) _ c.state operation ret effect called.did)
    obtain ⟨answer, rfl, performed⟩ := calls.choice
    refine ⟨later, ?_⟩
    rw [follow_call (fun _ => none) heed pass c _ sound.distinct t calls.member operation next
      calls.prog answer ledger]
    exact called.booked sound ledger booked answer performed
  · exact ⟨sound_without setup c sound id killed, booked_without setup c ledger booked id⟩
  · have store : reaction.state.store = c.state.store := by
      cases outside_of_react setup c sound event reaction met reacted <;> assumption
    exact ⟨sound_absorb setup c sound event reaction met reacted,
      booked_absorb setup c ledger booked reaction store⟩

/-! ## Every run -/

/-- An instance that has not been started, over any rows. -/
structure Stored (c : Crew) : Prop where
  threads : c.threads = []
  down : c.state.up = false
  keyed : Keyed c.state.store

theorem booked_idle (c : Crew) (idle : c.threads = []) (keyed : Keyed c.state.store) :
    Sound setup c ∧ Booked (fun _ => none) c := by
  have nobody : ∀ t, t ∉ c.threads := by
    intro t
    rw [idle]
    exact List.not_mem_nil
  constructor
  · constructor
    case distinct =>
      refine ⟨fun t ht => absurd ht (nobody t), ?_⟩
      rw [idle]
      exact List.nodup_nil
    case orderly => exact fun t ht => absurd ht (nobody t)
    case keyed => exact keyed
    case exclusive => exact ⟨fun t ht => absurd ht (nobody t), fun t ht => absurd ht (nobody t)⟩
    case kinds => exact fun t ht => absurd ht (nobody t)
    case free => exact fun t ht => absurd ht (nobody t)
    case calm => exact fun t ht => absurd ht (nobody t)
    case down => exact fun _ => idle
    case owned => exact fun t ht => absurd ht (nobody t)
    case single => exact fun t ht => absurd ht (nobody t)
  · constructor
    case fresh => exact fun _ _ => rfl
    case early => exact fun t ht => absurd ht (nobody t)
    case whole => exact fun t ht => absurd ht (nobody t)
    case books => exact fun t ht => absurd ht (nobody t)
    case ordered => exact fun _ _ found => by cases found

theorem booked_start (c : Crew) (stored : Stored c) :
    Sound setup c ∧ Booked (fun _ => none) c :=
  booked_idle setup c stored.threads stored.keyed

/-- What a drain claims: each row once, in the order of discovery, the first rows of the backlog
that it found; and it claims at most once more than there are rows. -/
structure Drained (d : Drain) : Prop where
  once : (d.claims.flatten.map WorkItem.relpath).Nodup
  ordered : d.claims.flatten.Pairwise fun a b => a.discoveredAt ≤ b.discoveredAt
  first : d.claims.flatten.map slip <+: d.backlog.map slip
  rounds : d.claims.length ≤ d.backlog.length + 1

theorem drained_of_order (d : Drain) (ordered : InOrder d) : Drained d := by
  have sublist : (d.claims.flatten.map slip).Sublist (d.backlog.map slip) := ordered.first.sublist
  constructor
  case once =>
    have names : ∀ items : List WorkItem, items.map WorkItem.relpath = (items.map slip).map Prod.fst := by
      intro items
      rw [List.map_map]
      rfl
    rw [names]
    refine (sublist.map Prod.fst).nodup ?_
    rw [← names]
    exact ordered.different
  case ordered =>
    have all : (d.backlog.map slip).Pairwise fun a b => a.2 ≤ b.2 := List.pairwise_map.mpr ordered.sorted
    have claimed : (d.claims.flatten.map slip).Pairwise fun a b => a.2 ≤ b.2 := all.sublist sublist
    rw [List.pairwise_map] at claimed
    exact claimed
  case first => exact ordered.first
  case rounds => exact ordered.rounds

theorem one_at_work (c : Crew) (sound : Sound setup c) (u v : Hand) (hu : u ∈ c.threads)
    (hv : v ∈ c.threads) (relpath : String) (of_u : relpathOf u.spec = some relpath)
    (of_v : relpathOf v.spec = some relpath) : u.id = v.id := by
  cases spec_u : u.spec with
  | item id item now =>
      cases spec_v : v.spec with
      | item other another later =>
          rw [spec_u] at of_u
          rw [spec_v] at of_v
          have named : item.relpath = another.relpath :=
            (Option.some.inj of_u).trans (Option.some.inj of_v).symm
          obtain ⟨x, hx, xid, p, batch, notes, out, _⟩ := sound.owned u hu id item now spec_u
          obtain ⟨y, hy, yid, q, names, also, waits, _⟩ := sound.owned v hv other another later spec_v
          -- both belong to the tick that has the lock
          have same : id = other := by
            rw [← xid, ← yid]
            refine sound.exclusive.one x hx y hy ?_ ?_
            · show isInside x.notes = true
              rw [notes]
              exact inside_of_out p.place batch out
            · show isInside y.notes = true
              rw [also]
              exact inside_of_out q.place names waits
          subst same
          exact sound.single u hu v hv id item now another later spec_u spec_v named
      | _ =>
          rw [spec_v] at of_v
          cases of_v
  | _ =>
      rw [spec_u] at of_u
      cases of_u

/-- A drain that gives the lock back has claimed all there was, or its loop was allowed no more
rounds than its backlog has rows. -/
theorem ends_by_itself (ledger : Ledger) (c : Crew) (sound : Sound setup c) (booked : Booked ledger c)
    (t : Hand) (ht : t ∈ c.threads) (p : Progress) (now : Int) (ignoreWindow redriveCleanup : Bool)
    (fuel : Nat) (next : Unit → Program Unit) (notes : t.notes = .tick p)
    (spec : t.spec = .tick now ignoreWindow redriveCleanup fuel)
    (leaves : t.prog = .call .unlockTick next) (goes : p.drains = true) :
    p.place = .ending ∨ fuel = 0 ∨ ∃ d, ledger t.id = some d ∧ fuel ≤ d.backlog.length := by
  have keeps := sound.orderly t ht
  rw [leaves, notes] at keeps
  rcases keeps.1 with at_ | ⟨between, spent⟩
  · exact Or.inl at_
  · right
    have rounds := spent goes
    cases early : isEarly p.place with
    | true =>
        left
        rw [← booked.whole t ht p _ _ _ _ notes spec early]
        exact rounds
    | false =>
        right
        have is : busy p.place = true := by
          cases place : p.place with
          | draining => rfl
          | preparing =>
              rw [place] at early
              cases early
          | _ =>
              rw [place] at between
              cases between
        obtain ⟨d, found, balanced⟩ := booked.books t ht p _ _ _ _ notes spec is
        refine ⟨d, found, ?_⟩
        have claims := length_le_flatten d.claims balanced.full
        have all := congrArg List.length balanced.slips
        have spent := balanced.spent
        rw [List.length_append, List.length_map, List.length_map, List.length_map] at all
        omega

/-- Of a run whose triggers come after the startup recovery, in which any statements are refused and
any outcomes come back: no two items of one row run at once; every drain claims each row once and in
the order of discovery; and it ends by itself within its backlog. -/
theorem exclusive_drains (ledger : Ledger) (c : Crew)
    (tracked : Tracked (crew setup) claiming Stored (fun _ c choice => afterRecovery c choice = true)
      ledger c) :
    (∀ u ∈ c.threads, ∀ v ∈ c.threads, ∀ relpath, relpathOf u.spec = some relpath →
      relpathOf v.spec = some relpath → u.id = v.id) ∧
    (∀ id d, ledger id = some d → Drained d) ∧
    ∀ t ∈ c.threads, ∀ p now ignoreWindow redriveCleanup fuel next, t.notes = .tick p →
      t.spec = .tick now ignoreWindow redriveCleanup fuel → t.prog = .call .unlockTick next →
        p.drains = true →
          p.place = .ending ∨ fuel = 0 ∨ ∃ d, ledger t.id = some d ∧ fuel ≤ d.backlog.length := by
  obtain ⟨sound, booked⟩ := invariant_of_tracked (crew setup) claiming Stored
    (fun _ c choice => afterRecovery c choice = true) (fun ledger c => Sound setup c ∧ Booked ledger c)
    (booked_start setup)
    (fun ledger c after choice holds met stepped => booked_step setup ledger c after choice holds met
      stepped) ledger c tracked
  refine ⟨?_, fun id d found => drained_of_order d (booked.ordered id d found), ?_⟩
  · intro u hu v hv relpath of_u of_v
    exact one_at_work setup c sound u v hu hv relpath of_u of_v
  · intro t ht p now ignoreWindow redriveCleanup fuel next notes spec leaves goes
    exact ends_by_itself setup ledger c sound booked t ht p now ignoreWindow redriveCleanup fuel next
      notes spec leaves goes

def drainStart : Crew := ⟨smallWorld twoFiles, [], 0⟩

/-- A trigger has claimed the first file and drained it, whose statement was refused; then it has
claimed the second, and the item is at work on it. -/
def untilDraining : List (Choice Answer Event) :=
  [.env (.boot 0)] ++ go 0 [.asIs, .asIs] ++ [.env (.trigger 0 true 2)] ++
    go 1 [.asIs, .asIs, .found [⟨"a", 0, 0⟩, ⟨"b", 1, 0⟩], .asIs, .asIs, .asIs, .asIs, .asIs, .asIs,
      .asIs] ++
    go 2 [.refused "busy"] ++ go 1 [.asIs, .asIs, .asIs]

def isDraining (ledger : Ledger) (c : Crew) : Bool :=
  c.threads.any (fun u => relpathOf u.spec = some "b") &&
    (ledger 1).any fun d => d.claims.map (List.map WorkItem.relpath) = [["a"], ["b"]]

theorem exclusive_drains_two :
    ∃ ledger c d, Tracked (crew (smallSetup plainCompletion)) claiming Stored
        (fun _ c choice => afterRecovery c choice = true) ledger c ∧
      ledger 1 = some d ∧ d.claims.map (List.map WorkItem.relpath) = [["a"], ["b"]] ∧ Drained d := by
  obtain ⟨ledger, c, tracked, draining⟩ := exists_of_tracked_run (crew (smallSetup plainCompletion))
    claiming Stored (fun _ c choice => afterRecovery c choice = true) (fun _ c choice =>
      afterRecovery c choice) (fun _ _ _ met => met) isDraining untilDraining drainStart
    ⟨rfl, rfl, ⟨List.nodup_nil, fun _ none => by cases none⟩⟩ (by decide)
  obtain ⟨_, drains, _⟩ := exclusive_drains (smallSetup plainCompletion) ledger c tracked
  rw [isDraining, Bool.and_eq_true] at draining
  obtain ⟨d, found, claimed⟩ := (Option.any_eq_true _ _).mp draining.2
  exact ⟨ledger, c, d, tracked, found, of_decide_eq_true claimed, drains 1 d found⟩

end FileReplicator.DrainRuns
