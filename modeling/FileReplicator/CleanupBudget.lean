import FileReplicator.CleanupSteps

/-!
# The budget of a cleanup

Of every run of ticks in which no statement is refused and nothing is triggered,
restarted or aborted: the completion action of a row is attempted no more often than
its budget allows, each time but the first after a failure that may be tried again and
not before the gate that was set for it.
-/

namespace FileReplicator.CleanupBudget

open Domain DurableStore Effects Interleaving Annotations Attempts SourceActions Retry Operations Worker
open Instance Steps Runs
open DrainCalls (Booked)
open CleanupCalls (cleaning)
open CleanupRows CleanupRuns CleanupSteps

variable (setup : Setup) (r : String)

/-- The action that a thread waits for has been started, and is not the row's newest attempt if it
is another row's. -/
def Acts (handles : Nat) (tries : Tries) (n : CleanupCalls.Notes) : Prop :=
  ∀ copy handle, n.stage = .acting copy handle →
    handle < handles ∧ (copy.relpath ≠ r → ∀ newest ∈ tries.head?, newest.key ≠ handle)

structure Kept (tries : Tries) (c : Squad) : Prop where
  drains : ∃ ledger, DrainCalls.Sound setup (forget Prod.fst c) ∧ Booked ledger (forget Prod.fst c)
  orderly : Orderly (squad setup) c
  fits : ∀ t ∈ c.threads, Fits t.spec t.notes
  /-- No item is aborted. -/
  alive : ∀ t ∈ c.threads, ∀ id item now, t.spec = .item id item now → t.aborted = false
  budgeted : Budgeted Transient (budget setup) tries
  settled : Settled setup (c.state.store.items r) tries (∃ t ∈ c.threads, At r t.notes.2)
  tied : ∀ t ∈ c.threads, Tied setup r (c.state.store.items r) tries t.notes.2
  /-- No two actions have one handle. -/
  newest : ∀ newest ∈ tries.head?, newest.key < c.state.handles
  acting : ∀ t ∈ c.threads, Acts r c.state.handles tries t.notes.2

theorem Kept.unfinished (tries : Tries) (c : Squad) (kept : Kept setup r tries c) (e : ReplError)
    (newest : ∃ last, tries.head? = some last ∧ last.outcome = some (.error e)) (size : Nat)
    (mtimeMs : Int) : startsOver size mtimeMs (c.state.store.items r) ≠ true := by
  intro anew
  obtain ⟨last, is, came⟩ := newest
  have some_tried : tries ≠ [] := by
    rintro rfl
    cases is
  have settled := kept.settled
  cases found : c.state.store.items r with
  | none =>
      rw [found] at settled
      exact some_tried (settled.absent rfl)
  | some row =>
      rw [found] at anew settled
      have logged := (settled_iff row _).mp settled
      have terminal : row.state.isTerminal = true := (Bool.and_eq_true _ _ ▸ anew).1
      cases state : row.state with
      | completed =>
          rw [state] at logged
          obtain ⟨done, known⟩ := logged last is
          rw [came] at known
          cases known
      | quarantined =>
          rw [state] at logged
          exact some_tried logged.1
      | retained =>
          rw [state] at logged
          exact some_tried logged.1
      | _ =>
          rw [state] at terminal
          cases terminal

theorem settled_mono {row : Option Row} {tries : Tries} {busy still : Prop}
    (settled : Settled setup row tries busy) (implies : busy → still) :
    Settled setup row tries still where
  absent := settled.absent
  young := settled.young
  pending := fun found is pending => (settled.pending found is pending).imp_right implies
  failed := settled.failed
  completed := settled.completed

/-- The clock of a thread that is in a cleanup is the one that the attempt is logged with. -/
theorem clock_of_fits (t : Hand) (fits : Fits t.spec t.notes) :
    clockOf t.spec = t.notes.2.now ∨ t.notes.2.stage = .free := by
  rcases fits_cases t.spec t.notes fits with ⟨_, _, _, _, spec, _, _, clock, _⟩ |
    ⟨_, _, _, spec, _, _, clock, _⟩ | ⟨_, _, idle⟩
  · rw [spec]
    exact Or.inl clock.symm
  · rw [spec]
    exact Or.inl clock.symm
  · exact Or.inr idle.stage

theorem spec_of_at (t : Hand) (fits : Fits t.spec t.notes) (at_ : At r t.notes.2) :
    (∃ now ignoreWindow redriveCleanup fuel, t.spec = .tick now ignoreWindow redriveCleanup fuel) ∨
      ∃ id item now, t.spec = .item id item now := by
  rcases fits_cases t.spec t.notes fits with ⟨now, ignoreWindow, fuel, _, spec, _⟩ |
    ⟨id, item, now, spec, _⟩ | ⟨_, _, idle⟩
  · exact Or.inl ⟨now, ignoreWindow, false, fuel, spec⟩
  · exact Or.inr ⟨id, item, now, spec⟩
  · exact absurd at_ (not_at_of_free idle.stage)

/-! ## One call -/

structure Called (c : Squad) (t : Hand) (operation : Op) (ret : Ret operation)
    (effect : Effect World Spec) (next : Ret operation → Program Unit) : Prop where
  member : t ∈ c.threads
  may : Drains.allowed t.notes.1 operation
  also : CleanupCalls.allowed setup t.notes.2 operation
  possible : CleanupCalls.possible operation ret
  later : Keeps (both Drains.drains (cleaning setup)) (next ret)
    (Drains.learn t.notes.1 operation ret, CleanupCalls.learn t.notes.2 operation ret) fun _ after =>
      finished after
  did : Did setup (retold t) (Machine.live c) c.state operation ret effect

theorem called_of (c : Squad) (tries : Tries) (kept : Kept setup r tries c) (t : Hand) (operation : Op)
    (ret : Ret operation) (effect : Effect World Spec) (next : Ret operation → Program Unit)
    (choice : Choice Answer Event) (calls : Calls (squad setup) c t operation ret effect next choice)
    (met : undisturbed c choice = true) : Called setup c t operation ret effect next := by
  obtain ⟨ledger, sound, booked⟩ := kept.drains
  obtain ⟨answer, rfl, performed⟩ := calls.choice
  have did := did_retold setup t _ c.state operation answer ret effect performed
  have keeps := calls_keep (squad setup) c t operation ret effect next _ calls kept.orderly
  have possible := possible_of_calm setup t _ c.state operation answer ret effect performed
    (calm_of_undisturbed c (distinct_of_forget Prod.fst c sound.distinct) t calls.member operation next calls.prog
      answer met)
  exact ⟨calls.member, keeps.1.1, keeps.1.2, possible, keeps.2 ret
    ⟨DrainRuns.did_possible setup (retold t) _ c.state operation ret effect did, possible⟩, did⟩

section Call

variable {setup} {r}
variable {c : Squad} {tries : Tries} {t : Hand} {operation : Op} {ret : Ret operation}
variable {effect : Effect World Spec} {next : Ret operation → Program Unit}

theorem Called.before (called : Called setup c t operation ret effect next) (kept : Kept setup r tries c) :
    Before setup r c tries t := by
  obtain ⟨ledger, sound, booked⟩ := kept.drains
  constructor
  case keyed => exact sound.keyed
  case fits => exact kept.fits t called.member
  case budgeted => exact kept.budgeted
  case tied => exact kept.tied t called.member
  case settled =>
    intro engaged
    refine settled_mono setup kept.settled ?_
    rintro ⟨u, hu, at_⟩
    have same := engaged_one setup r c sound u t hu called.member
      (engaged_of_at r u (kept.fits u hu) at_) engaged
    obtain rfl := eq_of_same_id c (distinct_of_forget Prod.fst c sound.distinct) u t hu called.member same
    exact at_
  case foreign => exact fun copy handle acting => (kept.acting t called.member copy handle acting).2

theorem Called.makes (called : Called setup c t operation ret effect next) (kept : Kept setup r tries c)
    (small : ∀ limit ∈ setup.retry.maxAttempts, limit ≤ maxU32) :
    Makes setup r t (c.state.store.items r) (effect.state.store.items r) tries
      (note r (clockOf t.spec) c.state.store tries operation ret)
      (CleanupCalls.learn t.notes.2 operation ret) :=
  (called.before kept).makes small operation ret effect (clock_of_fits t (kept.fits t called.member))
    called.did called.may called.also called.possible

theorem Called.stays (called : Called setup c t operation ret effect next)
    (at_ : At r (CleanupCalls.learn t.notes.2 operation ret)) :
    ∃ v ∈ ((squad setup).settle c ((squad setup).resumed t operation ret next) effect).threads,
      At r v.notes.2 := by
  have going : (next ret).isDone = false := by
    have later := called.later
    cases rest : next ret with
    | done value =>
        rw [rest] at later
        exact absurd at_ (not_at_of_free later.2)
    | call operation rest => rfl
  obtain ⟨v, hv, same⟩ := caller_stays (squad setup) c t called.member operation ret next effect going
  refine ⟨v, hv, ?_⟩
  rw [same.notes]
  exact at_

theorem Called.other (called : Called setup c t operation ret effect next) (kept : Kept setup r tries c)
    (u : Hand) (hu : u ∈ c.threads) (other : u.id ≠ t.id) (at_ : At r u.notes.2) :
    ∃ v ∈ ((squad setup).settle c ((squad setup).resumed t operation ret next) effect).threads,
      At r v.notes.2 := by
  -- a call ends only what has nothing to clean up
  have stays : effect.fate u.id u.spec ≠ .gone := by
    intro gone
    rcases spec_of_at r u (kept.fits u hu) at_ with ⟨_, _, _, _, spec⟩ | ⟨_, _, _, spec⟩
    · rw [spec] at gone
      rcases did_gone setup _ _ _ _ _ _ called.did _ _ gone with ⟨_, _, is⟩ | ⟨_, _, is⟩ | ⟨_, _, is⟩
      all_goals cases is
    · rw [spec] at gone
      rcases did_gone setup _ _ _ _ _ _ called.did _ _ gone with ⟨_, _, is⟩ | ⟨_, _, is⟩ | ⟨_, _, is⟩
      all_goals cases is
  obtain ⟨v, hv, same⟩ := other_stays (squad setup) c ((squad setup).resumed t operation ret next) u hu
    other effect stays
  refine ⟨v, hv, ?_⟩
  rw [same.notes]
  exact at_

theorem Called.settled (called : Called setup c t operation ret effect next) (kept : Kept setup r tries c)
    (small : ∀ limit ∈ setup.retry.maxAttempts, limit ≤ maxU32) :
    Settled setup (effect.state.store.items r)
      (note r (clockOf t.spec) c.state.store tries operation ret)
      (∃ v ∈ ((squad setup).settle c ((squad setup).resumed t operation ret next) effect).threads,
        At r v.notes.2) := by
  rcases called.makes kept small with ⟨row, same, unmoved⟩ | ⟨_, moved⟩
  -- the row stays as it was, and so does who is in its cleanup
  · rw [row, same]
    refine settled_mono setup kept.settled ?_
    rintro ⟨u, hu, at_⟩
    by_cases mine : u.id = t.id
    · obtain ⟨ledger, sound, booked⟩ := kept.drains
      obtain rfl := eq_of_same_id c (distinct_of_forget Prod.fst c sound.distinct) u t hu called.member mine
      exact called.stays (unmoved.stays at_)
    · exact called.other kept u hu mine at_
  · exact settled_mono setup moved.settled called.stays

theorem Called.tied (called : Called setup c t operation ret effect next) (kept : Kept setup r tries c)
    (small : ∀ limit ∈ setup.retry.maxAttempts, limit ≤ maxU32) :
    ∀ u ∈ ((squad setup).settle c ((squad setup).resumed t operation ret next) effect).threads,
      Tied setup r (effect.state.store.items r)
        (note r (clockOf t.spec) c.state.store tries operation ret) u.notes.2 := by
  apply all_settle (squad setup) (fun _ n => Tied setup r _ _ n.2) c t operation ret effect next
  · rcases called.makes kept small with ⟨row, log, unmoved⟩ | ⟨_, moved⟩
    · rw [row, log]
      exact unmoved.tied
    · exact moved.tied
  · intro u hu other
    rcases called.makes kept small with ⟨row, log, _⟩ | ⟨engaged, _⟩
    · rw [row, log]
      exact kept.tied u hu
    · -- the caller alone is engaged with the row
      obtain ⟨ledger, sound, booked⟩ := kept.drains
      apply tied_of_silent
      apply silent_of_apart r u (kept.fits u hu)
      intro also
      exact other (engaged_one setup r c sound u t hu called.member also engaged)
  · exact fun spec spawned =>
      ((called.before kept).started operation ret effect called.did called.also spec spawned).2.2

theorem Called.fits (called : Called setup c t operation ret effect next) (kept : Kept setup r tries c) :
    ∀ u ∈ ((squad setup).settle c ((squad setup).resumed t operation ret next) effect).threads,
      Fits u.spec u.notes := by
  apply all_settle (squad setup) Fits c t operation ret effect next
  · exact fits_learn setup t.spec t.notes operation ret (kept.fits t called.member) called.may called.also
      called.possible
  · exact fun u hu _ => kept.fits u hu
  · intro spec spawned
    obtain ⟨ordinary, no_tick, _⟩ :=
      (called.before kept).started operation ret effect called.did called.also spec spawned
    exact fits_start spec ordinary fun _ _ _ _ tick => absurd tick (no_tick _ _ _ _)

theorem Called.newest (called : Called setup c t operation ret effect next) (kept : Kept setup r tries c) :
    ∀ newest ∈ (note r (clockOf t.spec) c.state.store tries operation ret).head?,
      newest.key < effect.state.handles := by
  intro newest is
  rcases newest_of_note setup r _ tries _ _ c.state operation ret effect called.did newest is with
    ⟨old, was, same⟩ | ⟨_, _, _, key, handles⟩
  · rw [← same]
    exact Nat.lt_of_lt_of_le (kept.newest old was)
      (handles_kept setup operation ret _ c.state _ effect called.did)
  · rw [key, handles]
    exact Nat.lt_succ_self _

theorem Called.acting (called : Called setup c t operation ret effect next) (kept : Kept setup r tries c) :
    ∀ u ∈ ((squad setup).settle c ((squad setup).resumed t operation ret next) effect).threads,
      Acts r effect.state.handles (note r (clockOf t.spec) c.state.store tries operation ret)
        u.notes.2 := by
  have grows := handles_kept setup operation ret _ c.state _ effect called.did
  -- an action that was running
  have earlier (x : Hand) (hx : x ∈ c.threads) : Acts r effect.state.handles
      (note r (clockOf t.spec) c.state.store tries operation ret) x.notes.2 := by
    intro copy handle was
    obtain ⟨below, foreign⟩ := kept.acting x hx copy handle was
    refine ⟨Nat.lt_of_lt_of_le below grows, fun other newest is => ?_⟩
    rcases newest_of_note setup r _ tries _ _ c.state operation ret effect called.did newest is with
      ⟨old, was, same⟩ | ⟨_, _, _, key, _⟩
    · rw [← same]
      exact foreign other old was
    · rw [key]
      exact Nat.ne_of_gt below
  apply all_settle (squad setup) (fun _ n => Acts r _ _ n.2) c t operation ret effect next
  · intro copy handle acting
    rcases acting_of_learn setup t.notes.2 _ _ c.state operation ret effect called.did called.also copy
      handle acting with was | ⟨ctx, rfl, own, rfl, handles⟩
    · exact earlier t called.member copy handle was
    · refine ⟨by rw [handles]; exact Nat.lt_succ_self _, fun other newest is => ?_⟩
      rw [note, if_neg (by rw [own]; exact other)] at is
      exact Nat.ne_of_lt (kept.newest newest is)
  · exact fun u hu _ => earlier u hu
  · intro spec _ copy handle acting
    cases spec <;> cases acting

theorem Called.final (called : Called setup c t operation ret effect next) (kept : Kept setup r tries c)
    (e : ReplError) (final : Final Transient (budget setup) tries (.error e)) :
    (note r (clockOf t.spec) c.state.store tries operation ret).map Try.key = tries.map Try.key ∧
      Final Transient (budget setup) (note r (clockOf t.spec) c.state.store tries operation ret)
        (.error e) := by
  have tied := kept.tied t called.member
  have also := called.also
  have same : tries.map Try.key = tries.map Try.key ∧
      Final Transient (budget setup) tries (.error e) := ⟨rfl, final⟩
  cases operation with
  | startAction ctx =>
      obtain ⟨_, copy, marked, own⟩ := also
      by_cases mine : ctx.relpath = r
      -- what has been marked is ready to begin, which nothing is after the last attempt
      · obtain ⟨_, ready⟩ := staged_of tied _ marked copy rfl (own.trans mine)
        exact absurd ready (not_ready_of_final Transient (budget setup) tries _ final _ _)
      · rw [note, if_neg mine]
        exact same
  | awaitAction handle =>
      obtain ⟨_, copy, acting⟩ := also
      by_cases mine : copy.relpath = r
      -- the newest attempt has come to its outcome, so nobody waits for it
      · obtain ⟨_, going⟩ := staged_of tied _ acting copy rfl mine
        obtain ⟨clock, newest⟩ := going.newest
        obtain ⟨last, is, came⟩ := final.newest
        rw [newest] at is
        cases is
        cases came
      · rw [note, hear_other tries handle _ ((kept.acting t called.member copy handle acting).2 mine)]
        exact same
  | store operation =>
      cases ret with
      | error e => cases operation <;> exact same
      | ok ret =>
          cases operation with
          | recordCleanupAttempt relpath error state gate now =>
              by_cases mine : relpath = r
              · simp only [note, if_pos mine]
                exact final_close Transient (budget setup) tries gate _ final
              · simp only [note, if_neg mine]
                exact ⟨trivial, final⟩
          | upsertReady relpath size mtimeMs now =>
              by_cases anew : relpath = r ∧ startsOver size mtimeMs (c.state.store.items r) = true
              -- a row whose last attempt failed is not terminal
              · exact absurd anew.2 (kept.unfinished setup r tries c e final.newest size mtimeMs)
              · simp only [note, if_neg anew]
                exact ⟨trivial, final⟩
          | _ => exact same
  | _ => exact same

end Call

/-! ## Every step -/

theorem item_owned (c : Squad) (sound : DrainCalls.Sound setup (forget Prod.fst c)) (t : Hand)
    (member : t ∈ c.threads) (id : Nat) (item : WorkItem) (now : Int) (spec : t.spec = .item id item now) :
    ¬∃ own, owner t.spec = some own ∧ ∀ v ∈ c.threads, v.id ≠ own := by
  rintro ⟨own, owned, alone⟩
  rw [spec] at owned
  obtain rfl : id = own := Option.some.inj owned
  obtain ⟨holder, hholder, sameId, _⟩ :=
    sound.owned (forgetThread Prod.fst t) (mem_forget Prod.fst c t member) id item now spec
  obtain ⟨v, hv, rfl⟩ := List.mem_map.mp hholder
  exact alone v hv sameId

theorem Kept.alive_at (tries : Tries) (c : Squad) (kept : Kept setup r tries c) (t : Hand)
    (member : t ∈ c.threads) (at_ : At r t.notes.2) : t.aborted = false := by
  obtain ⟨ledger, sound, booked⟩ := kept.drains
  rcases spec_of_at r t (kept.fits t member) at_ with ⟨_, _, _, _, spec⟩ | ⟨id, item, now, spec⟩
  · exact sound.free (forgetThread Prod.fst t) (mem_forget Prod.fst c t member) (by
      show owner t.spec = none
      rw [spec]
      rfl)
  · exact kept.alive t member id item now spec

theorem react_calm (world : World) (live : List Spec) (c : Squad) (event : Event)
    (reaction : Reaction World Spec) (met : undisturbed c (.env event) = true)
    (reacted : react world live event = some reaction) :
    reaction.stops = false ∧ reaction.state.store = world.store ∧
      reaction.state.handles = world.handles ∧ ∀ spec ∈ reaction.spawned, ∃ now ignoreWindow fuel,
        spec = .tick now ignoreWindow false fuel ∧ now < cleanupNoRetry := by
  have none {spec : Spec} (member : spec ∈ ([] : List Spec)) : ∃ now ignoreWindow fuel,
      spec = .tick now ignoreWindow false fuel ∧ now < cleanupNoRetry := by cases member
  cases event with
  | crash => cases met
  | boot now => cases met
  | trigger now ignoreWindow fuel => cases met
  | periodic now fuel =>
      simp only [react] at reacted
      split at reacted
      · cases reacted
        refine ⟨rfl, rfl, rfl, fun spec member => ?_⟩
        obtain rfl := List.mem_singleton.mp member
        exact ⟨now, false, fuel, rfl, of_decide_eq_true met⟩
      · cases reacted
  | touch path node =>
      cases reacted
      exact ⟨rfl, rfl, rfl, fun _ => none⟩
  | alter relpath label object =>
      cases reacted
      exact ⟨rfl, rfl, rfl, fun _ => none⟩
  | setActive active =>
      cases reacted
      exact ⟨rfl, rfl, rfl, fun _ => none⟩

theorem Called.follow {setup : Setup} {r : String} {c : Squad} {tries : Tries} {t : Hand} {operation : Op}
    {ret : Ret operation} {effect : Effect World Spec} {next : Ret operation → Program Unit}
    {choice : Choice Answer Event} (kept : Kept setup r tries c)
    (calls : Calls (squad setup) c t operation ret effect next choice) (after : Squad) :
    (logging setup r).follow c choice after tries =
      note r (clockOf t.spec) c.state.store tries operation ret := by
  obtain ⟨ledger, sound, booked⟩ := kept.drains
  obtain ⟨answer, rfl, performed⟩ := calls.choice
  rw [follow_call [] (heed setup r) pass c after (distinct_of_forget Prod.fst c sound.distinct) t calls.member operation
    next calls.prog answer tries]
  have is : perform setup c.state t (Machine.live c) operation answer = some (ret, effect) := performed
  rw [heed, is]

theorem kept_drains (c after : Squad) (tries : Tries) (kept : Kept setup r tries c)
    (choice : Choice Answer Event) (met : undisturbed c choice = true)
    (stepped : (squad setup).step c choice = some after) :
    ∃ ledger, DrainCalls.Sound setup (forget Prod.fst after) ∧ Booked ledger (forget Prod.fst after) := by
  obtain ⟨ledger, holds⟩ := kept.drains
  refine ⟨_, DrainRuns.booked_step setup ledger (forget Prod.fst c) (forget Prod.fst after) choice holds ?_
    (step_forget (squad_annotates setup) c after choice stepped)⟩
  cases choice with
  | run id answer => rfl
  | kill id => rfl
  | env event => cases event <;> first | rfl | cases met

theorem kept_settle (small : ∀ limit ∈ setup.retry.maxAttempts, limit ≤ maxU32) (c : Squad) (tries : Tries)
    (kept : Kept setup r tries c) (t : Hand) (operation : Op) (ret : Ret operation)
    (effect : Effect World Spec) (next : Ret operation → Program Unit) (choice : Choice Answer Event)
    (calls : Calls (squad setup) c t operation ret effect next choice)
    (met : undisturbed c choice = true)
    (drains : ∃ ledger, DrainCalls.Sound setup (forget Prod.fst ((squad setup).settle c
        ((squad setup).resumed t operation ret next) effect)) ∧
      Booked ledger (forget Prod.fst ((squad setup).settle c
        ((squad setup).resumed t operation ret next) effect))) :
    Kept setup r (note r (clockOf t.spec) c.state.store tries operation ret)
      ((squad setup).settle c ((squad setup).resumed t operation ret next) effect) := by
  have called := called_of setup r c tries kept t operation ret effect next choice calls met
  constructor
  case drains => exact drains
  case orderly =>
    refine orderly_settle (squad setup) c t operation ret effect next choice calls kept.orderly
      ⟨DrainRuns.did_possible setup (retold t) _ c.state operation ret effect called.did, called.possible⟩
      fun spec spawned => main_keeps setup spec ?_
    exact ((called.before kept).started operation ret effect called.did called.also spec spawned).1
  case fits => exact called.fits kept
  case alive =>
    intro u member id item now spec
    obtain ⟨ledger, sound, _⟩ := drains
    by_contra aborted
    rcases aborted_settle (squad setup) c _ u effect member (by simpa using aborted) with
      ⟨before, rfl | hbefore, _, same, was⟩ | fate | orphan
    · have spared : t.aborted = false := kept.alive t called.member id item now (same.trans spec)
      exact Bool.noConfusion (spared.symm.trans was)
    · have spared := kept.alive before hbefore id item now (same.trans spec)
      exact Bool.noConfusion (spared.symm.trans was)
    · obtain ⟨rfl, _⟩ := did_aborts setup _ _ _ _ _ _ called.did _ _ fate
      exact called.possible
    · exact item_owned setup _ sound u member id item now spec orphan
  case budgeted =>
    rcases called.makes kept small with ⟨_, log, _⟩ | ⟨_, moved⟩
    · rw [log]
      exact kept.budgeted
    · exact moved.budgeted
  case settled => exact called.settled kept small
  case tied => exact called.tied kept small
  case newest => exact called.newest kept
  case acting => exact called.acting kept

theorem kept_without (c : Squad) (tries : Tries) (kept : Kept setup r tries c) (id : Nat)
    (killed : ∃ t ∈ c.threads, t.id = id ∧ t.aborted = true)
    (drains : ∃ ledger, DrainCalls.Sound setup (forget Prod.fst ((squad setup).without c id)) ∧
      Booked ledger (forget Prod.fst ((squad setup).without c id))) :
    Kept setup r tries ((squad setup).without c id) := by
  constructor
  case drains => exact drains
  case orderly => exact orderly_without (squad setup) c id kept.orderly
  case fits => exact all_without (squad setup) Fits c id kept.fits
  case alive =>
    intro u member own item now spec
    obtain ⟨ledger, sound, _⟩ := drains
    by_contra aborted
    obtain ⟨x, hx, same, cause⟩ := aborted_orphan (squad setup) _ u member
    rcases cause (by simpa using aborted) with was | orphan
    · have spared := kept.alive x (List.mem_filter.mp hx).1 own item now (same.spec.symm.trans spec)
      exact Bool.noConfusion (spared.symm.trans was)
    · exact item_owned setup _ sound u member own item now spec orphan
  case budgeted => exact kept.budgeted
  case settled =>
    refine settled_mono setup kept.settled ?_
    rintro ⟨u, hu, at_⟩
    -- who is in the cleanup is not aborted, so it is another that is killed
    obtain ⟨ledger, sound, _⟩ := kept.drains
    have other := apart_of_killed c (distinct_of_forget Prod.fst c sound.distinct) id killed u hu
      (kept.alive_at setup r tries c u hu at_)
    obtain ⟨v, hv, still⟩ := spared_stays (squad setup) c id u hu other
    exact ⟨v, hv, by rw [still.notes]; exact at_⟩
  case tied => exact all_without (squad setup) (fun _ n => Tied setup r _ tries n.2) c id kept.tied
  case newest => exact kept.newest
  case acting =>
    exact all_without (squad setup) (fun _ n => Acts r c.state.handles tries n.2) c id kept.acting

theorem kept_absorb (c : Squad) (tries : Tries) (kept : Kept setup r tries c) (event : Event)
    (reaction : Reaction World Spec) (met : undisturbed c (.env event) = true)
    (reacted : react c.state (Machine.live c) event = some reaction)
    (drains : ∃ ledger, DrainCalls.Sound setup (forget Prod.fst ((squad setup).absorb c reaction)) ∧
      Booked ledger (forget Prod.fst ((squad setup).absorb c reaction))) :
    Kept setup r tries ((squad setup).absorb c reaction) := by
  obtain ⟨going, store, handles, ticks⟩ := react_calm c.state _ c event reaction met reacted
  constructor
  case drains => exact drains
  case orderly =>
    refine orderly_absorb (squad setup) c reaction kept.orderly fun spec spawned => main_keeps setup spec ?_
    obtain ⟨_, _, _, rfl, _⟩ := ticks spec spawned
    rfl
  case fits =>
    refine all_absorb (squad setup) Fits c reaction kept.fits fun spec spawned => ?_
    obtain ⟨now, ignoreWindow, fuel, rfl, early⟩ := ticks spec spawned
    exact fits_start _ rfl fun _ _ _ _ same => by
      cases same
      exact early
  case alive =>
    intro u member own item now spec
    obtain ⟨ledger, sound, _⟩ := drains
    by_contra aborted
    obtain ⟨x, hx, same, cause⟩ := aborted_orphan (squad setup) _ u member
    rcases cause (by simpa using aborted) with was | orphan
    · rcases List.mem_append.mp hx with old | new
      · rw [going] at old
        have spared := kept.alive x old own item now (same.spec.symm.trans spec)
        exact Bool.noConfusion (spared.symm.trans was)
      · obtain ⟨_, _, _, fresh, _⟩ := mem_spawn_from (squad setup) _ _ x new
        exact Bool.noConfusion (fresh.symm.trans was)
    · exact item_owned setup _ sound u member own item now spec orphan
  case budgeted => exact kept.budgeted
  case settled =>
    show Settled setup (reaction.state.store.items r) tries _
    rw [store]
    refine settled_mono setup kept.settled ?_
    rintro ⟨u, hu, at_⟩
    obtain ⟨v, hv, still⟩ := absorbed_stays (squad setup) c reaction going u hu
    exact ⟨v, hv, by rw [still.notes]; exact at_⟩
  case tied =>
    show ∀ u ∈ ((squad setup).absorb c reaction).threads,
      Tied setup r (reaction.state.store.items r) tries u.notes.2
    rw [store]
    refine all_absorb (squad setup) (fun _ n => Tied setup r _ tries n.2) c reaction kept.tied
      fun spec spawned => ?_
    obtain ⟨_, _, _, rfl, _⟩ := ticks spec spawned
    exact tied_of_silent (silent_of_idle r _ ⟨rfl, rfl⟩ (fun _ same => by cases same)
      fun _ same => by cases same)
  case newest =>
    show ∀ newest ∈ tries.head?, newest.key < reaction.state.handles
    rw [handles]
    exact kept.newest
  case acting =>
    show ∀ u ∈ ((squad setup).absorb c reaction).threads,
      Acts r reaction.state.handles tries u.notes.2
    rw [handles]
    refine all_absorb (squad setup) (fun _ n => Acts r _ tries n.2) c reaction kept.acting
      fun spec _ copy handle acting => ?_
    cases spec <;> cases acting

theorem kept_step (small : ∀ limit ∈ setup.retry.maxAttempts, limit ≤ maxU32) (tries : Tries)
    (c after : Squad) (choice : Choice Answer Event) (kept : Kept setup r tries c)
    (met : undisturbed c choice = true) (stepped : (squad setup).step c choice = some after) :
    Kept setup r ((logging setup r).follow c choice after tries) after := by
  have drains := kept_drains setup r c after tries kept choice met stepped
  rcases step_cases (squad setup) c after choice stepped with
    ⟨t, operation, ret, effect, next, calls, rfl⟩ | ⟨id, rfl, killed, rfl⟩ |
    ⟨event, reaction, rfl, reacted, rfl⟩
  · rw [Called.follow kept calls]
    exact kept_settle setup r small c tries kept t operation ret effect next choice calls met drains
  · exact kept_without setup r c tries kept id killed drains
  · exact kept_absorb setup r c tries kept event reaction met reacted drains

/-! ## Every run -/

/-- Nobody is at work, and the row's action has not been attempted and failed. -/
structure Begins (c : Squad) : Prop where
  threads : c.threads = []
  keyed : Keyed c.state.store
  unattempted : ∀ row, c.state.store.items r = some row →
    row.state = .completed ∨ (row.state ≠ .cleanupFailed ∧ row.cleanupAttempts = 0)

theorem kept_start (c : Squad) (begins : Begins r c) : Kept setup r [] c := by
  have nobody : ∀ t, t ∉ c.threads := by
    intro t
    rw [begins.threads]
    exact List.not_mem_nil
  constructor
  case drains =>
    refine ⟨_, DrainRuns.booked_idle setup (forget Prod.fst c) ?_ begins.keyed⟩
    rw [forget, begins.threads]
    rfl
  case orderly => exact fun t ht => absurd ht (nobody t)
  case fits => exact fun t ht => absurd ht (nobody t)
  case alive => exact fun t ht => absurd ht (nobody t)
  case budgeted => exact ⟨trivial, Nat.zero_le _⟩
  case tied => exact fun t ht => absurd ht (nobody t)
  case newest => exact fun newest none => by cases none
  case acting => exact fun t ht => absurd ht (nobody t)
  case settled =>
    cases found : c.state.store.items r with
    | none => exact settled_none _
    | some row =>
        apply (settled_iff row _).mpr
        rcases begins.unattempted row found with completed | ⟨other, zero⟩
        · rw [completed]
          exact fun newest none => by cases none
        · cases state : row.state with
          | cleanupPending => exact Or.inl ⟨rfl, zero⟩
          | cleanupFailed => exact absurd state other
          | completed => exact fun newest none => by cases none
          | _ => exact ⟨rfl, zero⟩

/-- The step records that a cleanup has failed. -/
def RecordsFailure (c : Squad) (choice : Choice Answer Event) : Prop :=
  ∃ id answer relpath error state gate now, choice = .run id answer ∧
    nextCall c id = some (.store (.recordCleanupAttempt relpath error state gate now))

theorem records_failure (c after : Squad) (distinct : Distinct c) (choice : Choice Answer Event)
    (records : RecordsFailure c choice) (stepped : (squad setup).step c choice = some after) :
    (∀ relpath, (after.state.store.items relpath).map Row.attempts =
      (c.state.store.items relpath).map Row.attempts) ∧
    after.state.store.dests = c.state.store.dests := by
  obtain ⟨id, answer, relpath, error, state, gate, now, rfl, calls⟩ := records
  rcases step_cases (squad setup) c after _ stepped with
    ⟨t, operation, ret, effect, next, called, rfl⟩ | ⟨_, other, _⟩ | ⟨_, _, other, _⟩
  · obtain ⟨given, same, performed⟩ := called.choice
    cases same
    rw [nextCall, find_thread c distinct t called.member, Option.map_some, called.prog] at calls
    obtain rfl := Option.some.inj calls
    have did := did_retold setup t (Machine.live c) c.state _ answer ret effect performed
    cases did with
    | statement operation =>
        refine ⟨fun other => ?_, rfl⟩
        show ((c.state.store.recordCleanupAttempt relpath error state gate now).items other).map _ = _
        rw [Store.recordCleanupAttempt]
        by_cases own : relpath = other
        · subst own
          rw [items_own, Option.map_map]
          rfl
        · rw [items_other c.state.store relpath _ own]
    | refused operation text => exact ⟨fun _ => rfl, rfl⟩
  · cases other
  · cases other

/-- Of a run of ticks that nothing disturbs: the action of a row is attempted no more often than its
budget allows, and once if the first attempt fails for good; each attempt but the first comes after a
failure that may be tried again, at or after the gate that was set for it; after the last one there
is no other; and what records a failure leaves the row's transfer attempts and its destinations
alone. -/
theorem cleanup_budget (small : ∀ limit ∈ setup.retry.maxAttempts, limit ≤ maxU32) (tries : Tries)
    (c : Squad)
    (tracked : Tracked (squad setup) (logging setup r) (Begins r)
      (fun _ c choice => undisturbed c choice = true) tries c) :
    tries.length ≤ max 1 (setup.retry.maxAttempts.getD defaultCleanupMaxAttempts) ∧
    (∀ first ∈ tries.getLast?, ∀ e, first.outcome = some (.error e) → e.isPermanent = true →
      tries.length = 1) ∧
    Chained Transient tries ∧
    ∀ choice after, undisturbed c choice = true → (squad setup).step c choice = some after →
      (∀ e, Final Transient (budget setup) tries (.error e) →
        ((logging setup r).follow c choice after tries).map Try.key = tries.map Try.key ∧
        Final Transient (budget setup) ((logging setup r).follow c choice after tries) (.error e)) ∧
      (RecordsFailure c choice →
        (∀ relpath, (after.state.store.items relpath).map Row.attempts =
          (c.state.store.items relpath).map Row.attempts) ∧
        after.state.store.dests = c.state.store.dests) := by
  have kept : Kept setup r tries c := invariant_of_tracked (squad setup) (logging setup r) (Begins r)
    (fun _ c choice => undisturbed c choice = true) (Kept setup r) (kept_start setup r)
    (fun tries c after choice kept met stepped =>
      kept_step setup r small tries c after choice kept met stepped) tries c tracked
  refine ⟨kept.budgeted.bounded, ?_, kept.budgeted.chained, ?_⟩
  · intro first oldest e came permanent
    refine only_of_first Transient tries kept.budgeted.chained first oldest _ came ?_
    rintro ⟨e', same, transient⟩
    cases same
    rw [permanent] at transient
    cases transient
  · intro choice after met stepped
    constructor
    · intro e final
      rcases step_cases (squad setup) c after choice stepped with
        ⟨t, operation, ret, effect, next, calls, rfl⟩ | ⟨id, rfl, _⟩ | ⟨event, reaction, rfl, _⟩
      · rw [Called.follow kept calls]
        exact (called_of setup r c tries kept t operation ret effect next choice calls met).final kept e
          final
      · exact ⟨rfl, final⟩
      · exact ⟨rfl, final⟩
    · intro records
      obtain ⟨ledger, sound, _⟩ := kept.drains
      exact records_failure setup c after (distinct_of_forget Prod.fst c sound.distinct) choice records stepped

def deliveredRow : Row := ⟨.cleanupPending, 0, 0, 0, 1, 0, 0, none, 0, 0⟩

def cleanupStart : Squad :=
  ⟨{ smallWorld oneFile with
      store := { emptyStore "plant" with
        items := fun relpath => if relpath = "a" then some deliveredRow else none
        order := ["a"] }
      up := true }, [], 0⟩

theorem cleanup_begins : Begins "a" cleanupStart where
  threads := rfl
  keyed := by
    refine ⟨List.nodup_singleton _, fun relpath member absent => ?_⟩
    obtain rfl := List.mem_singleton.mp member
    cases absent
  unattempted := by
    intro row found
    obtain rfl := Option.some.inj found
    exact Or.inr ⟨ItemState.noConfusion, rfl⟩

def untilCleanup (id : Nat) : List (Choice Answer Event) :=
  [.asIs, .asIs, .found [], .asIs, .asIs, .asIs, .asIs, .asIs, .asIs].map (Choice.run id)

/-- The action of a tick panics; a later tick attempts it again. -/
def untilAgain : List (Choice Answer Event) :=
  [.env (.periodic 0 0)] ++ untilCleanup 0 ++
    [.refused "panic", .number 0, .asIs, .scheduled .none, .asIs].map (Choice.run 0) ++
    [.env (.periodic 10000 0)] ++ untilCleanup 2

theorem cleanup_budget_twice :
    ∃ tries c, Tracked (squad (smallSetup plainCompletion)) (logging (smallSetup plainCompletion) "a")
        (Begins "a") (fun _ c choice => undisturbed c choice = true) tries c ∧
      tries.length = 2 ∧ tries.length ≤ 10 ∧ Chained Transient tries := by
  obtain ⟨tries, c, tracked, twice⟩ := exists_of_tracked_run (squad (smallSetup plainCompletion))
    (logging (smallSetup plainCompletion) "a") (Begins "a")
    (fun _ c choice => undisturbed c choice = true) (fun _ c choice => undisturbed c choice)
    (fun _ _ _ met => met) (fun tries _ => decide (tries.length = 2)) untilAgain cleanupStart
    cleanup_begins (by decide)
  obtain ⟨bounded, _, chained, _⟩ := cleanup_budget (smallSetup plainCompletion) "a"
    (fun limit none => by cases none) tries c tracked
  exact ⟨tries, c, tracked, of_decide_eq_true twice, bounded, chained⟩

end FileReplicator.CleanupBudget
