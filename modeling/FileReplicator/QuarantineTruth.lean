import FileReplicator.Handles
import FileReplicator.Quarantining

/-!
# Quarantined means moved

When an item is persisted `Quarantined`, its file has left the source and stands
under the failed directory with the sidecar beside it, and no earlier one was
touched, provided that every quarantine gets through: its names are free, the calls
it cannot do without succeed, and nobody else changes its files until the record.
The code records the item in any case.
-/

namespace FileReplicator.QuarantineTruth

open Domain DurableStore Effects FileTree SourceActions Operations Worker Interleaving Instance
open Protocol Steps Runs Handles Quarantining

variable (setup : Setup)

/-- A thread runs a quarantine, or waits for it. -/
def Engaged (u : Running) (job : QuarantineJob) : Prop :=
  (∃ handle, u.spec = .quarantine handle job) ∨ (∃ handle, u.notes.stage = .moving handle job) ∨
    ∃ joined, u.notes.stage = .moved job joined

/-- A quarantine that is over, and not recorded yet. -/
def Ended (world : World) (u : Running) (job : QuarantineJob) : Prop :=
  (∃ handle, u.notes.stage = .moving handle job ∧ world.quarantined handle = true) ∨
    ∃ joined, u.notes.stage = .moved job joined

theorem engaged_of_ended (world : World) (u : Running) (job : QuarantineJob)
    (ended : Ended world u job) : Engaged u job := by
  rcases ended with ⟨handle, stage, _⟩ | moved
  · exact Or.inr (Or.inl ⟨handle, stage⟩)
  · exact Or.inr (Or.inr moved)

/-- The files a quarantine relies on until it is recorded. -/
def Guards (world : World) (u : Running) (path : Path) : Prop :=
  (∃ handle job, u.spec = .quarantine handle job ∧ Holds job u.notes.place path) ∨
    ∃ job, Ended world u job ∧ Holds job .settled path

/-- A quarantine that has somewhere to go, under names nothing quarantined stands at. -/
structure Ready (h : History) (job : QuarantineJob) : Prop where
  configured : job.failedDir ≠ none
  apart : Apart job
  free : ∀ path ∈ h.kept, ¬Names job path

structure Meets (h : History) (c : State) (choice : Step) : Prop where
  starts : ∀ t ∈ c.threads, ∀ answer job next, choice = .run t.id answer →
    t.prog = .call (.startQuarantine job) next → Ready h job
  goes : ∀ t ∈ c.threads, ∀ answer operation next handle job, choice = .run t.id (.disk answer) →
    t.prog = .call (.fs operation) next → t.spec = .quarantine handle job →
    Goes h c.state.tree job t.notes.place operation answer
  /-- The task of a quarantine does not panic. -/
  joins : ∀ t ∈ c.threads, ∀ text handle next, choice = .run t.id (.refused text) →
    t.prog ≠ .call (.awaitQuarantine handle) next
  disturbs : ∀ t ∈ c.threads, ∀ answer operation next, choice = .run t.id answer →
    t.prog = .call (.fs operation) next → ∀ path ∈ touched operation,
    ∀ u ∈ c.threads, u.id ≠ t.id → ¬Guards c.state u path
  touches : ∀ path node, choice = .env (.touch path node) → ∀ u ∈ c.threads, ¬Guards c.state u path
  /-- No quarantine under way has a name that an item leaves its file at. -/
  records : ∀ t ∈ c.threads, ∀ answer operation next relpath, choice = .run t.id answer →
    t.prog = .call (.store operation) next → persists .quarantined operation = some relpath →
    ∀ u ∈ c.threads, u.id ≠ t.id → ∀ job, Engaged u job →
    ∀ path ∈ h.standing setup relpath, ¬Names job path

/-! ## The invariant -/

def Formed (job : QuarantineJob) : Prop :=
  ∃ item lastError attempts now, job = quarantineJob setup item lastError attempts now

theorem plain_of_formed (job : QuarantineJob) (formed : Formed setup job) :
    job.failedDir = setup.completion.failedDir ∧
      plainPath job = joinRel (setup.completion.failedDir.getD []) job.ctx.relpath := by
  obtain ⟨item, lastError, attempts, now, rfl⟩ := formed
  exact ⟨rfl, rfl⟩

structure Own (h : History) (world : World) (u : Running) : Prop where
  running : ∀ handle job, u.spec = .quarantine handle job →
    Fits setup h world.tree job u.notes.place
  ended : ∀ job, Ended world u job → Fits setup h world.tree job .settled
  used : ∀ handle job, u.notes.stage = .moving handle job → handle < world.handles
  ready : ∀ job, Engaged u job → Ready h job ∧ Formed setup job
  told : ∀ relpath, u.notes.recorded = some relpath → relpath ∈ h.recorded

structure Truth (h : History) (c : State) : Prop where
  own : ∀ u ∈ c.threads, Own setup h c.state u
  paired : ∀ u ∈ c.threads, ∀ handle job, u.notes.stage = .moving handle job →
    ∀ v ∈ c.threads, ∀ other, v.spec = .quarantine handle other → other = job
  fresh : ∀ handle, c.state.quarantined handle = true → handle < c.state.handles
  spared : h.overwritten = false

/-- What a step leaves to a thread that does not take it. -/
structure Leaves (h later : History) (world after : World) (u : Running) : Prop where
  kept : ∀ path, Guards world u path → ∀ node, world.tree path = some node →
    after.tree path = some node
  moved : ∀ job, Engaged u job → ∀ m ∈ h.moved, m.1 = job.ctx.relpath → m ∈ later.moved
  names : ∀ job, Engaged u job → ∀ path ∈ later.kept, path ∈ h.kept ∨ ¬Names job path
  recorded : ∀ relpath ∈ h.recorded, relpath ∈ later.recorded
  handles : world.handles ≤ after.handles
  ended : ∀ handle, after.quarantined handle = true → world.quarantined handle = true ∨
    ∀ job, u.notes.stage = .moving handle job → Fits setup later after.tree job .settled

variable {setup} {h later : History} {world after : World}

theorem ready_leaves (job : QuarantineJob) (ready : Ready h job)
    (names : ∀ path ∈ later.kept, path ∈ h.kept ∨ ¬Names job path) : Ready later job := by
  refine ⟨ready.configured, ready.apart, fun path hpath => ?_⟩
  rcases names path hpath with old | other
  · exact ready.free path old
  · exact other

theorem settled_leaves (u : Running) (job : QuarantineJob) (own : Own setup h world u)
    (leaves : Leaves setup h later world after u) (ended : Ended world u job) :
    Fits setup later after.tree job .settled := by
  apply fits_keeping (leaves.moved job (engaged_of_ended world u job ended)) .settled
    (own.ended job ended)
  intro path holds
  exact leaves.kept path (Or.inr ⟨job, ended, holds⟩)

theorem own_leaves (u : Running) (own : Own setup h world u)
    (leaves : Leaves setup h later world after u) : Own setup later after u := by
  constructor
  · intro handle job spec
    apply fits_keeping (leaves.moved job (Or.inl ⟨handle, spec⟩)) _ (own.running handle job spec)
    intro path holds
    exact leaves.kept path (Or.inl ⟨handle, job, spec, holds⟩)
  · intro job ended
    rcases ended with ⟨handle, stage, told⟩ | moved
    · rcases leaves.ended handle told with earlier | now
      · exact settled_leaves u job own leaves (Or.inl ⟨handle, stage, earlier⟩)
      · exact now job stage
    · exact settled_leaves u job own leaves (Or.inr moved)
  · intro handle job stage
    exact Nat.lt_of_lt_of_le (own.used handle job stage) leaves.handles
  · intro job engaged
    obtain ⟨ready, formed⟩ := own.ready job engaged
    exact ⟨ready_leaves job ready (leaves.names job engaged), formed⟩
  · intro relpath told
    exact leaves.recorded relpath (own.told relpath told)

theorem own_same (t u : Running) (own : Own setup h world t) (spec : u.spec = t.spec)
    (notes : u.notes = t.notes) : Own setup h world u := by
  constructor
  · rw [spec, notes]
    exact own.running
  · intro job ended
    rw [Ended, notes] at ended
    exact own.ended job ended
  · rw [notes]
    exact own.used
  · intro job engaged
    rw [Engaged, spec, notes] at engaged
    exact own.ready job engaged
  · rw [notes]
    exact own.told

theorem own_start (u : Running) (notes : u.notes = start u.spec)
    (ready : ∀ handle job, u.spec = .quarantine handle job → Ready h job ∧ Formed setup job) :
    Own setup h world u := by
  have idle : u.notes.stage = .idle := by
    rw [notes]
    cases u.spec <;> rfl
  constructor
  · intro handle job spec
    rw [notes, spec]
    trivial
  · rintro job (⟨handle, stage, _⟩ | ⟨joined, stage⟩)
    · rw [idle] at stage
      cases stage
    · rw [idle] at stage
      cases stage
  · intro handle job stage
    rw [idle] at stage
    cases stage
  · rintro job (⟨handle, spec⟩ | ⟨handle, stage⟩ | ⟨joined, stage⟩)
    · exact ready handle job spec
    · rw [idle] at stage
      cases stage
    · rw [idle] at stage
      cases stage
  · intro relpath told
    rw [notes] at told
    cases hspec : u.spec <;> rw [hspec] at told <;> cases told

/-! ## Histories -/

/-- A history that may forget where a file stands, and forgets nothing else. -/
structure Fades (h later : History) : Prop where
  moved : ∀ m ∈ h.moved, m ∈ later.moved
  kept : ∀ path ∈ later.kept, path ∈ h.kept
  recorded : later.recorded = h.recorded

theorem fades_self (h : History) : Fades h h := ⟨fun _ hm => hm, fun _ hp => hp, rfl⟩

theorem fades_foreign (h : History) (before last : Tree) : Fades h (h.foreign before last) :=
  ⟨fun _ hm => hm, fun _ hp => (List.mem_filter.mp hp).1, rfl⟩

theorem fades_call (h : History) (job : QuarantineJob) (before last : Tree) :
    Fades h (h.call job before last) := by
  have same : (h.release job before last).kept = h.kept ∧
      (h.release job before last).recorded = h.recorded := by
    unfold History.release
    split <;> exact ⟨rfl, rfl⟩
  refine ⟨release_grows h job before last, fun path hp => ?_, same.2⟩
  rw [← same.1]
  exact hp

theorem leaves_of_fades (u : Running) (fades : Fades h later)
    (kept : ∀ path, Guards world u path → ∀ node, world.tree path = some node →
      after.tree path = some node)
    (handles : world.handles ≤ after.handles)
    (ended : ∀ handle, after.quarantined handle = true → world.quarantined handle = true ∨
      ∀ job, u.notes.stage = .moving handle job → Fits setup later after.tree job .settled) :
    Leaves setup h later world after u where
  kept := kept
  moved := fun _ _ m hm _ => fades.moved m hm
  names := fun _ _ path hp => Or.inl (fades.kept path hp)
  recorded := fun _ hr => fades.recorded ▸ hr
  handles := handles
  ended := ended

variable (setup)

theorem remembered_call (c last : State) (base : Base setup c) (t : Running) (operation : Op)
    (next : Ret operation → Program Unit) (answer : Answer) (h : History) (ht : t ∈ c.threads)
    (prog : t.prog = .call operation next) :
    remembered setup c (.run t.id answer) last h =
      h.heed setup t.spec c.state.tree last.state.tree answer operation := by
  have found : c.threads.find? (fun u => u.id = t.id) = some t := by
    cases hfind : c.threads.find? fun u => u.id = t.id with
    | none =>
        have := List.find?_eq_none.mp hfind t ht
        simp at this
    | some u =>
        have hid : u.id = t.id := by simpa using List.find?_some hfind
        rw [eq_of_same_id c base.distinct u t (List.mem_of_find?_eq_some hfind) ht hid]
  simp only [remembered, found, prog]

theorem heed_cases (t : Running) (live : List Spec) (operation : Op) (answer : Answer)
    (ret : Ret operation) (effect : Effect World Spec) (h : History) (spec : Spec)
    (before last : Tree) (nofs : ∀ operation', operation ≠ .fs operation')
    (performed : perform setup world t live operation answer = some (ret, effect)) :
    h.heed setup spec before last answer operation =
      match records operation ret with
      | some relpath => h.record setup relpath
      | none => h := by
  cases operation with
  | fs operation => exact absurd rfl (nofs operation)
  | store operation =>
      cases answer with
      | asIs =>
          cases performed
          cases persisted : persists .quarantined operation with
          | none => simp only [History.heed, records, persisted]
          | some relpath => simp only [History.heed, records, persisted, if_pos]
      | refused text =>
          cases performed
          cases persisted : persists .quarantined operation with
          | none => simp only [History.heed, records, persisted]
          | some relpath => simp [History.heed, records, persisted]
      | _ => cases performed
  | _ => rfl

/-! ## Steps -/

section Settle

variable (c : State) (t : Running) (operation : Op) (ret : Ret operation)
variable (effect : Effect World Spec) (next : Ret operation → Program Unit)

theorem spawned_quarantine (live : List Spec) (world : World)
    (did : Did setup t live world operation ret effect) (handle : Nat) (job : QuarantineJob)
    (spawned : .quarantine handle job ∈ effect.spawned) :
    handle = world.handles ∧ operation = .startQuarantine job := by
  cases did with
  | startedQuarantine started =>
      cases List.mem_singleton.mp spawned
      exact ⟨rfl, rfl⟩
  | startedAction ctx => cases List.mem_singleton.mp spawned
  | spawnedAttempts contexts =>
      obtain ⟨_, _, same⟩ := List.mem_map.mp spawned
      cases same
  | spawnedBatch items now =>
      obtain ⟨_, _, same⟩ := List.mem_map.mp spawned
      cases same
  | _ => cases spawned

theorem paired_settle (pool : Pool c) (truth : Truth setup h c) (ht : t ∈ c.threads)
    (did : Did setup t (Machine.live c) c.state operation ret effect)
    (may : allowed setup t.notes operation) :
    ∀ u ∈ ((engine setup).settle c ((engine setup).resumed t operation ret next) effect).threads,
      ∀ handle job, u.notes.stage = .moving handle job →
      ∀ v ∈ ((engine setup).settle c ((engine setup).resumed t operation ret next) effect).threads,
        ∀ other, v.spec = .quarantine handle other → other = job := by
  intro u hu handle job stage v hv other spec
  -- a quarantine that was there before has a handle that was used before
  have older : (∃ d ∈ c.threads, d.spec = .quarantine handle other) ∨
      Spec.quarantine handle other ∈ effect.spawned := by
    rcases pool_member setup c t v operation ret next effect hv with ⟨same, _⟩ |
      ⟨d, hd, _, same, _⟩ | ⟨new, _⟩
    · exact Or.inl ⟨t, ht, same ▸ spec⟩
    · exact Or.inl ⟨d, hd, same ▸ spec⟩
    · exact Or.inr (spec ▸ new)
  have waited : ∀ b ∈ c.threads, b.notes.stage = .moving handle job → other = job := by
    intro b hb moving
    rcases older with ⟨d, hd, same⟩ | new
    · exact truth.paired b hb handle job moving d hd other same
    · have used := (truth.own b hb).used handle job moving
      rw [(spawned_quarantine setup t operation ret effect _ _ did handle other new).1] at used
      exact absurd used (Nat.lt_irrefl _)
  rcases mem_settle (engine setup) c _ u effect hu with ⟨same, _⟩ | ⟨before, hbefore, _, same, _⟩ |
    ⟨new, hnew, same⟩
  · have learned : (learn setup t.notes operation ret).stage = .moving handle job := by
      rw [← stage, same.notes]
      rfl
    have staged := learn_stage setup t.notes operation ret may
    rw [learned] at staged
    generalize hstage : Stage.moving handle job = next at staged
    cases staged with
    | same operation ret plain => exact waited t ht hstage.symm
    | moving started fresh idle =>
        cases hstage
        cases did with
        | startedQuarantine =>
            rcases older with ⟨d, hd, same⟩ | new
            · have below := pool.below d hd c.state.handles (by rw [same]; rfl)
              exact absurd below (Nat.lt_irrefl _)
            · cases List.mem_singleton.mp new
              rfl
    | idle operation ret plain => cases hstage
    | marked relpath now ret _ => cases hstage
    | acting started fresh _ => cases hstage
    | acted started fresh done _ => cases hstage
    | failed started fresh result _ => cases hstage
    | moved job fresh result _ => cases hstage
  · rw [same.notes] at stage
    exact waited before hbefore stage
  · obtain ⟨_, _, _, _, notes, _⟩ := mem_spawn_from (engine setup) _ _ new hnew
    rw [same.notes, notes] at stage
    cases hspec : new.spec <;> rw [hspec] at stage <;> cases stage

/-- After a call the caller has what it has learned, the others what was left to them. -/
theorem truth_settle_of (truth : Truth setup h c) (pool : Pool c) (ht : t ∈ c.threads)
    (did : Did setup t (Machine.live c) c.state operation ret effect)
    (may : allowed setup t.notes operation)
    (caller : ∀ u : Running, u.spec = t.spec → u.notes = learn setup t.notes operation ret →
      Own setup later effect.state u)
    (others : ∀ u ∈ c.threads, u.id ≠ t.id → Leaves setup h later c.state effect.state u)
    (new : ∀ handle job, .quarantine handle job ∈ effect.spawned → Ready later job ∧ Formed setup job)
    (fresh : ∀ handle, effect.state.quarantined handle = true → handle < effect.state.handles)
    (spared : later.overwritten = false) :
    Truth setup later
      ((engine setup).settle c ((engine setup).resumed t operation ret next) effect) := by
  constructor
  · intro u hu
    rcases mem_settle (engine setup) c _ u effect hu with ⟨same, _⟩ |
      ⟨before, hbefore, other, same, _⟩ | ⟨started, hstarted, same⟩
    · exact caller u same.spec same.notes
    · apply own_same before u _ same.spec same.notes
      exact own_leaves before (truth.own before hbefore) (others before hbefore other)
    · obtain ⟨hspec, _, _, _, notes, _⟩ := mem_spawn_from (engine setup) _ _ started hstarted
      apply own_start
      · rw [same.notes, notes, same.spec]
        rfl
      · intro handle job spec
        apply new handle job
        rw [← spec, same.spec]
        exact hspec
  · exact paired_settle setup c t operation ret effect next pool truth ht did may
  · exact fresh
  · exact spared

end Settle

/-- The caller of a call that leaves the files it relies on alone and starts no quarantine. -/
theorem caller_aside (t u : Running) (own : Own setup h world t)
    (leaves : Leaves setup h later world after t) (spec : u.spec = t.spec)
    (place : u.notes.place = t.notes.place)
    (stage : u.notes.stage = t.notes.stage ∨
      ((∀ handle job, u.notes.stage ≠ .moving handle job) ∧
        ∀ job joined, u.notes.stage ≠ .moved job joined))
    (told : ∀ relpath, u.notes.recorded = some relpath → relpath ∈ later.recorded) :
    Own setup later after u := by
  have left := own_leaves t own leaves
  have ended : ∀ job, Ended after u job → Ended after t job := by
    rintro job (⟨handle, moving, ended⟩ | ⟨joined, moved⟩)
    · rcases stage with same | ⟨none, _⟩
      · exact Or.inl ⟨handle, same ▸ moving, ended⟩
      · exact absurd moving (none handle job)
    · rcases stage with same | ⟨_, none⟩
      · exact Or.inr ⟨joined, same ▸ moved⟩
      · exact absurd moved (none job joined)
  constructor
  · rw [spec, place]
    exact left.running
  · intro job finished
    exact left.ended job (ended job finished)
  · intro handle job moving
    rcases stage with same | ⟨none, _⟩
    · exact left.used handle job (same ▸ moving)
    · exact absurd moving (none handle job)
  · rintro job (⟨handle, running⟩ | ⟨handle, moving⟩ | ⟨joined, moved⟩)
    · exact left.ready job (Or.inl ⟨handle, spec ▸ running⟩)
    · rcases stage with same | ⟨none, _⟩
      · exact left.ready job (Or.inr (Or.inl ⟨handle, same ▸ moving⟩))
      · exact absurd moving (none handle job)
    · rcases stage with same | ⟨_, none⟩
      · exact left.ready job (Or.inr (Or.inr ⟨joined, same ▸ moved⟩))
      · exact absurd moved (none job joined)
  · exact told

section Steps

variable (c : State) (base : Base setup c) (pool : Pool c) (truth : Truth setup h c) (t : Running)

include base in
theorem idle_of_rowless (ht : t ∈ c.threads) (role : hasRows t.notes.role = false)
    (job : QuarantineJob) : (∀ handle, t.notes.stage ≠ .moving handle job) ∧
      ∀ joined, t.notes.stage ≠ .moved job joined := by
  have idle := (base.rowless t ht role).stage
  rw [idle]
  exact ⟨fun _ same => (by cases same), fun _ same => (by cases same)⟩

include base pool truth

theorem truth_quarantine (operation : FsOp) (answer : FsAnswer)
    (next : Ret (.fs operation) → Program Unit) (choice : Step) (handle : Nat) (job : QuarantineJob)
    (spec : t.spec = .quarantine handle job)
    (calls : Calls (engine setup) c t (.fs operation) (callFs c.state.tree operation answer).1
      (changes { c.state with tree := (callFs c.state.tree operation answer).2 }) next choice)
    (chosen : choice = .run t.id (.disk answer)) (meets : Meets setup h c choice) :
    Truth setup (h.call job c.state.tree (callFs c.state.tree operation answer).2)
      ((engine setup).settle c ((engine setup).resumed t (.fs operation)
        (callFs c.state.tree operation answer).1 next)
        (changes { c.state with tree := (callFs c.state.tree operation answer).2 })) := by
  have ht := calls.member
  have own := truth.own t ht
  have may := calls_allowed (engine setup) c t _ _ _ next choice calls base.orderly
  have did := calls_did setup c t _ _ _ next choice calls
  have role : t.notes.role = .quarantine job := by
    rw [base.roles t ht, spec]
    rfl
  have idle := fun job => idle_of_rowless setup c base t ht (by rw [role]; rfl) job
  have mine : mayMove setup job t.notes.place operation := by
    rcases may with ⟨ctx, same, _⟩ | ⟨other, same, mine⟩
    · rw [role] at same
      cases same
    · rw [role] at same
      cases same
      exact mine
  have fits := own.running handle job spec
  obtain ⟨ready, formed⟩ := own.ready job (Or.inl ⟨handle, spec⟩)
  have goes := meets.goes t ht answer operation next handle job chosen calls.prog spec
  have fades := fades_call h job c.state.tree (callFs c.state.tree operation answer).2
  apply truth_settle_of setup c t _ _ _ next truth pool ht did may
  · intro u same notes
    have stage : u.notes.stage = t.notes.stage := by
      rw [notes]
      rfl
    constructor
    · intro other own' hspec
      rw [same, spec] at hspec
      cases hspec
      have place : u.notes.place = advance job t.notes.place operation
          (callFs c.state.tree operation answer).1 := by
        rw [notes]
        show learnPlace t.notes.role t.notes.place operation _ = _
        rw [role]
        rfl
      rw [place]
      exact fits_call setup h c.state.tree job answer ready.configured ready.apart t.notes.place
        operation mine goes fits
    · rintro other (⟨hand, moving, _⟩ | ⟨joined, moved⟩)
      · exact absurd (stage ▸ moving) ((idle other).1 hand)
      · exact absurd (stage ▸ moved) ((idle other).2 joined)
    · intro hand other moving
      exact absurd (stage ▸ moving) ((idle other).1 hand)
    · rintro other (⟨hand, running⟩ | ⟨hand, moving⟩ | ⟨joined, moved⟩)
      · obtain ⟨ready, formed⟩ := own.ready other (Or.inl ⟨hand, same ▸ running⟩)
        exact ⟨ready_leaves other ready fun path hp => Or.inl (fades.kept path hp), formed⟩
      · exact absurd (stage ▸ moving) ((idle other).1 hand)
      · exact absurd (stage ▸ moved) ((idle other).2 joined)
    · intro relpath told
      rw [fades.recorded]
      apply own.told relpath
      rw [← told, notes]
      rfl
  · intro u hu other
    apply leaves_of_fades u fades
    · intro path guarded node there
      apply call_fs_frame c.state.tree operation answer path node _ there
      intro touches
      exact meets.disturbs t ht _ operation next chosen calls.prog path touches u hu other guarded
    · exact Nat.le_refl _
    · intro hand ended
      exact Or.inl ended
  · intro hand other spawned
    cases spawned
  · exact truth.fresh
  · -- a kept file has none of the names
    show (h.overwritten || h.kept.any _) = false
    rw [truth.spared, Bool.false_or, List.any_eq_false]
    intro path hp
    rw [unchanged_call setup h c.state.tree job answer t.notes.place operation mine fits path
      (ready.free path hp)]
    exact Bool.false_ne_true

theorem truth_other_disk (operation : FsOp) (answer : FsAnswer)
    (next : Ret (.fs operation) → Program Unit) (choice : Step)
    (spec : ∀ handle job, t.spec ≠ .quarantine handle job)
    (calls : Calls (engine setup) c t (.fs operation) (callFs c.state.tree operation answer).1
      (changes { c.state with tree := (callFs c.state.tree operation answer).2 }) next choice)
    (chosen : choice = .run t.id (.disk answer)) (meets : Meets setup h c choice) :
    Truth setup (h.foreign c.state.tree (callFs c.state.tree operation answer).2)
      ((engine setup).settle c ((engine setup).resumed t (.fs operation)
        (callFs c.state.tree operation answer).1 next)
        (changes { c.state with tree := (callFs c.state.tree operation answer).2 })) := by
  have ht := calls.member
  have own := truth.own t ht
  have may := calls_allowed (engine setup) c t _ _ _ next choice calls base.orderly
  have did := calls_did setup c t _ _ _ next choice calls
  have rowless : hasRows t.notes.role = false := by
    rcases may with ⟨ctx, role, _⟩ | ⟨job, role, _⟩
    · rw [role]
      rfl
    · rw [role]
      rfl
  have idle := fun job => idle_of_rowless setup c base t ht rowless job
  have fades := fades_foreign h c.state.tree (callFs c.state.tree operation answer).2
  apply truth_settle_of setup c t _ _ _ next truth pool ht did may
  · intro u same notes
    have stage : u.notes.stage = t.notes.stage := by
      rw [notes]
      rfl
    constructor
    · intro handle job running
      exact absurd (same ▸ running) (spec handle job)
    · rintro job (⟨handle, moving, _⟩ | ⟨joined, moved⟩)
      · exact absurd (stage ▸ moving) ((idle job).1 handle)
      · exact absurd (stage ▸ moved) ((idle job).2 joined)
    · intro handle job moving
      exact absurd (stage ▸ moving) ((idle job).1 handle)
    · rintro job (⟨handle, running⟩ | ⟨handle, moving⟩ | ⟨joined, moved⟩)
      · exact absurd (same ▸ running) (spec handle job)
      · exact absurd (stage ▸ moving) ((idle job).1 handle)
      · exact absurd (stage ▸ moved) ((idle job).2 joined)
    · intro relpath told
      apply own.told relpath
      rw [← told, notes]
      rfl
  · intro u hu other
    apply leaves_of_fades u fades
    · intro path guarded node there
      apply call_fs_frame c.state.tree operation answer path node _ there
      intro touches
      exact meets.disturbs t ht _ operation next chosen calls.prog path touches u hu other guarded
    · exact Nat.le_refl _
    · intro hand ended
      exact Or.inl ended
  · intro hand other spawned
    cases spawned
  · exact truth.fresh
  · exact truth.spared

/-- A call that changes neither the file system nor the quarantines that have ended. -/
def Aside (world : World) (effect : Effect World Spec) : Prop :=
  effect.state.tree = world.tree ∧ effect.state.quarantined = world.quarantined ∧
    world.handles ≤ effect.state.handles

omit base pool truth in
theorem aside_leaves (effect : Effect World Spec) (aside : Aside c.state effect) (u : Running) :
    Leaves setup h h c.state effect.state u := by
  apply leaves_of_fades u (fades_self h)
  · intro path _ node there
    rw [aside.1]
    exact there
  · exact aside.2.2
  · intro handle ended
    rw [aside.2.1] at ended
    exact Or.inl ended

omit base pool in
theorem aside_fresh (effect : Effect World Spec) (aside : Aside c.state effect) (handle : Nat)
    (ended : effect.state.quarantined handle = true) : handle < effect.state.handles := by
  rw [aside.2.1] at ended
  exact Nat.lt_of_lt_of_le (truth.fresh handle ended) aside.2.2

theorem truth_started (job : QuarantineJob) (next : Ret (.startQuarantine job) → Program Unit)
    (choice : Step)
    (calls : Calls (engine setup) c t (.startQuarantine job) c.state.handles
      (spawns { c.state with handles := c.state.handles + 1 } [.quarantine c.state.handles job]) next
      choice)
    (meets : Meets setup h c choice) :
    Truth setup h ((engine setup).settle c
      ((engine setup).resumed t (.startQuarantine job) c.state.handles next)
      (spawns { c.state with handles := c.state.handles + 1 }
        [.quarantine c.state.handles job])) := by
  have ht := calls.member
  have own := truth.own t ht
  have may := calls_allowed (engine setup) c t _ _ _ next choice calls base.orderly
  have did := calls_did setup c t _ _ _ next choice calls
  have aside : Aside c.state (spawns { c.state with handles := c.state.handles + 1 }
      [.quarantine c.state.handles job]) := ⟨rfl, rfl, Nat.le_succ _⟩
  obtain ⟨answer, chosen, _⟩ := calls.choice
  have ready : Ready h job ∧ Formed setup job :=
    ⟨meets.starts t ht answer job next chosen calls.prog, may.2.2⟩
  have left := own_leaves t own (aside_leaves setup c _ aside t)
  apply truth_settle_of setup c t _ _ _ next truth pool ht did may
  · intro u same notes
    have stage : u.notes.stage = .moving c.state.handles job := by
      rw [notes]
      rfl
    constructor
    · rw [same, notes]
      exact left.running
    · rintro other (⟨handle, moving, ended⟩ | ⟨joined, moved⟩)
      · -- its handle is new: no quarantine has ended under it
        rw [stage] at moving
        cases moving
        exact absurd (truth.fresh _ ended) (Nat.lt_irrefl _)
      · rw [stage] at moved
        cases moved
    · intro handle other moving
      rw [stage] at moving
      cases moving
      exact Nat.lt_succ_self _
    · rintro other (⟨handle, running⟩ | ⟨handle, moving⟩ | ⟨joined, moved⟩)
      · exact own.ready other (Or.inl ⟨handle, same ▸ running⟩)
      · rw [stage] at moving
        cases moving
        exact ready
      · rw [stage] at moved
        cases moved
    · intro relpath told
      apply own.told relpath
      rw [← told, notes]
      rfl
  · intro u _ _
    exact aside_leaves setup c _ aside u
  · intro handle other spawned
    cases List.mem_singleton.mp spawned
    exact ready
  · exact aside_fresh setup c truth _ aside
  · exact truth.spared

theorem truth_ended (handle : Nat) (job : QuarantineJob) (spec : t.spec = .quarantine handle job)
    (next : Ret .endQuarantine → Program Unit) (choice : Step)
    (calls : Calls (engine setup) c t .endQuarantine () (changes { c.state with
      quarantined := fun h => if h = handle then true else c.state.quarantined h }) next choice) :
    Truth setup h ((engine setup).settle c ((engine setup).resumed t .endQuarantine () next)
      (changes { c.state with
        quarantined := fun h => if h = handle then true else c.state.quarantined h })) := by
  have ht := calls.member
  have own := truth.own t ht
  have may := calls_allowed (engine setup) c t _ _ _ next choice calls base.orderly
  have did := calls_did setup c t _ _ _ next choice calls
  have role : t.notes.role = .quarantine job := by
    rw [base.roles t ht, spec]
    rfl
  have idle := fun job => idle_of_rowless setup c base t ht (by rw [role]; rfl) job
  have settled : Fits setup h c.state.tree job .settled := by
    obtain ⟨other, same, place⟩ := may
    rw [role] at same
    cases same
    have fits := own.running handle job spec
    rcases place with unset | place | place
    · exact absurd unset (own.ready job (Or.inl ⟨handle, spec⟩)).1.configured
    · rw [place] at fits
      exact fits
    · rw [place] at fits
      exact fits.elim
  have leaves : ∀ u ∈ c.threads, Leaves setup h h c.state { c.state with
      quarantined := fun h => if h = handle then true else c.state.quarantined h } u := by
    intro u hu
    apply leaves_of_fades u (fades_self h)
    · intro path _ node there
      exact there
    · exact Nat.le_refl _
    · intro other ended
      by_cases same : other = handle
      · refine Or.inr fun waited moving => ?_
        subst same
        rw [← truth.paired u hu other waited moving t ht job spec]
        exact settled
      · simp only [same, if_false] at ended
        exact Or.inl ended
  apply truth_settle_of setup c t _ _ _ next truth pool ht did may
  · intro u same notes
    apply caller_aside setup t u own (leaves t ht) same
    · rw [notes]
      rfl
    · exact Or.inl (by rw [notes]; rfl)
    · intro relpath told
      apply own.told relpath
      rw [← told, notes]
      rfl
  · intro u hu _
    exact leaves u hu
  · intro hand other spawned
    cases spawned
  · intro other ended
    by_cases same : other = handle
    · subst same
      exact pool.below t ht other (by rw [spec]; rfl)
    · simp only [changes, same, if_false] at ended
      exact truth.fresh other ended
  · exact truth.spared

theorem truth_awaited (handle : Nat) (ended : c.state.quarantined handle = true)
    (next : Ret (.awaitQuarantine handle) → Program Unit) (choice : Step)
    (calls : Calls (engine setup) c t (.awaitQuarantine handle) (.ok ()) (changes c.state) next
      choice) :
    Truth setup h ((engine setup).settle c
      ((engine setup).resumed t (.awaitQuarantine handle) (.ok ()) next) (changes c.state)) := by
  have ht := calls.member
  have own := truth.own t ht
  have may := calls_allowed (engine setup) c t _ _ _ next choice calls base.orderly
  have did := calls_did setup c t _ _ _ next choice calls
  obtain ⟨job, moving⟩ := may
  apply truth_settle_of setup c t _ _ _ next truth pool ht did ⟨job, moving⟩
  · intro u same notes
    have stage : u.notes.stage = .moved job true := by
      rw [notes]
      simp only [learn, learnMoved, moving]
      rfl
    have place : u.notes.place = t.notes.place := by
      rw [notes]
      exact (learn_disk setup t.notes _ _ fun _ same => by cases same).2
    constructor
    · rw [same, place]
      exact own.running
    · rintro other (⟨hand, again, _⟩ | ⟨joined, moved⟩)
      · rw [stage] at again
        cases again
      · rw [stage] at moved
        cases moved
        exact own.ended job (Or.inl ⟨handle, moving, ended⟩)
    · intro hand other again
      rw [stage] at again
      cases again
    · rintro other (⟨hand, running⟩ | ⟨hand, again⟩ | ⟨joined, moved⟩)
      · exact own.ready other (Or.inl ⟨hand, same ▸ running⟩)
      · rw [stage] at again
        cases again
      · rw [stage] at moved
        cases moved
        exact own.ready job (Or.inr (Or.inl ⟨handle, moving⟩))
    · intro relpath told
      apply own.told relpath
      rw [← told, notes]
      exact (learn_recorded setup t.notes (.awaitQuarantine handle) (.ok ()) ⟨job, moving⟩).symm
  · intro u _ _
    exact aside_leaves setup c _ ⟨rfl, rfl, Nat.le_refl _⟩ u
  · intro hand other spawned
    cases spawned
  · exact truth.fresh
  · exact truth.spared

theorem truth_aside (operation : Op) (ret : Ret operation) (effect : Effect World Spec)
    (next : Ret operation → Program Unit) (choice : Step)
    (calls : Calls (engine setup) c t operation ret effect next choice)
    (aside : Aside c.state effect) (unrecorded : records operation ret = none)
    (nofs : ∀ operation', operation ≠ .fs operation')
    (nostart : ∀ job, operation ≠ .startQuarantine job)
    (noawait : ∀ handle, operation ≠ .awaitQuarantine handle) :
    Truth setup h
      ((engine setup).settle c ((engine setup).resumed t operation ret next) effect) := by
  have ht := calls.member
  have own := truth.own t ht
  have may := calls_allowed (engine setup) c t _ _ _ next choice calls base.orderly
  have did := calls_did setup c t _ _ _ next choice calls
  apply truth_settle_of setup c t _ _ _ next truth pool ht did may
  · intro u same notes
    apply caller_aside setup t u own (aside_leaves setup c effect aside t) same
    · rw [notes]
      exact (learn_disk setup t.notes operation ret nofs).2
    · have staged := learn_stage setup t.notes operation ret may
      rw [← notes] at staged
      generalize u.notes.stage = stage at staged
      cases staged with
      | same operation ret plain => exact Or.inl rfl
      | moving job handle _ => exact absurd rfl (nostart job)
      | moved job handle result _ => exact absurd rfl (noawait handle)
      | _ => exact Or.inr ⟨fun _ _ same => (by cases same), fun _ _ same => (by cases same)⟩
    · intro relpath told
      apply own.told relpath
      rw [← told, notes, learn_recorded setup t.notes operation ret may, unrecorded]
      rfl
  · intro u _ _
    exact aside_leaves setup c effect aside u
  · intro handle job spawned
    exact absurd (spawned_quarantine setup t operation ret effect _ _ did handle job spawned).2
      (nostart job)
  · exact aside_fresh setup c truth effect aside
  · exact truth.spared

theorem truth_recorded (operation : StoreOp) (relpath : String) (effect : Effect World Spec)
    (persisted : persists .quarantined operation = some relpath) (ret : StoreRet operation)
    (next : Ret (.store operation) → Program Unit) (choice : Step)
    (calls : Calls (engine setup) c t (.store operation) (.ok ret) effect next choice)
    (aside : Aside c.state effect) (meets : Meets setup h c choice) :
    Truth setup (h.record setup relpath) ((engine setup).settle c
      ((engine setup).resumed t (.store operation) (.ok ret) next) effect) := by
  have ht := calls.member
  have own := truth.own t ht
  have may := calls_allowed (engine setup) c t _ _ _ next choice calls base.orderly
  have did := calls_did setup c t _ _ _ next choice calls
  obtain ⟨answer, chosen, _⟩ := calls.choice
  obtain ⟨mine, joined, stage, same⟩ := moved_of_quarantined setup t.notes operation relpath persisted
    may
  have formed := (own.ready mine (Or.inr (Or.inr ⟨joined, stage⟩))).2
  obtain ⟨⟨bytes, _, member, _⟩, _⟩ := own.ended mine (Or.inr ⟨joined, stage⟩)
  -- the file of the item stands at its plain name
  have stands : plainPath mine ∈ h.standing setup relpath := by
    apply List.mem_append_left
    apply List.mem_flatMap.mpr
    exact ⟨_, List.mem_filter.mpr ⟨member, by simpa using same⟩, List.mem_cons_self⟩
  have apart : ∀ u ∈ c.threads, u.id ≠ t.id → ∀ job, Engaged u job →
      ∀ path ∈ h.standing setup relpath, ¬Names job path :=
    meets.records t ht answer operation next relpath chosen calls.prog persisted
  have others : ∀ u ∈ c.threads, u.id ≠ t.id → Leaves setup h (h.record setup relpath) c.state
      effect.state u := by
    intro u hu other
    have plain := aside_leaves (h := h) setup c effect aside u
    constructor
    · exact plain.kept
    · intro job engaged m hm owner
      refine List.mem_filter.mpr ⟨hm, ?_⟩
      rw [decide_eq_true_eq]
      intro item
      -- a quarantine of the same item would have the same plain name
      apply apart u hu other job engaged (plainPath mine) stands
      have job_formed := ((truth.own u hu).ready job engaged).2
      rw [(plain_of_formed setup mine formed).2, same, ← item, owner,
        ← (plain_of_formed setup job job_formed).2]
      exact Or.inr (Or.inl rfl)
    · intro job engaged path hp
      rcases List.mem_append.mp hp with standing | kept
      · exact Or.inr (apart u hu other job engaged path standing)
      · exact Or.inl kept
    · intro r hr
      exact List.mem_cons_of_mem _ hr
    · exact aside.2.2
    · intro handle ended
      rw [aside.2.1] at ended
      exact Or.inl ended
  have idle : (learn setup t.notes (.store operation) (.ok ret)).stage = .idle := by
    cases operation with
    | setState r state now =>
        cases state with
        | quarantined => rfl
        | _ => cases persisted
    | rollUpItem r state attempts gate error now =>
        obtain ⟨_, _, _, rfl | rfl⟩ := may
        · cases persisted
        · cases persisted
    | recordCleanupAttempt r error state gate now =>
        obtain ⟨rfl, _⟩ := may
        cases persisted
    | _ => cases persisted
  have unpooled : ∀ handle job, t.spec ≠ .quarantine handle job := by
    intro handle job spec
    have role : t.notes.role = .quarantine job := by
      rw [base.roles t ht, spec]
      rfl
    exact (idle_of_rowless setup c base t ht (by rw [role]; rfl) mine).2 joined stage
  apply truth_settle_of setup c t _ _ _ next truth pool ht did may
  · intro u spec notes
    rw [← notes] at idle
    constructor
    · intro handle job running
      exact absurd (spec ▸ running) (unpooled handle job)
    · rintro job (⟨handle, moving, _⟩ | ⟨joined, moved⟩)
      · rw [idle] at moving
        cases moving
      · rw [idle] at moved
        cases moved
    · intro handle job moving
      rw [idle] at moving
      cases moving
    · rintro job (⟨handle, running⟩ | ⟨handle, moving⟩ | ⟨joined, moved⟩)
      · exact absurd (spec ▸ running) (unpooled handle job)
      · rw [idle] at moving
        cases moving
      · rw [idle] at moved
        cases moved
    · intro r told
      rw [notes, learn_recorded setup t.notes (.store operation) (.ok ret) may, records,
        persisted] at told
      cases told
      exact List.mem_cons_self
  · exact others
  · intro handle job spawned
    cases (spawned_quarantine setup t _ _ effect _ _ did handle job spawned).2
  · exact aside_fresh setup c truth effect aside
  · exact truth.spared

end Steps

theorem did_aside (t : Running) (live : List Spec) (world : World) (operation : Op)
    (ret : Ret operation) (effect : Effect World Spec) (nofs : ∀ operation', operation ≠ .fs operation')
    (noend : operation ≠ .endQuarantine)
    (did : Did setup t live world operation ret effect) : Aside world effect := by
  cases did with
  | disk operation answer => exact absurd rfl (nofs operation)
  | endedQuarantine handle job spec => exact absurd rfl noend
  | undelivered item label resume left error after stored =>
      rcases stored with rfl | ⟨bytes, _, rfl⟩
      · exact ⟨rfl, rfl, Nat.le_refl _⟩
      · exact ⟨rfl, rfl, Nat.le_refl _⟩
  | startedAction ctx => exact ⟨rfl, rfl, Nat.le_succ _⟩
  | startedQuarantine job => exact ⟨rfl, rfl, Nat.le_succ _⟩
  | _ => exact ⟨rfl, rfl, Nat.le_refl _⟩

theorem truth_settle (c : State) (base : Base setup c) (pool : Pool c) (truth : Truth setup h c)
    (t : Running) (operation : Op) (ret : Ret operation) (effect : Effect World Spec)
    (next : Ret operation → Program Unit) (choice : Step)
    (calls : Calls (engine setup) c t operation ret effect next choice)
    (meets : Meets setup h c choice) :
    Truth setup (remembered setup c choice
        ((engine setup).settle c ((engine setup).resumed t operation ret next) effect) h)
      ((engine setup).settle c ((engine setup).resumed t operation ret next) effect) := by
  have did := calls_did setup c t operation ret effect next choice calls
  obtain ⟨answer, rfl, performed⟩ := calls.choice
  rw [remembered_call setup c _ base t operation next answer h calls.member calls.prog]
  by_cases disk : ∃ operation', operation = .fs operation'
  · obtain ⟨operation', rfl⟩ := disk
    cases answer with
    | disk answer =>
        cases performed
        cases spec : t.spec with
        | quarantine handle job =>
            exact truth_quarantine setup c base pool truth t operation' answer next _ handle job spec
              calls rfl meets
        | _ =>
            exact truth_other_disk setup c base pool truth t operation' answer next _
              (fun handle job same => by rw [spec] at same; cases same) calls rfl meets
    | _ => cases performed
  have nofs : ∀ operation', operation ≠ .fs operation' := fun operation' same =>
    disk ⟨operation', same⟩
  rw [heed_cases setup t _ operation answer ret effect h t.spec _ _ nofs performed]
  by_cases finished : operation = .endQuarantine
  · subst finished
    cases did with
    | endedQuarantine handle job spec =>
        exact truth_ended setup c base pool truth t handle job spec next _ calls
  have aside := did_aside setup t _ _ operation ret effect nofs finished did
  cases operation with
  | startQuarantine job =>
      cases did with
      | startedQuarantine => exact truth_started setup c base pool truth t job next _ calls meets
  | awaitQuarantine handle =>
      cases did with
      | awaitedQuarantine _ ended =>
          exact truth_awaited setup c base pool truth t handle ended next _ calls
      | quarantinePanicked _ text present =>
          -- the task does not panic
          cases answer with
          | refused told => exact absurd calls.prog (meets.joins t calls.member told handle next rfl)
          | asIs =>
              simp only [engine, machine, perform, awaitQuarantined] at performed
              split at performed <;> cases performed
          | _ => cases performed
  | store operation =>
      cases ret with
      | error e =>
          exact truth_aside setup c base pool truth t _ _ effect next _ calls aside rfl nofs
            (fun _ same => by cases same) (fun _ same => by cases same)
      | ok ret =>
          cases persisted : persists .quarantined operation with
          | none =>
              simp only [records, persisted]
              exact truth_aside setup c base pool truth t _ _ effect next _ calls aside persisted nofs
                (fun _ same => by cases same) (fun _ same => by cases same)
          | some relpath =>
              simp only [records, persisted]
              exact truth_recorded setup c base pool truth t operation relpath effect persisted ret
                next _ calls aside meets
  | _ =>
      exact truth_aside setup c base pool truth t _ _ effect next _ calls aside rfl nofs
        (fun _ same => by cases same) (fun _ same => by cases same)

theorem truth_without (c : State) (truth : Truth setup h c) (id : Nat) :
    Truth setup h ((engine setup).without c id) := by
  have member := fun u hu => mem_without (engine setup) c id u hu
  constructor
  · intro u hu
    obtain ⟨before, hbefore, _, same⟩ := member u hu
    exact own_same before u (truth.own before hbefore) same.spec same.notes
  · intro u hu handle job stage v hv other spec
    obtain ⟨b, hb, _, same⟩ := member u hu
    obtain ⟨d, hd, _, too⟩ := member v hv
    exact truth.paired b hb handle job (same.notes ▸ stage) d hd other (too.spec ▸ spec)
  · exact truth.fresh
  · exact truth.spared

theorem react_ended (live : List Spec) (world : World) (event : Event)
    (reaction : Reaction World Spec) (reacted : react world live event = some reaction)
    (handle : Nat) (ended : reaction.state.quarantined handle = true) :
    world.quarantined handle = true := by
  cases event with
  | crash =>
      cases reacted
      cases ended
  | boot now =>
      simp only [react] at reacted
      split at reacted
      · cases reacted
      · cases reacted
        exact ended
  | periodic now fuel =>
      simp only [react] at reacted
      split at reacted
      · cases reacted
        exact ended
      · cases reacted
  | trigger now ignoreWindow fuel =>
      simp only [react] at reacted
      split at reacted
      · cases reacted
        exact ended
      · cases reacted
  | _ =>
      cases reacted
      exact ended

theorem truth_absorb (c : State) (truth : Truth setup h c) (event : Event)
    (reaction : Reaction World Spec)
    (reacted : react c.state (Machine.live c) event = some reaction)
    (meets : Meets setup h c (.env event)) :
    Truth setup (h.foreign c.state.tree reaction.state.tree)
      ((engine setup).absorb c reaction) := by
  obtain ⟨handles, _, unpooled⟩ := react_pool _ _ event reaction reacted
  have tree := react_tree _ _ event reaction reacted
  have ended := react_ended _ _ event reaction reacted
  have fresh : ∀ u new : Running, new ∈ (engine setup).spawnFrom c.next reaction.spawned →
      SameThread new u → u.notes = start u.spec ∧ pooled u.spec = none := by
    intro u new hnew same
    obtain ⟨hspec, _, _, _, notes, _⟩ := mem_spawn_from (engine setup) _ _ new hnew
    rw [same.notes, notes, same.spec]
    exact ⟨rfl, unpooled new.spec hspec⟩
  have leaves : ∀ u ∈ c.threads, Leaves setup h (h.foreign c.state.tree reaction.state.tree) c.state
      reaction.state u := by
    intro u hu
    apply leaves_of_fades u (fades_foreign h _ _)
    · intro path guarded node there
      rcases tree with ⟨p, found, rfl, after⟩ | same
      · rw [after, put_other]
        · exact there
        · rintro rfl
          exact meets.touches path found rfl u hu guarded
      · rw [same]
        exact there
    · exact Nat.le_of_eq handles.symm
    · intro handle told
      exact Or.inl (ended handle told)
  constructor
  · intro u hu
    rcases mem_absorb (engine setup) c reaction u hu with ⟨_, before, hbefore, same⟩ |
      ⟨new, hnew, same⟩
    · apply own_same before u _ same.spec same.notes
      exact own_leaves before (truth.own before hbefore) (leaves before hbefore)
    · apply own_start u (fresh u new hnew same).1
      intro handle job spec
      have none := (fresh u new hnew same).2
      rw [spec] at none
      cases none
  · intro u hu handle job stage v hv other spec
    rcases mem_absorb (engine setup) c reaction v hv with ⟨_, d, hd, too⟩ | ⟨new, hnew, same⟩
    · rcases mem_absorb (engine setup) c reaction u hu with ⟨_, b, hb, same⟩ | ⟨new, hnew, same⟩
      · exact truth.paired b hb handle job (same.notes ▸ stage) d hd other (too.spec ▸ spec)
      · rw [(fresh u new hnew same).1] at stage
        cases hspec : u.spec <;> rw [hspec] at stage <;> cases stage
    · have none := (fresh v new hnew same).2
      rw [spec] at none
      cases none
  · intro handle told
    show handle < reaction.state.handles
    rw [handles]
    exact truth.fresh handle (ended handle told)
  · exact truth.spared

structure Whole (h : History) (c : State) : Prop where
  base : Base setup c
  pool : Pool c
  truth : Truth setup h c

theorem whole_begins (c : State) (begins : Begins c) : Whole setup (quarantines setup).blank c := by
  have nobody : ∀ t, t ∉ c.threads := by
    intro t
    rw [begins.threads]
    exact List.not_mem_nil
  refine ⟨base_begins setup c begins, pool_begins c begins, ?_⟩
  constructor
  · intro t ht
    exact absurd ht (nobody t)
  · intro t ht
    exact absurd ht (nobody t)
  · intro handle ended
    rw [begins.quarantined handle] at ended
    cases ended
  · rfl

theorem whole_step (h : History) (c after : State) (choice : Step) (whole : Whole setup h c)
    (meets : Meets setup h c choice) (stepped : (engine setup).step c choice = some after) :
    Whole setup ((quarantines setup).follow c choice after h) after := by
  refine ⟨base_step setup c after choice whole.base stepped,
    pool_step setup c after choice whole.pool stepped, ?_⟩
  rcases step_cases (engine setup) c after choice stepped with
    ⟨t, operation, ret, effect, next, calls, rfl⟩ | ⟨id, rfl, _, rfl⟩ |
    ⟨event, reaction, rfl, reacted, rfl⟩
  · exact truth_settle setup c whole.base whole.pool whole.truth t operation ret effect next choice
      calls meets
  · exact truth_without setup c whole.truth id
  · exact truth_absorb setup c whole.truth event reaction reacted meets

theorem whole_tracked (h : History) (c : State)
    (tracked : Tracked (engine setup) (quarantines setup) Begins (Meets setup) h c) :
    Whole setup h c :=
  invariant_of_tracked (engine setup) (quarantines setup) Begins (Meets setup) (Whole setup)
    (whole_begins setup) (whole_step setup) h c tracked

/-- What is so of an item that is about to be recorded: its file was moved and stands under the
failed directory, and its sidecar beside it. -/
def Quarantined (h : History) (tree : Tree) (relpath : String) : Prop :=
  ∃ dir path bytes, setup.completion.failedDir = some dir ∧
    (path = joinRel dir relpath ∨ ∃ i ∈ suffixes, path = suffixed (joinRel dir relpath) i) ∧
    (relpath, path, bytes) ∈ h.moved ∧ (∃ mtimeMs, tree path = some (.file bytes mtimeMs)) ∧
    ∃ ctx mtimeMs, ctx.relpath = relpath ∧
      tree (sidecarPath path) = some (.file (setup.render ctx) mtimeMs)

/-- An item is persisted as quarantined only when its file was moved and has its sidecar, it is
reported only when it was persisted, and no quarantine has changed what an earlier one left. -/
theorem quarantined_is_moved (h : History) (c : State)
    (tracked : Tracked (engine setup) (quarantines setup) Begins (Meets setup) h c) :
    (∀ t ∈ c.threads, ∀ operation next relpath, t.prog = .call (.store operation) next →
      persists .quarantined operation = some relpath → Quarantined setup h c.state.tree relpath) ∧
    (∀ t ∈ c.threads, ∀ relpath next, t.prog = .call (.reportQuarantined relpath) next →
      relpath ∈ h.recorded) ∧
    h.overwritten = false := by
  have whole := whole_tracked setup h c tracked
  refine ⟨?_, ?_, whole.truth.spared⟩
  · intro t ht operation next relpath prog persisted
    have keeps := whole.base.orderly t ht
    rw [prog] at keeps
    obtain ⟨job, joined, stage, rfl⟩ := moved_of_quarantined setup t.notes operation relpath persisted
      keeps.1
    have own := whole.truth.own t ht
    obtain ⟨⟨configured, _, _⟩, formed⟩ := own.ready job (Or.inr (Or.inr ⟨joined, stage⟩))
    obtain ⟨⟨bytes, mtimeMs, member, file⟩, sidecar⟩ := own.ended job (Or.inr ⟨joined, stage⟩)
    obtain ⟨same, plain⟩ := plain_of_formed setup job formed
    rw [same] at configured
    obtain ⟨dir, hdir⟩ := Option.ne_none_iff_exists'.mp configured
    obtain ⟨written, hwritten⟩ := sidecar
    refine ⟨dir, plainPath job, bytes, hdir, Or.inl ?_, member, ⟨mtimeMs, file⟩, job.ctx, written,
      rfl, hwritten⟩
    rw [plain, hdir]
    rfl
  · intro t ht relpath next prog
    have keeps := whole.base.orderly t ht
    rw [prog] at keeps
    exact (whole.truth.own t ht).told relpath keeps.1

/-! ## One file -/

def unheld (world : World) (u : Running) : Bool :=
  (match u.spec with
    | .quarantine _ _ => false
    | _ => true) &&
  match u.notes.stage with
  | .moving handle _ => !world.quarantined handle
  | .moved _ _ => false
  | _ => true

/-- A call that meets the condition where nothing was recorded, nobody else relies on a file, and
the source is there. -/
def callAt (h : History) (c : State) (t : Running) (answer : Answer) : Program Unit → Bool
  | .call (.startQuarantine job) _ =>
      job.failedDir.isSome && job.src.dropLast ≠ (plainPath job).dropLast && h.kept.isEmpty
  | .call (.fs operation) _ =>
      (c.threads.all fun u => u.id = t.id || unheld c.state u) &&
      match t.spec, answer with
      | .quarantine _ job, .disk told =>
          let place := advance job t.notes.place operation (callFs c.state.tree operation told).1
          place ≠ .off && (t.notes.place ≠ .looking || place ≠ .moved)
      | _, _ => true
  | .call (.awaitQuarantine _) _ => answer = .asIs
  | .call (.store operation) _ => (persists .quarantined operation).isNone
  | _ => true

def meetsAt (h : History) (c : State) : Step → Bool
  | .run id answer => c.threads.all fun t => t.id ≠ id || callAt h c t answer t.prog
  | .env (.touch _ _) => false
  | _ => true

theorem no_guard (world : World) (u : Running) (free : unheld world u = true) (path : Path) :
    ¬Guards world u path := by
  rw [unheld, Bool.and_eq_true] at free
  rintro (⟨handle, job, spec, _⟩ | ⟨job, ⟨handle, stage, ended⟩ | ⟨joined, stage⟩, _⟩)
  · rw [spec] at free
    exact absurd free.1 Bool.false_ne_true
  · rw [stage] at free
    simp [ended] at free
  · rw [stage] at free
    exact absurd free.2 Bool.false_ne_true

theorem apart_of_parents (job : QuarantineJob)
    (parents : job.src.dropLast ≠ (plainPath job).dropLast) : Apart job := by
  constructor
  · intro same
    exact parents (congrArg List.dropLast same)
  · intro tag same
    apply parents
    rw [← same, moveTempPath, List.dropLast_concat]

theorem meets_of_check (h : History) (c : State) (choice : Step)
    (checked : meetsAt h c choice = true) : Meets setup h c choice := by
  have here : ∀ t ∈ c.threads, ∀ answer, choice = .run t.id answer →
      callAt h c t answer t.prog = true := by
    rintro t ht answer rfl
    simpa using List.all_eq_true.mp checked t ht
  constructor
  · intro t ht answer job next chosen prog
    have now := here t ht answer chosen
    simp only [callAt, prog, Bool.and_eq_true, decide_eq_true_eq, List.isEmpty_iff] at now
    refine ⟨Option.isSome_iff_ne_none.mp now.1.1, apart_of_parents job now.1.2, fun path hp => ?_⟩
    rw [now.2] at hp
    cases hp
  · intro t ht answer operation next handle job chosen prog spec
    have now := here t ht _ chosen
    simp only [callAt, prog, spec, Bool.and_eq_true, Bool.or_eq_true, decide_eq_true_eq] at now
    refine ⟨now.2.1, fun looking moved => ?_⟩
    rcases now.2.2 with other | other
    · exact absurd looking other
    · exact absurd moved other
  · intro t ht text handle next chosen prog
    have now := here t ht _ chosen
    simp only [callAt, prog, decide_eq_true_eq] at now
    cases now
  · intro t ht answer operation next chosen prog path _ u hu other
    have now := here t ht answer chosen
    simp only [callAt, prog, Bool.and_eq_true] at now
    have free := List.all_eq_true.mp now.1 u hu
    rw [Bool.or_eq_true] at free
    rcases free with same | free
    · exact absurd (of_decide_eq_true same) other
    · exact no_guard c.state u free path
  · rintro path node rfl
    cases checked
  · intro t ht answer operation next relpath chosen prog persisted
    have now := here t ht answer chosen
    simp only [callAt, prog, persisted] at now
    cases now

def quarantining : Completion where
  onSuccess := .delete
  archiveDir := none
  onExhausted := .quarantine
  failedDir := some ["bad"]
  onCollision := .suffix
  verify := .checksum

/-- Two files, and a third one in the failed directory. -/
def failedBefore : List (Path × Node) :=
  [(["in"], .dir), (["in", "a"], .file [1, 2, 3] 5), (["in", "b"], .file [4] 6), (["bad"], .dir),
    (["bad", "c"], .file [9] 0)]

/-- The only destination refuses the first file for good; its item starts a quarantine, which moves
the file and writes its sidecar. -/
def untilMoved : List Step :=
  [.env (.boot 0), .env (.trigger 0 true 1)] ++
    go 1 [.asIs, .asIs, .found [⟨"a", 3, 5⟩, ⟨"b", 1, 6⟩], .asIs, .asIs, .asIs, .asIs, .asIs, .asIs,
      .asIs] ++
    go 2 [.asIs, .asIs] ++
    go 3 [.asIs, .failed (.permanent "no such bucket") false none, .number 0, .asIs, .asIs, .asIs,
      .asIs] ++
    go 2 [.number 0, .asIs, .asIs, .asIs] ++ go 4 (List.replicate 6 (.disk (.asIs 0))) ++
    go 4 [.asIs] ++ go 2 [.asIs]

def quarantinesNext (relpath : String) : Program Unit → Bool
  | .call (.store operation) _ => persists .quarantined operation = some relpath
  | _ => false

theorem quarantined_is_moved_filled :
    ∃ h c, Tracked (engine (smallSetup quarantining)) (quarantines (smallSetup quarantining)) Begins
        (Meets (smallSetup quarantining)) h c ∧
      (∃ t ∈ c.threads, quarantinesNext "a" t.prog = true ∧
        Quarantined (smallSetup quarantining) h c.state.tree "a") ∧
      isFile c.state.tree ["in", "a"] = false ∧ isFile c.state.tree ["in", "b"] = true ∧
      h.overwritten = false := by
  obtain ⟨h, c, tracked, found⟩ := exists_of_tracked_run (engine (smallSetup quarantining))
    (quarantines (smallSetup quarantining)) Begins (Meets (smallSetup quarantining)) meetsAt
    (meets_of_check (smallSetup quarantining))
    (fun _ c => (c.threads.any fun t => quarantinesNext "a" t.prog) &&
      !isFile c.state.tree ["in", "a"] && isFile c.state.tree ["in", "b"])
    untilMoved (smallStart failedBefore) (small_begins failedBefore) (by decide +kernel)
  simp only [Bool.and_eq_true, Bool.not_eq_true'] at found
  obtain ⟨⟨named, gone⟩, there⟩ := found
  obtain ⟨t, ht, recording⟩ := List.any_eq_true.mp named
  obtain ⟨recorded, _, spared⟩ := quarantined_is_moved (smallSetup quarantining) h c tracked
  refine ⟨h, c, tracked, ⟨t, ht, recording, ?_⟩, gone, there, spared⟩
  unfold quarantinesNext at recording
  split at recording
  · rename_i operation next prog
    exact recorded t ht operation next "a" prog (of_decide_eq_true recording)
  · cases recording

/-- The directory cannot be made, and the file stays where it is; the item is recorded. -/
def untilUnmoved : List Step :=
  [.env (.boot 0), .env (.trigger 0 true 1)] ++
    go 1 [.asIs, .asIs, .found [⟨"a", 0, 0⟩], .asIs, .asIs, .asIs, .asIs, .asIs, .asIs] ++
    go 2 [.asIs, .asIs] ++
    go 3 [.asIs, .failed (.permanent "no such bucket") false none, .number 0, .asIs, .asIs, .asIs,
      .asIs] ++
    go 2 [.number 0, .asIs, .asIs, .asIs] ++
    go 4 [.disk (.asIs 0), .disk (.fails ⟨.permissionDenied, "Permission denied (os error 13)"⟩),
      .disk (.asIs 0), .disk (.asIs 0), .asIs] ++ go 2 [.asIs]

theorem quarantined_unmoved :
    ∃ h c, Tracked (engine (smallSetup quarantining)) (quarantines (smallSetup quarantining)) Begins
        (fun _ _ _ => True) h c ∧
      ∃ t ∈ c.threads, quarantinesNext "a" t.prog = true ∧
        c.state.tree ["in", "a"] = some (.file [] 0) ∧
        ¬Quarantined (smallSetup quarantining) h c.state.tree "a" := by
  obtain ⟨h, c, tracked, found⟩ := exists_of_tracked_run (engine (smallSetup quarantining))
    (quarantines (smallSetup quarantining)) Begins (fun _ _ _ => True) (fun _ _ _ => true)
    (fun _ _ _ _ => trivial)
    (fun h c => (c.threads.any fun t => quarantinesNext "a" t.prog) && h.moved.isEmpty &&
      c.state.tree ["in", "a"] = some (.file [] 0))
    untilUnmoved (smallStart oneFile) (small_begins oneFile) (by decide +kernel)
  simp only [Bool.and_eq_true, decide_eq_true_eq, List.isEmpty_iff] at found
  obtain ⟨⟨recording, unmoved⟩, there⟩ := found
  obtain ⟨t, ht, recording⟩ := List.any_eq_true.mp recording
  refine ⟨h, c, tracked, t, ht, recording, there, ?_⟩
  rintro ⟨dir, path, bytes, _, _, moved, _⟩
  rw [unmoved] at moved
  cases moved

end FileReplicator.QuarantineTruth
