import FileReplicator.Rounds

/-!
# The runs of one round

An item that was claimed, the attempts it starts and the actions that follow,
while nobody else is at it and no statement is refused: where the attempt of
every destination is, and what that has made of the rows.
-/

namespace FileReplicator.RoundRuns

open Domain DurableStore Effects FileTree SourceActions Operations Worker Interleaving Instance
open Steps Runs Rounds

variable (setup : Setup)

abbrev Member := Thread Op Ret Spec Notes

abbrev Round := Config Op Ret World Spec Notes

def rounds : Machine Op Ret World Spec Notes Answer Event :=
  machine setup (Rounds.discipline setup) Finished Rounds.start

def waiting : Program Unit := .call (.nextOfBatch false) fun _ => .done ()

def roundStart (world : World) (item : WorkItem) (now : Int) : Round :=
  ⟨world, [⟨0, .tick now true true 0, false, .aside, waiting⟩,
    ⟨1, .item 0 item now, false, .item item now .fresh, main setup (.item 0 item now)⟩], 2⟩

/-! ## The log -/

/-- How far the attempt of each destination is, the destinations that something was delivered to, in
order, and how far the item is. -/
structure Log where
  status : String → Status
  attempted : List String
  stage : Stage

def blankLog : Log := ⟨fun _ => .unspawned, [], .fresh⟩

def delivers : Op → Bool
  | .deliver _ _ _ => true
  | _ => false

def noteItem (h : Log) : (operation : Op) → Ret operation → Log
  | .spawnAttempts contexts, _ =>
      { h with status := fun label =>
          if label ∈ contexts.map AttemptCtx.label then .fresh else h.status label }
  | .joinAttempt, some (.ok (.ok p)) =>
      { h with status := fun label =>
          if label = p.1 then (h.status label).join else h.status label }
  | _, _ => h

def note (h : Log) (n : Notes) (operation : Op) (ret : Ret operation) : Log :=
  match n with
  | .item _ _ stage => { noteItem h operation ret with stage := learnItem stage operation ret }
  | .attempt ctx status =>
      { h with
        status := fun label =>
          if label = ctx.label then learnAttempt status operation ret else h.status label
        attempted := if delivers operation then h.attempted ++ [ctx.label] else h.attempted }
  | _ => h

def heed (t : Member) (operation : Op) (answer : Answer) (c : Round) (h : Log) : Log :=
  match perform setup c.state t (Machine.live c) operation answer with
  | some out => note h t.notes operation out.1
  | none => h

def rounded : Chronicle Op Ret World Spec Notes Answer Event Log :=
  chronicle blankLog (fun t operation answer c _ h => heed setup t operation answer c h)
    fun _ _ _ h => h

/-- No statement is refused and no attempt panics; only the rest of the world changes. -/
structure Calm (c : Round) (choice : Choice Answer Event) : Prop where
  granted : ∀ t ∈ c.threads, ∀ text, choice = .run t.id (.refused text) →
    ∀ operation next, t.prog ≠ .call (.store operation) next
  unbroken : ∀ t ∈ c.threads, ∀ text, choice = .run t.id (.refused text) →
    ∀ next, t.prog ≠ .call .joinAttempt next
  outside : ∀ event, choice = .env event →
    (∃ path node, event = .touch path node) ∨
      (∃ relpath label object, event = .alter relpath label object) ∨
      ∃ active, event = .setActive active
  spared : ∀ id, choice ≠ .kill id

/-! ## Where everything is -/

section Invariant

variable (before : String → Option DestState) (item : WorkItem) (now : Int)

abbrev ctxOf (label : String) : AttemptCtx := attemptCtx item before now label

def resultOf (label : String) (v : Settled) : AttemptResult :=
  .ok (label, outcomeOf setup (ctxOf before item now label) v)

inductive Kind (h : Log) (t : Member) : Prop where
  | owner (id : t.id = 0) (notes : t.notes = .aside) (prog : t.prog = waiting)
  | item (id : t.id = 1) (spec : t.spec = .item 0 item now) (notes : t.notes = .item item now h.stage)
  | attempt (label : String) (spec : t.spec = .attempt 1 (ctxOf before item now label))
      (notes : t.notes = .attempt (ctxOf before item now label) (h.status label))
      (running : (h.status label).running = true)
  | pool (notes : t.notes = .pool)

/-- The attempts of a round: their threads, their results, and what the item has joined of them. -/
structure Attempts (h : Log) (threads : List Member) (results : List AttemptResult) : Prop where
  kinds : ∀ t ∈ threads, Kind before item now h t
  apart : ∀ t ∈ threads, ∀ u ∈ threads, ∀ label s s',
    t.notes = .attempt (ctxOf before item now label) s →
    u.notes = .attempt (ctxOf before item now label) s' → t.id = u.id
  live : ∀ label, (h.status label).running = true →
    ∃ t ∈ threads, t.notes = .attempt (ctxOf before item now label) (h.status label)
  pending : ∀ result ∈ results, ∃ label v, result = resultOf setup before item now label v ∧
    h.status label = .ended v
  once : results.Nodup
  ended : ∀ label v, h.status label = .ended v → resultOf setup before item now label v ∈ results
  joined : ∀ p ∈ h.stage.joined, ∃ v, h.status p.1 = .joined v ∧
    p.2 = outcomeOf setup (ctxOf before item now p.1) v
  distinct : (h.stage.joined.map Prod.fst).Nodup
  whole : ∀ label v, h.status label = .joined v →
    (label, outcomeOf setup (ctxOf before item now label) v) ∈ h.stage.joined
  unspawned : h.stage.spawned = false → ∀ label, h.status label = .unspawned
  spawned : h.stage.spawned = true → ∀ label, h.status label ≠ .unspawned ↔
    label ∈ dueLabels setup before now
  read : ∀ existing, h.stage.existing = some existing → existing = before
  dry : h.stage.dry = true → ∀ label, h.status label = .unspawned ∨ ∃ v, h.status label = .joined v
  attempted : ∀ label, label ∈ h.attempted ↔ (h.status label).tried = true
  attemptedOnce : h.attempted.Nodup
  there : h.stage.concluded = true ∨ ∃ t ∈ threads, t.notes = .item item now h.stage

/-- The row of a destination, from its row before and its attempt. -/
def expected (label : String) : Status → Option DestState
  | .recorded v | .ended v | .joined v =>
      some (settledState setup (ctxOf before item now label) (before label) v)
  | _ => before label

structure RowsAre (world : World) (h : Log) (store : Store) : Prop where
  dests : h.stage.isCompleted = false → ∀ label,
    store.dests item.relpath label = expected setup before item now label (h.status label)
  foreign : ∀ r, r ≠ item.relpath → store.dests r = world.store.dests r
  row : ∃ row, store.items item.relpath = some row ∧
    (∀ existing joined gate, h.stage = .rolled existing joined gate →
      row.state = .failed ∧ row.nextAttemptAt = gate) ∧
    (h.stage.isCompleted = true → row.state = .completed)

/-- What an item that has come to a conclusion has concluded from. -/
def Grounds : Stage → Prop
  | .rolled existing joined gate =>
      (tallyOf setup existing joined).giveups = [] ∧
        (tallyOf setup existing joined).verified.length ≠ setup.labels.length ∧
        gate = rolledGate setup existing now joined
  | .exhausting existing joined => (tallyOf setup existing joined).giveups ≠ []
  | .completing existing joined | .completed existing joined =>
      (tallyOf setup existing joined).giveups = [] ∧
        (tallyOf setup existing joined).verified.length = setup.labels.length
  | .broken => False
  | _ => True

end Invariant

/-- Everything holds of a round in which no attempt has panicked. -/
structure Going (world : World) (item : WorkItem) (now : Int) (h : Log) (c : Round) : Prop where
  attempts : Attempts setup (world.store.dests item.relpath) item now h c.threads
    (c.state.attempts 1)
  rows : RowsAre setup (world.store.dests item.relpath) item now world h c.state.store
  grounds : Grounds setup now h.stage

/-! ## The threads after a call -/

structure Alike (before after : Member) : Prop where
  id : after.id = before.id
  spec : after.spec = before.spec
  notes : after.notes = before.notes
  prog : after.prog = before.prog

theorem alike_of_same {before after : Member} (same : SameThread before after) :
    Alike before after :=
  ⟨same.id, same.spec, same.notes, same.prog⟩

section After

variable (c : Round) (t : Member) (operation : Op) (ret : Ret operation) (effect : Effect World Spec)
variable (next : Ret operation → Program Unit)

abbrev after : List Member :=
  ((rounds setup).settle c ((rounds setup).resumed t operation ret next) effect).threads

theorem after_cases (u : Member) (member : u ∈ after setup c t operation ret effect next) :
    (u.id = t.id ∧ u.spec = t.spec ∧ u.notes = learn t.notes operation ret ∧ u.prog = next ret ∧
      (next ret).isDone = false) ∨
    (∃ b ∈ c.threads, b.id ≠ t.id ∧ Alike b u) ∨
    (u.spec ∈ effect.spawned ∧ u.notes = Rounds.start u.spec ∧ c.next ≤ u.id) := by
  rcases mem_settle (rounds setup) c _ u effect member with ⟨same, going⟩ |
    ⟨b, hb, other, same, _⟩ | ⟨new, hnew, same⟩
  · exact Or.inl ⟨same.id, same.spec, same.notes, same.prog, going⟩
  · exact Or.inr (Or.inl ⟨b, hb, other, alike_of_same same⟩)
  · obtain ⟨spec, first, _, _, notes, _⟩ := mem_spawn_from (rounds setup) _ _ new hnew
    refine Or.inr (Or.inr ⟨same.spec ▸ spec, ?_, same.id ▸ first⟩)
    rw [same.notes, notes, same.spec]
    rfl

theorem caller_after (member : t ∈ c.threads) (going : (next ret).isDone = false) :
    ∃ u ∈ after setup c t operation ret effect next, u.id = t.id ∧
      u.notes = learn t.notes operation ret := by
  obtain ⟨u, hu, same⟩ := caller_stays (rounds setup) c t member operation ret next effect going
  exact ⟨u, hu, same.id, same.notes⟩

theorem other_after (b : Member) (member : b ∈ c.threads) (other : b.id ≠ t.id)
    (stays : effect.fate b.id b.spec ≠ .gone) :
    ∃ u ∈ after setup c t operation ret effect next, Alike b u := by
  obtain ⟨u, hu, same⟩ := other_stays (rounds setup) c
    ((rounds setup).resumed t operation ret next) b member other effect stays
  exact ⟨u, hu, alike_of_same same⟩

theorem new_after (spec : Spec) (member : spec ∈ effect.spawned) :
    ∃ u ∈ after setup c t operation ret effect next, u.spec = spec ∧ u.notes = Rounds.start spec := by
  obtain ⟨new, hnew, same⟩ := spawned_of_mem (rounds setup) c.next effect.spawned spec member
  obtain ⟨_, _, _, _, notes, _⟩ := mem_spawn_from (rounds setup) _ _ new hnew
  obtain ⟨u, hu, kept⟩ := spawned_stays (rounds setup) c
    ((rounds setup).resumed t operation ret next) new effect hnew
  refine ⟨u, hu, kept.spec.trans same, ?_⟩
  rw [kept.notes, notes, same]
  rfl

end After

section Steps

variable (before : String → Option DestState) (item : WorkItem) (now : Int)

theorem attempts_aside (h : Log) (threads later : List Member) (results : List AttemptResult)
    (attempts : Attempts setup before item now h threads results)
    (back : ∀ u ∈ later, (∃ b ∈ threads, Alike b u) ∨ u.notes = .pool)
    (forth : ∀ b ∈ threads, b.notes ≠ .pool → b.notes ≠ .aside → ∃ u ∈ later, Alike b u) :
    Attempts setup before item now h later results := by
  constructor
  · intro u hu
    rcases back u hu with ⟨b, hb, same⟩ | pool
    · cases attempts.kinds b hb with
      | owner id notes prog =>
          exact .owner (same.id.trans id) (same.notes.trans notes) (same.prog.trans prog)
      | item id spec notes =>
          exact .item (same.id.trans id) (same.spec.trans spec) (same.notes.trans notes)
      | attempt label spec notes running =>
          exact .attempt label (same.spec.trans spec) (same.notes.trans notes) running
      | pool notes => exact .pool (same.notes.trans notes)
    · exact .pool pool
  · intro u hu v hv label s s' unotes vnotes
    rcases back u hu with ⟨b, hb, same⟩ | pool
    · rcases back v hv with ⟨b', hb', same'⟩ | pool
      · rw [same.id, same'.id]
        exact attempts.apart b hb b' hb' label s s' (same.notes.symm.trans unotes)
          (same'.notes.symm.trans vnotes)
      · rw [pool] at vnotes
        cases vnotes
    · rw [pool] at unotes
      cases unotes
  · intro label running
    obtain ⟨b, hb, notes⟩ := attempts.live label running
    obtain ⟨u, hu, same⟩ := forth b hb (by rw [notes]; exact Notes.noConfusion)
      (by rw [notes]; exact Notes.noConfusion)
    exact ⟨u, hu, same.notes.trans notes⟩
  · exact attempts.pending
  · exact attempts.once
  · exact attempts.ended
  · exact attempts.joined
  · exact attempts.distinct
  · exact attempts.whole
  · exact attempts.unspawned
  · exact attempts.spawned
  · exact attempts.read
  · exact attempts.dry
  · exact attempts.attempted
  · exact attempts.attemptedOnce
  · rcases attempts.there with concluded | ⟨b, hb, notes⟩
    · exact Or.inl concluded
    · obtain ⟨u, hu, same⟩ := forth b hb (by rw [notes]; exact Notes.noConfusion)
        (by rw [notes]; exact Notes.noConfusion)
      exact Or.inr ⟨u, hu, same.notes.trans notes⟩

theorem attempts_item (h : Log) (stage : Stage) (threads later : List Member)
    (results : List AttemptResult) (attempts : Attempts setup before item now h threads results)
    (joined : stage.joined = h.stage.joined) (spawned : stage.spawned = h.stage.spawned)
    (read : ∀ existing, stage.existing = some existing → existing = before)
    (dry : stage.dry = true → ∀ label, h.status label = .unspawned ∨ ∃ v, h.status label = .joined v)
    (back : ∀ u ∈ later, (u.id = 1 ∧ u.spec = .item 0 item now ∧ u.notes = .item item now stage) ∨
      (∃ b ∈ threads, b.id ≠ 1 ∧ Alike b u) ∨ u.notes = .pool)
    (forth : ∀ b ∈ threads, (∃ ctx status, b.notes = .attempt ctx status) → ∃ u ∈ later, Alike b u)
    (there : stage.concluded = true ∨ ∃ u ∈ later, u.notes = .item item now stage) :
    Attempts setup before item now { h with stage := stage } later results := by
  have kind : ∀ u ∈ later, Kind before item now { h with stage := stage } u := by
    intro u hu
    rcases back u hu with ⟨id, spec, notes⟩ | ⟨b, hb, other, same⟩ | pool
    · exact .item id spec notes
    · cases attempts.kinds b hb with
      | owner id notes prog =>
          exact .owner (same.id.trans id) (same.notes.trans notes) (same.prog.trans prog)
      | item id spec notes => exact absurd id other
      | attempt label spec notes running =>
          exact .attempt label (same.spec.trans spec) (same.notes.trans notes) running
      | pool notes => exact .pool (same.notes.trans notes)
    · exact .pool pool
  constructor
  · exact kind
  · intro u hu v hv label s s' unotes vnotes
    rcases back u hu with ⟨_, _, notes⟩ | ⟨b, hb, _, same⟩ | pool
    · rw [notes] at unotes
      cases unotes
    · rcases back v hv with ⟨_, _, notes⟩ | ⟨b', hb', _, same'⟩ | pool
      · rw [notes] at vnotes
        cases vnotes
      · rw [same.id, same'.id]
        exact attempts.apart b hb b' hb' label s s' (same.notes.symm.trans unotes)
          (same'.notes.symm.trans vnotes)
      · rw [pool] at vnotes
        cases vnotes
    · rw [pool] at unotes
      cases unotes
  · intro label running
    obtain ⟨b, hb, notes⟩ := attempts.live label running
    obtain ⟨u, hu, same⟩ := forth b hb ⟨_, _, notes⟩
    exact ⟨u, hu, same.notes.trans notes⟩
  · exact attempts.pending
  · exact attempts.once
  · exact attempts.ended
  · rw [joined]
    exact attempts.joined
  · rw [joined]
    exact attempts.distinct
  · rw [joined]
    exact attempts.whole
  · rw [spawned]
    exact attempts.unspawned
  · rw [spawned]
    exact attempts.spawned
  · exact read
  · exact dry
  · exact attempts.attempted
  · exact attempts.attemptedOnce
  · exact there

theorem mem_due_nodup : (dueLabels setup before now).Nodup :=
  setup.labels_nodup.filter _

theorem due_contexts :
    ((dueLabels setup before now).map (attemptCtx item before now)).map AttemptCtx.label =
      dueLabels setup before now := by
  rw [List.map_map]
  exact List.map_id _

theorem attempts_spawn (h : Log) (threads later : List Member) (results : List AttemptResult)
    (attempts : Attempts setup before item now h threads results)
    (stage : h.stage = .read before)
    (back : ∀ u ∈ later,
      (u.id = 1 ∧ u.spec = .item 0 item now ∧ u.notes = .item item now (.joining before [] false)) ∨
      (∃ b ∈ threads, b.id ≠ 1 ∧ Alike b u) ∨
      ∃ label ∈ dueLabels setup before now, u.spec = .attempt 1 (ctxOf before item now label) ∧
        u.notes = .attempt (ctxOf before item now label) .fresh)
    (new : ∀ label ∈ dueLabels setup before now,
      ∃ u ∈ later, u.notes = .attempt (ctxOf before item now label) .fresh)
    (apart : ∀ u ∈ later, ∀ v ∈ later, ∀ label s s',
      u.notes = .attempt (ctxOf before item now label) s →
      v.notes = .attempt (ctxOf before item now label) s' → u.id = v.id)
    (going : ∃ u ∈ later, u.notes = .item item now (.joining before [] false)) :
    Attempts setup before item now
      ⟨fun label => if label ∈ dueLabels setup before now then .fresh else h.status label,
        h.attempted, .joining before [] false⟩ later results := by
  have blank := attempts.unspawned (by rw [stage]; rfl)
  have status : ∀ label, (if label ∈ dueLabels setup before now then Status.fresh
      else h.status label) = if label ∈ dueLabels setup before now then .fresh else .unspawned := by
    intro label
    rw [blank]
  have started : ∀ label ∈ dueLabels setup before now,
      (if label ∈ dueLabels setup before now then Status.fresh else h.status label) = .fresh :=
    fun label due => if_pos due
  constructor
  · intro u hu
    rcases back u hu with ⟨id, spec, notes⟩ | ⟨b, hb, other, same⟩ | ⟨label, due, spec, notes⟩
    · exact .item id spec notes
    · cases attempts.kinds b hb with
      | owner id notes prog =>
          exact .owner (same.id.trans id) (same.notes.trans notes) (same.prog.trans prog)
      | item id spec notes => exact absurd id other
      | attempt label spec notes running =>
          rw [blank] at running
          cases running
      | pool notes => exact .pool (same.notes.trans notes)
    · refine .attempt label spec ?_ ?_
      · show u.notes = .attempt _ (if label ∈ dueLabels setup before now then .fresh else h.status label)
        rw [started label due]
        exact notes
      · show (if label ∈ dueLabels setup before now then Status.fresh
          else h.status label).running = true
        rw [started label due]
        rfl
  · exact apart
  · intro label running
    simp only [status] at running
    split at running
    · rename_i due
      obtain ⟨u, hu, notes⟩ := new label due
      refine ⟨u, hu, ?_⟩
      simp only [started label due]
      exact notes
    · cases running
  · intro result member
    obtain ⟨label, v, _, ended⟩ := attempts.pending result member
    rw [blank] at ended
    cases ended
  · exact attempts.once
  · intro label v ended
    simp only [status] at ended
    split at ended <;> cases ended
  · intro p member
    cases member
  · exact List.nodup_nil
  · intro label v joined
    simp only [status] at joined
    split at joined <;> cases joined
  · intro none
    cases none
  · intro _ label
    simp only [status]
    split
    · rename_i due
      simp [due]
    · rename_i idle
      simp [idle]
  · intro existing same
    cases same
    rfl
  · intro dry
    cases dry
  · intro label
    simp only [status]
    rw [attempts.attempted, blank]
    split <;> simp [Status.tried]
  · exact attempts.attemptedOnce
  · exact Or.inr going

theorem status_join (h : Log) (label other : String) (v : Settled)
    (ended : h.status label = .ended v) :
    (if other = label then (h.status other).join else h.status other) =
      if other = label then .joined v else h.status other := by
  by_cases own : other = label
  · rw [if_pos own, if_pos own, own, ended]
    rfl
  · rw [if_neg own, if_neg own]

theorem attempts_join (h : Log) (threads later : List Member) (results : List AttemptResult)
    (attempts : Attempts setup before item now h threads results)
    (existing : String → Option DestState) (joined : List (String × DestOutcome)) (dry : Bool)
    (stage : h.stage = .joining existing joined dry) (n : Nat) (label : String) (v : Settled)
    (found : results[n]? = some (resultOf setup before item now label v))
    (ended : h.status label = .ended v)
    (back : ∀ u ∈ later,
      (u.id = 1 ∧ u.spec = .item 0 item now ∧ u.notes = .item item now (.joining existing
        (joined ++ [(label, outcomeOf setup (ctxOf before item now label) v)]) dry)) ∨
      (∃ b ∈ threads, b.id ≠ 1 ∧ Alike b u))
    (forth : ∀ b ∈ threads, (∃ ctx status, b.notes = .attempt ctx status) → ∃ u ∈ later, Alike b u)
    (going : ∃ u ∈ later, u.notes = .item item now (.joining existing
      (joined ++ [(label, outcomeOf setup (ctxOf before item now label) v)]) dry)) :
    Attempts setup before item now
      ⟨fun other => if other = label then (h.status other).join else h.status other,
        h.attempted, .joining existing
          (joined ++ [(label, outcomeOf setup (ctxOf before item now label) v)]) dry⟩
      later (results.eraseIdx n) := by
  have status := fun other => status_join h label other v ended
  have fresh : label ∉ joined.map Prod.fst := by
    intro member
    obtain ⟨p, hp, rfl⟩ := List.mem_map.mp member
    obtain ⟨w, was, _⟩ := attempts.joined p (by rw [stage]; exact hp)
    rw [was] at ended
    cases ended
  have erased : ∀ result, result ∈ results.eraseIdx n →
      result ∈ results ∧ result ≠ resultOf setup before item now label v := by
    intro result member
    refine ⟨List.mem_of_mem_eraseIdx member, ?_⟩
    rintro rfl
    obtain ⟨i, other, same⟩ := List.mem_eraseIdx_iff_getElem?.mp member
    have inside : i < results.length := (List.getElem?_eq_some_iff.mp same).1
    exact other ((List.getElem?_inj inside attempts.once).mp (same.trans found.symm))
  constructor
  · intro u hu
    rcases back u hu with ⟨id, spec, notes⟩ | ⟨b, hb, other, same⟩
    · exact .item id spec notes
    · cases attempts.kinds b hb with
      | owner id notes prog =>
          exact .owner (same.id.trans id) (same.notes.trans notes) (same.prog.trans prog)
      | item id spec notes => exact absurd id other
      | attempt other spec notes running =>
          have apart : other ≠ label := by
            rintro rfl
            rw [ended] at running
            cases running
          refine .attempt other (same.spec.trans spec) ?_ ?_
          · simp only [if_neg apart]
            exact same.notes.trans notes
          · simp only [if_neg apart]
            exact running
      | pool notes => exact .pool (same.notes.trans notes)
  · intro u hu w hw other s s' unotes wnotes
    rcases back u hu with ⟨_, _, notes⟩ | ⟨b, hb, _, same⟩
    · rw [notes] at unotes
      cases unotes
    · rcases back w hw with ⟨_, _, notes⟩ | ⟨b', hb', _, same'⟩
      · rw [notes] at wnotes
        cases wnotes
      · rw [same.id, same'.id]
        exact attempts.apart b hb b' hb' other s s' (same.notes.symm.trans unotes)
          (same'.notes.symm.trans wnotes)
  · intro other running
    simp only [status] at running
    split at running
    · cases running
    · rename_i apart
      obtain ⟨b, hb, notes⟩ := attempts.live other running
      obtain ⟨u, hu, same⟩ := forth b hb ⟨_, _, notes⟩
      refine ⟨u, hu, ?_⟩
      simp only [if_neg apart]
      exact same.notes.trans notes
  · intro result member
    obtain ⟨was, differs⟩ := erased result member
    obtain ⟨other, w, rfl, other_ended⟩ := attempts.pending result was
    refine ⟨other, w, rfl, ?_⟩
    have apart : other ≠ label := by
      rintro rfl
      rw [ended] at other_ended
      cases other_ended
      exact differs rfl
    simp only [if_neg apart]
    exact other_ended
  · exact attempts.once.sublist (List.eraseIdx_sublist _ _)
  · intro other w other_ended
    simp only [status] at other_ended
    split at other_ended
    · cases other_ended
    · rename_i apart
      have member := attempts.ended other w other_ended
      obtain ⟨i, same⟩ := List.mem_iff_getElem?.mp member
      refine List.mem_eraseIdx_iff_getElem?.mpr ⟨i, ?_, same⟩
      rintro rfl
      rw [same] at found
      have labels := Except.ok.inj (Option.some.inj found)
      exact apart (congrArg Prod.fst labels)
  · intro p member
    rcases List.mem_append.mp member with old | new
    · obtain ⟨w, was, outcome⟩ := attempts.joined p (by rw [stage]; exact old)
      refine ⟨w, ?_, outcome⟩
      simp only [status]
      split
      · rename_i own
        rw [own] at was
        rw [ended] at was
        cases was
      · exact was
    · rw [List.mem_singleton.mp new]
      refine ⟨v, ?_, rfl⟩
      exact (status label).trans (if_pos rfl)
  · have distinct := attempts.distinct
    rw [stage] at distinct
    show ((joined ++ [_]).map Prod.fst).Nodup
    rw [List.map_append, List.nodup_append]
    refine ⟨distinct, List.nodup_singleton _, ?_⟩
    intro a ha b hb same
    rw [List.map_singleton, List.mem_singleton] at hb
    rw [same, hb] at ha
    exact fresh ha
  · intro other w was
    simp only [status] at was
    split at was
    · rename_i own
      cases was
      rw [own]
      exact List.mem_append_right _ (List.mem_singleton_self _)
    · have member := attempts.whole other w was
      rw [stage] at member
      exact List.mem_append_left _ member
  · intro none
    cases none
  · intro _ other
    simp only [status]
    have due := attempts.spawned (by rw [stage]; rfl) other
    split
    · rename_i own
      rw [← due, own, ended]
      simp
    · exact due
  · intro found_existing same
    cases same
    exact attempts.read existing (by rw [stage]; rfl)
  · intro was_dry other
    simp only [status]
    split
    · exact Or.inr ⟨v, rfl⟩
    · exact attempts.dry (by rw [stage]; exact was_dry) other
  · intro other
    simp only [status]
    rw [attempts.attempted]
    split
    · rename_i own
      rw [own, ended]
      simp [Status.tried]
    · exact Iff.rfl
  · exact attempts.attemptedOnce
  · exact Or.inr going

theorem ctx_label {label other : String}
    (same : ctxOf before item now label = ctxOf before item now other) : label = other :=
  congrArg AttemptCtx.label same

/-- The next status of an attempt, and what it leaves among the results. -/
inductive Onward (label : String) (results : List AttemptResult) :
    Status → List AttemptResult → Prop where
  | running (status : Status) (runs : status.running = true) : Onward label results status results
  | ended (v : Settled) :
      Onward label results (.ended v) (results ++ [resultOf setup before item now label v])

theorem onward_spawned {label : String} {results later : List AttemptResult} {status : Status}
    (onward : Onward setup before item now label results status later) :
    status ≠ .unspawned ∧ ∀ v, status ≠ .joined v := by
  cases onward with
  | running status runs =>
      constructor
      · rintro rfl
        cases runs
      · rintro v rfl
        cases runs
  | ended v => exact ⟨Status.noConfusion, fun _ => Status.noConfusion⟩

def Log.attempt (h : Log) (label : String) (status : Status) (delivered : Bool) : Log :=
  ⟨fun other => if other = label then status else h.status other,
    if delivered then h.attempted ++ [label] else h.attempted, h.stage⟩

theorem attempts_call (h : Log) (threads later : List Member) (results results' : List AttemptResult)
    (attempts : Attempts setup before item now h threads results) (t : Member) (ht : t ∈ threads)
    (unique : ∀ b ∈ threads, b.id = t.id → b = t) (label : String) (spec : t.spec = .attempt 1 (ctxOf before item now label))
    (notes : t.notes = .attempt (ctxOf before item now label) (h.status label))
    (runs : (h.status label).running = true) (status : Status) (delivered : Bool)
    (onward : Onward setup before item now label results status results')
    (tried : status.tried = ((h.status label).tried || delivered))
    (first : delivered = true → (h.status label).tried = false)
    (back : ∀ u ∈ later,
      (u.id = t.id ∧ u.spec = t.spec ∧ u.notes = .attempt (ctxOf before item now label) status ∧
        status.running = true) ∨
      (∃ b ∈ threads, b.id ≠ t.id ∧ Alike b u))
    (forth : ∀ b ∈ threads, b.id ≠ t.id → ∃ u ∈ later, Alike b u)
    (stays : status.running = true →
      ∃ u ∈ later, u.notes = .attempt (ctxOf before item now label) status) :
    Attempts setup before item now (h.attempt label status delivered) later results' := by
  have others : ∀ other, other ≠ label → (h.attempt label status delivered).status other =
      h.status other := fun other apart => if_neg apart
  have own : (h.attempt label status delivered).status label = status := if_pos rfl
  obtain ⟨spawned, unjoined⟩ := onward_spawned setup before item now onward
  -- whoever has the notes of this destination is the caller
  have mine : ∀ b ∈ threads, ∀ s, b.notes = .attempt (ctxOf before item now label) s → b.id = t.id :=
    fun b hb s same => attempts.apart b hb t ht label s _ same notes
  have unjoined_before : ∀ v, h.status label ≠ .joined v := by
    intro v same
    rw [same] at runs
    cases runs
  have unended_before : ∀ v, h.status label ≠ .ended v := by
    intro v same
    rw [same] at runs
    cases runs
  have spawned_stage : h.stage.spawned = true := by
    cases stage : h.stage.spawned with
    | true => rfl
    | false =>
        rw [attempts.unspawned stage label] at runs
        cases runs
  constructor
  · intro u hu
    rcases back u hu with ⟨_, uspec, unotes, running⟩ | ⟨b, hb, other, same⟩
    · exact .attempt label (uspec.trans spec) (by rw [own]; exact unotes) (by rw [own]; exact running)
    · cases attempts.kinds b hb with
      | owner id bnotes prog =>
          exact .owner (same.id.trans id) (same.notes.trans bnotes) (same.prog.trans prog)
      | item id bspec bnotes =>
          exact .item (same.id.trans id) (same.spec.trans bspec) (same.notes.trans bnotes)
      | attempt other' bspec bnotes running =>
          have apart : other' ≠ label := by
            rintro rfl
            exact other (mine b hb _ bnotes)
          refine .attempt other' (same.spec.trans bspec) ?_ ?_
          · rw [others other' apart]
            exact same.notes.trans bnotes
          · rw [others other' apart]
            exact running
      | pool bnotes => exact .pool (same.notes.trans bnotes)
  · intro u hu w hw other s s' unotes wnotes
    rcases back u hu with ⟨uid, _, here, _⟩ | ⟨b, hb, bother, same⟩
    · rcases back w hw with ⟨wid, _, _, _⟩ | ⟨b', hb', bother', same'⟩
      · exact uid.trans wid.symm
      · rw [here] at unotes
        have names := ctx_label before item now (Notes.attempt.inj unotes).1
        subst names
        exact absurd (mine b' hb' s' (same'.notes.symm.trans wnotes)) bother'
    · rcases back w hw with ⟨_, _, here, _⟩ | ⟨b', hb', _, same'⟩
      · rw [here] at wnotes
        have names := ctx_label before item now (Notes.attempt.inj wnotes).1
        subst names
        exact absurd (mine b hb s (same.notes.symm.trans unotes)) bother
      · rw [same.id, same'.id]
        exact attempts.apart b hb b' hb' other s s' (same.notes.symm.trans unotes)
          (same'.notes.symm.trans wnotes)
  · intro other running
    by_cases apart : other = label
    · subst apart
      rw [own] at running ⊢
      exact stays running
    · rw [others other apart] at running ⊢
      obtain ⟨b, hb, bnotes⟩ := attempts.live other running
      have elsewhere : b.id ≠ t.id := by
        intro same
        rw [unique b hb same, notes] at bnotes
        exact apart (ctx_label before item now (Notes.attempt.inj bnotes).1).symm
      obtain ⟨u, hu, same⟩ := forth b hb elsewhere
      exact ⟨u, hu, same.notes.trans bnotes⟩
  · intro result member
    cases onward with
    | running status runs =>
        obtain ⟨other, v, rfl, ended⟩ := attempts.pending result member
        refine ⟨other, v, rfl, ?_⟩
        rw [others other (by rintro rfl; exact unended_before v ended)]
        exact ended
    | ended w =>
        rcases List.mem_append.mp member with old | new
        · obtain ⟨other, v, rfl, ended⟩ := attempts.pending result old
          refine ⟨other, v, rfl, ?_⟩
          rw [others other (by rintro rfl; exact unended_before v ended)]
          exact ended
        · exact ⟨label, w, List.mem_singleton.mp new, own⟩
  · cases onward with
    | running status runs => exact attempts.once
    | ended w =>
        refine List.nodup_append.mpr ⟨attempts.once, List.nodup_singleton _, ?_⟩
        rintro result old _ new rfl
        obtain ⟨other, v, same, ended⟩ := attempts.pending result old
        rw [List.mem_singleton.mp new] at same
        have names : label = other := congrArg Prod.fst (Except.ok.inj same)
        rw [← names] at ended
        exact unended_before v ended
  · intro other v ended
    by_cases apart : other = label
    · subst apart
      rw [own] at ended
      subst ended
      cases onward with
      | running status runs => cases runs
      | ended w => exact List.mem_append_right _ (List.mem_singleton_self _)
    · rw [others other apart] at ended
      have member := attempts.ended other v ended
      cases onward with
      | running status runs => exact member
      | ended w => exact List.mem_append_left _ member
  · intro p member
    obtain ⟨v, was, outcome⟩ := attempts.joined p member
    refine ⟨v, ?_, outcome⟩
    rw [others p.1 (by intro same; rw [same] at was; exact unjoined_before v was)]
    exact was
  · exact attempts.distinct
  · intro other v was
    by_cases apart : other = label
    · subst apart
      rw [own] at was
      exact absurd was (unjoined v)
    · rw [others other apart] at was
      exact attempts.whole other v was
  · intro none
    exact absurd (spawned_stage.symm.trans none) Bool.noConfusion
  · intro _ other
    have due := attempts.spawned spawned_stage other
    by_cases apart : other = label
    · subst apart
      rw [own]
      refine ⟨fun _ => due.mp ?_, fun _ => spawned⟩
      intro none
      rw [none] at runs
      cases runs
    · rw [others other apart]
      exact due
  · exact attempts.read
  · intro dry
    rcases attempts.dry dry label with none | ⟨v, joined⟩
    · rw [none] at runs
      cases runs
    · exact absurd joined (unjoined_before v)
  · intro other
    show other ∈ (if delivered then h.attempted ++ [label] else h.attempted) ↔ _
    by_cases apart : other = label
    · subst apart
      rw [own, tried]
      have was := attempts.attempted other
      cases delivered with
      | true => simp
      | false => simpa using was
    · rw [others other apart, ← attempts.attempted other]
      split
      · simp [apart]
      · exact Iff.rfl
  · show (if delivered then h.attempted ++ [label] else h.attempted).Nodup
    split
    · rename_i sent
      refine List.nodup_append.mpr ⟨attempts.attemptedOnce, List.nodup_singleton _, ?_⟩
      rintro other old _ new rfl
      rw [List.mem_singleton.mp new, attempts.attempted, first sent] at old
      cases old
    · exact attempts.attemptedOnce
  · rcases attempts.there with concluded | ⟨b, hb, bnotes⟩
    · exact Or.inl concluded
    · have elsewhere : b.id ≠ t.id := by
        intro same
        rw [unique b hb same, notes] at bnotes
        cases bnotes
      obtain ⟨u, hu, same⟩ := forth b hb elsewhere
      exact Or.inr ⟨u, hu, same.notes.trans bnotes⟩

end Steps

end FileReplicator.RoundRuns
