import FileReplicator.ActionsKeep
import FileReplicator.Duties
import FileReplicator.Reappearance

/-!
# No row is stranded

In a process that is up, every claimed, verified or exhausted row is in the hand
of a thread, but for rows whose thread was refused a statement or lost an attempt,
and exhausted rows that a closing window takes from their item.
-/

namespace FileReplicator.DutyRuns

open Domain DurableStore Effects Interleaving Operations Instance Steps Runs Rows TickCalls Duties

variable (setup : Setup)

/-! ## Every thread keeps to its duty -/

/-- What runs aside of the rows: attempts, actions and quarantines. -/
structure Aside (n : Protocol.Notes) (d : Duty) : Prop where
  duty : d = .aside
  role : hasRows n.role = false
  rowless : Rowless n

theorem aside_sound (n : Protocol.Notes) (d : Duty) (operation : Op) (aside : Aside n d)
    (may : Protocol.allowed setup n operation) :
    allowed d operation ∧ ∀ ret, possible operation ret →
      Protocol.possible setup operation ret ∧
        Aside (Protocol.learn setup n operation ret) (learn d operation ret) := by
  obtain ⟨rfl, role, rowless⟩ := aside
  have notick : n.role ≠ .tick := by
    intro same
    rw [same] at role
    cases role
  have norecover : n.role ≠ .recover := by
    intro same
    rw [same] at role
    cases role
  have noitem : ∀ relpath, n.role ≠ .item relpath := by
    intro relpath same
    rw [same] at role
    cases role
  have still : ∀ ret, learn .aside operation ret = .aside →
      Aside (Protocol.learn setup n operation ret) (learn .aside operation ret) := fun ret same =>
    ⟨same, by rw [learn_role]; exact role, rowless_learn setup n operation ret role rowless may⟩
  cases operation with
  | store operation =>
      have changes : (∀ relpath state, newState operation = some (relpath, state) →
          inHand state = false) → ∀ relpath state, newState operation = some (relpath, state) →
            inHand state = true → Duty.aside = .item relpath true := by
        intro leaves relpath state put taken
        rw [leaves relpath state put] at taken
        cases taken
      cases operation with
      | claimReady limit now => exact absurd may.1 notick
      | recoverIncomplete => exact absurd may.1 norecover
      | getRow relpath => exact absurd may.1 notick
      | setState relpath state now =>
          refine ⟨changes ?_, fun ret _ => ⟨trivial, still ret ?_⟩⟩
          · intro own put same
            cases same
            cases state with
            | verified => exact absurd may.1 (noitem relpath)
            | inProgress => exact may.elim
            | exhausted => exact may.elim
            | _ => rfl
          · cases ret with
            | error e => rfl
            | ok done => exact ite_self _
      | rollUpItem relpath state attempts gate error now => exact absurd may.1 (noitem relpath)
      | recordCleanupAttempt relpath error state gate now =>
          obtain ⟨rfl, _⟩ := may
          refine ⟨changes ?_, fun ret _ => ⟨trivial, still ret ?_⟩⟩
          · intro own put same
            cases same
            rfl
          · cases ret <;> rfl
      | listByState state =>
          refine ⟨trivial, fun ret _ => ⟨trivial, still ret ?_⟩⟩
          cases ret <;> rfl
      | _ =>
          refine ⟨changes fun _ _ put => (by cases put), fun ret _ => ⟨trivial, still ret ?_⟩⟩
          cases ret <;> rfl
  | spawnBatch items now => exact absurd may.1 notick
  | nextOfBatch closable => exact absurd may.1 notick
  | abortBatch => exact absurd may.1 notick
  | joinAttempt =>
      obtain ⟨relpath, mine, _⟩ := may
      exact absurd mine (noitem relpath)
  | _ => exact ⟨trivial, fun ret _ => ⟨trivial, still ret rfl⟩⟩

theorem aside_keeps (spec : Spec) (aside : Aside (Protocol.start spec) (start spec)) :
    Keeps duties (main setup spec) (start spec) fun _ after => Finished after := by
  apply keeps_mono _ _ _ _ _ (keeps_simulated (Protocol.discipline setup) duties Aside
    (aside_sound setup) _ _ _ aside _ (ActionsKeep.main_keeps setup spec))
  rintro _ _ ⟨n, ⟨rfl, _, _⟩, _⟩
  exact trivial

theorem main_keeps (spec : Spec) :
    Keeps duties (main setup spec) (start spec) fun _ after => Finished after := by
  cases spec with
  | recover now => exact recover_keeps setup now
  | tick now ignoreWindow redriveCleanup fuel =>
      apply keeps_mono _ _ _ _ _ (tick_keeps setup now ignoreWindow redriveCleanup fuel)
      rintro _ _ ⟨batch, rfl⟩
      exact ⟨rfl, rfl⟩
  | item owner item now =>
      apply keeps_mono _ _ _ _ _ (process_keeps setup item now)
      rintro _ _ rfl
      rfl
  | _ => exact aside_keeps setup _ ⟨rfl, rfl, ⟨rfl, rfl⟩⟩

/-- The instance, with what its threads have in hand. -/
abbrev crew := machine setup duties Finished start

abbrev Hand := Thread Op Ret Spec Duty

abbrev Crew := Config Op Ret World Spec Duty

/-! ## Rows that are left -/

def isOpen (c : Crew) (relpath : String) : Bool :=
  (c.state.store.items relpath).any fun row => inHand row.state

/-- A thread lets go of a row that is still claimed, verified or exhausted. -/
def letsGo (c : Crew) (before after : Duty) (relpath : String) : Bool :=
  match c.state.store.items relpath with
  | some row =>
      inHand row.state && before.holds relpath row.state && !after.holds relpath row.state
  | none => false

/-- How a row comes to be left: its thread is refused a statement, an attempt of its item has
panicked or could not be recorded, or a revert finds it exhausted. -/
def strands (t : Hand) (c : Crew) (relpath : String) : Op → Answer → Bool
  | .store operation, .refused _ => letsGo c t.notes (learnRefused t.notes operation) relpath
  | .store (.getRow own), .asIs =>
      letsGo c t.notes (learnRow t.notes own (c.state.store.get own)) relpath
  | .joinAttempt, .refused text =>
      letsGo c t.notes (learnJoined t.notes (some (.error text))) relpath
  | .joinAttempt, .number n =>
      letsGo c t.notes (learnJoined t.notes ((c.state.attempts t.id)[n]?.map .ok)) relpath
  | _, _ => false

abbrev Left := String → Bool

def heed (t : Hand) (operation : Op) (answer : Answer) (c after : Crew) (left : Left) : Left :=
  fun relpath => (left relpath || strands t c relpath operation answer) && isOpen after relpath

def pass (event : Event) (_ _ : Crew) (left : Left) : Left :=
  match event with
  | .boot _ => fun _ => false
  | _ => left

def nothingLeft : Left := fun _ => false

abbrev stranding : Chronicle Op Ret World Spec Duty Answer Event Left :=
  chronicle nothingLeft heed pass

/-! ## What holds in every run -/

def fits : Spec → Duty → Bool
  | .item _ item _, .item own _ => own = item.relpath
  | .tick _ _ _ _, .tick _ _ _ => true
  | .recover _, .unlisted | .recover _, .sweeping _ | .recover _, .exhausting _
  | .recover _, .aside => true
  | .attempt _ _, .aside | .action _ _, .aside | .quarantine _ _, .aside => true
  | _, _ => false

structure Sound (c : Crew) : Prop where
  distinct : Distinct c
  orderly : Orderly (crew setup) c
  keyed : Keyed c.state.store
  listed : Listed c.state.store
  kinds : ∀ u ∈ c.threads, fits u.spec u.notes = true
  free : ∀ u ∈ c.threads, owner u.spec = none → u.aborted = false
  /-- The tick of an item waits for it, and has its row in hand again once it has aborted it. -/
  owned : ∀ u ∈ c.threads, ∀ id item now, u.spec = .item id item now →
    ∃ t ∈ c.threads, t.id = id ∧ ∃ hand batch, t.notes = .tick hand batch true ∧
      item.relpath ∈ batch ∧ (u.aborted = true → item.relpath ∈ hand)

def Held (c : Crew) (relpath : String) (state : ItemState) : Prop :=
  ∃ t ∈ c.threads, t.aborted = false ∧ t.notes.holds relpath state = true

/-- Every row that only its holder takes out of its state has one, or is left. -/
def Covered (left : Left) (c : Crew) : Prop :=
  c.state.up = true → ∀ relpath row, c.state.store.items relpath = some row →
    inHand row.state = true → left relpath = true ∨ Held c relpath row.state

theorem finished_holds_nothing (d : Duty) (finished : Finished d) (relpath : String)
    (state : ItemState) : d.holds relpath state = false := by
  cases d with
  | unlisted => exact finished.elim
  | sweeping hand => exact finished.elim
  | exhausting hand =>
      obtain rfl : hand = [] := finished
      rfl
  | tick hand batch out =>
      obtain ⟨rfl, _⟩ := finished
      rfl
  | item own held =>
      obtain rfl : held = false := finished
      rfl
  | aside => rfl

theorem holds_drop (d : Duty) (own relpath : String) (state : ItemState) (other : relpath ≠ own) :
    (d.drop own).holds relpath state = d.holds relpath state := by
  have kept : ∀ hand, (relpath ∈ Duty.without own hand) ↔ relpath ∈ hand := by
    intro hand
    rw [Duty.without, List.mem_filter]
    exact ⟨And.left, fun member => ⟨member, decide_eq_true other⟩⟩
  cases d with
  | item mine held =>
      simp only [Duty.drop, Duty.holds]
      by_cases same : mine = relpath
      · subst same
        simp [other]
      · simp [same]
  | tick hand batch out => cases out <;> simp only [Duty.drop, Duty.holds, kept]
  | _ => simp only [Duty.drop, Duty.holds, kept]

inductive Alike : Duty → Duty → Prop where
  | same (d : Duty) : Alike d d
  | item (own : String) (held after : Bool) : Alike (.item own held) (.item own after)
  | tick (hand batch hand' batch' : List String) (out out' : Bool) :
      Alike (.tick hand batch out) (.tick hand' batch' out')
  | unlisted (hand : List String) : Alike .unlisted (.sweeping hand)
  | sweeping (hand hand' : List String) : Alike (.sweeping hand) (.sweeping hand')
  | listed (hand hand' : List String) : Alike (.sweeping hand) (.exhausting hand')
  | exhausting (hand hand' : List String) : Alike (.exhausting hand) (.exhausting hand')
  | givenUp : Alike .unlisted .aside
  | sweptUp (hand : List String) : Alike (.sweeping hand) .aside
  | exhausted (hand : List String) : Alike (.exhausting hand) .aside

theorem alike_drop (d : Duty) (relpath : String) : Alike d (d.drop relpath) := by
  cases d with
  | tick hand batch out =>
      cases out with
      | true => exact .same _
      | false => exact .tick _ _ _ _ _ _
  | sweeping hand => exact .sweeping _ _
  | exhausting hand => exact .exhausting _ _
  | item own held => exact .item _ _ _
  | _ => exact .same _

theorem alike_refused (d : Duty) (operation : StoreOp) : Alike d (learnRefused d operation) := by
  cases d with
  | unlisted => exact .givenUp
  | sweeping hand =>
      simp only [learnRefused]
      split
      · exact .same _
      · exact .sweptUp hand
  | exhausting hand =>
      simp only [learnRefused]
      split
      · exact .same _
      · exact .exhausted hand
  | tick hand batch out =>
      simp only [learnRefused]
      split
      · exact alike_drop _ _
      · exact .same _
  | item own held => exact .item _ _ _
  | aside => exact .same _

theorem alike_state (d : Duty) (change : Option (String × ItemState)) : Alike d (learnState d change) := by
  cases change with
  | none => exact .same _
  | some change =>
      rw [learnState]
      split
      · exact .same _
      · exact alike_drop _ _

theorem learn_alike (d : Duty) (operation : Op) (ret : Ret operation) (may : allowed d operation) :
    Alike d (learn d operation ret) := by
  cases operation with
  | store operation =>
      cases ret with
      | error e => exact alike_refused d operation
      | ok ret =>
          cases operation with
          | claimReady limit now =>
              obtain ⟨batch, rfl⟩ := may
              exact .tick _ _ _ _ _ _
          | recoverIncomplete =>
              obtain rfl : d = .unlisted := may
              exact .unlisted _
          | listByState state =>
              cases d with
              | sweeping hand => exact .listed _ _
              | _ => exact .same _
          | getRow relpath =>
              show Alike d (learnRow d relpath ret)
              unfold learnRow
              split
              · split
                · exact .same _
                · exact alike_drop _ _
              · exact alike_drop _ _
          | setState relpath state now => exact alike_state d (some (relpath, state))
          | rollUpItem relpath state attempts gate error now =>
              exact alike_state d (some (relpath, state))
          | recordCleanupAttempt relpath error state gate now =>
              exact alike_state d (some (relpath, state))
          | _ => exact .same _
  | joinAttempt =>
      show Alike d (learnJoined d ret)
      unfold learnJoined
      split
      · cases d with
        | item own held => exact .item _ _ _
        | _ => exact .same _
      · cases d with
        | item own held => exact .item _ _ _
        | _ => exact .same _
      · exact .same _
  | spawnBatch items now =>
      obtain ⟨batch, rfl⟩ := may
      exact .tick _ _ _ _ _ _
  | nextOfBatch closable =>
      obtain ⟨hand, batch, rfl⟩ := may
      cases ret with
      | drained => exact .tick _ _ _ _ _ _
      | closed => exact .same _
  | abortBatch =>
      obtain ⟨batch, rfl⟩ := may
      exact .tick _ _ _ _ _ _
  | _ => exact .same _

theorem fits_alike (spec : Spec) (d after : Duty) (alike : Alike d after) (fit : fits spec d = true) :
    fits spec after = true := by
  cases alike with
  | same => exact fit
  | item own held after => cases spec <;> exact fit
  | _ => cases spec <;> first | rfl | cases fit

theorem fits_start (spec : Spec) : fits spec (start spec) = true := by
  cases spec with
  | item owner item now => exact decide_eq_true rfl
  | _ => rfl

/-- A tick whose batch is out waits for it; when it aborts it, it has its rows in hand again. -/
theorem learn_out (hand batch : List String) (operation : Op) (ret : Ret operation)
    (may : allowed (.tick hand batch true) operation) :
    (∃ after, learn (.tick hand batch true) operation ret = .tick after batch true ∧ hand ⊆ after ∧
      (operation = .abortBatch → after = batch)) ∨
      ∃ closable, operation = .nextOfBatch closable ∧
        learn (.tick hand batch true) operation ret = .tick hand batch false := by
  have waits : operation ≠ .abortBatch →
      learn (.tick hand batch true) operation ret = .tick hand batch true →
      ∃ after, learn (.tick hand batch true) operation ret = .tick after batch true ∧ hand ⊆ after ∧
        (operation = .abortBatch → after = batch) := fun other same =>
    ⟨hand, same, List.Subset.refl _, fun aborts => absurd aborts other⟩
  have state : ∀ change, learnState (.tick hand batch true) change = .tick hand batch true := by
    intro change
    cases change with
    | none => rfl
    | some change => exact ite_self _
  cases operation with
  | store operation =>
      refine Or.inl (waits Op.noConfusion ?_)
      cases ret with
      | error e =>
          show learnRefused (.tick hand batch true) operation = _
          simp only [learnRefused]
          split <;> rfl
      | ok ret =>
          cases operation with
          | claimReady limit now =>
              obtain ⟨_, same⟩ := may
              cases same
          | recoverIncomplete => cases may
          | listByState listed => rfl
          | getRow relpath =>
              show learnRow (.tick hand batch true) relpath ret = _
              unfold learnRow
              split
              · exact ite_self _
              · rfl
          | setState relpath put now => exact state (some (relpath, put))
          | rollUpItem relpath put attempts gate error now => exact state (some (relpath, put))
          | recordCleanupAttempt relpath error put gate now => exact state (some (relpath, put))
          | _ => rfl
  | joinAttempt =>
      refine Or.inl (waits Op.noConfusion ?_)
      show learnJoined (.tick hand batch true) ret = _
      unfold learnJoined
      split <;> rfl
  | spawnBatch items now =>
      obtain ⟨_, same⟩ := may
      cases same
  | nextOfBatch closable =>
      cases ret with
      | drained => exact Or.inr ⟨closable, rfl, rfl⟩
      | closed => exact Or.inl (waits Op.noConfusion rfl)
  | abortBatch =>
      obtain ⟨_, same⟩ := may
      cases same
      exact Or.inl ⟨batch, rfl, List.nil_subset _, fun _ => rfl⟩
  | _ => exact Or.inl (waits Op.noConfusion rfl)

/-! ### One call -/

structure Called (c : Crew) (t : Hand) (operation : Op) (ret : Ret operation)
    (effect : Effect World Spec) (next : Ret operation → Program Unit) : Prop where
  member : t ∈ c.threads
  may : allowed t.notes operation
  later : Keeps duties (next ret) (learn t.notes operation ret) fun _ after => Finished after
  did : Did setup (retold t) (Machine.live c) c.state operation ret effect

section Call

variable {setup}
variable {c : Crew} {t : Hand} {operation : Op} {ret : Ret operation} {effect : Effect World Spec}
variable {next : Ret operation → Program Unit}

theorem Called.gone (called : Called setup c t operation ret effect next) (id : Nat) (spec : Spec)
    (d : Duty) (fit : fits spec d = true) (gone : effect.fate id spec = .gone) : d = .aside := by
  rcases did_gone setup _ _ _ _ _ _ called.did id spec gone with ⟨_, _, rfl⟩ | ⟨_, _, rfl⟩ | ⟨_, _, rfl⟩
  all_goals
    cases d with
    | aside => rfl
    | _ => cases fit

theorem Called.aborts (called : Called setup c t operation ret effect next) (id : Nat) (spec : Spec)
    (aborted : effect.fate id spec = .aborted) :
    operation = .abortBatch ∧ ∃ item now, spec = .item t.id item now :=
  did_aborts setup _ _ _ _ _ _ called.did id spec aborted

theorem Called.goes_on (called : Called setup c t operation ret effect next)
    (unfinished : ¬Finished (learn t.notes operation ret)) :
    ∃ v ∈ ((crew setup).settle c ((crew setup).resumed t operation ret next) effect).threads,
      SameThread ((crew setup).resumed t operation ret next) v := by
  refine caller_stays (crew setup) c t called.member operation ret next effect ?_
  have later := called.later
  cases rest : next ret with
  | done value =>
      rw [rest] at later
      exact absurd later unfinished
  | call operation rest => rfl

theorem Called.tick_stays (called : Called setup c t operation ret effect next)
    (sound : Sound setup c) (holder : Hand) (member : holder ∈ c.threads) (hand batch : List String)
    (notes : holder.notes = .tick hand batch true) :
    (∃ v ∈ ((crew setup).settle c ((crew setup).resumed t operation ret next) effect).threads,
        v.id = holder.id ∧ ∃ after, v.notes = .tick after batch true ∧ hand ⊆ after ∧
          (holder.id = t.id → operation = .abortBatch → after = batch)) ∨
      (holder.id = t.id ∧ isDrained (Machine.live c) t.id = true) := by
  by_cases mine : holder.id = t.id
  · obtain rfl := eq_of_same_id c sound.distinct holder t member called.member mine
    have may := called.may
    rw [notes] at may
    have learned : learn holder.notes operation ret = learn (.tick hand batch true) operation ret := by
      rw [notes]
    rcases learn_out hand batch operation ret may with ⟨after, same, more, aborts⟩ |
      ⟨closable, waits, same⟩
    · rw [same] at learned
      obtain ⟨v, hv, still⟩ := called.goes_on fun finished => by
        rw [learned] at finished
        cases finished.2
      exact Or.inl ⟨v, hv, still.id, after, still.notes.trans learned, more, fun _ => aborts⟩
    · subst waits
      cases called.did with
      | drained closable finished => exact Or.inr ⟨rfl, finished⟩
      | closed => cases same
  · obtain ⟨v, hv, still⟩ := other_stays (crew setup) c ((crew setup).resumed t operation ret next)
      holder member mine effect fun gone => by
        have aside := called.gone holder.id holder.spec holder.notes (sound.kinds holder member) gone
        rw [notes] at aside
        cases aside
    exact Or.inl ⟨v, hv, still.id, hand, still.notes.trans notes, List.Subset.refl _,
      fun same => absurd same mine⟩

/-- Who is aborted after a call: one that was aborted before, an item of the batch that the call
aborts, or one whose owner is gone. -/
theorem Called.aborted (called : Called setup c t operation ret effect next) (u : Hand)
    (member : u ∈ ((crew setup).settle c ((crew setup).resumed t operation ret next) effect).threads)
    (aborted : u.aborted = true) :
    (∃ before ∈ c.threads, before.id = u.id ∧ before.aborted = true) ∨
      (operation = .abortBatch ∧ ∃ item now, u.spec = .item t.id item now) ∨
      ∃ id, owner u.spec = some id ∧ ∀ v ∈ ((crew setup).settle c
        ((crew setup).resumed t operation ret next) effect).threads, v.id ≠ id := by
  rcases aborted_settle (crew setup) c _ u effect member aborted with
    ⟨before, rfl | hbefore, sameId, _, was⟩ | fate | orphan
  · exact Or.inl ⟨t, called.member, sameId, was⟩
  · exact Or.inl ⟨before, hbefore, sameId, was⟩
  · exact Or.inr (Or.inl (called.aborts _ _ fate))
  · exact Or.inr (Or.inr orphan)

theorem Called.owned (called : Called setup c t operation ret effect next) (sound : Sound setup c)
    (u : Hand)
    (member : u ∈ ((crew setup).settle c ((crew setup).resumed t operation ret next) effect).threads)
    (id : Nat) (item : WorkItem) (now : Int) (spec : u.spec = .item id item now) :
    ∃ v ∈ ((crew setup).settle c ((crew setup).resumed t operation ret next) effect).threads,
      v.id = id ∧ ∃ hand batch, v.notes = .tick hand batch true ∧ item.relpath ∈ batch ∧
        (u.aborted = true → item.relpath ∈ hand) := by
  have before : ∀ x ∈ c.threads, x.spec = .item id item now → x.id = u.id →
      ∃ v ∈ ((crew setup).settle c ((crew setup).resumed t operation ret next) effect).threads,
        v.id = id ∧ ∃ hand batch, v.notes = .tick hand batch true ∧ item.relpath ∈ batch ∧
          (u.aborted = true → item.relpath ∈ hand) := by
    intro x hx mine same
    obtain ⟨holder, hholder, sameId, hand, batch, notes, listed, back⟩ := sound.owned x hx id item now mine
    rcases called.tick_stays sound holder hholder hand batch notes with
      ⟨v, hv, still, after, holds, more, aborts⟩ | ⟨caller, drained⟩
    · refine ⟨v, hv, still.trans sameId, after, batch, holds, listed, fun aborted => ?_⟩
      rcases called.aborted u member aborted with ⟨y, hy, also, was⟩ | ⟨abort, item', now', own⟩ |
        ⟨owner, owned, alone⟩
      · obtain rfl := eq_of_same_id c sound.distinct x y hx hy (same.trans also.symm)
        exact more (back was)
      · rw [spec] at own
        cases own
        rw [aborts sameId abort]
        exact listed
      · rw [spec] at owned
        cases owned
        exact absurd (still.trans sameId) (alone v hv)
    · have left := List.all_eq_true.mp drained x.spec (List.mem_map_of_mem hx)
      rw [mine] at left
      have other : id ≠ t.id := of_decide_eq_true left
      exact absurd (sameId.symm.trans caller) other
  rcases mem_settle (crew setup) c _ u effect member with ⟨same, _⟩ | ⟨x, hx, _, same, _⟩ |
    ⟨new, hnew, same⟩
  · exact before t called.member (same.spec.symm.trans spec) same.id.symm
  · exact before x hx (same.spec.symm.trans spec) same.id.symm
  · obtain ⟨started, _, _, fresh, _⟩ := mem_spawn_from (crew setup) _ _ new hnew
    rw [← same.spec, spec] at started
    have batch : operation ≠ .abortBatch ∧ ∃ items : List WorkItem, id = t.id ∧
        item.relpath ∈ items.map WorkItem.relpath ∧
          learn t.notes operation ret = .tick [] (items.map WorkItem.relpath) true := by
      have may := called.may
      cases called.did with
      | spawnedBatch items at_ =>
          obtain ⟨other, listed, eq⟩ := List.mem_map.mp started
          cases eq
          obtain ⟨_, notes⟩ := may
          refine ⟨Op.noConfusion, items, rfl, List.mem_map_of_mem listed, ?_⟩
          rw [notes]
          rfl
      | spawnedAttempts contexts =>
          obtain ⟨_, _, eq⟩ := List.mem_map.mp started
          cases eq
      | startedAction ctx => cases List.mem_singleton.mp started
      | startedQuarantine job => cases List.mem_singleton.mp started
      | _ => cases started
    obtain ⟨other, items, rfl, listed, learned⟩ := batch
    obtain ⟨v, hv, still⟩ := called.goes_on fun finished => by
      rw [learned] at finished
      cases finished.2
    refine ⟨v, hv, still.id, [], _, still.notes.trans learned, listed, fun aborted => ?_⟩
    rcases called.aborted u member aborted with ⟨y, hy, also, _⟩ | ⟨abort, _⟩ |
      ⟨owner, owned, alone⟩
    · have old := sound.distinct.below y hy
      have later := (mem_spawn_from (crew setup) _ _ new hnew).2.1
      rw [also, same.id] at old
      omega
    · exact absurd abort other
    · rw [spec] at owned
      cases owned
      exact absurd still.id (alone v hv)

theorem Called.kinds (called : Called setup c t operation ret effect next) (sound : Sound setup c) :
    ∀ u ∈ ((crew setup).settle c ((crew setup).resumed t operation ret next) effect).threads,
      fits u.spec u.notes = true := by
  refine all_settle (crew setup) (fun spec n => fits spec n = true) c t operation ret effect next ?_
    (fun u hu _ => sound.kinds u hu) fun spec _ => fits_start spec
  exact fits_alike t.spec t.notes _ (learn_alike t.notes operation ret called.may)
    (sound.kinds t called.member)

theorem Called.free (called : Called setup c t operation ret effect next) (sound : Sound setup c)
    (u : Hand)
    (member : u ∈ ((crew setup).settle c ((crew setup).resumed t operation ret next) effect).threads)
    (unowned : owner u.spec = none) : u.aborted = false := by
  have spares : ∀ id spec, owner spec = none → effect.fate id spec ≠ .aborted := by
    intro id spec nobody aborted
    obtain ⟨_, item, now, rfl⟩ := called.aborts id spec aborted
    cases nobody
  rcases unowned_settle (crew setup) c _ u effect spares member unowned with rfl | old | new
  · exact sound.free t called.member unowned
  · exact sound.free u old unowned
  · exact (mem_spawn_from (crew setup) _ _ u new).2.2.2.1

end Call

theorem did_possible (store : Store) (keyed : Keyed store) (t : Running) (live : List Spec)
    (world : World) (here : world.store = store) (operation : Op) (ret : Ret operation)
    (effect : Effect World Spec) (did : Did setup t live world operation ret effect) :
    possible operation ret := by
  subst here
  cases did with
  | statement operation =>
      cases operation with
      | recoverIncomplete => exact select_nodup world.store keyed _
      | listByState state => exact select_nodup world.store keyed _
      | getRow relpath =>
          show possible (.store (.getRow relpath)) (.ok (world.store.get relpath))
          cases found : world.store.get relpath with
          | none => trivial
          | some row =>
              obtain ⟨_, _, rfl⟩ := Option.map_eq_some_iff.mp found
              rfl
      | _ => trivial
  | refused operation text => cases operation <;> trivial
  | closed => rfl
  | _ => trivial

theorem origin_statement (store : Store) (d : Duty) (operation : StoreOp)
    (may : allowedStatement d operation) (relpath : String) (row : Row)
    (found : (callStore store operation).2.items relpath = some row)
    (taken : inHand row.state = true) :
    (∃ before, store.items relpath = some before ∧ before.state = row.state) ∨
      (learnStatement d operation (callStore store operation).1).holds relpath row.state = true := by
  have updated : ∀ (own : String) (state : ItemState) (change : Row → Row),
      (∀ row, (change row).state = state) → (inHand state = true → d = .item own true) →
      (store.updateRow own change).items relpath = some row →
      (∃ before, store.items relpath = some before ∧ before.state = row.state) ∨
        (learnState d (some (own, state))).holds relpath row.state = true := by
    intro own state change puts mine found
    rw [Store.items_update] at found
    split at found
    · rename_i same
      obtain ⟨before, _, rfl⟩ := Option.map_eq_some_iff.mp found
      rw [puts] at taken ⊢
      right
      rw [mine taken, learnState, if_pos taken, same]
      exact decide_eq_true rfl
    · exact Or.inl ⟨row, found, rfl⟩
  cases operation with
  | claimReady limit now =>
      obtain ⟨batch, rfl⟩ := may
      change (if relpath ∈ (store.claimed limit now).map WorkItem.relpath then _ else _) = _ at found
      split at found
      · rename_i claimed
        right
        refine decide_eq_true ?_
        obtain ⟨it, member, same⟩ := List.mem_map.mp claimed
        simp only [callStore, Store.claimReady, List.map_map]
        exact List.mem_map.mpr ⟨it, member, same⟩
      · exact Or.inl ⟨row, found, rfl⟩
  | upsertReady own size mtimeMs now =>
      left
      obtain ⟨others, mine⟩ := store.upsert_cases own size mtimeMs now
      by_cases same : relpath = own
      · subst same
        rcases mine with ⟨_, after, _⟩ | ⟨_, _, _, after, _⟩ | ⟨before, here, _, after, _⟩
        · rw [show (callStore store (.upsertReady relpath size mtimeMs now)).2.items relpath = _
            from after] at found
          cases found
          cases taken
        · rw [show (callStore store (.upsertReady relpath size mtimeMs now)).2.items relpath = _
            from after] at found
          cases found
          cases taken
        · rw [show (callStore store (.upsertReady relpath size mtimeMs now)).2.items relpath = _
            from after] at found
          cases found
          exact ⟨before, here, rfl⟩
      · exact ⟨row, (others relpath same).1 ▸ found, rfl⟩
  | setState own state now => exact updated own state _ (fun _ => rfl) (may own state rfl) found
  | rollUpItem own state attempts gate error now =>
      exact updated own state _ (fun _ => rfl) (may own state rfl) found
  | recordCleanupAttempt own error state gate now =>
      exact updated own state _ (fun _ => rfl) (may own state rfl) found
  | setBytesDone own bytes now => exact Or.inl (store.state_of_bytes_done own relpath bytes now row found)
  | _ => exact Or.inl ⟨row, found, rfl⟩

section Call

variable {setup}
variable {c : Crew} {t : Hand} {operation : Op} {ret : Ret operation} {effect : Effect World Spec}
variable {next : Ret operation → Program Unit}

theorem Called.origin (called : Called setup c t operation ret effect next) (relpath : String)
    (row : Row) (found : effect.state.store.items relpath = some row)
    (taken : inHand row.state = true) :
    (∃ before, c.state.store.items relpath = some before ∧ before.state = row.state) ∨
      (learn t.notes operation ret).holds relpath row.state = true := by
  have may := called.may
  cases called.did with
  | statement operation =>
      exact origin_statement c.state.store t.notes operation may relpath row found taken
  | undelivered item label resume left error after stored =>
      rcases stored with rfl | ⟨bytes, _, rfl⟩
      · exact Or.inl ⟨row, found, rfl⟩
      · exact Or.inl ⟨row, found, rfl⟩
  | _ => exact Or.inl ⟨row, found, rfl⟩

theorem letsGo_of (before after : Duty) (relpath : String) (row : Row)
    (found : c.state.store.items relpath = some row) (taken : inHand row.state = true)
    (held : before.holds relpath row.state = true) (gone : after.holds relpath row.state = false) :
    letsGo c before after relpath = true := by
  simp only [letsGo, found, taken, held, gone, Bool.not_false, Bool.and_self]

theorem keeps_statement (listed : Listed c.state.store) (d : Duty) (operation : StoreOp)
    (may : allowedStatement d operation) (relpath : String) (row after : Row)
    (found : c.state.store.items relpath = some row) (taken : inHand row.state = true)
    (held : d.holds relpath row.state = true)
    (left : (callStore c.state.store operation).2.items relpath = some after)
    (same : after.state = row.state) :
    (learnStatement d operation (callStore c.state.store operation).1).holds relpath row.state = true ∨
      ∃ own, operation = .getRow own := by
  have updated : ∀ (own : String) (state : ItemState) (change : Row → Row),
      (∀ row, (change row).state = state) →
      (c.state.store.updateRow own change).items relpath = some after →
      (learnState d (some (own, state))).holds relpath row.state = true := by
    intro own state change puts left
    rw [learnState]
    split
    · exact held
    · rename_i leaves
      by_cases mine : relpath = own
      · rw [Store.items_update, if_pos mine] at left
        obtain ⟨_, _, rfl⟩ := Option.map_eq_some_iff.mp left
        rw [puts] at same
        rw [same] at leaves
        exact absurd taken leaves
      · rw [holds_drop d own relpath row.state mine]
        exact held
  have selected : ∀ wanted : WorkItem → Bool, wanted (c.state.store.toItem relpath row) = true →
      c.state.store.toItem relpath row ∈ c.state.store.select wanted := fun wanted is =>
    (mem_select_iff c.state.store listed wanted _).mpr ⟨is, row, found, rfl⟩
  cases operation with
  | claimReady limit now =>
      obtain ⟨batch, rfl⟩ := may
      cases held
  | recoverIncomplete =>
      left
      refine Bool.or_eq_true _ _ |>.mpr ?_
      cases state : row.state with
      | exhausted => exact Or.inr rfl
      | inProgress | verified =>
          refine Or.inl (decide_eq_true (List.mem_map.mpr ⟨_, List.mem_filter.mpr
            ⟨selected _ ?_, ?_⟩, rfl⟩))
          · simp [Store.toItem, state]
          · simp [Store.toItem, state, isMoving]
      | _ =>
          rw [state] at taken
          cases taken
  | listByState state =>
      left
      cases d with
      | sweeping hand =>
          obtain ⟨rfl, rfl⟩ := may
          have exhausted : row.state = .exhausted := by simpa [Duty.holds] using held
          refine decide_eq_true (List.mem_map.mpr ⟨_, selected _ ?_, rfl⟩)
          exact decide_eq_true exhausted
      | _ => exact held
  | getRow own => exact Or.inr ⟨own, rfl⟩
  | setState own state now => exact Or.inl (updated own state _ (fun _ => rfl) left)
  | rollUpItem own state attempts gate error now =>
      exact Or.inl (updated own state _ (fun _ => rfl) left)
  | recordCleanupAttempt own error state gate now =>
      exact Or.inl (updated own state _ (fun _ => rfl) left)
  | _ => exact Or.inl held

/-- Where the row of a caller goes: it keeps it in hand, it leaves it, or it hands it to an item. -/
theorem Called.keeps_hold (called : Called setup c t operation ret effect next)
    (sound : Sound setup c) (answer : Answer)
    (performed : perform setup c.state t (Machine.live c) operation answer = some (ret, effect))
    (relpath : String) (row after : Row) (found : c.state.store.items relpath = some row)
    (taken : inHand row.state = true) (held : t.notes.holds relpath row.state = true)
    (left : effect.state.store.items relpath = some after) (same : after.state = row.state) :
    (learn t.notes operation ret).holds relpath row.state = true ∨
      strands t c relpath operation answer = true ∨
      ∃ item now, Spec.item t.id item now ∈ effect.spawned ∧ item.relpath = relpath := by
  have leaves : ∀ d, learn t.notes operation ret = d →
      strands t c relpath operation answer = letsGo c t.notes d relpath →
      d.holds relpath row.state = true ∨ strands t c relpath operation answer = true ∨
        ∃ item now, Spec.item t.id item now ∈ effect.spawned ∧ item.relpath = relpath := by
    intro d _ strand
    cases still : d.holds relpath row.state with
    | true => exact Or.inl rfl
    | false =>
        refine Or.inr (Or.inl ?_)
        rw [strand]
        exact letsGo_of t.notes d relpath row found taken held still
  have may := called.may
  cases operation with
  | store operation =>
      cases answer with
      | asIs =>
          cases performed
          rcases keeps_statement sound.listed t.notes operation may relpath row after found taken
            held left same with still | ⟨own, rfl⟩
          · exact Or.inl still
          · exact leaves _ rfl rfl
      | refused text =>
          cases performed
          exact leaves _ rfl rfl
      | _ => cases performed
  | joinAttempt =>
      cases answer with
      | number n =>
          obtain ⟨result, present, eq⟩ := Option.map_eq_some_iff.mp performed
          cases eq
          refine leaves _ rfl ?_
          rw [strands, present]
          rfl
      | refused text =>
          simp only [perform, joinOne] at performed
          split at performed
          · cases performed
            exact leaves _ rfl rfl
          · cases performed
      | asIs =>
          simp only [perform, joinOne] at performed
          split at performed
          · cases performed
            exact Or.inl held
          · cases performed
      | _ => cases performed
  | spawnBatch items now =>
      obtain ⟨batch, notes⟩ := may
      refine Or.inr (Or.inr ?_)
      rw [notes] at held
      obtain ⟨item, member, mine⟩ := List.mem_map.mp (of_decide_eq_true held)
      cases called.did
      exact ⟨item, now, List.mem_map.mpr ⟨item, member, rfl⟩, mine⟩
  | nextOfBatch closable =>
      obtain ⟨hand, batch, notes⟩ := may
      rw [notes] at held ⊢
      cases ret with
      | drained => exact Or.inl held
      | closed => exact Or.inl held
  | abortBatch =>
      obtain ⟨batch, notes⟩ := may
      rw [notes] at held
      cases held
  | _ => exact Or.inl held

end Call

/-- Whoever has a row in hand and is aborted has left it in the hand of the tick it belongs to. -/
theorem held_of_holds (c : Crew) (sound : Sound setup c) (u : Hand) (member : u ∈ c.threads)
    (relpath : String) (state : ItemState) (holds : u.notes.holds relpath state = true) :
    Held c relpath state := by
  cases alive : u.aborted with
  | false => exact ⟨u, member, alive, holds⟩
  | true =>
      cases howner : owner u.spec with
      | none =>
          have free := sound.free u member howner
          rw [alive] at free
          cases free
      | some id =>
          have fit := sound.kinds u member
          cases spec : u.spec with
          | item own item now =>
              obtain ⟨v, hv, _, hand, batch, notes, _, back⟩ := sound.owned u member own item now spec
              have mine : item.relpath = relpath := by
                rw [spec] at fit
                cases notes : u.notes with
                | item other held =>
                    rw [notes] at fit holds
                    have both : held = true ∧ other = relpath := by simpa [Duty.holds] using holds
                    exact (of_decide_eq_true fit).symm.trans both.2
                | _ =>
                    rw [notes] at fit
                    cases fit
              have tick : owner v.spec = none := by
                have fit := sound.kinds v hv
                rw [notes] at fit
                cases spec : v.spec with
                | tick now ignoreWindow redriveCleanup fuel => rfl
                | _ =>
                    rw [spec] at fit
                    cases fit
              refine ⟨v, hv, sound.free v hv tick, ?_⟩
              rw [notes, ← mine]
              exact decide_eq_true (back alive)
          | attempt own ctx =>
              rw [spec] at fit
              cases notes : u.notes with
              | aside =>
                  rw [notes] at holds
                  cases holds
              | _ =>
                  rw [notes] at fit
                  cases fit
          | _ =>
              rw [spec] at howner
              cases howner

theorem sound_settle (c : Crew) (sound : Sound setup c) (t : Hand) (operation : Op)
    (ret : Ret operation) (effect : Effect World Spec) (next : Ret operation → Program Unit)
    (choice : Choice Answer Event)
    (calls : Calls (crew setup) c t operation ret effect next choice)
    (called : Called setup c t operation ret effect next) :
    Sound setup ((crew setup).settle c ((crew setup).resumed t operation ret next) effect) := by
  constructor
  case distinct => exact distinct_settle (crew setup) c _ effect sound.distinct
  case orderly =>
    exact orderly_settle (crew setup) c t operation ret effect next choice calls sound.orderly
      (did_possible setup c.state.store sound.keyed (retold t) _ c.state rfl operation ret effect
        called.did) fun spec _ => main_keeps setup spec
  case keyed =>
    exact did_store setup Keyed (fun store operation keyed => keyed_call store keyed operation)
      (fun _ _ _ _ keyed => ⟨keyed.nodup, keyed.listed⟩) (retold t) _ c.state operation ret effect
      called.did sound.keyed
  case listed =>
    exact did_store setup Listed (fun store operation listed => listed_call store operation listed)
      (fun _ _ _ _ listed => listed) (retold t) _ c.state operation ret effect called.did sound.listed
  case kinds => exact called.kinds sound
  case free => exact called.free sound
  case owned => exact called.owned sound

theorem covered_settle (left : Left) (c : Crew) (sound : Sound setup c) (covered : Covered left c)
    (t : Hand) (operation : Op) (ret : Ret operation) (effect : Effect World Spec)
    (next : Ret operation → Program Unit) (answer : Answer)
    (performed : perform setup c.state t (Machine.live c) operation answer = some (ret, effect))
    (called : Called setup c t operation ret effect next)
    (later : Sound setup ((crew setup).settle c ((crew setup).resumed t operation ret next) effect)) :
    Covered (heed t operation answer c
        ((crew setup).settle c ((crew setup).resumed t operation ret next) effect) left)
      ((crew setup).settle c ((crew setup).resumed t operation ret next) effect) := by
  intro up relpath row found taken
  have opened : isOpen ((crew setup).settle c ((crew setup).resumed t operation ret next) effect)
      relpath = true := by
    rw [isOpen, found]
    exact taken
  have left_of : (left relpath || strands t c relpath operation answer) = true →
      heed t operation answer c
        ((crew setup).settle c ((crew setup).resumed t operation ret next) effect) left relpath =
          true := by
    intro is
    rw [heed, is, opened]
    rfl
  have mine : (learn t.notes operation ret).holds relpath row.state = true →
      Held ((crew setup).settle c ((crew setup).resumed t operation ret next) effect) relpath
        row.state := by
    intro holds
    obtain ⟨v, hv, still⟩ := called.goes_on fun finished => by
      rw [finished_holds_nothing _ finished] at holds
      cases holds
    apply held_of_holds setup _ later v hv
    rw [still.notes]
    exact holds
  rcases called.origin relpath row found taken with ⟨before, here, same⟩ | holds
  · have was : inHand before.state = true := by
      rw [same]
      exact taken
    have wasUp : c.state.up = true := by
      rw [← did_up setup _ _ _ _ _ _ called.did]
      exact up
    rcases covered wasUp relpath before here was with gone | ⟨u, hu, alive, holds⟩
    · refine Or.inl (left_of ?_)
      rw [gone]
      rfl
    · by_cases caller : u.id = t.id
      · obtain rfl := eq_of_same_id c sound.distinct u t hu called.member caller
        rcases called.keeps_hold sound answer performed relpath before row here was holds found
          same.symm with still | strand | ⟨item, now, started, named⟩
        · exact Or.inr (mine (same ▸ still))
        · refine Or.inl (left_of ?_)
          rw [strand, Bool.or_true]
        · obtain ⟨new, hnew, spec⟩ := spawned_of_mem (crew setup) c.next _ _ started
          obtain ⟨v, hv, again⟩ := spawned_stays (crew setup) c
            ((crew setup).resumed u operation ret next) new effect hnew
          refine Or.inr (held_of_holds setup _ later v hv relpath row.state ?_)
          obtain ⟨_, _, _, _, notes, _⟩ := mem_spawn_from (crew setup) _ _ new hnew
          rw [again.notes, notes, spec]
          show (true && decide (item.relpath = relpath)) = true
          rw [decide_eq_true named]
          rfl
      · obtain ⟨v, hv, again⟩ := other_stays (crew setup) c
          ((crew setup).resumed t operation ret next) u hu caller effect fun gone => by
            rw [called.gone u.id u.spec u.notes (sound.kinds u hu) gone] at holds
            cases holds
        refine Or.inr (held_of_holds setup _ later v hv relpath row.state ?_)
        rw [again.notes, ← same]
        exact holds
  · exact Or.inr (mine holds)

/-! ### Kills and events -/

theorem sound_without (c : Crew) (sound : Sound setup c) (id : Nat)
    (killed : ∃ t ∈ c.threads, t.id = id ∧ t.aborted = true) :
    Sound setup ((crew setup).without c id) := by
  have ticks : ∀ u ∈ c.threads, ∀ owner item now, u.spec = .item owner item now →
      ∃ v ∈ ((crew setup).without c id).threads, v.id = owner ∧
        ∃ hand batch, v.notes = .tick hand batch true ∧ item.relpath ∈ batch ∧
          (u.aborted = true → item.relpath ∈ hand) := by
    intro u hu own item now spec
    obtain ⟨holder, hholder, same, hand, batch, notes, listed, back⟩ :=
      sound.owned u hu own item now spec
    have fit := sound.kinds holder hholder
    have alive : holder.aborted = false := by
      apply sound.free holder hholder
      rw [notes] at fit
      cases spec : holder.spec with
      | tick now ignoreWindow redriveCleanup fuel => rfl
      | _ =>
          rw [spec] at fit
          cases fit
    have other := apart_of_killed c sound.distinct id killed holder hholder alive
    obtain ⟨v, hv, still⟩ := spared_stays (crew setup) c id holder hholder other
    exact ⟨v, hv, still.id.trans same, hand, batch, still.notes.trans notes, listed, back⟩
  constructor
  case distinct => exact distinct_without (crew setup) c id sound.distinct
  case orderly => exact orderly_without (crew setup) c id sound.orderly
  case keyed => exact sound.keyed
  case listed => exact sound.listed
  case kinds => exact all_without (crew setup) (fun spec n => fits spec n = true) c id sound.kinds
  case free =>
    intro u hu unowned
    exact sound.free u (List.mem_filter.mp (unowned_orphan (crew setup) _ u hu unowned)).1 unowned
  case owned =>
    intro u hu own item now spec
    obtain ⟨before, hbefore, same, was⟩ := aborted_orphan (crew setup) _ u hu
    obtain ⟨v, hv, hid, hand, batch, notes, listed, back⟩ :=
      ticks before (List.mem_filter.mp hbefore).1 own item now (same.spec.symm.trans spec)
    refine ⟨v, hv, hid, hand, batch, notes, listed, fun aborted => ?_⟩
    rcases was aborted with gone | ⟨other, named, alone⟩
    · exact back gone
    · rw [spec] at named
      cases named
      exact absurd hid (alone v hv)

theorem reacts (live : List Spec) (world : World) (event : Event) (reaction : Reaction World Spec)
    (reacted : react world live event = some reaction) :
    reaction.state.store = world.store ∧
      ∀ spec ∈ reaction.spawned, owner spec = none := by
  obtain ⟨store, _, spawned⟩ := react_base live world event reaction reacted
  refine ⟨store, fun spec hspec => ?_⟩
  cases spec with
  | item own item now => rcases spawned _ hspec with other | other <;> cases other
  | attempt own ctx => rcases spawned _ hspec with other | other <;> cases other
  | _ => rfl

theorem sound_absorb (c : Crew) (sound : Sound setup c) (event : Event)
    (reaction : Reaction World Spec)
    (reacted : react c.state (Machine.live c) event = some reaction) :
    Sound setup ((crew setup).absorb c reaction) := by
  obtain ⟨store, unowned⟩ := reacts _ _ event reaction reacted
  constructor
  case distinct => exact distinct_absorb (crew setup) c reaction sound.distinct
  case orderly =>
    exact orderly_absorb (crew setup) c reaction sound.orderly fun spec _ => main_keeps setup spec
  case keyed =>
    show Keyed reaction.state.store
    rw [store]
    exact sound.keyed
  case listed =>
    show Listed reaction.state.store
    rw [store]
    exact sound.listed
  case kinds =>
    exact all_absorb (crew setup) (fun spec n => fits spec n = true) c reaction sound.kinds
      fun spec _ => fits_start spec
  case free =>
    intro u hu nobody
    rcases List.mem_append.mp (unowned_orphan (crew setup) _ u hu nobody) with old | new
    · split at old
      · cases old
      · exact sound.free u old nobody
    · exact (mem_spawn_from (crew setup) _ _ u new).2.2.2.1
  case owned =>
    intro u hu own item now spec
    obtain ⟨before, hbefore, same, cause⟩ := aborted_orphan (crew setup) _ u hu
    rcases List.mem_append.mp hbefore with old | new
    · cases stops : reaction.stops with
      | true =>
          rw [stops] at old
          cases old
      | false =>
          rw [stops] at old
          obtain ⟨holder, hholder, sameId, hand, batch, notes, listed, back⟩ :=
            sound.owned before old own item now (same.spec.symm.trans spec)
          obtain ⟨v, hv, still⟩ := absorbed_stays (crew setup) c reaction stops holder hholder
          refine ⟨v, hv, still.id.trans sameId, hand, batch, still.notes.trans notes, listed,
            fun aborted => ?_⟩
          rcases cause aborted with was | ⟨other, named, alone⟩
          · exact back was
          · rw [spec] at named
            cases named
            exact absurd (still.id.trans sameId) (alone v hv)
    · obtain ⟨spawned, _⟩ := mem_spawn_from (crew setup) _ _ before new
      have nobody := unowned before.spec spawned
      rw [← same.spec, spec] at nobody
      cases nobody

/-- Whoever has a row in hand has it in hand after what comes from outside, a crash apart. -/
theorem held_absorb (c : Crew) (reaction : Reaction World Spec) (going : reaction.stops = false)
    (later : Sound setup ((crew setup).absorb c reaction)) (relpath : String) (state : ItemState)
    (held : Held c relpath state) : Held ((crew setup).absorb c reaction) relpath state := by
  obtain ⟨u, hu, _, holds⟩ := held
  obtain ⟨v, hv, still⟩ := absorbed_stays (crew setup) c reaction going u hu
  apply held_of_holds setup _ later v hv
  rw [still.notes]
  exact holds

theorem covered_absorb (left : Left) (c : Crew) (sound : Sound setup c) (covered : Covered left c)
    (event : Event) (reaction : Reaction World Spec)
    (reacted : react c.state (Machine.live c) event = some reaction) :
    Covered (pass event c ((crew setup).absorb c reaction) left)
      ((crew setup).absorb c reaction) := by
  have later := sound_absorb setup c sound event reaction reacted
  obtain ⟨store, _⟩ := reacts _ _ event reaction reacted
  have stays : reaction.stops = false → reaction.state.up = c.state.up →
      Covered left ((crew setup).absorb c reaction) := by
    intro going same up relpath row found taken
    change reaction.state.store.items relpath = some row at found
    rw [store] at found
    rcases covered (same.symm.trans up) relpath row found taken with gone | held
    · exact Or.inl gone
    · exact Or.inr (held_absorb setup c reaction going later relpath row.state held)
  cases event with
  | crash =>
      cases reacted
      intro up
      cases up
  | boot now =>
      simp only [react] at reacted
      split at reacted
      · cases reacted
      · cases reacted
        intro _ relpath row found taken
        -- the recovery of the new process has listed nothing yet
        obtain ⟨new, hnew, spec⟩ := spawned_of_mem (crew setup) c.next [Spec.recover now] _
          (List.mem_singleton_self _)
        obtain ⟨v, hv, still⟩ := orphan_stays (crew setup) (c.threads ++
          (crew setup).spawnFrom c.next [.recover now]) new (List.mem_append_right _ hnew)
        obtain ⟨_, _, _, _, notes, _⟩ := mem_spawn_from (crew setup) _ _ new hnew
        refine Or.inr (held_of_holds setup _ later v hv relpath row.state ?_)
        rw [still.notes, notes, spec]
        rfl
  | periodic now fuel =>
      simp only [react] at reacted
      split at reacted
      · cases reacted
        exact stays rfl rfl
      · cases reacted
  | trigger now ignoreWindow fuel =>
      simp only [react] at reacted
      split at reacted
      · cases reacted
        exact stays rfl rfl
      · cases reacted
  | touch path node =>
      cases reacted
      exact stays rfl rfl
  | alter relpath label object =>
      cases reacted
      exact stays rfl rfl
  | setActive active =>
      cases reacted
      exact stays rfl rfl

theorem covered_without (left : Left) (c : Crew) (sound : Sound setup c) (covered : Covered left c)
    (id : Nat) (killed : ∃ t ∈ c.threads, t.id = id ∧ t.aborted = true) :
    Covered left ((crew setup).without c id) := by
  intro up relpath row found taken
  rcases covered up relpath row found taken with gone | ⟨u, hu, alive, holds⟩
  · exact Or.inl gone
  · have other := apart_of_killed c sound.distinct id killed u hu alive
    obtain ⟨v, hv, still⟩ := spared_stays (crew setup) c id u hu other
    refine Or.inr (held_of_holds setup _ (sound_without setup c sound id killed) v hv relpath
      row.state ?_)
    rw [still.notes]
    exact holds

theorem called_of (c : Crew) (sound : Sound setup c) (t : Hand) (operation : Op)
    (ret : Ret operation) (effect : Effect World Spec) (next : Ret operation → Program Unit)
    (choice : Choice Answer Event) (calls : Calls (crew setup) c t operation ret effect next choice) :
    Called setup c t operation ret effect next := by
  obtain ⟨answer, _, performed⟩ := calls.choice
  have did := did_retold setup t _ c.state operation answer ret effect performed
  have keeps := calls_keep (crew setup) c t operation ret effect next _ calls sound.orderly
  exact ⟨calls.member, keeps.1, keeps.2 ret (did_possible setup c.state.store sound.keyed (retold t) _
    c.state rfl operation ret effect did), did⟩

theorem covered_step (left : Left) (c after : Crew) (choice : Choice Answer Event)
    (holds : Sound setup c ∧ Covered left c) (stepped : (crew setup).step c choice = some after) :
    Sound setup after ∧ Covered (stranding.follow c choice after left) after := by
  obtain ⟨sound, covered⟩ := holds
  rcases step_cases (crew setup) c after choice stepped with
    ⟨t, operation, ret, effect, next, calls, rfl⟩ | ⟨id, rfl, killed, rfl⟩ |
    ⟨event, reaction, rfl, reacted, rfl⟩
  · have called := called_of setup c sound t operation ret effect next choice calls
    have later := sound_settle setup c sound t operation ret effect next choice calls called
    obtain ⟨answer, rfl, performed⟩ := calls.choice
    refine ⟨later, ?_⟩
    rw [follow_call nothingLeft heed pass c _ sound.distinct t calls.member operation next calls.prog
      answer left]
    exact covered_settle setup left c sound covered t operation ret effect next answer performed
      called later
  · exact ⟨sound_without setup c sound id killed, covered_without setup left c sound covered id killed⟩
  · exact ⟨sound_absorb setup c sound event reaction reacted,
      covered_absorb setup left c sound covered event reaction reacted⟩

/-! ## Every run -/

/-- An instance that has not been started, over any rows. -/
structure Stored (c : Crew) : Prop where
  threads : c.threads = []
  down : c.state.up = false
  keyed : Keyed c.state.store
  listed : Listed c.state.store

theorem covered_start (c : Crew) (stored : Stored c) :
    Sound setup c ∧ Covered nothingLeft c := by
  have nobody : ∀ t, t ∉ c.threads := by
    intro t
    rw [stored.threads]
    exact List.not_mem_nil
  constructor
  · constructor
    case distinct =>
      refine ⟨fun t ht => absurd ht (nobody t), ?_⟩
      rw [stored.threads]
      exact List.nodup_nil
    case orderly => exact fun t ht => absurd ht (nobody t)
    case keyed => exact stored.keyed
    case listed => exact stored.listed
    case kinds => exact fun t ht => absurd ht (nobody t)
    case free => exact fun t ht => absurd ht (nobody t)
    case owned => exact fun t ht => absurd ht (nobody t)
  · intro up
    rw [stored.down] at up
    cases up

/-- The threads that take rows out of their states. -/
def worksOn (relpath : String) : Spec → Bool
  | .recover _ | .tick _ _ _ _ => true
  | .item _ item _ => item.relpath = relpath
  | _ => false

theorem works_of_holds (c : Crew) (sound : Sound setup c) (t : Hand) (member : t ∈ c.threads)
    (relpath : String) (state : ItemState) (holds : t.notes.holds relpath state = true) :
    worksOn relpath t.spec = true := by
  have fit := sound.kinds t member
  cases notes : t.notes with
  | item own held =>
      rw [notes] at fit holds
      have both : held = true ∧ own = relpath := by simpa [Duty.holds] using holds
      cases spec : t.spec with
      | item owner item now =>
          rw [spec] at fit
          exact decide_eq_true ((of_decide_eq_true fit).symm.trans both.2)
      | _ =>
          rw [spec] at fit
          cases fit
  | aside =>
      rw [notes] at holds
      cases holds
  | _ =>
      rw [notes] at fit
      cases spec : t.spec with
      | recover now => rfl
      | tick now ignoreWindow redriveCleanup fuel => rfl
      | _ =>
          rw [spec] at fit
          cases fit

/-- The states from which a later tick takes a row up again. -/
def isTakenUp : ItemState → Bool
  | .ready | .failed | .cleanupPending | .cleanupFailed => true
  | _ => false

theorem taken_up_or_in_hand (state : ItemState) (live : state.isTerminal = false)
    (left : isTakenUp state = false) : inHand state = true := by
  revert live left
  cases state <;> decide

/-- Of a run in which any statements are refused, any attempts panic and any batches are closed:
every row of a running process that is not finished is in a state that a later tick takes up, or a
live thread of the process has it in hand, or it was left by the thread that had it in hand. -/
theorem nothing_stranded (left : Left) (c : Crew)
    (tracked : Tracked (crew setup) stranding Stored (fun _ _ _ => True) left c)
    (up : c.state.up = true) (relpath : String) (row : Row)
    (found : c.state.store.items relpath = some row) (live : row.state.isTerminal = false) :
    isTakenUp row.state = true ∨ left relpath = true ∨
      ∃ t ∈ c.threads, t.aborted = false ∧ worksOn relpath t.spec = true ∧
        t.notes.holds relpath row.state = true := by
  obtain ⟨sound, covered⟩ := invariant_of_tracked (crew setup) stranding Stored (fun _ _ _ => True)
    (fun left c => Sound setup c ∧ Covered left c) (covered_start setup)
    (fun left c after choice holds _ stepped => covered_step setup left c after choice holds stepped)
    left c tracked
  cases waits : isTakenUp row.state with
  | true => exact Or.inl rfl
  | false =>
      refine Or.inr ?_
      rcases covered up relpath row found (taken_up_or_in_hand row.state live waits) with
        gone | ⟨t, ht, alive, holds⟩
      · exact Or.inl gone
      · exact Or.inr ⟨t, ht, alive, works_of_holds setup c sound t ht relpath row.state holds, holds⟩

/-! ## An item that is left -/

def dutyStart : Crew := ⟨smallWorld oneFile, [], 0⟩

/-- A tick has claimed the file, and the item is at work on it. -/
def untilClaimed : List (Choice Answer Event) :=
  [.env (.boot 0)] ++ [0, 0].map (fun id => .run id .asIs) ++ [.env (.trigger 0 false 1)] ++
    [.asIs, .asIs, .found [⟨"a", 0, 0⟩], .asIs, .asIs, .asIs, .asIs,
      .scheduled (.windowed .pauseResume), .asIs, .asIs, .asIs].map (Choice.run 1)

/-- The item is refused its first statement, and the tick ends. -/
def untilLeft : List (Choice Answer Event) :=
  untilClaimed ++ [.run 2 (.refused "disk full")] ++
    [.asIs, .asIs].map (Choice.run 1)

def isClaimed (c : Crew) : Bool :=
  c.state.up && (c.state.store.items "a").any fun row => row.state = .inProgress

theorem duty_stored : Stored dutyStart :=
  ⟨rfl, rfl, ⟨List.nodup_nil, fun _ none => by cases none⟩, listed_empty "plant"⟩

theorem claimed_row (c : Crew) (claimed : isClaimed c = true) :
    c.state.up = true ∧ ∃ row, c.state.store.items "a" = some row ∧ row.state = .inProgress := by
  rw [isClaimed, Bool.and_eq_true] at claimed
  obtain ⟨row, found, state⟩ := (Option.any_eq_true _ _).mp claimed.2
  exact ⟨claimed.1, row, found, of_decide_eq_true state⟩

theorem nothing_stranded_claimed :
    ∃ left c row, Tracked (crew (smallSetup plainCompletion)) stranding Stored (fun _ _ _ => True)
        left c ∧ c.state.store.items "a" = some row ∧ row.state = .inProgress ∧ left "a" = false ∧
      ∃ t ∈ c.threads, t.aborted = false ∧ worksOn "a" t.spec = true ∧
        t.notes.holds "a" row.state = true := by
  obtain ⟨left, c, tracked, claimed⟩ := exists_of_tracked_run (crew (smallSetup plainCompletion))
    stranding Stored (fun _ _ _ => True) (fun _ _ _ => true) (fun _ _ _ _ => trivial)
    (fun left c => isClaimed c && !left "a") untilClaimed dutyStart duty_stored (by decide)
  rw [Bool.and_eq_true, Bool.not_eq_true'] at claimed
  obtain ⟨up, row, found, state⟩ := claimed_row c claimed.1
  refine ⟨left, c, row, tracked, found, state, claimed.2, ?_⟩
  rcases nothing_stranded (smallSetup plainCompletion) left c tracked up "a" row found
    (by rw [state]; rfl) with taken | gone | held
  · rw [state] at taken
    cases taken
  · rw [claimed.2] at gone
    cases gone
  · exact held

/-- A tick has ended, nothing is at work, and the row it has claimed is still claimed. -/
theorem claimed_row_left :
    ∃ left c row, Tracked (crew (smallSetup plainCompletion)) stranding Stored (fun _ _ _ => True)
        left c ∧ c.state.up = true ∧ c.threads = [] ∧ c.state.store.items "a" = some row ∧
      row.state = .inProgress := by
  obtain ⟨left, c, tracked, claimed⟩ := exists_of_tracked_run (crew (smallSetup plainCompletion))
    stranding Stored (fun _ _ _ => True) (fun _ _ _ => true) (fun _ _ _ _ => trivial)
    (fun _ c => isClaimed c && c.threads.isEmpty) untilLeft dutyStart duty_stored (by decide)
  rw [Bool.and_eq_true, List.isEmpty_iff] at claimed
  obtain ⟨up, row, found, state⟩ := claimed_row c claimed.1
  exact ⟨left, c, row, tracked, up, claimed.2, found, state⟩

end FileReplicator.DutyRuns
