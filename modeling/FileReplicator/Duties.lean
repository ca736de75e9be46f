import FileReplicator.TickCalls

/-!
# Who has a row in hand

A row that is claimed, verified or exhausted leaves its state by the thread that
has it in hand. What a thread has in hand, from its own calls: it lets go of a row
when it has put it into another state, or when one of its statements is refused.
-/

namespace FileReplicator.Duties

open Domain Effects Operations Worker Instance TickCalls

variable (setup : Setup)

/-! ## What a thread has in hand -/

inductive Duty where
  /-- A recovery that has listed nothing yet answers for every row. -/
  | unlisted
  /-- It has listed these rows, and has yet to list the exhausted ones. -/
  | sweeping (hand : List String)
  | exhausting (hand : List String)
  /-- A tick with the rows it has in hand, its last batch, and whether that is out. -/
  | tick (hand batch : List String) (out : Bool)
  | item (relpath : String) (held : Bool)
  | aside
  deriving DecidableEq

namespace Duty

def holds (relpath : String) (state : ItemState) : Duty → Bool
  | .unlisted => true
  | .sweeping hand => relpath ∈ hand || state = .exhausted
  | .exhausting hand | .tick hand _ _ => relpath ∈ hand
  | .item own held => held && own = relpath
  | .aside => false

def without (relpath : String) (hand : List String) : List String := hand.filter (· ≠ relpath)

/-- It lets go of the row; a tick lets go of nothing while its batch is out. -/
def drop (relpath : String) : Duty → Duty
  | .sweeping hand => .sweeping (without relpath hand)
  | .exhausting hand => .exhausting (without relpath hand)
  | .tick hand batch false => .tick (without relpath hand) batch false
  | .item own held => .item own (held && own ≠ relpath)
  | d => d

end Duty

def start : Spec → Duty
  | .recover _ => .unlisted
  | .tick _ _ _ _ => .tick [] [] false
  | .item _ item _ => .item item.relpath true
  | _ => .aside

/-- Claimed or verified: what recovery lists and a revert takes back. -/
def isMoving : ItemState → Bool
  | .inProgress | .verified => true
  | _ => false

def learnRow (d : Duty) (relpath : String) : Option WorkItem → Duty
  | some row => if isMoving row.state then d else d.drop relpath
  | none => d.drop relpath

def learnList (d : Duty) (rows : List WorkItem) : Duty :=
  match d with
  | .sweeping _ => .exhausting (rows.map WorkItem.relpath)
  | d => d

def learnClaim (d : Duty) (rows : List WorkItem) : Duty :=
  match d with
  | .tick _ batch out => .tick (rows.map WorkItem.relpath) batch out
  | d => d

def learnState (d : Duty) : Option (String × ItemState) → Duty
  | some (relpath, state) => if inHand state then d else d.drop relpath
  | none => d

def learnStatement (d : Duty) : (operation : StoreOp) → StoreRet operation → Duty
  | .claimReady _ _, rows => learnClaim d rows
  | .recoverIncomplete, rows =>
      .sweeping ((rows.filter fun it => isMoving it.state).map WorkItem.relpath)
  | .listByState _, rows => learnList d rows
  | .getRow relpath, row => learnRow d relpath row
  | operation, _ => learnState d (newState operation)

/-- A recovery goes on after these are refused. -/
def spares (hand : List String) : StoreOp → Bool
  | .saveResume _ _ _ | .clearResume _ _ | .clearResumeAll _ | .clearDestStates _ => true
  | .loadResume relpath _ => relpath ∉ hand
  | _ => false

def decides : StoreOp → Bool
  | .destStates _ | .setState _ _ _ | .rollUpItem _ _ _ _ _ _ | .bumpStats _ _ _ => true
  | _ => false

def learnRefused (d : Duty) (operation : StoreOp) : Duty :=
  match d with
  | .unlisted => .aside
  | .sweeping hand | .exhausting hand => if spares hand operation then d else .aside
  | .tick _ _ _ =>
      match rowOf (.store operation) with
      | some relpath => d.drop relpath
      | none => d
  | .item own held => .item own (held && !decides operation)
  | .aside => .aside

/-- An attempt that could not be recorded, or that has panicked, ends its item. -/
def learnJoined (d : Duty) : Option (Except String AttemptResult) → Duty
  | some (.error _) | some (.ok (.error _)) =>
      match d with
      | .item own _ => .item own false
      | d => d
  | _ => d

def learnBatch (d : Duty) (items : List WorkItem) : Duty :=
  match d with
  | .tick _ _ _ => .tick [] (items.map WorkItem.relpath) true
  | d => d

def learnEvent (d : Duty) : BatchEvent → Duty
  | .drained =>
      match d with
      | .tick hand batch _ => .tick hand batch false
      | d => d
  | .closed => d

def learnAborted : Duty → Duty
  | .tick _ batch out => .tick batch batch out
  | d => d

def learn (d : Duty) : (operation : Op) → Ret operation → Duty
  | .store operation, .ok ret => learnStatement d operation ret
  | .store operation, .error _ => learnRefused d operation
  | .joinAttempt, result => learnJoined d result
  | .spawnBatch items _, _ => learnBatch d items
  | .nextOfBatch _, event => learnEvent d event
  | .abortBatch, _ => learnAborted d
  | _, _ => d

def allowedStatement (d : Duty) : StoreOp → Prop
  | .claimReady _ _ => ∃ batch, d = .tick [] batch false
  | .recoverIncomplete => d = .unlisted
  | .listByState state =>
      match d with
      | .unlisted => False
      | .sweeping hand => state = .exhausted ∧ hand = []
      | _ => True
  | operation =>
      ∀ relpath state, newState operation = some (relpath, state) → inHand state = true →
        d = .item relpath true

def allowed (d : Duty) : Op → Prop
  | .store operation => allowedStatement d operation
  | .spawnBatch items _ => ∃ batch, d = .tick (items.map WorkItem.relpath) batch false
  | .nextOfBatch _ => ∃ hand batch, d = .tick hand batch true
  | .abortBatch => ∃ batch, d = .tick [] batch true
  | _ => True

/-- A row is found under its own name and listed once, and only a window closes. -/
def possible : (operation : Op) → Ret operation → Prop
  | .store (.getRow relpath), .ok (some row) => row.relpath = relpath
  | .store .recoverIncomplete, .ok rows => (rows.map WorkItem.relpath).Nodup
  | .store (.listByState _), .ok rows => (rows.map WorkItem.relpath).Nodup
  | .nextOfBatch closable, .closed => closable = true
  | _, _ => True

def duties : Discipline Op Ret Duty := ⟨allowed, possible, learn⟩

def Finished : Duty → Prop
  | .unlisted | .sweeping _ => False
  | .exhausting hand => hand = []
  | .tick hand _ out => hand = [] ∧ out = false
  | .item _ held => held = false
  | .aside => True

theorem without_absent (relpath : String) (hand : List String) (absent : relpath ∉ hand) :
    Duty.without relpath hand = hand :=
  List.filter_eq_self.mpr fun _ member =>
    decide_eq_true fun same => absent (same ▸ member)

theorem not_mem_without (relpath : String) (hand : List String) :
    relpath ∉ Duty.without relpath hand := by
  intro member
  have differs := (List.mem_filter.mp member).2
  simp at differs

theorem without_head (relpath : String) (rest : List String) (absent : relpath ∉ rest) :
    Duty.without relpath (relpath :: rest) = rest := by
  rw [Duty.without, List.filter_cons_of_neg (by simp)]
  exact without_absent relpath rest absent

theorem drop_own (relpath : String) (held : Bool) :
    (Duty.item relpath held).drop relpath = .item relpath false := by
  simp [Duty.drop]

theorem drop_twice (relpath : String) (d : Duty) : (d.drop relpath).drop relpath = d.drop relpath := by
  have none : ∀ hand, Duty.without relpath (Duty.without relpath hand) = Duty.without relpath hand :=
    fun hand => without_absent relpath _ (not_mem_without relpath hand)
  cases d with
  | item own held => simp [Duty.drop]
  | tick hand batch out => cases out <;> simp only [Duty.drop, none]
  | _ => simp only [Duty.drop, none]

inductive Loose : Duty → Prop where
  | tick (hand batch : List String) (out : Bool) : Loose (.tick hand batch out)
  | item (own : String) : Loose (.item own false)

/-- Plain calls about rows that it does not have in hand change nothing for it. -/
theorem plain_learns (d : Duty) (loose : Loose d) (operation : Op) (ret : Ret operation)
    (is : isPlain operation = true)
    (apart : ∀ relpath, rowOf operation = some relpath → d.drop relpath = d) :
    learn d operation ret = d := by
  have listed : ∀ rows, learnList d rows = d := by
    intro rows
    cases loose <;> rfl
  have refused : ∀ operation, (∀ relpath, rowOf (.store operation) = some relpath → d.drop relpath = d) →
      learnRefused d operation = d := by
    intro operation apart
    cases loose with
    | tick hand batch out =>
        simp only [learnRefused]
        split
        · rename_i relpath row
          exact apart relpath row
        · rfl
    | item own => rfl
  cases operation with
  | store operation =>
      cases ret with
      | error e => exact refused operation apart
      | ok ret =>
          cases operation with
          | claimReady limit now => cases is
          | recoverIncomplete => cases is
          | destStates relpath => cases is
          | listByState state => exact listed ret
          | getRow relpath =>
              have same := apart relpath rfl
              cases ret with
              | none => exact same
              | some row =>
                  show (if isMoving row.state then d else d.drop relpath) = d
                  rw [same, ite_self]
          | setState relpath state now =>
              show (if inHand state then d else d.drop relpath) = d
              rw [apart relpath rfl, ite_self]
          | rollUpItem relpath state attempts gate error now =>
              show (if inHand state then d else d.drop relpath) = d
              rw [apart relpath rfl, ite_self]
          | recordCleanupAttempt relpath error state gate now =>
              show (if inHand state then d else d.drop relpath) = d
              rw [apart relpath rfl, ite_self]
          | _ => rfl
  | spawnBatch items now => cases is
  | nextOfBatch closable => cases is
  | abortBatch => cases is
  | joinAttempt => cases is
  | _ => rfl

theorem plain_allowed (d : Duty) (loose : Loose d) (operation : Op) (is : isPlain operation = true) :
    allowed d operation := by
  have rows : ∀ operation, isPlain (.store operation) = true → ∀ relpath state,
      newState operation = some (relpath, state) → inHand state = true → d = .item relpath true := by
    intro operation is relpath state changes taken
    cases operation with
    | setState _ _ _ | rollUpItem _ _ _ _ _ _ | recordCleanupAttempt _ _ _ _ _ =>
        cases changes
        have aside : (!inHand state) = true := is
        rw [taken] at aside
        cases aside
    | _ => cases changes
  cases operation with
  | store operation =>
      cases operation with
      | claimReady limit now => cases is
      | recoverIncomplete => cases is
      | listByState state => cases loose <;> exact trivial
      | _ => exact rows _ is
  | spawnBatch items now => cases is
  | nextOfBatch closable => cases is
  | abortBatch => cases is
  | _ => exact trivial

theorem plain_keeps {α : Type} (mine : String → Prop) (d : Duty) (loose : Loose d)
    (apart : ∀ relpath, mine relpath → d.drop relpath = d) (program : Program α)
    (plain : Plain mine program) : Keeps duties program d fun _ after => after = d :=
  keeps_within duties _ program d (fun operation is => ⟨plain_allowed d loose operation is.1,
    fun ret _ => plain_learns d loose operation ret is.1 fun relpath row => apart relpath (is.2 relpath row)⟩)
    plain

/-- How a thread that has the row in hand takes a refused statement of its reverification. -/
structure Fails (d fail : Duty) (relpath : String) : Prop where
  load : ∀ label, learnRefused d (.loadResume relpath label) = fail
  phase : ∀ label phase, learnRefused d (.setDestPhase relpath label phase) = fail
  clear : ∀ label, learnRefused d (.clearResume relpath label) = d

theorem no_state (operation : StoreOp) (none : newState operation = none) (d : Duty) (relpath : String)
    (state : ItemState) (changes : newState operation = some (relpath, state)) (_ : inHand state = true) :
    d = .item relpath true := by
  rw [none] at changes
  cases changes

theorem reverify_keeps (d fail : Duty) (it : WorkItem) (label : String) (fails : Fails d fail it.relpath) :
    Keeps duties (reverifyOneDest it label).run d fun result after =>
      match result with
      | .ok _ => after = d
      | .error _ => after = fail := by
  rw [reverifyOneDest]
  apply keeps_task_bind
  refine ⟨no_state _ rfl d, fun loaded _ => ?_⟩
  cases loaded with
  | error e => exact fails.load label
  | ok resume =>
      apply keeps_task_bind
      apply keeps_always
      refine ⟨trivial, fun verdict _ => ?_⟩
      cases verdict with
      | ok passed =>
          refine ⟨no_state _ rfl d, fun result _ => ?_⟩
          cases result with
          | error e => exact fails.phase label .verified
          | ok done => rfl
      | error e =>
          refine ⟨no_state _ rfl d, fun result _ => ?_⟩
          cases result with
          | error e => exact fails.phase label .pending
          | ok done =>
              refine ⟨no_state _ rfl d, fun cleared _ => ?_⟩
              cases cleared with
              | error e => exact fails.clear label
              | ok done => rfl

theorem reverify_each_keeps (d fail : Duty) (it : WorkItem) (labels : List String)
    (fails : Fails d fail it.relpath) :
    Keeps duties (reverifyEach it labels).run d fun result after =>
      match result with
      | .ok _ => after = d
      | .error _ => after = fail := by
  induction labels with
  | nil => rfl
  | cons label rest ih =>
      rw [reverifyEach]
      apply keeps_task_bind
      apply keeps_mono _ _ _ _ _ (reverify_keeps d fail it label fails)
      intro result after holds
      cases result with
      | error e => exact holds
      | ok ok =>
          obtain rfl : after = d := holds
          apply keeps_task_bind
          apply keeps_mono _ _ _ _ _ ih
          intro result after holds
          cases result with
          | error e => exact holds
          | ok others => exact holds

/-- The mark of a cleanup lets go of the row, whichever way it ends; the rest is plain. -/
theorem cleanup_keeps (d : Duty) (it : WorkItem) (now : Int) (loose : Loose (d.drop it.relpath))
    (refused : learnRefused d (.setState it.relpath .cleanupPending now) = d.drop it.relpath) :
    Keeps duties (runCleanup setup it now).run d fun _ after => after = d.drop it.relpath := by
  have plain := plain_of_tidy _ _ (tidy_cleanup setup (fun relpath => relpath = it.relpath) it rfl now)
  refine ⟨fun relpath state changes taken => ?_, fun result _ => ?_⟩
  · cases changes
    cases taken
  · have learned : learn d (.store (.setState it.relpath .cleanupPending now)) result =
        d.drop it.relpath := by
      cases result with
      | error e => exact refused
      | ok done => rfl
    show Keeps duties _ (learn d _ result) _
    rw [learned]
    refine plain_keeps (fun relpath => relpath = it.relpath) _ loose ?_ _ (plain.2 result)
    rintro relpath rfl
    exact drop_twice it.relpath d

/-! ## An item -/

theorem join_all_keeps (relpath : String) (left : Nat) (tally : Tally) :
    Keeps duties (joinAll left tally).run (.item relpath true) fun result after =>
      match result with
      | .ok _ => after = .item relpath true
      | .error _ => after = .item relpath false := by
  induction left generalizing tally with
  | zero => rfl
  | succ left ih =>
      rw [joinAll]
      apply keeps_task_bind
      apply keeps_always
      refine ⟨trivial, fun result _ => ?_⟩
      cases result with
      | none => rfl
      | some result =>
          cases result with
          | error text => rfl
          | ok reported =>
              cases reported with
              | error e => rfl
              | ok outcome => exact ih _

theorem load_keeps (own relpath label : String)
    (post : Except ReplError (Option ResumeState) → Duty → Prop)
    (holds : ∀ loaded, post loaded (.item own true)) :
    Keeps duties (loadResume relpath label).run (.item own true) post := by
  refine ⟨no_state _ rfl _, fun loaded _ => ?_⟩
  cases loaded with
  | error e => exact holds (.error e)
  | ok resume => exact holds (.ok resume)

theorem clear_keeps (own relpath label : String) (post : Unit → Duty → Prop)
    (holds : post () (.item own true)) :
    Keeps duties (bestEffort (clearResume relpath label)) (.item own true) post := by
  refine ⟨no_state _ rfl _, fun result _ => ?_⟩
  cases result with
  | error e => exact holds
  | ok done => exact holds

theorem abort_each_keeps (own : String) (item : WorkItem) (labels : List String) :
    Keeps duties (abortEach item labels) (.item own true) fun _ after => after = .item own true := by
  induction labels with
  | nil => rfl
  | cons label rest ih =>
      rw [abortEach, abortAndClearResume]
      apply keeps_bind
      apply keeps_bind
      apply load_keeps
      intro loaded
      have cleared : Keeps duties (bestEffort (clearResume item.relpath label)) (.item own true)
          fun _ after => Keeps duties (abortEach item rest) after fun _ after => after = .item own true :=
        clear_keeps own item.relpath label _ ih
      apply keeps_bind
      unfold abortLoaded
      split
      · exact ⟨trivial, fun _ _ => cleared⟩
      · exact cleared

/-- A row that is put into another state is out of the hand of its item, even if the statement is
refused. -/
theorem leave_keeps (it : WorkItem) (operation : StoreOp) (state : ItemState)
    (changes : newState operation = some (it.relpath, state)) (leaves : inHand state = false)
    (result : Except ReplError (StoreRet operation)) (decisive : decides operation = true)
    (ordinary : ∀ ret, learnStatement (.item it.relpath true) operation ret =
      learnState (.item it.relpath true) (newState operation)) :
    learn (.item it.relpath true) (.store operation) result = .item it.relpath false := by
  cases result with
  | error e =>
      show Duty.item it.relpath (true && !decides operation) = _
      rw [decisive]
      rfl
  | ok ret =>
      show learnStatement (.item it.relpath true) operation ret = _
      rw [ordinary ret, changes]
      show (if inHand state then Duty.item it.relpath true else _) = _
      rw [leaves]
      exact drop_own it.relpath true

theorem count_keeps (own : String) (newly : Bool) :
    Keeps duties (countFailure newly).run (.item own true) fun result after =>
      match result with
      | .ok _ => after = .item own true
      | .error _ => after = .item own false := by
  cases newly with
  | false => rfl
  | true =>
      refine ⟨no_state _ rfl _, fun result _ => ?_⟩
      cases result <;> rfl

theorem finish_exhausted_keeps (item : WorkItem) (lastError : String) (attempts : Nat) (now : Int) :
    Keeps duties (finishExhausted setup item lastError attempts now).run (.item item.relpath true)
      fun _ after => after = .item item.relpath false := by
  unfold finishExhausted
  split
  · refine ⟨fun relpath state changes taken => (by cases changes; cases taken), fun result _ => ?_⟩
    have left := leave_keeps item (.setState item.relpath .retained now) .retained rfl rfl result rfl
      fun _ => rfl
    cases result with
    | error e => exact left
    | ok done => exact left
  · apply keeps_task_bind
    apply keeps_always
    refine ⟨trivial, fun handle _ => ?_⟩
    apply keeps_task_bind
    apply keeps_always
    refine ⟨trivial, fun moved _ => ?_⟩
    refine ⟨fun relpath state changes taken => (by cases changes; cases taken), fun result _ => ?_⟩
    have left := leave_keeps item (.setState item.relpath .quarantined now) .quarantined rfl rfl result
      rfl fun _ => rfl
    cases result with
    | error e => exact left
    | ok done => exact ⟨trivial, fun _ _ => left⟩

theorem exhaust_keeps (item : WorkItem) (existing : String → Option DestState) (now : Int)
    (tally : Tally) :
    Keeps duties (exhaustItem setup item existing now tally).run (.item item.relpath true)
      fun _ after => after = .item item.relpath false := by
  rw [exhaustItem]
  apply keeps_task_bind
  apply keeps_always
  apply keeps_mono _ _ _ _ _ (abort_each_keeps item.relpath item _)
  rintro _ _ rfl
  apply keeps_task_bind
  refine ⟨fun relpath state changes taken => (by cases changes; rfl), fun result _ => ?_⟩
  cases result with
  | error e => rfl
  | ok done =>
      apply keeps_task_bind
      apply keeps_mono _ _ _ _ _ (count_keeps item.relpath _)
      intro result after holds
      cases result with
      | error e => exact holds
      | ok done =>
          obtain rfl : after = .item item.relpath true := holds
          exact finish_exhausted_keeps setup item _ _ now

theorem retry_keeps (item : WorkItem) (existing : String → Option DestState) (now : Int)
    (tally : Tally) :
    Keeps duties (retryItem setup item existing now tally).run (.item item.relpath true)
      fun _ after => after = .item item.relpath false := by
  refine ⟨fun relpath state changes taken => (by cases changes; cases taken), fun result _ => ?_⟩
  have left := leave_keeps item (.rollUpItem item.relpath .failed _ _ _ now) .failed rfl rfl result rfl
    fun _ => rfl
  cases result with
  | error e => exact left
  | ok done => exact left

theorem complete_keeps (item : WorkItem) (now : Int) :
    Keeps duties (completeItem setup item now).run (.item item.relpath true)
      fun _ after => after = .item item.relpath false := by
  rw [completeItem]
  apply keeps_task_bind
  refine ⟨fun relpath state changes taken => (by cases changes; rfl), fun result _ => ?_⟩
  cases result with
  | error e => rfl
  | ok done =>
      have let_go : (Duty.item item.relpath true).drop item.relpath = .item item.relpath false :=
        drop_own item.relpath true
      have cleans := cleanup_keeps setup (.item item.relpath true) item now
        (by rw [let_go]; exact .item _) (by rw [let_go]; rfl)
      rw [let_go] at cleans
      exact cleans

theorem process_keeps (item : WorkItem) (now : Int) :
    Keeps duties (processItem setup item now) (.item item.relpath true)
      fun _ after => after = .item item.relpath false := by
  rw [processItem, runPipeline]
  apply keeps_best_effort
  apply keeps_task_bind
  refine ⟨no_state _ rfl _, fun result _ => ?_⟩
  cases result with
  | error e => rfl
  | ok existing =>
      apply keeps_task_bind
      rw [fanOut]
      apply keeps_task_bind
      apply keeps_always
      refine ⟨trivial, fun _ _ => ?_⟩
      apply keeps_mono _ _ _ _ _ (join_all_keeps item.relpath _ _)
      intro result after holds
      cases result with
      | error e => exact holds
      | ok tally =>
          obtain rfl : after = .item item.relpath true := holds
          show Keeps duties (conclude setup item existing now tally).run _ _
          unfold conclude
          split
          · exact exhaust_keeps setup item existing now tally
          · split
            · exact complete_keeps setup item now
            · exact retry_keeps setup item existing now tally

/-! ## A tick -/

theorem ready_keeps (hand batch : List String) (relpath : String) (now : Int)
    (post : Except ReplError Unit → Duty → Prop)
    (holds : ∀ result, post result ((Duty.tick hand batch false).drop relpath)) :
    Keeps duties (setState relpath .ready now).run (.tick hand batch false) post := by
  refine ⟨fun relpath state changes taken => (by cases changes; cases taken), fun result _ => ?_⟩
  cases result with
  | error e => exact holds (.error e)
  | ok done => exact holds (.ok done)

theorem fails_tick (hand batch : List String) (relpath : String) :
    Fails (.tick hand batch false) ((Duty.tick hand batch false).drop relpath) relpath :=
  ⟨fun _ => rfl, fun _ _ => rfl, fun _ => rfl⟩

theorem recover_verified_keeps (hand batch : List String) (it : WorkItem) (now : Int) :
    Keeps duties (recoverVerified setup it now).run (.tick hand batch false) fun _ after =>
      after = (Duty.tick hand batch false).drop it.relpath := by
  rw [recoverVerified]
  apply keeps_task_bind
  apply keeps_mono _ _ _ _ _ (reverify_each_keeps _ _ it _ (fails_tick hand batch it.relpath))
  intro result after holds
  cases result with
  | error e => exact holds
  | ok ok =>
      obtain rfl : after = .tick hand batch false := holds
      cases ok with
      | true =>
          apply keeps_task_bind
          apply keeps_mono _ _ _ _ _
            (cleanup_keeps setup (.tick hand batch false) it now (.tick _ _ _) rfl)
          intro result after holds
          cases result with
          | error e => exact holds
          | ok state => exact holds
      | false => exact ready_keeps hand batch it.relpath now _ fun _ => rfl

theorem revert_keeps (hand batch : List String) (relpath : String) (now : Int) :
    Keeps duties ((getRow relpath).run >>= revertLoaded setup now) (.tick hand batch false)
      fun _ after => after = (Duty.tick hand batch false).drop relpath := by
  apply keeps_bind
  refine ⟨no_state _ rfl _, fun found same => ?_⟩
  cases found with
  | error e => rfl
  | ok loaded =>
      cases loaded with
      | none => rfl
      | some row =>
          obtain rfl : row.relpath = relpath := same
          show Keeps duties (revertRow setup now row)
            (if isMoving row.state then Duty.tick hand batch false
              else (Duty.tick hand batch false).drop row.relpath) _
          unfold revertRow
          cases state : row.state with
          | inProgress =>
              apply keeps_best_effort
              exact ready_keeps hand batch row.relpath now _ fun _ => rfl
          | verified =>
              apply keeps_best_effort
              exact recover_verified_keeps setup hand batch row now
          | cleanupPending =>
              apply keeps_best_effort
              have cleans := cleanup_keeps setup ((Duty.tick hand batch false).drop row.relpath) row now
                (.tick _ _ _) rfl
              rw [drop_twice] at cleans
              exact cleans
          | _ => rfl

theorem pause_revert_keeps (relpaths hand batch : List String) (now : Int) (all : hand ⊆ relpaths) :
    Keeps duties (pauseRevert setup now relpaths) (.tick hand batch false) fun _ after =>
      after = .tick [] batch false := by
  induction relpaths generalizing hand with
  | nil =>
      obtain rfl := List.subset_nil.mp all
      rfl
  | cons relpath rest ih =>
      have left : Duty.without relpath hand ⊆ rest := by
        intro other member
        obtain ⟨listed, differs⟩ := List.mem_filter.mp member
        rcases List.mem_cons.mp (all listed) with rfl | later
        · simp at differs
        · exact later
      have split : pauseRevert setup now (relpath :: rest) =
          (((getRow relpath).run >>= revertLoaded setup now) >>= fun _ => pauseRevert setup now rest) := by
        rw [Prog.bind_assoc]
        rfl
      rw [split]
      apply keeps_bind
      apply keeps_mono _ _ _ _ _ (revert_keeps setup hand batch relpath now)
      rintro _ _ rfl
      exact ih _ left

def Idle (d : Duty) : Prop := ∃ batch, d = .tick [] batch false

theorem plain_idle {α : Type} (program : Program α) (plain : Plain (fun _ => True) program) (d : Duty)
    (idle : Idle d) : Keeps duties program d fun _ after => Idle after := by
  obtain ⟨batch, rfl⟩ := idle
  apply keeps_mono _ _ _ _ _ (plain_keeps (fun _ => True) (.tick [] batch false) (.tick _ _ _)
    (fun _ _ => rfl) program plain)
  rintro _ _ rfl
  exact ⟨batch, rfl⟩

theorem spawn_keeps (items : List WorkItem) (batch : List String) (now : Int)
    (post : Unit → Duty → Prop) (holds : post () (.tick [] (items.map WorkItem.relpath) true)) :
    Keeps duties (spawnBatch items now) (.tick (items.map WorkItem.relpath) batch false) post :=
  ⟨⟨batch, rfl⟩, fun _ _ => holds⟩

theorem drain_keeps (hand batch : List String) (post : BatchEvent → Duty → Prop)
    (holds : post .drained (.tick hand batch false)) :
    Keeps duties (nextOfBatch false) (.tick hand batch true) post := by
  refine ⟨⟨hand, batch, rfl⟩, fun event only => ?_⟩
  cases event with
  | drained => exact holds
  | closed => cases only

theorem claim_keeps (limit : Nat) (now : Int) (d : Duty) (idle : Idle d)
    (post : Except ReplError (List WorkItem) → Duty → Prop)
    (refused : ∀ e, post (.error e) d)
    (taken : ∀ items batch, post (.ok items) (.tick (items.map WorkItem.relpath) batch false)) :
    Keeps duties (claimReady limit now).run d post := by
  obtain ⟨batch, rfl⟩ := idle
  refine ⟨⟨batch, rfl⟩, fun result _ => ?_⟩
  cases result with
  | error e => exact refused e
  | ok items => exact taken items batch

theorem run_batch_keeps (items : List WorkItem) (batch : List String) (now : Int) :
    Keeps duties (runBatch items now) (.tick (items.map WorkItem.relpath) batch false)
      fun _ after => Idle after := by
  rw [runBatch]
  apply keeps_bind
  apply spawn_keeps
  apply keeps_bind
  apply drain_keeps
  exact ⟨_, rfl⟩

theorem run_admitted_keeps (drain : Bool) (now : Int) (fuel : Nat) (d : Duty) (idle : Idle d) :
    Keeps duties (runAdmitted setup drain now fuel) d fun _ after => Idle after := by
  induction fuel generalizing d with
  | zero => exact idle
  | succ fuel ih =>
      rw [runAdmitted]
      apply keeps_bind
      apply claim_keeps _ _ _ idle
      · exact fun e => idle
      · intro items batch
        cases items with
        | nil => exact ⟨batch, rfl⟩
        | cons item rest =>
            apply keeps_bind
            apply keeps_mono _ _ _ _ _ (run_batch_keeps (item :: rest) batch now)
            intro _ after still
            split
            · exact ih after still
            · exact still

theorem close_batch_keeps (items : List WorkItem) (now : Int) (onClose : WindowClose) :
    Keeps duties (closeBatch setup items now onClose) (.tick [] (items.map WorkItem.relpath) true)
      fun _ after => Idle after := by
  unfold closeBatch
  split
  · apply keeps_bind
    refine ⟨⟨_, rfl⟩, fun _ _ => ?_⟩
    apply keeps_bind
    apply drain_keeps
    apply keeps_mono _ _ _ _ _
      (pause_revert_keeps setup (items.map WorkItem.relpath) _ _ now (List.Subset.refl _))
    rintro _ _ rfl
    exact ⟨_, rfl⟩
  · apply keeps_bind
    apply drain_keeps
    exact ⟨_, rfl⟩

theorem run_windowed_keeps (onClose : WindowClose) (now : Int) (fuel : Nat) (d : Duty) (idle : Idle d) :
    Keeps duties (runWindowed setup onClose now fuel) d fun _ after => Idle after := by
  induction fuel generalizing d with
  | zero => exact idle
  | succ fuel ih =>
      rw [runWindowed]
      apply keeps_bind
      refine ⟨trivial, fun passed _ => ?_⟩
      cases passed with
      | true => exact idle
      | false =>
          apply keeps_bind
          apply claim_keeps _ _ _ idle
          · exact fun e => idle
          · intro items batch
            cases items with
            | nil => exact ⟨batch, rfl⟩
            | cons item rest =>
                apply keeps_bind
                rw [runBatchWindowed]
                apply keeps_bind
                apply spawn_keeps
                apply keeps_bind
                refine ⟨⟨_, _, rfl⟩, fun event _ => ?_⟩
                cases event with
                | drained => exact ih _ ⟨_, rfl⟩
                | closed =>
                    apply keeps_bind
                    apply keeps_mono _ _ _ _ _ (close_batch_keeps setup (item :: rest) now onClose)
                    exact fun _ after still => still

theorem tick_keeps (now : Int) (ignoreWindow redriveCleanup : Bool) (fuel : Nat) :
    Keeps duties (runTick setup now ignoreWindow redriveCleanup fuel) (.tick [] [] false)
      fun _ after => Idle after := by
  rw [runTick]
  apply keeps_bind
  refine ⟨trivial, fun active _ => ?_⟩
  cases active with
  | false => exact ⟨[], rfl⟩
  | true =>
      show Keeps duties (tickBody setup now ignoreWindow redriveCleanup fuel) _ _
      rw [tickBody]
      apply keeps_bind
      refine ⟨trivial, fun _ _ => ?_⟩
      apply keeps_bind
      refine ⟨trivial, fun ready _ => ?_⟩
      apply keeps_bind
      apply keeps_mono _ _ _ _ _ (plain_idle _ (plain_enqueue _ now ready) _ ⟨[], rfl⟩)
      intro _ _ idle
      apply keeps_bind
      apply keeps_mono _ _ _ _ _ (plain_idle _
        (within_best_effort _ _ (plain_of_tidy _ _ (tidy_promote _ (fun _ => trivial) now))) _ idle)
      intro _ _ idle
      apply keeps_bind
      apply keeps_mono _ _ _ _ _ (plain_idle _
        (within_best_effort _ _
          (plain_of_tidy _ _ (tidy_drive setup _ (fun _ => trivial) now redriveCleanup))) _ idle)
      intro _ _ idle
      apply keeps_bind
      apply keeps_mono _ _ _ _ _ (plain_idle _ (plain_of_tidy _ _ (tidy_admission _ ignoreWindow)) _ idle)
      intro admitted after idle
      apply keeps_bind
      have runs : Keeps duties (runAdmission setup fuel now admitted) after fun _ last => Idle last := by
        cases admitted with
        | all drain => exact run_admitted_keeps setup drain now fuel after idle
        | none => exact idle
        | windowed onClose => exact run_windowed_keeps setup onClose now fuel after idle
      apply keeps_mono _ _ _ _ _ runs
      exact fun _ _ idle => ⟨trivial, fun _ _ => idle⟩

/-! ## A recovery -/

/-- The task goes on with these rows in hand, or it is given up with all of them. -/
def Sweeps {α : Type} (task : Work α) (before after : Duty) : Prop :=
  Keeps duties task.run before fun result last =>
    match result with
    | .ok _ => last = after
    | .error _ => last = .aside

theorem sweeps_bind {α β : Type} (task : Work α) (next : α → Work β) (before middle after : Duty)
    (first : Sweeps task before middle) (rest : ∀ value, Sweeps (next value) middle after) :
    Sweeps (task >>= next) before after := by
  apply keeps_task_bind
  apply keeps_mono _ _ _ _ _ first
  intro result last holds
  cases result with
  | error e => exact holds
  | ok value =>
      obtain rfl : last = middle := holds
      exact rest value

theorem sweeps_statement (operation : StoreOp) (before after : Duty)
    (may : allowedStatement before operation)
    (learned : ∀ ret, learnStatement before operation ret = after)
    (refused : learnRefused before operation = .aside) : Sweeps (statement operation) before after := by
  refine ⟨may, fun result _ => ?_⟩
  cases result with
  | error e => exact refused
  | ok ret => exact learned ret

theorem sweeps_always {α : Type} (program : Program α) (d : Duty)
    (keeps : Keeps duties program d fun _ after => after = d) : Sweeps (always program) d d :=
  keeps_always duties program d _ keeps

theorem sweeps_pure {α : Type} (value : α) (d : Duty) : Sweeps (pure value) d d := rfl

theorem sweeps_state (relpath : String) (state : ItemState) (now : Int) (hand : List String)
    (leaves : inHand state = false) :
    Sweeps (setState relpath state now) (.sweeping hand) (.sweeping (Duty.without relpath hand)) := by
  apply sweeps_statement
  · intro own other changes taken
    cases changes
    rw [leaves] at taken
    cases taken
  · intro _
    show (if inHand state then Duty.sweeping hand else _) = _
    rw [leaves]
    rfl
  · rfl

theorem aside_sweeps (operation : StoreOp) (hand : List String)
    (learned : ∀ ret, learnStatement (.sweeping hand) operation ret = .sweeping hand)
    (spared : spares hand operation = true) (may : ∀ d, allowedStatement d operation) :
    Keeps duties (bestEffort (statement operation)) (.sweeping hand) fun _ after =>
      after = .sweeping hand := by
  refine ⟨may _, fun result _ => ?_⟩
  cases result with
  | error e =>
      show (if spares hand operation then Duty.sweeping hand else .aside) = _
      rw [spared]
      rfl
  | ok ret => exact learned ret

theorem checksum_sweeps (relpath : String) (hand : List String) (absent : relpath ∉ hand)
    (labels : List String) :
    Keeps duties (deliveredChecksum relpath labels) (.sweeping hand) fun _ after =>
      after = .sweeping hand := by
  induction labels with
  | nil => rfl
  | cons label rest ih =>
      have goes_on : ∀ loaded, Keeps duties
          (if checkpointChecksum loaded = .none then deliveredChecksum relpath rest
            else return checkpointChecksum loaded) (.sweeping hand) fun _ after =>
            after = .sweeping hand := by
        intro loaded
        split
        · exact ih
        · rfl
      rw [deliveredChecksum]
      apply keeps_bind
      refine ⟨no_state _ rfl _, fun loaded _ => ?_⟩
      cases loaded with
      | error e =>
          have spared : spares hand (.loadResume relpath label) = true := decide_eq_true absent
          show Keeps duties _ (if spares hand (.loadResume relpath label) then Duty.sweeping hand
            else .aside) _
          rw [spared]
          exact goes_on (.error e)
      | ok resume => exact goes_on (.ok resume)

theorem finish_sweeps (item : WorkItem) (now : Int) (hand : List String)
    (absent : item.relpath ∉ hand) :
    Sweeps (finishCompleted item now) (.sweeping hand) (.sweeping hand) := by
  have stays : Duty.without item.relpath hand = hand := without_absent _ _ absent
  apply sweeps_bind _ _ _ (.sweeping hand)
  · have sets := sweeps_state item.relpath .completed now hand rfl
    rw [stays] at sets
    exact sets
  intro _
  apply sweeps_bind _ _ _ (.sweeping hand)
  · exact sweeps_always _ _ (aside_sweeps _ hand (fun _ => rfl) rfl (no_state _ rfl))
  intro _
  apply sweeps_bind _ _ _ (.sweeping hand)
  · exact sweeps_always _ _ (aside_sweeps _ hand (fun _ => rfl) rfl (no_state _ rfl))
  intro _
  apply sweeps_bind _ _ _ (.sweeping hand)
  · exact sweeps_statement _ _ _ (no_state _ rfl _) (fun _ => rfl) rfl
  · exact fun _ => sweeps_pure _ _

theorem settle_sweeps (item : WorkItem) (now : Int) (hand : List String)
    (absent : item.relpath ∉ hand) (outcome : Except ReplError SourceActions.CleanupDone) :
    Sweeps (settleCleanup setup item now outcome) (.sweeping hand) (.sweeping hand) := by
  cases outcome with
  | ok done => exact finish_sweeps item now hand absent
  | error e =>
      have stays : Duty.without item.relpath hand = hand := without_absent _ _ absent
      apply sweeps_bind _ _ _ (.sweeping hand)
      · exact sweeps_always _ _ ⟨trivial, fun _ _ => rfl⟩
      intro jitter
      apply sweeps_bind _ _ _ (.sweeping hand)
      · apply sweeps_statement
        · exact fun relpath state changes taken => (by cases changes; cases taken)
        · exact fun _ => congrArg Duty.sweeping stays
        · rfl
      · exact fun _ => sweeps_pure _ _

theorem cleanup_sweeps (item : WorkItem) (now : Int) (hand : List String) :
    Sweeps (runCleanup setup item now) (.sweeping hand)
      (.sweeping (Duty.without item.relpath hand)) := by
  have absent : item.relpath ∉ Duty.without item.relpath hand := not_mem_without _ _
  apply sweeps_bind _ _ _ _ _ (sweeps_state item.relpath .cleanupPending now hand rfl)
  intro _
  apply sweeps_bind _ _ _ _ _ (sweeps_always _ _ (checksum_sweeps item.relpath _ absent _))
  intro checksum
  apply sweeps_bind _ _ _ (.sweeping (Duty.without item.relpath hand))
  · exact sweeps_always _ _ ⟨trivial, fun _ _ => rfl⟩
  intro handle
  apply sweeps_bind _ _ _ (.sweeping (Duty.without item.relpath hand))
  · exact sweeps_always _ _ ⟨trivial, fun _ _ => rfl⟩
  intro outcome
  exact settle_sweeps setup item now _ absent _

/-- The rows of a list that recovery has to take out of their state. -/
def pending (rows : List WorkItem) : List String :=
  (rows.filter fun it => isMoving it.state).map WorkItem.relpath

theorem fails_sweeping (hand : List String) (relpath : String) (member : relpath ∈ hand) :
    Fails (.sweeping hand) .aside relpath := by
  refine ⟨fun label => ?_, fun _ _ => rfl, fun _ => rfl⟩
  have decisive : spares hand (.loadResume relpath label) = false :=
    decide_eq_false fun absent => absent member
  show (if spares hand (.loadResume relpath label) then Duty.sweeping hand else .aside) = _
  rw [decisive]
  rfl

theorem reverify_sweeps (it : WorkItem) (hand : List String) (member : it.relpath ∈ hand)
    (labels : List String) : Sweeps (reverifyEach it labels) (.sweeping hand) (.sweeping hand) := by
  apply keeps_mono _ _ _ _ _ (reverify_each_keeps _ _ it labels (fails_sweeping hand it.relpath member))
  intro result after holds
  cases result with
  | error e => exact holds
  | ok ok => exact holds

theorem recover_one_sweeps (now : Int) (it : WorkItem) (rest : List WorkItem)
    (once : it.relpath ∉ rest.map WorkItem.relpath) :
    Sweeps (recoverOne setup now it) (.sweeping (pending (it :: rest))) (.sweeping (pending rest)) := by
  have absent : it.relpath ∉ pending rest := by
    intro member
    obtain ⟨other, listed, same⟩ := List.mem_map.mp member
    exact once (List.mem_map.mpr ⟨other, (List.mem_filter.mp listed).1, same⟩)
  have moves : isMoving it.state = true →
      pending (it :: rest) = it.relpath :: pending rest := by
    intro moving
    simp only [pending, List.filter_cons, moving, if_true, List.map_cons]
  have stands : isMoving it.state = false → pending (it :: rest) = pending rest := by
    intro other
    simp only [pending, List.filter_cons, other, Bool.false_eq_true, if_false]
  have left : Duty.without it.relpath (it.relpath :: pending rest) = pending rest :=
    without_head it.relpath _ absent
  have ready := sweeps_state it.relpath .ready now (it.relpath :: pending rest) rfl
  have cleans := cleanup_sweeps setup it now (it.relpath :: pending rest)
  have reverifies := reverify_sweeps it (it.relpath :: pending rest) List.mem_cons_self
  rw [left] at ready cleans
  unfold recoverOne
  cases state : it.state with
  | verified =>
      rw [moves (by rw [state]; rfl)]
      apply sweeps_bind _ _ _ _ _ (reverifies setup.labels)
      intro ok
      cases ok with
      | true => exact sweeps_bind _ _ _ _ _ cleans fun _ => sweeps_pure _ _
      | false => exact ready
  | inProgress =>
      rw [moves (by rw [state]; rfl)]
      apply sweeps_bind _ _ _ (.sweeping (it.relpath :: pending rest))
      · apply sweeps_bind _ _ _ (.sweeping (it.relpath :: pending rest))
        · exact sweeps_statement _ _ _ (no_state _ rfl _) (fun _ => rfl) rfl
        intro existing
        exact sweeps_bind _ _ _ _ _ (reverifies _) fun _ => sweeps_pure _ _
      · exact fun _ => ready
  | cleanupPending =>
      rw [stands (by rw [state]; rfl)]
      have cleans := cleanup_sweeps setup it now (pending rest)
      rw [without_absent _ _ absent] at cleans
      exact sweeps_bind _ _ _ _ _ cleans fun _ => sweeps_pure _ _
  | _ =>
      rw [stands (by rw [state]; rfl)]
      exact sweeps_pure _ _

theorem recover_each_sweeps (now : Int) (rows : List WorkItem)
    (nodup : (rows.map WorkItem.relpath).Nodup) :
    Sweeps (recoverEach setup now rows) (.sweeping (pending rows)) (.sweeping []) := by
  induction rows with
  | nil => exact sweeps_pure _ _
  | cons it rest ih =>
      obtain ⟨once, later⟩ := List.nodup_cons.mp nodup
      apply sweeps_bind _ _ _ _ _ (recover_one_sweeps setup now it rest once)
      exact fun _ => ih later

theorem exhaust_one_sweeps (item : WorkItem) (rest : List String) (lastError : String)
    (attempts : Nat) (now : Int) (once : item.relpath ∉ rest) :
    Sweeps (finishExhausted setup item lastError attempts now) (.exhausting (item.relpath :: rest))
      (.exhausting rest) := by
  have left : Duty.without item.relpath (item.relpath :: rest) = rest := without_head _ _ once
  have leaves : ∀ state, inHand state = false → Sweeps (setState item.relpath state now)
      (.exhausting (item.relpath :: rest)) (.exhausting rest) := by
    intro state leaves
    apply sweeps_statement
    · intro own other changes taken
      cases changes
      rw [leaves] at taken
      cases taken
    · intro _
      show (if inHand state then Duty.exhausting (item.relpath :: rest) else
        .exhausting (Duty.without item.relpath (item.relpath :: rest))) = _
      rw [leaves, left]
      rfl
    · rfl
  unfold finishExhausted
  split
  · exact sweeps_bind _ _ _ _ _ (leaves .retained rfl) fun _ => sweeps_pure _ _
  · apply sweeps_bind _ _ _ (.exhausting (item.relpath :: rest))
    · exact sweeps_always _ _ ⟨trivial, fun _ _ => rfl⟩
    intro handle
    apply sweeps_bind _ _ _ (.exhausting (item.relpath :: rest))
    · exact sweeps_always _ _ ⟨trivial, fun _ _ => rfl⟩
    intro moved
    apply sweeps_bind _ _ _ _ _ (leaves .quarantined rfl)
    intro _
    apply sweeps_bind _ _ _ (.exhausting rest)
    · exact sweeps_always _ _ ⟨trivial, fun _ _ => rfl⟩
    · exact fun _ => sweeps_pure _ _

theorem exhaust_each_sweeps (now : Int) (rows : List WorkItem)
    (nodup : (rows.map WorkItem.relpath).Nodup) :
    Sweeps (exhaustEach setup now rows) (.exhausting (rows.map WorkItem.relpath)) (.exhausting []) := by
  induction rows with
  | nil => exact sweeps_pure _ _
  | cons item rest ih =>
      obtain ⟨once, later⟩ := List.nodup_cons.mp nodup
      apply sweeps_bind _ _ _ _ _ (exhaust_one_sweeps setup item _ _ _ now once)
      exact fun _ => ih later

theorem recover_keeps (now : Int) :
    Keeps duties (bestEffort (recover setup now)) .unlisted fun _ after => Finished after := by
  apply keeps_best_effort
  rw [recover]
  apply keeps_task_bind
  refine ⟨rfl, fun result once => ?_⟩
  cases result with
  | error e => exact trivial
  | ok rows =>
      have sweeps : Sweeps (do
          recoverEach setup now rows
          let left ← listByState .exhausted
          exhaustEach setup now left) (.sweeping (pending rows)) (.exhausting []) := by
        apply sweeps_bind _ _ _ _ _ (recover_each_sweeps setup now rows once)
        intro _
        apply keeps_task_bind
        refine ⟨⟨rfl, rfl⟩, fun result once => ?_⟩
        cases result with
        | error e => rfl
        | ok left => exact exhaust_each_sweeps setup now left once
      apply keeps_mono _ _ _ _ _ sweeps
      intro result last holds
      cases result with
      | error e =>
          obtain rfl : last = .aside := holds
          exact trivial
      | ok done =>
          obtain rfl : last = .exhausting [] := holds
          rfl

end FileReplicator.Duties
