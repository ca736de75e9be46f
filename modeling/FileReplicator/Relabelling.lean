import FileReplicator.Runs

/-!
# Labels across restarts

The lives of one instance whose configuration is edited between its processes. A
label is what the rows of a destination are kept under; the history remembers
which destination it named when a row was written, and where an item was verified.
-/

namespace FileReplicator.Relabelling

open Domain DurableStore Effects FileTree SourceActions Operations Worker Interleaving Instance Protocol Steps
open Runs

/-- One entry of the destination list: its backend, and where it delivers. -/
structure Destination where
  kind : DestinationLabels.Kind
  target : String
  deriving DecidableEq

structure Config where
  setup : Setup
  dests : List Destination
  kinds : setup.dests = dests.map Destination.kind

def Config.named (config : Config) (label : String) : Option Destination :=
  (config.setup.labels.zip config.dests).lookup label

theorem lookup_of_mem {Key Value : Type} [BEq Key] [LawfulBEq Key] (key : Key) (value : Value)
    (entries : List (Key × Value)) (distinct : (entries.map Prod.fst).Nodup)
    (member : (key, value) ∈ entries) : entries.lookup key = some value := by
  obtain ⟨before, after, rfl⟩ := List.append_of_mem member
  refine List.lookup_eq_some_iff.mpr ⟨before, after, rfl, fun entry earlier => ?_⟩
  rw [List.map_append, List.nodup_append] at distinct
  rw [bne_iff_ne]
  exact (distinct.2.2 entry.1 (List.mem_map_of_mem earlier) key List.mem_cons_self).symm

namespace Config

variable (config : Config)

theorem labels_length : config.setup.labels.length = config.dests.length := by
  rw [Setup.labels, DestinationLabels.labels_length, config.kinds, List.length_map]

theorem mem_of_named (label : String) (d : Destination) (named : config.named label = some d) :
    d ∈ config.dests := by
  obtain ⟨before, after, entries, _⟩ := List.lookup_eq_some_iff.mp named
  have entry : (label, d) ∈ config.setup.labels.zip config.dests := by
    rw [entries]
    exact List.mem_append_right _ List.mem_cons_self
  exact (List.of_mem_zip entry).2

theorem label_of_mem (d : Destination) (member : d ∈ config.dests) :
    ∃ label ∈ config.setup.labels, config.named label = some d := by
  obtain ⟨index, bound, rfl⟩ := List.mem_iff_getElem.mp member
  have inside : index < config.setup.labels.length := by
    rw [config.labels_length]
    exact bound
  refine ⟨config.setup.labels[index], List.getElem_mem inside, ?_⟩
  apply lookup_of_mem
  · rw [List.map_fst_zip (Nat.le_of_eq config.labels_length)]
    exact config.setup.labels_nodup
  · have both : index < (config.setup.labels.zip config.dests).length := by
      rw [List.length_zip]
      omega
    exact List.mem_iff_getElem.mpr ⟨index, both, List.getElem_zip⟩

end Config

/-! ## The history -/

structure History where
  /-- The destinations that an item has been verified on. -/
  received : List (String × Destination)
  /-- The destination that a label named when a row under it was last written. -/
  written : String → String → Option Destination

def History.blank : History := ⟨[], fun _ _ => none⟩

def History.hears (h : History) (relpath : String) : Option Destination → History
  | some d => { h with received := (relpath, d) :: h.received }
  | none => h

def History.writes (h : History) (relpath label : String) (d : Option Destination) : History :=
  { h with written := fun r l => if r = relpath ∧ l = label then d else h.written r l }

/-- The rows of a destination that a call writes. -/
def touches : (operation : Op) → Ret operation → Option (String × String)
  | .store (.saveResume relpath label _), .ok _ => some (relpath, label)
  | .store (.setDestPhase relpath label _), .ok _ => some (relpath, label)
  | .store (.recordDestAttempt relpath label _ _ _), .ok _ => some (relpath, label)
  | .deliver item label _, .error _ => some (item.relpath, label)
  | _, _ => none

def verifies : (operation : Op) → Ret operation → Option (String × String)
  | .verify item label _ _, .ok _ => some (item.relpath, label)
  | _, _ => none

def note (config : Config) (h : History) (operation : Op) (ret : Ret operation) : History :=
  match touches operation ret, verifies operation ret with
  | some (relpath, label), _ => h.writes relpath label (config.named label)
  | none, some (relpath, label) => h.hears relpath (config.named label)
  | none, none => h

/-- What is remembered of a call with this answer. -/
def heed (config : Config) (t : Running) (operation : Op) (answer : Answer) (c _after : State)
    (h : History) : History :=
  match perform config.setup c.state t (Machine.live c) operation answer with
  | some (ret, _) => note config h operation ret
  | none => h

def record (config : Config) : Chronicle Op Ret World Spec Notes Answer Event History :=
  chronicle History.blank (heed config) fun _ _ _ h => h

/-! ## Lives -/

/-- What is left of an instance when its process has stopped, with whatever its destinations hold
when it is started again. -/
def stopped (c : State) (objects : String → String → Option Bytes) : State where
  state := { c.state with
    objects := objects
    up := false
    ticking := false
    outcomes := fun _ => none
    quarantined := fun _ => false
    attempts := fun _ => [] }
  threads := []
  next := c.next

/-- The checkpoint that a destination leaves is one of its own, not the worker's record of what it
has verified. -/
def Partial : Step → Prop
  | .run _ (.failed _ _ left) => persistedDelivered left = none
  | _ => True

def owing : ItemState → Bool
  | .cleanupPending | .cleanupFailed => true
  | _ => false

/-- There is something under the label that a later process relies on. -/
def Marked (store : Store) (relpath label : String) : Prop :=
  store.phase relpath label = .verified ∨ store.resume relpath label ≠ none

/-- An instance with an empty store, before its first start. -/
structure First (c : State) : Prop where
  begins : Begins c
  unmarked : ∀ relpath label, ¬ Marked c.state.store relpath label
  settled : ∀ relpath row, c.state.store.items relpath = some row → owing row.state = false

theorem small_first : First (smallStart oneFile) := by
  refine ⟨small_begins oneFile, fun relpath label marked => ?_, fun relpath row found => ?_⟩
  · rcases marked with phase | resume
    · cases phase
    · exact resume rfl
  · cases found

/-- The lives of an instance: processes under one configuration after the other. A process may stop
at any point; the next has a configuration that `edits` admits. -/
inductive Lived (edits : History → State → Config → Prop) : Config → History → State → Prop where
  | start (config : Config) (c : State) (first : First c) : Lived edits config History.blank c
  | step (config : Config) (h : History) (c after : State) (choice : Step)
      (lived : Lived edits config h c) (own : Partial choice)
      (stepped : (engine config.setup).step c choice = some after) :
      Lived edits config ((record config).follow c choice after h) after
  | restart (config next : Config) (h : History) (c : State)
      (objects : String → String → Option Bytes) (lived : Lived edits config h c)
      (edited : edits h c next) : Lived edits next h (stopped c objects)

/-- The rows that a new list finds are about the destinations that it names: a label under which a
destination is verified or has a checkpoint names the destination it named when that was written,
and no destination is new to an item whose source action is pending. -/
structure Fits (h : History) (c : State) (next : Config) : Prop where
  rows : ∀ relpath label d, next.named label = some d → Marked c.state.store relpath label →
    h.written relpath label = some d
  pending : ∀ relpath row, c.state.store.items relpath = some row → owing row.state = true →
    ∀ d ∈ next.dests, (relpath, d) ∈ h.received

section Note

variable (config : Config) (h : History) (operation : Op) (ret : Ret operation)

theorem note_received (p : String × Destination) (member : p ∈ h.received) :
    p ∈ (note config h operation ret).received := by
  unfold note
  split
  · exact member
  · unfold History.hears
    split
    · exact List.mem_cons_of_mem _ member
    · exact member
  · exact member

theorem touches_or_verifies (label : String × String) (verified : verifies operation ret = some label) :
    touches operation ret = none := by
  unfold verifies at verified
  split at verified
  · rfl
  · cases verified

theorem note_verified (relpath label : String) (d : Destination)
    (verified : verifies operation ret = some (relpath, label)) (named : config.named label = some d) :
    (relpath, d) ∈ (note config h operation ret).received := by
  unfold note
  rw [touches_or_verifies operation ret _ verified, verified]
  simp only [History.hears, named]
  exact List.mem_cons_self

theorem note_written (relpath label : String)
    (touched : touches operation ret = some (relpath, label)) :
    (note config h operation ret).written relpath label = config.named label := by
  unfold note
  rw [touched]
  exact if_pos ⟨rfl, rfl⟩

theorem note_untouched (relpath label : String)
    (untouched : touches operation ret ≠ some (relpath, label)) :
    (note config h operation ret).written relpath label = h.written relpath label := by
  unfold note
  split
  · rename_i r l wrote
    refine if_neg ?_
    rintro ⟨rfl, rfl⟩
    exact untouched wrote
  · unfold History.hears
    split <;> rfl
  · rfl

end Note

/-! ## What a statement does to the rows -/

theorem phase_call (store : Store) (operation : StoreOp) (relpath label : String)
    (after : (callStore store operation).2.phase relpath label = .verified) :
    store.phase relpath label = .verified ∨ operation = .setDestPhase relpath label .verified ∨
      ∃ error gate, operation = .recordDestAttempt relpath label error .verified gate := by
  cases operation with
  | setDestPhase r l phase =>
      change (store.setDestPhase r l phase).phase relpath label = .verified at after
      rw [Store.phase_set_dest_phase] at after
      split at after
      · rename_i same
        obtain ⟨rfl, rfl⟩ := same
        rw [after]
        exact Or.inr (Or.inl rfl)
      · exact Or.inl after
  | recordDestAttempt r l error phase gate =>
      change (store.recordDestAttempt r l error phase gate).phase relpath label = .verified at after
      rw [Store.phase_record_dest_attempt] at after
      split at after
      · rename_i same
        obtain ⟨rfl, rfl⟩ := same
        rw [after]
        exact Or.inr (Or.inr ⟨error, gate, rfl⟩)
      · exact Or.inl after
  | clearDestStates r =>
      change (store.clearDestStates r).phase relpath label = .verified at after
      rw [Store.phase_clear] at after
      split at after
      · cases after
      · exact Or.inl after
  | upsertReady r size mtimeMs now =>
      left
      change (store.upsertReady r size mtimeMs now).phase relpath label = .verified at after
      obtain ⟨others, own⟩ := store.upsert_cases r size mtimeMs now
      by_cases mine : relpath = r
      · subst mine
        rcases own with ⟨_, _, same⟩ | ⟨_, _, _, _, cleared⟩ | ⟨_, _, _, _, same⟩
        · exact same label ▸ after
        · rw [cleared label] at after
          cases after
        · exact same label ▸ after
      · exact (others relpath mine).2 label ▸ after
  | _ => exact Or.inl after

theorem resume_call (store : Store) (operation : StoreOp) (relpath label : String)
    (checkpoint : ResumeState)
    (after : (callStore store operation).2.resume relpath label = some checkpoint) :
    store.resume relpath label = some checkpoint ∨
      operation = .saveResume relpath label checkpoint := by
  cases operation with
  | saveResume r l saved =>
      simp only [callStore, Store.saveResume, Store.setResume] at after
      split at after
      · rename_i same
        obtain ⟨rfl, rfl⟩ := same
        cases after
        exact Or.inr rfl
      · exact Or.inl after
  | clearResume r l =>
      simp only [callStore, Store.clearResume, Store.setResume] at after
      split at after
      · cases after
      · exact Or.inl after
  | clearResumeAll r =>
      simp only [callStore, Store.clearResumeAll] at after
      split at after
      · cases after
      · exact Or.inl after
  | upsertReady r size mtimeMs now =>
      left
      simp only [callStore, Store.upsertReady] at after
      split at after
      · exact after
      · split at after
        · simp only [Store.clearResumeAll] at after
          split at after
          · cases after
          · exact after
        · exact after
  | _ => exact Or.inl after

/-- The row that a statement moves to one of these states. -/
def reaches (wanted : ItemState → Bool) : StoreOp → Option String
  | .setState relpath state _ => if wanted state then some relpath else none
  | .rollUpItem relpath state _ _ _ _ => if wanted state then some relpath else none
  | .recordCleanupAttempt relpath _ state _ _ => if wanted state then some relpath else none
  | _ => none

/-- The row that a statement leaves with its source action pending. -/
def enters : StoreOp → Option String
  | .setState relpath state _ => if owing state then some relpath else none
  | .rollUpItem relpath state _ _ _ _ => if owing state then some relpath else none
  | .recordCleanupAttempt relpath _ state _ _ => if owing state then some relpath else none
  | _ => none

theorem enters_eq (operation : StoreOp) : enters operation = reaches owing operation := by
  cases operation <;> rfl

section Reaching

variable (wanted : ItemState → Bool) (store : Store)

theorem reached_update (relpath r : String) (change : Row → Row) (row : Row)
    (after : (store.updateRow r change).items relpath = some row) (is : wanted row.state = true) :
    (∃ before, store.items relpath = some before ∧ wanted before.state = true) ∨
      relpath = r ∧ ∃ before, wanted (change before).state = true := by
  rw [Store.items_update] at after
  split at after
  · rename_i same
    obtain ⟨before, _, rfl⟩ := Option.map_eq_some_iff.mp after
    exact Or.inr ⟨same, before, is⟩
  · exact Or.inl ⟨row, after, is⟩

/-- A row is in such a state because it was, or because a statement has moved it there; claiming it or
starting it over does not. -/
theorem reached_call (ready : wanted .ready = false) (claimed : wanted .inProgress = false)
    (operation : StoreOp) (relpath : String) (row : Row)
    (after : (callStore store operation).2.items relpath = some row) (is : wanted row.state = true) :
    (∃ before, store.items relpath = some before ∧ wanted before.state = true) ∨
      reaches wanted operation = some relpath := by
  cases operation with
  | setState r state now =>
      rcases reached_update wanted store relpath r _ row after is with before | ⟨rfl, _, entered⟩
      · exact Or.inl before
      · exact Or.inr (if_pos entered)
  | rollUpItem r state attempts gate error now =>
      rcases reached_update wanted store relpath r _ row after is with before | ⟨rfl, _, entered⟩
      · exact Or.inl before
      · exact Or.inr (if_pos entered)
  | recordCleanupAttempt r error state gate now =>
      rcases reached_update wanted store relpath r _ row after is with before | ⟨rfl, _, entered⟩
      · exact Or.inl before
      · exact Or.inr (if_pos entered)
  | setBytesDone r bytes now =>
      left
      obtain ⟨before, found, same⟩ := store.state_of_bytes_done r relpath bytes now row after
      exact ⟨before, found, same ▸ is⟩
  | upsertReady r size mtimeMs now =>
      left
      change (store.upsertReady r size mtimeMs now).items relpath = some row at after
      obtain ⟨others, own⟩ := store.upsert_cases r size mtimeMs now
      by_cases mine : relpath = r
      · subst mine
        rcases own with ⟨_, fresh, _⟩ | ⟨_, _, _, fresh, _⟩ | ⟨before, found, _, kept, _⟩
        · rw [fresh] at after
          cases after
          exact absurd (ready.symm.trans is) Bool.noConfusion
        · rw [fresh] at after
          cases after
          exact absurd (ready.symm.trans is) Bool.noConfusion
        · rw [kept] at after
          cases after
          exact ⟨before, found, is⟩
      · rw [(others relpath mine).1] at after
        exact ⟨row, after, is⟩
  | claimReady limit now =>
      left
      simp only [callStore, Store.claimReady] at after
      split at after
      · obtain ⟨before, _, rfl⟩ := Option.map_eq_some_iff.mp after
        exact absurd (claimed.symm.trans is) Bool.noConfusion
      · exact ⟨row, after, is⟩
  | _ => exact Or.inl ⟨row, after, is⟩

end Reaching

theorem owing_call (store : Store) (operation : StoreOp) (relpath : String) (row : Row)
    (after : (callStore store operation).2.items relpath = some row)
    (owes : owing row.state = true) :
    (∃ before, store.items relpath = some before ∧ owing before.state = true) ∨
      enters operation = some relpath := by
  rw [enters_eq]
  exact reached_call owing store rfl rfl operation relpath row after owes

/-! ## What a thread knows -/

def runsFor : Stage → Option String
  | .marked relpath => some relpath
  | .acting _ ctx => some ctx.relpath
  | .acted ctx _ => some ctx.relpath
  | .failed ctx => some ctx.relpath
  | _ => none

/-- A row that owes its source action owed it before, or the thread that has it do so has it on its
list with all destinations verified, or has run the action. -/
theorem owing_of_did (setup : Setup) (t : Running) (live : List Spec) (world : World) (operation : Op)
    (ret : Ret operation) (effect : Effect World Spec)
    (did : Did setup t live world operation ret effect) (may : allowed setup t.notes operation)
    (relpath : String) (row : Row) (found : effect.state.store.items relpath = some row)
    (owes : owing row.state = true) :
    (∃ before, world.store.items relpath = some before ∧ owing before.state = true) ∨
      (relpath ∈ t.notes.todo ∧ t.notes.surely setup relpath) ∨ runsFor t.notes.stage = some relpath := by
  cases did with
  | statement operation =>
      rcases owing_call world.store operation relpath row found owes with before | entered
      · exact Or.inl before
      · right
        unfold enters at entered
        split at entered
        · split at entered
          · cases entered
            rename_i state _ entering
            cases state with
            | cleanupPending => exact Or.inl ⟨may.2.1, may.2.2⟩
            | cleanupFailed => exact may.elim
            | _ => cases entering
          · cases entered
        · split at entered
          · rename_i state _ _ _ _ entering
            rcases may.2.2.2 with rfl | rfl
            · cases entering
            · cases entering
          · cases entered
        · split at entered
          · cases entered
            obtain ⟨_, _, ctx, failed, rfl⟩ := may
            exact Or.inr (by rw [failed]; rfl)
          · cases entered
        · cases entered
  | undelivered item l resume left error after stored =>
      left
      rcases stored with rfl | ⟨_, _, rfl⟩ <;> exact ⟨row, found, owes⟩
  | _ => exact Or.inl ⟨row, found, owes⟩

/-- What a thread takes to be verified is, as far as `known` goes. -/
structure Knows (setup : Setup) (known : String × String → Prop) (n : Notes) : Prop where
  sure : ∀ p ∈ n.sure, known p
  passed : ∀ p, n.passed = some p → known p
  acting : ∀ relpath, runsFor n.stage = some relpath → ∀ label ∈ setup.labels, known (relpath, label)

theorem knows_mono (setup : Setup) (known more : String × String → Prop) (n : Notes)
    (grows : ∀ p, known p → more p) (knows : Knows setup known n) : Knows setup more n := by
  constructor
  · exact fun p member => grows p (knows.sure p member)
  · exact fun p passed => grows p (knows.passed p passed)
  · exact fun relpath acting label member => grows _ (knows.acting relpath acting label member)

theorem knows_start (setup : Setup) (known : String × String → Prop) (spec : Spec) :
    Knows setup known (start spec) := by
  cases spec with
  | _ =>
      constructor
      · exact fun p member => by cases member
      · exact fun p passed => by cases passed
      · exact fun relpath acting => by cases acting

/-- What the rows of a store say is so, as far as `known` goes. -/
structure Tells (setup : Setup) (known : String × String → Prop) (store : Store) : Prop where
  verified : ∀ relpath label, store.phase relpath label = .verified → known (relpath, label)
  pending : ∀ relpath row, store.items relpath = some row → owing row.state = true →
    ∀ label ∈ setup.labels, known (relpath, label)

section Learning

variable (setup : Setup) (known : String × String → Prop)

theorem knows_listed (store : Store) (tells : Tells setup known store) (rows : List WorkItem)
    (listed : ∀ it ∈ rows, ∃ row, store.items it.relpath = some row ∧ owing row.state = true) :
    ∀ p ∈ labelsOf setup rows, known p := by
  intro p member
  obtain ⟨it, hit, labelled⟩ := List.mem_flatMap.mp member
  obtain ⟨label, hlabel, rfl⟩ := List.mem_map.mp labelled
  obtain ⟨row, found, owes⟩ := listed it hit
  exact tells.pending it.relpath row found owes label hlabel

theorem knows_by_state (store : Store) (tells : Tells setup known store) (state : ItemState)
    (owes : owing state = true) : ∀ p ∈ labelsOf setup (store.listByState state), known p := by
  apply knows_listed setup known store tells
  intro it member
  obtain ⟨row, found, same, _⟩ := store.mem_list_by_state state it member
  exact ⟨row, found, same ▸ owes⟩

theorem mem_to_revert (store : Store) (relpath : String) (it : WorkItem)
    (member : it ∈ toRevert (store.get relpath)) : it.relpath = relpath ∧ it.state ≠ .ready ∧
      ∃ row, store.items relpath = some row ∧ row.state = it.state := by
  obtain ⟨found, unready⟩ := List.mem_filter.mp member
  obtain ⟨row, items, rfl⟩ := Option.map_eq_some_iff.mp (Option.mem_toList.mp found)
  exact ⟨rfl, of_decide_eq_true unready, row, items, rfl⟩

theorem knows_reverted (store : Store) (tells : Tells setup known store) (relpath : String) :
    ∀ p ∈ labelsOf setup ((toRevert (store.get relpath)).filter fun row => row.state = .cleanupPending),
      known p := by
  apply knows_listed setup known store tells
  intro it member
  obtain ⟨found, pending⟩ := List.mem_filter.mp member
  obtain ⟨rfl, _, row, items, same⟩ := mem_to_revert store relpath it found
  refine ⟨row, items, ?_⟩
  rw [same, of_decide_eq_true pending]
  rfl

/-- What a statement tells a thread of the destinations it takes to be verified. -/
theorem knows_statement (store : Store) (tells : Tells setup known store) (n : Notes)
    (knows : Knows setup known n) (operation : StoreOp) (may : allowedStatement setup n operation) :
    (∀ p ∈ (learnStatement setup n operation (callStore store operation).1).sure, known p) ∧
      (learnStatement setup n operation (callStore store operation).1).passed = n.passed := by
  have none : ∀ p ∈ ([] : List (String × String)), known p := fun p member => by cases member
  cases operation with
  | destStates relpath =>
      simp only [learnStatement, learnStates]
      split
      · refine ⟨fun p member => ?_, rfl⟩
        rcases List.mem_append.mp member with seen | old
        · obtain ⟨label, verified, rfl⟩ := List.mem_map.mp seen
          have phase := (List.mem_filter.mp verified).2
          rw [decide_eq_true_eq] at phase
          exact tells.verified relpath label phase
        · exact knows.sure p old
      · exact ⟨knows.sure, rfl⟩
  | getRow relpath => exact ⟨knows_reverted setup known store tells relpath, rfl⟩
  | setDestPhase relpath label phase =>
      refine ⟨?_, rfl⟩
      simp only [learnStatement, Notes.look]
      split
      · rename_i verified
        intro p member
        rcases List.mem_cons.mp member with rfl | old
        · rcases may with ⟨_, _, _, passed⟩ | ⟨_, _, _, _, passed⟩
          · exact knows.passed _ passed
          · exact knows.passed _ (passed verified)
        · exact knows.sure p old
      · exact fun p member => knows.sure p (List.mem_of_mem_filter member)
  | setState relpath state now =>
      cases state <;> exact ⟨knows.sure, rfl⟩
  | rollUpItem relpath state attempts gate error now =>
      simp only [learnStatement]
      split <;> exact ⟨knows.sure, rfl⟩
  | claimReady limit now => exact ⟨none, rfl⟩
  | recoverIncomplete =>
      refine ⟨?_, rfl⟩
      apply knows_listed setup known store tells
      intro it member
      obtain ⟨listed, pending⟩ := List.mem_filter.mp member
      obtain ⟨row, found, same, _⟩ := store.mem_recover_incomplete it listed
      rw [decide_eq_true_eq] at pending
      refine ⟨row, found, ?_⟩
      rw [same, pending]
      rfl
  | listByState state =>
      cases state with
      | failed => exact ⟨knows.sure, rfl⟩
      | cleanupPending => exact ⟨knows_by_state setup known store tells .cleanupPending rfl, rfl⟩
      | cleanupFailed =>
          refine ⟨fun p member => ?_, rfl⟩
          rcases List.mem_append.mp member with old | listed
          · exact knows.sure p old
          · exact knows_by_state setup known store tells .cleanupFailed rfl p listed
      | _ => exact ⟨none, rfl⟩
  | _ => exact ⟨knows.sure, rfl⟩

theorem knows_learn (more : String × String → Prop) (grows : ∀ p, known p → more p) (t : Running)
    (live : List Spec) (world : World) (operation : Op) (ret : Ret operation)
    (effect : Effect World Spec) (did : Did setup t live world operation ret effect)
    (may : allowed setup t.notes operation) (tells : Tells setup known world.store)
    (knows : Knows setup known t.notes)
    (results : ∀ relpath, t.notes.role = .item relpath → ∀ label,
      .ok (label, .verified) ∈ world.attempts t.id → known (relpath, label))
    (verified : ∀ p, verifies operation ret = some p → more p) :
    Knows setup more (learn setup t.notes operation ret) := by
  have grown := knows_mono setup known more t.notes grows knows
  have told : (∀ p ∈ (learn setup t.notes operation ret).sure, more p) ∧
      ∀ p, (learn setup t.notes operation ret).passed = some p → more p := by
    cases did with
    | statement operation =>
        obtain ⟨sure, passed⟩ := knows_statement setup known world.store tells t.notes knows operation may
        refine ⟨fun p member => grows p (sure p member), fun p same => ?_⟩
        exact grown.passed p (passed ▸ same)
    | refused operation text => cases operation <;> exact ⟨grown.sure, grown.passed⟩
    | delivered item label resume bytes source => exact ⟨grown.sure, grown.passed⟩
    | checked item label expected policy =>
        cases outcome : setup.check label expected policy (world.objects item.relpath label) with
        | error e => exact ⟨grown.sure, fun p passed => by cases passed⟩
        | ok done =>
            rw [outcome] at verified
            exact ⟨grown.sure, fun p passed => verified p passed⟩
    | unchecked item label expected policy error =>
        exact ⟨grown.sure, fun p passed => by cases passed⟩
    | joined n result found =>
        simp only [learn, learnJoined]
        split
        · rename_i label verdict
          cases verdict
          split
          · rename_i relpath role
            refine ⟨fun p member => ?_, grown.passed⟩
            rcases List.mem_cons.mp member with rfl | old
            · exact grows _ (results relpath role label (List.mem_of_getElem? found))
            · exact grown.sure p old
          · exact ⟨grown.sure, grown.passed⟩
        · exact ⟨grown.sure, grown.passed⟩
    | awaited handle result ended =>
        simp only [learn, learnOutcome]
        split <;> split <;> exact ⟨grown.sure, grown.passed⟩
    | awaitPanicked handle text present =>
        simp only [learn, learnOutcome]
        split <;> exact ⟨grown.sure, grown.passed⟩
    | awaitedQuarantine handle ended =>
        simp only [learn, learnMoved]
        split <;> exact ⟨grown.sure, grown.passed⟩
    | quarantinePanicked handle text present =>
        simp only [learn, learnMoved]
        split <;> exact ⟨grown.sure, grown.passed⟩
    | _ => exact ⟨grown.sure, grown.passed⟩
  refine ⟨told.1, told.2, ?_⟩
  have staged := learn_stage setup t.notes operation ret may
  generalize (learn setup t.notes operation ret).stage = after at staged ⊢
  intro relpath acting label member
  cases staged with
  | same _ _ _ => exact grown.acting relpath acting label member
  | idle _ _ _ => cases acting
  | marked own _ _ _ =>
      cases acting
      exact grown.sure _ (may.2.2 label member)
  | acting ctx handle _ =>
      cases acting
      exact grown.sure _ (may.2.2.1 label member)
  | acted ctx handle _ from_acting =>
      apply grown.acting relpath _ label member
      rw [from_acting]
      exact acting
  | failed ctx handle _ from_acting =>
      apply grown.acting relpath _ label member
      rw [from_acting]
      exact acting
  | moving _ _ _ => cases acting
  | moved _ _ _ _ => cases acting

end Learning

end FileReplicator.Relabelling
