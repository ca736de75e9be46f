import FileReplicator.Custody
import FileReplicator.Markers
import FileReplicator.VerifiedFirst

/-!
# What the destinations hold of a source

A producer rewrites a source. As long as it does so only while the item is at rest, what
is counted on as verified is the version that was written last: nobody works on the item,
and either its row is finished or no destination is counted on. A row that is rewritten
while it is finished lapses until a tick takes the file in again.
-/

namespace FileReplicator.Copies

open Domain DurableStore Effects FileTree Interleaving Annotations SourceActions Operations Worker Instance
open Protocol Steps Runs Assurance Vouching
open CleanupSteps (startsOver)
open Custody (custody)
open Markers (Makes call_spares)
open VerifiedFirst (restarts upsert_of_restart)
open Relabelling (runsFor owing Tells)
open Offspring (Reported)

variable (setup : Setup) (relpath : String)

/-! ## Versions of a source -/

structure Version where
  bytes : Bytes
  mtimeMs : Int
  deriving DecidableEq

structure History where
  /-- What has been written as the source since the start. -/
  written : Option Version
  /-- The source was rewritten when its row was finished. -/
  lapsed : Bool

def History.latest (first : Version) (h : History) : Version := h.written.getD first

/-- A tick that starts the row over takes the file in. -/
def heed (t : Hand) (operation : Op) (answer : Answer) (c _ : Duo) (h : History) : History :=
  match perform setup c.state t (Machine.live c) operation answer with
  | some (ret, _) =>
      if restarts c.state.store operation ret = some relpath then { h with lapsed := false } else h
  | none => h

def isFinished (store : Store) : Bool :=
  (store.items relpath).any fun row => row.state.isTerminal

def pass (event : Event) (c _ : Duo) (h : History) : History :=
  match event with
  | .touch path (some (.file bytes mtimeMs)) =>
      if path = setup.absSource relpath then
        ⟨some ⟨bytes, mtimeMs⟩, h.lapsed || isFinished relpath c.state.store⟩
      else h
  | _ => h

abbrev recording : Chronicle Op Ret World Spec Pair Answer Event History :=
  chronicle ⟨none, false⟩ (heed setup relpath) (pass setup relpath)

/-- Every destination of such a row is counted on. -/
def counted : ItemState → Bool
  | .verified | .cleanupPending | .cleanupFailed => true
  | _ => false

/-- Nobody works on the item, and no destination is counted on unless its row is finished. -/
structure AtRest (c : Duo) : Prop where
  unminded : ∀ u ∈ c.threads, ¬Minds u.notes.1 relpath
  unpromoted : ∀ u ∈ c.threads, relpath ∉ u.notes.1.promoting
  undriven : ∀ u ∈ c.threads, runsFor u.notes.1.stage ≠ some relpath
  inactive : ∀ u ∈ c.threads, ∀ handle ctx, u.spec = .action handle ctx → ctx.relpath ≠ relpath
  row : ∀ row, c.state.store.items relpath = some row → row.state.isTerminal = true ∨
    (counted row.state = false ∧ ∀ label, c.state.store.phase relpath label ≠ .verified)

structure Apart (_ : History) (c : Duo) (choice : Choice Answer Event) : Prop where
  /-- The destinations keep what they have been given. -/
  kept : ∀ label object, choice ≠ .env (.alter relpath label object)
  /-- The instance itself makes nothing in the place of the source. -/
  spares : ∀ t ∈ c.threads, ∀ answer operation next, choice = .run t.id answer →
    t.prog = .call (.fs operation) next → ¬Makes (setup.absSource relpath) operation
  /-- Triggers wait for the startup recovery. -/
  waits : DrainRuns.afterRecovery (forget Prod.snd c) choice = true

structure Meets (h : History) (c : Duo) (choice : Choice Answer Event) : Prop extends
    Apart setup relpath h c choice where
  /-- The source is rewritten while the item is at rest. -/
  rests : ∀ bytes mtimeMs,
    choice = .env (.touch (setup.absSource relpath) (some (.file bytes mtimeMs))) → AtRest relpath c

/-- An instance before a start of its process. What the store counts on of the item is the version that
its source has, or had. -/
structure Starts (first : Version) (c : Duo) : Prop where
  begins : Begins (forget Prod.fst c)
  rooted : ∀ r label, c.state.store.phase r label = .verified → c.state.store.items r ≠ none
  source : ∀ bytes mtimeMs,
    c.state.tree (setup.absSource relpath) = some (.file bytes mtimeMs) → first = ⟨bytes, mtimeMs⟩
  verified : ∀ label, c.state.store.phase relpath label = .verified →
    c.state.objects relpath label = some first.bytes
  counted : ∀ row, c.state.store.items relpath = some row → counted row.state = true →
    ∀ label ∈ setup.labels, c.state.objects relpath label = some first.bytes

/-- The destination holds the version that was written last. -/
def Copied (first : Version) (h : History) (c : Duo) (label : String) : Prop :=
  c.state.objects relpath label = some (h.latest first).bytes

def Known (first : Version) (h : History) (c : Duo) (p : String × String) : Prop :=
  p.1 = relpath → h.lapsed = true ∨ Copied relpath first h c p.2

structure Within (n : Custody.Notes) (m : Notes) : Prop where
  held : n.held.Subperm m.todo
  promoted : n.promoted.Subperm m.promoting
  claimed : ∀ r ∈ n.claimed, r ∈ m.todo ∧ m.role = .tick
  trusted : ∀ p ∈ n.trusted, Minds m p.1

structure Holds (first : Version) (h : History) (c : Duo) (u : Hand) (n : Custody.Notes) : Prop where
  keeps : Keeps (custody setup) u.prog n fun _ _ => True
  within : Within n u.notes.1
  copied : ∀ label, (relpath, label) ∈ n.trusted → Copied relpath first h c label
  fresh : relpath ∈ n.held ∨ relpath ∈ n.promoted ∨ relpath ∈ n.claimed → h.lapsed = false

structure Stands (first : Version) (h : History) (c : Duo) : Prop where
  manned : Manned setup c
  counts : Counts setup (Known relpath first h c) c
  whole : ∀ row, c.state.store.items relpath = some row → row.state = .verified →
    ∀ label ∈ setup.labels, Known relpath first h c (relpath, label)
  holds : ∀ u ∈ c.threads, ∃ n, Holds setup relpath first h c u n
  lapsed : h.lapsed = true → isFinished relpath c.state.store = true
  /-- An action takes away what all destinations hold. -/
  acts : ∀ u ∈ c.threads, ∀ handle ctx, u.spec = .action handle ctx → ctx.relpath = relpath →
    ctx.src = setup.absSource relpath ∧ ∀ label ∈ setup.labels, Copied relpath first h c label

structure Sound (first : Version) (h : History) (c : Duo) : Prop extends
    Stands setup relpath first h c where
  /-- What is there is the version that was written last. -/
  reads : ∀ bytes mtimeMs, c.state.tree (setup.absSource relpath) = some (.file bytes mtimeMs) →
    h.latest first = ⟨bytes, mtimeMs⟩

/-! ## Lists -/

section Lists

variable {n : Custody.Notes} {m : Notes}

theorem within_nothing (m : Notes) : Within .nothing m := by
  constructor
  · exact List.nil_subperm
  · exact List.nil_subperm
  · exact fun _ none => by cases none
  · exact fun _ none => by cases none

theorem minds_of_held (within : Within n m) (r : String) (held : r ∈ n.held) : Minds m r :=
  Or.inl (within.held.subset held)

theorem within_leave (within : Within n m) (r : String) : Within (n.leave r) (m.leave r) := by
  constructor
  · exact within.held.erase r
  · exact within.promoted.erase r
  · intro s member
    obtain ⟨claimed, other⟩ := List.mem_filter.mp member
    obtain ⟨listed, tick⟩ := within.claimed s claimed
    exact ⟨(List.mem_erase_of_ne (by simpa using other)).mpr listed, tick⟩
  · intro p member
    obtain ⟨trusted, other⟩ := List.mem_filter.mp member
    rcases within.trusted p trusted with listed | own
    · exact Or.inl ((List.mem_erase_of_ne (by simpa using other)).mpr listed)
    · exact Or.inr own

theorem within_takes (rows : List WorkItem) (trusted : List (String × String)) (m : Notes)
    (todo : m.todo = rows.map WorkItem.relpath) (among : ∀ p ∈ trusted, p.1 ∈ rows.map WorkItem.relpath) :
    Within (.takes rows trusted) m := by
  constructor
  · rw [todo]
    exact List.Subperm.refl _
  · exact List.nil_subperm
  · exact fun _ none => by cases none
  · intro p member
    exact Or.inl (todo ▸ among p member)

theorem within_same (within : Within n m) (other : Notes) (role : other.role = m.role)
    (todo : other.todo = m.todo) (promoting : other.promoting = m.promoting) : Within n other := by
  constructor
  · rw [todo]
    exact within.held
  · rw [promoting]
    exact within.promoted
  · rw [todo, role]
    exact within.claimed
  · intro p trusted
    rw [Minds, todo, role]
    exact within.trusted p trusted

theorem among_labels (rows more : List WorkItem) (sub : ∀ it ∈ rows, it ∈ more) :
    ∀ p ∈ labelsOf setup rows, p.1 ∈ more.map WorkItem.relpath := by
  intro p member
  obtain ⟨it, hit, labelled⟩ := List.mem_flatMap.mp member
  obtain ⟨label, _, rfl⟩ := List.mem_map.mp labelled
  exact List.mem_map_of_mem (sub it hit)

theorem within_statement (within : Within n m) (operation : StoreOp) (ret : StoreRet operation)
    (may : allowedStatement setup m operation) :
    Within (Custody.learnStatement setup n operation ret) (learnStatement setup m operation ret) := by
  cases operation with
  | destStates r =>
      have lists : Within n (learnStates setup m r ret) := by
        unfold learnStates
        split <;> exact within_same within _ rfl rfl rfl
      refine ⟨lists.held, lists.promoted, lists.claimed, fun p member => ?_⟩
      rcases List.mem_append.mp member with read | before
      · obtain ⟨label, _, rfl⟩ := List.mem_map.mp read
        have listed : r ∈ (learnStates setup m r ret).todo := by
          unfold learnStates
          split <;> exact may.2.1
        exact Or.inl listed
      · exact lists.trusted p before
  | getRow r =>
      change Within (Custody.takeRow setup ret) (learnRow setup m ret)
      cases ret with
      | none => exact within_nothing _
      | some row =>
          simp only [Custody.takeRow]
          split
          · exact within_nothing _
          · rename_i unfinished
            have reverts : toRevert (some row) = [row] := by simp [toRevert, (not_or.mp unfinished).1]
            apply within_takes [row] _ _ (by rw [learnRow, reverts]; rfl)
            intro p member
            split at member
            · obtain ⟨label, _, rfl⟩ := List.mem_map.mp member
              exact List.mem_singleton_self _
            · cases member
  | setDestPhase r label phase => exact within_same within _ rfl rfl rfl
  | setState r state now =>
      cases state with
      | cleanupPending => exact within_same within _ rfl rfl rfl
      | verified => exact within
      | quarantined =>
          exact within_same (within_leave within r) _ rfl rfl rfl
      | _ => exact within_leave within r
  | rollUpItem r state attempts gate error now =>
      simp only [Custody.learnStatement, learnStatement]
      split
      · exact within_leave within r
      · exact within
  | recordCleanupAttempt r error state gate now => exact within_leave within r
  | claimReady limit now =>
      have taken := within_takes ret [] (m.enter ret []) rfl fun _ none => by cases none
      refine ⟨taken.held, taken.promoted, fun r claimed => ⟨claimed, may.1⟩, taken.trusted⟩
  | recoverIncomplete =>
      apply within_takes ret _ _ rfl
      exact among_labels setup _ _ fun it member => List.mem_of_mem_filter member
  | listByState state =>
      cases state with
      | failed =>
          refine ⟨List.nil_subperm, List.Subperm.refl _, fun _ none => ?_, fun _ none => ?_⟩
          · cases none
          · cases none
      | cleanupFailed =>
          refine ⟨?_, List.nil_subperm, fun _ none => ?_, fun _ none => ?_⟩
          · exact within.held.append (List.Subperm.refl _)
          · cases none
          · cases none
      | _ => exact within_takes ret [] _ rfl fun _ none => by cases none
  | _ => exact within

theorem within_learn (within : Within n m) (operation : Op) (ret : Ret operation)
    (may : allowed setup m operation) :
    Within (Custody.learn setup n operation ret) (learn setup m operation ret) := by
  cases operation with
  | store operation =>
      cases ret with
      | error e =>
          cases operation with
          | setState r state now => exact within_same within _ rfl rfl rfl
          | recordCleanupAttempt r error state gate now => exact within_same within _ rfl rfl rfl
          | _ => exact within
      | ok ret => exact within_statement setup within operation ret may
  | deliver item label resume =>
      cases ret with
      | error e => exact within
      | ok delivered =>
          have lists := within_same within (learn setup m (.deliver item label resume) (.ok delivered))
            rfl rfl rfl
          refine ⟨lists.held, lists.promoted, lists.claimed, fun p member => ?_⟩
          rcases List.mem_append.mp member with own | before
          · rw [List.mem_singleton.mp own]
            exact Or.inr (Or.inr ⟨label, may⟩)
          · exact lists.trusted p before
  | verify item label expected policy => cases ret <;> exact within_same within _ rfl rfl rfl
  | joinAttempt =>
      change Within n (learnJoined m ret)
      unfold learnJoined
      split
      · split
        · exact within_same within _ rfl rfl rfl
        · exact within
      · exact within
  | awaitAction handle =>
      obtain ⟨stage, learned⟩ := learn_outcome_eq m ret
      change Within n (learnOutcome m ret)
      rw [learned]
      exact within_same within _ rfl rfl rfl
  | awaitQuarantine handle =>
      obtain ⟨stage, learned⟩ := learn_moved_eq m ret
      change Within n (learnMoved m ret)
      rw [learned]
      exact within_same within _ rfl rfl rfl
  | spawnBatch items now => exact within_nothing _
  | fs operation => exact within_same within _ rfl rfl rfl
  | startAction ctx => exact within_same within _ rfl rfl rfl
  | startQuarantine job => exact within_same within _ rfl rfl rfl
  | _ => exact within

theorem within_start (spec : Spec) : Within (Custody.start spec) (start spec) := by
  cases spec with
  | item owner item now => exact within_takes [item] [] _ rfl fun _ none => by cases none
  | _ => exact within_nothing _

end Lists

section Taking

variable {setup} {relpath}
variable {first : Version} {h : History} {c : Duo} {n : Custody.Notes}

theorem fresh_of_row (sound : Sound setup relpath first h c) (row : Row)
    (found : c.state.store.items relpath = some row) (unfinished : row.state.isTerminal = false) :
    h.lapsed = false := by
  by_contra lapsed
  have finished := sound.lapsed (Bool.not_eq_false _ ▸ lapsed)
  rw [isFinished, found] at finished
  exact absurd (finished.symm.trans unfinished) Bool.noConfusion

theorem copied_of_known (fresh : h.lapsed = false) (label : String)
    (known : Known relpath first h c (relpath, label)) : Copied relpath first h c label := by
  rcases known rfl with lapsed | copied
  · rw [fresh] at lapsed
    cases lapsed
  · exact copied

theorem row_of_listed (wanted : WorkItem → Bool) (rows : List WorkItem)
    (among : ∀ it ∈ rows, it ∈ c.state.store.select wanted)
    (listed : relpath ∈ rows.map WorkItem.relpath) :
    ∃ row, c.state.store.items relpath = some row ∧
      wanted (c.state.store.toItem relpath row) = true := by
  obtain ⟨it, member, rfl⟩ := List.mem_map.mp listed
  obtain ⟨is, row, found, same⟩ := c.state.store.mem_select wanted it (among it member)
  exact ⟨row, found, same ▸ is⟩

/-- What a statement gives a thread to hold is the item only if that has not lapsed. -/
theorem fresh_statement (sound : Sound setup relpath first h c) (m : Notes) (operation : StoreOp)
    (may : allowedStatement setup m operation)
    (fresh : relpath ∈ n.held ∨ relpath ∈ n.promoted ∨ relpath ∈ n.claimed → h.lapsed = false)
    (taken : let after := Custody.learnStatement setup n operation (callStore c.state.store operation).1
      relpath ∈ after.held ∨ relpath ∈ after.promoted ∨ relpath ∈ after.claimed) :
    h.lapsed = false := by
  have listed (wanted : WorkItem → Bool) (rows : List WorkItem)
      (among : ∀ it ∈ rows, it ∈ c.state.store.select wanted)
      (unfinished : ∀ row, wanted (c.state.store.toItem relpath row) = true → row.state.isTerminal = false)
      (member : relpath ∈ rows.map WorkItem.relpath) : h.lapsed = false := by
    obtain ⟨row, found, is⟩ := row_of_listed wanted rows among member
    exact fresh_of_row sound row found (unfinished row is)
  have left (r : String) (still : relpath ∈ (n.leave r).held ∨ relpath ∈ (n.leave r).promoted ∨
      relpath ∈ (n.leave r).claimed) : h.lapsed = false := by
    apply fresh
    rcases still with held | promoted | claimed
    · exact Or.inl (List.mem_of_mem_erase held)
    · exact Or.inr (Or.inl (List.mem_of_mem_erase promoted))
    · exact Or.inr (Or.inr (List.mem_of_mem_filter claimed))
  cases operation with
  | getRow r =>
      simp only [Custody.learnStatement, callStore, Custody.takeRow] at taken
      split at taken
      · rename_i item found
        obtain ⟨row, items, rfl⟩ := Option.map_eq_some_iff.mp found
        split at taken
        · rcases taken with none | none | none <;> cases none
        · rename_i unfinished
          rcases taken with held | none | none
          · obtain rfl : relpath = r := List.mem_singleton.mp held
            exact fresh_of_row sound row items (Bool.eq_false_iff.mpr (not_or.mp unfinished).2)
          · cases none
          · cases none
      · rcases taken with none | none | none <;> cases none
  | setState r state now =>
      simp only [Custody.learnStatement] at taken
      split at taken
      · exact fresh taken
      · exact left r taken
  | rollUpItem r state attempts gate error now =>
      simp only [Custody.learnStatement] at taken
      split at taken
      · exact left r taken
      · exact fresh taken
  | recordCleanupAttempt r error state gate now => exact left r taken
  | claimReady limit now =>
      have member : relpath ∈ (c.state.store.claimed limit now).map WorkItem.relpath := by
        rw [← c.state.store.claim_relpaths]
        rcases taken with held | none | claimed
        · exact held
        · cases none
        · exact claimed
      obtain ⟨row, found, ready⟩ := c.state.store.ready_of_claimed limit now relpath member
      exact fresh_of_row sound row found (by rw [ready]; rfl)
  | recoverIncomplete =>
      rcases taken with held | none | none
      · refine listed _ c.state.store.recoverIncomplete (fun it => id) (fun row is => ?_) held
        simp only [Store.toItem, Bool.or_eq_true] at is
        rcases is with (is | is) | is <;> rw [of_decide_eq_true is] <;> rfl
      · cases none
      · cases none
  | listByState state =>
      have open_ (is : state.isTerminal = false)
          (member : relpath ∈ (c.state.store.listByState state).map WorkItem.relpath) :
          h.lapsed = false := by
        refine listed _ (c.state.store.listByState state) (fun it => id) (fun row same => ?_) member
        rw [decide_eq_true_eq] at same
        exact (congrArg ItemState.isTerminal same).trans is
      have may := may.2
      cases state with
      | failed =>
          rcases taken with none | promoted | none
          · cases none
          · exact open_ rfl promoted
          · cases none
      | cleanupFailed =>
          rcases taken with held | none | none
          · rcases List.mem_append.mp held with was | read
            · exact fresh (Or.inl was)
            · exact open_ rfl read
          · cases none
          · cases none
      | cleanupPending =>
          rcases taken with held | none | none
          · exact open_ rfl held
          · cases none
          · cases none
      | exhausted =>
          rcases taken with held | none | none
          · exact open_ rfl held
          · cases none
          · cases none
      | _ => simp at may
  | _ => exact fresh taken

/-- A destination that a statement lets a thread record is one that holds the latest version. -/
theorem backed_statement (sound : Sound setup relpath first h c) (operation : StoreOp)
    (may : Custody.allowed n (.store operation))
    (fresh : relpath ∈ n.held ∨ relpath ∈ n.promoted ∨ relpath ∈ n.claimed → h.lapsed = false)
    (backed : ∀ label, (relpath, label) ∈ n.trusted → Copied relpath first h c label) (label : String)
    (trusted : (relpath, label) ∈
      (Custody.learnStatement setup n operation (callStore c.state.store operation).1).trusted) :
    Copied relpath first h c label := by
  have whole (row : Row) (found : c.state.store.items relpath = some row)
      (verified : row.state = .verified) (member : label ∈ setup.labels) :
      Copied relpath first h c label := by
    refine copied_of_known (fresh_of_row sound row found ?_) label
      (sound.whole row found verified label member)
    rw [verified]
    rfl
  cases operation with
  | destStates r =>
      rcases List.mem_append.mp trusted with read | before
      · obtain ⟨l, verified, same⟩ := List.mem_map.mp read
        cases same
        have phase := (List.mem_filter.mp verified).2
        rw [decide_eq_true_eq] at phase
        exact copied_of_known (fresh (Or.inl may)) label
          (sound.counts.told.verified relpath label phase)
      · exact backed label before
  | getRow r =>
      simp only [Custody.learnStatement, callStore, Custody.takeRow] at trusted
      split at trusted
      · rename_i item found
        obtain ⟨row, items, rfl⟩ := Option.map_eq_some_iff.mp found
        split at trusted
        · cases trusted
        · simp only [Custody.Notes.takes] at trusted
          split at trusted
          · rename_i verified
            obtain ⟨l, member, same⟩ := List.mem_map.mp trusted
            cases same
            exact whole row items verified member
          · cases trusted
      · cases trusted
  | setState r state now =>
      simp only [Custody.learnStatement] at trusted
      split at trusted
      · exact backed label trusted
      · exact backed label (List.mem_of_mem_filter trusted)
  | rollUpItem r state attempts gate error now =>
      simp only [Custody.learnStatement] at trusted
      split at trusted
      · exact backed label (List.mem_of_mem_filter trusted)
      · exact backed label trusted
  | recordCleanupAttempt r error state gate now => exact backed label (List.mem_of_mem_filter trusted)
  | claimReady limit now => cases trusted
  | recoverIncomplete =>
      obtain ⟨it, member, labelled⟩ := List.mem_flatMap.mp trusted
      obtain ⟨l, configured, same⟩ := List.mem_map.mp labelled
      cases same
      obtain ⟨listed, verified⟩ := List.mem_filter.mp member
      obtain ⟨row, found, state, _⟩ := c.state.store.mem_recover_incomplete it listed
      exact whole row found (state.trans (of_decide_eq_true verified)) configured
  | listByState state => cases state <;> cases trusted
  | _ => exact backed label trusted

end Taking

/-! ## One call -/

section Call

variable {setup} {relpath}
variable {first : Version} {h after : History} {c : Duo} {t : Hand} {operation : Op}
variable {ret : Ret operation} {effect : Effect World Spec}
variable {next : Ret operation → Program Unit}

/-- What is remembered after a call: nothing else is written. -/
structure Later (h after : History) : Prop where
  written : after.written = h.written
  lapsed : after.lapsed = true → h.lapsed = true

theorem latest_of_source (sound : Sound setup relpath first h c) (bytes : Bytes)
    (source : sourceBytes setup c.state relpath = some bytes) : (h.latest first).bytes = bytes := by
  unfold sourceBytes at source
  split at source
  · rename_i there
    cases source
    rw [sound.reads _ _ there]
  · cases source

theorem copied_of_did (sound : Sound setup relpath first h c)
    (called : Called setup c t operation ret effect next) (later : Later h after) (label : String)
    (copied : Copied relpath first h c label) :
    effect.state.objects relpath label = some (after.latest first).bytes := by
  have same : after.latest first = h.latest first := by
    simp only [History.latest, later.written]
  rw [same]
  rcases did_objects setup _ _ c.state operation ret effect called.did relpath label with kept |
    ⟨bytes, source, made⟩
  · exact kept.trans copied
  · rw [made, latest_of_source sound bytes source]

theorem reads_of_did (sound : Sound setup relpath first h c)
    (called : Called setup c t operation ret effect next) (later : Later h after)
    (spares : ∀ call, operation = .fs call → ¬Makes (setup.absSource relpath) call) (bytes : Bytes)
    (mtimeMs : Int) (there : effect.state.tree (setup.absSource relpath) = some (.file bytes mtimeMs)) :
    after.latest first = ⟨bytes, mtimeMs⟩ := by
  have same : after.latest first = h.latest first := by
    simp only [History.latest, later.written]
  rw [same]
  apply sound.reads
  by_cases disk : ∃ call, operation = .fs call
  · obtain ⟨call, rfl⟩ := disk
    cases called.did with
    | disk _ answer =>
        rcases call_spares c.state.tree call answer _ (spares call rfl) with kept | gone
        · exact kept ▸ there
        · cases gone.symm.trans there
  · rw [← did_tree setup _ _ c.state operation ret effect called.did fun call same => disk ⟨call, same⟩]
    exact there

theorem keeps_learn (manned : Manned setup c) (called : Called setup c t operation ret effect next)
    (n : Custody.Notes) (keeps : Keeps (custody setup) t.prog n fun _ _ => True)
    (within : Within n t.notes.1) :
    Custody.allowed n operation ∧
      Keeps (custody setup) (next ret) (Custody.learn setup n operation ret) (fun _ _ => True) ∧
        Within (Custody.learn setup n operation ret) (learn setup t.notes.1 operation ret) := by
  rw [called.prog] at keeps
  obtain ⟨may, going⟩ := keeps
  have did := called.did
  rw [← show Machine.live (forget Prod.fst c) = Machine.live c from live_forget c] at did
  have possible := did_possible setup (forget Prod.fst c) manned.base (forgetThread Prod.fst t)
    operation ret effect did
  exact ⟨may, going ret possible, within_learn setup within operation ret called.may⟩

theorem holds_learn (sound : Sound setup relpath first h c)
    (called : Called setup c t operation ret effect next) (later : Later h after) (n : Custody.Notes)
    (holds : Holds setup relpath first h c t n) :
    Keeps (custody setup) (next ret) (Custody.learn setup n operation ret) (fun _ _ => True) ∧
      Within (Custody.learn setup n operation ret) (learn setup t.notes.1 operation ret) ∧
      (∀ label, (relpath, label) ∈ (Custody.learn setup n operation ret).trusted →
        effect.state.objects relpath label = some (after.latest first).bytes) ∧
      (relpath ∈ (Custody.learn setup n operation ret).held ∨
          relpath ∈ (Custody.learn setup n operation ret).promoted ∨
            relpath ∈ (Custody.learn setup n operation ret).claimed → after.lapsed = false) := by
  obtain ⟨may, going, within⟩ := keeps_learn sound.manned called n holds.keeps holds.within
  have old (label : String) (trusted : (relpath, label) ∈ n.trusted) :
      effect.state.objects relpath label = some (after.latest first).bytes :=
    copied_of_did sound called later label (holds.copied label trusted)
  have still (taken : relpath ∈ n.held ∨ relpath ∈ n.promoted ∨ relpath ∈ n.claimed) :
      after.lapsed = false := by
    by_contra lapsed
    have before := later.lapsed (Bool.not_eq_false _ ▸ lapsed)
    exact absurd ((holds.fresh taken).symm.trans before) Bool.noConfusion
  refine ⟨going, within, ?_, ?_⟩
  · intro label trusted
    cases called.did with
    | statement operation =>
        exact copied_of_did sound called later label
          (backed_statement sound operation may holds.fresh holds.copied label trusted)
    | delivered item l resume bytes source =>
        rcases List.mem_append.mp trusted with own | before
        · cases List.mem_singleton.mp own
          have same : after.latest first = h.latest first := by
            simp only [History.latest, later.written]
          simp only [changes, setObject, and_self, if_true, same, latest_of_source sound bytes source]
        · exact old label before
    | spawnedBatch items now => cases trusted
    | _ => exact old label trusted
  · intro taken
    cases called.did with
    | statement operation =>
        have fresh := fresh_statement sound t.notes.1 operation called.may holds.fresh taken
        by_contra lapsed
        exact absurd (fresh.symm.trans (later.lapsed (Bool.not_eq_false _ ▸ lapsed))) Bool.noConfusion
    | spawnedBatch items now => rcases taken with none | none | none <;> cases none
    | _ => exact still taken

/-- The item stays lapsed as long as its row is finished: only who holds the row moves it on. -/
theorem finished_of_did (sound : Sound setup relpath first h c)
    (called : Called setup c t operation ret effect next)
    (plain : restarts c.state.store operation ret ≠ some relpath) (lapsed : h.lapsed = true) :
    isFinished relpath effect.state.store = true := by
  have finished := sound.lapsed lapsed
  obtain ⟨n, holds⟩ := sound.holds t called.member
  have keeps := holds.keeps
  rw [called.prog] at keeps
  have may : Custody.allowed n operation := keeps.1
  have apart (r : String) (taken : r ∈ n.held ∨ r ∈ n.promoted) : relpath ≠ r := by
    rintro rfl
    have fresh := holds.fresh (taken.imp_right Or.inl)
    exact absurd (fresh.symm.trans lapsed) Bool.noConfusion
  have moved (r : String) (change : Row → Row) (other : relpath ≠ r) :
      isFinished relpath (c.state.store.updateRow r change) = true := by
    rw [isFinished, Store.items_update, if_neg other]
    exact finished
  cases called.did with
  | statement operation =>
      cases operation with
      | setState r state now => exact moved r _ (apart r may)
      | rollUpItem r state attempts gate error now => exact moved r _ (apart r (Or.inl may))
      | recordCleanupAttempt r error state gate now => exact moved r _ (apart r (Or.inl may))
      | setBytesDone r bytes now =>
          change isFinished relpath (c.state.store.updateRow r _) = true
          rw [isFinished, Store.items_update]
          split
          · rw [isFinished] at finished
            rw [Option.any_map]
            exact finished
          · exact finished
      | upsertReady r size mtimeMs now =>
          obtain ⟨others, own⟩ := c.state.store.upsert_cases r size mtimeMs now
          change isFinished relpath (c.state.store.upsertReady r size mtimeMs now) = true
          by_cases mine : relpath = r
          · subst mine
            have stays : startsOver size mtimeMs (c.state.store.items relpath) ≠ true :=
              fun anew => plain (if_pos anew)
            rcases own with ⟨absent, _⟩ | ⟨row, found, anew, _⟩ | ⟨row, found, _, kept, _⟩
            · rw [absent] at stays
              exact absurd rfl stays
            · rw [found] at stays
              exact absurd anew stays
            · rw [isFinished, found] at finished
              rw [isFinished, kept]
              exact finished
          · rw [isFinished, (others relpath mine).1]
            exact finished
      | claimReady limit now =>
          simp only [isFinished, changes, callStore, Store.claimReady]
          split
          · rename_i picked
            obtain ⟨row, found, ready⟩ := c.state.store.ready_of_claimed limit now relpath picked
            rw [isFinished, found] at finished
            have unfinished : row.state.isTerminal = false := by
              rw [ready]
              rfl
            exact absurd (finished.symm.trans unfinished) Bool.noConfusion
          · exact finished
      | _ => exact finished
  | undelivered item l resume left error now stored =>
      rcases stored with rfl | ⟨_, _, rfl⟩ <;> exact finished
  | _ => exact finished

/-- A row is verified if it was, or if its thread is sure of every destination. -/
theorem whole_of_did (sound : Sound setup relpath first h c)
    (called : Called setup c t operation ret effect next) (row : Row)
    (found : effect.state.store.items relpath = some row) (verified : row.state = .verified) :
    ∀ label ∈ setup.labels, Known relpath first h c (relpath, label) := by
  have may := called.may
  cases called.did with
  | statement operation =>
      rcases Relabelling.reached_call (fun state => state = .verified) c.state.store rfl rfl operation
        relpath row found (decide_eq_true verified) with ⟨before, was, is⟩ | moved
      · exact sound.whole before was (of_decide_eq_true is)
      · unfold Relabelling.reaches at moved
        split at moved
        · split at moved
          · rename_i state _ is
            cases moved
            cases of_decide_eq_true is
            obtain ⟨_, _, todo, surely⟩ := may
            have sure := sure_of_called sound.manned sound.counts called
              (Or.inl (List.ne_nil_of_mem todo)) Op.noConfusion Op.noConfusion
            exact fun label member => sure.sure relpath (Or.inl todo) label member (surely label member)
          · cases moved
        · split at moved
          · rename_i is
            cases of_decide_eq_true is
            rcases may.2.2.2 with other | other <;> cases other
          · cases moved
        · split at moved
          · rename_i is
            cases of_decide_eq_true is
            cases may.1
          · cases moved
        · cases moved
  | undelivered item l resume left error now stored =>
      apply sound.whole row _ verified
      rcases stored with rfl | ⟨_, _, rfl⟩ <;> exact found
  | _ => exact sound.whole row found verified

/-- An action is started for an item that has not lapsed, and that all destinations hold. -/
theorem acts_of_did (sound : Sound setup relpath first h c)
    (called : Called setup c t operation ret effect next) (handle : Nat) (ctx : CleanupCtx)
    (spawned : .action handle ctx ∈ effect.spawned) (own : ctx.relpath = relpath) :
    ctx.src = setup.absSource relpath ∧ ∀ label ∈ setup.labels, Copied relpath first h c label := by
  obtain ⟨n, holds⟩ := sound.holds t called.member
  have keeps := holds.keeps
  rw [called.prog] at keeps
  have held : Custody.allowed n operation := keeps.1
  have may := called.may
  cases called.did with
  | startedAction other =>
      cases List.mem_singleton.mp spawned
      obtain ⟨_, todo, surely, item, checksum, rfl⟩ := may
      obtain rfl : item.relpath = relpath := own
      have sure := sure_of_called sound.manned sound.counts called
        (Or.inl (List.ne_nil_of_mem todo)) Op.noConfusion Op.noConfusion
      refine ⟨rfl, fun label member => ?_⟩
      exact copied_of_known (holds.fresh (Or.inl held)) label
        (sure.sure _ (Or.inl todo) label member (surely label member))
  | spawnedAttempts contexts =>
      obtain ⟨_, _, same⟩ := List.mem_map.mp spawned
      cases same
  | startedQuarantine job => cases List.mem_singleton.mp spawned
  | spawnedBatch items now =>
      obtain ⟨_, _, same⟩ := List.mem_map.mp spawned
      cases same
  | _ => cases spawned

theorem taken_of_did (sound : Sound setup relpath first h c)
    (called : Called setup c t operation ret effect next) (spec : Spec) (spawned : spec ∈ effect.spawned)
    (taken : relpath ∈ (Custody.start spec).held ∨ relpath ∈ (Custody.start spec).promoted ∨
      relpath ∈ (Custody.start spec).claimed) : h.lapsed = false := by
  obtain ⟨n, holds⟩ := sound.holds t called.member
  have keeps := holds.keeps
  rw [called.prog] at keeps
  have claimed : Custody.allowed n operation := keeps.1
  cases called.did with
  | spawnedBatch items now =>
      obtain ⟨item, member, rfl⟩ := List.mem_map.mp spawned
      rcases taken with held | none | none
      · obtain rfl : relpath = item.relpath := List.mem_singleton.mp held
        exact holds.fresh (Or.inr (Or.inr (claimed item member)))
      · cases none
      · cases none
  | spawnedAttempts contexts =>
      obtain ⟨_, _, rfl⟩ := List.mem_map.mp spawned
      rcases taken with none | none | none <;> cases none
  | startedAction ctx =>
      cases List.mem_singleton.mp spawned
      rcases taken with none | none | none <;> cases none
  | startedQuarantine job =>
      cases List.mem_singleton.mp spawned
      rcases taken with none | none | none <;> cases none
  | _ => cases spawned

theorem start_trusts_nothing (spec : Spec) : (Custody.start spec).trusted = [] := by
  cases spec <;> rfl

/-- Whatever has been counted on and taken up is as sound after a call as before it. -/
theorem sound_call (sound : Sound setup relpath first h c)
    (called : Called setup c t operation ret effect next) (later : Later h after)
    (spares : ∀ call, operation = .fs call → ¬Makes (setup.absSource relpath) call)
    (manned : Manned setup ((duo setup).settle c ((duo setup).resumed t operation ret next) effect))
    (counts : Counts setup (Known relpath first after
        ((duo setup).settle c ((duo setup).resumed t operation ret next) effect))
      ((duo setup).settle c ((duo setup).resumed t operation ret next) effect))
    (whole : ∀ row, effect.state.store.items relpath = some row → row.state = .verified →
      ∀ label ∈ setup.labels, Known relpath first after
        ((duo setup).settle c ((duo setup).resumed t operation ret next) effect) (relpath, label))
    (lapsed : after.lapsed = true → isFinished relpath effect.state.store = true) :
    Sound setup relpath first after
      ((duo setup).settle c ((duo setup).resumed t operation ret next) effect) := by
  refine ⟨?_, reads_of_did sound called later spares⟩
  constructor
  case manned => exact manned
  case counts => exact counts
  case whole => exact whole
  case lapsed => exact lapsed
  case holds =>
    have fresh (was : h.lapsed = false) : after.lapsed = false := by
      by_contra lapsed
      have before := later.lapsed (Bool.not_eq_false _ ▸ lapsed)
      exact absurd (was.symm.trans before) Bool.noConfusion
    intro u hu
    rcases mem_settle (duo setup) c _ u effect hu with ⟨same, _⟩ | ⟨before, hbefore, _, same, _⟩ |
      ⟨new, hnew, same⟩
    · obtain ⟨n, holds⟩ := sound.holds t called.member
      obtain ⟨keeps, within, copied, taken⟩ := holds_learn sound called later n holds
      exact ⟨_, same.prog ▸ keeps, same.notes ▸ within, copied, taken⟩
    · obtain ⟨n, holds⟩ := sound.holds before hbefore
      refine ⟨n, same.prog ▸ holds.keeps, same.notes ▸ holds.within, ?_, fun taken => ?_⟩
      · exact fun label trusted => copied_of_did sound called later label (holds.copied label trusted)
      · exact fresh (holds.fresh taken)
    · obtain ⟨spawned, _, _, _, notes, prog⟩ := mem_spawn_from (duo setup) _ _ new hnew
      refine ⟨Custody.start new.spec, ?_, ?_, ?_, fun taken => ?_⟩
      · rw [same.prog, prog]
        exact Custody.main_keeps setup new.spec
      · rw [same.notes, notes]
        exact within_start new.spec
      · intro label trusted
        rw [start_trusts_nothing] at trusted
        cases trusted
      · exact fresh (taken_of_did sound called new.spec spawned taken)
  case acts =>
    have grows (src : Path)
        (acts : src = setup.absSource relpath ∧ ∀ label ∈ setup.labels, Copied relpath first h c label) :
        src = setup.absSource relpath ∧ ∀ label ∈ setup.labels,
          effect.state.objects relpath label = some (after.latest first).bytes :=
      ⟨acts.1, fun label member => copied_of_did sound called later label (acts.2 label member)⟩
    refine all_settle (duo setup) (fun spec _ => ∀ handle ctx, spec = .action handle ctx →
      ctx.relpath = relpath → ctx.src = setup.absSource relpath ∧ ∀ label ∈ setup.labels,
        effect.state.objects relpath label = some (after.latest first).bytes)
      c t operation ret effect next ?_ ?_ ?_
    · exact fun handle ctx spec own => grows _ (sound.acts t called.member handle ctx spec own)
    · exact fun u hu _ handle ctx spec own => grows _ (sound.acts u hu handle ctx spec own)
    · rintro _ spawned handle ctx rfl own
      exact grows _ (acts_of_did sound called handle ctx spawned own)

theorem known_vouched (sound : Sound setup relpath first h c)
    (called : Called setup c t operation ret effect next) (label : String)
    (vouched : vouches operation ret = some (relpath, label)) : Copied relpath first h c label := by
  obtain ⟨n, holds⟩ := sound.holds t called.member
  have keeps := holds.keeps
  rw [called.prog] at keeps
  have may : Custody.allowed n operation := keeps.1
  unfold vouches at vouched
  split at vouched
  · cases vouched
    exact holds.copied label (may rfl)
  · cases vouched

theorem sound_plain (sound : Sound setup relpath first h c)
    (called : Called setup c t operation ret effect next)
    (plain : restarts c.state.store operation ret ≠ some relpath)
    (spares : ∀ call, operation = .fs call → ¬Makes (setup.absSource relpath) call)
    (manned : Manned setup ((duo setup).settle c ((duo setup).resumed t operation ret next) effect)) :
    Sound setup relpath first h
      ((duo setup).settle c ((duo setup).resumed t operation ret next) effect) := by
  have later : Later h h := ⟨rfl, id⟩
  have grows : ∀ p, Known relpath first h c p → Known relpath first h
      ((duo setup).settle c ((duo setup).resumed t operation ret next) effect) p :=
    fun p known own => (known own).imp_right (copied_of_did sound called later p.2)
  refine sound_call sound called later spares manned ?_ ?_ ?_
  · refine counts_settle sound.manned sound.counts called grows ?_
    rintro ⟨r, label⟩ vouched rfl
    exact Or.inr (copied_of_did sound called later label (known_vouched sound called label vouched))
  · exact fun row found verified label member =>
      grows _ (whole_of_did sound called row found verified label member)
  · exact finished_of_did sound called plain

theorem sound_anew (sound : Sound setup relpath first h c)
    (called : Called setup c t operation ret effect next)
    (anew : restarts c.state.store operation ret = some relpath)
    (spares : ∀ call, operation = .fs call → ¬Makes (setup.absSource relpath) call)
    (manned : Manned setup ((duo setup).settle c ((duo setup).resumed t operation ret next) effect)) :
    Sound setup relpath first { h with lapsed := false }
      ((duo setup).settle c ((duo setup).resumed t operation ret next) effect) := by
  obtain ⟨size, mtimeMs, now, looks, starts, learned, done, _⟩ :=
    upsert_of_restart (h := VerifiedFirst.History.blank) called relpath anew
  have later : Later h { h with lapsed := false } := ⟨rfl, fun none => by cases none⟩
  refine sound_call sound called later spares manned ?_ ?_ fun none => by cases none
  · exact counts_restart sound.manned sound.counts called relpath size mtimeMs now looks starts learned
      done fun p _ other own => absurd own other
  · intro row found verified
    rw [done] at found
    change (c.state.store.upsertReady relpath size mtimeMs now).items relpath = some row at found
    -- the row is ready now
    rcases (c.state.store.upsert_cases relpath size mtimeMs now).2 with ⟨_, fresh, _⟩ |
      ⟨_, _, _, fresh, _⟩ | ⟨old, was, stays, _⟩
    · rw [fresh] at found
      cases found
      cases verified
    · rw [fresh] at found
      cases found
      cases verified
    · rw [was] at starts
      exact absurd (stays.symm.trans starts) Bool.noConfusion

end Call

section Outside

variable {setup} {relpath}
variable {first : Version} {h after : History} {c : Duo}

theorem sound_without (sound : Sound setup relpath first h c) (id : Nat)
    (manned : Manned setup ((duo setup).without c id)) :
    Sound setup relpath first h ((duo setup).without c id) := by
  refine ⟨⟨manned, counts_without sound.counts id, sound.whole, ?_, sound.lapsed, ?_⟩, sound.reads⟩
  · intro u hu
    obtain ⟨before, hbefore, _, same⟩ := mem_without (duo setup) c id u hu
    obtain ⟨n, holds⟩ := sound.holds before hbefore
    exact ⟨n, same.prog ▸ holds.keeps, same.notes ▸ holds.within, holds.copied, holds.fresh⟩
  · intro u hu handle ctx spec
    obtain ⟨before, hbefore, _, same⟩ := mem_without (duo setup) c id u hu
    exact sound.acts before hbefore handle ctx (same.spec ▸ spec)

/-- A source that is rewritten while its item is at rest: whoever counts on a destination has lapsed. -/
theorem stands_rewritten (stands : Stands setup relpath first h c) (rest : AtRest relpath c)
    (version : Version) :
    Stands setup relpath first ⟨some version, h.lapsed || isFinished relpath c.state.store⟩ c := by
  have finished (row : Row) (found : c.state.store.items relpath = some row)
      (counts : counted row.state = true ∨ ∃ label, c.state.store.phase relpath label = .verified) :
      (h.lapsed || isFinished relpath c.state.store) = true := by
    rw [Bool.or_eq_true]
    right
    rcases rest.row row found with terminal | ⟨none, pending⟩
    · rw [isFinished, found]
      exact terminal
    · rcases counts with counts | ⟨label, phase⟩
      · exact absurd (none.symm.trans counts) Bool.noConfusion
      · exact absurd phase (pending label)
  refine ⟨stands.manned, ⟨?_, ?_, ?_⟩, ?_, ?_, ?_, ?_⟩
  · constructor
    · rintro r label phase rfl
      obtain ⟨row, found⟩ := Option.ne_none_iff_exists'.mp (stands.manned.rooted r label phase)
      exact Or.inl (finished row found (Or.inr ⟨label, phase⟩))
    · rintro r row found owes label _ rfl
      refine Or.inl (finished row found (Or.inl ?_))
      cases state : row.state with
      | cleanupPending => rfl
      | cleanupFailed => rfl
      | _ =>
          rw [state] at owes
          cases owes
  · intro u hu _
    constructor
    · rintro r minds label _ _ rfl
      exact absurd minds (rest.unminded u hu)
    · rintro r acting label _ rfl
      exact absurd acting (rest.undriven u hu)
  · rintro v hv r role label _ rfl
    obtain ⟨u, hu, rfl⟩ := List.mem_map.mp hv
    exact absurd (Or.inr (Or.inl role)) (rest.unminded u hu)
  · intro row found verified label _ _
    exact Or.inl (finished row found (Or.inl (by rw [verified]; rfl)))
  · intro u hu
    obtain ⟨n, holds⟩ := stands.holds u hu
    refine ⟨n, holds.keeps, holds.within, fun label trusted => ?_, fun taken => ?_⟩
    · exact absurd (holds.within.trusted _ trusted) (rest.unminded u hu)
    · rcases taken with held | promoted | claimed
      · exact absurd (minds_of_held holds.within relpath held) (rest.unminded u hu)
      · exact absurd (holds.within.promoted.subset promoted) (rest.unpromoted u hu)
      · exact absurd (Or.inl (holds.within.claimed relpath claimed).1) (rest.unminded u hu)
  · intro lapsed
    rcases Bool.or_eq_true _ _ ▸ lapsed with before | now
    · exact stands.lapsed before
    · exact now
  · exact fun u hu handle ctx spec own => absurd own (rest.inactive u hu handle ctx spec)

theorem stands_absorb (stands : Stands setup relpath first h c) (event : Event)
    (reaction : Reaction World Spec) (reacted : react c.state (Machine.live c) event = some reaction)
    (manned : Manned setup ((duo setup).absorb c reaction))
    (kept : ∀ label, reaction.state.objects relpath label = c.state.objects relpath label) :
    Stands setup relpath first h ((duo setup).absorb c reaction) := by
  obtain ⟨store, _, spawned⟩ := react_base _ _ event reaction reacted
  have still : Known relpath first h ((duo setup).absorb c reaction) = Known relpath first h c := by
    funext p
    simp only [Known, Copied, Machine.absorb, kept]
  have copied (label : String) (was : Copied relpath first h c label) :
      Copied relpath first h ((duo setup).absorb c reaction) label := (kept label).trans was
  constructor
  case manned => exact manned
  case counts =>
    rw [still]
    exact counts_absorb stands.manned stands.counts event reaction reacted
  case whole =>
    rw [still]
    change ∀ row, reaction.state.store.items relpath = some row → _
    rw [store]
    exact stands.whole
  case lapsed =>
    change _ → isFinished relpath reaction.state.store = true
    rw [store]
    exact stands.lapsed
  case holds =>
    intro u hu
    rcases mem_absorb (duo setup) c reaction u hu with ⟨_, before, hbefore, same⟩ | ⟨new, hnew, same⟩
    · obtain ⟨n, holds⟩ := stands.holds before hbefore
      exact ⟨n, same.prog ▸ holds.keeps, same.notes ▸ holds.within,
        fun label trusted => copied label (holds.copied label trusted), holds.fresh⟩
    · obtain ⟨listed, _, _, _, notes, prog⟩ := mem_spawn_from (duo setup) _ _ new hnew
      -- what is started recovers or ticks, and has taken nothing up
      have nothing : Custody.start new.spec = .nothing := by
        have role := spawned new.spec listed
        cases spec : new.spec with
        | item owner item now =>
            rw [spec] at role
            rcases role with role | role <;> cases role
        | _ => rfl
      refine ⟨.nothing, ?_, ?_, ?_, fun taken => ?_⟩
      · rw [same.prog, prog, ← nothing]
        exact Custody.main_keeps setup new.spec
      · exact within_nothing _
      · intro label none
        cases none
      · rcases taken with none | none | none <;> cases none
  case acts =>
    refine all_absorb (duo setup) (fun spec _ => ∀ handle ctx, spec = .action handle ctx →
      ctx.relpath = relpath → ctx.src = setup.absSource relpath ∧ ∀ label ∈ setup.labels,
        Copied relpath first h ((duo setup).absorb c reaction) label) c reaction ?_ ?_
    · intro u hu handle ctx spec own
      obtain ⟨src, all⟩ := stands.acts u hu handle ctx spec own
      exact ⟨src, fun label member => copied label (all label member)⟩
    · rintro _ started handle ctx rfl _
      rcases spawned _ started with role | role <;> cases role

theorem pass_other (event : Event) (later : Duo)
    (other : ¬∃ bytes mtimeMs, event = .touch (setup.absSource relpath) (some (.file bytes mtimeMs))) :
    pass setup relpath event c later h = h := by
  unfold pass
  split
  · rename_i path bytes mtimeMs
    refine if_neg ?_
    rintro rfl
    exact other ⟨bytes, mtimeMs, rfl⟩
  · rfl

/-- Whoever touches the source, what is counted on stands and the source is what was written last. -/
theorem sound_event (sound : Sound setup relpath first h c) (event : Event)
    (reaction : Reaction World Spec) (met : Meets setup relpath h c (.env event))
    (reacted : react c.state (Machine.live c) event = some reaction)
    (manned : Manned setup ((duo setup).absorb c reaction)) :
    Sound setup relpath first (pass setup relpath event c ((duo setup).absorb c reaction) h)
      ((duo setup).absorb c reaction) := by
  have kept : ∀ label, reaction.state.objects relpath label = c.state.objects relpath label := by
    intro label
    rcases react_objects _ c.state event reaction reacted with ⟨r, l, object, rfl, altered⟩ | same
    · rw [altered]
      refine if_neg ?_
      rintro ⟨rfl, _⟩
      exact met.kept l object rfl
    · rw [same]
  by_cases rewrites : ∃ bytes mtimeMs, event = .touch (setup.absSource relpath) (some (.file bytes mtimeMs))
  · obtain ⟨bytes, mtimeMs, rfl⟩ := rewrites
    have rewritten := stands_rewritten sound.toStands (met.rests bytes mtimeMs rfl) ⟨bytes, mtimeMs⟩
    have passed : pass setup relpath (.touch (setup.absSource relpath) (some (.file bytes mtimeMs))) c
        ((duo setup).absorb c reaction) h =
          ⟨some ⟨bytes, mtimeMs⟩, h.lapsed || isFinished relpath c.state.store⟩ := if_pos rfl
    rw [passed]
    refine ⟨stands_absorb rewritten _ reaction reacted manned kept, fun now at_ there => ?_⟩
    cases reacted
    have found : put c.state.tree (setup.absSource relpath) (some (.file bytes mtimeMs))
        (setup.absSource relpath) = some (.file now at_) := there
    rw [put, if_pos rfl] at found
    cases found
    rfl
  · rw [pass_other event _ rewrites]
    refine ⟨stands_absorb sound.toStands event reaction reacted manned kept, fun bytes mtimeMs there => ?_⟩
    change reaction.state.tree (setup.absSource relpath) = _ at there
    rcases react_tree _ c.state event reaction reacted with ⟨path, node, rfl, tree⟩ | same
    · by_cases own : setup.absSource relpath = path
      · subst own
        rw [tree, put, if_pos rfl] at there
        exact absurd ⟨bytes, mtimeMs, by rw [there]⟩ rewrites
      · rw [tree, put_other _ _ _ _ own] at there
        exact sound.reads bytes mtimeMs there
    · exact sound.reads bytes mtimeMs (same ▸ there)

end Outside

section Runs

variable {setup} {relpath}
variable {first : Version}

theorem follow_eq {h : History} {c : Duo} {t : Hand} {operation : Op} {ret : Ret operation}
    {effect : Effect World Spec} {next : Ret operation → Program Unit} (manned : Manned setup c)
    (choice : Choice Answer Event) (calls : Calls (duo setup) c t operation ret effect next choice) :
    (recording setup relpath).follow c choice
        ((duo setup).settle c ((duo setup).resumed t operation ret next) effect) h =
      if restarts c.state.store operation ret = some relpath then { h with lapsed := false } else h := by
  obtain ⟨answer, rfl, performed⟩ := calls.choice
  have distinct := distinct_of_forget Prod.fst c manned.base.distinct
  have answered : perform setup c.state t (Machine.live c) operation answer =
      some (ret, effect) := performed
  rw [follow_call _ _ _ c _ distinct t calls.member operation next calls.prog, heed, answered]

theorem sound_step (h : History) (c after : Duo) (choice : Choice Answer Event)
    (sound : Sound setup relpath first h c) (met : Meets setup relpath h c choice)
    (stepped : (duo setup).step c choice = some after) :
    Sound setup relpath first ((recording setup relpath).follow c choice after h) after := by
  have manned := manned_step choice sound.manned met.waits stepped
  rcases step_cases (duo setup) c after choice stepped with
    ⟨t, operation, ret, effect, next, calls, rfl⟩ | ⟨id, rfl, _, rfl⟩ |
    ⟨event, reaction, rfl, reacted, rfl⟩
  · have called := called_of_calls sound.manned.toStaffed choice calls
    have spares : ∀ call, operation = .fs call → ¬Makes (setup.absSource relpath) call := by
      rintro call rfl
      obtain ⟨answer, made, _⟩ := calls.choice
      exact met.spares t calls.member answer call next made calls.prog
    rw [follow_eq sound.manned choice calls]
    split
    · rename_i anew
      exact sound_anew sound called anew spares manned
    · rename_i plain
      exact sound_plain sound called plain spares manned
  · exact sound_without sound id manned
  · exact sound_event sound event reaction met reacted manned

theorem sound_first (c : Duo) (starts : Starts setup relpath first c) :
    Sound setup relpath first ⟨none, false⟩ c := by
  have idle : c.threads = [] := List.map_eq_nil_iff.mp starts.begins.threads
  have nobody : ∀ t, t ∉ c.threads := by
    intro t
    rw [idle]
    exact List.not_mem_nil
  refine ⟨?_, starts.source⟩
  constructor
  case manned => exact manned_begins setup c starts.begins starts.rooted
  case counts =>
    refine ⟨⟨?_, ?_⟩, fun u hu => absurd hu (nobody u), fun v hv => ?_⟩
    · rintro r label phase rfl
      exact Or.inr (starts.verified label phase)
    · rintro r row found owes label member rfl
      refine Or.inr (starts.counted row found ?_ label member)
      cases state : row.state with
      | cleanupPending => rfl
      | cleanupFailed => rfl
      | _ =>
          rw [state] at owes
          cases owes
    · obtain ⟨u, hu, _⟩ := List.mem_map.mp hv
      exact absurd hu (nobody u)
  case whole =>
    intro row found verified label member _
    exact Or.inr (starts.counted row found (by rw [verified]; rfl) label member)
  case holds => exact fun u hu => absurd hu (nobody u)
  case lapsed => exact fun none => by cases none
  case acts => exact fun u hu => absurd hu (nobody u)

end Runs

def TakesAway (path : Path) : FsOp → Prop
  | .removeFile p => p = path
  | .rename source _ => source = path
  | _ => False

/-- What the action of the item is about to take away is at every destination. -/
def Replicated (c : Duo) : Prop :=
  ∀ t ∈ c.threads, ∀ handle ctx, t.spec = .action handle ctx → ctx.relpath = relpath →
    ∀ operation next, t.prog = .call (.fs operation) next → TakesAway ctx.src operation →
      ∀ bytes mtimeMs, c.state.tree ctx.src = some (.file bytes mtimeMs) →
        ∀ label ∈ setup.labels, c.state.objects relpath label = some bytes

abbrev small : Setup := smallSetup plainCompletion

def copiedWorld (store : Store) (bytes : Bytes) : World :=
  { smallWorld [(["in"], .dir), (["in", "a"], .file bytes 0)] with
    store := store
    objects := fun r label => if r = "a" ∧ label = "local" then some bytes else none }

/-- An item of one byte that is completed; its file has been left. -/
def completed : Duo :=
  ⟨copiedWorld (((emptyStore "plant").upsertReady "a" 1 0 0).setState "a" .completed 0) [1], [], 0⟩

/-- An empty file that is verified, and could not be deleted. -/
def uncleaned : Duo :=
  ⟨copiedWorld ((((emptyStore "plant").upsertReady "a" 0 0 0).setDestPhase "a" "local" .verified).setState
    "a" .cleanupFailed 0) [], [], 0⟩

theorem keyed_empty (size : Nat) : Keyed ((emptyStore "plant").upsertReady "a" size 0 0) :=
  keyed_upsert _ ⟨List.nodup_nil, fun _ none => by cases none⟩ "a" size 0 0

theorem completed_starts : Starts small "a" ⟨[1], 0⟩ completed := by
  have pending : ∀ r label, completed.state.store.phase r label ≠ .verified :=
    fun _ _ phase => by cases phase
  constructor
  case begins =>
    exact ⟨rfl, rfl, rfl, fun _ => rfl, fun _ => rfl, fun _ => rfl,
      keyed_call _ (keyed_empty 1) (.setState "a" .completed 0)⟩
  case rooted => exact fun r label phase => absurd phase (pending r label)
  case source =>
    intro bytes mtimeMs there
    cases there
    rfl
  case verified => exact fun label phase => absurd phase (pending "a" label)
  case counted =>
    intro row found counts
    cases found
    cases counts

theorem uncleaned_starts : Starts small "a" ⟨[], 0⟩ uncleaned := by
  have own : ∀ r label, uncleaned.state.store.phase r label = .verified → r = "a" ∧ label = "local" := by
    intro r label phase
    by_contra other
    change ((((emptyStore "plant").upsertReady "a" 0 0 0).setDestPhase "a" "local" .verified).setState
      "a" .cleanupFailed 0).phase r label = .verified at phase
    rw [Store.phase_set_state, Store.phase_set_dest_phase, if_neg other] at phase
    cases phase
  constructor
  case begins =>
    exact ⟨rfl, rfl, rfl, fun _ => rfl, fun _ => rfl, fun _ => rfl,
      keyed_call _ (keyed_call _ (keyed_empty 0) (.setDestPhase "a" "local" .verified))
        (.setState "a" .cleanupFailed 0)⟩
  case rooted =>
    rintro r label phase
    obtain ⟨rfl, rfl⟩ := own r label phase
    exact Option.some_ne_none _
  case source =>
    intro bytes mtimeMs there
    cases there
    rfl
  case verified =>
    intro label phase
    obtain ⟨_, rfl⟩ := own "a" label phase
    rfl
  case counted =>
    intro row found counts label member
    obtain rfl := List.mem_singleton.mp (show label ∈ ["local"] from member)
    rfl

/-- Another file takes the place of the completed one, and a tick delivers it. -/
def untilDelivered : List Step :=
  [.env (.boot 1)] ++ go 0 [.asIs, .asIs] ++
    [.env (.touch ["in", "a"] (some (.file [] 1))), .env (.trigger 2 false 1)] ++
    go 1 [.asIs, .asIs, .found [⟨"a", 0, 1⟩], .asIs, .asIs, .asIs, .asIs, .scheduled (.all false),
      .asIs, .asIs] ++
    go 2 [.asIs, .asIs] ++ go 3 [.asIs, .asIs, .asIs, .asIs, .asIs, .asIs] ++
    go 2 [.number 0, .asIs, .asIs, .asIs, .asIs]

/-- Another file takes the place of the one that could not be deleted, a scan finds it, and the tick
drives the cleanup. -/
def untilDriven : List Step :=
  [.env (.boot 1)] ++ go 0 [.asIs, .asIs] ++
    [.env (.touch ["in", "a"] (some (.file [1] 1))), .env (.trigger 2 false 1)] ++
    go 1 [.asIs, .asIs, .found [⟨"a", 1, 1⟩], .asIs, .asIs, .asIs, .asIs, .asIs, .asIs, .asIs]

def isCleanupFailed (c : Duo) : Bool :=
  (c.state.store.items "a").any fun row => row.state = .cleanupFailed

/-- The row has the signature of what is there. -/
def recorded (bytes : Bytes) (mtimeMs : Int) (c : Duo) : Bool :=
  c.state.tree ["in", "a"] = some (.file bytes mtimeMs) &&
    (c.state.store.items "a").any fun row => row.size = bytes.length && row.mtimeMs = mtimeMs

def apartAt (c : Duo) : Step → Bool
  | .run id _ => c.threads.all fun t => t.id ≠ id ||
      match t.prog with
      | .call (.fs operation) _ => Markers.onlyLooks operation
      | _ => true
  | .env (.alter _ _ _) => false
  | choice => DrainRuns.afterRecovery (forget Prod.snd c) choice

/-- The file is touched when nobody is there and its row is finished, if it has one. -/
def restsAt (c : Duo) : Step → Bool
  | .env (.touch _ _) =>
      c.threads.isEmpty && (c.state.store.items "a").all fun row => row.state.isTerminal
  | _ => true

def meetsAt (c : Duo) (choice : Step) : Bool := apartAt c choice && restsAt c choice

section Checks

variable {setup}

theorem apart_of_check (h : History) (c : Duo) (choice : Step) (checked : apartAt c choice = true) :
    Apart setup "a" h c choice := by
  constructor
  · rintro label object rfl
    cases checked
  · rintro t member answer operation next rfl prog
    have looks := List.all_eq_true.mp checked t member
    exact Markers.not_makes operation (by simpa [prog] using looks) _
  · cases choice with
    | env event =>
        cases event with
        | trigger now ignoreWindow fuel => exact checked
        | _ => rfl
    | _ => rfl

theorem meets_of_check (h : History) (c : Duo) (choice : Step) (checked : meetsAt c choice = true) :
    Meets setup "a" h c choice := by
  rw [meetsAt, Bool.and_eq_true] at checked
  refine ⟨apart_of_check h c choice checked.1, ?_⟩
  rintro bytes mtimeMs rfl
  have alone : (c.threads.isEmpty &&
    (c.state.store.items "a").all fun row => row.state.isTerminal) = true := checked.2
  obtain ⟨idle, finished⟩ := (Bool.and_eq_true _ _).mp alone
  have nobody : ∀ u, u ∉ c.threads := by
    rw [List.isEmpty_iff.mp idle]
    exact fun _ => List.not_mem_nil
  refine ⟨fun u hu => absurd hu (nobody u), fun u hu => absurd hu (nobody u),
    fun u hu => absurd hu (nobody u), fun u hu => absurd hu (nobody u), fun row found => Or.inl ?_⟩
  rw [found] at finished
  exact finished

end Checks

def isRemoving (t : Hand) : Bool :=
  match t.spec, t.prog with
  | .action _ ctx, .call (.fs (.removeFile path)) _ =>
      ctx.relpath = "a" && ctx.src = small.absSource "a" && path = ctx.src
  | _, _ => false

/-- An action is about to delete a file of these bytes, while the destination holds these. -/
def removing (bytes held : Bytes) (c : Duo) : Bool :=
  c.threads.any isRemoving && sourceBytes small c.state "a" = some bytes &&
    c.state.objects "a" "local" = some held

theorem held_of_replicated (bytes held : Bytes) (c : Duo) (found : removing bytes held c = true)
    (replicated : Replicated small "a" c) : held = bytes := by
  simp only [removing, Bool.and_eq_true, decide_eq_true_eq] at found
  obtain ⟨⟨acting, source⟩, object⟩ := found
  obtain ⟨t, member, removes⟩ := List.any_eq_true.mp acting
  unfold isRemoving at removes
  split at removes
  · rename_i handle ctx path next spec prog
    simp only [Bool.and_eq_true, decide_eq_true_eq] at removes
    obtain ⟨⟨own, src⟩, rfl⟩ := removes
    unfold sourceBytes at source
    split at source
    · rename_i mtimeMs there
      cases source
      have copy := replicated t member handle ctx spec own _ next prog rfl bytes mtimeMs (src ▸ there)
        "local" (by decide)
      exact Option.some.inj (object.symm.trans copy)
    · cases source
  · cases removes

end FileReplicator.Copies
