import FileReplicator.Copies

/-!
# Agreement of the destinations

When an item is recorded as verified, every destination of it holds the same version of
the source, and that is the one whose size and modification time the row has: provided
that the source is rewritten only while its item is at rest, and that each rewriting is
recorded before the row is claimed.
-/

namespace FileReplicator.Agreement

open Domain DurableStore Effects FileTree Interleaving Annotations SourceActions Operations Worker Instance
open Protocol Steps Runs Assurance Vouching
open Custody (custody)
open Copies

variable (setup : Setup) (relpath : String) (first : Version)

/-- The row has the size and the modification time of the version that was written last. -/
def Matches (h : History) (c : Duo) : Prop :=
  ∃ row, c.state.store.items relpath = some row ∧
    row.size = (h.latest first).bytes.length ∧ row.mtimeMs = (h.latest first).mtimeMs

/-- Where the row can be claimed, each rewriting of its source has been recorded. -/
def Recorded (h : History) (c : Duo) (choice : Choice Answer Event) : Prop :=
  ∀ t ∈ c.threads, ∀ answer limit now next, choice = .run t.id answer →
    t.prog = .call (.store (.claimReady limit now)) next →
      ∀ row, c.state.store.items relpath = some row → row.state = .ready → Matches relpath first h c

/-- Whoever is about to record the item as verified: the destinations hold the version of the row. -/
def Agreed (h : History) (c : Duo) : Prop :=
  ∀ t ∈ c.threads, ∀ now next, t.prog = .call (.store (.setState relpath .verified now)) next →
    Matches relpath first h c ∧ ∀ label ∈ setup.labels, Copied relpath first h c label

/-! ## Who works on the version of the row -/

/-- A thread that has claimed the item, or is the item's, works on the version that its row has. -/
structure Signs (h : History) (c : Duo) (u : Hand) (n : Custody.Notes) : Prop where
  keeps : Keeps (custody setup) u.prog n fun _ _ => True
  within : Within n u.notes.1
  signed : relpath ∈ n.claimed ∨ u.notes.1.role = .item relpath → Matches relpath first h c

structure Sound (h : History) (c : Duo) : Prop where
  copies : Copies.Sound setup relpath first h c
  signs : ∀ u ∈ c.threads, Attached c u → ∃ n, Signs setup relpath first h c u n

section Call

variable {setup} {relpath} {first}
variable {h after : History} {c : Duo} {t : Hand} {operation : Op} {ret : Ret operation}
variable {effect : Effect World Spec} {next : Ret operation → Program Unit}

/-- A row keeps its size and modification time but for a scan that finds its file. -/
theorem signature_call (store : Store) (operation : StoreOp)
    (other : ∀ size mtimeMs now, operation ≠ .upsertReady relpath size mtimeMs now) (row : Row)
    (found : store.items relpath = some row) :
    ∃ later, (callStore store operation).2.items relpath = some later ∧
      later.size = row.size ∧ later.mtimeMs = row.mtimeMs := by
  have moved (r : String) (change : Row → Row)
      (keeps : ∀ row, (change row).size = row.size ∧ (change row).mtimeMs = row.mtimeMs) :
      ∃ later, (store.updateRow r change).items relpath = some later ∧
        later.size = row.size ∧ later.mtimeMs = row.mtimeMs := by
    rw [Store.items_update]
    split
    · exact ⟨change row, by rw [found]; rfl, keeps row⟩
    · exact ⟨row, found, rfl, rfl⟩
  cases operation with
  | setState r state now => exact moved r _ fun _ => ⟨rfl, rfl⟩
  | rollUpItem r state attempts gate error now => exact moved r _ fun _ => ⟨rfl, rfl⟩
  | recordCleanupAttempt r error state gate now => exact moved r _ fun _ => ⟨rfl, rfl⟩
  | setBytesDone r bytes now => exact moved r _ fun _ => ⟨rfl, rfl⟩
  | upsertReady r size mtimeMs now =>
      have apart : relpath ≠ r := fun same => other size mtimeMs now (by rw [same])
      refine ⟨row, ?_, rfl, rfl⟩
      exact ((store.upsert_cases r size mtimeMs now).1 relpath apart).1.trans found
  | claimReady limit now =>
      simp only [callStore, Store.claimReady]
      split
      · exact ⟨{ row with state := .inProgress, updatedAt := now }, by rw [found]; rfl, rfl, rfl⟩
      · exact ⟨row, found, rfl, rfl⟩
  | _ => exact ⟨row, found, rfl, rfl⟩

theorem matches_of_did (called : Called setup c t operation ret effect next) (later : Later h after)
    (other : ∀ size mtimeMs now, operation ≠ .store (.upsertReady relpath size mtimeMs now))
    (matching : Matches relpath first h c) :
    Matches relpath first after
      ((duo setup).settle c ((duo setup).resumed t operation ret next) effect) := by
  have same : after.latest first = h.latest first := by
    simp only [History.latest, later.written]
  obtain ⟨row, found, size, mtimeMs⟩ := matching
  have kept : ∃ new, effect.state.store.items relpath = some new ∧ new.size = row.size ∧
      new.mtimeMs = row.mtimeMs := by
    cases called.did with
    | statement statement =>
        exact signature_call c.state.store statement
          (fun size mtimeMs now same => other size mtimeMs now (by rw [same])) row found
    | undelivered item l resume left error now stored =>
        refine ⟨row, ?_, rfl, rfl⟩
        rcases stored with rfl | ⟨_, _, rfl⟩ <;> exact found
    | _ => exact ⟨row, found, rfl, rfl⟩
  obtain ⟨new, items, alike, at_⟩ := kept
  exact ⟨new, items, by rw [same, alike, size], by rw [same, at_, mtimeMs]⟩

/-- What a thread has claimed after a call it had claimed before, or it claims it now. -/
theorem claimed_learn (n : Custody.Notes) (operation : Op) (ret : Ret operation)
    (claimed : relpath ∈ (Custody.learn setup n operation ret).claimed) :
    relpath ∈ n.claimed ∨ ∃ limit now, operation = .store (.claimReady limit now) := by
  cases operation with
  | store statement =>
      cases ret with
      | error e => exact Or.inl claimed
      | ok ret =>
          cases statement with
          | getRow r =>
              change relpath ∈ (Custody.takeRow setup ret).claimed at claimed
              unfold Custody.takeRow at claimed
              split at claimed
              · split at claimed <;> cases claimed
              · cases claimed
          | setState r state now =>
              simp only [Custody.learn, Custody.learnStatement] at claimed
              split at claimed
              · exact Or.inl claimed
              · exact Or.inl (List.mem_of_mem_filter claimed)
          | rollUpItem r state attempts gate error now =>
              simp only [Custody.learn, Custody.learnStatement] at claimed
              split at claimed
              · exact Or.inl (List.mem_of_mem_filter claimed)
              · exact Or.inl claimed
          | recordCleanupAttempt r error state gate now => exact Or.inl (List.mem_of_mem_filter claimed)
          | claimReady limit now => exact Or.inr ⟨limit, now, rfl⟩
          | recoverIncomplete => cases claimed
          | listByState state => cases state <;> cases claimed
          | _ => exact Or.inl claimed
  | deliver item label resume => cases ret <;> exact Or.inl claimed
  | spawnBatch items now => cases claimed
  | _ => exact Or.inl claimed

/-- Nothing is claimed by a tick that looks for files, and nobody is at an item. -/
theorem quiet_of_upsert (copies : Copies.Sound setup relpath first h c)
    (called : Called setup c t operation ret effect next) (size : Nat) (mtimeMs now : Int)
    (looks : operation = .store (.upsertReady relpath size mtimeMs now)) (u : Hand)
    (member : u ∈ c.threads) (attached : Attached c u) (n : Custody.Notes) (within : Within n u.notes.1) :
    ¬(relpath ∈ n.claimed ∨ u.notes.1.role = .item relpath) := by
  have alone := called.alone copies.manned.toStaffed relpath size mtimeMs now looks u member attached
  have distinct := distinct_of_forget Prod.fst c copies.manned.base.distinct
  obtain rfl := eq_of_same_id c distinct u t member called.member alone
  have may := called.may
  rw [looks] at may
  obtain ⟨tick, _, todo, _⟩ := may
  rintro (claimed | item)
  · have listed := (within.claimed relpath claimed).1
    rw [todo] at listed
    cases listed
  · rw [tick] at item
    cases item

theorem claimed_of_item (copies : Copies.Sound setup relpath first h c)
    (called : Called setup c t operation ret effect next) (spec : Spec) (spawned : spec ∈ effect.spawned)
    (item : (start spec).role = .item relpath) :
    Attached c t ∧ ∀ n, Custody.allowed n operation → relpath ∈ n.claimed := by
  have may := called.may
  have turn := called.turn
  cases called.did with
  | spawnedBatch items now =>
      obtain ⟨own, member, rfl⟩ := List.mem_map.mp spawned
      cases item
      refine ⟨?_, fun n claims => claims own member⟩
      apply attached_of_turn copies.manned.toStaffed called.member turn _ Op.noConfusion Op.noConfusion
      rw [may.1]
      rfl
  | spawnedAttempts contexts =>
      obtain ⟨_, _, rfl⟩ := List.mem_map.mp spawned
      cases item
  | startedAction ctx =>
      cases List.mem_singleton.mp spawned
      cases item
  | startedQuarantine job =>
      cases List.mem_singleton.mp spawned
      cases item
  | _ => cases spawned

theorem start_claims_nothing (spec : Spec) : (Custody.start spec).claimed = [] := by
  cases spec <;> rfl

theorem signs_settle (sound : Sound setup relpath first h c)
    (called : Called setup c t operation ret effect next) (later : Later h after)
    (recorded : ∀ limit now, operation = .store (.claimReady limit now) →
      ∀ row, c.state.store.items relpath = some row → row.state = .ready → Matches relpath first h c) :
    ∀ u ∈ ((duo setup).settle c ((duo setup).resumed t operation ret next) effect).threads,
      Attached ((duo setup).settle c ((duo setup).resumed t operation ret next) effect) u →
        ∃ n, Signs setup relpath first after
          ((duo setup).settle c ((duo setup).resumed t operation ret next) effect) u n := by
  have manned := sound.copies.manned
  -- a version that someone works on is not recorded anew
  have kept (v : Hand) (hv : v ∈ c.threads) (attached : Attached c v) (n : Custody.Notes)
      (signs : Signs setup relpath first h c v n)
      (works : relpath ∈ n.claimed ∨ v.notes.1.role = .item relpath) :
      Matches relpath first after
        ((duo setup).settle c ((duo setup).resumed t operation ret next) effect) := by
    refine matches_of_did called later (fun size mtimeMs now looks => ?_) (signs.signed works)
    exact quiet_of_upsert sound.copies called size mtimeMs now looks v hv attached n signs.within works
  intro u hu attached
  rcases called.attached_settle manned u hu attached with ⟨same, before | locks⟩ |
    ⟨before, hbefore, _, same, was⟩ | ⟨new, hnew, same⟩
  · obtain ⟨n, signs⟩ := sound.signs t called.member before
    obtain ⟨_, going, within⟩ := keeps_learn manned called n signs.keeps signs.within
    refine ⟨Custody.learn setup n operation ret, same.prog ▸ going, same.notes ▸ within, ?_⟩
    rw [same.notes]
    rintro (claimed | item)
    · rcases claimed_learn n operation ret claimed with already | ⟨limit, now, claims⟩
      · exact kept t called.member before n signs (Or.inl already)
      · refine matches_of_did called later ?_ ?_
        · rw [claims]
          exact fun _ _ _ => by simp
        · have reads := recorded limit now claims
          cases called.did with
          | statement statement =>
              cases claims
              change relpath ∈ (c.state.store.claimReady limit now).1.map WorkItem.relpath at claimed
              rw [c.state.store.claim_relpaths] at claimed
              obtain ⟨row, found, ready⟩ := c.state.store.ready_of_claimed limit now relpath claimed
              exact reads row found ready
          | refused statement text => exact signs.signed (Or.inl claimed)
          | _ => cases claims
    · exact kept t called.member before n signs
        (Or.inr ((learn_role setup t.notes.1 operation ret).symm.trans item))
  · obtain ⟨tick, todo, _⟩ := idle_of_lock called manned locks
    obtain ⟨n, holds⟩ := sound.copies.holds t called.member
    obtain ⟨_, going, within⟩ := keeps_learn manned called n holds.keeps holds.within
    refine ⟨Custody.learn setup n operation ret, same.prog ▸ going, same.notes ▸ within, ?_⟩
    rw [same.notes]
    rintro (claimed | item)
    · have listed := (within.claimed relpath claimed).1
      subst locks
      change relpath ∈ t.notes.1.todo at listed
      rw [todo] at listed
      cases listed
    · have role : t.notes.1.role = .item relpath :=
        (learn_role setup t.notes.1 operation ret).symm.trans item
      rw [tick] at role
      cases role
  · obtain ⟨n, signs⟩ := sound.signs before hbefore was
    refine ⟨n, same.prog ▸ signs.keeps, same.notes ▸ signs.within, ?_⟩
    rw [same.notes]
    exact kept before hbefore was n signs
  · obtain ⟨spawned, _, _, _, notes, prog⟩ := mem_spawn_from (duo setup) _ _ new hnew
    refine ⟨Custody.start new.spec, ?_, ?_, ?_⟩
    · rw [same.prog, prog]
      exact Custody.main_keeps setup new.spec
    · rw [same.notes, notes]
      exact within_start new.spec
    · rw [same.notes, notes]
      rintro (claimed | item)
      · rw [start_claims_nothing] at claimed
        cases claimed
      · obtain ⟨calls, claims⟩ := claimed_of_item sound.copies called new.spec spawned item
        obtain ⟨n, signs⟩ := sound.signs t called.member calls
        obtain ⟨may, _⟩ := keeps_learn manned called n signs.keeps signs.within
        exact kept t called.member calls n signs (Or.inl (claims n may))

end Call

section Runs

variable {setup} {relpath} {first}

theorem signs_event (h : History) (c : Duo) (sound : Sound setup relpath first h c) (event : Event)
    (reaction : Reaction World Spec) (met : Meets setup relpath h c (.env event))
    (reacted : react c.state (Machine.live c) event = some reaction) :
    ∀ u ∈ ((duo setup).absorb c reaction).threads, Attached ((duo setup).absorb c reaction) u →
      ∃ n, Signs setup relpath first (pass setup relpath event c ((duo setup).absorb c reaction) h)
        ((duo setup).absorb c reaction) u n := by
  obtain ⟨store, _, spawned⟩ := react_base _ _ event reaction reacted
  intro u hu attached
  rcases mem_absorb (duo setup) c reaction u hu with ⟨_, before, hbefore, same⟩ | ⟨new, hnew, same⟩
  · obtain ⟨n, signs⟩ := sound.signs before hbefore
      (absorbed_attached reaction sound.copies.manned u before hbefore same attached)
    refine ⟨n, same.prog ▸ signs.keeps, same.notes ▸ signs.within, ?_⟩
    rw [same.notes]
    intro works
    by_cases rewrites : ∃ bytes mtimeMs,
        event = .touch (setup.absSource relpath) (some (.file bytes mtimeMs))
    · -- nobody works on an item at rest
      obtain ⟨bytes, mtimeMs, rfl⟩ := rewrites
      have minds : Minds before.notes.1 relpath := by
        rcases works with claimed | item
        · exact Or.inl (signs.within.claimed relpath claimed).1
        · exact Or.inr (Or.inl item)
      exact absurd minds ((met.rests bytes mtimeMs rfl).unminded before hbefore)
    · rw [pass_other event _ rewrites]
      obtain ⟨row, found, size, mtimeMs⟩ := signs.signed works
      refine ⟨row, ?_, size, mtimeMs⟩
      change reaction.state.store.items relpath = some row
      rw [store]
      exact found
  · obtain ⟨listed, _, _, _, notes, prog⟩ := mem_spawn_from (duo setup) _ _ new hnew
    refine ⟨Custody.start new.spec, ?_, ?_, ?_⟩
    · rw [same.prog, prog]
      exact Custody.main_keeps setup new.spec
    · rw [same.notes, notes]
      exact within_start new.spec
    · rw [same.notes, notes]
      rintro (claimed | item)
      · rw [start_claims_nothing] at claimed
        cases claimed
      · change (start new.spec).role = _ at item
        rcases spawned new.spec listed with role | role <;> rw [role] at item <;> cases item

theorem signs_without (h : History) (c : Duo) (sound : Sound setup relpath first h c) (id : Nat) :
    ∀ u ∈ ((duo setup).without c id).threads, Attached ((duo setup).without c id) u →
      ∃ n, Signs setup relpath first h ((duo setup).without c id) u n := by
  intro u hu attached
  obtain ⟨before, hbefore, same, was⟩ := attached_without id u hu attached
  obtain ⟨n, signs⟩ := sound.signs before hbefore was
  exact ⟨n, same.prog ▸ signs.keeps, same.notes ▸ signs.within, same.notes ▸ signs.signed⟩

theorem sound_step (h : History) (c after : Duo) (choice : Choice Answer Event)
    (sound : Sound setup relpath first h c)
    (met : Meets setup relpath h c choice ∧ Recorded relpath first h c choice)
    (stepped : (duo setup).step c choice = some after) :
    Sound setup relpath first ((recording setup relpath).follow c choice after h) after := by
  obtain ⟨meets, recorded⟩ := met
  refine ⟨Copies.sound_step h c after choice sound.copies meets stepped, ?_⟩
  rcases step_cases (duo setup) c after choice stepped with
    ⟨t, operation, ret, effect, next, calls, rfl⟩ | ⟨id, rfl, _, rfl⟩ |
    ⟨event, reaction, rfl, reacted, rfl⟩
  · have called := called_of_calls sound.copies.manned.toStaffed choice calls
    rw [follow_eq sound.copies.manned choice calls]
    apply signs_settle sound called
    · split
      · exact ⟨rfl, fun none => by cases none⟩
      · exact ⟨rfl, id⟩
    · rintro limit now rfl
      obtain ⟨answer, made, _⟩ := calls.choice
      exact recorded t calls.member answer limit now next made calls.prog
  · exact signs_without h c sound id
  · exact signs_event h c sound event reaction meets reacted

end Runs

/-- A local and a remote destination, with the hash of the one byte as well. -/
def two : Setup :=
  { smallSetup plainCompletion with
    dests := [.local, .s3]
    deliveredAs := fun _ bytes =>
      ⟨bytes.length, .crc32c (if bytes = [1] then 2685849682 else 0), []⟩ }

def unstarted : Duo := ⟨smallWorld oneFile, [], 0⟩

theorem unstarted_starts : Starts two "a" ⟨[], 0⟩ unstarted := by
  constructor
  case begins => exact small_begins oneFile
  case rooted => exact fun r label phase => by cases phase
  case source =>
    intro bytes mtimeMs there
    cases there
    rfl
  case verified => exact fun label phase => by cases phase
  case counted => exact fun row found => by cases found

/-- A tick takes the file in, and an item is started for it. -/
def takenIn (tick item : Nat) (now : Int) (file : Candidate) (promotes : List Answer) : List Step :=
  [.env (.trigger now false 1)] ++
    go tick ([.asIs, .asIs, .found [file], .asIs, .asIs] ++ promotes ++
      [.asIs, .asIs, .scheduled (.all false), .asIs, .asIs]) ++
    go item [.asIs, .asIs]

/-- The file is rewritten before anyone has seen it, and delivered to both. -/
def untilBoth : List Step :=
  [.env (.boot 1)] ++ go 0 [.asIs, .asIs] ++ [.env (.touch ["in", "a"] (some (.file [] 5)))] ++
    takenIn 1 2 2 ⟨"a", 0, 5⟩ [] ++ go 3 [.asIs, .asIs, .asIs, .asIs, .asIs, .asIs] ++
    go 4 [.asIs, .asIs, .asIs, .asIs, .asIs, .asIs] ++ go 2 [.number 0, .number 0]

/-- One destination fails. The file is rewritten between two ticks, and the next delivers it to that
destination. -/
def untilApart : List Step :=
  [.env (.boot 1)] ++ go 0 [.asIs, .asIs] ++ takenIn 1 2 2 ⟨"a", 0, 0⟩ [] ++
    go 3 [.asIs, .asIs, .asIs, .asIs, .asIs, .asIs] ++
    go 4 [.asIs, .failed (.transient "busy") false none, .number 0, .asIs, .asIs] ++
    go 2 [.number 0, .number 0, .asIs] ++ go 1 [.asIs, .asIs] ++
    [.env (.touch ["in", "a"] (some (.file [1] 1)))] ++ takenIn 5 6 3 ⟨"a", 1, 1⟩ [.asIs] ++
    go 7 [.asIs, .asIs, .asIs, .asIs, .asIs, .asIs] ++ go 6 [.number 0]

/-- The producer rewrites the file between ticks only. -/
def Between (c : Duo) (choice : Choice Answer Event) : Prop :=
  ∀ bytes mtimeMs, choice = .env (.touch ["in", "a"] (some (.file bytes mtimeMs))) → c.threads = []

def matchesAt (h : History) (c : Duo) : Bool :=
  (c.state.store.items "a").any fun row =>
    row.size = (h.latest ⟨[], 0⟩).bytes.length && row.mtimeMs = (h.latest ⟨[], 0⟩).mtimeMs

def claiming (program : Program Unit) : Bool :=
  match program with
  | .call (.store (.claimReady _ _)) _ => true
  | _ => false

def recordedAt (h : History) (c : Duo) : Step → Bool
  | .run id _ => c.threads.all fun t => t.id ≠ id || !claiming t.prog || matchesAt h c
  | _ => true

def betweenAt (c : Duo) : Step → Bool
  | .env (.touch _ _) => c.threads.isEmpty
  | _ => true

theorem matches_of_check (h : History) (c : Duo) (checked : matchesAt h c = true) :
    Matches "a" ⟨[], 0⟩ h c := by
  obtain ⟨row, found, same⟩ := (Option.any_eq_true _ _).mp checked
  rw [Bool.and_eq_true, decide_eq_true_eq, decide_eq_true_eq] at same
  exact ⟨row, found, same⟩

theorem recorded_of_check (h : History) (c : Duo) (choice : Step)
    (checked : recordedAt h c choice = true) : Recorded "a" ⟨[], 0⟩ h c choice := by
  rintro t member answer limit now next rfl prog row _ _
  apply matches_of_check
  have matching := List.all_eq_true.mp checked t member
  simpa [prog, claiming] using matching

/-- An item is about to be recorded as verified. -/
def isVerifying (t : Hand) : Bool :=
  match t.prog with
  | .call (.store (.setState relpath .verified _)) _ => relpath = "a"
  | _ => false

theorem verifying_prog (t : Hand) (verifying : isVerifying t = true) :
    ∃ now next, t.prog = .call (.store (.setState "a" .verified now)) next := by
  unfold isVerifying at verifying
  split at verifying
  · rename_i relpath now next prog
    obtain rfl := of_decide_eq_true verifying
    exact ⟨now, next, prog⟩
  · cases verifying

end FileReplicator.Agreement
