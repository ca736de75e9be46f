import FileReplicator.Readiness
import FileReplicator.Reappearance
import FileReplicator.TickCalls

/-!
# Markers

Under the marker strategy a file is ready while its companion is there. A producer
writes a version of the file and then its marker. The completion of an item leaves the
marker where it is, and it goes on to vouch for whatever is written at the relpath next;
it vouches for its own version alone where someone else takes it away in time.
-/

namespace FileReplicator.Markers

open Domain DurableStore Effects FileTree Operations Interleaving Instance Protocol Steps Runs TickCalls
open Readiness (ReadinessProbe GlobMatcher ReadyStrategy)

def spell (path : Path) : String := "/" ++ "/".intercalate path

def enter (path : Path) (part : List Char) : Path :=
  if part = [] ∨ part = ['.'] then path
  else if part = ['.', '.'] then path.dropLast
  else path ++ [String.ofList part]

def resolve (text : String) : Path := (text.toList.splitOn '/').foldl enter []

section Companion

variable (suffix : String)

def companion (path : Path) : Path := resolve (spell path ++ suffix)

def hasMarker (tree : Tree) (path : Path) : Bool := (tree (companion suffix path)).isSome

end Companion

/-! ## Versions and their markers -/

structure Book where
  /-- Its versions are numbered in the order in which they are begun. -/
  version : Nat
  /-- The marker of this version is still to come. -/
  awaiting : Bool
  /-- The version whose marker is there. -/
  marker : Option Nat

namespace Book

variable (b : Book)

/-- The file is written; what is written after its marker is another version. -/
def written : Book :=
  { b with version := if b.awaiting then b.version else b.version + 1, awaiting := true }

def signed : Book := { b with awaiting := false, marker := some b.version }

def struck : Book := { b with marker := none }

/-- Someone other than the instance changes what is at a path. -/
def touched (file marker path : Path) (node : Option Node) : Book :=
  match node with
  | some (.file _ _) =>
      if path = file then b.written else if path = marker then b.signed else b
  | some .dir => if path = marker then b.signed else b
  | none => if path = marker then b.struck else b

/-- The instance changes what is at the path of the marker, or does not. -/
def passed (before after : Option Node) : Book := if after = before then b else b.struck

end Book

structure Sighting where
  tick : Nat
  candidate : Candidate
  version : Nat
  /-- The version whose marker was there. -/
  marker : Option Nat
  deriving DecidableEq

structure Ledger where
  books : Path → Book
  sightings : List Sighting
  /-- What each tick has put into the queue. -/
  enqueued : List (Nat × Candidate)

section History

variable (setup : Setup) (suffix : String)

def sight (h : Ledger) (tick : Nat) (candidate : Candidate) : Sighting :=
  let book := h.books (setup.absSource candidate.relpath)
  ⟨tick, candidate, book.version, book.marker⟩

def heed (t : Running) (operation : Op) (answer : Answer) (c after : State) (h : Ledger) : Ledger :=
  match operation, answer with
  | .discover, .found candidates =>
      { h with sightings := h.sightings ++ candidates.map (sight setup h t.id) }
  | .store (.upsertReady relpath size mtimeMs _), .asIs =>
      { h with enqueued := h.enqueued ++ [(t.id, ⟨relpath, size, mtimeMs⟩)] }
  | .fs _, _ =>
      { h with
        books := fun p => (h.books p).passed (c.state.tree (companion suffix p))
          (after.state.tree (companion suffix p)) }
  | _, _ => h

def pass (event : Event) (_ _ : State) (h : Ledger) : Ledger :=
  match event with
  | .touch path node =>
      { h with
        books := fun p => (h.books p).touched p (companion suffix p) path node }
  | _ => h

def ledger : Chronicle Op Ret World Spec Notes Answer Event Ledger :=
  chronicle ⟨fun _ => ⟨0, true, none⟩, [], []⟩ (heed setup suffix) (pass suffix)

/-- Each version in the queue was found beside its own marker. -/
def Vouched (h : Ledger) : Prop :=
  ∀ e ∈ h.enqueued, ∃ s ∈ h.sightings, s.tick = e.1 ∧ s.candidate = e.2 ∧ s.marker = some s.version

def Judged (c : State) (choice : Step) : Prop :=
  ∀ id candidates, choice = .run id (.found candidates) →
    ∀ found ∈ candidates, hasMarker suffix c.state.tree (setup.absSource found.relpath) = true

/-- When a scan comes, nothing is left at the marker's path of a file whose marker is to come. -/
def Cleared (h : Ledger) (c : State) (choice : Step) : Prop :=
  ∀ id candidates, choice = .run id (.found candidates) →
    ∀ p, (h.books p).awaiting = true → isFile c.state.tree p = true →
      hasMarker suffix c.state.tree p = false

def Makes (path : Path) : FsOp → Prop
  | .rename _ target | .copy _ target | .writeFile target _ => path = target
  | .createDirAll dir => path <+: dir
  | _ => False

/-- The instance makes nothing at the path of a marker. -/
def Spares (h : Ledger) (c : State) (choice : Step) : Prop :=
  ∀ t ∈ c.threads, ∀ answer operation next, choice = .run t.id answer →
    t.prog = .call (.fs operation) next →
      ∀ p, (h.books p).awaiting = false → ¬Makes (companion suffix p) operation

structure Meets (h : Ledger) (c : State) (choice : Step) : Prop where
  judged : Judged setup suffix c choice
  cleared : Cleared suffix h c choice
  spares : Spares suffix h c choice

end History

/-! ## What a tick takes in -/

/-- A tick puts into the queue what its last scan has found. -/
def taking : Discipline Op Ret (List Candidate) where
  allowed := fun seen operation =>
    match operation with
    | .store (.upsertReady relpath size mtimeMs _) => ⟨relpath, size, mtimeMs⟩ ∈ seen
    | _ => True
  possible := fun _ _ => True
  learn := fun seen operation ret =>
    match operation, ret with
    | .discover, found => found
    | _, _ => seen

theorem within_takes {α : Type} (program : Program α)
    (within : Within (fun operation => takesIn operation = false) program) (seen : List Candidate) :
    Keeps taking program seen fun _ after => after = seen := by
  apply keeps_within taking _ program seen _ within
  intro operation leaves
  cases operation with
  | store operation => cases operation <;> first | exact ⟨trivial, fun _ _ => rfl⟩ | cases leaves
  | _ => first | exact ⟨trivial, fun _ _ => rfl⟩ | cases leaves

theorem within_of_tidy {α : Type} (mine : String → Prop) (program : Program α)
    (tidy : Tidy mine program) : Within (fun operation => takesIn operation = false) program :=
  within_mono _ _ _ (fun _ is => is.2) tidy

theorem enqueue_takes (now : Int) (seen candidates : List Candidate)
    (among : ∀ c ∈ candidates, c ∈ seen) :
    Keeps taking (enqueueEach now candidates) seen fun _ after => after = seen := by
  induction candidates with
  | nil => rfl
  | cons c rest ih =>
      rw [enqueueEach]
      apply keeps_bind
      apply keeps_best_effort
      refine ⟨among c List.mem_cons_self, fun _ _ => ?_⟩
      exact ih fun other member => among other (List.mem_cons_of_mem _ member)

section Admissions

variable (setup : Setup) (now : Int)

theorem batch_within (batch : List WorkItem) :
    Within (fun operation => takesIn operation = false) (runBatch batch now) :=
  ⟨rfl, fun _ => ⟨rfl, fun _ => trivial⟩⟩

theorem admitted_within (drain : Bool) (fuel : Nat) :
    Within (fun operation => takesIn operation = false) (runAdmitted setup drain now fuel) := by
  induction fuel with
  | zero => trivial
  | succ fuel ih =>
      refine ⟨rfl, fun claimed => ?_⟩
      cases claimed with
      | error e => trivial
      | ok batch =>
          cases batch with
          | nil => trivial
          | cons item rest =>
              apply within_bind _ _ _ (batch_within now (item :: rest))
              intro _
              cases drain with
              | true => exact ih
              | false => trivial

theorem close_within (batch : List WorkItem) (onClose : WindowClose) :
    Within (fun operation => takesIn operation = false) (closeBatch setup batch now onClose) := by
  unfold closeBatch
  split
  · refine ⟨rfl, fun _ => ⟨rfl, fun _ => ?_⟩⟩
    exact within_of_tidy _ _ (tidy_revert setup _ (fun _ => trivial) now _)
  · exact ⟨rfl, fun _ => trivial⟩

theorem batch_windowed_within (batch : List WorkItem) (onClose : WindowClose) :
    Within (fun operation => takesIn operation = false)
      (runBatchWindowed setup batch now onClose) := by
  refine ⟨rfl, fun _ => ⟨rfl, fun event => ?_⟩⟩
  cases event with
  | drained => trivial
  | closed =>
      change Within _ (closeBatch setup batch now onClose >>= fun _ => return true)
      apply within_bind
      · exact close_within setup now batch onClose
      · exact fun _ => trivial

theorem windowed_within (onClose : WindowClose) (fuel : Nat) :
    Within (fun operation => takesIn operation = false) (runWindowed setup onClose now fuel) := by
  induction fuel with
  | zero => trivial
  | succ fuel ih =>
      refine ⟨rfl, fun passed => ?_⟩
      cases passed with
      | true => trivial
      | false =>
          refine ⟨rfl, fun claimed => ?_⟩
          cases claimed with
          | error e => trivial
          | ok batch =>
              cases batch with
              | nil => trivial
              | cons item rest =>
                  apply within_bind _ _ _ (batch_windowed_within setup now (item :: rest) onClose)
                  intro closed
                  cases closed with
                  | true => trivial
                  | false => exact ih

theorem admission_within (fuel : Nat) (admission : Admission) :
    Within (fun operation => takesIn operation = false) (runAdmission setup fuel now admission) := by
  cases admission with
  | all drain => exact admitted_within setup now drain fuel
  | none => trivial
  | windowed onClose => exact windowed_within setup now onClose fuel

theorem tick_takes (ignoreWindow redriveCleanup : Bool) (fuel : Nat) :
    Keeps taking (runTick setup now ignoreWindow redriveCleanup fuel) [] fun _ _ => True := by
  refine ⟨trivial, fun active _ => ?_⟩
  cases active with
  | false => trivial
  | true =>
      refine ⟨trivial, fun _ _ => ⟨trivial, fun ready _ => ?_⟩⟩
      change Keeps taking (enqueueEach now ready >>= _) ready _
      apply keeps_bind
      apply keeps_mono _ _ _ _ _ (enqueue_takes now ready ready fun _ member => member)
      rintro _ _ rfl
      -- from here on nothing is taken in
      refine keeps_mono _ _ _ _ _ (within_takes _ ?_ _) fun _ _ _ => trivial
      apply within_bind
      · exact within_best_effort _ _ (within_of_tidy _ _ (tidy_promote _ (fun _ => trivial) now))
      intro _
      apply within_bind
      · exact within_best_effort _ _
          (within_of_tidy _ _ (tidy_drive setup _ (fun _ => trivial) now redriveCleanup))
      intro _
      apply within_bind
      · exact within_of_tidy _ _ (tidy_admission (fun _ => True) ignoreWindow)
      intro admitted
      apply within_bind _ _ _ (admission_within setup now fuel admitted)
      exact fun _ => ⟨rfl, fun _ => trivial⟩

end Admissions

/-! ## What becomes of a marker -/

theorem call_spares (tree : Tree) (operation : FsOp) (answer : FsAnswer) (p : Path)
    (spares : ¬Makes p operation) :
    (callFs tree operation answer).2 p = tree p ∨ (callFs tree operation answer).2 p = none := by
  have put_none : ∀ path, put tree path none p = tree p ∨ put tree path none p = none := by
    intro path
    by_cases same : p = path
    · exact Or.inr (if_pos same)
    · exact Or.inl (if_neg same)
  cases answer with
  | fails e => exact Or.inl rfl
  | cut kept e =>
      cases operation with
      | copy source target => exact Or.inl (copy_file_frame tree source target p _ spares)
      | writeFile path bytes => exact Or.inl (make_file_frame tree path p bytes _ spares)
      | _ => exact Or.inl rfl
  | asIs n =>
      cases operation with
      | createDirAll dir =>
          simp only [callFs, callAsIs, createDirs]
          split
          · exact Or.inl rfl
          · exact Or.inl (if_neg fun on => spares (List.isPrefixOf_iff_prefix.mp on))
      | rename source target =>
          simp only [callFs, callAsIs, renameFile]
          split
          · split
            · exact (put_none source).imp (put_other _ target p _ spares).trans
                (put_other _ target p _ spares).trans
            · exact Or.inl rfl
          · exact Or.inl rfl
          · exact Or.inl rfl
      | removeFile path =>
          simp only [callFs, callAsIs, removeFileAt]
          split
          · exact put_none path
          · exact Or.inl rfl
          · exact Or.inl rfl
      | copy source target => exact Or.inl (copy_file_frame tree source target p _ spares)
      | writeFile path bytes => exact Or.inl (make_file_frame tree path p bytes _ spares)
      | _ => exact Or.inl rfl

namespace Book

/-- Beside a version whose marker is written there is that marker or none. -/
def Own (b : Book) (there : Option Node) : Prop :=
  b.awaiting = false → there.isSome = true → b.marker = some b.version

/-- A marker that is there was not written before its version, and not after the next. -/
def Earlier (b : Book) : Prop :=
  ∀ v, b.marker = some v → v ≤ b.version ∧ (b.awaiting = true → v < b.version)

variable (b : Book) (tree : Tree) (file marker path : Path) (node : Option Node)

theorem touched_cases :
    b.touched file marker path node = b.written ∨
      (path = marker ∧ node.isSome = true ∧ b.touched file marker path node = b.signed) ∨
      (path = marker ∧ node = none ∧ b.touched file marker path node = b.struck) ∨
      (path ≠ marker ∧ b.touched file marker path node = b) := by
  by_cases same : path = marker
  · cases node with
    | none => exact Or.inr (Or.inr (Or.inl ⟨same, rfl, if_pos same⟩))
    | some node =>
        cases node with
        | dir => exact Or.inr (Or.inl ⟨same, rfl, if_pos same⟩)
        | file bytes mtimeMs =>
            by_cases writes : path = file
            · exact Or.inl (if_pos writes)
            · exact Or.inr (Or.inl ⟨same, rfl, (if_neg writes).trans (if_pos same)⟩)
  · cases node with
    | none => exact Or.inr (Or.inr (Or.inr ⟨same, if_neg same⟩))
    | some node =>
        cases node with
        | dir => exact Or.inr (Or.inr (Or.inr ⟨same, if_neg same⟩))
        | file bytes mtimeMs =>
            by_cases writes : path = file
            · exact Or.inl (if_pos writes)
            · exact Or.inr (Or.inr (Or.inr ⟨same, (if_neg writes).trans (if_neg same)⟩))

theorem own_touched (own : b.Own (tree marker)) :
    (b.touched file marker path node).Own (put tree path node marker) := by
  rcases b.touched_cases file marker path node with
    writes | ⟨_, _, signs⟩ | ⟨rfl, rfl, _⟩ | ⟨other, same⟩
  · -- the new version has no marker yet, so nothing is asked of what is there
    rw [writes]
    intro awaits
    cases awaits
  · rw [signs]
    exact fun _ _ => rfl
  · intro _ there
    rw [show put tree path none path = none from if_pos rfl] at there
    cases there
  · rw [same, put_other _ _ _ _ (Ne.symm other)]
    exact own

theorem own_passed (before after : Option Node) (own : b.Own before)
    (spares : b.awaiting = false → after = before ∨ after = none) :
    (b.passed before after).Own after := by
  intro awaits there
  unfold passed at awaits ⊢
  split at awaits
  · rename_i same
    rw [if_pos same]
    exact own awaits (same ▸ there)
  · -- the instance has made nothing there, so it has removed the marker
    rename_i changed
    rw [(spares awaits).resolve_left changed] at there
    cases there

theorem earlier_written (earlier : b.Earlier) : b.written.Earlier := by
  intro v marked
  obtain ⟨upTo, before⟩ := earlier v marked
  cases awaits : b.awaiting with
  | true =>
      have same : b.written.version = b.version := by rw [written, awaits]; rfl
      rw [same]
      exact ⟨upTo, fun _ => before awaits⟩
  | false =>
      have next : b.written.version = b.version + 1 := by rw [written, awaits]; rfl
      rw [next]
      exact ⟨by omega, fun _ => by omega⟩

theorem earlier_struck : b.struck.Earlier := fun _ none => by cases none

theorem earlier_touched (earlier : b.Earlier) : (b.touched file marker path node).Earlier := by
  rcases b.touched_cases file marker path node with
    writes | ⟨_, _, signs⟩ | ⟨_, _, strikes⟩ | ⟨_, same⟩
  · rw [writes]
    exact b.earlier_written earlier
  · rw [signs]
    intro v marked
    cases marked
    exact ⟨le_refl _, fun awaits => by cases awaits⟩
  · rw [strikes]
    exact b.earlier_struck
  · rw [same]
    exact earlier

theorem earlier_passed (before after : Option Node) (earlier : b.Earlier) :
    (b.passed before after).Earlier := by
  unfold passed
  split
  · exact earlier
  · exact b.earlier_struck

end Book

/-! ## Every run -/

section Runs

variable (setup : Setup) (suffix : String)

def Sighted (h : Ledger) (tick : Nat) (candidate : Candidate) : Prop :=
  ∃ s ∈ h.sightings, s.tick = tick ∧ s.candidate = candidate

/-- What a tick is still to put into the queue it has seen. -/
def Takes (h : Ledger) (t : Running) : Prop :=
  ∀ now ignoreWindow redriveCleanup fuel, t.spec = .tick now ignoreWindow redriveCleanup fuel →
    ∃ seen, (Keeps taking t.prog seen fun _ _ => True) ∧
      ∀ candidate ∈ seen, Sighted h t.id candidate

structure Sound (h : Ledger) (c : State) : Prop where
  base : Base setup c
  earlier : ∀ p, (h.books p).Earlier
  ticks : ∀ t ∈ c.threads, Takes h t
  enqueued : ∀ e ∈ h.enqueued, Sighted h e.1 e.2

/-- Every marker that counts is that of the version beside it. -/
structure Honest (h : Ledger) (c : State) : Prop where
  own : ∀ p, (h.books p).Own (c.state.tree (companion suffix p))
  sighted : ∀ s ∈ h.sightings, s.marker = some s.version

theorem sighted_mono (h later : Ledger) (grows : ∀ s ∈ h.sightings, s ∈ later.sightings) (tick : Nat)
    (candidate : Candidate) (sighted : Sighted h tick candidate) : Sighted later tick candidate := by
  obtain ⟨s, member, mine⟩ := sighted
  exact ⟨s, grows s member, mine⟩

theorem takes_mono (h later : Ledger) (grows : ∀ s ∈ h.sightings, s ∈ later.sightings)
    (t u : Running) (same : SameThread t u) (takes : Takes h t) : Takes later u := by
  intro now ignoreWindow redriveCleanup fuel spec
  obtain ⟨seen, keeps, known⟩ := takes now ignoreWindow redriveCleanup fuel (same.spec ▸ spec)
  refine ⟨seen, same.prog ▸ keeps, fun candidate member => ?_⟩
  rw [same.id]
  exact sighted_mono h later grows t.id candidate (known candidate member)

theorem takes_started (h : Ledger) (u : Running) (prog : u.prog = main setup u.spec) : Takes h u := by
  intro now ignoreWindow redriveCleanup fuel spec
  rw [spec] at prog
  refine ⟨[], ?_, fun _ none => by cases none⟩
  rw [prog]
  exact tick_takes setup now ignoreWindow redriveCleanup fuel

section Calls

variable (h : Ledger) (c : State) (t : Running) (operation : Op) (answer : Answer)

theorem heed_grows (after : State) (s : Sighting) (member : s ∈ h.sightings) :
    s ∈ (heed setup suffix t operation answer c after h).sightings := by
  unfold heed
  split
  · exact List.mem_append_left _ member
  · exact member
  · exact member
  · exact member

theorem heed_learns (after : State) (ret : Ret operation) (effect : Effect World Spec)
    (performed : perform setup c.state t (Machine.live c) operation answer = some (ret, effect))
    (seen : List Candidate) (known : ∀ candidate ∈ seen, Sighted h t.id candidate) :
    ∀ candidate ∈ taking.learn seen operation ret,
      Sighted (heed setup suffix t operation answer c after h) t.id candidate := by
  have grows := heed_grows setup suffix h c t operation answer after
  cases operation with
  | discover =>
      cases answer with
      | found candidates =>
          simp only [perform] at performed
          split at performed
          · cases performed
            intro candidate member
            exact ⟨sight setup h t.id candidate, List.mem_append_right _ (List.mem_map_of_mem member), rfl, rfl⟩
          · cases performed
      | _ => cases performed
  | _ => exact fun candidate member => sighted_mono h _ grows t.id candidate (known candidate member)

theorem ticks_settle (ret : Ret operation) (effect : Effect World Spec)
    (next : Ret operation → Program Unit) (prog : t.prog = .call operation next)
    (member : t ∈ c.threads)
    (performed : perform setup c.state t (Machine.live c) operation answer = some (ret, effect))
    (ticks : ∀ u ∈ c.threads, Takes h u) (after : State) :
    ∀ u ∈ ((engine setup).settle c ((engine setup).resumed t operation ret next) effect).threads,
      Takes (heed setup suffix t operation answer c after h) u := by
  intro u hu
  have grows := heed_grows setup suffix h c t operation answer after
  rcases mem_settle (engine setup) c _ u effect hu with ⟨same, _⟩ | ⟨before, hbefore, _, same, _⟩ |
    ⟨new, hnew, same⟩
  · -- the caller goes on with what it has learned from the call
    intro now ignoreWindow redriveCleanup fuel spec
    obtain ⟨seen, keeps, known⟩ := ticks t member now ignoreWindow redriveCleanup fuel (same.spec ▸ spec)
    rw [prog] at keeps
    refine ⟨taking.learn seen operation ret, ?_, ?_⟩
    · rw [same.prog]
      exact keeps.2 ret trivial
    · rw [same.id]
      exact heed_learns setup suffix h c t operation answer after ret effect performed seen known
  · exact takes_mono h _ grows before u same (ticks before hbefore)
  · obtain ⟨_, _, _, _, _, prog⟩ := mem_spawn_from (engine setup) _ _ new hnew
    apply takes_started
    rw [same.prog, same.spec]
    exact prog

theorem sighted_of_upsert (base : Base setup c) (member : t ∈ c.threads) (relpath : String)
    (size : Nat) (mtimeMs now : Int) (next : Ret (.store (.upsertReady relpath size mtimeMs now)) → Program Unit)
    (prog : t.prog = .call (.store (.upsertReady relpath size mtimeMs now)) next) (takes : Takes h t) :
    Sighted h t.id ⟨relpath, size, mtimeMs⟩ := by
  have keeps := base.orderly t member
  rw [prog] at keeps
  -- no other kind of thread calls this statement
  have role : (start t.spec).role = .tick := (base.roles t member).symm.trans keeps.1.1
  cases spec : t.spec with
  | tick now ignoreWindow redriveCleanup fuel =>
      obtain ⟨seen, keeps, known⟩ := takes now ignoreWindow redriveCleanup fuel spec
      rw [prog] at keeps
      exact known _ keeps.1
  | _ =>
      rw [spec] at role
      cases role

theorem heed_enqueued (sound : Sound setup h c) (after : State) (member : t ∈ c.threads)
    (next : Ret operation → Program Unit) (prog : t.prog = .call operation next) :
    ∀ e ∈ (heed setup suffix t operation answer c after h).enqueued,
      Sighted (heed setup suffix t operation answer c after h) e.1 e.2 := by
  have taken : ∀ e ∈ (heed setup suffix t operation answer c after h).enqueued,
      Sighted h e.1 e.2 := by
    unfold heed
    split
    · exact sound.enqueued
    · rename_i relpath size mtimeMs now
      intro e enqueued
      rcases List.mem_append.mp enqueued with earlier | last
      · exact sound.enqueued e earlier
      · rw [List.mem_singleton.mp last]
        exact sighted_of_upsert setup h c t sound.base member relpath size mtimeMs now next prog
          (sound.ticks t member)
    · exact sound.enqueued
    · exact sound.enqueued
  intro e enqueued
  exact sighted_mono h _ (heed_grows setup suffix h c t operation answer after) e.1 e.2
    (taken e enqueued)

theorem heed_earlier (after : State) (earlier : ∀ p, (h.books p).Earlier) :
    ∀ p, ((heed setup suffix t operation answer c after h).books p).Earlier := by
  unfold heed
  split
  · exact earlier
  · exact earlier
  · exact fun p => (h.books p).earlier_passed _ _ (earlier p)
  · exact earlier

end Calls

theorem sound_step (h : Ledger) (c after : State) (choice : Step) (sound : Sound setup h c)
    (stepped : (engine setup).step c choice = some after) :
    Sound setup ((ledger setup suffix).follow c choice after h) after := by
  have base := base_step setup c after choice sound.base stepped
  rcases step_cases (engine setup) c after choice stepped with
    ⟨t, operation, ret, effect, next, calls, rfl⟩ | ⟨id, rfl, _, rfl⟩ |
    ⟨event, reaction, rfl, reacted, rfl⟩
  · obtain ⟨answer, rfl, performed⟩ := calls.choice
    have followed := follow_call ⟨fun _ => ⟨0, true, none⟩, [], []⟩ (heed setup suffix)
      (pass suffix) c ((engine setup).settle c ((engine setup).resumed t operation ret next) effect)
      sound.base.distinct t calls.member operation next calls.prog answer h
    rw [ledger, followed]
    constructor
    · exact base
    · exact heed_earlier setup suffix h c t operation answer _ sound.earlier
    · exact ticks_settle setup suffix h c t operation answer ret effect next calls.prog calls.member
        performed sound.ticks _
    · exact heed_enqueued setup suffix h c t operation answer sound _ calls.member next calls.prog
  · refine ⟨base, sound.earlier, fun u hu => ?_, sound.enqueued⟩
    obtain ⟨before, hbefore, _, same⟩ := mem_without (engine setup) c id u hu
    exact takes_mono h h (fun _ member => member) before u same (sound.ticks before hbefore)
  · have same : (pass suffix event c ((engine setup).absorb c reaction) h).sightings =
        h.sightings := by cases event <;> rfl
    have queue : (pass suffix event c ((engine setup).absorb c reaction) h).enqueued =
        h.enqueued := by cases event <;> rfl
    have grows : ∀ s ∈ h.sightings, s ∈ (pass suffix event c
        ((engine setup).absorb c reaction) h).sightings := by
      rw [same]
      exact fun _ member => member
    constructor
    · exact base
    · cases event with
      | touch path node => exact fun p => (h.books p).earlier_touched _ _ path node (sound.earlier p)
      | _ => exact sound.earlier
    · intro u hu
      rcases mem_absorb (engine setup) c reaction u hu with ⟨_, before, hbefore, kept⟩ |
        ⟨new, hnew, kept⟩
      · exact takes_mono h _ grows before u kept (sound.ticks before hbefore)
      · obtain ⟨_, _, _, _, _, prog⟩ := mem_spawn_from (engine setup) _ _ new hnew
        apply takes_started
        rw [kept.prog, kept.spec]
        exact prog
    · intro e member
      change e ∈ (pass suffix event c ((engine setup).absorb c reaction) h).enqueued at member
      rw [queue] at member
      exact sighted_mono h _ grows e.1 e.2 (sound.enqueued e member)

theorem sound_begins (c : State) (begins : Begins c) : Sound setup (ledger setup suffix).blank c := by
  constructor
  · exact base_begins setup c begins
  · exact fun _ v none => by cases none
  · intro t member
    rw [begins.threads] at member
    cases member
  · exact fun e none => by cases none

theorem heed_own (h : Ledger) (c after : State) (t : Running) (operation : Op) (answer : Answer)
    (ret : Ret operation) (effect : Effect World Spec)
    (performed : perform setup c.state t (Machine.live c) operation answer = some (ret, effect))
    (reached : after.state = effect.state)
    (spares : ∀ call, operation = .fs call → ∀ p, (h.books p).awaiting = false →
      ¬Makes (companion suffix p) call)
    (own : ∀ p, (h.books p).Own (c.state.tree (companion suffix p))) :
    ∀ p, ((heed setup suffix t operation answer c after h).books p).Own
      (after.state.tree (companion suffix p)) := by
  intro p
  have did := did_of_perform setup t _ c.state operation answer ret effect performed
  have still : (∀ call, operation ≠ .fs call) →
      (h.books p).Own (after.state.tree (companion suffix p)) := by
    intro other
    rw [reached, did_tree setup t _ c.state operation ret effect did other]
    exact own p
  cases operation with
  | fs call =>
      cases did with
      | disk _ answer =>
          change ((h.books p).passed (c.state.tree (companion suffix p))
            (after.state.tree (companion suffix p))).Own _
          rw [reached]
          apply (h.books p).own_passed _ _ (own p)
          intro awaits
          exact call_spares c.state.tree call answer _ (spares call rfl p awaits)
  | store operation =>
      have plain := still fun call => by simp
      cases operation <;> first | exact plain | (cases answer <;> exact plain)
  | discover =>
      have plain := still fun call => by simp
      cases answer <;> exact plain
  | _ => exact still fun call => by simp

theorem file_of_candidate (world : World) (found : Candidate)
    (is : candidateIs setup world found = true) :
    isFile world.tree (setup.absSource found.relpath) = true := by
  unfold candidateIs at is
  split at is
  · rename_i bytes mtimeMs there
    rw [isFile, there]
  · cases is

theorem heed_sighted (h : Ledger) (c after : State) (t : Running) (operation : Op) (answer : Answer)
    (ret : Ret operation) (effect : Effect World Spec)
    (performed : perform setup c.state t (Machine.live c) operation answer = some (ret, effect))
    (meets : Meets setup suffix h c (.run t.id answer)) (honest : Honest suffix h c) :
    ∀ s ∈ (heed setup suffix t operation answer c after h).sightings, s.marker = some s.version := by
  unfold heed
  split
  · rename_i candidates
    intro s member
    rcases List.mem_append.mp member with earlier | new
    · exact honest.sighted s earlier
    · obtain ⟨found, among, rfl⟩ := List.mem_map.mp new
      simp only [perform] at performed
      split at performed
      · rename_i are
        have file := file_of_candidate setup c.state found (List.all_eq_true.mp are found among)
        have there := meets.judged t.id candidates rfl found among
        cases awaits : (h.books (setup.absSource found.relpath)).awaiting with
        | true =>
            -- the strategy has seen a marker, and the condition says that there is none
            have nothing := meets.cleared t.id candidates rfl _ awaits file
            rw [there] at nothing
            cases nothing
        | false => exact honest.own _ awaits there
      · cases performed
  · exact honest.sighted
  · exact honest.sighted
  · exact honest.sighted

theorem honest_step (h : Ledger) (c after : State) (choice : Step) (base : Base setup c)
    (honest : Honest suffix h c) (meets : Meets setup suffix h c choice)
    (stepped : (engine setup).step c choice = some after) :
    Honest suffix ((ledger setup suffix).follow c choice after h) after := by
  rcases step_cases (engine setup) c after choice stepped with
    ⟨t, operation, ret, effect, next, calls, rfl⟩ | ⟨id, rfl, _, rfl⟩ |
    ⟨event, reaction, rfl, reacted, rfl⟩
  · obtain ⟨answer, rfl, performed⟩ := calls.choice
    have followed := follow_call ⟨fun _ => ⟨0, true, none⟩, [], []⟩ (heed setup suffix)
      (pass suffix) c ((engine setup).settle c ((engine setup).resumed t operation ret next) effect)
      base.distinct t calls.member operation next calls.prog answer h
    rw [ledger, followed]
    constructor
    · apply heed_own setup suffix h c _ t operation answer ret effect performed rfl _ honest.own
      rintro call rfl
      exact meets.spares t calls.member answer call next rfl calls.prog
    · exact heed_sighted setup suffix h c _ t operation answer ret effect performed meets honest
  · exact ⟨honest.own, honest.sighted⟩
  · have same : (pass suffix event c ((engine setup).absorb c reaction) h).sightings =
        h.sightings := by cases event <;> rfl
    have tree := react_tree (Machine.live c) c.state event reaction reacted
    constructor
    · intro p
      cases event with
      | touch path node =>
          cases reacted
          exact (h.books p).own_touched c.state.tree _ _ path node (honest.own p)
      | _ =>
          have kept := tree.resolve_left (by rintro ⟨path, node, touches, _⟩; cases touches)
          change (h.books p).Own (reaction.state.tree (companion suffix p))
          rw [kept]
          exact honest.own p
    · change ∀ s ∈ (pass suffix event c ((engine setup).absorb c reaction) h).sightings, _
      rw [same]
      exact honest.sighted

theorem honest_begins (c : State) : Honest suffix (ledger setup suffix).blank c := by
  constructor
  · intro p awaits
    cases awaits
  · intro s none
    cases none

/-- Where every scan finds the markers of earlier versions gone and the instance makes nothing in
their place, a version is put into the queue only beside its own marker. -/
theorem vouched_of_cleared (h : Ledger) (c : State)
    (tracked : Tracked (engine setup) (ledger setup suffix) Begins (Meets setup suffix) h c) :
    Vouched h := by
  have both := invariant_of_tracked (engine setup) (ledger setup suffix) Begins (Meets setup suffix)
    (fun h c => Sound setup h c ∧ Honest suffix h c)
    (fun c begins => ⟨sound_begins setup suffix c begins, honest_begins setup suffix c⟩)
    (fun h c after choice holds meets stepped => ⟨sound_step setup suffix h c after choice holds.1 stepped,
      honest_step setup suffix h c after choice holds.1.base holds.2 meets stepped⟩) h c tracked
  intro e enqueued
  obtain ⟨s, member, tick, candidate⟩ := both.1.enqueued e enqueued
  exact ⟨s, member, tick, candidate, both.2.sighted s member⟩

end Runs

/-! ## Two versions of a file -/

abbrev small : Setup := smallSetup plainCompletion

/-- The producer writes the file, and its marker; the item is completed. -/
def untilConsumed : List Step :=
  [.env (.touch ["in", "a"] (some (.file [] 0))), .env (.touch ["in", "a.done"] (some (.file [] 0)))] ++
    Reappearance.untilCompleted

def spool : List (Path × Node) := [(["in"], .dir)]

def paths : List Path := [["in"], ["in", "a"], ["in", "a.done"]]

def onlyLooks : FsOp → Bool
  | .pathExists _ | .fileLen _ | .readFile _ | .removeFile _ | .nanos => true
  | _ => false

def judgedAt (c : State) : Step → Bool
  | .run _ (.found candidates) => candidates.all fun found =>
      hasMarker ".done" c.state.tree (small.absSource found.relpath)
  | _ => true

def meetsAt (h : Ledger) (c : State) : Step → Bool
  | .run id answer =>
      judgedAt c (.run id answer) &&
      (paths.all fun p => !(h.books p).awaiting || !isFile c.state.tree p ||
        !hasMarker ".done" c.state.tree p) &&
      c.threads.all fun t => t.id ≠ id ||
        match t.prog with
        | .call (.fs operation) _ => onlyLooks operation
        | _ => true
  | .env (.touch path _) => path ∈ paths
  | _ => true

def Confined (c : State) : Prop := ∀ p, c.state.tree p ≠ none → p ∈ paths

theorem not_makes (operation : FsOp) (looks : onlyLooks operation = true) (p : Path) :
    ¬Makes p operation := by
  cases operation <;> first | exact id | cases looks

theorem looks_of_check (h : Ledger) (c : State) (t : Running) (member : t ∈ c.threads)
    (answer : Answer) (checked : meetsAt h c (.run t.id answer) = true) (operation : FsOp)
    (next : Ret (.fs operation) → Program Unit) (prog : t.prog = .call (.fs operation) next) :
    onlyLooks operation = true := by
  rw [meetsAt, Bool.and_eq_true] at checked
  have looks := List.all_eq_true.mp checked.2 t member
  simpa [prog] using looks

theorem confined_step (h : Ledger) (c after : State) (choice : Step) (confined : Confined c)
    (checked : meetsAt h c choice = true) (stepped : (engine small).step c choice = some after) :
    Confined after := by
  rcases step_cases (engine small) c after choice stepped with
    ⟨t, operation, ret, effect, next, calls, rfl⟩ | ⟨id, rfl, _, rfl⟩ |
    ⟨event, reaction, rfl, reacted, rfl⟩
  · have did := calls_did small c t operation ret effect next choice calls
    obtain ⟨answer, rfl, _⟩ := calls.choice
    intro p there
    cases operation with
    | fs operation =>
        have looks := looks_of_check h c t calls.member answer checked operation next calls.prog
        cases did with
        | disk _ answer =>
            rcases call_spares c.state.tree operation answer p (not_makes operation looks p) with
              same | gone
            · exact confined p fun none => there (same.trans none)
            · exact absurd gone there
    | _ =>
        have same := did_tree small t _ c.state _ ret effect did fun call => by simp
        exact confined p fun none => there ((congrFun same p).trans none)
  · exact confined
  · -- the producer keeps to its paths
    intro p there
    rcases react_tree (Machine.live c) c.state event reaction reacted with
      ⟨path, node, rfl, tree⟩ | same
    · by_cases touched : p = path
      · rw [touched]
        exact of_decide_eq_true checked
      · refine confined p fun none => there ?_
        exact (congrFun tree p).trans ((put_other _ path p node touched).trans none)
    · exact confined p fun none => there ((congrFun same p).trans none)

theorem meets_of_check (h : Ledger) (c : State) (choice : Step) (confined : Confined c)
    (checked : meetsAt h c choice = true) : Meets small ".done" h c choice := by
  constructor
  · rintro id candidates rfl found member
    rw [meetsAt, Bool.and_eq_true, Bool.and_eq_true] at checked
    exact List.all_eq_true.mp checked.1.1 found member
  · rintro id candidates rfl p awaits file
    rw [meetsAt, Bool.and_eq_true, Bool.and_eq_true] at checked
    have here : p ∈ paths := confined p fun none => by simp [isFile, none] at file
    have cleared := List.all_eq_true.mp checked.1.2 p here
    simpa [awaits, file] using cleared
  · rintro t member answer operation next rfl prog p _
    exact not_makes operation (looks_of_check h c t member answer checked operation next prog) _

/-- Someone takes the marker away, and the producer writes another version and its marker. -/
def untilVouched : List Step :=
  untilConsumed ++ [.env (.touch ["in", "a.done"] none),
    .env (.touch ["in", "a"] (some (.file [] 7))), .env (.touch ["in", "a.done"] (some (.file [] 0))),
    .env (.trigger 1 false 1)] ++ go 5 [.asIs, .asIs, .found [⟨"a", 0, 7⟩], .asIs]

def bothQueued (h : Ledger) : Bool :=
  h.enqueued = [(1, ⟨"a", 0, 0⟩), (5, ⟨"a", 0, 7⟩)]

theorem vouched_twice :
    ∃ h c, Tracked (engine small) (ledger small ".done") Begins (Meets small ".done") h c ∧
      bothQueued h = true ∧ Vouched h := by
  obtain ⟨h, c, ran, queued⟩ := exists_of_tracked_run (engine small) (ledger small ".done")
    (fun c => c = smallStart spool) (fun h c choice => meetsAt h c choice = true) meetsAt
    (fun _ _ _ => id) (fun h _ => bothQueued h) untilVouched (smallStart spool) rfl (by decide +kernel)
  have confined : ∀ h c, Tracked (engine small) (ledger small ".done")
      (fun c => c = smallStart spool) (fun h c choice => meetsAt h c choice = true) h c → Confined c := by
    apply invariant_of_tracked (engine small) (ledger small ".done") _ _ fun _ c => Confined c
    · rintro _ rfl p there
      by_cases root : p = ["in"]
      · rw [root]
        exact List.mem_cons_self
      · exact absurd (put_other (fun _ => none) ["in"] p _ root) there
    · exact fun h c after choice kept checked stepped =>
        confined_step h c after choice kept checked stepped
  have tracked : Tracked (engine small) (ledger small ".done") Begins (Meets small ".done") h c := by
    refine tracked_mono (engine small) (ledger small ".done") _ Begins _ _ ?_ ?_ h c ran
    · rintro _ rfl
      exact small_begins spool
    · exact fun h c choice tracked checked =>
        meets_of_check h c choice (confined h c tracked) checked
  exact ⟨h, c, tracked, queued, vouched_of_cleared small ".done" h c tracked⟩

/-! The marker of the first version is there when the item is completed, and when a tick takes in
the next one. -/

theorem judged_of_check (_ : Ledger) (c : State) (choice : Step) (checked : judgedAt c choice = true) :
    Judged small ".done" c choice := by
  rintro id candidates rfl found member
  exact List.all_eq_true.mp checked found member

/-- The producer writes another version, and a tick comes before its marker. -/
def untilReused : List Step :=
  untilConsumed ++ [.env (.touch ["in", "a"] (some (.file [] 7))), .env (.trigger 1 false 1)] ++
    go 5 [.asIs, .asIs, .found [⟨"a", 0, 7⟩], .asIs]

def leftOver (h : Ledger) (c : State) : Bool :=
  (c.state.store.items "a").any (fun row => row.state = .completed) &&
    (h.books ["in", "a"]).marker = some 0 && hasMarker ".done" c.state.tree ["in", "a"]

def reused (h : Ledger) : Bool :=
  h.sightings = [⟨1, ⟨"a", 0, 0⟩, 0, some 0⟩, ⟨5, ⟨"a", 0, 7⟩, 1, some 0⟩] &&
    h.enqueued = [(1, ⟨"a", 0, 0⟩), (5, ⟨"a", 0, 7⟩)]

theorem marker_reused :
    (∃ h c, Tracked (engine small) (ledger small ".done") Begins
      (fun _ c choice => Judged small ".done" c choice) h c ∧ leftOver h c = true) ∧
    ∃ h c, Tracked (engine small) (ledger small ".done") Begins
      (fun _ c choice => Judged small ".done" c choice) h c ∧ ¬Vouched h := by
  constructor
  · exact exists_of_tracked_run (engine small) (ledger small ".done") Begins
      (fun _ c choice => Judged small ".done" c choice) (fun _ => judgedAt) judged_of_check leftOver
      untilConsumed (smallStart spool) (small_begins spool) (by decide)
  · obtain ⟨h, c, tracked, found⟩ := exists_of_tracked_run (engine small) (ledger small ".done") Begins
      (fun _ c choice => Judged small ".done" c choice) (fun _ => judgedAt) judged_of_check
      (fun h _ => reused h) untilReused (smallStart spool) (small_begins spool) (by decide)
    refine ⟨h, c, tracked, fun vouched => ?_⟩
    rw [reused, Bool.and_eq_true] at found
    have sightings := of_decide_eq_true found.1
    obtain ⟨s, member, tick, _, own⟩ := vouched (5, ⟨"a", 0, 7⟩)
      (by rw [of_decide_eq_true found.2]; exact List.mem_cons_of_mem _ List.mem_cons_self)
    rw [sightings] at member
    simp only [List.mem_cons, List.not_mem_nil, or_false] at member
    rcases member with rfl | rfl
    · cases tick
    · -- the second version, beside the marker of the first
      cases own

end FileReplicator.Markers
