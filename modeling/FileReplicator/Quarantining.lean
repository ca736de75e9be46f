import FileReplicator.Runs

/-!
# One quarantine

What is remembered of the quarantines of a run, and what a quarantine whose calls
all go through has done to the file system at each of its places.
-/

namespace FileReplicator.Quarantining

open Domain DurableStore Effects FileTree SourceActions Operations Worker Interleaving Instance
open Protocol ActionsKeep Steps Runs

variable (setup : Setup)

/-! ## What is remembered -/

structure History where
  /-- The files that quarantines have moved: the item, the place, the bytes. -/
  moved : List (String × Path × Bytes)
  /-- Where quarantined files and sidecars of recorded items stand. -/
  kept : List Path
  recorded : List String
  /-- A quarantine has changed a kept file. -/
  overwritten : Bool

def holds (tree : Tree) (bytes : Bytes) (path : Path) : Bool :=
  match tree path with
  | some (.file found _) => found = bytes
  | _ => false

theorem holds_of_file (tree : Tree) (bytes : Bytes) (path : Path) (mtimeMs : Int)
    (file : tree path = some (.file bytes mtimeMs)) : holds tree bytes path = true := by
  simp [holds, file]

/-- A file that was there is another one, or gone. -/
def changed (before after : Tree) (path : Path) : Bool :=
  (before path).isSome && before path ≠ after path

/-- The names a quarantine may leave its file at. -/
def placesOf (job : QuarantineJob) : List Path :=
  if job.failedDir = none then [] else namesOf (plainPath job)

namespace History

variable (h : History)

/-- The source has left: its file is where one of the names holds its bytes now. -/
def release (job : QuarantineJob) (before after : Tree) : History :=
  match before job.src, after job.src with
  | some (.file bytes _), none =>
      { h with
        moved := ((placesOf job).filter (holds after bytes)).map
          (fun path => (job.ctx.relpath, path, bytes)) ++ h.moved }
  | _, _ => h

def call (job : QuarantineJob) (before after : Tree) : History :=
  { h.release job before after with
    overwritten := h.overwritten || h.kept.any (changed before after) }

/-- A change by anybody else: what they replace is no quarantined file any more. -/
def foreign (before after : Tree) : History :=
  { h with kept := h.kept.filter fun path => !changed before after path }

/-- Where the files of an item stand when it is recorded as quarantined. -/
def standing (relpath : String) : List Path :=
  ((h.moved.filter fun m => m.1 = relpath).flatMap fun m => [m.2.1, sidecarPath m.2.1]) ++
    match setup.completion.failedDir with
    | some dir => [sidecarPath (joinRel dir relpath)]
    | none => []

def record (relpath : String) : History :=
  { h with
    moved := h.moved.filter fun m => m.1 ≠ relpath
    kept := h.standing setup relpath ++ h.kept
    recorded := relpath :: h.recorded }

def heed (spec : Spec) (before after : Tree) (answer : Answer) : Op → History
  | .fs _ =>
      match spec with
      | .quarantine _ job => h.call job before after
      | _ => h.foreign before after
  | .store operation =>
      match persists .quarantined operation with
      | some relpath => if answer = .asIs then h.record setup relpath else h
      | none => h
  | _ => h

end History

def remembered (c : State) (choice : Step) (after : State) (h : History) : History :=
  match choice with
  | .run id answer =>
      match c.threads.find? fun t => t.id = id with
      | some t =>
          match t.prog with
          | .call operation _ =>
              h.heed setup t.spec c.state.tree after.state.tree answer operation
          | .done _ => h
      | none => h
  | .kill _ => h
  | .env _ => h.foreign c.state.tree after.state.tree

def quarantines : Chronicle Op Ret World Spec Notes Answer Event History where
  blank := ⟨[], [], [], false⟩
  follow := remembered setup

theorem release_grows (h : History) (job : QuarantineJob) (before after : Tree) :
    ∀ m ∈ h.moved, m ∈ (h.release job before after).moved := by
  intro m hm
  unfold History.release
  split
  · exact List.mem_append_right _ hm
  · exact hm

theorem release_moved (h : History) (job : QuarantineJob) (before after : Tree) (bytes : Bytes)
    (was now : Int) (configured : job.failedDir ≠ none)
    (source : before job.src = some (.file bytes was)) (gone : after job.src = none)
    (arrived : after (plainPath job) = some (.file bytes now)) :
    (job.ctx.relpath, plainPath job, bytes) ∈ (h.release job before after).moved := by
  simp only [History.release, source, gone]
  apply List.mem_append_left
  apply List.mem_map.mpr
  refine ⟨plainPath job, List.mem_filter.mpr ⟨?_, ?_⟩, rfl⟩
  · rw [placesOf, if_neg configured]
    exact List.mem_cons_self
  · exact holds_of_file after bytes (plainPath job) now arrived

def Names (job : QuarantineJob) (path : Path) : Prop :=
  path = job.src ∨ path = plainPath job ∨ path = sidecarPath (plainPath job) ∨
    ∃ tag, path = moveTempPath (plainPath job) tag

theorem sidecar_ne (path : Path) : sidecarPath path ≠ path := by
  intro same
  have name := name_of_with_file_name path (path.getLast?.getD "" ++ ".error.json")
  rw [← sidecarPath, same, nameOf] at name
  cases found : path.getLast? with
  | none =>
      rw [List.getLast?_eq_none_iff.mp found] at same
      cases same
  | some last =>
      rw [found] at name
      have length := congrArg String.length name
      have : ".error.json".length = 11 := by decide
      simp only [Option.getD_some, String.length_append] at length
      omega

theorem temp_ne (path : Path) (tag : Nat) : moveTempPath path tag ≠ path := by
  intro same
  have longer := temp_name_length path tag
  rw [same] at longer
  omega

structure Apart (job : QuarantineJob) : Prop where
  plain : job.src ≠ plainPath job
  temp : ∀ tag, moveTempPath (plainPath job) tag ≠ job.src

/-! ## Places -/

/-- The file has left its source, and stands at the plain name. -/
def Landed (h : History) (tree : Tree) (job : QuarantineJob) : Prop :=
  ∃ bytes mtimeMs, (job.ctx.relpath, plainPath job, bytes) ∈ h.moved ∧
    tree (plainPath job) = some (.file bytes mtimeMs)

def Twice (tree : Tree) (first second : Path) : Prop :=
  ∃ bytes was now, tree first = some (.file bytes was) ∧ tree second = some (.file bytes now)

def Fits (h : History) (tree : Tree) (job : QuarantineJob) : Place → Prop
  | .copied tmp | .again tmp =>
      (∃ tag, tmp = moveTempPath (plainPath job) tag) ∧ Twice tree job.src tmp
  | .doubled => Twice tree job.src (plainPath job)
  | .moved => Landed h tree job
  | .settled =>
      Landed h tree job ∧
        ∃ mtimeMs, tree (sidecarPath (plainPath job)) = some (.file (setup.render job.ctx) mtimeMs)
  | .off => False
  | _ => True

/-- The files a quarantine relies on at a place. -/
def Holds (job : QuarantineJob) : Place → Path → Prop
  | .copied tmp, path | .again tmp, path => path = job.src ∨ path = tmp
  | .doubled, path => path = job.src ∨ path = plainPath job
  | .moved, path => path = plainPath job
  | .settled, path => path = plainPath job ∨ path = sidecarPath (plainPath job)
  | _, _ => False

section Keeping

variable {setup} {h later : History} {tree after : Tree} {job : QuarantineJob}
variable (moved : ∀ m ∈ h.moved, m.1 = job.ctx.relpath → m ∈ later.moved)

include moved in
theorem landed_keeping (landed : Landed h tree job)
    (kept : ∀ node, tree (plainPath job) = some node → after (plainPath job) = some node) :
    Landed later after job := by
  obtain ⟨bytes, mtimeMs, member, file⟩ := landed
  exact ⟨bytes, mtimeMs, moved _ member rfl, kept _ file⟩

theorem twice_keeping (first second : Path) (twice : Twice tree first second)
    (one : ∀ node, tree first = some node → after first = some node)
    (two : ∀ node, tree second = some node → after second = some node) :
    Twice after first second := by
  obtain ⟨bytes, was, now, here, there⟩ := twice
  exact ⟨bytes, was, now, one _ here, two _ there⟩

include moved in
/-- What a quarantine has done stays while nobody changes the files it relies on. -/
theorem fits_keeping (place : Place) (fits : Fits setup h tree job place)
    (kept : ∀ path, Holds job place path → ∀ node, tree path = some node → after path = some node) :
    Fits setup later after job place := by
  cases place with
  | copied tmp =>
      exact ⟨fits.1, twice_keeping _ _ fits.2 (kept _ (Or.inl rfl)) (kept _ (Or.inr rfl))⟩
  | again tmp =>
      exact ⟨fits.1, twice_keeping _ _ fits.2 (kept _ (Or.inl rfl)) (kept _ (Or.inr rfl))⟩
  | doubled => exact twice_keeping _ _ fits (kept _ (Or.inl rfl)) (kept _ (Or.inr rfl))
  | moved => exact landed_keeping moved fits (kept _ rfl)
  | settled =>
      obtain ⟨landed, mtimeMs, sidecar⟩ := fits
      exact ⟨landed_keeping moved landed (kept _ (Or.inl rfl)), mtimeMs, kept _ (Or.inr rfl) _ sidecar⟩
  | off => exact fits.elim
  | _ => trivial

end Keeping

/-! ## Calls -/

/-- A call after which the quarantine goes on. A source that is not there must have been moved by an
earlier attempt. -/
def Goes (h : History) (tree : Tree) (job : QuarantineJob) (place : Place) (operation : FsOp)
    (answer : FsAnswer) : Prop :=
  advance job place operation (callFs tree operation answer).1 ≠ .off ∧
    (place = .looking →
      advance job place operation (callFs tree operation answer).1 = .moved → Landed h tree job)

section Calls

variable (h : History) (tree : Tree) (job : QuarantineJob) (answer : FsAnswer)
variable (configured : job.failedDir ≠ none) (apart : Apart job)

theorem put_same (path : Path) (node : Option Node) : put tree path node path = node := if_pos rfl

include configured apart

theorem fits_rename (ok : (callFs tree (.rename job.src (plainPath job)) answer).1 = .ok ()) :
    Landed (h.release job tree (callFs tree (.rename job.src (plainPath job)) answer).2)
      (callFs tree (.rename job.src (plainPath job)) answer).2 job := by
  obtain ⟨bytes, mtimeMs, source, after⟩ := rename_spec tree answer _ _ ok
  rw [after]
  refine ⟨bytes, mtimeMs, ?_, put_same _ _ _⟩
  apply release_moved h job _ _ bytes mtimeMs mtimeMs configured source
  · rw [put_other _ _ _ _ apart.plain]
    exact put_same _ _ _
  · exact put_same _ _ _

theorem fits_remove (twice : Twice tree job.src (plainPath job))
    (ok : (callFs tree (.removeFile job.src) answer).1 = .ok ()) :
    Landed (h.release job tree (callFs tree (.removeFile job.src) answer).2)
      (callFs tree (.removeFile job.src) answer).2 job := by
  obtain ⟨bytes, was, now, source, copy⟩ := twice
  obtain ⟨_, after⟩ := remove_spec tree answer _ ok
  rw [after]
  have stays : put tree job.src none (plainPath job) = some (.file bytes now) := by
    rw [put_other _ _ _ _ apart.plain.symm]
    exact copy
  exact ⟨bytes, now, release_moved h job _ _ bytes was now configured source (put_same _ _ _) stays,
    stays⟩

omit configured in
theorem fits_publish (tag : Nat)
    (twice : Twice tree job.src (moveTempPath (plainPath job) tag))
    (ok : (callFs tree (.rename (moveTempPath (plainPath job) tag) (plainPath job)) answer).1 =
      .ok ()) :
    Twice (callFs tree (.rename (moveTempPath (plainPath job) tag) (plainPath job)) answer).2 job.src
      (plainPath job) := by
  obtain ⟨bytes, was, now, source, copy⟩ := twice
  obtain ⟨found, mtimeMs, there, after⟩ := rename_spec tree answer _ _ ok
  rw [copy] at there
  cases there
  rw [after]
  refine ⟨bytes, was, now, ?_, put_same _ _ _⟩
  rw [put_other _ _ _ _ apart.plain, put_other _ _ _ _ (apart.temp tag).symm]
  exact source

theorem fits_call (place : Place) (operation : FsOp) (may : mayMove setup job place operation)
    (goes : Goes h tree job place operation answer) (fits : Fits setup h tree job place) :
    Fits setup (h.call job tree (callFs tree operation answer).2) (callFs tree operation answer).2 job
      (advance job place operation (callFs tree operation answer).1) := by
  obtain ⟨goes, earlier⟩ := goes
  have grows := fun m hm (_ : m.1 = job.ctx.relpath) =>
    release_grows h job tree (callFs tree operation answer).2 m hm
  cases place with
  | looking =>
      cases may
      have same := call_looks tree answer (.pathExists job.src) (Or.inl ⟨_, rfl⟩)
      cases found : (callFs tree (.pathExists job.src) answer).1 with
      | true => trivial
      | false =>
          rw [found] at earlier
          rw [same] at grows ⊢
          exact landed_keeping grows (earlier rfl rfl) fun _ there => there
  | there =>
      -- it stays where it is, or the plain name is free
      rcases may with ⟨path, rfl⟩ | rfl | ⟨rfl, policy⟩
      · cases made : (callFs tree (.createDirAll path) answer).1 with
        | ok _ => trivial
        | error e =>
            rw [made] at goes
            exact absurd rfl goes
      · cases found : (callFs tree (.pathExists (plainPath job)) answer).1 with
        | false => trivial
        | true =>
            rw [found] at goes
            by_cases policy : job.collision = .overwrite
            · simp only [advance, policy]
              trivial
            · simp only [advance, policy] at goes
              exact absurd rfl goes
      · cases removed : (callFs tree (.removeFile (plainPath job)) answer).1 with
        | ok _ => trivial
        | error e =>
            rw [removed] at goes
            exact absurd rfl goes
  | free =>
      cases may
      cases renamed : (callFs tree (.rename job.src (plainPath job)) answer).1 with
      | ok _ => exact fits_rename h tree job answer configured apart renamed
      | error e => trivial
  | fallen =>
      rcases may with rfl | ⟨tag, rfl⟩
      · trivial
      · cases copied : (callFs tree (.copy job.src (moveTempPath (plainPath job) tag)) answer).1 with
        | ok _ =>
            obtain ⟨bytes, mtimeMs, source, after⟩ := copy_spec tree answer _ _ copied
            refine ⟨⟨tag, rfl⟩, bytes, mtimeMs, 0, ?_, ?_⟩
            · rw [after, put_other _ _ _ _ (apart.temp tag).symm]
              exact source
            · rw [after]
              exact put_same _ _ _
        | error e =>
            rw [copied] at goes
            exact absurd rfl goes
  | copied tmp =>
      cases may
      obtain ⟨⟨tag, rfl⟩, twice⟩ := fits
      cases renamed : (callFs tree (.rename (moveTempPath (plainPath job) tag) (plainPath job))
          answer).1 with
      | ok _ => exact fits_publish tree job answer apart tag twice renamed
      | error e =>
          rw [rename_failed tree answer _ _ e renamed]
          exact ⟨⟨tag, rfl⟩, twice⟩
  | again tmp =>
      obtain ⟨⟨tag, rfl⟩, twice⟩ := fits
      rcases may with rfl | rfl | rfl
      · rw [call_looks tree answer (.pathExists (plainPath job)) (Or.inl ⟨_, rfl⟩)]
        exact ⟨⟨tag, rfl⟩, twice⟩
      · cases removed : (callFs tree (.removeFile (plainPath job)) answer).1 with
        | ok _ =>
            obtain ⟨_, after⟩ := remove_spec tree answer _ removed
            refine ⟨⟨tag, rfl⟩, twice_keeping _ _ twice ?_ ?_⟩
            · intro node there
              rwa [after, put_other _ _ _ _ apart.plain]
            · intro node there
              rwa [after, put_other _ _ _ _ (temp_ne _ tag)]
        | error e =>
            rw [removed] at goes
            exact absurd rfl goes
      · cases renamed : (callFs tree (.rename (moveTempPath (plainPath job) tag) (plainPath job))
            answer).1 with
        | ok _ => exact fits_publish tree job answer apart tag twice renamed
        | error e =>
            rw [renamed] at goes
            exact absurd rfl goes
  | doubled =>
      cases may
      cases removed : (callFs tree (.removeFile job.src) answer).1 with
      | ok _ => exact fits_remove h tree job answer configured apart fits removed
      | error e =>
          rw [removed] at goes
          exact absurd rfl goes
  | moved =>
      rcases may with ⟨path, rfl⟩ | rfl
      · exact landed_keeping grows fits fun node there =>
          call_fs_frame tree (.createDirAll path) answer (plainPath job) node List.not_mem_nil there
      · cases written : (callFs tree (.writeFile (sidecarPath (plainPath job)) (setup.render job.ctx))
            answer).1 with
        | ok _ =>
            have after := write_spec tree answer _ _ written
            refine ⟨landed_keeping grows fits fun node there => ?_, 0, ?_⟩
            · rwa [after, put_other _ _ _ _ (sidecar_ne _).symm]
            · rw [after]
              exact put_same _ _ _
        | error e =>
            rw [written] at goes
            exact absurd rfl goes
  | settled => exact may.elim
  | off => exact fits.elim

omit configured apart in
theorem touched_names (place : Place) (operation : FsOp) (may : mayMove setup job place operation)
    (fits : Fits setup h tree job place) (path : Path) (touches : path ∈ touched operation) :
    Names job path := by
  have temp : ∀ tmp, (∃ tag, tmp = moveTempPath (plainPath job) tag) →
      path ∈ touched (.rename tmp (plainPath job)) → Names job path := by
    rintro tmp ⟨tag, rfl⟩ touches
    rcases List.mem_cons.mp touches with rfl | touches
    · exact Or.inr (Or.inr (Or.inr ⟨tag, rfl⟩))
    · exact Or.inr (Or.inl (List.mem_singleton.mp touches))
  cases place with
  | looking =>
      cases may
      cases touches
  | there =>
      rcases may with ⟨path, rfl⟩ | rfl | ⟨rfl, _⟩
      · cases touches
      · cases touches
      · exact Or.inr (Or.inl (List.mem_singleton.mp touches))
  | free =>
      cases may
      rcases List.mem_cons.mp touches with rfl | touches
      · exact Or.inl rfl
      · exact Or.inr (Or.inl (List.mem_singleton.mp touches))
  | fallen =>
      rcases may with rfl | ⟨tag, rfl⟩
      · cases touches
      · exact Or.inr (Or.inr (Or.inr ⟨tag, List.mem_singleton.mp touches⟩))
  | copied tmp =>
      cases may
      exact temp tmp fits.1 touches
  | again tmp =>
      rcases may with rfl | rfl | rfl
      · cases touches
      · exact Or.inr (Or.inl (List.mem_singleton.mp touches))
      · exact temp tmp fits.1 touches
  | doubled =>
      cases may
      exact Or.inl (List.mem_singleton.mp touches)
  | moved =>
      rcases may with ⟨path, rfl⟩ | rfl
      · cases touches
      · exact Or.inr (Or.inr (Or.inl (List.mem_singleton.mp touches)))
  | settled => exact may.elim
  | off => exact fits.elim

omit configured apart in
theorem unchanged_call (place : Place) (operation : FsOp) (may : mayMove setup job place operation)
    (fits : Fits setup h tree job place) (path : Path) (other : ¬Names job path) :
    changed tree (callFs tree operation answer).2 path = false := by
  cases there : tree path with
  | none => simp [changed, there]
  | some node =>
      have kept := call_fs_frame tree operation answer path node
        (fun touches => other (touched_names setup h tree job place operation may fits path touches))
        there
      simp [changed, there, kept]

end Calls

end FileReplicator.Quarantining
