import FileReplicator.Handles

/-!
# Completed means archived

When an item is persisted `Completed`, its archive copy is there, provided that
nobody else changes an archive name of an item between the look at it and the
record, and that an attempt which finds its source gone finds the copy. Without
the second one a lost source is completed with an empty archive.
-/

namespace FileReplicator.ArchiveTruth

open Domain DurableStore Effects FileTree SourceActions Operations Worker Interleaving Instance
open Protocol Steps Runs Handles

variable (setup : Setup)

/-! ## What is there -/

/-- The file of an action is under one of its archive names, with the verified size and, where the
policy asks for it and one was recorded, the verified checksum. -/
def Stands (tree : Tree) (ctx : CleanupCtx) (dir : Path) : Prop :=
  ∃ path ∈ archiveNames ctx dir, ∃ bytes mtimeMs, tree path = some (.file bytes mtimeMs) ∧
    bytes.length = ctx.expectedSize ∧
    (ctx.verify = .checksum → ∀ algo, algorithmOf ctx.expectedChecksum = some algo →
      setup.digest algo bytes = ctx.expectedChecksum)

def rehashes (ctx : CleanupCtx) : Bool :=
  ctx.verify = .checksum && (algorithmOf ctx.expectedChecksum).isSome

/-- What is known of a path whose length an action was told. -/
def Measured (tree : Tree) (ctx : CleanupCtx) (dir path : Path) (n : Nat) : Prop :=
  (∃ bytes mtimeMs, tree path = some (.file bytes mtimeMs) ∧ bytes.length = n) ∨
    (tree path = some .dir ∧ (n = ctx.expectedSize → rehashes ctx = false → Stands setup tree ctx dir))

structure Looked (tree : Tree) (ctx : CleanupCtx) (dir : Path) (d : Disk) : Prop where
  measured : ∀ path n, d.measured = some (path, n) →
    path ∈ archiveNames ctx dir ∧ Measured setup tree ctx dir path n
  hashed : ∀ path bytes, d.hashed = some (path, bytes) →
    (∃ n, d.measured = some (path, n)) ∧ ∃ mtimeMs, tree path = some (.file bytes mtimeMs)
  gone : ∀ path, d.absent = some path → d.present = some false ∧
    (path = joinRel dir ctx.relpath → Stands setup tree ctx dir)

/-- An action that says it has archived its file tells the truth. -/
def Truthful (tree : Tree) (ctx : CleanupCtx) : Prop :=
  ctx.onSuccess = .archive → ∃ dir, ctx.archiveDir = some dir ∧ Stands setup tree ctx dir

def Keeping (tree after : Tree) (ctx : CleanupCtx) : Prop :=
  ∀ dir, ctx.archiveDir = some dir → ∀ path ∈ archiveNames ctx dir, ∀ node,
    tree path = some node → after path = some node

section Keeping

variable {setup} {tree after : Tree} {ctx : CleanupCtx} {dir : Path}

theorem stands_keeping (keeping : Keeping tree after ctx) (configured : ctx.archiveDir = some dir)
    (stands : Stands setup tree ctx dir) : Stands setup after ctx dir := by
  obtain ⟨path, member, bytes, mtimeMs, file, whole⟩ := stands
  exact ⟨path, member, bytes, mtimeMs, keeping dir configured path member _ file, whole⟩

theorem measured_keeping (keeping : Keeping tree after ctx) (configured : ctx.archiveDir = some dir)
    (path : Path) (n : Nat) (member : path ∈ archiveNames ctx dir)
    (measured : Measured setup tree ctx dir path n) : Measured setup after ctx dir path n := by
  rcases measured with ⟨bytes, mtimeMs, file, length⟩ | ⟨isdir, stands⟩
  · exact Or.inl ⟨bytes, mtimeMs, keeping dir configured path member _ file, length⟩
  · refine Or.inr ⟨keeping dir configured path member _ isdir, fun same plain => ?_⟩
    exact stands_keeping keeping configured (stands same plain)

theorem looked_keeping (keeping : Keeping tree after ctx) (configured : ctx.archiveDir = some dir)
    (d : Disk) (looked : Looked setup tree ctx dir d) : Looked setup after ctx dir d := by
  constructor
  · intro path n told
    obtain ⟨member, measured⟩ := looked.measured path n told
    exact ⟨member, measured_keeping keeping configured path n member measured⟩
  · intro path bytes told
    obtain ⟨⟨n, measured⟩, mtimeMs, file⟩ := looked.hashed path bytes told
    have member := (looked.measured path n measured).1
    exact ⟨⟨n, measured⟩, mtimeMs, keeping dir configured path member _ file⟩
  · intro path free
    obtain ⟨present, stands⟩ := looked.gone path free
    exact ⟨present, fun plain => stands_keeping keeping configured (stands plain)⟩

/-- An action that has not looked at its archive yet knows nothing that could change. -/
theorem looked_of_unlooked (d : Disk) (looked : Looked setup tree ctx dir d)
    (unmeasured : d.measured = none) (present : d.present ≠ some false) :
    Looked setup after ctx dir d := by
  constructor
  · intro path n told
    rw [unmeasured] at told
    cases told
  · intro path bytes told
    obtain ⟨⟨n, measured⟩, _⟩ := looked.hashed path bytes told
    rw [unmeasured] at measured
    cases measured
  · intro path free
    exact absurd (looked.gone path free).1 present

theorem truthful_keeping (keeping : Keeping tree after ctx) (truthful : Truthful setup tree ctx) :
    Truthful setup after ctx := by
  intro archive
  obtain ⟨dir, configured, stands⟩ := truthful archive
  exact ⟨dir, configured, stands_keeping keeping configured stands⟩

end Keeping

/-! ## The calls of an action -/

/-- The two looks of an action that prove too little by themselves: a source that is gone and a
plain name told to be free, and a directory of the right length at an archive name that is not
hashed. The file must stand somewhere then. -/
def Fair (tree : Tree) (ctx : CleanupCtx) (dir : Path) (d : Disk) (answer : FsAnswer) :
    FsOp → Prop
  | .pathExists path =>
      d.present = some false → path = joinRel dir ctx.relpath →
        (callFs tree (.pathExists path) answer).1 = false → Stands setup tree ctx dir
  | .fileLen path =>
      tree path = some .dir → (callFs tree (.fileLen path) answer).1 = .ok ctx.expectedSize →
        rehashes ctx = false → Stands setup tree ctx dir
  | _ => True

section Calls

variable (tree : Tree) (ctx : CleanupCtx) (dir : Path) (d : Disk) (answer : FsAnswer)

theorem looked_path_exists (path : Path) (looked : Looked setup tree ctx dir d)
    (fair : Fair setup tree ctx dir d answer (.pathExists path)) :
    Looked setup tree ctx dir
      (learnDisk ctx.src d (.pathExists path) (callFs tree (.pathExists path) answer).1) := by
  simp only [learnDisk]
  split
  · rename_i first
    refine ⟨looked.measured, looked.hashed, fun p free => ?_⟩
    have present := (looked.gone p free).1
    rw [first.2] at present
    cases present
  · split
    · rename_i absent
      refine ⟨looked.measured, looked.hashed, fun p free => ⟨absent.2, fun plain => ?_⟩⟩
      rw [Option.some.injEq] at free
      subst free
      exact fair absent.2 plain absent.1
    · exact looked

theorem measured_len (path : Path) (n : Nat)
    (told : (callFs tree (.fileLen path) answer).1 = .ok n) :
    tree path = some .dir ∨ ∃ bytes mtimeMs, tree path = some (.file bytes mtimeMs) ∧
      bytes.length = n := by
  cases answer with
  | fails e => cases told
  | cut kept e => cases told
  | asIs m =>
      change lenOf tree path m = .ok n at told
      cases found : tree path with
      | none =>
          simp only [lenOf, isDir, fileBytes, found] at told
          cases told
      | some node =>
          cases node with
          | dir => exact Or.inl rfl
          | file bytes mtimeMs =>
              simp only [lenOf, isDir, fileBytes, found] at told
              exact Or.inr ⟨bytes, mtimeMs, rfl, Except.ok.inj told⟩

theorem read_bytes (path : Path) (bytes : Bytes)
    (told : (callFs tree (.readFile path) answer).1 = .ok bytes) :
    ∃ mtimeMs, tree path = some (.file bytes mtimeMs) := by
  cases answer with
  | fails e => cases told
  | cut kept e => cases told
  | asIs m =>
      simp only [callFs, callAsIs, fileBytes] at told
      split at told
      · rename_i found mtimeMs file
        cases told
        exact ⟨mtimeMs, file⟩
      · cases told
      · cases told

theorem looked_file_len (path : Path) (looked : Looked setup tree ctx dir d)
    (configured : ctx.archiveDir = some dir) (may : mayAct ctx d (.fileLen path))
    (fair : Fair setup tree ctx dir d answer (.fileLen path)) :
    Looked setup tree ctx dir
      (learnDisk ctx.src d (.fileLen path) (callFs tree (.fileLen path) answer).1) := by
  obtain ⟨unmeasured, other, same, member⟩ := may
  rw [configured, Option.some.injEq] at same
  subst same
  cases told : (callFs tree (.fileLen path) answer).1 with
  | error e => exact looked
  | ok n =>
      refine ⟨fun p m measured => ?_, fun p bytes hashed => ?_, looked.gone⟩
      · simp only [learnDisk, Option.some.injEq, Prod.mk.injEq] at measured
        obtain ⟨rfl, rfl⟩ := measured
        refine ⟨member, ?_⟩
        rcases measured_len tree answer path n told with isdir | file
        · exact Or.inr ⟨isdir, fun right plain => fair isdir (right ▸ told) plain⟩
        · exact Or.inl file
      · obtain ⟨⟨m, measured⟩, _⟩ := looked.hashed p bytes hashed
        rw [unmeasured] at measured
        cases measured

theorem looked_read_file (path : Path) (looked : Looked setup tree ctx dir d)
    (may : mayAct ctx d (.readFile path)) :
    Looked setup tree ctx dir
      (learnDisk ctx.src d (.readFile path) (callFs tree (.readFile path) answer).1) := by
  cases told : (callFs tree (.readFile path) answer).1 with
  | error e => exact looked
  | ok bytes =>
      refine ⟨looked.measured, fun p found hashed => ?_, looked.gone⟩
      simp only [learnDisk, Option.some.injEq, Prod.mk.injEq] at hashed
      obtain ⟨rfl, rfl⟩ := hashed
      exact ⟨may, read_bytes tree answer path bytes told⟩

theorem looked_changing (after : Tree) (looked : Looked setup tree ctx dir d)
    (unmeasured : d.measured = none) (present : d.present ≠ some false) :
    Looked setup after ctx dir d := by
  apply looked_of_unlooked d _ unmeasured present
  · exact tree
  · exact looked

theorem looked_call (operation : FsOp) (looked : Looked setup tree ctx dir d)
    (configured : ctx.archiveDir = some dir) (may : mayAct ctx d operation)
    (fair : Fair setup tree ctx dir d answer operation) :
    Looked setup (callFs tree operation answer).2 ctx dir
      (learnDisk ctx.src d operation (callFs tree operation answer).1) := by
  cases operation with
  | pathExists path =>
      rw [call_looks tree answer (.pathExists path) (Or.inl ⟨path, rfl⟩)]
      exact looked_path_exists setup tree ctx dir d answer path looked fair
  | fileLen path =>
      rw [call_looks tree answer (.fileLen path) (Or.inr (Or.inl ⟨path, rfl⟩))]
      exact looked_file_len setup tree ctx dir d answer path looked configured may fair
  | readFile path =>
      rw [call_looks tree answer (.readFile path) (Or.inr (Or.inr (Or.inl ⟨path, rfl⟩)))]
      exact looked_read_file setup tree ctx dir d answer path looked may
  | nanos =>
      rw [call_looks tree answer .nanos (Or.inr (Or.inr (Or.inr rfl)))]
      exact looked
  | createDirAll path => exact looked_changing setup tree ctx dir d _ looked may.1 may.2
  | rename source target => exact looked_changing setup tree ctx dir d _ looked may.1 may.2
  | copy source target => exact looked_changing setup tree ctx dir d _ looked may.1 may.2
  | removeFile path => exact looked_changing setup tree ctx dir d _ looked may.1 may.2
  | writeFile path bytes => exact looked_changing setup tree ctx dir d _ looked may.1 may.2

end Calls

theorem truthful_of_proved (hashes : ∀ algo bytes, algorithmOf (setup.digest algo bytes) = some algo)
    (tree : Tree) (ctx : CleanupCtx) (d : Disk) (done : CleanupDone)
    (looked : ∀ dir, ctx.archiveDir = some dir → Looked setup tree ctx dir d)
    (proved : Proved setup ctx d (.ok done)) : Truthful setup tree ctx := by
  intro archive
  cases done with
  | deleted =>
      rw [proved] at archive
      cases archive
  | archived target =>
      cases target with
      | none =>
          obtain ⟨_, _, dir, configured, free⟩ := proved
          exact ⟨dir, configured, ((looked dir configured).gone _ free).2 rfl⟩
      | some path =>
          obtain ⟨⟨measured, hashed⟩, dir, configured, member⟩ := proved
          have seen := looked dir configured
          refine ⟨dir, configured, ?_⟩
          obtain ⟨_, found⟩ := seen.measured path _ measured
          cases hash : rehashes ctx with
          | false =>
              have unhashed : ctx.verify = .checksum → algorithmOf ctx.expectedChecksum = none := by
                intro policy
                simpa [rehashes, policy] using hash
              rcases found with ⟨bytes, mtimeMs, file, length⟩ | ⟨_, stands⟩
              · refine ⟨path, member, bytes, mtimeMs, file, length, fun policy algo named => ?_⟩
                rw [unhashed policy] at named
                cases named
              · exact stands rfl hash
          | true =>
              simp only [rehashes, Bool.and_eq_true, decide_eq_true_eq] at hash
              obtain ⟨algo, named⟩ := Option.isSome_iff_exists.mp hash.2
              obtain ⟨bytes, read, passed⟩ := hashed hash.1 algo named
              obtain ⟨_, mtimeMs, file⟩ := seen.hashed path bytes read
              have length : bytes.length = ctx.expectedSize := by
                rcases found with ⟨other, _, again, length⟩ | ⟨isdir, _⟩
                · rw [file] at again
                  cases again
                  exact length
                · rw [file] at isdir
                  cases isdir
              refine ⟨path, member, bytes, mtimeMs, file, length, fun _ other hother => ?_⟩
              rw [named, Option.some.injEq] at hother
              subst hother
              have expected : ctx.expectedChecksum ≠ .none := by
                intro none
                rw [none] at named
                cases named
              have actual : setup.digest algo bytes ≠ .none := by
                intro none
                have is := hashes algo bytes
                rw [none] at is
                cases is
              unfold verifyChecksum at passed
              split at passed
              · rename_i either
                exact absurd either (not_or.mpr ⟨expected, actual⟩)
              · split at passed
                · rename_i same
                  exact same.symm
                · cases passed

/-! ## Runs -/

/-- An attempt has looked at its archive, and has not recorded its outcome. -/
def InForce (world : World) (u : Running) (ctx : CleanupCtx) : Prop :=
  (∃ handle, u.spec = .action handle ctx ∧
    (u.notes.disk.measured ≠ none ∨ u.notes.disk.present = some false)) ∨
  (∃ handle, u.notes.stage = .acting handle ctx ∧ world.outcomes handle ≠ none) ∨
  ∃ done, u.notes.stage = .acted ctx done

def Guards (world : World) (u : Running) (path : Path) : Prop :=
  ∃ ctx dir, InForce world u ctx ∧ ctx.archiveDir = some dir ∧ path ∈ archiveNames ctx dir

/-- A call, or someone outside, that changes no archive name of another attempt in force. -/
def Undisturbing (c : State) (choice : Step) : Prop :=
  (∀ t ∈ c.threads, ∀ answer operation next, choice = .run t.id answer →
    t.prog = .call (.fs operation) next → ∀ path ∈ touched operation, ∀ u ∈ c.threads,
      u.id ≠ t.id → ¬Guards c.state u path) ∧
  ∀ path node, choice = .env (.touch path node) → ∀ u ∈ c.threads, ¬Guards c.state u path

def Probing (c : State) (choice : Step) : Prop :=
  ∀ t ∈ c.threads, ∀ answer operation next, choice = .run t.id (.disk answer) →
    t.prog = .call (.fs operation) next → ∀ handle ctx dir, t.spec = .action handle ctx →
      ctx.archiveDir = some dir → Fair setup c.state.tree ctx dir t.notes.disk answer operation

def Meets (c : State) (choice : Step) : Prop := Probing setup c choice ∧ Undisturbing c choice

/-- The thread runs this attempt, or waits to record it. -/
def Attempts (t : Running) (ctx : CleanupCtx) : Prop :=
  (∃ handle, t.notes.stage = .acting handle ctx) ∨ ∃ done, t.notes.stage = .acted ctx done

structure Own (world : World) (t : Running) : Prop where
  looked : ∀ handle ctx, t.spec = .action handle ctx → ∀ dir, ctx.archiveDir = some dir →
    Looked setup world.tree ctx dir t.notes.disk
  used : ∀ handle ctx, t.notes.stage = .acting handle ctx → handle < world.handles
  ended : ∀ handle ctx, t.notes.stage = .acting handle ctx → ∀ done,
    world.outcomes handle = some (.ok done) → Truthful setup world.tree ctx
  acted : ∀ ctx done, t.notes.stage = .acted ctx done → Truthful setup world.tree ctx
  formed : ∀ ctx, Attempts t ctx → ∃ item checksum, ctx = cleanupCtx setup item checksum

structure Truth (c : State) : Prop where
  own : ∀ t ∈ c.threads, Own setup c.state t
  paired : ∀ t ∈ c.threads, ∀ handle ctx, t.notes.stage = .acting handle ctx →
    ∀ u ∈ c.threads, ∀ other, u.spec = .action handle other → other = ctx

/-! A thread that a step leaves alone. -/

/-- What another thread's step leaves a thread with: its archive names, and outcomes that were there
or tell the truth. -/
structure Leaves (world after : World) (t : Running) : Prop where
  keeping : ∀ ctx, InForce world t ctx → Keeping world.tree after.tree ctx
  handles : world.handles ≤ after.handles
  outcomes : ∀ handle done, after.outcomes handle = some (.ok done) →
    world.outcomes handle = some (.ok done) ∨
      ∀ ctx, t.notes.stage = .acting handle ctx → Truthful setup after.tree ctx

theorem own_leaves (world after : World) (t : Running) (own : Own setup world t)
    (leaves : Leaves setup world after t) : Own setup after t := by
  constructor
  · intro handle ctx spec dir configured
    have looked := own.looked handle ctx spec dir configured
    by_cases force : t.notes.disk.measured ≠ none ∨ t.notes.disk.present = some false
    · exact looked_keeping (leaves.keeping ctx (Or.inl ⟨handle, spec, force⟩)) configured _ looked
    · rw [not_or, not_not] at force
      exact looked_of_unlooked _ looked force.1 force.2
  · intro handle ctx stage
    exact Nat.lt_of_lt_of_le (own.used handle ctx stage) leaves.handles
  · intro handle ctx stage done outcome
    rcases leaves.outcomes handle done outcome with earlier | truthful
    · apply truthful_keeping _ (own.ended handle ctx stage done earlier)
      apply leaves.keeping
      refine Or.inr (Or.inl ⟨handle, stage, ?_⟩)
      rw [earlier]
      exact Option.some_ne_none _
    · exact truthful ctx stage
  · intro ctx done stage
    apply truthful_keeping _ (own.acted ctx done stage)
    exact leaves.keeping ctx (Or.inr (Or.inr ⟨done, stage⟩))
  · exact own.formed

theorem own_same (world : World) (t u : Running) (own : Own setup world t) (spec : u.spec = t.spec)
    (notes : u.notes = t.notes) : Own setup world u := by
  constructor
  · rw [spec, notes]
    exact own.looked
  · rw [notes]
    exact own.used
  · rw [notes]
    exact own.ended
  · rw [notes]
    exact own.acted
  · intro ctx attempts
    rw [Attempts, notes] at attempts
    exact own.formed ctx attempts

theorem looked_blank (tree : Tree) (ctx : CleanupCtx) (dir : Path) :
    Looked setup tree ctx dir noDisk := by
  constructor
  · intro path n told
    cases told
  · intro path bytes told
    cases told
  · intro path told
    cases told

theorem own_start (world : World) (t : Running) (notes : t.notes = start t.spec) :
    Own setup world t := by
  have idle : t.notes.stage = .idle := by
    rw [notes]
    cases t.spec <;> rfl
  constructor
  · intro handle ctx spec dir _
    have disk : t.notes.disk = noDisk := by
      rw [notes, spec]
      rfl
    rw [disk]
    exact looked_blank setup world.tree ctx dir
  · intro handle ctx same
    rw [idle] at same
    cases same
  · intro handle ctx same
    rw [idle] at same
    cases same
  · intro ctx done same
    rw [idle] at same
    cases same
  · rintro ctx (⟨handle, same⟩ | ⟨done, same⟩)
    · rw [idle] at same
      cases same
    · rw [idle] at same
      cases same

section Settle

variable (c : State) (t : Running) (operation : Op) (ret : Ret operation)
variable (effect : Effect World Spec) (next : Ret operation → Program Unit)

theorem spawned_action (live : List Spec) (world : World)
    (did : Did setup t live world operation ret effect) (handle : Nat) (ctx : CleanupCtx)
    (spawned : .action handle ctx ∈ effect.spawned) : handle = world.handles := by
  cases did with
  | startedAction started =>
      cases List.mem_singleton.mp spawned
      rfl
  | startedQuarantine job => cases List.mem_singleton.mp spawned
  | spawnedAttempts contexts =>
      obtain ⟨_, _, same⟩ := List.mem_map.mp spawned
      cases same
  | spawnedBatch items now =>
      obtain ⟨_, _, same⟩ := List.mem_map.mp spawned
      cases same
  | _ => cases spawned

/-- A thread and the action it waits for run the same attempt, after every call. -/
theorem paired_settle (pool : Pool c) (truth : Truth setup c) (ht : t ∈ c.threads)
    (did : Did setup t (Machine.live c) c.state operation ret effect)
    (may : allowed setup t.notes operation) :
    ∀ u ∈ ((engine setup).settle c ((engine setup).resumed t operation ret next) effect).threads,
      ∀ handle ctx, u.notes.stage = .acting handle ctx →
      ∀ v ∈ ((engine setup).settle c ((engine setup).resumed t operation ret next) effect).threads,
        ∀ other, v.spec = .action handle other → other = ctx := by
  intro u hu handle ctx stage v hv other spec
  -- an action that was there before has a handle that was used before
  have older : (∃ d ∈ c.threads, d.spec = .action handle other) ∨
      Spec.action handle other ∈ effect.spawned := by
    rcases pool_member setup c t v operation ret next effect hv with ⟨same, _⟩ |
      ⟨d, hd, _, same, _⟩ | ⟨new, _⟩
    · exact Or.inl ⟨t, ht, same ▸ spec⟩
    · exact Or.inl ⟨d, hd, same ▸ spec⟩
    · exact Or.inr (spec ▸ new)
  have waited : ∀ b ∈ c.threads, b.notes.stage = .acting handle ctx → other = ctx := by
    intro b hb acting
    rcases older with ⟨d, hd, same⟩ | new
    · exact truth.paired b hb handle ctx acting d hd other same
    · have used := (truth.own b hb).used handle ctx acting
      rw [spawned_action setup t operation ret effect _ _ did handle other new] at used
      exact absurd used (Nat.lt_irrefl _)
  rcases mem_settle (engine setup) c _ u effect hu with ⟨same, _⟩ | ⟨before, hbefore, _, same, _⟩ |
    ⟨new, hnew, same⟩
  · have learned : (learn setup t.notes operation ret).stage = .acting handle ctx := by
      rw [← stage, same.notes]
      rfl
    have staged := learn_stage setup t.notes operation ret may
    rw [learned] at staged
    generalize hstage : Stage.acting handle ctx = next at staged
    cases staged with
    | same operation ret plain => exact waited t ht hstage.symm
    | acting started fresh marked =>
        cases hstage
        cases did with
        | startedAction =>
            rcases older with ⟨d, hd, same⟩ | new
            · have below := pool.below d hd c.state.handles (by rw [same]; rfl)
              exact absurd below (Nat.lt_irrefl _)
            · cases List.mem_singleton.mp new
              rfl
    | idle operation ret plain => cases hstage
    | marked relpath now ret _ => cases hstage
    | acted started fresh done _ => cases hstage
    | failed started fresh result _ => cases hstage
    | moving job fresh _ => cases hstage
    | moved job fresh result _ => cases hstage
  · rw [same.notes] at stage
    exact waited before hbefore stage
  · obtain ⟨_, _, _, _, notes, _⟩ := mem_spawn_from (engine setup) _ _ new hnew
    rw [same.notes, notes] at stage
    cases hspec : new.spec <;> rw [hspec] at stage <;> cases stage

/-- After a call the caller has what it has learned, the others what was left to them. -/
theorem truth_settle_of (truth : Truth setup c) (pool : Pool c) (ht : t ∈ c.threads)
    (did : Did setup t (Machine.live c) c.state operation ret effect)
    (may : allowed setup t.notes operation)
    (caller : ∀ u : Running, u.spec = t.spec → u.notes = learn setup t.notes operation ret →
      Own setup effect.state u)
    (others : ∀ u ∈ c.threads, u.id ≠ t.id → Leaves setup c.state effect.state u) :
    Truth setup ((engine setup).settle c ((engine setup).resumed t operation ret next) effect) := by
  constructor
  · intro u hu
    rcases mem_settle (engine setup) c _ u effect hu with ⟨same, _⟩ |
      ⟨before, hbefore, other, same, _⟩ | ⟨new, hnew, same⟩
    · exact caller u same.spec same.notes
    · apply own_same setup effect.state before u _ same.spec same.notes
      exact own_leaves setup c.state effect.state before (truth.own before hbefore)
        (others before hbefore other)
    · obtain ⟨_, _, _, _, notes, _⟩ := mem_spawn_from (engine setup) _ _ new hnew
      apply own_start
      rw [same.notes, notes, same.spec]
      rfl
  · exact paired_settle setup c t operation ret effect next pool truth ht did may

end Settle

/-! ## Steps -/

/-- The calls that change neither the file system nor the outcomes. -/
def Aside (world : World) (effect : Effect World Spec) : Prop :=
  effect.state.tree = world.tree ∧ effect.state.outcomes = world.outcomes ∧
    world.handles ≤ effect.state.handles

theorem aside_leaves (world : World) (effect : Effect World Spec) (aside : Aside world effect)
    (u : Running) : Leaves setup world effect.state u := by
  obtain ⟨tree, outcomes, handles⟩ := aside
  constructor
  · intro ctx _ dir _ path _ node there
    rw [tree]
    exact there
  · exact handles
  · intro handle done outcome
    rw [outcomes] at outcome
    exact Or.inl outcome

theorem aside_caller (world : World) (effect : Effect World Spec) (aside : Aside world effect)
    (t u : Running) (own : Own setup world t) (spec : u.spec = t.spec)
    (disk : u.notes.disk = t.notes.disk)
    (stage : u.notes.stage = t.notes.stage ∨
      ((∀ handle ctx, u.notes.stage ≠ .acting handle ctx) ∧
        ∀ ctx done, u.notes.stage ≠ .acted ctx done)) : Own setup effect.state u := by
  have left := own_leaves setup world effect.state t own (aside_leaves setup world effect aside t)
  constructor
  · rw [spec, disk]
    exact left.looked
  · intro handle ctx acting
    rcases stage with same | ⟨none, _⟩
    · exact left.used handle ctx (same ▸ acting)
    · exact absurd acting (none handle ctx)
  · intro handle ctx acting
    rcases stage with same | ⟨none, _⟩
    · exact left.ended handle ctx (same ▸ acting)
    · exact absurd acting (none handle ctx)
  · intro ctx done acted
    rcases stage with same | ⟨_, none⟩
    · exact left.acted ctx done (same ▸ acted)
    · exact absurd acted (none ctx done)
  · rintro ctx (⟨handle, acting⟩ | ⟨done, acted⟩)
    · rcases stage with same | ⟨none, _⟩
      · exact left.formed ctx (Or.inl ⟨handle, same ▸ acting⟩)
      · exact absurd acting (none handle ctx)
    · rcases stage with same | ⟨_, none⟩
      · exact left.formed ctx (Or.inr ⟨done, same ▸ acted⟩)
      · exact absurd acted (none ctx done)

section Steps

variable (c : State) (base : Base setup c) (pool : Pool c) (truth : Truth setup c) (t : Running)

include base in
theorem idle_of_action (ht : t ∈ c.threads) (role : hasRows t.notes.role = false) :
    (∀ handle ctx, t.notes.stage ≠ .acting handle ctx) ∧
      ∀ ctx done, t.notes.stage ≠ .acted ctx done := by
  have idle := (base.rowless t ht role).stage
  constructor
  · intro handle ctx same
    rw [idle] at same
    cases same
  · intro ctx done same
    rw [idle] at same
    cases same

include base pool truth

theorem truth_disk (operation : FsOp) (answer : FsAnswer)
    (next : Ret (.fs operation) → Program Unit) (choice : Step)
    (calls : Calls (engine setup) c t (.fs operation) (callFs c.state.tree operation answer).1
      (changes { c.state with tree := (callFs c.state.tree operation answer).2 }) next choice)
    (chosen : choice = .run t.id (.disk answer)) (meets : Meets setup c choice) :
    Truth setup ((engine setup).settle c ((engine setup).resumed t (.fs operation)
      (callFs c.state.tree operation answer).1 next)
      (changes { c.state with tree := (callFs c.state.tree operation answer).2 })) := by
  have ht := calls.member
  have may := calls_allowed (engine setup) c t _ _ _ next choice calls base.orderly
  have did := calls_did setup c t _ _ _ next choice calls
  have rowless : hasRows t.notes.role = false := by
    rcases may with ⟨ctx, role, _⟩ | ⟨job, role, _⟩
    · rw [role]
      rfl
    · rw [role]
      rfl
  have idle := idle_of_action setup c base t ht rowless
  apply truth_settle_of setup c t _ _ _ next truth pool ht did may
  · intro u spec notes
    have stage : u.notes.stage = t.notes.stage := by
      rw [notes]
      rfl
    constructor
    · intro handle ctx hspec dir configured
      rw [notes]
      have tspec : t.spec = .action handle ctx := spec ▸ hspec
      have role : t.notes.role = .action ctx := by
        rw [base.roles t ht, tspec]
        rfl
      have looked := (truth.own t ht).looked handle ctx tspec dir configured
      have fair := meets.1 t ht answer operation next chosen calls.prog handle ctx dir tspec configured
      have mine : mayAct ctx t.notes.disk operation := by
        rcases may with ⟨other, same, mine⟩ | ⟨job, same, _⟩
        · rw [role] at same
          cases same
          exact mine
        · rw [role] at same
          cases same
      show Looked setup _ ctx dir (learnDisk t.notes.role.src t.notes.disk operation _)
      rw [role]
      exact looked_call setup c.state.tree ctx dir t.notes.disk answer operation looked configured
        mine fair
    · intro handle ctx acting
      exact absurd (stage ▸ acting) (idle.1 handle ctx)
    · intro handle ctx acting
      exact absurd (stage ▸ acting) (idle.1 handle ctx)
    · intro ctx done acted
      exact absurd (stage ▸ acted) (idle.2 ctx done)
    · rintro ctx (⟨handle, acting⟩ | ⟨done, acted⟩)
      · exact absurd (stage ▸ acting) (idle.1 handle ctx)
      · exact absurd (stage ▸ acted) (idle.2 ctx done)
  · intro u hu other
    constructor
    · intro ctx force dir configured path member node there
      apply call_fs_frame c.state.tree operation answer path node _ there
      intro touches
      exact meets.2.1 t ht _ operation next chosen calls.prog path touches u hu other
        ⟨ctx, dir, force, configured, member⟩
    · exact Nat.le_refl _
    · intro handle done outcome
      exact Or.inl outcome

theorem truth_ended_action
    (hashes : ∀ algo bytes, algorithmOf (setup.digest algo bytes) = some algo)
    (handle : Nat) (ctx : CleanupCtx) (spec : t.spec = .action handle ctx)
    (result : Except ReplError CleanupDone) (next : Ret (.endAction result) → Program Unit)
    (choice : Step)
    (calls : Calls (engine setup) c t (.endAction result) () (changes { c.state with
      outcomes := fun h => if h = handle then some result else c.state.outcomes h }) next choice) :
    Truth setup ((engine setup).settle c ((engine setup).resumed t (.endAction result) () next)
      (changes { c.state with
        outcomes := fun h => if h = handle then some result else c.state.outcomes h })) := by
  have ht := calls.member
  have may := calls_allowed (engine setup) c t _ _ _ next choice calls base.orderly
  have did := calls_did setup c t _ _ _ next choice calls
  have role : t.notes.role = .action ctx := by
    rw [base.roles t ht, spec]
    rfl
  have idle := idle_of_action setup c base t ht (by rw [role]; rfl)
  have looked := (truth.own t ht).looked handle ctx spec
  have truthful : ∀ done, result = .ok done → Truthful setup c.state.tree ctx := by
    rintro done rfl
    obtain ⟨other, same, proved⟩ := may
    rw [role] at same
    cases same
    exact truthful_of_proved setup hashes c.state.tree ctx t.notes.disk done looked proved
  apply truth_settle_of setup c t _ _ _ next truth pool ht did may
  · intro u same notes
    constructor
    · rw [same, notes]
      exact (truth.own t ht).looked
    · rw [notes]
      exact fun handle ctx acting => absurd acting (idle.1 handle ctx)
    · rw [notes]
      exact fun handle ctx acting => absurd acting (idle.1 handle ctx)
    · rw [notes]
      exact fun ctx done acted => absurd acted (idle.2 ctx done)
    · intro other attempts
      rw [Attempts, notes] at attempts
      rcases attempts with ⟨h, acting⟩ | ⟨done, acted⟩
      · exact absurd acting (idle.1 h other)
      · exact absurd acted (idle.2 other done)
  · intro u hu _
    constructor
    · intro _ _ _ _ _ _ _ there
      exact there
    · exact Nat.le_refl _
    · intro h done outcome
      simp only [changes] at outcome
      split at outcome
      · rename_i same
        subst same
        refine Or.inr fun waiting acting => ?_
        rw [← truth.paired u hu h waiting acting t ht ctx spec]
        exact truthful done (Option.some.inj outcome)
      · exact Or.inl outcome

theorem truth_started_action (ctx : CleanupCtx) (next : Ret (.startAction ctx) → Program Unit)
    (choice : Step)
    (calls : Calls (engine setup) c t (.startAction ctx) c.state.handles
      (spawns { c.state with handles := c.state.handles + 1 } [.action c.state.handles ctx]) next
      choice) :
    Truth setup ((engine setup).settle c
      ((engine setup).resumed t (.startAction ctx) c.state.handles next)
      (spawns { c.state with handles := c.state.handles + 1 } [.action c.state.handles ctx])) := by
  have ht := calls.member
  have may := calls_allowed (engine setup) c t _ _ _ next choice calls base.orderly
  have did := calls_did setup c t _ _ _ next choice calls
  have aside : Aside c.state (spawns { c.state with handles := c.state.handles + 1 }
      [.action c.state.handles ctx]) := ⟨rfl, rfl, Nat.le_succ _⟩
  apply truth_settle_of setup c t _ _ _ next truth pool ht did may
  · intro u spec notes
    have stage : u.notes.stage = .acting c.state.handles ctx := by
      rw [notes]
      rfl
    constructor
    · rw [spec, notes]
      exact (truth.own t ht).looked
    · intro handle other acting
      rw [stage] at acting
      cases acting
      exact Nat.lt_succ_self _
    · intro handle other acting done outcome
      rw [stage] at acting
      cases acting
      refine absurd (pool.used c.state.handles ?_) (Nat.lt_irrefl _)
      rw [show c.state.outcomes c.state.handles = some (.ok done) from outcome]
      exact Option.some_ne_none _
    · intro other done acted
      rw [stage] at acted
      cases acted
    · rintro other (⟨handle, acting⟩ | ⟨done, acted⟩)
      · rw [stage] at acting
        cases acting
        exact may.2.2.2
      · rw [stage] at acted
        cases acted
  · intro u _ _
    exact aside_leaves setup c.state _ aside u

theorem truth_awaited (handle : Nat) (result : Except String (Except ReplError CleanupDone))
    (effect : Effect World Spec) (next : Ret (.awaitAction handle) → Program Unit) (choice : Step)
    (calls : Calls (engine setup) c t (.awaitAction handle) result effect next choice)
    (told : ∀ done, result = .ok (.ok done) → c.state.outcomes handle = some (.ok done))
    (aside : Aside c.state effect) :
    Truth setup ((engine setup).settle c
      ((engine setup).resumed t (.awaitAction handle) result next) effect) := by
  have ht := calls.member
  have may := calls_allowed (engine setup) c t _ _ _ next choice calls base.orderly
  have did := calls_did setup c t _ _ _ next choice calls
  have left := own_leaves setup c.state effect.state t (truth.own t ht)
    (aside_leaves setup c.state effect aside t)
  have disk : (learn setup t.notes (.awaitAction handle) result).disk = t.notes.disk := by
    apply (learn_disk setup _ _ _ _).1
    intro _ same
    cases same
  apply truth_settle_of setup c t _ _ _ next truth pool ht did may
  · intro u spec notes
    have staged := learn_stage setup t.notes (.awaitAction handle) result may
    have stage : u.notes.stage = (learn setup t.notes (.awaitAction handle) result).stage := by
      rw [notes]
    generalize (learn setup t.notes (.awaitAction handle) result).stage = last at staged stage
    cases staged with
    | same _ _ plain => cases plain
    | idle _ _ plain => cases plain
    | failed ctx _ _ acting =>
        apply aside_caller setup c.state effect aside t u (truth.own t ht) spec (notes ▸ disk)
        rw [stage]
        refine Or.inr ⟨?_, ?_⟩
        · intro _ _ same
          cases same
        · intro _ _ same
          cases same
    | acted ctx _ done acting =>
        constructor
        · rw [spec, notes, disk]
          exact left.looked
        · intro h other same
          rw [stage] at same
          cases same
        · intro h other same
          rw [stage] at same
          cases same
        · intro other finished same
          rw [stage] at same
          cases same
          apply left.ended handle ctx acting done
          rw [aside.2.1]
          exact told done rfl
        · rintro other (⟨h, same⟩ | ⟨finished, same⟩)
          · rw [stage] at same
            cases same
          · rw [stage] at same
            cases same
            exact left.formed ctx (Or.inl ⟨handle, acting⟩)
  · intro u _ _
    exact aside_leaves setup c.state effect aside u

theorem truth_aside (operation : Op) (ret : Ret operation) (effect : Effect World Spec)
    (next : Ret operation → Program Unit) (choice : Step)
    (calls : Calls (engine setup) c t operation ret effect next choice)
    (nofs : ∀ operation', operation ≠ .fs operation') (nostart : ∀ ctx, operation ≠ .startAction ctx)
    (noawait : ∀ handle, operation ≠ .awaitAction handle) (aside : Aside c.state effect) :
    Truth setup ((engine setup).settle c ((engine setup).resumed t operation ret next) effect) := by
  have ht := calls.member
  have may := calls_allowed (engine setup) c t _ _ _ next choice calls base.orderly
  have did := calls_did setup c t _ _ _ next choice calls
  have disk := (learn_disk setup t.notes operation ret nofs).1
  apply truth_settle_of setup c t _ _ _ next truth pool ht did may
  · intro u spec notes
    apply aside_caller setup c.state effect aside t u (truth.own t ht) spec (notes ▸ disk)
    have staged := learn_stage setup t.notes operation ret may
    have stage : u.notes.stage = (learn setup t.notes operation ret).stage := by rw [notes]
    generalize (learn setup t.notes operation ret).stage = last at staged stage
    cases staged with
    | same _ _ _ => exact Or.inl stage
    | acting ctx _ _ => exact absurd rfl (nostart ctx)
    | acted _ handle _ _ => exact absurd rfl (noawait handle)
    | failed _ handle _ _ => exact absurd rfl (noawait handle)
    | _ =>
        rw [stage]
        refine Or.inr ⟨?_, ?_⟩
        · intro _ _ same
          cases same
        · intro _ _ same
          cases same
  · intro u _ _
    exact aside_leaves setup c.state effect aside u

end Steps

theorem did_aside (t : Running) (live : List Spec) (world : World) (operation : Op)
    (ret : Ret operation) (effect : Effect World Spec) (nofs : ∀ operation', operation ≠ .fs operation')
    (noend : ∀ result, operation ≠ .endAction result)
    (did : Did setup t live world operation ret effect) : Aside world effect := by
  cases did with
  | disk operation answer => exact absurd rfl (nofs operation)
  | endedAction handle ctx spec result => exact absurd rfl (noend result)
  | undelivered item label resume left error after stored =>
      rcases stored with rfl | ⟨bytes, _, rfl⟩
      · exact ⟨rfl, rfl, Nat.le_refl _⟩
      · exact ⟨rfl, rfl, Nat.le_refl _⟩
  | startedAction ctx => exact ⟨rfl, rfl, Nat.le_succ _⟩
  | startedQuarantine job => exact ⟨rfl, rfl, Nat.le_succ _⟩
  | _ => exact ⟨rfl, rfl, Nat.le_refl _⟩

theorem truth_settle
    (hashes : ∀ algo bytes, algorithmOf (setup.digest algo bytes) = some algo) (c : State)
    (base : Base setup c) (pool : Pool c) (truth : Truth setup c) (t : Running) (operation : Op)
    (ret : Ret operation) (effect : Effect World Spec) (next : Ret operation → Program Unit)
    (choice : Step) (calls : Calls (engine setup) c t operation ret effect next choice)
    (meets : Meets setup c choice) :
    Truth setup ((engine setup).settle c ((engine setup).resumed t operation ret next) effect) := by
  have did := calls_did setup c t operation ret effect next choice calls
  obtain ⟨answer, chosen, performed⟩ := calls.choice
  cases operation with
  | fs operation =>
      cases answer with
      | disk answer =>
          cases performed
          exact truth_disk setup c base pool truth t operation answer next choice calls chosen meets
      | _ => cases performed
  | endAction result =>
      cases did with
      | endedAction handle ctx spec =>
          exact truth_ended_action setup c base pool truth t hashes handle ctx spec result next choice
            calls
  | startAction ctx =>
      cases did with
      | startedAction => exact truth_started_action setup c base pool truth t ctx next choice calls
  | awaitAction handle =>
      have aside := did_aside setup t _ _ _ ret effect (fun _ same => by cases same)
        (fun _ same => by cases same) did
      apply truth_awaited setup c base pool truth t handle ret effect next choice calls _ aside
      rintro done rfl
      cases did with
      | awaited _ _ ended => exact ended
  | _ =>
      have aside := did_aside setup t _ _ _ ret effect (fun _ same => by cases same)
        (fun _ same => by cases same) did
      exact truth_aside setup c base pool truth t _ ret effect next choice calls
        (fun _ same => by cases same) (fun _ same => by cases same) (fun _ same => by cases same) aside

theorem truth_without (c : State) (truth : Truth setup c) (id : Nat) :
    Truth setup ((engine setup).without c id) := by
  have member := fun u hu => mem_without (engine setup) c id u hu
  constructor
  · intro u hu
    obtain ⟨before, hbefore, _, same⟩ := member u hu
    exact own_same setup c.state before u (truth.own before hbefore) same.spec same.notes
  · intro u hu handle ctx stage v hv other spec
    obtain ⟨b, hb, _, same⟩ := member u hu
    obtain ⟨d, hd, _, too⟩ := member v hv
    exact truth.paired b hb handle ctx (same.notes ▸ stage) d hd other (too.spec ▸ spec)

/-- What comes from outside leaves every thread that goes on with what it has seen. -/
theorem react_leaves (c : State) (event : Event) (reaction : Reaction World Spec)
    (reacted : react c.state (Machine.live c) event = some reaction)
    (undisturbing : Undisturbing c (.env event)) (goes : reaction.stops = false) :
    ∀ u ∈ c.threads, Leaves setup c.state reaction.state u := by
  have unchanged : ∀ world : World, world.tree = c.state.tree → world.handles = c.state.handles →
      world.outcomes = c.state.outcomes → ∀ u ∈ c.threads, Leaves setup c.state world u := by
    intro world tree handles outcomes u _
    constructor
    · intro ctx _ dir _ path _ node there
      rw [tree]
      exact there
    · exact Nat.le_of_eq handles.symm
    · intro handle done outcome
      rw [outcomes] at outcome
      exact Or.inl outcome
  cases event with
  | touch path node =>
      cases reacted
      intro u hu
      constructor
      · intro ctx force dir configured p member there found
        show put c.state.tree path node p = some there
        rw [put_other]
        · exact found
        · rintro rfl
          exact undisturbing.2 p node rfl u hu ⟨ctx, dir, force, configured, member⟩
      · exact Nat.le_refl _
      · intro handle done outcome
        exact Or.inl outcome
  | alter relpath label object =>
      cases reacted
      exact unchanged _ rfl rfl rfl
  | setActive active =>
      cases reacted
      exact unchanged _ rfl rfl rfl
  | crash =>
      cases reacted
      cases goes
  | boot now =>
      simp only [react] at reacted
      split at reacted
      · cases reacted
      · cases reacted
        exact unchanged _ rfl rfl rfl
  | periodic now fuel =>
      simp only [react] at reacted
      split at reacted
      · cases reacted
        exact unchanged _ rfl rfl rfl
      · cases reacted
  | trigger now ignoreWindow fuel =>
      simp only [react] at reacted
      split at reacted
      · cases reacted
        exact unchanged _ rfl rfl rfl
      · cases reacted

theorem truth_absorb (c : State) (truth : Truth setup c) (event : Event)
    (reaction : Reaction World Spec)
    (reacted : react c.state (Machine.live c) event = some reaction)
    (undisturbing : Undisturbing c (.env event)) :
    Truth setup ((engine setup).absorb c reaction) := by
  obtain ⟨_, _, unpooled⟩ := react_pool _ _ event reaction reacted
  have fresh : ∀ u new : Running, new ∈ (engine setup).spawnFrom c.next reaction.spawned →
      SameThread new u → u.notes = start u.spec ∧ pooled u.spec = none := by
    intro u new hnew same
    obtain ⟨hspec, _, _, _, notes, _⟩ := mem_spawn_from (engine setup) _ _ new hnew
    rw [same.notes, notes, same.spec]
    exact ⟨rfl, unpooled new.spec hspec⟩
  constructor
  · intro u hu
    rcases mem_absorb (engine setup) c reaction u hu with ⟨goes, before, hbefore, same⟩ |
      ⟨new, hnew, same⟩
    · apply own_same setup reaction.state before u _ same.spec same.notes
      exact own_leaves setup c.state reaction.state before (truth.own before hbefore)
        (react_leaves setup c event reaction reacted undisturbing goes before hbefore)
    · exact own_start setup reaction.state u (fresh u new hnew same).1
  · intro u hu handle ctx stage v hv other spec
    rcases mem_absorb (engine setup) c reaction v hv with ⟨_, d, hd, too⟩ | ⟨new, hnew, same⟩
    · rcases mem_absorb (engine setup) c reaction u hu with ⟨_, b, hb, same⟩ | ⟨new, hnew, same⟩
      · exact truth.paired b hb handle ctx (same.notes ▸ stage) d hd other (too.spec ▸ spec)
      · rw [(fresh u new hnew same).1] at stage
        cases hspec : u.spec <;> rw [hspec] at stage <;> cases stage
    · have none := (fresh v new hnew same).2
      rw [spec] at none
      cases none

structure Whole (c : State) : Prop where
  base : Base setup c
  pool : Pool c
  truth : Truth setup c

theorem whole_begins (c : State) (begins : Begins c) : Whole setup c := by
  have nobody : ∀ t, t ∉ c.threads := by
    intro t
    rw [begins.threads]
    exact List.not_mem_nil
  refine ⟨base_begins setup c begins, pool_begins c begins, ?_, ?_⟩
  · intro t ht
    exact absurd ht (nobody t)
  · intro t ht
    exact absurd ht (nobody t)

theorem whole_step (hashes : ∀ algo bytes, algorithmOf (setup.digest algo bytes) = some algo)
    (c after : State) (choice : Step) (whole : Whole setup c) (meets : Meets setup c choice)
    (stepped : (engine setup).step c choice = some after) : Whole setup after := by
  refine ⟨base_step setup c after choice whole.base stepped,
    pool_step setup c after choice whole.pool stepped, ?_⟩
  rcases step_cases (engine setup) c after choice stepped with
    ⟨t, operation, ret, effect, next, calls, rfl⟩ | ⟨id, _, _, rfl⟩ |
    ⟨event, reaction, rfl, reacted, rfl⟩
  · exact truth_settle setup hashes c whole.base whole.pool whole.truth t operation ret effect next
      choice calls meets
  · exact truth_without setup c whole.truth id
  · exact truth_absorb setup c whole.truth event reaction reacted meets.2

theorem whole_reached (hashes : ∀ algo bytes, algorithmOf (setup.digest algo bytes) = some algo)
    (c : State) (reached : Reached (engine setup) Begins (Meets setup) c) : Whole setup c :=
  invariant_of_reached (engine setup) Begins (Meets setup) (Whole setup) (whole_begins setup)
    (fun c after choice whole meets stepped =>
      whole_step setup hashes c after choice whole meets stepped) c reached

/-- When an item is about to be persisted as completed, the file of the attempt that says so is in
the archive. -/
theorem completed_is_archived (archive : setup.completion.onSuccess = .archive)
    (hashes : ∀ algo bytes, algorithmOf (setup.digest algo bytes) = some algo)
    (c : State) (reached : Reached (engine setup) Begins (Meets setup) c) (t : Running)
    (ht : t ∈ c.threads) (operation : StoreOp) (next : Ret (.store operation) → Program Unit)
    (prog : t.prog = .call (.store operation) next) (relpath : String)
    (completes : persists .completed operation = some relpath) :
    ∃ item checksum done dir, t.notes.stage = .acted (cleanupCtx setup item checksum) done ∧
      item.relpath = relpath ∧ setup.completion.archiveDir = some dir ∧
      ∃ path, (path = joinRel dir relpath ∨ ∃ i ∈ suffixes, path = suffixed (joinRel dir relpath) i) ∧
        ∃ bytes mtimeMs, c.state.tree path = some (.file bytes mtimeMs) ∧ bytes.length = item.size ∧
          (setup.completion.verify = .checksum → ∀ algo, algorithmOf checksum = some algo →
            setup.digest algo bytes = checksum) := by
  have whole := whole_reached setup hashes c reached
  have keeps := whole.base.orderly t ht
  rw [prog] at keeps
  obtain ⟨ctx, done, stage, own⟩ := acted_of_completed setup t.notes operation relpath completes keeps.1
  obtain ⟨item, checksum, rfl⟩ := (whole.truth.own t ht).formed ctx (Or.inr ⟨done, stage⟩)
  obtain ⟨dir, configured, path, member, bytes, mtimeMs, file, length, hashed⟩ :=
    (whole.truth.own t ht).acted _ done stage archive
  refine ⟨item, checksum, done, dir, stage, own, configured, path, ?_, bytes, mtimeMs, file, length,
    hashed⟩
  subst own
  rcases List.mem_cons.mp member with plain | suffix
  · exact Or.inl plain
  · obtain ⟨i, hi, same⟩ := List.mem_map.mp suffix
    exact Or.inr ⟨i, hi, same.symm⟩

/-! ## One file -/

/-- The thread is in no attempt that is in force. -/
def unforced (world : World) (u : Running) : Bool :=
  (match u.spec with
    | .action _ _ => u.notes.disk.measured = none && u.notes.disk.present ≠ some false
    | _ => true) &&
  match u.notes.stage with
  | .acting handle _ => (world.outcomes handle).isNone
  | .acted _ _ => false
  | _ => true

def fairAt (tree : Tree) (_ : CleanupCtx) (d : Disk) (answer : FsAnswer) : FsOp → Bool
  | .pathExists path => d.present ≠ some false || (callFs tree (.pathExists path) answer).1
  | .fileLen path => tree path ≠ some .dir
  | _ => true

/-- `Meets`, where nothing else is in force and every look proves enough. -/
def meetsAt (c : State) : Step → Bool
  | .run id answer => c.threads.all fun t => t.id ≠ id ||
      match t.prog with
      | .call (.fs operation) _ =>
          (c.threads.all fun u => u.id = t.id || unforced c.state u) &&
          match t.spec, answer with
          | .action _ ctx, .disk told => fairAt c.state.tree ctx t.notes.disk told operation
          | _, _ => true
      | _ => true
  | .env (.touch _ _) => c.threads.all (unforced c.state)
  | _ => true

theorem no_guard (world : World) (u : Running) (unheld : unforced world u = true) (path : Path) :
    ¬Guards world u path := by
  rintro ⟨ctx, dir, force, _⟩
  rw [unforced, Bool.and_eq_true] at unheld
  rcases force with ⟨handle, spec, looked⟩ | ⟨handle, stage, ended⟩ | ⟨done, stage⟩
  · rw [spec] at unheld
    simp only [Bool.and_eq_true, decide_eq_true_eq] at unheld
    rcases looked with measured | absent
    · exact measured unheld.1.1
    · exact unheld.1.2 absent
  · rw [stage] at unheld
    exact ended (Option.isNone_iff_eq_none.mp unheld.2)
  · rw [stage] at unheld
    exact absurd unheld.2 Bool.false_ne_true

theorem fair_of_check (tree : Tree) (ctx : CleanupCtx) (dir : Path) (d : Disk) (answer : FsAnswer)
    (operation : FsOp) (checked : fairAt tree ctx d answer operation = true) :
    Fair setup tree ctx dir d answer operation := by
  cases operation with
  | pathExists path =>
      intro absent _ told
      rw [fairAt, told, Bool.or_false] at checked
      exact absurd absent (of_decide_eq_true checked)
  | fileLen path =>
      intro isdir
      exact absurd isdir (of_decide_eq_true checked)
  | _ => trivial

theorem meets_of_check (c : State) (choice : Step) (checked : meetsAt c choice = true) :
    Meets setup c choice := by
  refine ⟨?_, ?_, ?_⟩
  · rintro t ht answer operation next rfl prog handle ctx dir spec _
    have here := List.all_eq_true.mp checked t ht
    simp only [ne_eq, not_true_eq_false, decide_false, Bool.false_or, prog, spec,
      Bool.and_eq_true] at here
    exact fair_of_check setup c.state.tree ctx dir t.notes.disk answer operation here.2
  · rintro t ht answer operation next rfl prog path _ u hu other
    have here := List.all_eq_true.mp checked t ht
    simp only [ne_eq, not_true_eq_false, decide_false, Bool.false_or, prog, Bool.and_eq_true] at here
    have free := List.all_eq_true.mp here.1 u hu
    rw [Bool.or_eq_true] at free
    rcases free with same | free
    · exact absurd (of_decide_eq_true same) other
    · exact no_guard c.state u free path
  · rintro path node rfl u hu
    exact no_guard c.state u (List.all_eq_true.mp checked u hu) path

def archiving : Completion where
  onSuccess := .archive
  archiveDir := some ["arch"]
  onExhausted := .retainInPlace
  failedDir := none
  onCollision := .suffix
  verify := .checksum

/-- A trigger claims the file, and its attempt delivers it; the cleanup starts its action. -/
def untilActing : List Step :=
  [.env (.boot 0), .env (.trigger 0 true 1)] ++
    go 1 [.asIs, .asIs, .found [⟨"a", 0, 0⟩], .asIs, .asIs, .asIs, .asIs, .asIs, .asIs] ++
    go 2 [.asIs, .asIs] ++ go 3 [.asIs, .asIs, .asIs, .asIs, .asIs, .asIs] ++
    go 2 [.number 0, .asIs, .asIs, .asIs, .asIs]

/-- The next call persists the item as completed. -/
def completes (relpath : String) : Program Unit → Bool
  | .call (.store operation) _ => persists .completed operation = some relpath
  | _ => false

theorem completes_call (relpath : String) (prog : Program Unit)
    (completing : completes relpath prog = true) :
    ∃ operation next, prog = .call (.store operation) next ∧
      persists .completed operation = some relpath := by
  unfold completes at completing
  split at completing
  · exact ⟨_, _, rfl, of_decide_eq_true completing⟩
  · cases completing

def sums : Algorithm → Bytes → Checksum
  | .crc32c, bytes => .crc32c (bytes.foldl (fun sum b => sum + b.toUInt32) 0)
  | .sha256, bytes => .sha256 (Vector.replicate 32 (bytes.foldl (· + ·) 0))

def summing : Setup :=
  { smallSetup archiving with
    digest := sums
    deliveredAs := fun _ bytes => ⟨bytes.length, sums .crc32c bytes, []⟩ }

/-- Two files, and another one in the archive under the name of the first. -/
def takenName : List (Path × Node) :=
  [(["in"], .dir), (["in", "a"], .file [1, 2, 3] 5), (["in", "b"], .file [4] 6), (["arch"], .dir),
    (["arch", "a"], .file [9] 0)]

/-- The first file is delivered, and the action moves it beside the other and hashes it. -/
def untilArchived : List Step :=
  [.env (.boot 0), .env (.trigger 0 true 1)] ++
    go 1 [.asIs, .asIs, .found [⟨"a", 3, 5⟩, ⟨"b", 1, 6⟩], .asIs, .asIs, .asIs, .asIs, .asIs, .asIs,
      .asIs] ++
    go 2 [.asIs, .asIs] ++ go 3 (List.replicate 6 .asIs) ++
    go 2 [.number 0, .asIs, .asIs, .asIs, .asIs] ++ go 4 (List.replicate 7 (.disk (.asIs 0))) ++
    go 4 [.asIs] ++ go 2 [.asIs]

theorem completed_is_archived_beside :
    ∃ c, Reached (engine summing) Begins (Meets summing) c ∧
      c.state.tree ["arch", "a"] = some (.file [9] 0) ∧
      ∃ t ∈ c.threads, completes "a" t.prog = true ∧
        ∃ item checksum done dir, t.notes.stage = .acted (cleanupCtx summing item checksum) done ∧
          item.relpath = "a" ∧ archiving.archiveDir = some dir ∧
          ∃ path, (path = joinRel dir "a" ∨ ∃ i ∈ suffixes, path = suffixed (joinRel dir "a") i) ∧
            ∃ bytes mtimeMs, c.state.tree path = some (.file bytes mtimeMs) ∧
              bytes.length = item.size ∧
              (archiving.verify = .checksum → ∀ algo, algorithmOf checksum = some algo →
                sums algo bytes = checksum) := by
  obtain ⟨c, reached, found⟩ := exists_of_run (engine summing) Begins (Meets summing) meetsAt
    (meets_of_check summing)
    (fun c => (c.threads.any fun t => completes "a" t.prog) &&
      c.state.tree ["arch", "a"] = some (.file [9] 0))
    untilArchived (smallStart takenName) (small_begins takenName) (by decide +kernel)
  rw [Bool.and_eq_true, decide_eq_true_eq] at found
  obtain ⟨t, ht, completing⟩ := List.any_eq_true.mp found.1
  obtain ⟨operation, next, prog, recorded⟩ := completes_call "a" t.prog completing
  have hashes : ∀ algo bytes, algorithmOf (summing.digest algo bytes) = some algo := by
    intro algo bytes
    cases algo <;> rfl
  exact ⟨c, reached, found.2, t, ht, completing,
    completed_is_archived summing rfl hashes c reached t ht operation next prog "a" recorded⟩

section

variable (setup : Setup) (top : String)

def Bare (c : State) : Prop := ∀ path : Path, path.head? = some top → c.state.tree path = none

/-- A thread looks, or its call fails, and nothing is put below `top`. -/
def spares (c : State) : Step → Bool
  | .run id answer => c.threads.all fun t => t.id ≠ id ||
      match t.prog, answer with
      | .call (.fs (.pathExists _)) _, _ => true
      | .call (.fs _) _, .disk (.fails _) => true
      | .call (.fs _) _, _ => false
      | _, _ => true
  | .env (.touch path _) => path.head? ≠ some top
  | _ => true

theorem spared_tree (c : State) (t : Running) (operation : Op) (ret : Ret operation)
    (effect : Effect World Spec) (next : Ret operation → Program Unit) (choice : Step)
    (calls : Calls (engine setup) c t operation ret effect next choice)
    (spared : spares top c choice = true) : effect.state.tree = c.state.tree := by
  by_cases other : ∀ call, operation ≠ .fs call
  · exact did_tree setup t _ _ operation ret effect (calls_did setup c t operation ret effect next
      choice calls) other
  · push Not at other
    obtain ⟨call, rfl⟩ := other
    obtain ⟨answer, rfl, performed⟩ := calls.choice
    have here := List.all_eq_true.mp spared t calls.member
    simp only [ne_eq, not_true_eq_false, decide_false, Bool.false_or, calls.prog] at here
    cases answer with
    | disk told =>
        cases performed
        cases told with
        | fails e => rfl
        | asIs n =>
            cases call with
            | pathExists path => rfl
            | _ => exact absurd here Bool.false_ne_true
        | cut kept e =>
            cases call with
            | pathExists path => rfl
            | _ => exact absurd here Bool.false_ne_true
    | _ => cases performed

theorem bare_step (c after : State) (choice : Step) (bare : Bare top c)
    (spared : spares top c choice = true) (stepped : (engine setup).step c choice = some after) :
    Bare top after := by
  rcases step_cases (engine setup) c after choice stepped with
    ⟨t, operation, ret, effect, next, calls, rfl⟩ | ⟨id, rfl, _, rfl⟩ |
    ⟨event, reaction, rfl, reacted, rfl⟩
  · intro path below
    have kept := spared_tree setup top c t operation ret effect next choice calls spared
    exact (congrFun kept path).trans (bare path below)
  · exact bare
  · intro path below
    rcases react_tree _ _ event reaction reacted with ⟨touched, node, rfl, same⟩ | same
    · have apart : path ≠ touched := by
        rintro rfl
        exact of_decide_eq_true spared below
      exact (congrFun same path).trans ((put_other _ _ _ _ apart).trans (bare path below))
    · exact (congrFun same path).trans (bare path below)

end

theorem bare_one (path : Path) (below : path.head? = some "arch") :
    (smallStart oneFile).state.tree path = none := by
  have apart : path ≠ ["in"] ∧ path ≠ ["in", "a"] := by
    constructor <;> rintro rfl <;> exact absurd below (by decide)
  simp [smallStart, smallWorld, oneFile, put, apart]

/-- The first attempt fails, the file is lost before the next one, and that one completes the
item. -/
def untilLost : List Step :=
  untilActing ++
    go 4 [.disk (.asIs 0), .disk (.fails notFound), .asIs] ++ go 2 [.asIs, .number 0, .asIs] ++
    [.env (.touch ["in", "a"] none), .env (.trigger 1 true 1)] ++ go 1 [.asIs, .asIs] ++
    go 5 [.asIs, .asIs, .found [], .asIs, .asIs, .asIs, .asIs, .asIs, .asIs] ++
    go 6 [.disk (.asIs 0), .disk (.asIs 0), .asIs] ++ go 5 [.asIs]

theorem completed_without_archive :
    ∃ c, Reached (engine (smallSetup archiving)) Begins (fun _ _ => True) c ∧
      ∃ t ∈ c.threads, completes "a" t.prog = true ∧
        ∀ path, (path = joinRel ["arch"] "a" ∨
          ∃ i ∈ suffixes, path = suffixed (joinRel ["arch"] "a") i) →
          isFile c.state.tree path = false := by
  have found : ((engine (smallSetup archiving)).run (spares "arch") (smallStart oneFile)
      untilLost).any (fun c => c.threads.any fun t => completes "a" t.prog) = true := by
    decide +kernel
  obtain ⟨c, ran, there⟩ := (Option.any_eq_true _ _).mp found
  obtain ⟨t, ht, completing⟩ := List.any_eq_true.mp there
  have bare : Bare "arch" c :=
    invariant_of_reached (engine (smallSetup archiving)) (Bare "arch")
      (fun c choice => spares "arch" c choice = true) (Bare "arch") (fun _ bare => bare)
      (fun c after choice bare spared stepped => bare_step _ "arch" c after choice bare spared stepped)
      c (reached_of_run _ _ _ _ (fun _ _ spared => spared) untilLost _ c (.start _ bare_one) ran)
  refine ⟨c, reached_of_run _ _ _ _ (fun _ _ _ => trivial) untilLost _ c
    (.start _ (small_begins oneFile)) ran, t, ht, completing, fun path named => ?_⟩
  have place : joinRel ["arch"] "a" = ["arch", "a"] := by decide
  have below : path.head? = some "arch" := by
    rcases named with rfl | ⟨i, _, rfl⟩
    · rw [place]
      rfl
    · rw [place]
      rfl
  rw [isFile, bare path below]

end FileReplicator.ArchiveTruth
