import Mathlib.Data.List.Infix
import FileReplicator.CrashLogic
import FileReplicator.SourceActions

/-!
# Re-driving the archive move

One item whose destinations all verified its source, archived under the suffix
policy. The action is stopped or disturbed at any of its calls and driven again,
until the faults stop and it is driven once more.
-/

namespace FileReplicator.ArchiveRedrive

open Domain Effects FileTree SourceActions CrashLogic

variable (digest : Algorithm → Bytes → Checksum)

/-- What the destinations verified, and where its source is and belongs. -/
structure Job where
  src : Path
  archiveDir : Path
  relpath : String
  verify : Verify
  content : Bytes
  checksum : Checksum
  /-- A recorded checksum is the one of the content. -/
  hashed : ∀ algo, algorithmOf checksum = some algo → digest algo content = checksum

namespace Job

variable {digest} (job : Job digest)

def ctx : CleanupCtx where
  onSuccess := .archive
  src := job.src
  archiveDir := some job.archiveDir
  relpath := job.relpath
  collision := .suffix
  verify := job.verify
  expectedSize := job.content.length
  expectedChecksum := job.checksum

def dst : Path := joinRel job.archiveDir job.relpath

/-- Where an archive copy may be: the plain name, or one with a suffix. -/
def names : List Path := job.dst :: suffixes.map (suffixed job.dst)

/-- The check of `verify_archived`, on the bytes it finds. -/
def accepts (bytes : Bytes) : Bool :=
  bytes.length = job.content.length &&
    (job.verify ≠ .checksum ||
      match algorithmOf job.checksum with
      | none => true
      | some algo => (verifyChecksum job.checksum (digest algo bytes)).isOk)

end Job

/-- The answers one attempt gets, and whether the process lives until it has written the outcome. -/
structure Attempt where
  script : List FsAnswer
  recorded : Bool

structure Progress where
  tree : Tree
  state : ItemState

section Runs

variable {digest} (job : Job digest)

def action : FsProg (Except ReplError CleanupDone) := (applySuccessAction digest job.ctx).run

/-- One more drive of the action, unless the item is done. -/
def redrive (progress : Progress) (attempt : Attempt) : Progress :=
  if progress.state = .completed then progress
  else
    match execute callFs (action job) progress.tree attempt.script with
    | (none, tree) => ⟨tree, .cleanupPending⟩
    | (some result, tree) =>
        ⟨tree, if attempt.recorded then (if result.isOk then .completed else .cleanupFailed)
          else .cleanupPending⟩

/-- The last drive, without faults: the tree it leaves when it completes the item. -/
def settled (n : Nat) (progress : Progress) : Option Tree :=
  if progress.state = .completed then some progress.tree
  else
    match finish callFs (.asIs n) (action job) progress.tree with
    | (.ok _, tree) => some tree
    | (.error _, _) => none

/-- The faults are those of the calls that do something or prove something, and a temp name is
drawn that nothing has. -/
def admits (tree : Tree) : FsOp → FsAnswer → Prop
  | .pathExists _, .asIs _ => True
  | .pathExists _, _ => False
  | .copy _ tmp, _ => tree tmp = none
  | _, _ => True

/-- Exactly one archive copy of the source, and every file that was there as it was. -/
structure OneCopyAdded (before after : Tree) : Prop where
  copy : ∃ p ∈ job.names, before p = none ∧ (∃ mtimeMs, after p = some (.file job.content mtimeMs)) ∧
    ∀ q ∈ job.names, q ≠ p → after q = before q
  kept : ∀ q, q ≠ job.src → isFile before q = true → after q = before q

/-- What a drive may find: the source and no name taken since, or no source and something at the
plain name that passes the check. -/
def Sound (before tree : Tree) : Prop :=
  (tree job.src ≠ none ∧ ∀ p ∈ job.names, tree p = before p) ∨
    (tree job.src = none ∧
      ∃ bytes mtimeMs, tree job.dst = some (.file bytes mtimeMs) ∧ job.accepts bytes = true)

/-- Every drive of the run, the last one too, finds a sound tree. -/
def Meets (before : Tree) (progress : Progress) : List Attempt → Prop
  | [] => progress.state ≠ .completed → Sound job before progress.tree
  | attempt :: rest =>
      (progress.state ≠ .completed → Sound job before progress.tree ∧
        Admitted callFs admits (action job) progress.tree attempt.script) ∧
      Meets before (redrive job progress attempt) rest

structure Begins (before : Tree) : Prop where
  below : job.dst ≠ []
  source : ∃ mtimeMs, before job.src = some (.file job.content mtimeMs)
  apart : job.src ∉ job.names
  way : ∀ a ∈ job.dst.dropLast.inits, isFile before a = false
  free : ∃ p ∈ job.names, before p = none

end Runs

/-! ## The calls -/

def answers (calm : Bool) (tree : Tree) (operation : FsOp) (answer : FsAnswer) : Prop :=
  if calm then ∃ n, answer = .asIs n else admits tree operation answer

section Calls

variable (calm : Bool) (steady : Tree → Prop) (tree : Tree)

theorem faulty_of_fails (operation : FsOp) (e : IoError)
    (may : answers calm tree operation (.fails e)) : calm = false := by
  cases calm with
  | true => obtain ⟨n, same⟩ := may; cases same
  | false => rfl

theorem faulty_of_cut (operation : FsOp) (kept : Nat) (e : IoError)
    (may : answers calm tree operation (.cut kept e)) : calm = false := by
  cases calm with
  | true => obtain ⟨n, same⟩ := may; cases same
  | false => rfl

theorem safe_path_exists (path : Path) (post : Bool → Tree → Prop) (held : steady tree)
    (holds : post (tree path).isSome tree) :
    Safe (admitted callFs (answers calm)) steady (pathExists path) tree post := by
  apply safe_answered callFs (answers calm) steady _ tree _ held
  intro answer may
  cases answer with
  | asIs n => exact holds
  | fails e => rw [faulty_of_fails calm tree _ e may] at may; exact may.elim
  | cut kept e => rw [faulty_of_cut calm tree _ kept e may] at may; exact may.elim

theorem safe_step (operation : FsOp) (post : FsRet operation → Tree → Prop) (held : steady tree)
    (whole : ∀ kept e, callFs tree operation (.cut kept e) = (failedRet e operation, tree))
    (faulty : ∀ e, calm = false → post (failedRet e operation) tree)
    (holds : ∀ n, post (callAsIs tree n operation).1 (callAsIs tree n operation).2) :
    Safe (admitted callFs (answers calm)) steady (Prog.perform operation) tree post := by
  apply safe_answered callFs (answers calm) steady _ tree _ held
  intro answer may
  cases answer with
  | asIs n => exact holds n
  | fails e => exact faulty e (faulty_of_fails calm tree _ e may)
  | cut kept e =>
      rw [whole kept e]
      exact faulty e (faulty_of_cut calm tree _ kept e may)

theorem safe_create_dirs (path : Path) (post : Except IoError Unit → Tree → Prop)
    (held : steady tree) (faulty : ∀ e, calm = false → post (.error e) tree)
    (holds : post (createDirs tree path).1 (createDirs tree path).2) :
    Safe (admitted callFs (answers calm)) steady (createDirAll path) tree post :=
  safe_step calm steady tree _ _ held (fun _ _ => rfl) faulty fun _ => holds

theorem safe_rename (source target : Path) (post : Except IoError Unit → Tree → Prop)
    (held : steady tree) (faulty : ∀ e, calm = false → post (.error e) tree)
    (holds : post (renameFile tree source target).1 (renameFile tree source target).2) :
    Safe (admitted callFs (answers calm)) steady (rename source target) tree post :=
  safe_step calm steady tree _ _ held (fun _ _ => rfl) faulty fun _ => holds

theorem safe_remove (path : Path) (post : Except IoError Unit → Tree → Prop)
    (held : steady tree) (faulty : ∀ e, calm = false → post (.error e) tree)
    (holds : post (removeFileAt tree path).1 (removeFileAt tree path).2) :
    Safe (admitted callFs (answers calm)) steady (removeFile path) tree post :=
  safe_step calm steady tree _ _ held (fun _ _ => rfl) faulty fun _ => holds

theorem safe_file_len (path : Path) (post : Except IoError Nat → Tree → Prop)
    (held : steady tree) (faulty : ∀ e, calm = false → post (.error e) tree)
    (holds : ∀ n, post (lenOf tree path n) tree) :
    Safe (admitted callFs (answers calm)) steady (fileLen path) tree post :=
  safe_step calm steady tree _ _ held (fun _ _ => rfl) faulty holds

theorem safe_read_file (path : Path) (post : Except IoError Bytes → Tree → Prop)
    (held : steady tree) (faulty : ∀ e, calm = false → post (.error e) tree)
    (holds : post (fileBytes tree path) tree) :
    Safe (admitted callFs (answers calm)) steady (readFile path) tree post :=
  safe_step calm steady tree _ _ held (fun _ _ => rfl) faulty fun _ => holds

/-- A copy to a name that nothing has: it fails, or makes the file, or the beginning of it. -/
theorem safe_copy (source target : Path) (post : Except IoError Unit → Tree → Prop)
    (held : steady tree) (disturbed : calm = false)
    (holds : tree target = none → (∀ e, post (.error e) tree) ∧
      ∀ kept, post (copyFile tree source target kept).1 (copyFile tree source target kept).2) :
    Safe (admitted callFs (answers calm)) steady (copy source target) tree post := by
  subst disturbed
  apply safe_answered callFs (answers false) steady _ tree _ held
  intro answer may
  have hfree : tree target = none := by cases answer <;> exact may
  cases answer with
  | asIs n => exact (holds hfree).2 none
  | fails e => exact (holds hfree).1 e
  | cut kept e => exact (holds hfree).2 (some (kept, e))

theorem safe_try {α : Type} (can : Semantics FsOp FsRet Tree) (classify : IoError → ReplError)
    (program : FsProg (Except IoError α)) (post : Except ReplError α → Tree → Prop)
    (safe : Safe can steady program tree fun result after => post (result.mapError classify) after) :
    Safe can steady (tryFs classify program).run tree post :=
  safe_map can steady program (Except.mapError classify) tree post safe

end Calls

/-! ## Where an attempt may leave the item -/

section States

variable {digest} (job : Job digest) (before : Tree)

def Kept (tree : Tree) : Prop := ∀ q, q ≠ job.src → isFile before q = true → tree q = before q

structure Waiting (tree : Tree) : Prop where
  source : tree job.src = before job.src
  names : ∀ p ∈ job.names, tree p = before p
  kept : Kept job before tree
  way : ∀ a ∈ job.dst.dropLast.inits, isFile tree a = false

structure Landed (p : Path) (tree : Tree) : Prop where
  member : p ∈ job.names
  free : before p = none
  copy : ∃ mtimeMs, tree p = some (.file job.content mtimeMs)
  names : ∀ q ∈ job.names, q ≠ p → tree q = before q
  kept : Kept job before tree

def Steady (tree : Tree) : Prop := Waiting job before tree ∨ ∃ p, Landed job before p tree

variable {job before}

theorem waiting_start (begins : Begins job before) : Waiting job before before :=
  ⟨rfl, fun _ _ => rfl, fun _ _ _ => rfl, begins.way⟩

theorem name_shape (below : job.dst ≠ []) (p : Path) (member : p ∈ job.names) :
    p ≠ [] ∧ p.dropLast = job.dst.dropLast ∧
      (nameOf p).length ≤ (nameOf job.dst).length + 5 ∧
      (nameOf job.dst).length ≤ (nameOf p).length := by
  rcases List.mem_cons.mp member with rfl | suffix
  · exact ⟨below, rfl, by omega, Nat.le_refl _⟩
  · obtain ⟨i, hi, rfl⟩ := List.mem_map.mp suffix
    obtain ⟨name, heq, hlen⟩ := suffixed_eq job.dst i
    have hsmall := number_length i (by
      have := (List.mem_range'_1.mp hi).2
      omega)
    rw [heq, name_of_with_file_name, hlen]
    refine ⟨by simp [withFileName], by simp [withFileName], by omega, by omega⟩

theorem temp_not_name (below : job.dst ≠ []) (target : Path) (member : target ∈ job.names)
    (tag : Nat) : moveTempPath target tag ∉ job.names := by
  intro clash
  have hlong := temp_name_length target tag
  have htarget := (name_shape below target member).2.2.2
  have hclash := (name_shape below _ clash).2.2.1
  omega

theorem not_on_way (p : Path) (parent : p.dropLast = job.dst.dropLast)
    (nonempty : p ≠ []) : p ∉ job.dst.dropLast.inits := by
  intro onWay
  have hle := (List.mem_inits _ _ |>.mp onWay).length_le
  have hlen := congrArg List.length parent
  have hpos := List.length_pos_of_ne_nil nonempty
  rw [List.length_dropLast] at hlen
  omega

theorem waiting_dirs (begins : Begins job before) (tree : Tree) (waiting : Waiting job before tree) :
    (createDirs tree job.dst.dropLast).1 = .ok () ∧
      Waiting job before (createDirs tree job.dst.dropLast).2 ∧
      isDir (createDirs tree job.dst.dropLast).2 job.dst.dropLast = true := by
  have hway : job.dst.dropLast.inits.any (isFile tree) = false := by
    rw [List.any_eq_false]
    exact fun a ha => by simp [waiting.way a ha]
  have hdirs : createDirs tree job.dst.dropLast =
      (.ok (), fun p => if p.isPrefixOf job.dst.dropLast then some .dir else tree p) := by
    simp [createDirs, hway]
  have hoff : ∀ p, p ∉ job.dst.dropLast.inits → p.isPrefixOf job.dst.dropLast = false := by
    intro p off
    rw [Bool.eq_false_iff]
    exact fun on => off ((List.mem_inits _ _).mpr (List.isPrefixOf_iff_prefix.mp on))
  have hfile : ∀ p, isFile tree p = true → p.isPrefixOf job.dst.dropLast = false := by
    intro p file
    apply hoff
    intro onWay
    rw [waiting.way p onWay] at file
    simp at file
  rw [hdirs]
  refine ⟨rfl, ⟨?_, ?_, ?_, ?_⟩, ?_⟩
  · obtain ⟨mtimeMs, hsrc⟩ := begins.source
    have hsource := hfile job.src (by simp [isFile, waiting.source, hsrc])
    simp only [hsource, Bool.false_eq_true, if_false]
    exact waiting.source
  · intro p hp
    obtain ⟨hne, hparent, _⟩ := name_shape begins.below p hp
    simp only [hoff p (not_on_way p hparent hne), Bool.false_eq_true, if_false]
    exact waiting.names p hp
  · intro q other file
    have hq := waiting.kept q other file
    have hoffq := hfile q (by simpa [isFile, hq] using file)
    simp only [hoffq, Bool.false_eq_true, if_false]
    exact hq
  · intro a ha
    have hon : a.isPrefixOf job.dst.dropLast = true :=
      List.isPrefixOf_iff_prefix.mpr ((List.mem_inits _ _).mp ha)
    simp [isFile, hon]
  · simp [isDir]

/-- Whatever stands at a name that is no archive name and had no file before does not matter. -/
theorem waiting_put (tmp : Path) (node : Option Node) (tree : Tree) (not_name : tmp ∉ job.names)
    (not_source : tmp ≠ job.src) (no_file : isFile before tmp = false)
    (off : tmp ∉ job.dst.dropLast.inits) (waiting : Waiting job before tree) :
    Waiting job before (put tree tmp node) := by
  constructor
  · simp [put, Ne.symm not_source, waiting.source]
  · intro p hp
    have hne : p ≠ tmp := fun same => not_name (same ▸ hp)
    simp [put, hne, waiting.names p hp]
  · intro q other file
    have hne : q ≠ tmp := fun same => by simp [same, no_file] at file
    simp [put, hne, waiting.kept q other file]
  · intro a ha
    have hne : a ≠ tmp := fun same => off (same ▸ ha)
    simp [isFile, put, hne]
    exact waiting.way a ha

theorem landed_put (source target : Path) (mtimeMs : Int) (tree : Tree)
    (member : target ∈ job.names) (free : tree target = none) (not_name : source ∉ job.names)
    (no_file : source ≠ job.src → isFile before source = false)
    (waiting : Waiting job before tree) :
    Landed job before target
      (put (put tree source none) target (some (.file job.content mtimeMs))) := by
  have hfree : before target = none := (waiting.names target member) ▸ free
  constructor
  · exact member
  · exact hfree
  · exact ⟨mtimeMs, by simp [put]⟩
  · intro q hq other
    have hne : q ≠ source := fun same => not_name (same ▸ hq)
    simp [put, other, hne, waiting.names q hq]
  · intro q other file
    have hne : q ≠ target := fun same => by simp [isFile, same, hfree] at file
    have hns : q ≠ source := by
      intro same
      rw [same, no_file (same ▸ other)] at file
      simp at file
    simp [put, hne, hns, waiting.kept q other file]

end States

/-! ## One attempt -/

section Attempts

variable {digest} {job : Job digest} {before : Tree} (calm : Bool)

theorem free_suffix_safe (steady : Tree → Prop) (tree : Tree) (held : steady tree) (dst : Path)
    (tried : List Nat) (free : ∃ i ∈ tried, tree (suffixed dst i) = none) :
    Safe (admitted callFs (answers calm)) steady (freeSuffix dst tried).run tree
      fun result after => after = tree ∧
        ∃ i ∈ tried, tree (suffixed dst i) = none ∧ result = .ok (suffixed dst i) := by
  induction tried with
  | nil => simp at free
  | cons i rest ih =>
      rw [freeSuffix]
      apply safe_task_bind
      apply safe_always
      apply safe_path_exists calm steady tree _ _ held
      cases here : (tree (suffixed dst i)).isSome with
      | true =>
          simp only [if_true]
          have hrest : ∃ j ∈ rest, tree (suffixed dst j) = none := by
            obtain ⟨j, hj, hfree⟩ := free
            rcases List.mem_cons.mp hj with rfl | later
            · rw [hfree] at here
              simp at here
            · exact ⟨j, later, hfree⟩
          apply safe_mono _ _ _ _ _ _ (ih hrest)
          rintro result after ⟨same, j, hj, found⟩
          exact ⟨same, j, List.mem_cons_of_mem _ hj, found⟩
      | false =>
          simp only [Bool.false_eq_true, if_false]
          exact ⟨rfl, i, List.mem_cons_self, by simpa using here, rfl⟩

theorem resolve_safe (begins : Begins job before) (steady : Tree → Prop) (tree : Tree)
    (held : steady tree) (waiting : Waiting job before tree) :
    Safe (admitted callFs (answers calm)) steady
      (resolveCollision classifyCleanupIo job.dst .suffix).run tree
      fun result after => after = tree ∧
        ∃ target ∈ job.names, tree target = none ∧ result = .ok target := by
  rw [resolveCollision]
  apply safe_task_bind
  apply safe_always
  apply safe_path_exists calm steady tree _ _ held
  cases here : (tree job.dst).isSome with
  | false =>
      simp only [Bool.false_eq_true, if_false]
      exact ⟨rfl, job.dst, List.mem_cons_self, by simpa using here, rfl⟩
  | true =>
      simp only [if_true]
      have hfree : ∃ i ∈ suffixes, tree (suffixed job.dst i) = none := by
        obtain ⟨p, hp, hfree⟩ := begins.free
        rw [← waiting.names p hp] at hfree
        rcases List.mem_cons.mp hp with rfl | suffix
        · rw [hfree] at here
          simp at here
        · obtain ⟨i, hi, rfl⟩ := List.mem_map.mp suffix
          exact ⟨i, hi, hfree⟩
      apply safe_mono _ _ _ _ _ _ (free_suffix_safe calm steady tree held job.dst suffixes hfree)
      rintro result after ⟨same, i, hi, hnone, found⟩
      exact ⟨same, _, List.mem_cons_of_mem _ (List.mem_map_of_mem hi), hnone, found⟩

theorem rename_to_name (below : job.dst ≠ []) (source target : Path) (bytes : Bytes) (mtimeMs : Int)
    (tree : Tree) (here : tree source = some (.file bytes mtimeMs)) (member : target ∈ job.names)
    (free : tree target = none) (parent : isDir tree job.dst.dropLast = true) :
    renameFile tree source target =
      (.ok (), put (put tree source none) target (some (.file bytes mtimeMs))) := by
  have hparent := (name_shape below target member).2.1
  have hdir : tree job.dst.dropLast = some .dir := by simpa [isDir] using parent
  simp [renameFile, here, writable, isDir, free, hparent, hdir]

theorem verify_safe (steady : Tree → Prop) (tree : Tree) (held : steady tree) (target : Path)
    (bytes : Bytes) (mtimeMs : Int) (here : tree target = some (.file bytes mtimeMs))
    (accepted : job.accepts bytes = true) :
    Safe (admitted callFs (answers calm)) steady (verifyArchived digest target job.ctx).run tree
      fun result after => after = tree ∧ (∀ e, result = .error e → calm = false) := by
  rw [Job.accepts, Bool.and_eq_true, decide_eq_true_eq] at accepted
  have hlen : ∀ n, lenOf tree target n = .ok job.content.length := by
    intro n
    simp [lenOf, isDir, here, fileBytes, Except.map, accepted.1]
  rw [verifyArchived]
  apply safe_task_bind
  apply safe_try
  apply safe_file_len calm steady tree _ _ held
  · intro e faulty
    exact ⟨rfl, fun _ _ => faulty⟩
  intro n
  rw [hlen n]
  apply safe_task_bind
  have hsize : verifySize job.ctx.expectedSize job.content.length = .ok () := by
    simp [verifySize, Job.ctx]
  rw [hsize]
  by_cases policy : job.ctx.verify = .checksum
  · rw [if_pos policy, rehash]
    cases halgo : algorithmOf job.ctx.expectedChecksum with
    | none => exact ⟨rfl, fun _ failed => by cases failed⟩
    | some algo =>
        apply safe_task_bind
        apply safe_try
        apply safe_read_file calm steady tree _ _ held
        · intro e faulty
          exact ⟨rfl, fun _ _ => faulty⟩
        have hread : fileBytes tree target = .ok bytes := by simp [fileBytes, here]
        have hchecksum : (verifyChecksum job.ctx.expectedChecksum (digest algo bytes)).isOk = true := by
          have hpass := accepted.2
          have hpolicy : job.verify = .checksum := policy
          have halgo' : algorithmOf job.checksum = some algo := halgo
          rw [hpolicy, halgo'] at hpass
          simpa [Job.ctx] using hpass
        rw [hread]
        cases hverdict : verifyChecksum job.ctx.expectedChecksum (digest algo bytes) with
        | error e => rw [hverdict] at hchecksum; cases hchecksum
        | ok u =>
            refine ⟨rfl, fun e failed => ?_⟩
            simp only [Except.mapError, hverdict] at failed
            cases failed
  · rw [if_neg policy]
    exact ⟨rfl, fun _ failed => by cases failed⟩

/-! The fallback, which only a fault leads to. -/

/-- A temp name that is neither an archive name nor the source, nor anything that was there. -/
structure TempPlace (job : Job digest) (before : Tree) (tmp : Path) : Prop where
  not_name : tmp ∉ job.names
  not_source : tmp ≠ job.src
  no_file : isFile before tmp = false
  off : tmp ∉ job.dst.dropLast.inits
  not_parent : tmp ≠ job.dst.dropLast

theorem temp_place (begins : Begins job before) (tree : Tree) (waiting : Waiting job before tree)
    (target : Path) (member : target ∈ job.names) (tag : Nat)
    (free : tree (moveTempPath target tag) = none) :
    TempPlace job before (moveTempPath target tag) := by
  obtain ⟨hne, hparent, _⟩ := name_shape begins.below target member
  have hshape : (moveTempPath target tag).dropLast = job.dst.dropLast := by
    simp [moveTempPath, hparent]
  have hsource : moveTempPath target tag ≠ job.src := by
    intro same
    obtain ⟨mtimeMs, hsrc⟩ := begins.source
    rw [same, waiting.source, hsrc] at free
    simp at free
  have hoff : moveTempPath target tag ∉ job.dst.dropLast.inits :=
    not_on_way _ hshape (by simp [moveTempPath])
  refine ⟨temp_not_name begins.below target member tag, hsource, ?_, hoff, ?_⟩
  · rw [Bool.eq_false_iff]
    intro file
    have hkept := waiting.kept _ hsource file
    rw [free] at hkept
    simp [isFile, ← hkept] at file
  · intro same
    apply hoff
    rw [same]
    exact (List.mem_inits _ _).mpr (List.prefix_rfl)

theorem TempPlace.put {tmp : Path} (place : TempPlace job before tmp) (node : Option Node)
    (tree : Tree) (waiting : Waiting job before tree) : Waiting job before (put tree tmp node) :=
  waiting_put tmp node tree place.not_name place.not_source place.no_file place.off waiting

theorem drop_temp_safe {tmp : Path} (place : TempPlace job before tmp) (e : IoError) (tree : Tree)
    (waiting : Waiting job before tree) :
    Safe (admitted callFs (answers false)) (Steady job before)
      (dropTemp classifyCleanupIo tmp e).run tree
      fun result after => result = .error (classifyCleanupIo e) ∧ Waiting job before after := by
  rw [dropTemp]
  apply safe_task_bind
  apply safe_always
  apply safe_remove false _ tree _ _ (Or.inl waiting)
  · intro e' _
    exact ⟨rfl, waiting⟩
  · refine ⟨rfl, ?_⟩
    unfold removeFileAt
    split
    · exact place.put none tree waiting
    · exact waiting
    · exact waiting

theorem or_drop_temp_safe {tmp : Path} (place : TempPlace job before tmp)
    (program : FsProg (Except IoError Unit)) (tree : Tree) (post : Tree → Prop)
    (safe : Safe (admitted callFs (answers false)) (Steady job before) program tree
      fun result after =>
        match result with
        | .ok () => post after
        | .error _ => Waiting job before after) :
    Safe (admitted callFs (answers false)) (Steady job before)
      (orDropTemp classifyCleanupIo tmp program).run tree
      fun result after =>
        match result with
        | .ok () => post after
        | .error _ => Waiting job before after := by
  rw [orDropTemp]
  apply safe_task_bind
  apply safe_always
  apply safe_mono _ _ _ _ _ _ safe
  intro result after holds
  cases result with
  | ok u => exact holds
  | error e =>
      apply safe_mono _ _ _ _ _ _ (drop_temp_safe place e after holds)
      rintro outcome last ⟨rfl, waiting⟩
      exact waiting

theorem publish_temp_safe (begins : Begins job before) {tmp : Path}
    (place : TempPlace job before tmp) (target : Path) (member : target ∈ job.names) (tree : Tree)
    (waiting : Waiting job before tree) (mtimeMs : Int)
    (copied : tree tmp = some (.file job.content mtimeMs)) (free : tree target = none)
    (parent : isDir tree job.dst.dropLast = true) :
    Safe (admitted callFs (answers false)) (Steady job before)
      (publishTemp classifyCleanupIo tmp target).run tree
      fun result after =>
        match result with
        | .ok () => Landed job before target after ∧ after job.src = before job.src
        | .error _ => Waiting job before after := by
  have hrename := rename_to_name begins.below tmp target job.content mtimeMs tree copied member free
    parent
  have hlanded : Landed job before target
      (put (put tree tmp none) target (some (.file job.content mtimeMs))) :=
    landed_put tmp target mtimeMs tree member free place.not_name (fun _ => place.no_file) waiting
  have hsource : target ≠ job.src := fun same => begins.apart (same ▸ member)
  have hkept : put (put tree tmp none) target (some (.file job.content mtimeMs)) job.src =
      before job.src := by
    simp [put, Ne.symm hsource, Ne.symm place.not_source, waiting.source]
  rw [publishTemp]
  apply safe_task_bind
  apply safe_always
  apply safe_rename false _ tree _ _ _ (Or.inl waiting)
  · -- the first rename is disturbed: nothing stands at the target, and it is tried again
    intro e _
    apply safe_task_bind
    rw [removeExisting]
    apply safe_task_bind
    apply safe_always
    apply safe_path_exists false _ tree _ _ (Or.inl waiting)
    simp only [free, Option.isSome_none, Bool.false_eq_true, if_false]
    apply or_drop_temp_safe place
    apply safe_rename false _ tree _ _ _ (Or.inl waiting)
    · intro e' _
      exact waiting
    · rw [hrename]
      exact ⟨hlanded, hkept⟩
  · rw [hrename]
    exact ⟨hlanded, hkept⟩

theorem remove_source_safe (begins : Begins job before) (target : Path) (tree : Tree)
    (landed : Landed job before target tree) (here : tree job.src = before job.src) :
    Safe (admitted callFs (answers false)) (Steady job before)
      (tryFs classifyCleanupIo (removeFile job.src)).run tree
      fun result after =>
        match result with
        | .ok () => Landed job before target after ∧ after job.src = none
        | .error _ => Steady job before after := by
  have hsteady : Steady job before tree := Or.inr ⟨target, landed⟩
  apply safe_try
  apply safe_remove false _ tree _ _ hsteady
  · intro e _
    exact hsteady
  · obtain ⟨mtimeMs, hsrc⟩ := begins.source
    have hremoved : removeFileAt tree job.src = (.ok (), put tree job.src none) := by
      simp [removeFileAt, here, hsrc]
    rw [hremoved]
    have hother : ∀ p ∈ job.names, p ≠ job.src := fun p hp same => begins.apart (same ▸ hp)
    refine ⟨⟨landed.member, landed.free, ?_, ?_, ?_⟩, by simp [put]⟩
    · obtain ⟨copied, hcopy⟩ := landed.copy
      exact ⟨copied, by simp [put, hother target landed.member, hcopy]⟩
    · intro q hq other
      simp [put, hother q hq, landed.names q hq other]
    · intro q other file
      simp [put, other, landed.kept q other file]

theorem copy_temp_safe (begins : Begins job before) (target : Path) (member : target ∈ job.names)
    (tree : Tree) (waiting : Waiting job before tree) (tag : Nat)
    (parent : isDir tree job.dst.dropLast = true) :
    Safe (admitted callFs (answers false)) (Steady job before)
      (orDropTemp classifyCleanupIo (moveTempPath target tag)
        (copy job.src (moveTempPath target tag))).run tree
      fun result after =>
        match result with
        | .ok () => TempPlace job before (moveTempPath target tag) ∧
            after = put tree (moveTempPath target tag) (some (.file job.content 0))
        | .error _ => Waiting job before after := by
  rw [orDropTemp]
  apply safe_task_bind
  apply safe_always
  apply safe_copy false _ tree _ _ _ (Or.inl waiting) rfl
  intro free
  have place := temp_place begins tree waiting target member tag free
  have hdrop : ∀ e after, Waiting job before after →
      Safe (admitted callFs (answers false)) (Steady job before)
        (dropTemp classifyCleanupIo (moveTempPath target tag) e).run after
        fun result last =>
          match result with
          | .ok () => TempPlace job before (moveTempPath target tag) ∧
              last = put tree (moveTempPath target tag) (some (.file job.content 0))
          | .error _ => Waiting job before last := by
    intro e after still
    apply safe_mono _ _ _ _ _ _ (drop_temp_safe place e after still)
    rintro outcome last ⟨rfl, hlast⟩
    exact hlast
  refine ⟨fun e => hdrop e tree waiting, fun kept => ?_⟩
  obtain ⟨mtimeMs, hsrc⟩ := begins.source
  have hsource : tree job.src = some (.file job.content mtimeMs) := waiting.source ▸ hsrc
  have hwritable : writable tree (moveTempPath target tag) = .ok () := by
    have hdir : tree job.dst.dropLast = some .dir := by simpa [isDir] using parent
    have hparent : (moveTempPath target tag).dropLast = job.dst.dropLast := by
      simp [moveTempPath, (name_shape begins.below target member).2.1]
    simp [writable, isDir, free, hparent, hdir]
  cases kept with
  | none =>
      simp only [copyFile, hsource, makeFile, hwritable]
      exact ⟨place, rfl⟩
  | some cut =>
      simp only [copyFile, hsource, makeFile, hwritable]
      exact hdrop _ _ (place.put _ tree waiting)

theorem move_by_copy_safe (begins : Begins job before) (target : Path) (member : target ∈ job.names)
    (tree : Tree) (waiting : Waiting job before tree) (free : tree target = none)
    (parent : isDir tree job.dst.dropLast = true) :
    Safe (admitted callFs (answers false)) (Steady job before)
      (moveByCopy classifyCleanupIo job.src target).run tree
      fun result after =>
        match result with
        | .ok p => Landed job before p after ∧ after job.src = none
        | .error _ => Steady job before after := by
  rw [moveByCopy]
  apply safe_task_bind
  apply safe_always
  apply safe_answered callFs (answers false) _ _ tree _ (Or.inl waiting)
  intro answer _
  have hsame : (callFs tree .nanos answer).2 = tree := by cases answer <;> rfl
  rw [hsame]
  generalize (callFs tree .nanos answer).1 = tag
  apply safe_task_bind
  apply safe_mono _ _ _ _ _ _ (copy_temp_safe begins target member tree waiting tag parent)
  intro copied middle hcopied
  cases copied with
  | error e => exact Or.inl hcopied
  | ok u =>
      obtain ⟨place, rfl⟩ := hcopied
      have hne : target ≠ moveTempPath target tag := fun same =>
        place.not_name (same ▸ member)
      have hdir : isDir (put tree (moveTempPath target tag) (some (.file job.content 0)))
          job.dst.dropLast = true := by
        simpa [isDir, put, Ne.symm place.not_parent] using parent
      apply safe_task_bind
      apply safe_mono _ _ _ _ _ _ (publish_temp_safe begins place target member _
        (place.put _ tree waiting) 0 (by simp [put]) (by simp [put, hne, free]) hdir)
      intro published after hpublished
      cases published with
      | error e => exact Or.inl hpublished
      | ok u =>
          apply safe_task_bind
          apply safe_mono _ _ _ _ _ _ (remove_source_safe begins target after hpublished.1
            hpublished.2)
          intro removed last hremoved
          cases removed with
          | error e => exact hremoved
          | ok u => exact hremoved

theorem move_file_safe (begins : Begins job before) (tree : Tree) (waiting : Waiting job before tree) :
    Safe (admitted callFs (answers calm)) (Steady job before)
      (moveFile classifyCleanupIo job.src job.dst .suffix).run tree
      fun result after =>
        match result with
        | .ok p => Landed job before p after ∧ after job.src = none
        | .error _ => calm = false ∧ Steady job before after := by
  obtain ⟨hmade, hwaiting, hparent⟩ := waiting_dirs begins tree waiting
  rw [moveFile]
  apply safe_task_bind
  rw [createParent, if_neg begins.below]
  apply safe_try
  apply safe_create_dirs calm _ tree _ _ (Or.inl waiting)
  · intro e faulty
    exact ⟨faulty, Or.inl waiting⟩
  rw [hmade]
  generalize (createDirs tree job.dst.dropLast).2 = made at hwaiting hparent
  apply safe_task_bind
  apply safe_mono _ _ _ _ _ _ (resolve_safe calm begins (Steady job before) made (Or.inl hwaiting)
    hwaiting)
  rintro resolved same ⟨rfl, target, member, free, rfl⟩
  obtain ⟨mtimeMs, hsrc⟩ := begins.source
  have hrename := rename_to_name begins.below job.src target job.content mtimeMs same
    (hwaiting.source ▸ hsrc) member free hparent
  apply safe_task_bind
  apply safe_always
  apply safe_rename calm _ same _ _ _ (Or.inl hwaiting)
  · -- only a fault leads to the fallback
    intro e faulty
    subst faulty
    apply safe_mono _ _ _ _ _ _ (move_by_copy_safe begins target member same hwaiting free hparent)
    intro result after holds
    cases result with
    | ok p => exact holds
    | error e => exact ⟨rfl, holds⟩
  · rw [hrename]
    have hsource : job.src ≠ target := fun eq => begins.apart (eq ▸ member)
    exact ⟨landed_put job.src target mtimeMs same member free begins.apart (fun other => (other rfl).elim)
      hwaiting, by simp [put, hsource]⟩

theorem accepts_content (job : Job digest) : job.accepts job.content = true := by
  rw [Job.accepts, Bool.and_eq_true, decide_eq_true_eq]
  refine ⟨rfl, ?_⟩
  cases halgo : algorithmOf job.checksum with
  | none => simp
  | some algo => simp [job.hashed algo halgo, verifyChecksum, Except.isOk, Except.toBool]

/-- Where an attempt that ends has brought the item. -/
def Ended (job : Job digest) (before : Tree) (result : Except ReplError CleanupDone) (tree : Tree) :
    Prop :=
  match result with
  | .ok _ => tree job.src = none ∧ ∃ p, Landed job before p tree
  | .error _ => calm = false ∧ Steady job before tree

theorem attempt_waiting (begins : Begins job before) (tree : Tree)
    (waiting : Waiting job before tree) :
    Safe (admitted callFs (answers calm)) (Steady job before) (action job) tree
      (Ended calm job before) := by
  have hsrc : (tree job.src).isSome = true := by
    obtain ⟨mtimeMs, hsrc⟩ := begins.source
    simp [waiting.source, hsrc]
  rw [action, applySuccessAction]
  simp only [Job.ctx]
  rw [archiveSource]
  apply safe_task_bind
  apply safe_always
  apply safe_path_exists calm _ tree _ _ (Or.inl waiting)
  simp only [hsrc, if_true]
  apply safe_task_bind
  apply safe_mono _ _ _ _ _ _ (move_file_safe calm begins tree waiting)
  intro moved middle hmoved
  cases moved with
  | error e => exact hmoved
  | ok p =>
      obtain ⟨hlanded, hgone⟩ := hmoved
      obtain ⟨mtimeMs, hcopy⟩ := hlanded.copy
      apply safe_task_bind
      apply safe_mono _ _ _ _ _ _ (verify_safe calm (Steady job before) middle
        (Or.inr ⟨p, hlanded⟩) p job.content mtimeMs hcopy (accepts_content job))
      rintro verified after ⟨rfl, hfault⟩
      cases verified with
      | error e => exact ⟨hfault e rfl, Or.inr ⟨p, hlanded⟩⟩
      | ok u => exact ⟨hgone, p, hlanded⟩

theorem attempt_landed (p : Path) (tree : Tree) (landed : Landed job before p tree)
    (gone : tree job.src = none) (bytes : Bytes) (mtimeMs : Int)
    (here : tree job.dst = some (.file bytes mtimeMs)) (accepted : job.accepts bytes = true) :
    Safe (admitted callFs (answers calm)) (Steady job before) (action job) tree
      (Ended calm job before) := by
  have hsteady : Steady job before tree := Or.inr ⟨p, landed⟩
  rw [action, applySuccessAction]
  simp only [Job.ctx]
  rw [archiveSource]
  apply safe_task_bind
  apply safe_always
  apply safe_path_exists calm _ tree _ _ hsteady
  simp only [gone, Option.isSome_none, Bool.false_eq_true, if_false]
  rw [findArchived]
  apply safe_task_bind
  apply safe_always
  apply safe_path_exists calm _ tree _ _ hsteady
  have hdst : (tree (joinRel job.archiveDir job.relpath)).isSome = true := by
    have hplain : tree (joinRel job.archiveDir job.relpath) = some (.file bytes mtimeMs) := here
    simp [hplain]
  simp only [hdst, if_true]
  apply safe_task_bind
  apply safe_mono _ _ _ _ _ _ (verify_safe calm (Steady job before) tree hsteady job.dst bytes
    mtimeMs here accepted)
  rintro verified after ⟨rfl, hfault⟩
  cases verified with
  | error e => exact ⟨hfault e rfl, hsteady⟩
  | ok u => exact ⟨gone, p, landed⟩

theorem attempt_sound (begins : Begins job before) (tree : Tree) (steady : Steady job before tree)
    (sound : Sound job before tree) :
    Safe (admitted callFs (answers calm)) (Steady job before) (action job) tree
      (Ended calm job before) := by
  rcases steady with waiting | ⟨p, landed⟩
  · exact attempt_waiting calm begins tree waiting
  · rcases sound with ⟨_, untaken⟩ | ⟨gone, bytes, mtimeMs, here, accepted⟩
    · -- the name was free, so a copy there is not what was there
      obtain ⟨mtimeMs, hcopy⟩ := landed.copy
      rw [untaken p landed.member, landed.free] at hcopy
      simp at hcopy
    · exact attempt_landed calm p tree landed gone bytes mtimeMs here accepted

end Attempts

/-! ## Runs of attempts -/

section Redrives

variable {digest} {job : Job digest} {before : Tree}

/-- What a run keeps: completed items have their copy and no source. -/
def Fine (job : Job digest) (before : Tree) (progress : Progress) : Prop :=
  if progress.state = .completed then
    progress.tree job.src = none ∧ ∃ p, Landed job before p progress.tree
  else Steady job before progress.tree

theorem fine_redrive (begins : Begins job before) (progress : Progress) (attempt : Attempt)
    (fine : Fine job before progress)
    (met : progress.state ≠ .completed → Sound job before progress.tree ∧
      Admitted callFs admits (action job) progress.tree attempt.script) :
    Fine job before (redrive job progress attempt) := by
  rw [redrive]
  by_cases finished : progress.state = .completed
  · rw [if_pos finished]
    exact fine
  · rw [if_neg finished]
    rw [Fine, if_neg finished] at fine
    obtain ⟨sound, answered⟩ := met finished
    have hruns := safe_execute callFs (answers false) (Steady job before) (action job) progress.tree
      (Ended false job before) attempt.script (attempt_sound false begins progress.tree fine sound)
      answered
    generalize execute callFs (action job) progress.tree attempt.script = out at hruns
    obtain ⟨result, tree⟩ := out
    cases result with
    | none =>
        have hstopped : Steady job before tree := hruns.1 rfl
        simpa [Fine] using hstopped
    | some result =>
        have hended := hruns.2 result rfl
        cases result with
        | error e =>
            have hsteady : Steady job before tree := hended.2
            cases attempt.recorded <;> simpa [Fine, Except.isOk, Except.toBool] using hsteady
        | ok d =>
            have hlanded : tree job.src = none ∧ ∃ p, Landed job before p tree := hended
            have hsteady : Steady job before tree := Or.inr hlanded.2
            cases attempt.recorded
            · simpa [Fine] using hsteady
            · simpa [Fine, Except.isOk, Except.toBool] using hlanded

theorem one_copy_of_landed (p : Path) (tree : Tree) (landed : Landed job before p tree) :
    OneCopyAdded job before tree :=
  ⟨⟨p, landed.member, landed.free, landed.copy, landed.names⟩, landed.kept⟩

theorem settled_of_fine (begins : Begins job before) (progress : Progress)
    (fine : Fine job before progress) (attempts : List Attempt)
    (meets : Meets job before progress attempts) (n : Nat) :
    ∃ tree, settled job n (attempts.foldl (redrive job) progress) = some tree ∧
      OneCopyAdded job before tree := by
  induction attempts generalizing progress with
  | nil =>
      rw [List.foldl_nil, settled]
      by_cases finished : progress.state = .completed
      · rw [if_pos finished]
        rw [Fine, if_pos finished] at fine
        obtain ⟨_, p, landed⟩ := fine
        exact ⟨progress.tree, rfl, one_copy_of_landed p _ landed⟩
      · rw [if_neg finished]
        rw [Fine, if_neg finished] at fine
        have hended := safe_finish callFs (answers true) (Steady job before) (.asIs n)
          (fun _ _ => ⟨n, rfl⟩) (action job) progress.tree (Ended true job before)
          (attempt_sound true begins progress.tree fine (meets finished))
        generalize finish callFs (.asIs n) (action job) progress.tree = out at hended
        obtain ⟨result, tree⟩ := out
        cases result with
        | error e => exact absurd hended.1 (by simp)
        | ok d =>
            obtain ⟨_, p, landed⟩ := hended
            exact ⟨tree, rfl, one_copy_of_landed p tree landed⟩
  | cons attempt rest ih =>
      exact ih (redrive job progress attempt) (fine_redrive begins progress attempt fine meets.1)
        meets.2

/-- However often the action is stopped or disturbed: when every drive finds a sound tree, the one
after the last fault completes the item with exactly one archive copy. -/
theorem redrives_settle (job : Job digest) (before : Tree) (begins : Begins job before)
    (attempts : List Attempt) (meets : Meets job before ⟨before, .verified⟩ attempts) (n : Nat) :
    ∃ tree, settled job n (attempts.foldl (redrive job) ⟨before, .verified⟩) = some tree ∧
      OneCopyAdded job before tree := by
  apply settled_of_fine begins _ _ attempts meets
  rw [Fine, if_neg (by simp)]
  exact Or.inl (waiting_start begins)

end Redrives

/-! A small item, for runs. -/

def sampleJob : Job (fun _ _ => .none) where
  src := ["in", "a.txt"]
  archiveDir := ["arch"]
  relpath := "a.txt"
  verify := .size
  content := [1, 2, 3]
  checksum := .none
  hashed := by
    intro algo named
    cases named

def sampleTree : Tree
  | [] | ["in"] | ["arch"] => some .dir
  | ["in", "a.txt"] => some (.file [1, 2, 3] 5)
  | _ => none

theorem sample_begins : Begins sampleJob sampleTree := by
  have hdst : sampleJob.dst = ["arch", "a.txt"] := by decide
  constructor
  · rw [hdst]
    decide
  · exact ⟨5, rfl⟩
  · intro clash
    have hparent := (name_shape (by rw [hdst]; decide) _ clash).2.1
    rw [hdst] at hparent
    revert hparent
    decide
  · rw [hdst]
    decide
  · exact ⟨sampleJob.dst, List.mem_cons_self, by rw [hdst]; rfl⟩

/-- The archive directory cannot be made at first. -/
theorem redrives_settle_after_fault :
    ∃ tree, settled sampleJob 0 (redrive sampleJob ⟨sampleTree, .verified⟩
        ⟨[.asIs 0, .fails ⟨.other, "Input/output error (os error 5)"⟩], true⟩) = some tree ∧
      OneCopyAdded sampleJob sampleTree tree :=
  redrives_settle sampleJob sampleTree sample_begins
    [⟨[.asIs 0, .fails ⟨.other, "Input/output error (os error 5)"⟩], true⟩]
    ⟨fun _ => ⟨Or.inl ⟨by decide, fun _ _ => rfl⟩, trivial, trivial, trivial⟩,
      fun _ => Or.inl ⟨by decide, fun _ _ => rfl⟩⟩ 0

/-- An archive on another file system, and a source that is locked when it is to be removed. -/
def lockedSource : Attempt where
  script := [.asIs 0, .asIs 0, .asIs 0, .fails ⟨.other, "Invalid cross-device link (os error 18)"⟩,
    .asIs 7, .asIs 0, .asIs 0, .fails ⟨.resourceBusy, "Device or resource busy (os error 16)"⟩]
  recorded := true

/-- The copy has its name when the removal fails, so the next drive makes another one. -/
theorem second_copy :
    Begins sampleJob sampleTree ∧
      Admitted callFs admits (action sampleJob) sampleTree lockedSource.script ∧
      ¬∃ tree, settled sampleJob 0 (redrive sampleJob ⟨sampleTree, .verified⟩ lockedSource) =
        some tree ∧ OneCopyAdded sampleJob sampleTree tree := by
  refine ⟨sample_begins, ?_, ?_⟩
  · exact ⟨trivial, trivial, trivial, trivial, trivial, rfl, trivial, trivial, trivial⟩
  · rintro ⟨tree, hsettled, added⟩
    have hdst : sampleJob.dst = ["arch", "a.txt"] := by decide
    have hnext : suffixed sampleJob.dst 1 = ["arch", "a.1.txt"] := by decide
    have htree : (settled sampleJob 0 (redrive sampleJob ⟨sampleTree, .verified⟩ lockedSource)).map
        (fun t => (t ["arch", "a.txt"], t ["arch", "a.1.txt"])) =
        some (some (.file [1, 2, 3] 0), some (.file [1, 2, 3] 5)) := by decide
    rw [hsettled, Option.map_some, Option.some.injEq, Prod.mk.injEq] at htree
    obtain ⟨p, _, _, _, others⟩ := added.copy
    have hplain : sampleJob.dst = p := by
      by_contra other
      have hsame := others sampleJob.dst List.mem_cons_self other
      rw [hdst, htree.1] at hsame
      exact absurd hsame (by decide)
    have hsuffix : suffixed sampleJob.dst 1 = p := by
      by_contra other
      have hmem : suffixed sampleJob.dst 1 ∈ sampleJob.names :=
        List.mem_cons_of_mem _ (List.mem_map_of_mem (List.mem_range'_1.mpr ⟨Nat.le_refl _, by decide⟩))
      have hsame := others _ hmem other
      rw [hnext, htree.2] at hsame
      exact absurd hsame (by decide)
    rw [← hplain, hnext, hdst] at hsuffix
    exact absurd hsuffix (by decide)

end FileReplicator.ArchiveRedrive
