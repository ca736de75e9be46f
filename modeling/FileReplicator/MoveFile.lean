import FileReplicator.CrashLogic
import FileReplicator.SourceActions

/-!
# Moving a file

What a move leaves of the source, of the files beside its target and of its
temporary file, whichever of its calls fail. The policies differ in what they do
about a file in the way; the fallback across file systems is the same for all.
-/

namespace FileReplicator.MoveFile

open Domain Effects FileTree SourceActions CrashLogic

/-! ## The calls of a move -/

structure Disk where
  tree : Tree
  stuck : List Path

def stuckAfter (stuck : List Path) : (operation : FsOp) → FsRet operation → List Path
  | .removeFile path, .error _ => path :: stuck
  | _, _ => stuck

def callDisk (disk : Disk) (operation : FsOp) (answer : FsAnswer) : FsRet operation × Disk :=
  let out := callFs disk.tree operation answer
  (out.1, ⟨out.2, stuckAfter disk.stuck operation out.1⟩)

/-- The clock reads `tag`. A look at a name fails only if `blind`; every other call may fail. -/
def admits (blind : Bool) (tag : Nat) (_ : Disk) : FsOp → FsAnswer → Prop
  | .nanos, answer => answer = .asIs tag
  | .pathExists _, answer => blind = true ∨ ∃ n, answer = .asIs n
  | _, _ => True

/-- Whether the file at a path is the same in both trees. -/
def Untouched (before after : Tree) (p : Path) : Prop :=
  isFile before p = true → after p = before p

/-- A move as its caller asks for it; the root is a directory, and the source is none. -/
structure Move where
  src : Path
  dst : Path
  collision : Collision
  before : Tree
  root : isDir before [] = true
  source : isDir before src = false

/-- Suffixed names up to the first free one. The others are passed over when they are seen. -/
def freeSuffixes (blind : Bool) (tree : Tree) (dst : Path) : List Nat → List Path
  | [] => []
  | i :: rest =>
      if (tree (suffixed dst i)).isSome then
        (if blind then [suffixed dst i] else []) ++ freeSuffixes blind tree dst rest
      else [suffixed dst i]

/-- What `resolveCollision` may settle on in a tree. -/
def choices (blind : Bool) (tree : Tree) (dst : Path) (collision : Collision) : List Path :=
  if (tree dst).isSome then
    (if blind then [dst] else []) ++
      match collision with
      | .overwrite => if isFile tree dst then [dst] else []
      | .fail => []
      | .suffix => freeSuffixes blind tree dst suffixes
  else [dst]

namespace Move

variable (m : Move)

/-- The names the file may get; none when a file is where a directory is needed. -/
def targets (blind : Bool) : List Path :=
  if m.dst.dropLast.inits.any (isFile m.before) then []
  else choices blind m.before m.dst m.collision

/-- The name asked for and the names that a collision may lead to. -/
def names : List Path := m.dst :: suffixes.map (suffixed m.dst)

def start : Disk := ⟨m.before, []⟩

/-- `move_file`, its calls answered by the script. -/
def run (classify : IoError → ReplError) (script : List FsAnswer) :
    Option (Except ReplError Path) × Disk :=
  execute callDisk (moveFile classify m.src m.dst m.collision).run m.start script

def Answered (classify : IoError → ReplError) (blind : Bool) (tag : Nat)
    (script : List FsAnswer) : Prop :=
  Admitted callDisk (admits blind tag) (moveFile classify m.src m.dst m.collision).run m.start script

/-- The move loses nothing: the content is at the source or, in the end, at the target. -/
structure Conserves (result : Except ReplError Path) (after : Tree) : Prop where
  moved : ∀ target, result = .ok target →
    isFile m.before m.src = true ∧ fileBytes after target = fileBytes m.before m.src ∧
      after m.src = none
  stayed : ∀ e, result = .error e → Untouched m.before after m.src
  others : m.collision ≠ .overwrite → ∀ p, p.dropLast = m.dst.dropLast → p ≠ m.src →
    Untouched m.before after p

/-- A move that fails leaves the files below the target's directory, and no temporary file that it
could remove. -/
structure LeavesAlone (tag : Nat) (result : Except ReplError Path) (after : Disk) : Prop where
  files : ∀ e, result = .error e → ∀ p, m.dst.dropLast <+: p → Untouched m.before after.tree p
  temp : ∀ e, result = .error e → ∀ target ∈ m.names,
    isFile after.tree (moveTempPath target tag) = true →
      isFile m.before (moveTempPath target tag) = true ∨ moveTempPath target tag ∈ after.stuck

end Move

theorem temp_parent (target : Path) (tag : Nat) :
    (moveTempPath target tag).dropLast = target.dropLast := by
  simp [moveTempPath]

theorem suffixed_parent (dst : Path) (i : Nat) : (suffixed dst i).dropLast = dst.dropLast := by
  obtain ⟨name, same, _⟩ := suffixed_eq dst i
  rw [same]
  simp [withFileName]

theorem temp_ne_name (m : Move) (target other : Path) (tag : Nat) (member : target ∈ m.names)
    (among : other ∈ m.names) : moveTempPath target tag ≠ other := by
  have hlen : ∀ p ∈ m.names, (nameOf m.dst).length ≤ (nameOf p).length ∧
      (nameOf p).length ≤ (nameOf m.dst).length + 5 := by
    intro p hp
    rcases List.mem_cons.mp hp with rfl | suffix
    · omega
    · obtain ⟨i, hi, rfl⟩ := List.mem_map.mp suffix
      have hsmall : i < 10000 := by
        rw [suffixes, List.mem_range'_1] at hi
        omega
      obtain ⟨name, same, hname⟩ := suffixed_eq m.dst i
      have hdigits := number_length i hsmall
      rw [same, name_of_with_file_name, hname]
      omega
  intro same
  have hlong := temp_name_length target tag
  rw [same] at hlong
  have := (hlen target member).1
  have := (hlen other among).2
  omega

theorem name_parent (m : Move) (p : Path) (member : p ∈ m.names) :
    p.dropLast = m.dst.dropLast := by
  rcases List.mem_cons.mp member with rfl | suffix
  · rfl
  · obtain ⟨i, _, rfl⟩ := List.mem_map.mp suffix
    exact suffixed_parent m.dst i

theorem off_the_way (p dir : Path) (parent : p.dropLast = dir) (below : p ≠ []) : ¬ p <+: dir := by
  intro on
  have hlen := on.length_le
  have hpos := List.length_pos_iff.mpr below
  rw [← parent, List.length_dropLast] at hlen
  omega

/-! ## What the calls do -/

section Calls

variable (blind : Bool) (tag : Nat) (disk : Disk)

def anywhere (_ : Disk) : Prop := True

attribute [local simp] callDisk stuckAfter

theorem safe_path_exists (path : Path) (post : Bool → Disk → Prop)
    (seen : (disk.tree path).isSome = true → post true disk)
    (unseen : blind = true ∨ disk.tree path = none → post false disk) :
    Safe (admitted callDisk (admits blind tag)) anywhere (pathExists path) disk post := by
  apply safe_answered callDisk (admits blind tag) anywhere _ disk _ trivial
  intro answer may
  rcases may with unsure | ⟨n, rfl⟩
  · cases answer with
    | asIs n =>
        cases here : (disk.tree path).isSome with
        | true =>
            have hpost := seen here
            rw [← here] at hpost
            exact hpost
        | false =>
            have hpost := unseen (Or.inl unsure)
            rw [← here] at hpost
            exact hpost
    | fails e => exact unseen (Or.inl unsure)
    | cut kept e => exact unseen (Or.inl unsure)
  · cases here : (disk.tree path).isSome with
    | true =>
        have hpost := seen here
        rw [← here] at hpost
        exact hpost
    | false =>
        have hpost := unseen (Or.inr (by simpa using here))
        rw [← here] at hpost
        exact hpost

theorem safe_rename (source target : Path) (post : Except IoError Unit → Disk → Prop)
    (failed : ∀ e, post (.error e) disk)
    (renamed : ∀ bytes mtimeMs, disk.tree source = some (.file bytes mtimeMs) →
      post (.ok ()) ⟨put (put disk.tree source none) target (some (.file bytes mtimeMs)),
        disk.stuck⟩) :
    Safe (admitted callDisk (admits blind tag)) anywhere (rename source target) disk post := by
  apply safe_answered callDisk (admits blind tag) anywhere _ disk _ trivial
  intro answer _
  cases ended : (callFs disk.tree (.rename source target) answer).1 with
  | error e =>
      have hsame := rename_failed disk.tree answer source target e ended
      simpa [ended, hsame] using failed e
  | ok u =>
      obtain ⟨bytes, mtimeMs, here, hput⟩ := rename_spec disk.tree answer source target ended
      simpa [ended, hput] using renamed bytes mtimeMs here

theorem safe_remove (path : Path) (post : Except IoError Unit → Disk → Prop)
    (failed : ∀ e, post (.error e) ⟨disk.tree, path :: disk.stuck⟩)
    (removed : ∀ bytes mtimeMs, disk.tree path = some (.file bytes mtimeMs) →
      post (.ok ()) ⟨put disk.tree path none, disk.stuck⟩) :
    Safe (admitted callDisk (admits blind tag)) anywhere (removeFile path) disk post := by
  apply safe_answered callDisk (admits blind tag) anywhere _ disk _ trivial
  intro answer _
  cases ended : (callFs disk.tree (.removeFile path) answer).1 with
  | error e =>
      have hsame := remove_failed disk.tree answer path e ended
      simpa [ended, hsame] using failed e
  | ok u =>
      obtain ⟨⟨bytes, mtimeMs, here⟩, hput⟩ := remove_spec disk.tree answer path ended
      simpa [ended, hput] using removed bytes mtimeMs here

theorem safe_copy (source target : Path) (post : Except IoError Unit → Disk → Prop)
    (failed : ∀ e after, (∀ p, p ≠ target → after p = disk.tree p) →
      post (.error e) ⟨after, disk.stuck⟩)
    (copied : ∀ bytes mtimeMs, disk.tree source = some (.file bytes mtimeMs) →
      isDir disk.tree target = false →
      post (.ok ()) ⟨put disk.tree target (some (.file bytes 0)), disk.stuck⟩) :
    Safe (admitted callDisk (admits blind tag)) anywhere (copy source target) disk post := by
  apply safe_answered callDisk (admits blind tag) anywhere _ disk _ trivial
  intro answer _
  cases ended : (callFs disk.tree (.copy source target) answer).1 with
  | error e =>
      simp only [callDisk, ended, stuckAfter]
      apply failed e
      intro p other
      cases answer with
      | asIs n => exact copy_file_frame disk.tree source target p none other
      | fails _ => rfl
      | cut kept _ => exact copy_file_frame disk.tree source target p _ other
  | ok u =>
      obtain ⟨bytes, mtimeMs, here, hput⟩ := copy_spec disk.tree answer source target ended
      have hdir := copied_no_dir disk.tree answer source target ended
      simpa [ended, hput] using copied bytes mtimeMs here hdir

/-- Directories are made where nothing was, and only on the way. -/
structure Paved (way : Path) (before after : Tree) : Prop where
  off : ∀ p, ¬ p <+: way → after p = before p
  files : ∀ p, isFile after p = true ↔ isFile before p = true
  kept : ∀ p, Untouched before after p
  dirs : ∀ p, isDir before p = true → isDir after p = true

theorem no_file_of_inits (path : Path) (tree : Tree) (way : path.inits.any (isFile tree) = false)
    (p : Path) (on : p <+: path) : isFile tree p = false := by
  rw [List.any_eq_false] at way
  simpa using way p ((List.mem_inits _ _).mpr on)

theorem paved_refl (way : Path) (tree : Tree) : Paved way tree tree :=
  ⟨fun _ _ => rfl, fun _ => Iff.rfl, fun _ _ => rfl, fun _ dir => dir⟩

theorem paved_dirs (path : Path) (tree : Tree) (way : ∀ a, a <+: path → isFile tree a = false) :
    Paved path tree (fun p => if p.isPrefixOf path then some .dir else tree p) := by
  have hoff : ∀ p, ¬ p <+: path → p.isPrefixOf path = false := by
    intro p off
    rw [Bool.eq_false_iff]
    exact fun on => off (List.isPrefixOf_iff_prefix.mp on)
  have hfile : ∀ p, isFile tree p = true → p.isPrefixOf path = false := by
    intro p file
    apply hoff
    intro on
    rw [way p on] at file
    cases file
  constructor
  · intro p off
    simp only [hoff p off, Bool.false_eq_true, if_false]
  · intro p
    cases on : p.isPrefixOf path with
    | true =>
        rw [way p (List.isPrefixOf_iff_prefix.mp on)]
        simp [isFile, on]
    | false => simp [isFile, on]
  · intro p file
    simp only [hfile p file, Bool.false_eq_true, if_false]
  · intro p dir
    cases on : p.isPrefixOf path with
    | true => simp [isDir, on]
    | false => simpa [isDir, on] using dir

theorem safe_create_dirs (path : Path) (post : Except IoError Unit → Disk → Prop)
    (failed : ∀ e, post (.error e) disk)
    (made : path.inits.any (isFile disk.tree) = false → ∀ after, Paved path disk.tree after →
      post (.ok ()) ⟨after, disk.stuck⟩) :
    Safe (admitted callDisk (admits blind tag)) anywhere (createDirAll path) disk post := by
  apply safe_answered callDisk (admits blind tag) anywhere _ disk _ trivial
  intro answer _
  have once : ∀ n, post (callDisk disk (.createDirAll path) (.asIs n)).1
      (callDisk disk (.createDirAll path) (.asIs n)).2 := by
    intro n
    simp only [callDisk, callFs, callAsIs, createDirs, stuckAfter]
    by_cases way : path.inits.any (isFile disk.tree) = true
    · simp only [if_pos way]
      exact failed notADirectory
    · simp only [if_neg way]
      exact made (by simpa using way) _ (paved_dirs path disk.tree
        (no_file_of_inits path disk.tree (by simpa using way)))
  cases answer with
  | asIs n => exact once n
  | fails e => exact failed e
  | cut kept e => exact failed e

theorem safe_nanos (post : Nat → Disk → Prop) (holds : post tag disk) :
    Safe (admitted callDisk (admits blind tag)) anywhere nanos disk post := by
  apply safe_answered callDisk (admits blind tag) anywhere _ disk _ trivial
  intro answer may
  subst may
  exact holds

end Calls

/-! ## The fallback -/

section Fallback

variable (classify : IoError → ReplError) (blind : Bool) (tag : Nat)

theorem safe_try {α : Type} (program : FsProg (Except IoError α)) (disk : Disk)
    (post : Except ReplError α → Disk → Prop)
    (safe : Safe (admitted callDisk (admits blind tag)) anywhere program disk fun result after =>
      post (result.mapError classify) after) :
    Safe (admitted callDisk (admits blind tag)) anywhere (tryFs classify program).run disk post :=
  safe_map _ _ program (Except.mapError classify) disk post safe

/-- The temp file is gone, or could not be removed; nothing else has changed. -/
structure Dropped (tmp : Path) (before after : Disk) : Prop where
  off : ∀ p, p ≠ tmp → after.tree p = before.tree p
  temp : isFile after.tree tmp = true → tmp ∈ after.stuck

theorem drop_temp_spec (tmp : Path) (e : IoError) (disk : Disk) :
    Safe (admitted callDisk (admits blind tag)) anywhere (dropTemp classify tmp e).run disk
      fun result after => result = .error (classify e) ∧ Dropped tmp disk after := by
  rw [dropTemp]
  apply safe_task_bind
  apply safe_always
  apply safe_remove
  · intro failed
    exact ⟨rfl, fun _ _ => rfl, fun _ => List.mem_cons_self⟩
  · intro bytes mtimeMs _
    refine ⟨rfl, fun p other => put_other _ _ _ _ other, fun file => ?_⟩
    simp [isFile, put] at file

theorem safe_or_drop_temp (tmp : Path) (program : FsProg (Except IoError Unit)) (disk : Disk)
    (post : Except ReplError Unit → Disk → Prop)
    (safe : Safe (admitted callDisk (admits blind tag)) anywhere program disk fun result after =>
      (result = .ok () → post (.ok ()) after) ∧
        ∀ e, result = .error e → ∀ dropped, Dropped tmp after dropped →
          post (.error (classify e)) dropped) :
    Safe (admitted callDisk (admits blind tag)) anywhere (orDropTemp classify tmp program).run disk
      post := by
  rw [orDropTemp]
  apply safe_task_bind
  apply safe_always
  apply safe_mono _ _ _ _ _ _ safe
  rintro result after ⟨ended, failed⟩
  cases result with
  | ok u => exact ended rfl
  | error e =>
      apply safe_mono _ _ _ _ _ _ (drop_temp_spec classify blind tag tmp e after)
      rintro result dropped ⟨rfl, gone⟩
      exact failed e rfl dropped gone

/-- The temp file with these bytes got the target's name, or was dropped. -/
structure Published (tmp target : Path) (bytes : Bytes) (before : Disk)
    (result : Except ReplError Unit) (after : Disk) : Prop where
  off : ∀ p, p ≠ tmp → p ≠ target → after.tree p = before.tree p
  done : result = .ok () →
    after.tree target = some (.file bytes 0) ∧ after.tree tmp = none
  dropped : ∀ e, result = .error e → isFile after.tree tmp = true → tmp ∈ after.stuck

theorem rename_published (tmp target : Path) (bytes : Bytes) (mtimeMs : Int) (before disk : Disk)
    (apart : tmp ≠ target) (here : before.tree tmp = some (.file bytes 0))
    (same : ∀ p, p ≠ target → disk.tree p = before.tree p) (found : Bytes)
    (file : disk.tree tmp = some (.file found mtimeMs)) :
    Published tmp target bytes before (.ok ())
      ⟨put (put disk.tree tmp none) target (some (.file found mtimeMs)), disk.stuck⟩ := by
  rw [same tmp apart, here, Option.some.injEq, Node.file.injEq] at file
  obtain ⟨rfl, rfl⟩ := file
  constructor
  · intro p off_temp off_target
    show put (put disk.tree tmp none) target _ p = _
    rw [put_other _ _ _ _ off_target, put_other _ _ _ _ off_temp]
    exact same p off_target
  · intro _
    exact ⟨by simp [put], by simp [put, apart]⟩
  · intro e failed
    cases failed

theorem publish_temp_spec (tmp target : Path) (bytes : Bytes) (disk : Disk)
    (apart : tmp ≠ target) (here : disk.tree tmp = some (.file bytes 0)) :
    Safe (admitted callDisk (admits blind tag)) anywhere (publishTemp classify tmp target).run disk
      (Published tmp target bytes disk) := by
  -- what a failed step leaves, from any tree that differs at the target only
  have dropped : ∀ now after : Disk, (∀ p, p ≠ target → now.tree p = disk.tree p) →
      Dropped tmp now after → ∀ e, Published tmp target bytes disk (.error e) after := by
    intro now after same gone e
    refine ⟨fun p off_temp off_target => ?_, fun ended => (by cases ended), fun _ _ => gone.temp⟩
    rw [gone.off p off_temp]
    exact same p off_target
  have again : ∀ now : Disk, (∀ p, p ≠ target → now.tree p = disk.tree p) →
      Safe (admitted callDisk (admits blind tag)) anywhere
        (orDropTemp classify tmp (rename tmp target)).run now (Published tmp target bytes disk) := by
    intro now same
    apply safe_or_drop_temp
    apply safe_rename
    · intro e
      exact ⟨fun ended => (by cases ended), fun _ _ after gone => dropped now after same gone _⟩
    · intro found mtimeMs file
      exact ⟨fun _ => rename_published tmp target bytes mtimeMs disk now apart here same found file,
        fun _ failed => (by cases failed)⟩
  rw [publishTemp]
  apply safe_task_bind
  apply safe_always
  apply safe_rename
  · intro e
    show Safe _ _ ((removeExisting classify tmp target >>= fun _ =>
      orDropTemp classify tmp (rename tmp target)) : Action Unit).run disk _
    apply safe_task_bind
    rw [removeExisting]
    apply safe_task_bind
    apply safe_always
    apply safe_path_exists
    · intro _
      simp only [if_true]
      apply safe_or_drop_temp
      apply safe_remove
      · intro e
        exact ⟨fun ended => (by cases ended),
          fun _ _ after gone => dropped ⟨disk.tree, target :: disk.stuck⟩ after (fun _ _ => rfl) gone _⟩
      · intro found mtimeMs _
        exact ⟨fun _ => again _ (fun p other => put_other _ _ _ _ other),
          fun _ failed => (by cases failed)⟩
    · intro _
      exact again disk (fun _ _ => rfl)
  · intro found mtimeMs file
    exact rename_published tmp target bytes mtimeMs disk disk apart here (fun _ _ => rfl) found file

/-- What a move to a target has done, from a tree on: the source's file is at the target, or nothing
but the target and the temporary file may have changed. -/
structure Moved (src target tmp : Path) (before : Disk) (result : Except ReplError Path)
    (after : Disk) : Prop where
  off : ∀ p, p ≠ src → p ≠ target → p ≠ tmp → after.tree p = before.tree p
  done : ∀ t, result = .ok t → t = target ∧ ∃ bytes mtimeMs later,
    before.tree src = some (.file bytes mtimeMs) ∧
      (src ≠ target → after.tree target = some (.file bytes later) ∧ after.tree src = none)
  source : ∀ e, result = .error e → src ≠ target → src ≠ tmp → after.tree src = before.tree src
  temp : ∀ e, result = .error e → isFile after.tree tmp = true → tmp ∈ after.stuck
  target : ∀ e, result = .error e →
    isDir before.tree tmp = true ∨ isFile before.tree src = false →
      after.tree target = before.tree target

theorem move_by_copy_spec (src target : Path) (disk : Disk)
    (apart : moveTempPath target tag ≠ target) :
    Safe (admitted callDisk (admits blind tag)) anywhere (moveByCopy classify src target).run disk
      (Moved src target (moveTempPath target tag) disk) := by
  rw [moveByCopy]
  apply safe_task_bind
  apply safe_always
  apply safe_nanos
  show Safe _ _ ((do
    orDropTemp classify (moveTempPath target tag) (copy src (moveTempPath target tag))
    publishTemp classify (moveTempPath target tag) target
    tryFs classify (removeFile src)
    return target) : Action Path).run disk _
  generalize moveTempPath target tag = tmp at apart ⊢
  apply safe_task_bind
  apply safe_or_drop_temp
  apply safe_copy
  · intro e tree same
    refine ⟨fun ended => (by cases ended), fun _ _ after gone => ?_⟩
    have hoff : ∀ p, p ≠ tmp → after.tree p = disk.tree p :=
      fun p other => (gone.off p other).trans (same p other)
    constructor
    · exact fun p _ _ off_temp => hoff p off_temp
    · intro t ended
      cases ended
    · exact fun _ _ _ off_temp => hoff src off_temp
    · exact fun _ _ => gone.temp
    · exact fun _ _ _ => hoff target (Ne.symm apart)
  · intro bytes mtimeMs here no_dir
    refine ⟨fun _ => ?_, fun _ failed => (by cases failed)⟩
    apply safe_task_bind
    have hput : put disk.tree tmp (some (.file bytes 0)) tmp = some (.file bytes 0) := by simp [put]
    apply safe_mono _ _ _ _ _ _
      (publish_temp_spec classify blind tag tmp target bytes
        ⟨put disk.tree tmp (some (.file bytes 0)), disk.stuck⟩ apart hput)
    intro result now published
    have hoff : ∀ p, p ≠ target → p ≠ tmp → now.tree p = disk.tree p :=
      fun p off_target off_temp =>
        (published.off p off_temp off_target).trans (put_other _ _ _ _ off_temp)
    -- the copy was made, so there was a file to copy and no directory at the temp name
    have hcopied : ¬ (isDir disk.tree tmp = true ∨ isFile disk.tree src = false) := by
      rintro (dir | no_file)
      · rw [no_dir] at dir
        cases dir
      · simp [isFile, here] at no_file
    cases result with
    | error e =>
        constructor
        · exact fun p _ off_target off_temp => hoff p off_target off_temp
        · intro t ended
          cases ended
        · exact fun _ _ off_target off_temp => hoff src off_target off_temp
        · exact fun _ _ => published.dropped e rfl
        · exact fun _ _ bad => absurd bad hcopied
    | ok u =>
        obtain ⟨htarget, htemp⟩ := published.done rfl
        apply safe_task_bind
        apply safe_try
        apply safe_remove
        · intro e
          constructor
          · exact fun p _ off_target off_temp => hoff p off_target off_temp
          · intro t ended
            cases ended
          · exact fun _ _ off_target off_temp => hoff src off_target off_temp
          · intro _ _ file
            simp only [isFile, htemp, Bool.false_eq_true] at file
          · exact fun _ _ bad => absurd bad hcopied
        · intro found later _
          constructor
          · intro p off_source off_target off_temp
            show put now.tree src none p = _
            rw [put_other _ _ _ _ off_source]
            exact hoff p off_target off_temp
          · intro t ended
            cases ended
            refine ⟨rfl, bytes, mtimeMs, 0, here, fun off_target => ⟨?_, by simp [put]⟩⟩
            show put now.tree src none target = _
            rw [put_other _ _ _ _ (Ne.symm off_target)]
            exact htarget
          · intro e failed
            cases failed
          · intro e failed
            cases failed
          · intro e failed
            cases failed

def moveTo (src target : Path) : Action Path := do
  match ← always (rename src target) with
  | .ok () => return target
  | .error _ => moveByCopy classify src target

theorem move_to_spec (src target : Path) (disk : Disk)
    (apart : moveTempPath target tag ≠ target) :
    Safe (admitted callDisk (admits blind tag)) anywhere (moveTo classify src target).run disk
      (Moved src target (moveTempPath target tag) disk) := by
  rw [moveTo]
  apply safe_task_bind
  apply safe_always
  apply safe_rename
  · intro e
    exact move_by_copy_spec classify blind tag src target disk apart
  · intro bytes mtimeMs here
    constructor
    · intro p off_source off_target _
      show put (put disk.tree src none) target _ p = _
      rw [put_other _ _ _ _ off_target, put_other _ _ _ _ off_source]
    · intro t ended
      cases ended
      exact ⟨rfl, bytes, mtimeMs, mtimeMs, here, fun off_target =>
        ⟨by simp [put], by simp [put, off_target]⟩⟩
    · intro e failed
      cases failed
    · intro e failed
      cases failed
    · intro e failed
      cases failed

end Fallback

/-! ## The target -/

section Target

variable (classify : IoError → ReplError) (blind : Bool) (tag : Nat)

theorem free_suffixes_among (tree : Tree) (dst : Path) (tried : List Nat) :
    ∀ t ∈ freeSuffixes blind tree dst tried, ∃ i ∈ tried, t = suffixed dst i := by
  induction tried with
  | nil => simp [freeSuffixes]
  | cons i rest ih =>
      intro t ht
      rw [freeSuffixes] at ht
      split at ht
      · rcases List.mem_append.mp ht with here | later
        · split at here
          · exact ⟨i, List.mem_cons_self, List.mem_singleton.mp here⟩
          · cases here
        · obtain ⟨j, hj, same⟩ := ih t later
          exact ⟨j, List.mem_cons_of_mem _ hj, same⟩
      · exact ⟨i, List.mem_cons_self, List.mem_singleton.mp ht⟩

theorem free_suffixes_congr (tree other : Tree) (dst : Path) (tried : List Nat)
    (same : ∀ i ∈ tried, tree (suffixed dst i) = other (suffixed dst i)) :
    freeSuffixes blind tree dst tried = freeSuffixes blind other dst tried := by
  induction tried with
  | nil => rfl
  | cons i rest ih =>
      rw [freeSuffixes, freeSuffixes, same i List.mem_cons_self,
        ih fun j hj => same j (List.mem_cons_of_mem _ hj)]

theorem choices_congr (tree other : Tree) (dst : Path) (collision : Collision)
    (same : ∀ p ∈ dst :: suffixes.map (suffixed dst), tree p = other p) :
    choices blind tree dst collision = choices blind other dst collision := by
  have hdst := same dst List.mem_cons_self
  have hsuffix := free_suffixes_congr blind tree other dst suffixes
    fun i hi => same _ (List.mem_cons_of_mem _ (List.mem_map_of_mem hi))
  have hfile : isFile tree dst = isFile other dst := by simp only [isFile, hdst]
  unfold choices
  rw [hdst, hsuffix, hfile]

theorem free_suffix_spec (disk : Disk) (dst : Path) (tried : List Nat) :
    Safe (admitted callDisk (admits blind tag)) anywhere (freeSuffix dst tried).run disk
      fun result after => after = disk ∧
        ∀ t, result = .ok t → t ∈ freeSuffixes blind disk.tree dst tried := by
  induction tried with
  | nil =>
      refine ⟨rfl, fun t ended => ?_⟩
      cases ended
  | cons i rest ih =>
      rw [freeSuffix]
      apply safe_task_bind
      apply safe_always
      apply safe_path_exists
      · intro seen
        simp only [if_true]
        apply safe_mono _ _ _ _ _ _ ih
        rintro result after ⟨same, among⟩
        refine ⟨same, fun t ended => ?_⟩
        rw [freeSuffixes, if_pos seen]
        exact List.mem_append_right _ (among t ended)
      · intro unseen
        refine ⟨rfl, fun t ended => ?_⟩
        cases ended
        rw [freeSuffixes]
        split
        · rename_i seen
          rcases unseen with rfl | absent
          · exact List.mem_append_left _ List.mem_cons_self
          · simp [absent] at seen
        · exact List.mem_cons_self

/-- The tree is as it was, but for the file that an overwriting move has removed. -/
def Cleared (collision : Collision) (dst t : Path) (before after : Tree) : Prop :=
  after = before ∨ collision = .overwrite ∧ t = dst ∧ isFile before dst = true ∧
    after = put before dst none

theorem resolve_spec (disk : Disk) (dst : Path) (collision : Collision) :
    Safe (admitted callDisk (admits blind tag)) anywhere
      (resolveCollision classify dst collision).run disk fun result after =>
        (∀ e, result = .error e → after.tree = disk.tree) ∧
          ∀ t, result = .ok t → t ∈ choices blind disk.tree dst collision ∧
            Cleared collision dst t disk.tree after.tree := by
  unfold resolveCollision
  apply safe_task_bind
  apply safe_always
  apply safe_path_exists
  · intro seen
    simp only [if_true]
    cases collision with
    | overwrite =>
        apply safe_task_bind
        apply safe_try
        apply safe_remove
        · intro e
          exact ⟨fun _ _ => rfl, fun t ended => (by cases ended)⟩
        · intro bytes mtimeMs here
          refine ⟨fun e failed => (by cases failed), fun t ended => ?_⟩
          cases ended
          have hfile : isFile disk.tree dst = true := by simp [isFile, here]
          refine ⟨?_, Or.inr ⟨rfl, rfl, hfile, rfl⟩⟩
          rw [choices, if_pos seen, if_pos hfile]
          exact List.mem_append_right _ List.mem_cons_self
    | fail => exact ⟨fun _ _ => rfl, fun t ended => (by cases ended)⟩
    | suffix =>
        apply safe_mono _ _ _ _ _ _ (free_suffix_spec blind tag disk dst suffixes)
        rintro result after ⟨rfl, among⟩
        refine ⟨fun _ _ => rfl, fun t ended => ⟨?_, Or.inl rfl⟩⟩
        rw [choices, if_pos seen]
        exact List.mem_append_right _ (among t ended)
  · intro unseen
    refine ⟨fun e failed => (by cases failed), fun t ended => ?_⟩
    cases ended
    refine ⟨?_, Or.inl rfl⟩
    unfold choices
    split
    · rename_i seen
      rcases unseen with rfl | absent
      · exact List.mem_append_left _ List.mem_cons_self
      · simp [absent] at seen
    · exact List.mem_cons_self

variable (m : Move)

theorem choices_among (tree : Tree) :
    ∀ t ∈ choices blind tree m.dst m.collision, t ∈ m.names := by
  intro t ht
  unfold choices at ht
  have hself : t ∈ [m.dst] → t ∈ m.names := by
    intro here
    rw [List.mem_singleton.mp here]
    exact List.mem_cons_self
  split at ht
  · rcases List.mem_append.mp ht with here | chosen
    · split at here
      · exact hself here
      · cases here
    · split at chosen
      · split at chosen
        · exact hself chosen
        · cases chosen
      · cases chosen
      · obtain ⟨i, hi, rfl⟩ := free_suffixes_among blind tree m.dst suffixes t chosen
        exact List.mem_cons_of_mem _ (List.mem_map_of_mem hi)
  · exact hself ht

theorem targets_among : ∀ t ∈ m.targets blind, t ∈ m.names := by
  intro t ht
  rw [Move.targets] at ht
  split at ht
  · cases ht
  · exact choices_among blind m m.before t ht

structure Reached (t : Path) (now : Tree) : Prop where
  back : ∀ p, isFile now p = true → Untouched m.before now p ∧ isFile m.before p = true
  forth : ∀ p, p ≠ t ∨ m.collision ≠ .overwrite → Untouched m.before now p
  dirs : ∀ p, isDir m.before p = true → isDir now p = true

theorem reached_of_cleared (t : Path) (paved now : Tree) (ways : Paved m.dst.dropLast m.before paved)
    (cleared : Cleared m.collision m.dst t paved now) : Reached m t now := by
  rcases cleared with rfl | ⟨policy, rfl, file, rfl⟩
  · constructor
    · exact fun p here => ⟨ways.kept p, (ways.files p).mp here⟩
    · exact fun p _ => ways.kept p
    · exact ways.dirs
  · constructor
    · intro p here
      have hne : p ≠ m.dst := by
        rintro rfl
        simp [isFile, put] at here
      have hfile : isFile paved p = true := by
        simpa only [isFile, put_other _ _ _ _ hne] using here
      refine ⟨fun before => ?_, (ways.files p).mp hfile⟩
      rw [put_other _ _ _ _ hne]
      exact ways.kept p before
    · intro p apart before
      have hne : p ≠ m.dst := apart.resolve_right fun other => other policy
      rw [put_other _ _ _ _ hne]
      exact ways.kept p before
    · intro p dir
      have hne : p ≠ m.dst := by
        rintro rfl
        have hdir := ways.dirs _ dir
        rw [isDir, decide_eq_true_eq] at hdir
        simp [isFile, hdir] at file
      have hdir := ways.dirs p dir
      rw [isDir, put_other _ _ _ _ hne]
      exact hdir

theorem name_off_the_way (below : m.dst ≠ []) (p : Path) (member : p ∈ m.names) :
    ¬ p <+: m.dst.dropLast := by
  apply off_the_way p _ (name_parent m p member)
  rcases List.mem_cons.mp member with rfl | suffix
  · exact below
  · obtain ⟨i, _, rfl⟩ := List.mem_map.mp suffix
    obtain ⟨name, same, _⟩ := suffixed_eq m.dst i
    rw [same]
    simp [withFileName]

/-- A move ends before it has a target, with the files as they were, or moves to one. -/
theorem move_file_spec :
    Safe (admitted callDisk (admits blind tag)) anywhere
      (moveFile classify m.src m.dst m.collision).run m.start fun result after =>
        ((∃ e, result = .error e) ∧ ∀ p, Untouched m.before after.tree p ∧
            (isFile after.tree p = true → isFile m.before p = true)) ∨
          ∃ t ∈ m.targets blind, ∃ now, Reached m t now.tree ∧
            Moved m.src t (moveTempPath t tag) now result after := by
  have settle : ∀ paved : Disk, Paved m.dst.dropLast m.before paved.tree →
      m.dst.dropLast.inits.any (isFile m.before) = false →
      (∀ p ∈ m.names, paved.tree p = m.before p) →
      Safe (admitted callDisk (admits blind tag)) anywhere
        ((resolveCollision classify m.dst m.collision >>= fun t =>
          moveTo classify m.src t) : Action Path).run paved fun result after =>
        ((∃ e, result = .error e) ∧ ∀ p, Untouched m.before after.tree p ∧
            (isFile after.tree p = true → isFile m.before p = true)) ∨
          ∃ t ∈ m.targets blind, ∃ now, Reached m t now.tree ∧
            Moved m.src t (moveTempPath t tag) now result after := by
    intro paved ways clear same
    apply safe_task_bind
    apply safe_mono _ _ _ _ _ _ (resolve_spec classify blind tag paved m.dst m.collision)
    rintro result now ⟨failed, settled⟩
    cases result with
    | error e =>
        left
        rw [failed e rfl]
        exact ⟨⟨e, rfl⟩, fun p => ⟨ways.kept p, (ways.files p).mp⟩⟩
    | ok t =>
        obtain ⟨chosen, cleared⟩ := settled t rfl
        rw [choices_congr blind paved.tree m.before m.dst m.collision same] at chosen
        have member : t ∈ m.names := choices_among blind m m.before t chosen
        apply safe_mono _ _ _ _ _ _ (move_to_spec classify blind tag m.src t now
          (temp_ne_name m t t tag member member))
        intro result after moved
        right
        refine ⟨t, ?_, now, reached_of_cleared m t paved.tree now.tree ways cleared, moved⟩
        rw [Move.targets, clear]
        exact chosen
  show Safe _ _ ((createParent classify m.dst >>= fun _ =>
    resolveCollision classify m.dst m.collision >>= fun t => moveTo classify m.src t) :
      Action Path).run m.start _
  apply safe_task_bind
  rw [createParent]
  by_cases top : m.dst = []
  · rw [if_pos top]
    apply settle m.start (paved_refl _ _) _ fun _ _ => rfl
    have hroot : isFile m.before [] = false := by
      have hdir := m.root
      rw [isDir, decide_eq_true_eq] at hdir
      simp [isFile, hdir]
    simp [top, hroot]
  · rw [if_neg top]
    apply safe_try
    apply safe_create_dirs
    · intro e
      left
      exact ⟨⟨_, rfl⟩, fun p => ⟨fun _ => rfl, fun file => file⟩⟩
    · intro clear paved ways
      exact settle ⟨paved, _⟩ ways clear fun p member => ways.off p (name_off_the_way m top p member)

end Target

/-! ## When the laws hold -/

section Holds

variable (classify : IoError → ReplError) (blind : Bool) (tag : Nat) (m : Move)

theorem is_file_of (tree : Tree) (p : Path) (bytes : Bytes) (mtimeMs : Int)
    (here : tree p = some (.file bytes mtimeMs)) : isFile tree p = true := by
  simp [isFile, here]

theorem file_of_is_file (tree : Tree) (p : Path) (file : isFile tree p = true) :
    ∃ bytes mtimeMs, tree p = some (.file bytes mtimeMs) := by
  unfold isFile at file
  split at file
  · exact ⟨_, _, ‹_›⟩
  · cases file

/-- What the file is moved to is no file, where names are looked at truthfully. -/
theorem seen_targets_free (t : Path) (member : t ∈ m.targets false)
    (policy : m.collision ≠ .overwrite) : isFile m.before t = false := by
  have hfree : ∀ tried, t ∈ freeSuffixes false m.before m.dst tried → isFile m.before t = false := by
    intro tried
    induction tried with
    | nil => intro ht; cases ht
    | cons i rest ih =>
        intro ht
        rw [freeSuffixes] at ht
        split at ht
        · exact ih ht
        · rename_i absent
          rw [List.mem_singleton.mp ht, isFile]
          simp at absent
          simp [absent]
  rw [Move.targets] at member
  unfold choices at member
  simp only [Bool.false_eq_true, if_false, List.nil_append] at member
  split at member
  · cases member
  · split at member
    · split at member
      · rename_i overwrites
        exact absurd overwrites policy
      · cases member
      · exact hfree suffixes member
    · rename_i absent
      rw [List.mem_singleton.mp member, isFile]
      simp at absent
      simp [absent]

/-- No target of the move is the source or has the source or a kept file at its temp name. -/
def Move.Clear : Prop :=
  ∀ t ∈ m.targets false,
    (isFile m.before m.src = true → t ≠ m.src) ∧
      (isFile m.before (moveTempPath t tag) = true →
        m.collision = .overwrite ∧ moveTempPath t tag ≠ m.src)

theorem conserves_of_clear (clear : m.Clear tag) (t : Path) (member : t ∈ m.targets false)
    (now after : Disk) (result : Except ReplError Path) (reached : Reached m t now.tree)
    (moved : Moved m.src t (moveTempPath t tag) now result after) :
    m.Conserves result after.tree := by
  obtain ⟨apart, temp⟩ := clear t member
  have htemp : isFile m.before m.src = true → m.src ≠ moveTempPath t tag := by
    intro file same
    exact (temp (same ▸ file)).2 same.symm
  constructor
  · intro target ended
    obtain ⟨rfl, bytes, mtimeMs, later, here, placed⟩ := moved.done target ended
    obtain ⟨hsame, hfile⟩ := reached.back m.src (is_file_of _ _ _ _ here)
    obtain ⟨hplaced, hgone⟩ := placed (Ne.symm (apart hfile))
    refine ⟨hfile, ?_, hgone⟩
    have hbefore := (hsame hfile).symm.trans here
    simp [fileBytes, hplaced, hbefore]
  · intro e failed file
    have hsource := moved.source e failed (Ne.symm (apart file)) (htemp file)
    rw [hsource]
    exact reached.forth m.src (Or.inl (Ne.symm (apart file))) file
  · intro policy p _ other file
    have hne : p ≠ t := by
      rintro rfl
      rw [seen_targets_free m p member policy] at file
      cases file
    have hne_temp : p ≠ moveTempPath t tag := by
      rintro rfl
      exact policy (temp file).1
    rw [moved.off p other hne hne_temp]
    exact reached.forth p (Or.inr policy) file

/-- No target of the move has a file at its temp name, and none is a file that the move may lose. -/
def Move.Spares : Prop :=
  ∀ t ∈ m.targets blind,
    isFile m.before (moveTempPath t tag) = false ∧
      (isFile m.before t = true →
        m.collision ≠ .overwrite ∧
          (isDir m.before (moveTempPath t tag) = true ∨ isFile m.before m.src = false))

theorem leaves_alone_of_spares (spares : m.Spares blind tag) (t : Path)
    (member : t ∈ m.targets blind) (now after : Disk) (result : Except ReplError Path)
    (reached : Reached m t now.tree)
    (moved : Moved m.src t (moveTempPath t tag) now result after) :
    m.LeavesAlone tag result after := by
  obtain ⟨no_temp, kept⟩ := spares t member
  have hnot : ∀ p, isFile m.before p = false → isFile now.tree p = false := by
    intro p absent
    rw [Bool.eq_false_iff]
    intro file
    rw [(reached.back p file).2] at absent
    cases absent
  have hfile : ∀ e, result = .error e → ∀ p, isFile m.before p = true →
      after.tree p = m.before p := by
    intro e failed p file
    have hne_temp : p ≠ moveTempPath t tag := by
      rintro rfl
      rw [no_temp] at file
      cases file
    by_cases at_target : p = t
    · subst at_target
      obtain ⟨policy, blocked⟩ := kept file
      have hblocked := moved.target e failed (blocked.imp (reached.dirs _) (hnot m.src))
      rw [hblocked]
      exact reached.forth p (Or.inr policy) file
    · have hsame : after.tree p = now.tree p := by
        by_cases at_source : p = m.src
        · subst at_source
          exact moved.source e failed at_target hne_temp
        · exact moved.off p at_source at_target hne_temp
      rw [hsame]
      exact reached.forth p (Or.inl at_target) file
  constructor
  · exact fun e failed p _ => hfile e failed p
  · intro e failed target among file
    by_cases same : moveTempPath target tag = moveTempPath t tag
    · rw [same] at file ⊢
      exact Or.inr (moved.temp e failed file)
    · left
      have hname : moveTempPath target tag ≠ t :=
        temp_ne_name m target t tag among (targets_among blind m t member)
      have hsame : after.tree (moveTempPath target tag) = now.tree (moveTempPath target tag) := by
        by_cases at_source : moveTempPath target tag = m.src
        · rw [at_source] at hname same ⊢
          exact moved.source e failed (fun h => hname h) (fun h => same h)
        · exact moved.off _ at_source hname same
      have hnow : isFile now.tree (moveTempPath target tag) = true := by
        rw [isFile, hsame] at file
        exact file
      exact (reached.back _ hnow).2

end Holds

/-! ## What may go wrong

The same calls, with the answers that lose a file. -/

section Wrong

variable (classify : IoError → ReplError) (blind : Bool) (tag : Nat)

def crossDevice : IoError := ⟨.other, "Invalid cross-device link (os error 18)"⟩

theorem may_call (operation : FsOp) (disk : Disk) (answer : FsAnswer)
    (post : FsRet operation → Disk → Prop) (may : admits blind tag disk operation answer)
    (holds : post (callDisk disk operation answer).1 (callDisk disk operation answer).2) :
    May (admitted callDisk (admits blind tag)) (Prog.perform operation) disk post :=
  may_perform _ operation disk _ _ post ⟨answer, may, rfl⟩ holds

theorem may_path_exists (path : Path) (disk : Disk) (post : Bool → Disk → Prop)
    (holds : post (disk.tree path).isSome disk) :
    May (admitted callDisk (admits blind tag)) (pathExists path) disk post :=
  may_call blind tag (.pathExists path) disk (.asIs 0) post (Or.inr ⟨0, rfl⟩) holds

theorem may_overlook (path : Path) (disk : Disk) (post : Bool → Disk → Prop)
    (unsure : blind = true) (holds : post false disk) :
    May (admitted callDisk (admits blind tag)) (pathExists path) disk post :=
  may_call blind tag (.pathExists path) disk (.fails crossDevice) post (Or.inl unsure) holds

theorem may_remove (path : Path) (disk : Disk) (bytes : Bytes) (mtimeMs : Int)
    (post : Except IoError Unit → Disk → Prop) (here : disk.tree path = some (.file bytes mtimeMs))
    (holds : post (.ok ()) ⟨put disk.tree path none, disk.stuck⟩) :
    May (admitted callDisk (admits blind tag)) (removeFile path) disk post := by
  apply may_call blind tag (.removeFile path) disk (.asIs 0) post trivial
  have hout : removeFileAt disk.tree path = (.ok (), put disk.tree path none) := by
    simp [removeFileAt, here]
  simp only [callDisk, callFs, callAsIs, hout, stuckAfter]
  exact holds

theorem may_free_suffix (disk : Disk) (dst t : Path) (tried : List Nat)
    (member : t ∈ freeSuffixes blind disk.tree dst tried) :
    May (admitted callDisk (admits blind tag)) (freeSuffix dst tried).run disk
      fun result after => result = .ok t ∧ after = disk := by
  induction tried with
  | nil => cases member
  | cons i rest ih =>
      rw [freeSuffixes] at member
      rw [freeSuffix]
      apply may_task_bind
      apply may_always
      cases seen : (disk.tree (suffixed dst i)).isSome with
      | true =>
          rw [if_pos seen] at member
          rcases List.mem_append.mp member with here | later
          · by_cases unsure : blind = true
            · rw [if_pos unsure] at here
              apply may_overlook blind tag _ disk _ unsure
              exact ⟨congrArg Except.ok (List.mem_singleton.mp here).symm, rfl⟩
            · rw [if_neg unsure] at here
              cases here
          · apply may_path_exists
            rw [seen]
            exact ih later
      | false =>
          rw [if_neg (by simp [seen])] at member
          apply may_path_exists
          rw [seen]
          exact ⟨congrArg Except.ok (List.mem_singleton.mp member).symm, rfl⟩

/-- Every choice may be made; a file in its way has been removed where the policy overwrites. -/
theorem may_resolve (disk : Disk) (dst t : Path) (collision : Collision)
    (member : t ∈ choices blind disk.tree dst collision) :
    May (admitted callDisk (admits blind tag)) (resolveCollision classify dst collision).run disk
      fun result after => result = .ok t ∧ Cleared collision dst t disk.tree after.tree ∧
        (collision = .overwrite → isFile after.tree t = false) := by
  unfold choices at member
  unfold resolveCollision
  apply may_task_bind
  apply may_always
  -- the name itself, without a file that the policy would remove
  have plain : t = dst → (collision = .overwrite → isFile disk.tree dst = false) →
      May (admitted callDisk (admits blind tag))
        (pure dst : Action Path).run disk fun result after =>
          result = .ok t ∧ Cleared collision dst t disk.tree after.tree ∧
            (collision = .overwrite → isFile after.tree t = false) := by
    rintro rfl clear
    exact ⟨rfl, Or.inl rfl, clear⟩
  cases seen : (disk.tree dst).isSome with
  | false =>
      rw [if_neg (by simp [seen])] at member
      apply may_path_exists
      rw [seen]
      apply plain (List.mem_singleton.mp member)
      intro _
      simp only [Option.isSome_eq_false_iff, Option.isNone_iff_eq_none] at seen
      simp [isFile, seen]
  | true =>
      rw [if_pos seen] at member
      by_cases removes : collision = .overwrite ∧ isFile disk.tree dst = true
      · obtain ⟨rfl, file⟩ := removes
        have ht : t = dst := by
          rcases List.mem_append.mp member with here | chosen
          · split at here
            · exact List.mem_singleton.mp here
            · cases here
          · rw [if_pos file] at chosen
            exact List.mem_singleton.mp chosen
        apply may_path_exists
        rw [seen]
        apply may_task_bind
        apply may_bind
        obtain ⟨bytes, mtimeMs, here⟩ := file_of_is_file disk.tree dst file
        apply may_remove blind tag dst disk bytes mtimeMs _ here
        subst ht
        exact ⟨rfl, Or.inr ⟨rfl, rfl, file, rfl⟩, fun _ => by simp [isFile, put]⟩
      · rcases List.mem_append.mp member with here | chosen
        · by_cases unsure : blind = true
          · rw [if_pos unsure] at here
            apply may_overlook blind tag _ disk _ unsure
            apply plain (List.mem_singleton.mp here)
            intro policy
            simpa using fun file => removes ⟨policy, file⟩
          · rw [if_neg unsure] at here
            cases here
        · apply may_path_exists
          rw [seen]
          cases collision with
          | overwrite =>
              have hfile : isFile disk.tree dst = false := by
                simpa using fun file => removes ⟨rfl, file⟩
              simp [hfile] at chosen
          | fail => cases chosen
          | suffix =>
              apply may_mono _ _ _ _ _ (may_free_suffix blind tag disk dst t suffixes chosen)
              rintro result after ⟨rfl, rfl⟩
              exact ⟨rfl, Or.inl rfl, fun policy => by cases policy⟩

variable (m : Move)

structure Ready (t : Path) (now : Tree) : Prop extends Reached m t now where
  parent : isDir now m.dst.dropLast = true
  beside : ∀ p, p.dropLast = m.dst.dropLast → p ≠ [] → p ≠ t → now p = m.before p
  gone : m.collision = .overwrite → isFile now t = false

theorem ready_of_cleared (t : Path) (paved now : Tree) (ways : Paved m.dst.dropLast m.before paved)
    (dir : isDir paved m.dst.dropLast = true)
    (cleared : Cleared m.collision m.dst t paved now)
    (gone : m.collision = .overwrite → isFile now t = false) : Ready m t now := by
  have hreached := reached_of_cleared m t paved now ways cleared
  have hpaved : ∀ p, p.dropLast = m.dst.dropLast → p ≠ [] → paved p = m.before p :=
    fun p parent below => ways.off p (off_the_way p _ parent below)
  rcases cleared with rfl | ⟨_, rfl, file, rfl⟩
  · exact ⟨hreached, dir, fun p parent below _ => hpaved p parent below, gone⟩
  · refine ⟨hreached, ?_, fun p parent below other => ?_, gone⟩
    · have hne : m.dst.dropLast ≠ m.dst := by
        intro same
        rw [same, isDir, decide_eq_true_eq] at dir
        simp [isFile, dir] at file
      rw [isDir, put_other _ _ _ _ hne]
      exact dir
    · rw [put_other _ _ _ _ other]
      exact hpaved p parent below

theorem may_reach (t : Path) (member : t ∈ m.targets blind)
    (post : Except ReplError Path → Disk → Prop)
    (holds : ∀ now : Disk, Ready m t now.tree →
      May (admitted callDisk (admits blind tag)) (moveTo classify m.src t).run now post) :
    May (admitted callDisk (admits blind tag)) (moveFile classify m.src m.dst m.collision).run
      m.start post := by
  rw [Move.targets] at member
  split at member
  · cases member
  rename_i clear
  have settle : ∀ paved : Disk, Paved m.dst.dropLast m.before paved.tree →
      isDir paved.tree m.dst.dropLast = true → (∀ p ∈ m.names, paved.tree p = m.before p) →
      May (admitted callDisk (admits blind tag))
        ((resolveCollision classify m.dst m.collision >>= fun t =>
          moveTo classify m.src t) : Action Path).run paved post := by
    intro paved ways dir same
    rw [← choices_congr blind paved.tree m.before m.dst m.collision same] at member
    apply may_task_bind
    apply may_mono _ _ _ _ _ (may_resolve classify blind tag paved m.dst t m.collision member)
    rintro result now ⟨rfl, cleared, gone⟩
    exact holds now (ready_of_cleared m t paved.tree now.tree ways dir cleared gone)
  show May _ ((createParent classify m.dst >>= fun _ =>
    resolveCollision classify m.dst m.collision >>= fun t => moveTo classify m.src t) :
      Action Path).run m.start _
  apply may_task_bind
  rw [createParent]
  by_cases top : m.dst = []
  · rw [if_pos top]
    exact settle m.start (paved_refl _ _) (by simpa [top, Move.start] using m.root) fun _ _ => rfl
  · rw [if_neg top]
    have hways := paved_dirs m.dst.dropLast m.before
      (no_file_of_inits m.dst.dropLast m.before (by simpa using clear))
    have hmade : createDirs m.before m.dst.dropLast =
        (.ok (), fun p => if p.isPrefixOf m.dst.dropLast then some .dir else m.before p) :=
      if_neg clear
    apply may_bind
    apply may_call blind tag (.createDirAll m.dst.dropLast) m.start (.asIs 0) _ trivial
    simp only [callDisk, callFs, callAsIs, Move.start, hmade]
    refine settle ⟨_, []⟩ hways ?_ fun p member => hways.off p (name_off_the_way m top p member)
    simp [isDir]

/-- The rename fails and so does the copy: the temp file is removed, whatever it was. -/
theorem may_lose_temp (src t : Path) (now : Disk) :
    May (admitted callDisk (admits blind tag)) (moveTo classify src t).run now fun result after =>
      (∃ e, result = .error e) ∧ isFile after.tree (moveTempPath t tag) = false ∧
        ∀ p, p ≠ moveTempPath t tag → after.tree p = now.tree p := by
  rw [moveTo]
  apply may_task_bind
  apply may_always
  apply may_call blind tag (.rename src t) now (.fails crossDevice) _ trivial
  show May _ (moveByCopy classify src t).run now _
  rw [moveByCopy]
  apply may_task_bind
  apply may_always
  apply may_call blind tag .nanos now (.asIs tag) _ rfl
  apply may_task_bind
  apply may_bind
  apply may_bind
  apply may_call blind tag (.copy src (moveTempPath t tag)) now (.fails crossDevice) _ trivial
  show May _ (dropTemp classify (moveTempPath t tag) crossDevice).run now _
  rw [dropTemp]
  apply may_task_bind
  apply may_always
  cases file : isFile now.tree (moveTempPath t tag) with
  | true =>
      obtain ⟨bytes, mtimeMs, here⟩ := file_of_is_file now.tree _ file
      apply may_remove blind tag _ now bytes mtimeMs _ here
      exact ⟨⟨_, rfl⟩, by simp [isFile, put], fun p other => put_other _ _ _ _ other⟩
  | false =>
      apply may_call blind tag (.removeFile (moveTempPath t tag)) now (.fails crossDevice) _ trivial
      exact ⟨⟨_, rfl⟩, file, fun _ _ => rfl⟩

/-- The renames fail and the copy does not: the target was removed for the second of them. -/
theorem may_lose_target (src t : Path) (now : Disk) (apart : moveTempPath t tag ≠ t)
    (source : isFile now.tree src = true) (file : isFile now.tree t = true)
    (no_dir : isDir now.tree (moveTempPath t tag) = false)
    (parent : isDir now.tree (moveTempPath t tag).dropLast = true) :
    May (admitted callDisk (admits blind tag)) (moveTo classify src t).run now fun result after =>
      (∃ e, result = .error e) ∧ after.tree t = none := by
  obtain ⟨bytes, mtimeMs, here⟩ := file_of_is_file now.tree src source
  obtain ⟨lost, lostMs, there⟩ := file_of_is_file now.tree t file
  rw [moveTo]
  apply may_task_bind
  apply may_always
  apply may_call blind tag (.rename src t) now (.fails crossDevice) _ trivial
  show May _ (moveByCopy classify src t).run now _
  rw [moveByCopy]
  apply may_task_bind
  apply may_always
  apply may_call blind tag .nanos now (.asIs tag) _ rfl
  show May _ ((do
    orDropTemp classify (moveTempPath t tag) (copy src (moveTempPath t tag))
    publishTemp classify (moveTempPath t tag) t
    tryFs classify (removeFile src)
    return t) : Action Path).run now _
  generalize moveTempPath t tag = tmp at apart no_dir parent ⊢
  have hcopied : copyFile now.tree src tmp none =
      (.ok (), put now.tree tmp (some (.file bytes 0))) := by
    simp [copyFile, here, makeFile, writable, no_dir, parent]
  have htarget : put now.tree tmp (some (.file bytes 0)) t = some (.file lost lostMs) := by
    rw [put_other _ _ _ _ (Ne.symm apart)]
    exact there
  apply may_task_bind
  apply may_bind
  apply may_bind
  apply may_call blind tag (.copy src tmp) now (.asIs 0) _ trivial
  simp only [callDisk, callFs, callAsIs, hcopied, stuckAfter]
  apply may_task_bind
  rw [publishTemp]
  apply may_task_bind
  apply may_always
  apply may_call blind tag (.rename tmp t) _ (.fails crossDevice) _ trivial
  show May _ ((removeExisting classify tmp t >>= fun _ =>
    orDropTemp classify tmp (rename tmp t)) : Action Unit).run
      (Disk.mk (put now.tree tmp (some (.file bytes 0))) now.stuck) _
  apply may_task_bind
  rw [removeExisting]
  apply may_task_bind
  apply may_always
  apply may_path_exists
  simp only [htarget, Option.isSome_some, if_true]
  apply may_bind
  apply may_bind
  apply may_remove blind tag t _ lost lostMs _ htarget
  apply may_bind
  apply may_bind
  apply may_call blind tag (.rename tmp t) _ (.fails crossDevice) _ trivial
  show May _ (dropTemp classify tmp crossDevice).run
    (Disk.mk (put (put now.tree tmp (some (.file bytes 0))) t none) now.stuck) _
  rw [dropTemp]
  apply may_task_bind
  apply may_always
  apply may_call blind tag (.removeFile tmp) _ (.fails crossDevice) _ trivial
  show (∃ e, (Except.error (classify crossDevice) : Except ReplError Path) = .error e) ∧
    put (put now.tree tmp (some (.file bytes 0))) t none t = none
  exact ⟨⟨_, rfl⟩, by simp [put]⟩

end Wrong

/-! ## The laws -/

section Laws

variable (classify : IoError → ReplError) (blind : Bool) (tag : Nat) (m : Move)

theorem bad_run (post : Except ReplError Path → Disk → Prop)
    (may : May (admitted callDisk (admits blind tag))
      (moveFile classify m.src m.dst m.collision).run m.start post) :
    ∃ script, m.Answered classify blind tag script ∧ ∃ result,
      (m.run classify script).1 = some result ∧ post result (m.run classify script).2 :=
  may_execute callDisk (admits blind tag) _ _ post may

/-- The source is at the target after a move that succeeds and at its place after one that fails,
and no other file is lost, if and only if no target is the source or has the source or a kept file
at its temp name. -/
theorem conserves_iff :
    (∀ script, m.Answered classify false tag script → ∀ result,
      (m.run classify script).1 = some result → m.Conserves result (m.run classify script).2.tree) ↔
      m.Clear tag := by
  constructor
  · intro law t member
    have member_names := targets_among false m t member
    have lost : ∀ p, isFile m.before p = true →
        (∀ now after : Disk, Ready m t now.tree →
          isFile after.tree (moveTempPath t tag) = false →
          (∀ q, q ≠ moveTempPath t tag → after.tree q = now.tree q) → isFile after.tree p = false) →
        (p = m.src ∨ m.collision ≠ .overwrite ∧ p.dropLast = m.dst.dropLast) → False := by
      intro p file gone reason
      obtain ⟨script, answered, result, ended, now, ready, ⟨e, rfl⟩, temp, rest⟩ :=
        bad_run classify false tag m
          (fun result after => ∃ now : Disk, Ready m t now.tree ∧ (∃ e, result = .error e) ∧
            isFile after.tree (moveTempPath t tag) = false ∧
            ∀ q, q ≠ moveTempPath t tag → after.tree q = now.tree q)
          (may_reach classify false tag m t member _ fun now ready =>
            may_mono _ _ _ _ _ (may_lose_temp classify false tag m.src t now)
              fun _ _ bad => ⟨now, ready, bad⟩)
      have holds := law script answered _ ended
      have hkept : Untouched m.before (m.run classify script).2.tree p := by
        by_cases at_source : p = m.src
        · exact at_source ▸ holds.stayed e rfl
        · obtain ⟨policy, parent⟩ := reason.resolve_left at_source
          exact holds.others policy p parent at_source
      have hgone := gone now _ ready temp rest
      rw [isFile, hkept file, ← isFile, file] at hgone
      cases hgone
    constructor
    · intro file same
      subst same
      have policy : m.collision = .overwrite := by
        by_contra other
        rw [seen_targets_free m _ member other] at file
        cases file
      apply lost m.src file _ (Or.inl rfl)
      intro now after ready _ rest
      have hne := temp_ne_name m m.src m.src tag member_names member_names
      rw [isFile, rest m.src (Ne.symm hne)]
      exact ready.gone policy
    · intro file
      by_contra bad
      rw [not_and_or, not_not] at bad
      apply lost _ file (fun _ _ _ temp _ => temp)
      by_cases at_source : moveTempPath t tag = m.src
      · exact Or.inl at_source
      · refine Or.inr ⟨bad.resolve_right at_source, ?_⟩
        rw [temp_parent, name_parent m t member_names]
  · intro clear script answered result ended
    obtain ⟨_, hpost⟩ := safe_execute callDisk (admits false tag) anywhere _ _ _ script
      (move_file_spec classify false tag m) answered
    rcases hpost result ended with ⟨⟨e, rfl⟩, same⟩ | ⟨t, member, now, reached, moved⟩
    · constructor
      · intro target ended
        cases ended
      · exact fun _ _ => (same m.src).1
      · exact fun _ p _ _ => (same p).1
    · exact conserves_of_clear tag m clear t member now _ result reached moved

/-- An archive that is the source's own place: the source makes room for itself. -/
def ontoItself : Move where
  src := ["in", "a.csv"]
  dst := ["in", "a.csv"]
  collision := .overwrite
  before := put (put (put (fun _ => none) [] (some .dir)) ["in"] (some .dir))
    ["in", "a.csv"] (some (.file [1] 0))
  root := by decide
  source := by decide

/-- Every call does what it does; the fifth reads the clock. -/
def calm : List FsAnswer := List.replicate 7 (.asIs 17)

theorem source_lost :
    ¬ ∀ script, ontoItself.Answered classifyCleanupIo false 17 script → ∀ result,
      (ontoItself.run classifyCleanupIo script).1 = some result →
        ontoItself.Conserves result (ontoItself.run classifyCleanupIo script).2.tree := by
  intro law
  have answered : ontoItself.Answered classifyCleanupIo false 17 calm :=
    ⟨trivial, Or.inr ⟨17, rfl⟩, trivial, trivial, rfl, trivial, trivial, trivial⟩
  have ended : ∃ e, (ontoItself.run classifyCleanupIo calm).1 = some (.error e) := ⟨_, rfl⟩
  obtain ⟨e, ended⟩ := ended
  have stayed := (law calm answered _ ended).stayed e rfl (by decide)
  have gone : (ontoItself.run classifyCleanupIo calm).2.tree ontoItself.src = none := by
    decide
  rw [gone] at stayed
  exact absurd stayed (by decide)

/-- A move that fails leaves every file below the target's directory and no temp file that it could
remove, if and only if no target has a file at its temp name or is a file that the move may lose. -/
theorem leaves_alone_iff :
    (∀ script, m.Answered classify blind tag script → ∀ result,
      (m.run classify script).1 = some result →
        m.LeavesAlone tag result (m.run classify script).2) ↔
      m.Spares blind tag := by
  constructor
  · intro law t member
    have member_names := targets_among blind m t member
    have hne := temp_ne_name m t t tag member_names member_names
    have hparent : (moveTempPath t tag).dropLast = m.dst.dropLast := by
      rw [temp_parent, name_parent m t member_names]
    have hbelow : ∀ p, p.dropLast = m.dst.dropLast → m.dst.dropLast <+: p :=
      fun p parent => parent ▸ List.dropLast_prefix p
    -- no run that fails may end without a file that was there
    have kept : ∀ p, m.dst.dropLast <+: p → isFile m.before p = true →
        ¬ May (admitted callDisk (admits blind tag))
          (moveFile classify m.src m.dst m.collision).run m.start fun result after =>
            (∃ e, result = .error e) ∧ isFile after.tree p = false := by
      intro p below file may
      obtain ⟨script, answered, result, ended, ⟨e, rfl⟩, gone⟩ := bad_run classify blind tag m _ may
      have hkept := (law script answered _ ended).files e rfl p below file
      rw [isFile, hkept, ← isFile, file] at gone
      cases gone
    have no_temp : isFile m.before (moveTempPath t tag) = false := by
      by_contra file
      apply kept _ (hbelow _ hparent) (by simpa using file)
      apply may_reach classify blind tag m t member
      intro now _
      apply may_mono _ _ _ _ _ (may_lose_temp classify blind tag m.src t now)
      rintro result after ⟨failed, gone, _⟩
      exact ⟨failed, gone⟩
    refine ⟨no_temp, fun file => ?_⟩
    have htarget := kept t (hbelow t (name_parent m t member_names)) file
    have policy : m.collision ≠ .overwrite := by
      intro policy
      apply htarget
      apply may_reach classify blind tag m t member
      intro now ready
      apply may_mono _ _ _ _ _ (may_lose_temp classify blind tag m.src t now)
      rintro result after ⟨failed, _, rest⟩
      refine ⟨failed, ?_⟩
      rw [isFile, rest t (Ne.symm hne)]
      exact ready.gone policy
    refine ⟨policy, ?_⟩
    by_contra free
    rw [not_or] at free
    apply htarget
    apply may_reach classify blind tag m t member
    intro now ready
    have hkept : ∀ p, isFile m.before p = true → isFile now.tree p = true := by
      intro p here
      rw [isFile, ready.forth p (Or.inr policy) here]
      exact here
    have hbeside := ready.beside (moveTempPath t tag) hparent (by simp [moveTempPath]) hne
    apply may_mono _ _ _ _ _ (may_lose_target classify blind tag m.src t now hne
      (hkept _ (by simpa using free.2)) (hkept t file) _ (hparent ▸ ready.parent))
    · rintro result after ⟨failed, gone⟩
      exact ⟨failed, by simp [isFile, gone]⟩
    · rw [isDir, hbeside, ← isDir]
      simpa using free.1
  · intro spares script answered result ended
    obtain ⟨_, hpost⟩ := safe_execute callDisk (admits blind tag) anywhere _ _ _ script
      (move_file_spec classify blind tag m) answered
    rcases hpost result ended with ⟨⟨e, rfl⟩, same⟩ | ⟨t, member, now, reached, moved⟩
    · exact ⟨fun _ _ p _ => (same p).1, fun _ _ target _ file => Or.inl ((same _).2 file)⟩
    · exact leaves_alone_of_spares blind tag m spares t member now _ result reached moved

def ontoAnother : Move where
  src := ["in", "a.csv"]
  dst := ["archive", "a.csv"]
  collision := .overwrite
  before := put (put (put (put (put (fun _ => none) [] (some .dir)) ["in"] (some .dir))
    ["archive"] (some .dir)) ["in", "a.csv"] (some (.file [1] 0)))
    ["archive", "a.csv"] (some (.file [2] 0))
  root := by decide
  source := by decide

/-- The archive is on another file system, which is full. -/
def noRoom : List FsAnswer :=
  [.asIs 0, .asIs 0, .asIs 0, .fails crossDevice, .asIs 17,
    .cut 0 ⟨.other, "No space left on device (os error 28)"⟩, .asIs 0]

theorem archived_lost :
    ¬ ∀ script, ontoAnother.Answered classifyCleanupIo false 17 script → ∀ result,
      (ontoAnother.run classifyCleanupIo script).1 = some result →
        ontoAnother.LeavesAlone 17 result (ontoAnother.run classifyCleanupIo script).2 := by
  intro law
  have answered : ontoAnother.Answered classifyCleanupIo false 17 noRoom :=
    ⟨trivial, Or.inr ⟨0, rfl⟩, trivial, trivial, rfl, trivial, trivial, trivial⟩
  have ended : ∃ e, (ontoAnother.run classifyCleanupIo noRoom).1 = some (.error e) := ⟨_, rfl⟩
  obtain ⟨e, ended⟩ := ended
  have kept := (law noRoom answered _ ended).files e rfl ontoAnother.dst (by decide) (by decide)
  have gone : (ontoAnother.run classifyCleanupIo noRoom).2.tree ontoAnother.dst = none := by
    decide
  rw [gone] at kept
  exact absurd kept (by decide)

end Laws

end FileReplicator.MoveFile
