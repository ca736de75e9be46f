import FileReplicator.ItemsKeep

/-!
# The actions keep to the protocol

What an action has seen of its own calls when it reports: a move that was proved
and nothing changed since, or a source that was gone. A quarantine reports
nothing; it ends with the sidecar written, or it has gone wrong on its way.
-/

namespace FileReplicator.ActionsKeep

open Domain DurableStore Effects FileTree SourceActions Operations Worker Instance Protocol
open ThreadsKeep ItemsKeep

/-! ## Calls of an action -/

theorem on_disk_keeps {α Seen : Type} (setup : Setup) (within : Discipline FsOp FsRet Seen)
    (role : Role) (view : Notes → Seen) (program : FsProg α) (n : Notes) (post : α → Seen → Prop)
    (own : n.role = role)
    (allows : ∀ n operation, n.role = role → within.allowed (view n) operation →
      allowedDisk setup n operation)
    (possible : ∀ operation ret, within.possible operation ret)
    (learns : ∀ n operation ret, n.role = role →
      view (learn setup n (.fs operation) ret) = within.learn (view n) operation ret)
    (keeps : Keeps within program (view n) post) :
    Keeps (discipline setup) (onDisk program) n
      fun value after => after.role = role ∧ post value (view after) := by
  induction program generalizing n with
  | done value => exact ⟨own, keeps⟩
  | call operation next ih =>
      refine ⟨allows n operation own keeps.1, fun ret _ => ?_⟩
      apply ih ret (learn setup n (.fs operation) ret) own
      rw [learns n operation ret own]
      exact keeps.2 ret (possible operation ret)

section Disk

variable (src : Path) (may : Disk → FsOp → Prop)

/-- What an action on `src` sees of its calls, and which it may make. -/
def diskDiscipline : Discipline FsOp FsRet Disk where
  allowed := may
  possible := fun _ _ => True
  learn := learnDisk src

structure Onward (d after : Disk) : Prop where
  measured : after.measured = d.measured
  present : after.present = d.present

theorem onward_self (d : Disk) : Onward d d := ⟨rfl, rfl⟩

theorem onward_trans {d middle after : Disk} (first : Onward d middle) (second : Onward middle after) :
    Onward d after :=
  ⟨second.measured.trans first.measured, second.present.trans first.present⟩

def measures : FsOp → Bool
  | .fileLen _ | .readFile _ => true
  | _ => false

theorem onward_learn (d : Disk) (operation : FsOp) (ret : FsRet operation)
    (looked : d.present ≠ none) (blind : measures operation = false) :
    Onward d (learnDisk src d operation ret) := by
  cases operation with
  | fileLen path => cases blind
  | readFile path => cases blind
  | pathExists path =>
      simp only [learnDisk, looked, and_false, if_false]
      split
      · exact ⟨rfl, rfl⟩
      · exact onward_self d
  | _ => exact onward_self d

variable (free : ∀ d operation, d.present = some true → d.measured = none →
  measures operation = false → may d operation)

include free

theorem call_keeps (operation : FsOp) (d : Disk) (post : FsRet operation → Disk → Prop)
    (looked : d.present = some true) (unmeasured : d.measured = none)
    (blind : measures operation = false)
    (holds : ∀ ret, Onward d (learnDisk src d operation ret) →
      post ret (learnDisk src d operation ret)) :
    Keeps (diskDiscipline src may) (Prog.perform operation) d post := by
  refine ⟨free d operation looked unmeasured blind, fun ret _ => ?_⟩
  apply holds
  apply onward_learn src d operation ret _ blind
  rw [looked]
  exact Option.some_ne_none true

omit free in
theorem try_keeps {α Seen : Type} (d : Discipline FsOp FsRet Seen) (classify : IoError → ReplError)
    (program : FsProg (Except IoError α)) (seen : Seen) (post : Except ReplError α → Seen → Prop)
    (keeps : Keeps d program seen fun result after => post (result.mapError classify) after) :
    Keeps d (tryFs classify program).run seen post := by
  apply keeps_bind
  apply keeps_mono _ _ _ _ _ keeps
  intro result after holds
  exact holds

/-! ## Moving -/

def Stepped {α : Type} (d : Disk) (good : α → Prop) (result : Except ReplError α)
    (after : Disk) : Prop :=
  Onward d after ∧ ∀ value, result = .ok value → good value

omit free in
theorem stepped_bind {α β : Type} (task : Action α) (next : α → Action β) (d : Disk)
    (middle : α → Prop) (good : β → Prop)
    (first : Keeps (diskDiscipline src may) task.run d (Stepped d middle))
    (rest : ∀ value after, Onward d after → middle value →
      Keeps (diskDiscipline src may) (next value).run after (Stepped after good)) :
    Keeps (diskDiscipline src may) (task >>= next).run d (Stepped d good) := by
  apply keeps_task_bind
  apply keeps_mono _ _ _ _ _ first
  rintro result after ⟨onward, ended⟩
  cases result with
  | error e => exact ⟨onward, fun _ failed => by cases failed⟩
  | ok value =>
      apply keeps_mono _ _ _ _ _ (rest value after onward (ended value rfl))
      rintro result last ⟨later, ended⟩
      exact ⟨onward_trans onward later, ended⟩

variable (classify : IoError → ReplError)

theorem drop_temp_keeps (tmp : Path) (e : IoError) (d : Disk) (looked : d.present = some true)
    (unmeasured : d.measured = none) (good : Unit → Prop) :
    Keeps (diskDiscipline src may) (dropTemp classify tmp e).run d (Stepped d good) := by
  rw [dropTemp]
  apply keeps_task_bind
  apply keeps_always
  apply call_keeps src may free (.removeFile tmp) d _ looked unmeasured rfl
  intro ret onward
  exact ⟨onward, fun _ failed => by cases failed⟩

/-- A call of the fallback: after its failure there is only the failure to report. -/
theorem or_drop_temp_keeps (tmp : Path) (program : FsProg (Except IoError Unit)) (d : Disk)
    (looked : d.present = some true) (unmeasured : d.measured = none)
    (keeps : Keeps (diskDiscipline src may) program d fun _ after => Onward d after) :
    Keeps (diskDiscipline src may) (orDropTemp classify tmp program).run d
      (Stepped d fun _ => True) := by
  rw [orDropTemp]
  apply keeps_task_bind
  apply keeps_always
  apply keeps_mono _ _ _ _ _ keeps
  intro result middle onward
  cases result with
  | ok _ => exact ⟨onward, fun _ _ => trivial⟩
  | error e =>
      apply keeps_mono _ _ _ _ _ (drop_temp_keeps src may free classify tmp e middle
        (onward.present.trans looked) (onward.measured.trans unmeasured) fun _ => True)
      rintro result after ⟨later, ended⟩
      exact ⟨onward_trans onward later, ended⟩

theorem create_parent_keeps (dst : Path) (d : Disk) (looked : d.present = some true)
    (unmeasured : d.measured = none) :
    Keeps (diskDiscipline src may) (createParent classify dst).run d (Stepped d fun _ => True) := by
  rw [createParent]
  split
  · exact ⟨onward_self d, fun _ _ => trivial⟩
  · apply try_keeps
    apply call_keeps src may free (.createDirAll dst.dropLast) d _ looked unmeasured rfl
    intro ret onward
    exact ⟨onward, fun _ _ => trivial⟩

def namesOf (dst : Path) : List Path := dst :: suffixes.map (suffixed dst)

theorem free_suffix_keeps (dst : Path) (left : List Nat) (d : Disk) (looked : d.present = some true)
    (unmeasured : d.measured = none) (sub : ∀ i ∈ left, i ∈ suffixes) :
    Keeps (diskDiscipline src may) (freeSuffix dst left).run d (Stepped d (· ∈ namesOf dst)) := by
  induction left generalizing d with
  | nil => exact ⟨onward_self d, fun _ failed => by cases failed⟩
  | cons i rest ih =>
      rw [freeSuffix]
      apply keeps_task_bind
      apply keeps_always
      apply call_keeps src may free (.pathExists (suffixed dst i)) d _ looked unmeasured rfl
      intro found onward
      cases found with
      | true =>
          apply keeps_mono _ _ _ _ _ (ih _ (onward.present.trans looked)
            (onward.measured.trans unmeasured) fun j hj => sub j (List.mem_cons_of_mem _ hj))
          rintro result after ⟨later, ended⟩
          exact ⟨onward_trans onward later, ended⟩
      | false =>
          refine ⟨onward, fun value chosen => ?_⟩
          cases chosen
          exact List.mem_cons_of_mem _ (List.mem_map_of_mem (sub i List.mem_cons_self))

theorem resolve_collision_keeps (dst : Path) (collision : Collision) (d : Disk)
    (looked : d.present = some true) (unmeasured : d.measured = none) :
    Keeps (diskDiscipline src may) (resolveCollision classify dst collision).run d
      (Stepped d (· ∈ namesOf dst)) := by
  unfold resolveCollision
  apply keeps_task_bind
  apply keeps_always
  apply call_keeps src may free (.pathExists dst) d _ looked unmeasured rfl
  intro found onward
  have looked' := onward.present.trans looked
  have unmeasured' := onward.measured.trans unmeasured
  have plain : ∀ value, (.ok dst : Except ReplError Path) = .ok value → value ∈ namesOf dst := by
    intro value same
    cases same
    exact List.mem_cons_self
  cases found with
  | false => exact ⟨onward, plain⟩
  | true =>
      cases collision with
      | fail => exact ⟨onward, fun _ failed => by cases failed⟩
      | suffix =>
          apply keeps_mono _ _ _ _ _ (free_suffix_keeps src may free dst suffixes _ looked'
            unmeasured' fun _ hi => hi)
          rintro result after ⟨later, ended⟩
          exact ⟨onward_trans onward later, ended⟩
      | overwrite =>
          apply keeps_task_bind
          apply try_keeps
          apply call_keeps src may free (.removeFile dst) _ _ looked' unmeasured' rfl
          intro ret later
          cases ret with
          | ok _ => exact ⟨onward_trans onward later, plain⟩
          | error e => exact ⟨onward_trans onward later, fun _ failed => by cases failed⟩

theorem remove_existing_keeps (tmp target : Path) (d : Disk) (looked : d.present = some true)
    (unmeasured : d.measured = none) :
    Keeps (diskDiscipline src may) (removeExisting classify tmp target).run d
      (Stepped d fun _ => True) := by
  rw [removeExisting]
  apply keeps_task_bind
  apply keeps_always
  apply call_keeps src may free (.pathExists target) d _ looked unmeasured rfl
  intro found onward
  cases found with
  | false => exact ⟨onward, fun _ _ => trivial⟩
  | true =>
      have looked' := onward.present.trans looked
      have unmeasured' := onward.measured.trans unmeasured
      apply keeps_mono _ _ _ _ _ (or_drop_temp_keeps src may free classify tmp (removeFile target) _
        looked' unmeasured' ?_)
      · rintro result after ⟨later, ended⟩
        exact ⟨onward_trans onward later, ended⟩
      · exact call_keeps src may free (.removeFile target) _ _ looked' unmeasured' rfl
          fun _ later => later

theorem publish_temp_keeps (tmp target : Path) (d : Disk) (looked : d.present = some true)
    (unmeasured : d.measured = none) :
    Keeps (diskDiscipline src may) (publishTemp classify tmp target).run d
      (Stepped d fun _ => True) := by
  rw [publishTemp]
  apply keeps_task_bind
  apply keeps_always
  apply call_keeps src may free (.rename tmp target) d _ looked unmeasured rfl
  intro renamed onward
  cases renamed with
  | ok _ => exact ⟨onward, fun _ _ => trivial⟩
  | error e =>
      have looked' := onward.present.trans looked
      have unmeasured' := onward.measured.trans unmeasured
      apply keeps_mono _ _ _ _ _ (stepped_bind src may _ _ _ (fun _ => True) (fun _ => True)
        (remove_existing_keeps src may free classify tmp target _ looked' unmeasured') ?_)
      · rintro result after ⟨later, ended⟩
        exact ⟨onward_trans onward later, ended⟩
      · intro _ cleared later _
        have looked'' := later.present.trans looked'
        have unmeasured'' := later.measured.trans unmeasured'
        apply or_drop_temp_keeps src may free classify tmp (rename tmp target) cleared looked''
          unmeasured''
        exact call_keeps src may free (.rename tmp target) _ _ looked'' unmeasured'' rfl
          fun _ later => later

theorem move_by_copy_keeps (target : Path) (d : Disk) (looked : d.present = some true)
    (unmeasured : d.measured = none) :
    Keeps (diskDiscipline src may) (moveByCopy classify src target).run d
      (Stepped d fun value => value = target) := by
  rw [moveByCopy]
  apply keeps_task_bind
  apply keeps_always
  apply call_keeps src may free .nanos d _ looked unmeasured rfl
  intro tag _
  apply stepped_bind src may _ _ d fun _ => True
  · apply or_drop_temp_keeps src may free classify _ _ d looked unmeasured
    exact call_keeps src may free (.copy src (moveTempPath target tag)) d _ looked unmeasured rfl
      fun _ later => later
  intro _ copied first _
  have looked' := first.present.trans looked
  have unmeasured' := first.measured.trans unmeasured
  apply stepped_bind src may _ _ copied fun _ => True
  · exact publish_temp_keeps src may free classify _ target copied looked' unmeasured'
  intro _ published second _
  have looked'' := second.present.trans looked'
  have unmeasured'' := second.measured.trans unmeasured'
  apply stepped_bind src may _ _ published fun _ => True
  · apply try_keeps
    apply call_keeps src may free (.removeFile src) published _ looked'' unmeasured'' rfl
    intro ret onward
    exact ⟨onward, fun _ _ => trivial⟩
  · intro _ after _ _
    refine ⟨onward_self after, fun value same => ?_⟩
    cases same
    rfl

theorem move_file_keeps (dst : Path) (collision : Collision) (d : Disk)
    (looked : d.present = some true) (unmeasured : d.measured = none) :
    Keeps (diskDiscipline src may) (moveFile classify src dst collision).run d
      (Stepped d (· ∈ namesOf dst)) := by
  rw [moveFile]
  apply stepped_bind src may _ _ d fun _ => True
  · exact create_parent_keeps src may free classify dst d looked unmeasured
  intro _ created first _
  have looked' := first.present.trans looked
  have unmeasured' := first.measured.trans unmeasured
  apply stepped_bind src may _ _ created
  · exact resolve_collision_keeps src may free classify dst collision created looked' unmeasured'
  intro target resolved second chosen
  have looked'' := second.present.trans looked'
  have unmeasured'' := second.measured.trans unmeasured'
  apply keeps_task_bind
  apply keeps_always
  apply call_keeps src may free (.rename src target) resolved _ looked'' unmeasured'' rfl
  intro ret onward
  cases ret with
  | ok _ =>
      refine ⟨onward, fun value same => ?_⟩
      cases same
      exact chosen
  | error e =>
      apply keeps_mono _ _ _ _ _ (move_by_copy_keeps src may free classify target _
        (onward.present.trans looked'') (onward.measured.trans unmeasured''))
      rintro result after ⟨later, ended⟩
      refine ⟨onward_trans onward later, fun value same => ?_⟩
      rw [ended value same]
      exact chosen

end Disk

variable (setup : Setup)

/-! ## The success action -/

theorem may_act_moving (ctx : CleanupCtx) (d : Disk) (operation : FsOp)
    (looked : d.present = some true) (unmeasured : d.measured = none)
    (blind : measures operation = false) : mayAct ctx d operation := by
  have here : d.present ≠ some false := by
    rw [looked]
    decide
  cases operation with
  | fileLen path => cases blind
  | readFile path => cases blind
  | pathExists path => trivial
  | nanos => trivial
  | _ => exact ⟨unmeasured, here⟩

theorem rehash_keeps (src target : Path) (ctx : CleanupCtx) (d : Disk)
    (measured : d.measured = some (target, ctx.expectedSize)) :
    Keeps (diskDiscipline src (mayAct ctx)) (rehash setup.digest target ctx).run d fun result after =>
      result = .ok () → Checked setup ctx after target := by
  unfold rehash
  split
  · rename_i unhashed
    intro _
    refine ⟨measured, fun _ algo named => ?_⟩
    rw [unhashed] at named
    cases named
  · rename_i algo named
    apply keeps_task_bind
    apply try_keeps
    refine ⟨⟨ctx.expectedSize, measured⟩, fun ret _ => ?_⟩
    cases ret with
    | error e => exact fun failed => by cases failed
    | ok bytes =>
        intro passed
        refine ⟨measured, fun _ other hother => ⟨bytes, rfl, ?_⟩⟩
        rw [named] at hother
        cases hother
        cases verdict : verifyChecksum ctx.expectedChecksum (setup.digest algo bytes) with
        | ok _ => rfl
        | error e =>
            simp only [verdict] at passed
            cases passed

theorem verify_archived_keeps (src dir target : Path) (ctx : CleanupCtx) (d : Disk)
    (configured : ctx.archiveDir = some dir) (named : target ∈ archiveNames ctx dir)
    (unmeasured : d.measured = none) :
    Keeps (diskDiscipline src (mayAct ctx)) (verifyArchived setup.digest target ctx).run d
      fun result after => result = .ok () → Checked setup ctx after target := by
  rw [verifyArchived]
  apply keeps_task_bind
  apply try_keeps
  refine ⟨⟨unmeasured, dir, configured, named⟩, fun ret _ => ?_⟩
  cases ret with
  | error e => exact fun failed => by cases failed
  | ok len =>
      apply keeps_task_bind
      by_cases same : ctx.expectedSize = len
      · simp only [verifySize, same, if_true]
        subst same
        show Keeps _ (ExceptT.run (if ctx.verify = .checksum then rehash setup.digest target ctx
          else return ())) _ _
        split
        · exact rehash_keeps setup src target ctx _ rfl
        · rename_i policy
          exact fun _ => ⟨rfl, fun checksum => absurd checksum policy⟩
      · simp only [verifySize, same, if_false]
        exact fun failed => by cases failed

theorem find_archived_keeps (ctx : CleanupCtx) (dir : Path) (d : Disk)
    (configured : ctx.archiveDir = some dir) (gone : d.present = some false)
    (unmeasured : d.measured = none) :
    Keeps (diskDiscipline ctx.src (mayAct ctx))
      (findArchived setup.digest ctx (joinRel dir ctx.relpath)).run d
      fun result after => Proved setup ctx after result := by
  rw [findArchived]
  apply keeps_task_bind
  apply keeps_always
  refine ⟨trivial, fun found _ => ?_⟩
  cases found with
  | true =>
      apply keeps_task_bind
      have unmeasured' : (learnDisk ctx.src d (.pathExists (joinRel dir ctx.relpath)) true).measured =
          none := by
        simp only [learnDisk]
        split
        · exact unmeasured
        · exact unmeasured
      apply keeps_mono _ _ _ _ _ (verify_archived_keeps setup ctx.src dir _ ctx _ configured
        List.mem_cons_self unmeasured')
      intro result after checked
      cases result with
      | error e => trivial
      | ok _ => exact ⟨checked rfl, dir, configured, List.mem_cons_self⟩
  | false =>
      have noted : learnDisk ctx.src d (.pathExists (joinRel dir ctx.relpath)) false =
          { d with absent := some (joinRel dir ctx.relpath) } := by
        simp [learnDisk, gone]
      simp only [diskDiscipline, noted]
      exact ⟨gone, unmeasured, dir, configured, rfl⟩

theorem archive_source_keeps (ctx : CleanupCtx) (dir : Path)
    (configured : ctx.archiveDir = some dir) :
    Keeps (diskDiscipline ctx.src (mayAct ctx)) (archiveSource setup.digest ctx dir).run noDisk
      fun result after => Proved setup ctx after result := by
  rw [archiveSource]
  apply keeps_task_bind
  apply keeps_always
  refine ⟨trivial, fun found _ => ?_⟩
  have noted : learnDisk ctx.src noDisk (.pathExists ctx.src) found =
      { noDisk with present := some found } := by
    simp [learnDisk, noDisk]
  simp only [diskDiscipline, noted]
  cases found with
  | false => exact find_archived_keeps setup ctx dir _ configured rfl rfl
  | true =>
      apply keeps_task_bind
      apply keeps_mono _ _ _ _ _ (move_file_keeps ctx.src (mayAct ctx) (may_act_moving ctx)
        classifyCleanupIo (joinRel dir ctx.relpath) ctx.collision _ (by simp) rfl)
      rintro result middle ⟨onward, ended⟩
      cases result with
      | error e => trivial
      | ok target =>
          apply keeps_task_bind
          apply keeps_mono _ _ _ _ _ (verify_archived_keeps setup ctx.src dir target ctx middle
            configured (ended target rfl) onward.measured)
          intro result after checked
          cases result with
          | error e => trivial
          | ok _ => exact ⟨checked rfl, dir, configured, ended target rfl⟩

theorem delete_source_keeps (ctx : CleanupCtx) (delete : ctx.onSuccess = .delete) :
    Keeps (diskDiscipline ctx.src (mayAct ctx)) (deleteSource ctx).run noDisk
      fun result after => Proved setup ctx after result := by
  rw [deleteSource]
  apply keeps_task_bind
  apply keeps_always
  refine ⟨⟨rfl, by decide⟩, fun removed _ => ?_⟩
  apply keeps_task_bind
  unfold removalOutcome
  have looking : ∀ d : Disk, Keeps (diskDiscipline ctx.src (mayAct ctx))
      (do if ← always (pathExists ctx.src) then throw (.transient (stillPresentText ctx.src))
          else return .deleted : Action CleanupDone).run d
      fun result after => Proved setup ctx after result := by
    intro d
    apply keeps_task_bind
    apply keeps_always
    refine ⟨trivial, fun found _ => ?_⟩
    cases found with
    | true => trivial
    | false => exact delete
  cases removed with
  | ok _ => exact looking _
  | error e =>
      simp only
      split
      · exact looking _
      · trivial

theorem apply_success_action_keeps (ctx : CleanupCtx) :
    Keeps (diskDiscipline ctx.src (mayAct ctx)) (applySuccessAction setup.digest ctx).run noDisk
      fun result after => Proved setup ctx after result := by
  unfold applySuccessAction
  split
  · rename_i delete
    exact delete_source_keeps setup ctx delete
  · split
    · trivial
    · rename_i dir configured
      exact archive_source_keeps setup ctx dir configured

theorem run_action_keeps (ctx : CleanupCtx) :
    Keeps (discipline setup) (runAction setup ctx) (freshNotes (.action ctx) [])
      fun _ _ => True := by
  rw [runAction]
  apply keeps_bind
  apply keeps_mono _ _ _ _ _ (on_disk_keeps setup (diskDiscipline ctx.src (mayAct ctx)) (.action ctx)
    Notes.disk _ (freshNotes (.action ctx) []) _ rfl ?_ (fun _ _ => trivial) ?_
    (apply_success_action_keeps setup ctx))
  · rintro result after ⟨role, proved⟩
    exact ⟨⟨ctx, role, proved⟩, fun _ _ => trivial⟩
  · intro n operation role may
    exact Or.inl ⟨ctx, role, may⟩
  · intro n operation ret role
    show learnDisk n.role.src n.disk operation ret = _
    rw [role]
    rfl

/-! ## The quarantine action -/

section Quarantine

variable (job : QuarantineJob)

/-- What a quarantine may call at each of its places. -/
def moving : Discipline FsOp FsRet Place where
  allowed := mayMove setup job
  possible := fun _ _ => True
  learn := advance job

theorem moving_keeps (operation : FsOp) (place : Place) (post : FsRet operation → Place → Prop)
    (may : mayMove setup job place operation)
    (ends : ∀ ret, post ret (advance job place operation ret)) :
    Keeps (moving setup job) (Prog.perform operation) place post :=
  ⟨may, fun ret _ => ends ret⟩

theorem off_keeps {α : Type} (program : FsProg α) :
    Keeps (moving setup job) program .off fun _ after => after = .off := by
  induction program with
  | done value => exact rfl
  | call operation next ih => exact ⟨trivial, fun ret _ => ih ret⟩

/-- A step of the move: it arrives, or it has gone wrong. -/
def Arrives {α : Type} (good : α → Place → Prop) (result : Except ReplError α) (after : Place) :
    Prop :=
  after = .off ∨ ∃ value, result = .ok value ∧ good value after

theorem arrives_bind {α β : Type} (task : Action α) (next : α → Action β) (place : Place)
    (middle : α → Place → Prop) (good : β → Place → Prop)
    (first : Keeps (moving setup job) task.run place (Arrives middle))
    (rest : ∀ value after, middle value after →
      Keeps (moving setup job) (next value).run after (Arrives good)) :
    Keeps (moving setup job) (task >>= next).run place (Arrives good) := by
  apply keeps_task_bind
  apply keeps_mono _ _ _ _ _ first
  intro result after arrived
  cases result with
  | error e =>
      rcases arrived with off | ⟨_, same, _⟩
      · exact Or.inl off
      · cases same
  | ok value =>
      rcases arrived with rfl | ⟨_, same, holds⟩
      · apply keeps_mono _ _ _ _ _ (off_keeps setup job (next value).run)
        intro _ _ off
        exact Or.inl off
      · cases same
        exact rest value after holds

theorem off_arrives {α : Type} (task : Action α) (good : α → Place → Prop) :
    Keeps (moving setup job) task.run .off (Arrives good) := by
  apply keeps_mono _ _ _ _ _ (off_keeps setup job task.run)
  intro _ _ off
  exact Or.inl off

theorem parent_arrives :
    Keeps (moving setup job) (createParent classifyIoError (plainPath job)).run .there
      (Arrives fun _ after => after = .there) := by
  rw [createParent]
  split
  · exact Or.inr ⟨(), rfl, rfl⟩
  · apply try_keeps
    apply moving_keeps setup job (.createDirAll (plainPath job).dropLast) .there _ (Or.inl ⟨_, rfl⟩)
    intro ret
    cases ret with
    | ok _ => exact Or.inr ⟨(), rfl, rfl⟩
    | error e => exact Or.inl rfl

theorem collision_arrives :
    Keeps (moving setup job)
      (resolveCollision classifyIoError (plainPath job) job.collision).run .there
      (Arrives fun target after => target = plainPath job ∧ after = .free) := by
  unfold resolveCollision
  apply keeps_task_bind
  apply keeps_always
  apply moving_keeps setup job (.pathExists (plainPath job)) .there _ (Or.inr (Or.inl rfl))
  intro found
  cases found with
  | false => exact Or.inr ⟨_, rfl, rfl, rfl⟩
  | true =>
      cases policy : job.collision with
      | fail =>
          simp only [advance, policy]
          exact off_arrives setup job _ _
      | suffix =>
          simp only [advance, policy]
          exact off_arrives setup job _ _
      | overwrite =>
          -- the place is the same one, and the file in the way may be removed
          simp only [advance, policy]
          apply keeps_task_bind
          apply try_keeps
          apply moving_keeps setup job (.removeFile (plainPath job)) .there _
            (Or.inr (Or.inr ⟨rfl, policy⟩))
          intro ret
          cases ret with
          | ok _ => exact Or.inr ⟨_, rfl, rfl, rfl⟩
          | error e => exact Or.inl rfl

theorem rename_again_arrives (tmp : Path) :
    Keeps (moving setup job) (orDropTemp classifyIoError tmp (rename tmp (plainPath job))).run
      (.again tmp) (Arrives fun _ after => after = .doubled) := by
  rw [orDropTemp]
  apply keeps_task_bind
  apply keeps_always
  apply moving_keeps setup job (.rename tmp (plainPath job)) (.again tmp) _ (Or.inr (Or.inr rfl))
  intro renamed
  cases renamed with
  | ok _ => exact Or.inr ⟨(), rfl, rfl⟩
  | error e => exact off_arrives setup job _ _

theorem existing_arrives (tmp : Path) :
    Keeps (moving setup job) (removeExisting classifyIoError tmp (plainPath job)).run (.again tmp)
      (Arrives fun _ after => after = .again tmp) := by
  rw [removeExisting]
  apply keeps_task_bind
  apply keeps_always
  apply moving_keeps setup job (.pathExists (plainPath job)) (.again tmp) _ (Or.inl rfl)
  intro found
  cases found with
  | false => exact Or.inr ⟨(), rfl, rfl⟩
  | true =>
      apply keeps_task_bind
      apply keeps_always
      apply moving_keeps setup job (.removeFile (plainPath job)) (.again tmp) _ (Or.inr (Or.inl rfl))
      intro removed
      cases removed with
      | ok _ => exact Or.inr ⟨(), rfl, rfl⟩
      | error e => exact off_arrives setup job _ _

theorem publish_arrives (tmp : Path) :
    Keeps (moving setup job) (publishTemp classifyIoError tmp (plainPath job)).run (.copied tmp)
      (Arrives fun _ after => after = .doubled) := by
  rw [publishTemp]
  apply keeps_task_bind
  apply keeps_always
  apply moving_keeps setup job (.rename tmp (plainPath job)) (.copied tmp) _ rfl
  intro renamed
  cases renamed with
  | ok _ => exact Or.inr ⟨(), rfl, rfl⟩
  | error e =>
      apply arrives_bind setup job _ _ _ _ _ (existing_arrives setup job tmp)
      intro _ after same
      subst same
      exact rename_again_arrives setup job tmp

theorem copy_arrives :
    Keeps (moving setup job) (moveByCopy classifyIoError job.src (plainPath job)).run .fallen
      (Arrives fun _ after => after = .moved) := by
  rw [moveByCopy]
  apply keeps_task_bind
  apply keeps_always
  apply moving_keeps setup job .nanos .fallen _ (Or.inl rfl)
  intro tag
  apply arrives_bind setup job _ _ _ fun _ after => after = .copied (moveTempPath (plainPath job) tag)
  · rw [orDropTemp]
    apply keeps_task_bind
    apply keeps_always
    apply moving_keeps setup job (.copy job.src (moveTempPath (plainPath job) tag)) .fallen _
      (Or.inr ⟨tag, rfl⟩)
    intro copied
    cases copied with
    | ok _ => exact Or.inr ⟨(), rfl, rfl⟩
    | error e => exact off_arrives setup job _ _
  intro _ after same
  subst same
  apply arrives_bind setup job _ _ _ _ _ (publish_arrives setup job _)
  intro _ after same
  subst same
  apply arrives_bind setup job _ _ _ fun _ after => after = .moved
  · apply try_keeps
    apply moving_keeps setup job (.removeFile job.src) .doubled _ rfl
    intro removed
    cases removed with
    | ok _ => exact Or.inr ⟨(), rfl, rfl⟩
    | error e => exact Or.inl rfl
  · intro _ after moved
    exact Or.inr ⟨_, rfl, moved⟩

theorem move_arrives :
    Keeps (moving setup job)
      (moveFile classifyIoError job.src (plainPath job) job.collision).run .there
      (Arrives fun _ after => after = .moved) := by
  rw [moveFile]
  apply arrives_bind setup job _ _ _ _ _ (parent_arrives setup job)
  intro _ after same
  subst same
  apply arrives_bind setup job _ _ _ _ _ (collision_arrives setup job)
  rintro target after ⟨rfl, rfl⟩
  apply keeps_task_bind
  apply keeps_always
  apply moving_keeps setup job (.rename job.src (plainPath job)) .free _ rfl
  intro renamed
  cases renamed with
  | ok _ => exact Or.inr ⟨_, rfl, rfl⟩
  | error e => exact copy_arrives setup job

theorem move_if_there_keeps :
    Keeps (moving setup job) (moveIfThere job.src (plainPath job) job.collision) .looking
      fun _ after => after = .moved ∨ after = .off := by
  rw [moveIfThere]
  apply keeps_bind
  apply moving_keeps setup job (.pathExists job.src) .looking _ rfl
  intro found
  cases found with
  | false => exact Or.inl rfl
  | true =>
      apply keeps_best_effort
      apply keeps_mono _ _ _ _ _ (move_arrives setup job)
      intro result after arrived
      rcases arrived with off | ⟨_, _, moved⟩
      · exact Or.inr off
      · exact Or.inl moved

theorem write_sidecar_keeps (place : Place) (arrived : place = .moved ∨ place = .off) :
    Keeps (moving setup job) (writeErrorSidecar setup.render (plainPath job) job.ctx) place
      fun _ after => after = .settled ∨ after = .off := by
  rcases arrived with rfl | rfl
  · rw [writeErrorSidecar]
    apply keeps_bind
    apply moving_keeps setup job (.createDirAll (sidecarPath (plainPath job)).dropLast) .moved _
      (Or.inl ⟨_, rfl⟩)
    intro _
    apply keeps_bind
    apply moving_keeps setup job
      (.writeFile (sidecarPath (plainPath job)) (setup.render job.ctx)) .moved _ (Or.inr rfl)
    intro written
    cases written with
    | ok _ => exact Or.inl rfl
    | error e => exact Or.inr rfl
  · apply keeps_mono _ _ _ _ _ (off_keeps setup job _)
    intro _ _ off
    exact Or.inr off

theorem quarantine_keeps :
    Keeps (moving setup job)
      (applyQuarantineAction setup.render job.failedDir job.src job.collision job.ctx) .looking
      fun _ after => Settled job after := by
  unfold applyQuarantineAction
  split
  · rename_i unset
    exact Or.inl unset
  · rename_i dir configured
    have plain : joinRel dir job.ctx.relpath = plainPath job := by
      rw [plainPath, configured]
      rfl
    rw [plain]
    apply keeps_bind
    apply keeps_mono _ _ _ _ _ (move_if_there_keeps setup job)
    intro _ middle arrived
    apply keeps_mono _ _ _ _ _ (write_sidecar_keeps setup job middle arrived)
    intro _ after ended
    exact Or.inr ended

theorem run_quarantine_keeps :
    Keeps (discipline setup) (runQuarantine setup job) (freshNotes (.quarantine job) [])
      fun _ _ => True := by
  rw [runQuarantine]
  apply keeps_bind
  apply keeps_mono _ _ _ _ _ (on_disk_keeps setup (moving setup job) (.quarantine job) Notes.place _
    (freshNotes (.quarantine job) []) _ rfl ?_ (fun _ _ => trivial) ?_ (quarantine_keeps setup job))
  · rintro _ after ⟨role, settled⟩
    exact ⟨⟨job, role, settled⟩, fun _ _ => trivial⟩
  · intro n operation role may
    exact Or.inr ⟨job, role, may⟩
  · intro n operation ret role
    show learnPlace n.role n.place operation ret = _
    rw [role]
    rfl

end Quarantine

theorem main_keeps (spec : Spec) :
    Keeps (discipline setup) (main setup spec) (start spec) fun _ _ => True := by
  cases spec with
  | recover now =>
      apply keeps_best_effort
      apply keeps_mono _ _ _ _ _ (recover_keeps setup now _ rfl rfl rfl)
      intro _ _ _
      trivial
  | tick now ignoreWindow redriveCleanup fuel =>
      apply keeps_mono _ _ _ _ _
        (run_tick_keeps setup now ignoreWindow redriveCleanup fuel _ rfl rfl rfl rfl)
      intro _ _ _
      trivial
  | item owner item now =>
      apply keeps_mono _ _ _ _ _
        (process_item_keeps setup item now _ ⟨rfl, rfl, List.mem_singleton.mpr rfl⟩)
      intro _ _ _
      trivial
  | attempt owner ctx => exact run_attempt_keeps setup ctx _ rfl
  | action handle ctx => exact run_action_keeps setup ctx
  | quarantine handle job => exact run_quarantine_keeps setup job

end FileReplicator.ActionsKeep
