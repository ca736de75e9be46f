import Mathlib.Data.List.Perm.Basic
import FileReplicator.ByteRates
import FileReplicator.DestinationLabels
import FileReplicator.FileTree

/-!
# Starting the instances

The configured instances are started one after another. An id counts once, with
its first entry. The directories of an instance are probed before it is built; what
is found there disables the instance, ends the whole component or is put up with,
as the policy of the instance says. What one instance meets makes no difference to
the others, unless it ends the component. Before all of them the database is opened
and the rate of the component is read.
-/

namespace FileReplicator.Startup

open Domain ByteRates DestinationLabels FileTree

/-! ## Configuration -/

inductive PermissionPolicy where
  | disableInstance
  | fatal
  | retain
  deriving DecidableEq

inductive EgressCfg where
  | local (path : String)
  | s3
  | sftp
  | ftps
  | http
  | azure
  | gcs
  deriving DecidableEq

def EgressCfg.kind : EgressCfg → Kind
  | .local _ => .local
  | .s3 => .s3
  | .sftp => .sftp
  | .ftps => .ftps
  | .http => .http
  | .azure => .azure
  | .gcs => .gcs

def EgressCfg.localPath : EgressCfg → Option String
  | .local path => some path
  | _ => none

inductive ScheduleMode where
  | immediate
  | cron
  | window
  deriving DecidableEq

def ScheduleMode.name : ScheduleMode → String
  | .immediate => "immediate"
  | .cron => "cron"
  | .window => "window"

structure InstanceCfg where
  id : String
  enabled : Bool
  /-- `ingress.path`. -/
  ingressPath : String
  egress : List EgressCfg
  schedule : ScheduleMode
  archiveDir : Option String
  failedDir : Option String
  onPermissionError : Option PermissionPolicy
  deriving DecidableEq

structure GlobalCfg where
  onPermissionError : PermissionPolicy
  /-- `limits.maxBandwidth`. -/
  maxBandwidth : Option String
  deriving DecidableEq

def resolvePermissionPolicy (inst : InstanceCfg) (global : GlobalCfg) : PermissionPolicy :=
  inst.onPermissionError.getD global.onPermissionError

/-- The entries that are kept, and the ids that are dropped, after the ids in `seen`. -/
def dedupInstanceIds (seen : List String) : List InstanceCfg → List InstanceCfg × List String
  | [] => ([], [])
  | cfg :: rest =>
      if cfg.id ∈ seen then
        ((dedupInstanceIds seen rest).1, cfg.id :: (dedupInstanceIds seen rest).2)
      else
        (cfg :: (dedupInstanceIds (cfg.id :: seen) rest).1, (dedupInstanceIds (cfg.id :: seen) rest).2)

/-! ## Probes -/

inductive Role where
  | ingress
  | egress
  | archive
  | failed
  deriving DecidableEq

def Role.asStr : Role → String
  | .ingress => "ingress"
  | .egress => "egress"
  | .archive => "archive"
  | .failed => "failed"

structure Violation where
  path : String
  role : Role
  kind : IoKind
  msg : String
  deriving DecidableEq

structure Probe where
  createDirAll : Except IoError Unit
  write : Except IoError Unit

/-- What an instance meets when it is started: the ends of its calls, in the order of the source. -/
structure Findings where
  readDir : Except IoError Unit
  /-- The probes of the local destinations, by their number. -/
  egress : Nat → Probe
  archive : Probe
  failed : Probe
  /-- What is built from the configuration alone: destinations, schedule, globs, byte rates. -/
  parts : Except String Unit
  /-- Why the record of its activation could not be read. -/
  refused : Option ReplError

/-- The file that was written is removed as far as that goes. -/
def probeWritable (probe : Probe) : Except IoError Unit := do
  probe.createDirAll
  probe.write

def violationOf (path : String) (role : Role) : Except IoError Unit → Option Violation
  | .ok _ => none
  | .error e => some ⟨path, role, e.kind, e.text⟩

def validateInstance (found : Findings) (cfg : InstanceCfg) : List Violation :=
  (violationOf cfg.ingressPath .ingress found.readDir).toList ++
    (cfg.egress.filterMap EgressCfg.localPath).zipIdx.filterMap
      (fun dir => violationOf dir.1 .egress (probeWritable (found.egress dir.2))) ++
    cfg.archiveDir.toList.filterMap
      (fun dir => violationOf dir .archive (probeWritable found.archive)) ++
    cfg.failedDir.toList.filterMap
      (fun dir => violationOf dir .failed (probeWritable found.failed))

inductive PolicyOutcome where
  | start
  | skip
  | fatal
  deriving DecidableEq

def applyPolicy (policy : PermissionPolicy) (violations : List Violation) : PolicyOutcome :=
  if violations.isEmpty then .start
  else
    match policy with
    | .disableInstance => .skip
    | .fatal => .fatal
    | .retain => .start

/-! ## Instances -/

/-- A running instance, as far as the control plane sees it. -/
structure Instance where
  id : String
  active : Bool
  configEnabled : Bool
  destKind : String
  scheduleMode : String
  deriving DecidableEq

structure DisabledInstanceInfo where
  id : String
  reason : String
  role : String
  path : String
  deriving DecidableEq

/-- `records` holds the persisted activations. -/
def build (records : String → Option Bool) (found : Findings) (cfg : InstanceCfg) :
    Except String Instance := do
  if cfg.egress = [] then
    throw ("instance '" ++ cfg.id ++ "': at least one egress destination is required")
  found.parts
  match found.refused with
  | some e => throw e.text
  | none =>
      return {
        id := cfg.id
        active := (records cfg.id).getD cfg.enabled
        configEnabled := cfg.enabled
        destKind := "+".intercalate (cfg.egress.map fun e => e.kind.name)
        scheduleMode := cfg.schedule.name }

def Violation.summary (v : Violation) : String := v.role.asStr ++ ": " ++ v.path ++ " (" ++ v.msg ++ ")"

def disabledInfo (id : String) (first : Violation) (rest : List Violation) : DisabledInstanceInfo where
  id := id
  reason := "; ".intercalate ((first :: rest).map Violation.summary)
  role := first.role.asStr
  path := first.path

structure Roster where
  instances : List Instance
  disabled : List DisabledInstanceInfo
  deriving DecidableEq

def abortedText (id : String) (violations : List Violation) : String :=
  "instance '" ++ id ++ "': startup permission check failed and onPermissionError=fatal (" ++
    toString violations.length ++ " violation(s)); aborting the component"

def nothingStartedText : String :=
  "no replication instances could be started (component.instances[] is empty, or every entry was " ++
    "malformed or a duplicate id)"

/-- Where a component starts: its database, how that opens, and how a text is quoted in an error. -/
structure Site where
  dbPath : String
  opened : Except ReplError Unit
  debug : String → String

def openState (site : Site) : Except String Unit :=
  site.opened.mapError fun e => "open state db " ++ site.dbPath ++ ": " ++ e.text

/-- The rate that all instances share; 0 is none. -/
def globalRate (site : Site) (global : GlobalCfg) : Except String Nat :=
  match global.maxBandwidth with
  | some rate => (parseByteRate site.debug rate).mapError fun e => "component.global maxBandwidth: " ++ e
  | none => .ok 0

section

variable (site : Site) (records : String → Option Bool) (global : GlobalCfg)
variable (found : String → Findings)

def startInstances : List InstanceCfg → Roster → Except String Roster
  | [], roster => .ok roster
  | cfg :: rest, roster =>
      let violations := validateInstance (found cfg.id) cfg
      match applyPolicy (resolvePermissionPolicy cfg global) violations, violations with
      | .fatal, _ => .error (abortedText cfg.id violations)
      | .skip, first :: others =>
          startInstances rest
            { roster with disabled := roster.disabled ++ [disabledInfo cfg.id first others] }
      -- without a violation there is no reason to skip
      | .skip, [] => startInstances rest roster
      | .start, _ =>
          match build records (found cfg.id) cfg with
          | .ok inst => startInstances rest { roster with instances := roster.instances ++ [inst] }
          | .error _ => startInstances rest roster

/-- `App::run`, up to the point where the control plane is registered. -/
def run (cfgs : List InstanceCfg) : Except String Roster := do
  openState site
  let _ ← globalRate site global
  let roster ← startInstances records global found (dedupInstanceIds [] cfgs).1 ⟨[], []⟩
  if roster.instances.isEmpty then throw nothingStartedText
  return roster

/-- What is to become of a configured instance, by what it alone meets. -/
inductive Fate where
  | live (inst : Instance)
  | disabled (info : DisabledInstanceInfo)
  | unbuilt
  | fatal
  deriving DecidableEq

def fate (cfg : InstanceCfg) : Fate :=
  match validateInstance (found cfg.id) cfg with
  | [] => (build records (found cfg.id) cfg).toOption.elim .unbuilt .live
  | first :: others =>
      match resolvePermissionPolicy cfg global with
      | .disableInstance => .disabled (disabledInfo cfg.id first others)
      | .fatal => .fatal
      | .retain => (build records (found cfg.id) cfg).toOption.elim .unbuilt .live

def Fate.inst : Fate → Option Instance
  | .live inst => some inst
  | _ => none

def Fate.info : Fate → Option DisabledInstanceInfo
  | .disabled info => some info
  | _ => none

def entry (cfgs : List InstanceCfg) (id : String) : Option InstanceCfg := cfgs.find? fun cfg => cfg.id = id

theorem mem_kept (seen : List String) (cfgs : List InstanceCfg) (cfg : InstanceCfg) :
    cfg ∈ (dedupInstanceIds seen cfgs).1 ↔ cfg.id ∉ seen ∧ entry cfgs cfg.id = some cfg := by
  induction cfgs generalizing seen with
  | nil => simp [dedupInstanceIds, entry]
  | cons first rest ih =>
      unfold dedupInstanceIds
      by_cases known : first.id ∈ seen
      · rw [if_pos known, ih]
        by_cases same : first.id = cfg.id
        · simp [← same, known]
        · simp [entry, List.find?_cons_of_neg, same]
      · rw [if_neg known]
        simp only [List.mem_cons, ih, not_or]
        by_cases same : first.id = cfg.id
        · have found : entry (first :: rest) cfg.id = some first := by simp [entry, same]
          rw [found, Option.some_inj, same]
          rw [same] at known
          grind
        · have other : first ≠ cfg := fun equal => same (by rw [equal])
          have found : entry (first :: rest) cfg.id = entry rest cfg.id := by simp [entry, same]
          rw [found]
          grind

theorem kept_nodup (seen : List String) (cfgs : List InstanceCfg) :
    ((dedupInstanceIds seen cfgs).1.map InstanceCfg.id).Nodup := by
  induction cfgs generalizing seen with
  | nil => exact List.nodup_nil
  | cons first rest ih =>
      unfold dedupInstanceIds
      by_cases known : first.id ∈ seen
      · rw [if_pos known]
        exact ih seen
      · rw [if_neg known, List.map_cons, List.nodup_cons]
        refine ⟨fun member => ?_, ih _⟩
        obtain ⟨cfg, kept, same⟩ := List.mem_map.mp member
        have fresh := ((mem_kept (first.id :: seen) rest cfg).mp kept).1
        exact fresh (same ▸ List.mem_cons_self)

theorem build_spec (found : Findings) (cfg : InstanceCfg) (inst : Instance)
    (built : build records found cfg = .ok inst) :
    inst.id = cfg.id ∧ inst.configEnabled = cfg.enabled ∧
      inst.active = (records cfg.id).getD cfg.enabled := by
  unfold build at built
  by_cases none : cfg.egress = []
  · rw [if_pos none] at built
    cases built
  · rw [if_neg none] at built
    rcases found with ⟨_, _, _, _, parts | parts, refused⟩
    · cases built
    · cases refused with
      | some e => cases built
      | none =>
          cases built
          exact ⟨rfl, rfl, rfl⟩

/-- The loop makes of every instance what is to become of it, up to the first that is fatal. -/
theorem start_instances_eq (cfgs : List InstanceCfg) (roster : Roster) :
    startInstances records global found cfgs roster =
      match cfgs.find? (fun cfg => fate records global found cfg = .fatal) with
      | some cfg => .error (abortedText cfg.id (validateInstance (found cfg.id) cfg))
      | none => .ok {
          instances := roster.instances ++ cfgs.filterMap fun cfg => (fate records global found cfg).inst
          disabled := roster.disabled ++ cfgs.filterMap fun cfg => (fate records global found cfg).info } := by
  induction cfgs generalizing roster with
  | nil => simp [startInstances]
  | cons cfg rest ih =>
      unfold startInstances
      cases violations : validateInstance (found cfg.id) cfg with
      | nil =>
          cases built : build records (found cfg.id) cfg with
          | error text =>
              have is : fate records global found cfg = .unbuilt := by
                simp [fate, violations, built, Except.toOption]
              simp [applyPolicy, ih, is, Fate.inst, Fate.info]
          | ok inst =>
              have is : fate records global found cfg = .live inst := by
                simp [fate, violations, built, Except.toOption]
              simp [applyPolicy, ih, is, Fate.inst, Fate.info]
      | cons first others =>
          cases policy : resolvePermissionPolicy cfg global with
          | disableInstance =>
              have is : fate records global found cfg = .disabled (disabledInfo cfg.id first others) := by
                simp [fate, violations, policy]
              simp [applyPolicy, ih, is, Fate.inst, Fate.info]
          | fatal =>
              have is : fate records global found cfg = .fatal := by simp [fate, violations, policy]
              simp [applyPolicy, is, violations]
          | retain =>
              cases built : build records (found cfg.id) cfg with
              | error text =>
                  have is : fate records global found cfg = .unbuilt := by
                    simp [fate, violations, policy, built, Except.toOption]
                  simp [applyPolicy, ih, is, Fate.inst, Fate.info]
              | ok inst =>
                  have is : fate records global found cfg = .live inst := by
                    simp [fate, violations, policy, built, Except.toOption]
                  simp [applyPolicy, ih, is, Fate.inst, Fate.info]

/-! ## Fates -/

/-- An instance that may run: nothing is wrong, or what is wrong is put up with. -/
def Viable (cfg : InstanceCfg) : Prop :=
  validateInstance (found cfg.id) cfg = [] ∨ resolvePermissionPolicy cfg global = .retain

def Aborts (cfg : InstanceCfg) : Prop :=
  validateInstance (found cfg.id) cfg ≠ [] ∧ resolvePermissionPolicy cfg global = .fatal

theorem fate_fatal (cfg : InstanceCfg) :
    fate records global found cfg = .fatal ↔ Aborts global found cfg := by
  unfold fate Aborts
  cases validateInstance (found cfg.id) cfg with
  | nil => cases build records (found cfg.id) cfg <;> simp [Except.toOption]
  | cons first others =>
      cases resolvePermissionPolicy cfg global <;>
        cases build records (found cfg.id) cfg <;> simp [Except.toOption]

theorem fate_live (cfg : InstanceCfg) (inst : Instance) :
    (fate records global found cfg).inst = some inst ↔
      Viable global found cfg ∧ build records (found cfg.id) cfg = .ok inst := by
  unfold fate Viable
  cases validateInstance (found cfg.id) cfg with
  | nil => cases build records (found cfg.id) cfg <;> simp [Except.toOption, Fate.inst]
  | cons first others =>
      cases resolvePermissionPolicy cfg global <;>
        cases build records (found cfg.id) cfg <;> simp [Except.toOption, Fate.inst]

theorem fate_disabled (cfg : InstanceCfg) (info : DisabledInstanceInfo) :
    (fate records global found cfg).info = some info ↔
      resolvePermissionPolicy cfg global = .disableInstance ∧
        ∃ first others, validateInstance (found cfg.id) cfg = first :: others ∧
          info = disabledInfo cfg.id first others := by
  unfold fate
  cases validateInstance (found cfg.id) cfg with
  | nil => cases build records (found cfg.id) cfg <;> simp [Except.toOption, Fate.info]
  | cons first others =>
      cases resolvePermissionPolicy cfg global <;>
        cases build records (found cfg.id) cfg <;> simp [Except.toOption, Fate.info, eq_comm]

theorem fate_live_id (cfg : InstanceCfg) (inst : Instance)
    (live : (fate records global found cfg).inst = some inst) : inst.id = cfg.id :=
  (build_spec records _ cfg inst ((fate_live records global found cfg inst).mp live).2).1

theorem fate_disabled_id (cfg : InstanceCfg) (info : DisabledInstanceInfo)
    (disabled : (fate records global found cfg).info = some info) : info.id = cfg.id := by
  obtain ⟨_, first, others, _, rfl⟩ := (fate_disabled records global found cfg info).mp disabled
  rfl

theorem fates_apart (cfg : InstanceCfg) (inst : Instance) (info : DisabledInstanceInfo)
    (live : (fate records global found cfg).inst = some inst)
    (disabled : (fate records global found cfg).info = some info) : False := by
  cases is : fate records global found cfg <;> simp [is, Fate.inst, Fate.info] at live disabled

/-! ## The roster -/

/-- The roster of a start: every id that is configured is judged by its own entry and by what it alone
met, and is listed once at most. -/
structure Settled (cfgs : List InstanceCfg) (roster : Roster) : Prop where
  once : (roster.instances.map Instance.id ++ roster.disabled.map DisabledInstanceInfo.id).Nodup
  live : ∀ inst, inst ∈ roster.instances ↔ ∃ cfg, entry cfgs inst.id = some cfg ∧
    Viable global found cfg ∧ build records (found cfg.id) cfg = .ok inst
  disabled : ∀ info, info ∈ roster.disabled ↔ ∃ cfg, entry cfgs info.id = some cfg ∧
    resolvePermissionPolicy cfg global = .disableInstance ∧
      ∃ first others, validateInstance (found cfg.id) cfg = first :: others ∧
        info = disabledInfo cfg.id first others
  active : ∀ inst ∈ roster.instances, inst.active = (records inst.id).getD inst.configEnabled

theorem kept_entry (cfgs : List InstanceCfg) (cfg : InstanceCfg) :
    cfg ∈ (dedupInstanceIds [] cfgs).1 ↔ entry cfgs cfg.id = some cfg := by
  rw [mem_kept]
  exact and_iff_right List.not_mem_nil

theorem entry_id (cfgs : List InstanceCfg) (id : String) (cfg : InstanceCfg)
    (is : entry cfgs id = some cfg) : cfg.id = id := by
  have holds := List.find?_some is
  exact of_decide_eq_true holds

theorem gathered_nodup {α : Type} (cfgs : List InstanceCfg) (gather : InstanceCfg → Option α)
    (idOf : α → String) (own : ∀ cfg a, gather cfg = some a → idOf a = cfg.id)
    (distinct : (cfgs.map InstanceCfg.id).Nodup) : ((cfgs.filterMap gather).map idOf).Nodup := by
  induction cfgs with
  | nil => exact List.nodup_nil
  | cons cfg rest ih =>
      rw [List.map_cons, List.nodup_cons] at distinct
      cases is : gather cfg with
      | none => rw [List.filterMap_cons_none is]; exact ih distinct.2
      | some a =>
          rw [List.filterMap_cons_some is, List.map_cons, List.nodup_cons]
          refine ⟨fun member => ?_, ih distinct.2⟩
          obtain ⟨b, gathered, same⟩ := List.mem_map.mp member
          obtain ⟨other, among, from_⟩ := List.mem_filterMap.mp gathered
          apply distinct.1
          rw [← own cfg a is, ← same, own other b from_]
          exact List.mem_map_of_mem among

/-- The roster that a list of entries makes, when none of them is fatal. -/
def gathered (cfgs : List InstanceCfg) : Roster where
  instances := cfgs.filterMap fun cfg => (fate records global found cfg).inst
  disabled := cfgs.filterMap fun cfg => (fate records global found cfg).info

theorem mem_gathered {α : Type} (cfgs : List InstanceCfg) (gather : InstanceCfg → Option α)
    (idOf : α → String) (own : ∀ cfg a, gather cfg = some a → idOf a = cfg.id) (a : α) :
    a ∈ (dedupInstanceIds [] cfgs).1.filterMap gather ↔
      ∃ cfg, entry cfgs (idOf a) = some cfg ∧ gather cfg = some a := by
  rw [List.mem_filterMap]
  constructor
  · rintro ⟨cfg, kept, gathers⟩
    refine ⟨cfg, ?_, gathers⟩
    rw [own cfg a gathers]
    exact (kept_entry cfgs cfg).mp kept
  · rintro ⟨cfg, is, gathers⟩
    refine ⟨cfg, (kept_entry cfgs cfg).mpr ?_, gathers⟩
    rw [entry_id cfgs _ cfg is]
    exact is

theorem settled_gathered (cfgs : List InstanceCfg) :
    Settled records global found cfgs
      (gathered records global found (dedupInstanceIds [] cfgs).1) := by
  have distinct := kept_nodup [] cfgs
  have live := mem_gathered cfgs (fun cfg => (fate records global found cfg).inst) Instance.id
    (fate_live_id records global found)
  have disabled := mem_gathered cfgs (fun cfg => (fate records global found cfg).info)
    DisabledInstanceInfo.id (fate_disabled_id records global found)
  refine ⟨?_, fun inst => ?_, fun info => ?_, fun inst member => ?_⟩
  · refine List.nodup_append'.mpr ⟨?_, ?_, ?_⟩
    · exact gathered_nodup _ _ _ (fate_live_id records global found) distinct
    · exact gathered_nodup _ _ _ (fate_disabled_id records global found) distinct
    · intro id running stopped
      obtain ⟨inst, linst, rfl⟩ := List.mem_map.mp running
      obtain ⟨info, linfo, same⟩ := List.mem_map.mp stopped
      obtain ⟨cfg, is, runs⟩ := (live inst).mp linst
      obtain ⟨other, also, stops⟩ := (disabled info).mp linfo
      rw [same, is, Option.some_inj] at also
      exact fates_apart records global found cfg inst info runs (also ▸ stops)
  · exact (live inst).trans (exists_congr fun cfg =>
      and_congr_right fun _ => fate_live records global found cfg inst)
  · exact (disabled info).trans (exists_congr fun cfg =>
      and_congr_right fun _ => fate_disabled records global found cfg info)
  · obtain ⟨cfg, _, runs⟩ := (live inst).mp member
    obtain ⟨id, enabled, active⟩ :=
      build_spec records _ cfg inst ((fate_live records global found cfg inst).mp runs).2
    rw [active, id, enabled]

def Opens : Prop := openState site = .ok () ∧ ∃ rate, globalRate site global = .ok rate

theorem run_eq (cfgs : List InstanceCfg) (roster : Roster) :
    run site records global found cfgs = .ok roster ↔ Opens site global ∧
      (∀ cfg ∈ (dedupInstanceIds [] cfgs).1, ¬ Aborts global found cfg) ∧
        roster = gathered records global found (dedupInstanceIds [] cfgs).1 ∧
          roster.instances ≠ [] := by
  unfold run Opens
  cases opened : openState site with
  | error e => exact ⟨fun ran => (by cases ran), fun all => (by cases all.1.1)⟩
  | ok done =>
  cases rated : globalRate site global with
  | error e => exact ⟨fun ran => (by cases ran), fun all => (by obtain ⟨_, none⟩ := all.1.2; cases none)⟩
  | ok rate =>
  rw [and_iff_right ⟨rfl, rate, rfl⟩]
  show (startInstances records global found _ _ >>= _) = _ ↔ _
  rw [start_instances_eq]
  cases first : (dedupInstanceIds [] cfgs).1.find? fun cfg => fate records global found cfg = .fatal with
  | some cfg =>
      have holds := List.find?_some first
      have fatal := of_decide_eq_true holds
      have kept := List.mem_of_find?_eq_some first
      constructor
      · intro ran
        cases ran
      · rintro ⟨none, _⟩
        exact absurd ((fate_fatal records global found cfg).mp fatal) (none cfg kept)
  | none =>
      have calm : ∀ cfg ∈ (dedupInstanceIds [] cfgs).1, ¬ Aborts global found cfg := by
        intro cfg kept aborts
        have never := List.find?_eq_none.mp first cfg kept
        exact never (decide_eq_true ((fate_fatal records global found cfg).mpr aborts))
      show (if (gathered records global found (dedupInstanceIds [] cfgs).1).instances.isEmpty = true
        then Except.error nothingStartedText
        else Except.ok (gathered records global found (dedupInstanceIds [] cfgs).1)) = _ ↔ _
      by_cases nobody : (gathered records global found (dedupInstanceIds [] cfgs).1).instances = []
      · rw [if_pos (List.isEmpty_iff.mpr nobody)]
        constructor
        · intro ran
          cases ran
        · rintro ⟨_, rfl, somebody⟩
          exact absurd nobody somebody
      · rw [if_neg fun empty => nobody (List.isEmpty_iff.mp empty)]
        constructor
        · intro ran
          cases ran
          exact ⟨calm, rfl, nobody⟩
        · rintro ⟨_, rfl, _⟩
          rfl

end

end FileReplicator.Startup
