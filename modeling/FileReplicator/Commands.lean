import FileReplicator.Effects
import FileReplicator.StatusDocument

/-!
# Commands

The handlers of the control plane, `get-status`, `trigger` and `set-activation`, as
programs over what they call: the flags of the running instances, the store, the
scans they start and the events they emit. Their replies tell what they have done,
all of it and nothing else.
-/

namespace FileReplicator.Commands

open Domain DurableStore DurationText Effects Json Startup StatusDocument

/-! ## Calls -/

inductive Event where
  | scheduleTriggered (scope : String)
  | instanceActivated (source : String)
  | instanceDeactivated (source : String)
  deriving DecidableEq

structure CommandError where
  code : String
  message : String
  deriving DecidableEq

inductive Op where
  | now
  | isActive (id : String)
  /-- The flag of a running instance is stored. -/
  | setFlag (id : String) (active : Bool)
  | setActivation (id : String) (active : Bool) (source : String) (now : Int)
  | clearActivation (id : String)
  | spawnTrigger (id : String) (now : Int) (ignoreWindow : Bool)
  /-- An event of an instance. -/
  | notify (id : String) (event : Event)
  /-- An event of the component. -/
  | emit (event : Event)
  | stats (id : String)
  | listByState (id : String) (state : ItemState)
  /-- The command inbox sends the reply. -/
  | reply (result : Except CommandError Value)

abbrev Ret : Op → Type
  | .now => Int
  | .isActive _ => Bool
  | .setActivation _ _ _ _ => Except ReplError Unit
  | .clearActivation _ => Except ReplError Unit
  | .stats _ => Except ReplError Stats
  | .listByState _ _ => Except ReplError (List WorkItem)
  | _ => Unit

abbrev Program := Prog Op Ret

/-- `Result<Option<Value>, CommandError>`: there is always a value. -/
abbrev Handler := Task Op Ret CommandError

abbrev Change := Task Op Ret ReplError

def perform {Error : Type} (operation : Op) : Task Op Ret Error (Ret operation) :=
  always (Prog.perform operation)

/-! ## Requests -/

inductive Verb where
  | getStatus
  | trigger
  | setActivation
  deriving DecidableEq

/-- The body of the request with the instance that its topic names. -/
def address (body : Value) : Option String → Value
  | none => body
  | some id =>
      match body with
      | .obj fields => .obj (insert "instance" (.str id) fields)
      | _ => .obj [("instance", .str id)]

def instanceOf (body : Value) : Option String := (body.get "instance").bind Value.asStr

/-- `f != 0.0`. -/
def isNonzero : Float64 → Bool
  | .finite _ mantissa _ => mantissa ≠ 0
  | _ => true

def lenientBool : Option Value → Option Bool
  | some (.bool b) => some b
  | some (.int n) => some (n ≠ 0)
  | some (.float x) => some (isNonzero x)
  | some (.str s) =>
      let text := (trim s.toList).map Char.toLower
      if text = "true".toList ∨ text = "1".toList then some true
      else if text = "false".toList ∨ text = "0".toList then some false
      else none
  | _ => none

def errUnknownInstance : String := "UNKNOWN_INSTANCE"
def errInstanceRequired : String := "INSTANCE_REQUIRED"
def errInvalidRequest : String := "INVALID_REQUEST"
def errActivationFailed : String := "ACTIVATION_FAILED"

def unknownInstance (id : String) : CommandError where
  code := errUnknownInstance
  message := "unknown instance '" ++ id ++ "'"

/-! ## Handlers -/

structure Plane where
  componentName : String
  thingName : String
  instances : List Instance
  disabled : List DisabledInstanceInfo

namespace Plane

variable (plane : Plane)

def find (id : String) : Option Instance := plane.instances.find? fun inst => inst.id = id

def findDisabled (id : String) : Option DisabledInstanceInfo :=
  plane.disabled.find? fun info => info.id = id

end Plane

section

variable (rfc3339Ms : Int → String) (plane : Plane)

/-- The reads of `instance_state_snapshot`, in their order. -/
def instanceStatus (inst : Instance) (now : Int) : Program Value := do
  let active ← Prog.perform (.isActive inst.id)
  let stats ← Prog.perform (.stats inst.id)
  let awaiting ← Prog.perform (.listByState inst.id .ready)
  let inProgress ← Prog.perform (.listByState inst.id .inProgress)
  let failed ← Prog.perform (.listByState inst.id .failed)
  let exhausted ← Prog.perform (.listByState inst.id .exhausted)
  let quarantined ← Prog.perform (.listByState inst.id .quarantined)
  let cleanupFailed ← Prog.perform (.listByState inst.id .cleanupFailed)
  let answers : ItemState → Except ReplError (List WorkItem) := fun state =>
    match state with
    | .ready => awaiting
    | .inProgress => inProgress
    | .failed => failed
    | .exhausted => exhausted
    | .quarantined => quarantined
    | .cleanupFailed => cleanupFailed
    | _ => .ok []
  return instanceStateSnapshot rfc3339Ms now stats answers inst active

def instanceStatuses (now : Int) : List Instance → Program (List Value)
  | [] => return []
  | inst :: rest => do
      let doc ← instanceStatus rfc3339Ms inst now
      let docs ← instanceStatuses now rest
      return doc :: docs

def countActive : List Instance → Program Nat
  | [] => return 0
  | inst :: rest => do
      let active ← Prog.perform (.isActive inst.id)
      let count ← countActive rest
      return if active then count + 1 else count

def componentStatusJson (now : Int) : Program Value := do
  let docs ← instanceStatuses rfc3339Ms now plane.instances
  let active ← countActive plane.instances
  return .obj [
    ("component", .str plane.componentName),
    ("thing", .str plane.thingName),
    ("instances", .arr (docs ++ plane.disabled.map disabledStatusJson)),
    ("summary", .obj [
      ("instances", .ofNat (plane.instances.length + plane.disabled.length)),
      ("active", .ofNat active),
      ("disabled", .ofNat plane.disabled.length)])]

def onGetStatus (req : Value) : Handler Value := do
  let now ← perform .now
  match instanceOf req with
  | none => always (componentStatusJson rfc3339Ms plane now)
  | some id =>
      match plane.find id with
      | some inst => always (instanceStatus rfc3339Ms inst now)
      | none =>
          match plane.findDisabled id with
          | some info => return disabledStatusJson info
          | none => throw (unknownInstance id)

def allTriggered (triggered skipped : List String) (ignoreWindow : Bool) : Value :=
  .obj [("scope", .str "all"), ("triggered", .ofNat triggered.length),
    ("instances", .ofStrings triggered), ("skipped", .ofStrings skipped),
    ("ignoreWindow", .bool ignoreWindow)]

def oneSkipped (id : String) (ignoreWindow : Bool) : Value :=
  .obj [("scope", .str id), ("triggered", .ofNat 0), ("skipped", .str "inactive"),
    ("ignoreWindow", .bool ignoreWindow)]

def oneTriggered (id : String) (ignoreWindow : Bool) : Value :=
  .obj [("scope", .str id), ("triggered", .ofNat 1), ("ignoreWindow", .bool ignoreWindow)]

/-- The loop over the instances, with the ids that are triggered and skipped so far. -/
def triggerAll (now : Int) (ignoreWindow : Bool) (triggered skipped : List String) :
    List Instance → Program (List String × List String)
  | [] => return (triggered, skipped)
  | inst :: rest => do
      if ← Prog.perform (.isActive inst.id) then
        Prog.perform (Op.spawnTrigger inst.id now ignoreWindow)
        triggerAll now ignoreWindow (triggered ++ [inst.id]) skipped rest
      else
        triggerAll now ignoreWindow triggered (skipped ++ [inst.id]) rest

def onTrigger (req : Value) : Handler Value := do
  let now ← perform .now
  let ignoreWindow := (lenientBool (req.get "ignoreWindow")).getD false
  match instanceOf req with
  | none =>
      let ids ← always (triggerAll now ignoreWindow [] [] plane.instances)
      perform (.emit (.scheduleTriggered "all"))
      return allTriggered ids.1 ids.2 ignoreWindow
  | some id =>
      match plane.find id with
      | some inst =>
          if ← perform (.isActive inst.id) then
            perform (.spawnTrigger inst.id now ignoreWindow)
            perform (.notify inst.id (.scheduleTriggered id))
            return oneTriggered id ignoreWindow
          else
            return oneSkipped id ignoreWindow
      | none => throw (unknownInstance id)

/-! ### Activation -/

def applyActivation (inst : Instance) (active persist : Bool) (source : String) (now : Int) :
    Change Bool := do
  if persist then
    ExceptT.mk (Prog.perform (Op.setActivation inst.id active source now))
    perform (.setFlag inst.id active)
  else
    perform (.setFlag inst.id active)
  return active

def resetActivation (inst : Instance) : Change Bool := do
  ExceptT.mk (Prog.perform (Op.clearActivation inst.id))
  perform (.setFlag inst.id inst.configEnabled)
  perform (.isActive inst.id)

def activationEvent (active : Bool) : Event :=
  if active then .instanceActivated "control" else .instanceDeactivated "control"

def emitActivation (inst : Instance) (active : Bool) : Handler Unit :=
  perform (.notify inst.id (activationEvent active))

def resetReply (id : String) (active configEnabled : Bool) : Value :=
  .obj [("instance", .str id), ("active", .bool active), ("configuredEnabled", .bool configEnabled),
    ("reset", .bool true)]

def appliedReply (id : String) (active configEnabled persist : Bool) : Value :=
  .obj [("instance", .str id), ("active", .bool active), ("configuredEnabled", .bool configEnabled),
    ("persisted", .bool persist)]

def activationFailed (e : ReplError) : CommandError where
  code := errActivationFailed
  message := e.text

def onSetActivation (req : Value) : Handler Value := do
  let now ← perform .now
  match instanceOf req with
  | none =>
      throw ⟨errInstanceRequired,
        "set-activation requires an \"instance\" field (it has no \"all\" form)"⟩
  | some id =>
      match plane.find id with
      | none => throw (unknownInstance id)
      | some inst =>
          if (lenientBool (req.get "reset")).getD false then
            match ← always (resetActivation inst).run with
            | .ok effective =>
                emitActivation inst effective
                return resetReply id effective inst.configEnabled
            | .error e => throw (activationFailed e)
          else
            match lenientBool (req.get "active") with
            | some active =>
                let persist := (lenientBool (req.get "persist")).getD true
                match ← always (applyActivation inst active persist "control" now).run with
                | .ok effective =>
                    emitActivation inst effective
                    return appliedReply id effective inst.configEnabled persist
                | .error e => throw (activationFailed e)
            | none =>
                throw ⟨errInvalidRequest, "set-activation requires `active` (bool) or `reset: true`"⟩

end

/-- A command that has been delivered, with the instance that its topic names folded into its body. -/
structure Request where
  plane : Plane
  verb : Verb
  body : Value

def handle (rfc3339Ms : Int → String) (r : Request) : Handler Value :=
  match r.verb with
  | .getStatus => onGetStatus rfc3339Ms r.plane r.body
  | .trigger => onTrigger r.plane r.body
  | .setActivation => onSetActivation r.plane r.body

def serveCommand (rfc3339Ms : Int → String) (r : Request) : Program Unit := do
  let result ← (handle rfc3339Ms r).run
  Prog.perform (Op.reply result)

inductive Deed where
  | record (id : String) (value : Option Bool)
  | flag (id : String) (active : Bool)
  | scan (id : String) (ignoreWindow : Bool)
  /-- An event, of an instance or of the component. -/
  | said (scope : Option String) (event : Event)
  deriving DecidableEq

/-- The change that a call makes; a refused statement makes none. -/
def deedOf : (operation : Op) → Ret operation → Option Deed
  | .setActivation id active _ _, .ok _ => some (.record id (some active))
  | .clearActivation id, .ok _ => some (.record id none)
  | .setFlag id active, _ => some (.flag id active)
  | .spawnTrigger id _ ignoreWindow, _ => some (.scan id ignoreWindow)
  | .notify id event, _ => some (.said (some id) event)
  | .emit event, _ => some (.said none event)
  | _, _ => none

/-! ### What a reply tells -/

def strAt (key : String) (reply : Value) : Option String := (reply.get key).bind Value.asStr

def intAt (key : String) (reply : Value) : Option Int := (reply.get key).bind Value.asInt

def boolAt (key : String) (reply : Value) : Option Bool := (reply.get key).bind Value.asBool

/-- The scans that a reply tells of, and the event of the trigger. -/
def toldScans (reply : Value) : List Deed :=
  match strAt "scope" reply, boolAt "ignoreWindow" reply, reply.get "instances" with
  | some _, some ignoreWindow, some ids =>
      (ids.items.filterMap Value.asStr).map (Deed.scan · ignoreWindow) ++
        [.said none (.scheduleTriggered "all")]
  | some scope, some ignoreWindow, none =>
      if intAt "triggered" reply = some 1 then
        [.scan scope ignoreWindow, .said (some scope) (.scheduleTriggered scope)]
      else []
  | _, _, _ => []

def toldActivation (reply : Value) : List Deed :=
  match strAt "instance" reply, boolAt "active" reply, boolAt "configuredEnabled" reply with
  | some id, some active, some enabled =>
      if boolAt "reset" reply = some true then
        [.record id none, .flag id enabled, .said (some id) (activationEvent active)]
      else
        match boolAt "persisted" reply with
        | some true =>
            [.record id (some active), .flag id active, .said (some id) (activationEvent active)]
        | some false => [.flag id active, .said (some id) (activationEvent active)]
        | none => []
  | _, _, _ => []

/-- The changes that a reply tells of; an error tells that there are none. -/
def told : Except CommandError Value → List Deed
  | .ok reply => toldScans reply ++ toldActivation reply
  | .error _ => []

def idsAt (key : String) (reply : Value) : List String :=
  ((reply.get key).elim [] Value.items).filterMap Value.asStr

section

variable (r : Request)

def Addressed (id : String) : Prop :=
  (∃ inst ∈ r.plane.instances, inst.id = id) ∧ ∀ named, instanceOf r.body = some named → named = id

def Asks : Deed → Prop
  | .record id value => r.verb = .setActivation ∧ instanceOf r.body = some id ∧
      value = if (lenientBool (r.body.get "reset")).getD false then none
        else lenientBool (r.body.get "active")
  | .flag id active => r.verb = .setActivation ∧ instanceOf r.body = some id ∧
      some active = if (lenientBool (r.body.get "reset")).getD false
        then (r.plane.find id).map Instance.configEnabled else lenientBool (r.body.get "active")
  | .scan id ignoreWindow => r.verb = .trigger ∧ Addressed r id ∧
      ignoreWindow = (lenientBool (r.body.get "ignoreWindow")).getD false
  | .said scope _ => r.verb ≠ .getStatus ∧ scope = instanceOf r.body

structure Honest (reply : Except CommandError Value) (deeds : List Deed) : Prop where
  told : deeds = told reply
  /-- A trigger of all instances triggers or skips each of them. -/
  all : r.verb = .trigger → instanceOf r.body = none → ∃ value, reply = .ok value ∧
    (idsAt "instances" value ++ idsAt "skipped" value).Perm (r.plane.instances.map Instance.id)
  known : ∀ id, instanceOf r.body = some id →
    (reply = .error (unknownInstance id) ↔
      r.plane.find id = none ∧ (r.verb = .getStatus → r.plane.findDisabled id = none))

/-- A command notes its changes: each is one that the request asks for, and the reply tells them. -/
def recorder : Discipline Op Ret (List Deed) where
  allowed := fun deeds operation =>
    (∀ ret deed, deedOf operation ret = some deed → Asks r deed) ∧
      ∀ result, operation = .reply result → Honest r result deeds
  possible := fun _ _ => True
  learn := fun deeds operation ret => deeds ++ (deedOf operation ret).toList

end

section Recording

variable {α β Error : Type} (r : Request) (deeds : List Deed)

theorem step_call (operation : Op) (next : Ret operation → Program β) (post : β → List Deed → Prop)
    (asks : ∀ ret deed, deedOf operation ret = some deed → Asks r deed)
    (silent : ∀ result, operation ≠ .reply result)
    (holds : ∀ ret, Keeps (recorder r) (next ret) (deeds ++ (deedOf operation ret).toList) post) :
    Keeps (recorder r) (Prog.perform operation >>= next) deeds post :=
  keeps_bind _ _ _ _ _ (keeps_perform _ _ _ _ ⟨asks, fun result is => absurd is (silent result)⟩
    fun ret _ => holds ret)

theorem read_call (operation : Op) (next : Ret operation → Program β) (post : β → List Deed → Prop)
    (reads : ∀ ret, deedOf operation ret = none) (silent : ∀ result, operation ≠ .reply result)
    (holds : ∀ ret, Keeps (recorder r) (next ret) deeds post) :
    Keeps (recorder r) (Prog.perform operation >>= next) deeds post := by
  refine step_call r deeds operation next post (fun ret deed is => ?_) silent fun ret => ?_
  · rw [reads] at is
    cases is
  · rw [reads, Option.toList_none, List.append_nil]
    exact holds ret

theorem step_task (operation : Op) (next : Ret operation → Task Op Ret Error β)
    (post : Except Error β → List Deed → Prop)
    (asks : ∀ ret deed, deedOf operation ret = some deed → Asks r deed)
    (silent : ∀ result, operation ≠ .reply result)
    (holds : ∀ ret, Keeps (recorder r) (next ret).run (deeds ++ (deedOf operation ret).toList) post) :
    Keeps (recorder r) (perform operation >>= next).run deeds post :=
  keeps_task_bind _ _ _ _ _ (keeps_always _ _ _ _ (keeps_perform _ _ _ _
    ⟨asks, fun result is => absurd is (silent result)⟩ fun ret _ => holds ret))

theorem read_task (operation : Op) (next : Ret operation → Task Op Ret Error β)
    (post : Except Error β → List Deed → Prop) (reads : ∀ ret, deedOf operation ret = none)
    (silent : ∀ result, operation ≠ .reply result)
    (holds : ∀ ret, Keeps (recorder r) (next ret).run deeds post) :
    Keeps (recorder r) (perform operation >>= next).run deeds post := by
  refine step_task r deeds operation next post (fun ret deed is => ?_) silent fun ret => ?_
  · rw [reads] at is
    cases is
  · rw [reads, Option.toList_none, List.append_nil]
    exact holds ret

theorem step_program (program : Program α) (next : α → Task Op Ret Error β)
    (post : Except Error β → List Deed → Prop)
    (keeps : Keeps (recorder r) program deeds fun value after =>
      Keeps (recorder r) (next value).run after post) :
    Keeps (recorder r) (always program >>= next).run deeds post :=
  keeps_task_bind _ _ _ _ _ (keeps_always _ _ _ _ keeps)

end Recording

section

variable (rfc3339Ms : Int → String) (r : Request)

theorem instance_status_quiet (inst : Instance) (now : Int) (deeds : List Deed) :
    Keeps (recorder r) (instanceStatus rfc3339Ms inst now) deeds fun doc after =>
      after = deeds ∧ told (.ok doc) = [] := by
  refine read_call r deeds _ _ _ (fun _ => rfl) (fun _ => nofun) fun active => ?_
  refine read_call r deeds _ _ _ (fun _ => rfl) (fun _ => nofun) fun stats => ?_
  refine read_call r deeds _ _ _ (fun _ => rfl) (fun _ => nofun) fun awaiting => ?_
  refine read_call r deeds _ _ _ (fun _ => rfl) (fun _ => nofun) fun inProgress => ?_
  refine read_call r deeds _ _ _ (fun _ => rfl) (fun _ => nofun) fun failed => ?_
  refine read_call r deeds _ _ _ (fun _ => rfl) (fun _ => nofun) fun exhausted => ?_
  refine read_call r deeds _ _ _ (fun _ => rfl) (fun _ => nofun) fun quarantined => ?_
  refine read_call r deeds _ _ _ (fun _ => rfl) (fun _ => nofun) fun cleanupFailed => ?_
  exact ⟨rfl, rfl⟩

theorem instance_statuses_quiet (now : Int) (instances : List Instance) (deeds : List Deed) :
    Keeps (recorder r) (instanceStatuses rfc3339Ms now instances) deeds fun _ after => after = deeds := by
  induction instances with
  | nil => rfl
  | cons inst rest ih =>
      refine keeps_bind _ _ _ _ _ (keeps_mono _ _ _ _ _
        (instance_status_quiet rfc3339Ms r inst now deeds) ?_)
      rintro doc after ⟨rfl, _⟩
      refine keeps_bind _ _ _ _ _ (keeps_mono _ _ _ _ _ ih ?_)
      rintro docs after rfl
      rfl

theorem count_active_quiet (instances : List Instance) (deeds : List Deed) :
    Keeps (recorder r) (countActive instances) deeds fun _ after => after = deeds := by
  induction instances with
  | nil => rfl
  | cons inst rest ih =>
      refine read_call r deeds _ _ _ (fun _ => rfl) (fun _ => nofun) fun active => ?_
      refine keeps_bind _ _ _ _ _ (keeps_mono _ _ _ _ _ ih ?_)
      rintro count after rfl
      rfl

theorem component_status_quiet (now : Int) (deeds : List Deed) :
    Keeps (recorder r) (componentStatusJson rfc3339Ms r.plane now) deeds fun doc after =>
      after = deeds ∧ told (.ok doc) = [] := by
  refine keeps_bind _ _ _ _ _ (keeps_mono _ _ _ _ _
    (instance_statuses_quiet rfc3339Ms r now r.plane.instances deeds) ?_)
  rintro docs after rfl
  refine keeps_bind _ _ _ _ _ (keeps_mono _ _ _ _ _
    (count_active_quiet r r.plane.instances after) ?_)
  rintro active after rfl
  exact ⟨rfl, rfl⟩

/-- A status changes nothing, and there is one of every instance that is on the roster. -/
theorem status_honest (is : r.verb = .getStatus) :
    Keeps (recorder r) (onGetStatus rfc3339Ms r.plane r.body).run [] (Honest r) := by
  refine read_task r [] _ _ _ (fun _ => rfl) (fun _ => nofun) fun now => ?_
  have quiet : ∀ doc, told (.ok doc) = [] → (∀ id, instanceOf r.body = some id →
      ¬(r.plane.find id = none ∧ r.plane.findDisabled id = none)) →
      Honest r (.ok doc) [] := fun doc none listed =>
    { told := none.symm
      all := fun other => by rw [is] at other; cases other
      known := fun id named => ⟨nofun, fun out => absurd ⟨out.1, out.2 is⟩ (listed id named)⟩ }
  cases target : instanceOf r.body with
  | none =>
      refine keeps_always _ _ _ _ (keeps_mono _ _ _ _ _
        (component_status_quiet rfc3339Ms r now []) ?_)
      rintro doc after ⟨rfl, none⟩
      exact quiet doc none fun id named => by rw [target] at named; cases named
  | some id =>
      dsimp only
      cases found : r.plane.find id with
      | some inst =>
          refine keeps_always _ _ _ _ (keeps_mono _ _ _ _ _
            (instance_status_quiet rfc3339Ms r inst now []) ?_)
          rintro doc after ⟨rfl, none⟩
          refine quiet doc none fun other named => ?_
          rw [target, Option.some_inj] at named
          rw [← named, found]
          exact fun absent => nomatch absent.1
      | none =>
          dsimp only
          cases listed : r.plane.findDisabled id with
          | some info =>
              refine quiet (disabledStatusJson info) rfl fun other named => ?_
              rw [target, Option.some_inj] at named
              rw [← named, listed]
              exact fun absent => nomatch absent.2
          | none =>
              refine {
                told := rfl
                all := fun other => by rw [is] at other; cases other
                known := fun other named => ?_ }
              rw [target, Option.some_inj] at named
              subst named
              exact ⟨fun _ => ⟨found, fun _ => listed⟩, fun _ => rfl⟩

theorem find_spec (plane : Plane) (id : String) (inst : Instance) (found : plane.find id = some inst) :
    inst ∈ plane.instances ∧ inst.id = id := by
  have holds := List.find?_some found
  exact ⟨List.mem_of_find?_eq_some found, of_decide_eq_true holds⟩

theorem trigger_all_spec (now : Int) (ignoreWindow : Bool) (instances : List Instance)
    (asks : ∀ inst ∈ instances, Asks r (.scan inst.id ignoreWindow))
    (triggered skipped : List String) (deeds : List Deed) :
    Keeps (recorder r) (triggerAll now ignoreWindow triggered skipped instances) deeds fun ids after =>
      ∃ scanned left, ids = (triggered ++ scanned, skipped ++ left) ∧
        after = deeds ++ scanned.map (Deed.scan · ignoreWindow) ∧
          (scanned ++ left).Perm (instances.map Instance.id) := by
  induction instances generalizing triggered skipped deeds with
  | nil => exact ⟨[], [], by simp, by simp, List.Perm.nil⟩
  | cons inst rest ih =>
      have later := ih fun other member => asks other (List.mem_cons_of_mem inst member)
      refine read_call r deeds _ _ _ (fun _ => rfl) (fun _ => nofun) fun active => ?_
      cases active with
      | true =>
          refine step_call r deeds (Op.spawnTrigger inst.id now ignoreWindow) _ _ ?_ (fun _ => nofun)
            fun _ => ?_
          · rintro _ _ ⟨⟩
            exact asks inst List.mem_cons_self
          refine keeps_mono _ _ _ _ _ (later _ _ _) ?_
          rintro ids after ⟨scanned, left, rfl, rfl, each⟩
          refine ⟨inst.id :: scanned, left, ?_, ?_, each.cons inst.id⟩
          · rw [List.append_assoc]
            rfl
          · rw [List.append_assoc]
            rfl
      | false =>
          refine keeps_mono _ _ _ _ _ (later _ _ _) ?_
          rintro ids after ⟨scanned, left, rfl, rfl, each⟩
          refine ⟨scanned, inst.id :: left, ?_, rfl, ?_⟩
          · rw [List.append_assoc]
            rfl
          · exact List.perm_middle.trans (each.cons inst.id)

theorem strings_back (ids : List String) : (Value.ofStrings ids).items.filterMap Value.asStr = ids := by
  show (ids.map Value.str).filterMap Value.asStr = ids
  induction ids with
  | nil => rfl
  | cons id rest ih => rw [List.map_cons, List.filterMap_cons, Value.asStr, ih]

theorem trigger_honest (is : r.verb = .trigger) :
    Keeps (recorder r) (onTrigger r.plane r.body).run [] (Honest r) := by
  refine read_task r [] _ _ _ (fun _ => rfl) (fun _ => nofun) fun now => ?_
  have spoken : r.verb ≠ .getStatus := by rw [is]; exact nofun
  cases target : instanceOf r.body with
  | none =>
      have asks : ∀ inst ∈ r.plane.instances,
          Asks r (.scan inst.id ((lenientBool (r.body.get "ignoreWindow")).getD false)) :=
        fun inst member => ⟨is, ⟨⟨inst, member, rfl⟩, fun named here => by
          rw [target] at here; cases here⟩, rfl⟩
      refine step_program r [] _ _ _ (keeps_mono _ _ _ _ _
        (trigger_all_spec r now _ r.plane.instances asks [] [] []) ?_)
      rintro ids after ⟨scanned, left, rfl, rfl, each⟩
      refine step_task r _ (Op.emit (.scheduleTriggered "all")) _ _ ?_ (fun _ => nofun) fun _ => ?_
      · rintro _ _ ⟨⟩
        exact ⟨spoken, target.symm⟩
      refine {
        told := ?_
        all := fun _ _ => ⟨_, rfl, ?_⟩
        known := fun id named => ?_ }
      · show _ = ((Value.ofStrings scanned).items.filterMap Value.asStr).map _ ++ _ ++ []
        rw [strings_back, List.append_nil]
        rfl
      · show (((Value.ofStrings scanned).items.filterMap Value.asStr) ++
          ((Value.ofStrings left).items.filterMap Value.asStr)).Perm _
        rw [strings_back, strings_back]
        exact each
      · rw [target] at named
        cases named
  | some id =>
      dsimp only
      have one : ∀ other, instanceOf r.body = some other → other = id := fun other named => by
        rw [target, Option.some_inj] at named
        exact named.symm
      have single : ∀ value : Prop, r.verb = .trigger → instanceOf r.body = none → value :=
        fun _ _ all => by rw [target] at all; cases all
      cases found : r.plane.find id with
      | none =>
          refine {
            told := rfl
            all := single _
            known := fun other named => ?_ }
          rw [one other named]
          exact ⟨fun _ => ⟨found, fun status => absurd status spoken⟩, fun _ => rfl⟩
      | some inst =>
          obtain ⟨listed, same⟩ := find_spec r.plane id inst found
          have known : ∀ value other, instanceOf r.body = some other →
              ((Except.ok value : Except CommandError Value) = .error (unknownInstance other) ↔
                r.plane.find other = none ∧
                  (r.verb = .getStatus → r.plane.findDisabled other = none)) := by
            intro value other named
            rw [one other named, found]
            exact ⟨nofun, fun out => nomatch out.1⟩
          refine read_task r [] _ _ _ (fun _ => rfl) (fun _ => nofun) fun active => ?_
          cases active with
          | true =>
              refine step_task r [] (Op.spawnTrigger inst.id now _) _ _ ?_ (fun _ => nofun) fun _ => ?_
              · rintro _ _ ⟨⟩
                exact ⟨is, ⟨⟨inst, listed, rfl⟩, fun named here => (one named here).trans same.symm⟩, rfl⟩
              refine step_task r _ (Op.notify inst.id (.scheduleTriggered id)) _ _ ?_ (fun _ => nofun)
                fun _ => ?_
              · rintro _ _ ⟨⟩
                exact ⟨spoken, by rw [same, target]⟩
              rw [same]
              exact { told := rfl, all := single _, known := known _ }
          | false => exact { told := rfl, all := single _, known := known _ }

/-- How a change of the activation ends: refused without a change, or done. -/
def Ends (deeds made : List Deed) (result : Except ReplError Bool) (after : List Deed) : Prop :=
  (∀ e, result = .error e → after = deeds) ∧ ∀ effective, result = .ok effective → after = deeds ++ made

theorem apply_spec (inst : Instance) (active persist : Bool) (source : String) (now : Int)
    (record : Asks r (.record inst.id (some active))) (flag : Asks r (.flag inst.id active))
    (deeds : List Deed) :
    Keeps (recorder r) (applyActivation inst active persist source now).run deeds fun result after =>
      Ends deeds ((if persist then [.record inst.id (some active)] else []) ++ [.flag inst.id active])
        result after ∧ ∀ effective, result = .ok effective → effective = active := by
  have flagged : ∀ done : List Deed, Keeps (recorder r)
      (perform (Op.setFlag inst.id active) >>= fun _ => (return active : Change Bool)).run
        done fun result after => (result = .ok active ∧ after = done ++ [.flag inst.id active]) := by
    intro done
    refine step_task r done (Op.setFlag inst.id active) _ _ ?_ (fun _ => nofun) fun _ => ⟨rfl, rfl⟩
    rintro _ _ ⟨⟩
    exact flag
  cases persist with
  | false =>
      refine keeps_mono _ _ _ _ _ (flagged deeds) ?_
      rintro result after ⟨rfl, rfl⟩
      exact ⟨⟨nofun, fun effective is => rfl⟩, fun effective is => (Except.ok.inj is).symm⟩
  | true =>
      refine keeps_task_bind _ _ _ _ _ (keeps_perform _
        (Op.setActivation inst.id active source now) _ _ ⟨?_, nofun⟩ fun ret _ => ?_)
      · rintro (e | _) _ is
        · cases is
        · cases is
          exact record
      cases ret with
      | error e => exact ⟨⟨fun _ _ => List.append_nil deeds, nofun⟩, nofun⟩
      | ok done =>
          refine keeps_mono _ _ _ _ _ (flagged _) ?_
          rintro result after ⟨rfl, rfl⟩
          refine ⟨⟨nofun, fun effective is => ?_⟩, fun effective is => (Except.ok.inj is).symm⟩
          exact List.append_assoc _ _ _

theorem reset_spec (inst : Instance) (record : Asks r (.record inst.id none))
    (flag : Asks r (.flag inst.id inst.configEnabled)) (deeds : List Deed) :
    Keeps (recorder r) (resetActivation inst).run deeds fun result after =>
      Ends deeds [.record inst.id none, .flag inst.id inst.configEnabled] result after := by
  refine keeps_task_bind _ _ _ _ _ (keeps_perform _ (Op.clearActivation inst.id) _ _ ⟨?_, nofun⟩
    fun ret _ => ?_)
  · rintro (e | _) _ is
    · cases is
    · cases is
      exact record
  cases ret with
  | error e => exact ⟨fun _ _ => List.append_nil deeds, nofun⟩
  | ok done =>
      refine step_task r _ (Op.setFlag inst.id inst.configEnabled) _ _ ?_ (fun _ => nofun) fun _ => ?_
      · rintro _ _ ⟨⟩
        exact flag
      refine keeps_always _ _ _ _ (keeps_perform _ (Op.isActive inst.id) _ _ ⟨nofun, nofun⟩
        fun active _ => ?_)
      refine ⟨nofun, fun effective is => ?_⟩
      show ((deeds ++ _) ++ _) ++ [] = _
      rw [List.append_nil, List.append_assoc]
      rfl

theorem error_honest (is : r.verb = .setActivation) (e : CommandError)
    (other : ∀ id, instanceOf r.body = some id → e ≠ unknownInstance id ∧ r.plane.find id ≠ none) :
    Honest r (.error e) [] where
  told := rfl
  all := fun trigger => by rw [is] at trigger; cases trigger
  known := fun id named =>
    ⟨fun same => absurd (Except.error.inj same) (other id named).1,
      fun out => absurd out.1 (other id named).2⟩

theorem set_activation_honest (is : r.verb = .setActivation) :
    Keeps (recorder r) (onSetActivation r.plane r.body).run [] (Honest r) := by
  refine read_task r [] _ _ _ (fun _ => rfl) (fun _ => nofun) fun now => ?_
  have spoken : r.verb ≠ .getStatus := by rw [is]; exact nofun
  have never : ∀ value : Prop, r.verb = .trigger → instanceOf r.body = none → value :=
    fun _ trigger => by rw [is] at trigger; cases trigger
  cases target : instanceOf r.body with
  | none =>
      refine error_honest r is _ fun id named => ?_
      rw [target] at named
      cases named
  | some id =>
      dsimp only
      have one : ∀ other, instanceOf r.body = some other → other = id := fun other named => by
        rw [target, Option.some_inj] at named
        exact named.symm
      cases found : r.plane.find id with
      | none =>
          refine {
            told := rfl
            all := never _
            known := fun other named => ?_ }
          rw [one other named]
          exact ⟨fun _ => ⟨found, fun status => absurd status spoken⟩, fun _ => rfl⟩
      | some inst =>
          obtain ⟨listed, same⟩ := find_spec r.plane id inst found
          have running : ∀ other, instanceOf r.body = some other → r.plane.find other ≠ none := by
            intro other named absent
            rw [one other named, found] at absent
            cases absent
          have coded : ∀ (code text id : String), code ≠ errUnknownInstance →
              (⟨code, text⟩ : CommandError) ≠ unknownInstance id :=
            fun code text id apart same => apart (congrArg CommandError.code same)
          have known : ∀ value other, instanceOf r.body = some other →
              ((Except.ok value : Except CommandError Value) = .error (unknownInstance other) ↔
                r.plane.find other = none ∧
                  (r.verb = .getStatus → r.plane.findDisabled other = none)) := by
            intro value other named
            exact ⟨nofun, fun out => absurd out.1 (running other named)⟩
          dsimp only
          by_cases reset : (lenientBool (r.body.get "reset")).getD false = true
          · have record : Asks r (.record inst.id none) :=
              ⟨is, by rw [same, target], by rw [if_pos reset]⟩
            have flag : Asks r (.flag inst.id inst.configEnabled) :=
              ⟨is, by rw [same, target], by rw [if_pos reset, same, found]; rfl⟩
            rw [if_pos reset]
            refine step_program r [] _ _ _ (keeps_mono _ _ _ _ _ (reset_spec r inst record flag []) ?_)
            rintro result after ⟨refused, done⟩
            cases result with
            | error e =>
                rw [refused e rfl]
                exact error_honest r is _ fun other named =>
                  ⟨coded _ _ _ (by decide), running other named⟩
            | ok effective =>
                rw [done effective rfl]
                refine step_task r _ (Op.notify inst.id (activationEvent effective)) _ _ ?_
                  (fun _ => nofun) fun _ => ?_
                · rintro _ _ ⟨⟩
                  exact ⟨spoken, by rw [same, target]⟩
                rw [same]
                exact { told := rfl, all := never _, known := known _ }
          · rw [if_neg reset]
            cases wish : lenientBool (r.body.get "active") with
            | none =>
                exact error_honest r is _ fun other named =>
                  ⟨coded _ _ _ (by decide), running other named⟩
            | some active =>
                have record : Asks r (.record inst.id (some active)) :=
                  ⟨is, by rw [same, target], by rw [if_neg reset, wish]⟩
                have flag : Asks r (.flag inst.id active) :=
                  ⟨is, by rw [same, target], by rw [if_neg reset, wish]⟩
                refine step_program r [] _ _ _ (keeps_mono _ _ _ _ _
                  (apply_spec r inst active ((lenientBool (r.body.get "persist")).getD true) "control"
                    now record flag []) ?_)
                rintro result after ⟨⟨refused, done⟩, effect⟩
                cases result with
                | error e =>
                    rw [refused e rfl]
                    exact error_honest r is _ fun other named =>
                      ⟨coded _ _ _ (by decide), running other named⟩
                | ok effective =>
                    rw [done effective rfl, effect effective rfl]
                    refine step_task r _ (Op.notify inst.id (activationEvent active)) _ _ ?_
                      (fun _ => nofun) fun _ => ?_
                    · rintro _ _ ⟨⟩
                      exact ⟨spoken, by rw [same, target]⟩
                    rw [same]
                    cases (lenientBool (r.body.get "persist")).getD true with
                    | true => exact { told := rfl, all := never _, known := known _ }
                    | false => exact { told := rfl, all := never _, known := known _ }

/-- Whatever a command is answered, it changes only what its request asks for, and its reply tells all
that it has changed. -/
theorem command_honest : Keeps (recorder r) (serveCommand rfc3339Ms r) [] fun _ _ => True := by
  have honest : Keeps (recorder r) (handle rfc3339Ms r).run [] (Honest r) := by
    unfold handle
    cases verb : r.verb with
    | getStatus => exact status_honest rfc3339Ms r verb
    | trigger => exact trigger_honest r verb
    | setActivation => exact set_activation_honest r verb
  refine keeps_bind _ _ _ _ _ (keeps_mono _ _ _ _ _ honest ?_)
  intro reply deeds honest
  refine keeps_perform _ _ _ _ ⟨nofun, fun result same => ?_⟩ fun _ _ => trivial
  obtain rfl := Op.reply.inj same
  exact honest

end

end FileReplicator.Commands
