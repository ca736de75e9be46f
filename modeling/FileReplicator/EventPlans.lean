import FileReplicator.Json

/-!
# Events on the wire

What each event is published as: a severity, a type, a message where there is an
error to tell, and the rest of its fields. Whoever reads it there can tell again
which event it was, with all that it said.
-/

namespace FileReplicator.EventPlans

open Json DurationText

inductive Severity where
  | debug
  | info
  | warning
  | critical
  deriving DecidableEq

/-- The catalog. An instant is a number of milliseconds and a percentage a double, until they are
written down. -/
inductive Event (Instant Percent : Type) where
  | fileDiscovered (path : String) (size : Nat)
  | fileReady (path : String) (size : Nat)
  | replicationStarted (path : String) (size : Nat) (destination : String) (attempt : Nat)
  | replicationProgress (path : String) (size bytesDone : Nat) (percent : Percent)
      (destination : String) (attempt : Nat)
  | replicationCompleted (path : String) (size : Nat) (destination : String) (bytes : Nat)
  | replicationFailed (path destination : String) (attempt : Nat) (error : String)
      (nextAttemptAt : Option Instant)
  | retriesExhausted (path destination : String) (attempts : Nat) (lastError : String)
  | fileArchived (path : String) (archivePath : Option String)
  | fileDeleted (path : String)
  | fileCleanupFailed (path action : String) (attempts : Nat) (lastError : String)
  | fileQuarantined (path : String) (attempts : Nat) (lastError : String)
      (quarantinePath : Option String)
  | scanComplete (discovered awaiting : Nat)
  | instanceActivated (source : String)
  | instanceDeactivated (source : String)
  | componentReady (instances : Nat) (version : String)
  | scheduleTriggered (scope : String)
  | windowOpened (window : String)
  | windowClosed (window : String)
  | scheduleComplete (mode : String)
  | disconnected (link : String)
  | reconnected (link : String)
  | permissionDenied (path role error : String)
  deriving DecidableEq

/-- `json!` of a double. -/
def ofDouble (x : Float64) : Value := if x.isFinite then .float x else .null

def ofOption {α : Type} (key : String) (value : α → Value) (held : Option α) : List (String × Value) :=
  held.elim [] fun x => [(key, value x)]

namespace Event

variable (rfc3339 : Int → String)

def fields : Event Int Float64 → List (String × Value)
  | fileDiscovered path size | fileReady path size => [("path", .str path), ("size", .ofNat size)]
  | replicationStarted path size destination attempt =>
      [("path", .str path), ("size", .ofNat size), ("destination", .str destination),
        ("attempt", .ofNat attempt)]
  | replicationProgress path size bytesDone percent destination attempt =>
      [("path", .str path), ("size", .ofNat size), ("bytesDone", .ofNat bytesDone),
        ("percent", ofDouble percent), ("destination", .str destination), ("attempt", .ofNat attempt)]
  | replicationCompleted path size destination bytes =>
      [("path", .str path), ("size", .ofNat size), ("destination", .str destination),
        ("bytes", .ofNat bytes)]
  | replicationFailed path destination attempt error nextAttemptAt =>
      [("path", .str path), ("destination", .str destination), ("attempt", .ofNat attempt),
        ("error", .str error), ("willRetry", .bool true)] ++
      ofOption "nextAttemptAt" (fun ms => .str (rfc3339 ms)) nextAttemptAt
  | retriesExhausted path destination attempts lastError =>
      [("path", .str path), ("destination", .str destination), ("attempts", .ofNat attempts),
        ("lastError", .str lastError)]
  | fileArchived path archivePath =>
      [("path", .str path)] ++ ofOption "archivePath" .str archivePath
  | fileDeleted path => [("path", .str path)]
  | fileCleanupFailed path action attempts lastError =>
      [("path", .str path), ("action", .str action), ("attempts", .ofNat attempts),
        ("lastError", .str lastError)]
  | fileQuarantined path attempts lastError quarantinePath =>
      [("path", .str path), ("attempts", .ofNat attempts), ("lastError", .str lastError)] ++
      ofOption "quarantinePath" .str quarantinePath
  | scanComplete discovered awaiting => [("discovered", .ofNat discovered), ("awaiting", .ofNat awaiting)]
  | instanceActivated source | instanceDeactivated source => [("source", .str source)]
  | componentReady instances version => [("instances", .ofNat instances), ("version", .str version)]
  | scheduleTriggered scope => [("scope", .str scope)]
  | windowOpened window | windowClosed window => [("window", .str window)]
  | scheduleComplete mode => [("mode", .str mode)]
  | disconnected link | reconnected link => [("link", .str link)]
  | permissionDenied path role error => [("path", .str path), ("role", .str role), ("error", .str error)]

variable {Instant Percent : Type}

def message : Event Instant Percent → Option String
  | replicationFailed _ _ _ error _ => some error
  | retriesExhausted _ _ _ lastError => some lastError
  | fileQuarantined _ _ lastError _ => some lastError
  | fileCleanupFailed _ _ _ lastError => some lastError
  | permissionDenied _ _ error => some error
  | _ => none

def severity : Event Instant Percent → Severity
  | replicationFailed _ _ _ _ _ => .warning
  | retriesExhausted _ _ _ _ | fileQuarantined _ _ _ _ | fileCleanupFailed _ _ _ _ | disconnected _
  | reconnected _ | permissionDenied _ _ _ => .critical
  | fileDiscovered _ _ => .debug
  | _ => .info

def eventType : Event Instant Percent → String
  | fileDiscovered _ _ => "file-discovered"
  | fileReady _ _ => "file-ready"
  | replicationStarted _ _ _ _ => "replication-started"
  | replicationProgress _ _ _ _ _ _ => "replication-progress"
  | replicationCompleted _ _ _ _ => "replication-completed"
  | replicationFailed _ _ _ _ _ => "replication-failed"
  | retriesExhausted _ _ _ _ => "retries-exhausted"
  | fileArchived _ _ => "file-archived"
  | fileDeleted _ => "file-deleted"
  | fileCleanupFailed _ _ _ _ => "file-cleanup-failed"
  | fileQuarantined _ _ _ _ => "file-quarantined"
  | scanComplete _ _ => "scan-complete"
  | instanceActivated _ => "instance-activated"
  | instanceDeactivated _ => "instance-deactivated"
  | componentReady _ _ => "component-ready"
  | scheduleTriggered _ => "schedule-triggered"
  | windowOpened _ => "window-opened"
  | windowClosed _ => "window-closed"
  | scheduleComplete _ => "schedule-complete"
  | disconnected _ | reconnected _ => "disconnected"
  | permissionDenied _ _ _ => "permission-denied"

def alarm : Event Instant Percent → Option Bool
  | disconnected _ => some true
  | reconnected _ => some false
  | _ => none

end Event

structure EmitPlan where
  severity : Severity
  eventType : String
  message : Option String
  context : Value
  alarm : Option Bool

def remove (key : String) (fields : List (String × Value)) : List (String × Value) :=
  fields.filter fun field => field.1 ≠ key

def Event.plan (rfc3339 : Int → String) (event : Event Int Float64) : EmitPlan where
  severity := event.severity
  eventType := event.eventType
  message := event.message
  context := .obj (["error", "lastError"].foldl (fun context key => remove key context)
    (event.fields rfc3339))
  alarm := event.alarm

inductive Published where
  | raiseAlarm (severity : Severity) (eventType : String) (message : Option String) (context : Value)
  | clearAlarm (severity : Severity) (eventType : String) (context : Value)
  | emit (severity : Severity) (eventType : String) (message : Option String) (context : Value)

/-- `Events::emit`. -/
def publish (rfc3339 : Int → String) (event : Event Int Float64) : Published :=
  let plan := event.plan rfc3339
  match plan.alarm with
  | some true => .raiseAlarm plan.severity plan.eventType plan.message plan.context
  | some false => .clearAlarm plan.severity plan.eventType plan.context
  | none => .emit plan.severity plan.eventType plan.message plan.context

/-! ## Reading -/

section

variable (context : Value)

def text (key : String) : Option String := (context.get key).bind Value.asStr

def number (key : String) : Option Nat := ((context.get key).bind Value.asInt).map Int.toNat

/-- A percentage that is none is told as `null`. -/
def share : Option (Option Float64) :=
  (context.get "percent").bind fun value =>
    match value with
    | .float x => some (some x)
    | .null => some none
    | _ => none

def readEmitted (message : Option String) (eventType : String) :
    Option (Event String (Option Float64)) :=
  match eventType with
  | "file-discovered" => do return .fileDiscovered (← text context "path") (← number context "size")
  | "file-ready" => do return .fileReady (← text context "path") (← number context "size")
  | "replication-started" => do
      return .replicationStarted (← text context "path") (← number context "size")
        (← text context "destination") (← number context "attempt")
  | "replication-progress" => do
      return .replicationProgress (← text context "path") (← number context "size")
        (← number context "bytesDone") (← share context) (← text context "destination")
        (← number context "attempt")
  | "replication-completed" => do
      return .replicationCompleted (← text context "path") (← number context "size")
        (← text context "destination") (← number context "bytes")
  | "replication-failed" => do
      return .replicationFailed (← text context "path") (← text context "destination")
        (← number context "attempt") (← message) (text context "nextAttemptAt")
  | "retries-exhausted" => do
      return .retriesExhausted (← text context "path") (← text context "destination")
        (← number context "attempts") (← message)
  | "file-archived" => do return .fileArchived (← text context "path") (text context "archivePath")
  | "file-deleted" => do return .fileDeleted (← text context "path")
  | "file-cleanup-failed" => do
      return .fileCleanupFailed (← text context "path") (← text context "action")
        (← number context "attempts") (← message)
  | "file-quarantined" => do
      return .fileQuarantined (← text context "path") (← number context "attempts") (← message)
        (text context "quarantinePath")
  | "scan-complete" => do
      return .scanComplete (← number context "discovered") (← number context "awaiting")
  | "instance-activated" => do return .instanceActivated (← text context "source")
  | "instance-deactivated" => do return .instanceDeactivated (← text context "source")
  | "component-ready" => do
      return .componentReady (← number context "instances") (← text context "version")
  | "schedule-triggered" => do return .scheduleTriggered (← text context "scope")
  | "window-opened" => do return .windowOpened (← text context "window")
  | "window-closed" => do return .windowClosed (← text context "window")
  | "schedule-complete" => do return .scheduleComplete (← text context "mode")
  | "permission-denied" => do
      return .permissionDenied (← text context "path") (← text context "role") (← message)
  | _ => none

end

def read : Published → Option (Event String (Option Float64))
  | .raiseAlarm _ "disconnected" _ context => do return .disconnected (← text context "link")
  | .clearAlarm _ "disconnected" context => do return .reconnected (← text context "link")
  | .emit _ eventType message context => readEmitted context message eventType
  | _ => none

def Event.shown (rfc3339 : Int → String) : Event Int Float64 → Event String (Option Float64)
  | fileDiscovered path size => .fileDiscovered path size
  | fileReady path size => .fileReady path size
  | replicationStarted path size destination attempt =>
      .replicationStarted path size destination attempt
  | replicationProgress path size bytesDone percent destination attempt =>
      .replicationProgress path size bytesDone (if percent.isFinite then some percent else none)
        destination attempt
  | replicationCompleted path size destination bytes => .replicationCompleted path size destination bytes
  | replicationFailed path destination attempt error nextAttemptAt =>
      .replicationFailed path destination attempt error (nextAttemptAt.map rfc3339)
  | retriesExhausted path destination attempts lastError =>
      .retriesExhausted path destination attempts lastError
  | fileArchived path archivePath => .fileArchived path archivePath
  | fileDeleted path => .fileDeleted path
  | fileCleanupFailed path action attempts lastError => .fileCleanupFailed path action attempts lastError
  | fileQuarantined path attempts lastError quarantinePath =>
      .fileQuarantined path attempts lastError quarantinePath
  | scanComplete discovered awaiting => .scanComplete discovered awaiting
  | instanceActivated source => .instanceActivated source
  | instanceDeactivated source => .instanceDeactivated source
  | componentReady instances version => .componentReady instances version
  | scheduleTriggered scope => .scheduleTriggered scope
  | windowOpened window => .windowOpened window
  | windowClosed window => .windowClosed window
  | scheduleComplete mode => .scheduleComplete mode
  | disconnected link => .disconnected link
  | reconnected link => .reconnected link
  | permissionDenied path role error => .permissionDenied path role error

/-- No two events are published alike, but for what is lost when they are written down. -/
theorem read_publish (rfc3339 : Int → String) (event : Event Int Float64) :
    read (publish rfc3339 event) = some (event.shown rfc3339) := by
  cases event with
  | replicationProgress path size bytesDone percent destination attempt =>
      -- a percentage that is no number is told as `null`
      cases percent <;> rfl
  | replicationFailed path destination attempt error nextAttemptAt => cases nextAttemptAt <;> rfl
  | fileArchived path archivePath => cases archivePath <;> rfl
  | fileQuarantined path attempts lastError quarantinePath => cases quarantinePath <;> rfl
  | _ => rfl

end FileReplicator.EventPlans
