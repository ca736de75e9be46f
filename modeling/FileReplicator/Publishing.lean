import FileReplicator.Classify

/-!
# Publishing an upload

The last step of a delivery of the local, sftp and ftps backends: the complete
temp file is renamed to its final path. Every call may take effect and say so, be
refused, or lose its reply, before or after it took effect.
-/

namespace FileReplicator.Publishing

open Domain Classify

/-- The two paths, and whether the upload has been at the final path. -/
structure Paths where
  final : Option Bytes
  temp : Option Bytes
  wasLive : Bool
  deriving DecidableEq

inductive Outcome (Error : Type) where
  | done
  | refused (error : Error)
  | lost (applied : Bool)
  deriving DecidableEq

def Outcome.applies {Error : Type} : Outcome Error → Bool
  | .done => true
  | .refused _ => false
  | .lost applied => applied

/-- How a backend's calls fail: what a missing path and a lost reply are reported as. A lost reply
is a transport failure, which is tried again. -/
structure Host (Error : Type) where
  missing : Error
  unanswered : Error
  classify : Error → ReplError
  retried : (classify unanswered).isPermanent = false

variable {Error : Type} (host : Host Error)

/-- The error of a call whose path is not there. -/
def Host.absent : Outcome Error → Error
  | .done => host.missing
  | .refused error => error
  | .lost _ => host.unanswered

def rename (paths : Paths) (outcome : Outcome Error) : Paths × Except Error Unit :=
  match paths.temp, outcome with
  | none, _ => (paths, .error (host.absent outcome))
  | some upload, .done => (⟨some upload, none, true⟩, .ok ())
  | some _, .refused error => (paths, .error error)
  | some upload, .lost applied =>
      (if applied then ⟨some upload, none, true⟩ else paths, .error host.unanswered)

def removeFinal (paths : Paths) (outcome : Outcome Error) : Paths × Except Error Unit :=
  match paths.final, outcome with
  | none, _ => (paths, .error (host.absent outcome))
  | some _, .done => ({ paths with final := none }, .ok ())
  | some _, .refused error => (paths, .error error)
  | some object, .lost applied =>
      ({ paths with final := if applied then none else some object }, .error host.unanswered)

def removeTemp (paths : Paths) (outcome : Outcome Error) : Paths :=
  if outcome.applies then { paths with temp := none } else paths

structure Script (Error : Type) where
  first : Outcome Error
  remove : Outcome Error
  second : Outcome Error
  /-- `exists()` of the local backend: a failing stat counts as a missing file. -/
  stat : Bool
  cleanup : Outcome Error

/-- `publish` of the sftp and the ftps backend. -/
def publish (paths : Paths) (script : Script Error) : Paths × Except ReplError Unit :=
  match rename host paths script.first with
  | (renamed, .ok _) => (renamed, .ok ())
  | (after, .error _) =>
      let removed := (removeFinal host after script.remove).1
      match rename host removed script.second with
      | (renamed, .ok _) => (renamed, .ok ())
      | (last, .error error) => (last, .error (host.classify error))

/-- The publish step of `LocalDest::deliver`. -/
def publishLocal (paths : Paths) (script : Script Error) : Paths × Except ReplError Unit :=
  match rename host paths script.first with
  | (renamed, .ok _) => (renamed, .ok ())
  | (after, .error error) =>
      if after.final.isSome && script.stat then
        match removeFinal host after script.remove with
        | (kept, .error error) => (kept, .error (host.classify error))
        | (removed, .ok _) =>
            match rename host removed script.second with
            | (renamed, .ok _) => (renamed, .ok ())
            | (last, .error error) => (last, .error (host.classify error))
      else (removeTemp after script.cleanup, .error (host.classify error))

theorem remove_temp_final (paths : Paths) (outcome : Outcome Error) :
    (removeTemp paths outcome).final = paths.final := by
  unfold removeTemp
  split <;> rfl

theorem remove_temp_was_live (paths : Paths) (outcome : Outcome Error) :
    (removeTemp paths outcome).wasLive = paths.wasLive := by
  unfold removeTemp
  split <;> rfl

def sftpHost : Host String where
  missing := "no_such_file"
  unanswered := "timeout"
  classify := fun kind => classifySftp kind false
  retried := by decide

/-- An `FtpError`: a reply with its code, or a connection error. -/
inductive FtpError where
  | unexpectedResponse (code : Nat)
  | connectionError
  deriving DecidableEq

def mapFtp : FtpError → ReplError
  | .unexpectedResponse code => classifyFtps (some code) false
  | .connectionError => classifyFtps none true

def ftpsHost : Host FtpError where
  missing := .unexpectedResponse 550
  unanswered := .connectionError
  classify := mapFtp
  retried := by decide

def localHost : Host (IoKind × String) where
  missing := (.notFound, "No such file or directory")
  unanswered := (.other, "Input/output error")
  classify := fun error => ReplError.classifyIo error.1 error.2
  retried := by decide

/-! ## What the step leaves -/

/-- The final path holds the object before or the new one, and once the new one has been live the
step does not end in a permanent error. -/
def Safe (prior : Option Bytes) (upload : Bytes) (after : Paths × Except ReplError Unit) : Prop :=
  (after.1.final = prior ∨ after.1.final = some upload) ∧
    (after.1.wasLive = true → ∀ error, after.2 = .error error → error.isPermanent = false)

def ready (prior : Option Bytes) (upload : Bytes) : Paths := ⟨prior, some upload, false⟩

def Retried (error : Error) : Prop := (host.classify error).isPermanent = false

def PublishHolds (prior : Option Bytes) (script : Script Error) : Prop :=
  match script.first with
  | .done => True
  | .lost true =>
      (prior = none ∨ script.remove.applies = false) ∧ Retried host (host.absent script.second)
  | _ => prior = none ∨ script.remove.applies = false ∨ script.second.applies = true

def LocalHolds (prior : Option Bytes) (script : Script Error) : Prop :=
  match script.first with
  | .done => True
  | .lost true =>
      script.stat = false ∨
        match script.remove with
        | .done => prior = none ∧ Retried host (host.absent script.second)
        | .refused error => Retried host error
        | .lost applied => prior = none ∨ applied = false
  | _ =>
      script.stat = false ∨ prior = none ∨
        match script.remove with
        | .done => script.second.applies = true
        | .refused _ => True
        | .lost applied => applied = false

attribute [local simp] ready removeFinal rename Safe Outcome.applies

theorem publish_unmoved (prior : Option Bytes) (upload : Bytes) (script : Script Error)
    (error : Error) (unmoved : rename host (ready prior upload) script.first =
      (ready prior upload, .error error)) :
    Safe prior upload (publish host (ready prior upload) script) ↔
      prior = none ∨ script.remove.applies = false ∨ script.second.applies = true := by
  unfold publish
  rw [unmoved]
  cases prior with
  | none =>
      cases hsecond : script.second with
      | done => simp
      | refused e => simp
      | lost applied => cases applied <;> simp [host.retried]
  | some object =>
      cases hremove : script.remove with
      | done =>
          cases hsecond : script.second with
          | done => simp
          | refused e => simp
          | lost applied =>
              cases applied <;>
                simp [host.retried]
      | refused e =>
          cases hsecond : script.second with
          | done => simp
          | refused e => simp
          | lost applied =>
              cases applied <;>
                simp [host.retried]
      | lost removed =>
          cases hsecond : script.second with
          | done => cases removed <;> simp
          | refused e => cases removed <;> simp
          | lost applied =>
              cases removed <;> cases applied <;>
                simp [host.retried]

theorem publish_moved (prior : Option Bytes) (upload : Bytes) (script : Script Error)
    (lost : script.first = .lost true) :
    Safe prior upload (publish host (ready prior upload) script) ↔
      (prior = none ∨ script.remove.applies = false) ∧ Retried host (host.absent script.second) := by
  unfold publish Retried
  rw [lost]
  cases hremove : script.remove with
  | done => simp [eq_comm (a := (none : Option Bytes)) (b := prior)]
  | refused e => simp
  | lost removed =>
      cases removed <;> simp [eq_comm (a := (none : Option Bytes)) (b := prior)]

theorem publish_safe_iff (prior : Option Bytes) (upload : Bytes) (script : Script Error) :
    Safe prior upload (publish host (ready prior upload) script) ↔
      PublishHolds host prior script := by
  cases hfirst : script.first with
  | done => simp [publish, PublishHolds, hfirst]
  | refused error =>
      rw [publish_unmoved host prior upload script error (by rw [hfirst]; rfl)]
      simp only [PublishHolds, hfirst]
  | lost applied =>
      cases applied with
      | true =>
          rw [publish_moved host prior upload script hfirst]
          simp only [PublishHolds, hfirst]
      | false =>
          rw [publish_unmoved host prior upload script host.unanswered (by rw [hfirst]; rfl)]
          simp only [PublishHolds, hfirst]

theorem local_unmoved (prior : Option Bytes) (upload : Bytes) (script : Script Error)
    (error : Error) (unmoved : rename host (ready prior upload) script.first =
      (ready prior upload, .error error)) :
    Safe prior upload (publishLocal host (ready prior upload) script) ↔
      (script.stat = false ∨ prior = none ∨
        match script.remove with
        | .done => script.second.applies = true
        | .refused _ => True
        | .lost applied => applied = false) := by
  unfold publishLocal
  rw [unmoved]
  cases hstat : script.stat with
  | false => simp [remove_temp_final, remove_temp_was_live]
  | true =>
      cases prior with
      | none => simp [remove_temp_final, remove_temp_was_live]
      | some object =>
          cases hremove : script.remove with
          | done =>
              cases hsecond : script.second with
              | done => simp
              | refused e => simp
              | lost applied =>
                  cases applied <;>
                    simp [host.retried]
          | refused e => simp
          | lost removed => cases removed <;> simp

theorem local_moved (prior : Option Bytes) (upload : Bytes) (script : Script Error)
    (lost : script.first = .lost true) :
    Safe prior upload (publishLocal host (ready prior upload) script) ↔
      (script.stat = false ∨
        match script.remove with
        | .done => prior = none ∧ Retried host (host.absent script.second)
        | .refused error => Retried host error
        | .lost applied => prior = none ∨ applied = false) := by
  unfold publishLocal Retried
  rw [lost]
  cases hstat : script.stat with
  | false =>
      simp [remove_temp_final, host.retried]
  | true =>
      cases hremove : script.remove with
      | done => simp [eq_comm (a := (none : Option Bytes)) (b := prior)]
      | refused e => simp
      | lost removed =>
          cases removed <;>
            simp [host.retried, eq_comm (a := (none : Option Bytes)) (b := prior)]

theorem local_safe_iff (prior : Option Bytes) (upload : Bytes) (script : Script Error) :
    Safe prior upload (publishLocal host (ready prior upload) script) ↔
      LocalHolds host prior script := by
  cases hfirst : script.first with
  | done => simp [publishLocal, LocalHolds, hfirst]
  | refused error =>
      rw [local_unmoved host prior upload script error (by rw [hfirst]; rfl)]
      simp only [LocalHolds, hfirst]
  | lost applied =>
      cases applied with
      | true =>
          rw [local_moved host prior upload script hfirst]
          simp only [LocalHolds, hfirst]
      | false =>
          rw [local_unmoved host prior upload script host.unanswered (by rw [hfirst]; rfl)]
          simp only [LocalHolds, hfirst]

/-- For each backend, when its publish step keeps an object at the final path and does not give up
an upload that has been live. -/
theorem publish_steps_safe_iff (prior : Option Bytes) (upload : Bytes) :
    (∀ script, Safe prior upload (publishLocal localHost (ready prior upload) script) ↔
      LocalHolds localHost prior script) ∧
    (∀ script, Safe prior upload (publish sftpHost (ready prior upload) script) ↔
      PublishHolds sftpHost prior script) ∧
    (∀ script, Safe prior upload (publish ftpsHost (ready prior upload) script) ↔
      PublishHolds ftpsHost prior script) :=
  ⟨local_safe_iff localHost prior upload, publish_safe_iff sftpHost prior upload,
    publish_safe_iff ftpsHost prior upload⟩

/-- The first rename takes effect and its reply is lost; every other call is answered. -/
def replyLost (Error : Type) : Script Error where
  first := .lost true
  remove := .done
  second := .done
  stat := true
  cleanup := .done

/-- The object that was just published is removed, and the item ends in a permanent error. -/
theorem published_object_removed :
    ¬ ((∀ prior upload script,
        Safe prior upload (publishLocal localHost (ready prior upload) script)) ∧
      (∀ prior upload script, Safe prior upload (publish sftpHost (ready prior upload) script)) ∧
      (∀ prior upload script, Safe prior upload (publish ftpsHost (ready prior upload) script))) := by
  rintro ⟨_, safe, _⟩
  have hfinal := (safe (some [1]) [2] (replyLost String)).1
  revert hfinal
  decide

end FileReplicator.Publishing
