import FileReplicator.Domain
import FileReplicator.KindLabels

/-!
# Destination labels

The label under which the worker keeps each configured destination's rows: its
kind, with the occurrence number appended where several share the kind.
-/

namespace FileReplicator.DestinationLabels

inductive Kind where
  | local
  | s3
  | sftp
  | ftps
  | http
  | azure
  | gcs
  deriving DecidableEq, Repr

/-- `Destination::kind()`. -/
def Kind.name : Kind → String
  | .local => "local"
  | .s3 => "s3"
  | .sftp => "sftp"
  | .ftps => "ftps"
  | .http => "http"
  | .azure => "azure"
  | .gcs => "gcs"

def numbered (kind : Kind) (n : Nat) : String := kind.name ++ "#" ++ toString n

/-- The loop of `label_destinations`: `dests` is the whole list, `seen` the counter of each kind. -/
def labelRest (dests : List Kind) (seen : Kind → Nat) : List Kind → List String
  | [] => []
  | kind :: rest =>
      if dests.count kind = 1 then kind.name :: labelRest dests seen rest
      else
        let n := seen kind + 1
        numbered kind n :: labelRest dests (fun k => if k = kind then n else seen k) rest

def labelDestinations (dests : List Kind) : List String :=
  labelRest dests (fun _ => 0) dests

/-- The label of the destination at `index`, whose kind is `kind`. -/
def labelAt (dests : List Kind) (index : Nat) (kind : Kind) : String :=
  if dests.count kind = 1 then kind.name else numbered kind ((dests.take (index + 1)).count kind)

/-! ## The kinds are numbered names -/

theorem label_rest_numbered (dests : List Kind) (seen : Kind → Nat) (rest : List Kind) :
    labelRest dests seen rest = KindLabels.labelRest Kind.name dests seen rest := by
  induction rest generalizing seen with
  | nil => rfl
  | cons kind rest ih =>
      rw [labelRest, KindLabels.labelRest, ih]
      dsimp only
      rw [ih]
      rfl

theorem label_destinations_numbered (dests : List Kind) :
    labelDestinations dests = KindLabels.labelDestinations Kind.name dests :=
  label_rest_numbered dests _ dests

theorem label_destinations_eq (dests : List Kind) (index : Nat) :
    (labelDestinations dests)[index]? = (dests[index]?).map (labelAt dests index) := by
  rw [label_destinations_numbered, KindLabels.label_destinations_eq]
  rfl

theorem labels_length (dests : List Kind) : (labelDestinations dests).length = dests.length := by
  rw [label_destinations_numbered, KindLabels.labels_length]

theorem name_no_hash (kind : Kind) : '#' ∉ kind.name.toList := by
  cases kind <;> decide

theorem name_injective (a b : Kind) (same : a.name = b.name) : a = b := by
  cases a <;> cases b <;> first | rfl | exact absurd same (by decide)

theorem name_ne_numbered (a b : Kind) (n : Nat) : a.name ≠ numbered b n :=
  KindLabels.name_ne_numbered Kind.name a b n (name_no_hash a)

theorem label_at_injective (dests : List Kind) (i j : Nat) (a b : Kind)
    (hi : dests[i]? = some a) (hj : dests[j]? = some b)
    (same : labelAt dests i a = labelAt dests j b) : i = j :=
  KindLabels.label_at_injective Kind.name dests name_injective (fun kind _ => name_no_hash kind)
    i j a b hi hj same

theorem labels_nodup (dests : List Kind) : (labelDestinations dests).Nodup := by
  rw [label_destinations_numbered]
  exact KindLabels.labels_nodup Kind.name dests name_injective fun kind _ => name_no_hash kind

end FileReplicator.DestinationLabels
