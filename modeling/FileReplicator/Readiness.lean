import Mathlib.Data.Finset.Insert
import FileReplicator.Domain
import FileReplicator.Tables

/-!
# Readiness

When a discovered file counts as written to its end: it has not changed for a
while, its marker exists, it came by a rename, or its path matches. A clock reading
and a duration are nanoseconds; paths are compared as the platform compares them,
and patterns and markers go by how a path is spelled.
-/

namespace FileReplicator.Readiness

open Domain Tables

structure Observation where
  size : Nat
  mtimeMs : Int
  deriving DecidableEq

variable {Path : Type} [DecidableEq Path]

structure ReadinessProbe (Path : Type) where
  observe : Path → Except IoKind Observation
  markerExists : ByteArray → Bool

/-! ## stability -/

structure Entry where
  last : Observation
  since : Nat
  deriving DecidableEq

structure StabilityTracker (Path : Type) where
  quiet : Nat
  seen : Table Path Entry

namespace StabilityTracker

def new (quiet : Nat) : StabilityTracker Path := ⟨quiet, ∅⟩

variable (t : StabilityTracker Path)

/-- A sighting and a change start the wait anew. -/
def observe (now : Nat) (path : Path) (obs : Observation) : Bool × StabilityTracker Path :=
  match t.seen.lookup path with
  | some entry =>
      if entry.last ≠ obs then (false, { t with seen := t.seen.insert path ⟨obs, now⟩ })
      else (decide (t.quiet ≤ now - entry.since), t)
  | none => (decide (t.quiet = 0), { t with seen := t.seen.insert path ⟨obs, now⟩ })

def forget (path : Path) : StabilityTracker Path := { t with seen := t.seen.erase path }

def retain (present : Finset Path) : StabilityTracker Path :=
  { t with seen := Tables.retain (fun path => decide (path ∈ present)) t.seen }

def tracked : Nat := t.seen.entries.length

/-- How long until an entry is due; an instant the clock cannot represent is none. -/
def remaining (lastInstant now : Nat) (entry : Entry) : Option Nat :=
  if entry.since + t.quiet ≤ lastInstant ∧ now < entry.since + t.quiet then
    some (entry.since + t.quiet - now)
  else none

def pendingRecheck (lastInstant now : Nat) : Option Nat :=
  ((values t.seen).filterMap (t.remaining lastInstant now)).min?

end StabilityTracker

/-! ## marker, rename, glob -/

def markerPath (file : ByteArray) (suffix : String) : ByteArray := file ++ suffix.toByteArray

def renameReady : Bool := true

structure GlobMatcher where
  set : List (ByteArray → Bool)

namespace GlobMatcher

/-- `compile` is the glob library's; it refuses what is no pattern. -/
def new {Pattern : Type} (compile : Pattern → Option (ByteArray → Bool)) (patterns : List Pattern) :
    Option GlobMatcher :=
  (patterns.mapM compile).map GlobMatcher.mk

def empty : GlobMatcher := ⟨[]⟩

variable (m : GlobMatcher)

def isMatch (path : ByteArray) : Bool := m.set.any fun glob => glob path

def isEmpty : Bool := m.set.length == 0

end GlobMatcher

/-- The discovery filter: an exclude always wins, and no include is every file. -/
def select (path : ByteArray) (inc exc : GlobMatcher) : Bool :=
  if exc.isMatch path then false else inc.isEmpty || inc.isMatch path

def globReady (path : ByteArray) (ready exclude : GlobMatcher) : Bool :=
  if exclude.isMatch path then false else ready.isEmpty || ready.isMatch path

inductive ReadinessCfg where
  | stability (quietSecs : Nat)
  | marker (suffix : String)
  | rename
  | glob (ready : List String)

inductive ReadyStrategy (Path : Type) where
  | stability (tracker : StabilityTracker Path)
  | marker (suffix : String)
  | rename
  | glob (ready : GlobMatcher)

namespace ReadyStrategy

def fromCfg (compile : String → Option (ByteArray → Bool)) :
    ReadinessCfg → Option (ReadyStrategy Path)
  | .stability quietSecs => some (.stability (.new (quietSecs * 1000000000)))
  | .marker suffix => some (.marker suffix)
  | .rename => some .rename
  | .glob ready => (GlobMatcher.new compile ready).map .glob

def retainTracked (present : Finset Path) : ReadyStrategy Path → ReadyStrategy Path
  | .stability tracker => .stability (tracker.retain present)
  | strategy => strategy

def pendingRecheck (lastInstant now : Nat) : ReadyStrategy Path → Option Nat
  | .stability tracker => tracker.pendingRecheck lastInstant now
  | _ => none

/-- `text` is how a path is spelled. A file that cannot be read leaves the tracker as it is. -/
def isReady (text : Path → ByteArray) (now : Nat) (probe : ReadinessProbe Path)
    (exclude : GlobMatcher) (path : Path) :
    ReadyStrategy Path → Except IoKind Bool × ReadyStrategy Path
  | .stability tracker =>
      match probe.observe path with
      | .ok obs =>
          let out := tracker.observe now path obs
          (.ok out.1, .stability out.2)
      | .error kind => (.error kind, .stability tracker)
  | .marker suffix => (.ok (probe.markerExists (markerPath (text path) suffix)), .marker suffix)
  | .rename => (.ok renameReady, .rename)
  | .glob ready => (.ok (globReady (text path) ready exclude), .glob ready)

end ReadyStrategy

end FileReplicator.Readiness
