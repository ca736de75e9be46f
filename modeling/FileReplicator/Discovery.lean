import FileReplicator.QuietPeriods
import FileReplicator.ScanIdentity

/-!
# Discovery

One pass of the watcher: it scans the tree and judges each candidate by the
readiness strategy. The scan goes by the path below the root; the strategy is given
the whole path, as it is spelled.
-/

namespace FileReplicator.Discovery

open Domain Paths QuietPeriods Readiness Scan

structure Watcher where
  root : String
  recursive : Bool
  inc : GlobMatcher
  exc : GlobMatcher
  strategy : ReadyStrategy OsPath
  skip : List String

structure ScanReport where
  ready : List Candidate
  issues : List ScanIssue
  filesDiscovered : Nat
  filesIgnored : Nat

/-- A path with one more name, as `join` spells it. -/
def joinName (path : ByteArray) : Component ByteArray → ByteArray
  | .normal name =>
      if path.size = 0 ∨ path.data.toList.getLast? = some 47 then path ++ name
      else path ++ "/".toByteArray ++ name
  | _ => path

/-- How the path of a file below the root is spelled. -/
def spelled (root : String) (names : List Name) : ByteArray :=
  (ofNames names).foldl joinName root.toByteArray

namespace Watcher

variable (w : Watcher)

def scanner : Scanner where
  root := w.root
  recursive := w.recursive
  select := fun relpath => select relpath.toByteArray w.inc w.exc
  skip := w.skip

/-- The spelling of a path that starts with the root. -/
def text (path : OsPath) : ByteArray :=
  (path.drop (ofText w.root.toList).length).foldl joinName w.root.toByteArray

def judge (probe : ReadinessProbe OsPath) (clock : Nat → Nat)
    (out : ScanReport × ReadyStrategy OsPath) (c : Candidate × Nat) :
    ScanReport × ReadyStrategy OsPath :=
  match ReadyStrategy.isReady w.text (clock c.2) probe w.exc c.1.abs out.2 with
  | (.ok true, strategy) => ({ out.1 with ready := out.1.ready ++ [c.1] }, strategy)
  | (.ok false, strategy) => ({ out.1 with filesIgnored := out.1.filesIgnored + 1 }, strategy)
  | (.error .permissionDenied, strategy) =>
      ({ out.1 with issues := out.1.issues ++ [⟨c.1.abs, .permissionDenied⟩] }, strategy)
  | (.error _, strategy) => ({ out.1 with filesIgnored := out.1.filesIgnored + 1 }, strategy)

/-- The candidates of a scan, one by one, and then the sweep over what is not there any more. -/
def discoverReport (probe : ReadinessProbe OsPath) (clock : Nat → Nat) (root : Dir) :
    ScanReport × Watcher :=
  let found := w.scanner.scan root
  let out := found.1.zipIdx.foldl (w.judge probe clock)
    (⟨[], found.2, found.1.length, 0⟩, w.strategy)
  (out.1, { w with
    strategy := out.2.retainTracked (found.1.map Candidate.abs).toFinset })

/-! ## Globs -/

section Globs

variable (ready : GlobMatcher)

theorem judge_glob (probe : ReadinessProbe OsPath) (clock : Nat → Nat)
    (candidates : List (Candidate × Nat)) (report : ScanReport) (c : Candidate) :
    c ∈ (candidates.foldl (w.judge probe clock) (report, .glob ready)).1.ready ↔
      c ∈ report.ready ∨
        c ∈ candidates.map Prod.fst ∧ globReady (w.text c.abs) ready w.exc = true := by
  induction candidates generalizing report with
  | nil => simp
  | cons first rest ih =>
      rw [List.foldl_cons]
      cases verdict : globReady (w.text first.1.abs) ready w.exc with
      | true =>
          have judged : w.judge probe clock (report, .glob ready) first =
              ({ report with ready := report.ready ++ [first.1] }, .glob ready) := by
            simp only [judge, ReadyStrategy.isReady, verdict]
          rw [judged, ih, List.mem_append, List.mem_singleton, List.map_cons, List.mem_cons]
          grind
      | false =>
          have judged : w.judge probe clock (report, .glob ready) first =
              ({ report with filesIgnored := report.filesIgnored + 1 }, .glob ready) := by
            simp only [judge, ReadyStrategy.isReady, verdict]
          rw [judged, ih, List.map_cons, List.mem_cons]
          grind

theorem text_path (names : List Name) :
    w.text (w.scanner.path names) = spelled w.root names := by
  have rest : (w.scanner.path names).drop (ofText w.root.toList).length = ofNames names :=
    List.drop_left
  rw [text, rest]
  rfl

/-- The walk comes to the file, does not prune it and has a relpath for it. -/
def Visited (names : List Name) : Prop :=
  w.scanner.reaches names = true ∧ w.scanner.pruned names = false ∧ relpathOf names ≠ ""

def FoundReady (probe : ReadinessProbe OsPath) (clock : Nat → Nat) (root : Dir)
    (names : List Name) : Prop :=
  ∃ c ∈ (w.discoverReport probe clock root).1.ready, c.abs = w.scanner.path names

/-- No exclude matches, some include does and some ready pattern does, or there are none of them. -/
def Passes (path : ByteArray) : Prop :=
  w.exc.isMatch path = false ∧ (w.inc.isEmpty = true ∨ w.inc.isMatch path = true) ∧
    (ready.isEmpty = true ∨ ready.isMatch path = true)

def relBytes (names : List Name) : ByteArray := (relpathOf names).toByteArray

theorem passes_iff (path : ByteArray) :
    w.Passes ready path ↔ select path w.inc w.exc = true ∧ globReady path ready w.exc = true := by
  unfold Passes select globReady
  cases w.exc.isMatch path <;> simp

theorem found_ready_iff (strategy : w.strategy = .glob ready) (probe : ReadinessProbe OsPath)
    (clock : Nat → Nat) (root : Dir) (file : List Name × Option (Nat × Int))
    (member : file ∈ root.files []) (visited : w.Visited file.1) :
    w.FoundReady probe clock root file.1 ↔
      select (relBytes file.1) w.inc w.exc = true ∧
        globReady (spelled w.root file.1) ready w.exc = true := by
  have judged : ∀ c, c ∈ (w.discoverReport probe clock root).1.ready ↔
      c ∈ (w.scanner.scan root).1 ∧ globReady (w.text c.abs) ready w.exc = true := by
    intro c
    simp only [discoverReport, strategy]
    rw [judge_glob, List.zipIdx_map_fst]
    simp
  unfold FoundReady
  simp only [judged, w.scanner.mem_scan_iff]
  constructor
  · rintro ⟨c, ⟨⟨other, _, taken⟩, verdict⟩, same⟩
    obtain ⟨_, _, selected, rfl⟩ := (w.scanner.take_iff other c).mp taken
    -- the absolute path tells the names apart
    have names : other.1 = file.1 :=
      ScanIdentity.names_of_ofNames _ _ (List.append_cancel_left same)
    rw [same, text_path] at verdict
    rw [names] at selected
    exact ⟨selected, verdict⟩
  · rintro ⟨selected, verdict⟩
    obtain ⟨reached, kept, some⟩ := visited
    refine ⟨_, ⟨⟨file, member, (w.scanner.take_iff file _).mpr
      ⟨⟨reached, kept⟩, some, selected, rfl⟩⟩, ?_⟩, rfl⟩
    rwa [text_path]

/-- What is found and ready goes by the path below the root, exactly if the whole path of each
selected file is judged as the path below the root would be. -/
theorem glob_by_relpath_iff (strategy : w.strategy = .glob ready) (probe : ReadinessProbe OsPath)
    (clock : Nat → Nat) (root : Dir) :
    (∀ file ∈ root.files [], w.Visited file.1 →
        (w.FoundReady probe clock root file.1 ↔ w.Passes ready (relBytes file.1))) ↔
      ∀ file ∈ root.files [], w.Visited file.1 → select (relBytes file.1) w.inc w.exc = true →
        (globReady (spelled w.root file.1) ready w.exc = true ↔
          globReady (relBytes file.1) ready w.exc = true) := by
  refine forall_congr' fun file => forall_congr' fun member => forall_congr' fun visited => ?_
  rw [w.found_ready_iff ready strategy probe clock root file member visited, passes_iff]
  constructor
  · intro same selected
    simpa [selected] using same
  · intro same
    exact and_congr_right same

end Globs

end Watcher

/-! ## A pattern without wildcards -/

/-- It matches the one path that is spelled like it. -/
def only (pattern : String) : GlobMatcher := ⟨[fun path => decide (path = pattern.toByteArray)]⟩

def literalWatcher (ready : GlobMatcher) : Watcher :=
  ⟨"/in", true, .empty, .empty, .glob ready, []⟩

def noProbe : ReadinessProbe OsPath := ⟨fun _ => .error .notFound, fun _ => false⟩

def oneFile : Dir := .ok (.entry ScanIdentity.nameA (.file none) .nil)

/-- A pattern like `**/*.txt`. -/
def ending (suffix : String) : GlobMatcher :=
  ⟨[fun path => suffix.toByteArray.data.toList.isSuffixOf path.data.toList]⟩

def twoKinds : Dir :=
  .ok (.entry ScanIdentity.nameA (.file none) (.entry ScanIdentity.nameB (.file none) .nil))

/-- Of the two files one is ready. -/
theorem glob_by_relpath_ending :
    let w := literalWatcher (ending ".txt")
    (w.FoundReady noProbe (fun _ => 0) twoKinds [ScanIdentity.nameA] ↔
        w.Passes (ending ".txt") (Watcher.relBytes [ScanIdentity.nameA])) ∧
      w.Passes (ending ".txt") (Watcher.relBytes [ScanIdentity.nameA]) ∧
      ¬w.Passes (ending ".txt") (Watcher.relBytes [ScanIdentity.nameB]) := by
  have files : twoKinds.files [] = [([ScanIdentity.nameA], none), ([ScanIdentity.nameB], none)] := by decide
  refine ⟨?_, (Watcher.passes_iff _ _ _).mpr (by decide),
    mt (Watcher.passes_iff _ _ _).mp (by decide)⟩
  refine ((literalWatcher (ending ".txt")).glob_by_relpath_iff (ending ".txt") rfl noProbe
    (fun _ => 0) twoKinds).mpr ?_ ([ScanIdentity.nameA], none) (by decide)
    ⟨by decide, by decide, by decide⟩
  intro file member _ _
  rw [files, List.mem_cons, List.mem_singleton] at member
  rcases member with rfl | rfl
  · decide
  · decide

/-- The ready pattern `a.txt` does not match the whole path `/in/a.txt`. -/
theorem ready_pattern_misses : ¬ ∀ (w : Watcher) (ready : GlobMatcher), w.strategy = .glob ready →
    ∀ (probe : ReadinessProbe OsPath) (clock : Nat → Nat) (root : Dir),
      ∀ file ∈ root.files [], w.Visited file.1 →
        (w.FoundReady probe clock root file.1 ↔ w.Passes ready (Watcher.relBytes file.1)) := by
  intro all
  have visited : (literalWatcher (only "a.txt")).Visited [ScanIdentity.nameA] := by
    refine ⟨by decide, by decide, by decide⟩
  have member : ([ScanIdentity.nameA], none) ∈ oneFile.files [] := by decide
  have same := all (literalWatcher (only "a.txt")) (only "a.txt") rfl noProbe (fun _ => 0) oneFile
    _ member visited
  rw [(literalWatcher (only "a.txt")).found_ready_iff (only "a.txt") rfl noProbe (fun _ => 0)
    oneFile _ member visited, Watcher.passes_iff] at same
  exact absurd same (by decide)

end FileReplicator.Discovery
