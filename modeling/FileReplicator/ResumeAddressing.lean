import FileReplicator.DestinationLabels

/-!
# Resume rows of one item

Each destination's row in the resume table is used from two sides: the worker
reads, writes and clears it under the destination's label, the backend writes
and clears it under a key of its own.
-/

namespace FileReplicator.ResumeAddressing

open Domain DestinationLabels

/-! ## A table shared by several users -/

inductive Use where
  /-- The worker loads the row and hands it to `deliver`. -/
  | resume
  /-- The backend saves a checkpoint in the middle of a transfer. -/
  | persist (checkpoint : ResumeState)
  /-- The backend clears its checkpoint. -/
  | drop
  /-- The worker saves the verified result. -/
  | verified (delivered : Delivered)
  /-- The worker loads the row, aborts the upload it names and clears the row. -/
  | giveUp
  /-- Recovery clears the row of a destination that no longer verifies. -/
  | demote

/-- One step of an item: a destination's use of the rows, or the end of the item's rows. -/
inductive Event (Dest : Type) where
  | use (dest : Dest) (use : Use)
  | clearAll

/-- What a destination is given: the row an attempt resumes from, the row an upload is aborted
with. -/
inductive Given (Dest : Type) where
  | resumed (dest : Dest) (row : Option ResumeState)
  | aborted (dest : Dest) (row : ResumeState)
  deriving DecidableEq

section Table

variable {Dest Key : Type} [DecidableEq Key]

abbrev Table (Key : Type) := Key → Option ResumeState

def Table.set (table : Table Key) (key : Key) (row : Option ResumeState) : Table Key :=
  fun k => if k = key then row else table k

def verifiedRow (delivered : Delivered) : ResumeState :=
  { bytesCommitted := delivered.bytes, token := .verified delivered }

variable (worker : Dest → Key) (backend : Dest → Option Key)

def backendSet (table : Table Key) (dest : Dest) (row : Option ResumeState) : Table Key :=
  match backend dest with
  | some key => table.set key row
  | none => table

def step (table : Table Key) : Event Dest → Table Key × List (Given Dest)
  | .use dest .resume => (table, [.resumed dest (table (worker dest))])
  | .use dest (.persist checkpoint) => (backendSet backend table dest (some checkpoint), [])
  | .use dest .drop => (backendSet backend table dest none, [])
  | .use dest (.verified delivered) =>
      (table.set (worker dest) (some (verifiedRow delivered)), [])
  | .use dest .giveUp =>
      (table.set (worker dest) none, ((table (worker dest)).map (Given.aborted dest)).toList)
  | .use dest .demote => (table.set (worker dest) none, [])
  | .clearAll => (fun _ => none, [])

/-- Everything the destinations are given in a run, in order. -/
def given (table : Table Key) : List (Event Dest) → List (Given Dest)
  | [] => []
  | event :: rest =>
      (step worker backend table event).2 ++ given (step worker backend table event).1 rest

end Table

section Agree

variable {Dest Key Key' : Type} [DecidableEq Key] [DecidableEq Key']
variable (worker : Dest → Key) (backend : Dest → Option Key)
variable (worker' : Dest → Key') (backend' : Dest → Option Key')

/-- Every destination finds the same row in both tables. -/
def Agree (table : Table Key) (table' : Table Key') : Prop :=
  ∀ dest, table (worker dest) = table' (worker' dest)

theorem agree_set (table : Table Key) (table' : Table Key') (dest : Dest)
    (row : Option ResumeState) (agree : Agree worker worker' table table')
    (distinct : worker.Injective) (distinct' : worker'.Injective) :
    Agree worker worker' (table.set (worker dest) row) (table'.set (worker' dest) row) := by
  intro other
  unfold Table.set
  by_cases same : other = dest
  · simp [same]
  · rw [if_neg (fun eq => same (distinct eq)), if_neg (fun eq => same (distinct' eq))]
    exact agree other

variable (distinct : worker.Injective) (distinct' : worker'.Injective)
variable (own : ∀ dest, backend dest = none ∧ backend' dest = none ∨
  backend dest = some (worker dest) ∧ backend' dest = some (worker' dest))

include distinct distinct' own in
theorem step_agree (table : Table Key) (table' : Table Key') (event : Event Dest)
    (agree : Agree worker worker' table table') :
    Agree worker worker' (step worker backend table event).1 (step worker' backend' table' event).1 ∧
      (step worker backend table event).2 = (step worker' backend' table' event).2 := by
  have hbackend : ∀ dest row, Agree worker worker' (backendSet backend table dest row)
      (backendSet backend' table' dest row) := by
    intro dest row
    unfold backendSet
    rcases own dest with ⟨hnone, hnone'⟩ | ⟨hsome, hsome'⟩
    · simpa only [hnone, hnone'] using agree
    · simpa only [hsome, hsome'] using agree_set worker worker' table table' dest row agree distinct
        distinct'
  cases event with
  | clearAll => exact ⟨fun _ => rfl, rfl⟩
  | use dest use =>
      have hset := fun row => agree_set worker worker' table table' dest row agree distinct distinct'
      cases use with
      | resume => exact ⟨agree, by simp only [step, agree dest]⟩
      | persist checkpoint => exact ⟨hbackend dest _, rfl⟩
      | drop => exact ⟨hbackend dest _, rfl⟩
      | verified delivered => exact ⟨hset _, rfl⟩
      | giveUp => exact ⟨hset _, by simp only [step, agree dest]⟩
      | demote => exact ⟨hset _, rfl⟩

include distinct distinct' own in
theorem given_agree (table : Table Key) (table' : Table Key') (run : List (Event Dest))
    (agree : Agree worker worker' table table') :
    given worker backend table run = given worker' backend' table' run := by
  induction run generalizing table table' with
  | nil => rfl
  | cons event rest ih =>
      obtain ⟨hagree, hgiven⟩ := step_agree worker backend worker' backend' distinct distinct' own
        table table' event agree
      rw [given, given, hgiven, ih _ _ hagree]

end Agree

/-! ## The replicator's keys -/

/-- The key a backend hands to `save_resume` and `clear_resume`; the local one keeps no row. -/
def backendKey : Kind → Option String
  | .local => none
  | .s3 => some "s3"
  | .sftp => some "sftp"
  | .ftps => some "ftps"
  | .http => some "http"
  | .azure => some "azure"
  | .gcs => some "gcs"

theorem backend_key_is_kind (kind : Kind) :
    backendKey kind = none ∨ backendKey kind = some kind.name := by
  cases kind <;> simp [backendKey, Kind.name]

section Instance

variable (dests : List Kind)

/-- The label the worker uses for a destination. -/
def label (dest : Fin dests.length) : String :=
  (labelDestinations dests)[dest.val]?.getD ""

/-- What the destinations of an item are given in a run over the item's rows, from no rows. -/
def givenRows (run : List (Event (Fin dests.length))) : List (Given (Fin dests.length)) :=
  given (label dests) (fun dest => backendKey (dests.get dest)) (fun _ => none) run

/-- The same run where every destination has a row of its own that nothing else touches. -/
def givenOwnRows (run : List (Event (Fin dests.length))) : List (Given (Fin dests.length)) :=
  given id (fun dest => (backendKey (dests.get dest)).map fun _ => dest) (fun _ => none) run

theorem label_eq (dest : Fin dests.length) : label dests dest = labelAt dests dest (dests.get dest) := by
  rw [label, label_destinations_eq, List.getElem?_eq_getElem dest.isLt]
  rfl

theorem label_injective : (label dests).Injective := by
  intro i j same
  rw [label_eq, label_eq] at same
  exact Fin.ext (label_at_injective dests i j _ _ (List.getElem?_eq_getElem i.isLt)
    (List.getElem?_eq_getElem j.isLt) same)

/-- Every destination is always given its own last checkpoint, exactly if no kind that keeps
checkpoints is configured twice. -/
theorem own_rows_iff :
    (∀ run, givenRows dests run = givenOwnRows dests run) ↔
      ∀ kind, backendKey kind ≠ none → dests.count kind ≤ 1 := by
  constructor
  · intro same kind keeps
    by_contra several
    obtain ⟨index, below, found⟩ := List.mem_iff_getElem.mp
      (List.count_pos_iff.mp (show 0 < dests.count kind by omega))
    let dest : Fin dests.length := ⟨index, below⟩
    have hkind : dests.get dest = kind := found
    have hkey : backendKey (dests.get dest) = some kind.name := by
      rw [hkind]
      exact (backend_key_is_kind kind).resolve_left keeps
    have hlabel : label dests dest ≠ kind.name := by
      rw [label_eq, hkind, labelAt, if_neg (by omega)]
      exact Ne.symm (name_ne_numbered _ _ _)
    -- The backend saves under its kind; the next attempt looks under the label and finds nothing.
    have hrun := same
      [.use dest (.persist ⟨0, .temp ""⟩), .use dest .resume]
    simp only [givenRows, givenOwnRows, given, step, backendSet, hkey, Table.set, hlabel, if_false,
      Option.map_some, id, if_true] at hrun
    simp at hrun
  · intro once run
    refine given_agree _ _ _ _ (label_injective dests) Function.injective_id ?_ _ _ run
      (fun _ => rfl)
    intro dest
    rcases backend_key_is_kind (dests.get dest) with hnone | hsome
    · exact Or.inl ⟨hnone, by rw [hnone]; rfl⟩
    · have hpos : 0 < dests.count (dests.get dest) :=
        List.count_pos_iff.mpr (List.get_mem dests dest)
      have hcount := once (dests.get dest) (by rw [hsome]; simp)
      refine Or.inr ⟨?_, by rw [hsome]; rfl⟩
      rw [hsome, label_eq, labelAt, if_pos (by omega)]

end Instance

/-- Two s3 destinations: the first saves a checkpoint, and its next attempt does not find it. -/
theorem two_s3_not_own_rows :
    ¬∀ (dests : List Kind) (run : List (Event (Fin dests.length))),
      givenRows dests run = givenOwnRows dests run := by
  intro same
  have hrun := same [.s3, .s3]
    [.use ⟨0, by decide⟩ (.persist ⟨0, .s3 ⟨0, "a.txt", 5, 9, 1, []⟩⟩), .use ⟨0, by decide⟩ .resume,
      .use ⟨0, by decide⟩ .giveUp]
  revert hrun
  decide

end FileReplicator.ResumeAddressing
