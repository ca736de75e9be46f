import FileReplicator.TempUpload

/-!
# The detached ftps upload

The blocking half of an ftps delivery goes on after its future is dropped. It
asks the flag at the head of its loop and nowhere else, so whether a paused item
keeps its checkpoint depends on where the task is when the future is dropped.
-/

namespace FileReplicator.FtpsCancel

open Domain TempUpload

/-- What the blocking task was started with: whether there is a store, the offset of a token that
matches, the size of the source and the directories above the remote path. -/
structure Upload where
  stored : Bool
  reusable : Option Nat
  size : Nat
  parents : List String

inductive Phase where
  | connecting
  | making (dir : String) (rest : List String)
  | sizing (token : Nat)
  | opening (committed : Nat)
  | hashing (committed : Nat)
  | resuming (committed : Nat)
  | starting (committed : Nat)
  | putting (committed : Nat)
  /-- At the head of the loop. -/
  | polling (total since : Nat)
  | reading (total since : Nat)
  /-- Waiting for the bandwidth of `n` bytes, or writing them. -/
  | writing (total since n : Nat)
  | saving (total : Nat)
  | finalizing (total : Nat)
  | publishing (total : Nat)
  | removing (total : Nat)
  | publishingAgain (total : Nat)
  | clearing (total : Nat)
  | ended (result : Except ReplError Nat)

/-- What a pause must not see: the final file, and a checkpoint written or deleted. -/
inductive Effect where
  | published
  | saved (committed : Nat)
  | cleared
  deriving DecidableEq

inductive Answer where
  | ok (n : Nat)
  | failed (error : ReplError)

def cancelledText : String := "ftps upload cancelled mid-transfer (window close / shutdown)"

def sizeChangedText (size total : Nat) : String :=
  "ftps source size changed during transfer: expected " ++ toString size ++ ", streamed " ++
    toString total

namespace Upload

variable (u : Upload)

def made : List String → Phase
  | dir :: rest => .making dir rest
  | [] => match u.reusable with
      | some token => .sizing token
      | none => .opening 0

/-- `persist_checkpoint`: without a store there is none, and a failure is only logged. -/
def persisted (committed : Nat) : Answer → List Effect
  | .ok _ => if u.stored then [.saved committed] else []
  | .failed _ => []

/-- One call of the task, with the effect it had. -/
def next (cancelled : Bool) : Phase → Answer → Phase × List Effect
  | .connecting, .ok _ => (u.made u.parents, [])
  | .connecting, .failed e => (.ended (.error e), [])
  | .making _ rest, _ => (u.made rest, [])
  | .sizing token, .ok sz => (.opening (min (min sz token) u.size), [])
  | .sizing _, .failed _ => (.opening 0, [])
  | .opening committed, .ok _ =>
      (if 0 < committed then .hashing committed else .starting committed, [])
  | .opening _, .failed e => (.ended (.error e), [])
  | .hashing committed, .ok _ => (.resuming committed, [])
  | .hashing _, .failed e => (.ended (.error e), [])
  | .resuming committed, .ok _ => (.starting committed, [])
  | .resuming _, .failed e => (.ended (.error e), [])
  | .starting committed, answer => (.putting committed, u.persisted committed answer)
  | .putting committed, .ok _ => (.polling committed 0, [])
  | .putting _, .failed e => (.ended (.error e), [])
  | .polling total since, _ =>
      if cancelled then (.ended (.error (.transient cancelledText)), [])
      else (.reading total since, [])
  | .reading total since, .ok n =>
      if n = 0 then (.finalizing total, []) else (.writing total since (min n chunkSize), [])
  | .reading _ _, .failed e => (.ended (.error e), [])
  | .writing total since n, .ok _ =>
      if checkpointEvery ≤ since + n then (.saving (total + n), [])
      else (.polling (total + n) (since + n), [])
  | .writing _ _ _, .failed e => (.ended (.error e), [])
  | .saving total, answer => (.polling total 0, u.persisted total answer)
  | .finalizing total, .ok _ =>
      if total = u.size then (.publishing total, [])
      else (.ended (.error (.transient (sizeChangedText u.size total))), [])
  | .finalizing _, .failed e => (.ended (.error e), [])
  | .publishing total, .ok _ => (.clearing total, [.published])
  | .publishing total, .failed _ => (.removing total, [])
  | .removing total, _ => (.publishingAgain total, [])
  | .publishingAgain total, .ok _ => (.clearing total, [.published])
  | .publishingAgain _, .failed e => (.ended (.error e), [])
  | .clearing total, .ok _ => (.ended (.ok total), if u.stored then [.cleared] else [])
  | .clearing total, .failed _ => (.ended (.ok total), [])
  | .ended result, _ => (.ended result, [])

end Upload

structure Task where
  phase : Phase
  cancelled : Bool
  effects : List Effect

namespace Task

def start : Task := ⟨.connecting, false, []⟩

def drop (task : Task) : Task := { task with cancelled := true }

def call (u : Upload) (task : Task) (answer : Answer) : Task :=
  let out := u.next task.cancelled task.phase answer
  { task with phase := out.1, effects := task.effects ++ out.2 }

def calls (u : Upload) (task : Task) (answers : List Answer) : Task := answers.foldl (call u) task

end Task

/-- The task asks the flag before it has another effect, or has ended. -/
def Upload.Heeds (u : Upload) : Phase → Prop
  | .putting _ | .polling _ _ | .ended _ => True
  | .reading total since =>
      total ≠ u.size ∧ (u.stored = true → since + chunkSize < checkpointEvery)
  | .writing _ since n => u.stored = true → since + n < checkpointEvery
  | .finalizing total => total ≠ u.size
  | .publishing _ | .removing _ | .publishingAgain _ => False
  | _ => u.stored = false

attribute [local simp] Upload.next Upload.persisted

section Heeding

variable (u : Upload)

theorem made_heeds (unstored : u.stored = false) (dirs : List String) : u.Heeds (u.made dirs) := by
  cases dirs with
  | cons dir rest => exact unstored
  | nil =>
      rw [Upload.made]
      split <;> exact unstored

theorem persisted_unstored (unstored : u.stored = false) (committed : Nat) (answer : Answer) :
    u.persisted committed answer = [] := by
  cases answer <;> simp [unstored]

/-- A call of a task that heeds the flag has no effect, and the task heeds it still. -/
theorem next_heeds (phase : Phase) (heeds : u.Heeds phase) (answer : Answer) :
    u.Heeds (u.next true phase answer).1 ∧ (u.next true phase answer).2 = [] := by
  cases phase with
  | connecting =>
      cases answer with
      | ok n => exact ⟨made_heeds u heeds u.parents, rfl⟩
      | failed e => exact ⟨trivial, rfl⟩
  | making dir rest => exact ⟨made_heeds u heeds rest, rfl⟩
  | sizing token => cases answer <;> exact ⟨heeds, rfl⟩
  | opening committed =>
      cases answer with
      | ok n =>
          refine ⟨?_, rfl⟩
          show u.Heeds (if 0 < committed then _ else _)
          split <;> exact heeds
      | failed e => exact ⟨trivial, rfl⟩
  | hashing committed => cases answer <;> exact ⟨by first | exact heeds | trivial, rfl⟩
  | resuming committed => cases answer <;> exact ⟨by first | exact heeds | trivial, rfl⟩
  | starting committed => exact ⟨trivial, persisted_unstored u heeds committed answer⟩
  | putting committed => cases answer <;> exact ⟨trivial, rfl⟩
  | polling total since => exact ⟨trivial, rfl⟩
  | reading total since =>
      cases answer with
      | ok n =>
          simp only [Upload.next]
          split
          · exact ⟨heeds.1, rfl⟩
          · refine ⟨fun stored => ?_, rfl⟩
            have hroom := heeds.2 stored
            have hchunk := Nat.min_le_right n chunkSize
            omega
      | failed e => exact ⟨trivial, rfl⟩
  | writing total since n =>
      cases answer with
      | ok _ =>
          simp only [Upload.next]
          split
          · rename_i due
            refine ⟨?_, rfl⟩
            show u.stored = false
            rw [Bool.eq_false_iff]
            exact fun stored => absurd due (Nat.not_le.mpr (heeds stored))
          · exact ⟨trivial, rfl⟩
      | failed e => exact ⟨trivial, rfl⟩
  | saving total => exact ⟨trivial, persisted_unstored u heeds total answer⟩
  | finalizing total =>
      cases answer with
      | ok _ =>
          simp only [Upload.next, if_neg heeds]
          exact ⟨trivial, trivial⟩
      | failed e => exact ⟨trivial, rfl⟩
  | publishing total => exact heeds.elim
  | removing total => exact heeds.elim
  | publishingAgain total => exact heeds.elim
  | clearing total =>
      have hnone : u.stored = false := heeds
      cases answer with
      | ok _ => exact ⟨trivial, by simp [hnone]⟩
      | failed e => exact ⟨trivial, rfl⟩
  | ended result => exact ⟨trivial, rfl⟩

theorem calls_heeds (task : Task) (dropped : task.cancelled = true) (heeds : u.Heeds task.phase)
    (answers : List Answer) : (task.calls u answers).effects = task.effects := by
  induction answers generalizing task with
  | nil => rfl
  | cons answer rest ih =>
      obtain ⟨later, none⟩ := next_heeds u task.phase heeds answer
      have hcall := ih (task.call u answer) dropped (by rw [Task.call, dropped]; exact later)
      rw [Task.calls, List.foldl_cons]
      refine hcall.trans ?_
      rw [Task.call, dropped, none, List.append_nil]

end Heeding

/-! ## Where it is not -/

section Ignoring

variable (u : Upload)

/-- Some answers lead a dropped task to an effect. -/
def Acts (phase : Phase) : Prop :=
  ∃ answers, ∀ effects, (Task.calls u ⟨phase, true, effects⟩ answers).effects ≠ effects

theorem acts_now (phase : Phase) (answer : Answer) (effect : Effect)
    (has : (u.next true phase answer).2 = [effect]) : Acts u phase := by
  refine ⟨[answer], fun effects same => ?_⟩
  have hlength := congrArg List.length same
  simp only [Task.calls, List.foldl_cons, List.foldl_nil, Task.call, has, List.length_append,
    List.length_singleton] at hlength
  omega

theorem acts_later (phase : Phase) (answer : Answer) (none : (u.next true phase answer).2 = [])
    (acts : Acts u (u.next true phase answer).1) : Acts u phase := by
  obtain ⟨answers, differ⟩ := acts
  refine ⟨answer :: answers, fun effects => ?_⟩
  have hrest := differ effects
  rw [Task.calls, List.foldl_cons]
  simp only [Task.call, none, List.append_nil]
  exact hrest

theorem acts_publishing (total : Nat) : Acts u (.publishing total) :=
  acts_now u _ (.ok 0) .published rfl

theorem acts_finalizing : Acts u (.finalizing u.size) := by
  apply acts_later u _ (.ok 0)
  · simp
  · simp only [Upload.next, if_true]
    exact acts_publishing u u.size

section Stored

variable (stored : u.stored = true)

include stored

theorem acts_starting (committed : Nat) : Acts u (.starting committed) :=
  acts_now u _ (.ok 0) (.saved committed) (by simp [stored])

theorem acts_opening (committed : Nat) : Acts u (.opening committed) := by
  apply acts_later u _ (.ok 0) rfl
  show Acts u (if 0 < committed then .hashing committed else .starting committed)
  split
  · apply acts_later u _ (.ok 0) rfl
    apply acts_later u _ (.ok 0) rfl
    exact acts_starting u stored committed
  · exact acts_starting u stored committed

theorem acts_made (dirs : List String) : Acts u (u.made dirs) := by
  induction dirs with
  | nil =>
      rw [Upload.made]
      split
      · apply acts_later u _ (.ok 0) rfl
        exact acts_opening u stored _
      · exact acts_opening u stored 0
  | cons dir rest ih => exact acts_later u (.making dir rest) (.ok 0) rfl ih

theorem acts_saving (total : Nat) : Acts u (.saving total) :=
  acts_now u _ (.ok 0) (.saved total) (by simp [stored])

theorem acts_writing (total since n : Nat) (due : checkpointEvery ≤ since + n) :
    Acts u (.writing total since n) := by
  apply acts_later u _ (.ok 0)
  · simp [due]
  · simp only [Upload.next, if_pos due]
    exact acts_saving u stored _

end Stored

theorem acts_of_not_heeds (phase : Phase) (ignores : ¬ u.Heeds phase) : Acts u phase := by
  have hstored : ¬ u.stored = false → u.stored = true := by simp
  cases phase with
  | connecting =>
      apply acts_later u _ (.ok 0) rfl
      exact acts_made u (hstored ignores) u.parents
  | making dir rest => exact acts_made u (hstored ignores) (dir :: rest)
  | sizing token =>
      apply acts_later u _ (.ok 0) rfl
      exact acts_opening u (hstored ignores) _
  | opening committed => exact acts_opening u (hstored ignores) committed
  | hashing committed =>
      apply acts_later u _ (.ok 0) rfl
      apply acts_later u _ (.ok 0) rfl
      exact acts_starting u (hstored ignores) committed
  | resuming committed =>
      apply acts_later u _ (.ok 0) rfl
      exact acts_starting u (hstored ignores) committed
  | starting committed => exact acts_starting u (hstored ignores) committed
  | putting committed => exact absurd trivial ignores
  | polling total since => exact absurd trivial ignores
  | reading total since =>
      by_cases complete : total = u.size
      · -- the end of the source is read, and the flag is not asked again
        apply acts_later u _ (.ok 0) rfl
        rw [complete]
        exact acts_finalizing u
      · have hdue : u.stored = true ∧ checkpointEvery ≤ since + chunkSize := by
          by_contra other
          exact ignores ⟨complete, fun stored => Nat.not_le.mp fun due => other ⟨stored, due⟩⟩
        have hsize : chunkSize ≠ 0 := by decide
        apply acts_later u _ (.ok chunkSize)
        · simp [hsize]
        · simp only [Upload.next, if_neg hsize, Nat.min_self]
          exact acts_writing u hdue.1 total since chunkSize hdue.2
  | writing total since n =>
      have hdue : u.stored = true ∧ checkpointEvery ≤ since + n := by
        by_contra other
        exact ignores fun stored => Nat.not_le.mp fun due => other ⟨stored, due⟩
      exact acts_writing u hdue.1 total since n hdue.2
  | saving total => exact acts_saving u (hstored ignores) total
  | finalizing total =>
      rw [not_not.mp ignores]
      exact acts_finalizing u
  | publishing total => exact acts_publishing u total
  | removing total =>
      apply acts_later u _ (.ok 0) rfl
      exact acts_now u _ (.ok 0) .published rfl
  | publishingAgain total => exact acts_now u _ (.ok 0) .published rfl
  | clearing total =>
      exact acts_now u _ (.ok 0) .cleared (by simp [hstored ignores])
  | ended result => exact absurd trivial ignores

end Ignoring

/-- After the drop the task publishes nothing and leaves the checkpoint alone, however its calls end,
if and only if it was at a place where it still asks the flag before it does either. -/
theorem pause_kept_iff (u : Upload) (task : Task) :
    (∀ answers, ((task.drop).calls u answers).effects = task.effects) ↔ u.Heeds task.phase := by
  constructor
  · intro kept
    by_contra ignores
    obtain ⟨answers, differ⟩ := acts_of_not_heeds u task.phase ignores
    exact differ task.effects (kept answers)
  · intro heeds answers
    exact calls_heeds u task.drop rfl heeds answers

/-- A source of ten bytes, uploaded from the start. -/
def tenBytes : Upload where
  stored := true
  reusable := none
  size := 10
  parents := []

/-- Connected, opened, saved, put, polled, read, written and polled again. -/
def throughLastPoll : List Answer :=
  [.ok 0, .ok 0, .ok 0, .ok 0, .ok 0, .ok 10, .ok 0, .ok 0]

theorem published_after_drop :
    ¬ ∀ u before after, (((Task.start.calls u before).drop).calls u after).effects =
      (Task.start.calls u before).effects := by
  intro kept
  have hkept := kept tenBytes throughLastPoll [.ok 0, .ok 0, .ok 0, .ok 0]
  exact absurd hkept (by decide)

end FileReplicator.FtpsCancel
