import FileReplicator.Assurance
import FileReplicator.CleanupSteps

/-!
# What is counted on

The rows of the store, the threads and the reports of the attempts say which destinations
are verified. Whatever `known` stands for, as long as it is so of a destination when it
is recorded as verified, and stays so until the row is started over, it is so of all that
is counted on.
-/

namespace FileReplicator.Vouching

open Domain DurableStore Effects Interleaving Annotations Operations Worker Instance
open Protocol Steps Runs Assurance
open CleanupSteps (startsOver)
open Relabelling (runsFor owing Tells)
open Offspring (Reported)

variable (setup : Setup)

/-- What the rows, the threads and the reports take to be verified is, as far as `known` goes. -/
structure Counts (known : String × String → Prop) (c : Duo) : Prop where
  told : Tells setup known c.state.store
  sure : ∀ u ∈ c.threads, Attached c u → Sure setup known u.notes.1
  reported : Reported known (forget Prod.fst c)

theorem tells_mono (known more : String × String → Prop) (store : Store)
    (grows : ∀ p, known p → more p) (tells : Tells setup known store) : Tells setup more store :=
  ⟨fun relpath label phase => grows _ (tells.verified relpath label phase),
    fun relpath row found owes label member => grows _ (tells.pending relpath row found owes label member)⟩

theorem has_rows (c : Duo) (staffed : Staffed setup c) (t : Hand) (member : t ∈ c.threads)
    (busy : t.notes.1.todo ≠ [] ∨ t.notes.1.stage ≠ .idle) : hasRows t.notes.1.role = true := by
  by_contra none
  have rowless := staffed.base.rowless _ (mem_forget Prod.fst c t member) (Bool.eq_false_iff.mpr none)
  rcases busy with todo | stage
  · exact todo rowless.todo
  · exact stage rowless.stage

theorem staffed_begins (c : Duo) (begins : Begins (forget Prod.fst c)) : Staffed setup c := by
  have nobody : ∀ t, t ∉ (forget Prod.fst c).threads := by
    intro t
    rw [begins.threads]
    exact List.not_mem_nil
  obtain ⟨turns, booked⟩ := DrainRuns.booked_idle setup (forget Prod.snd c)
    (List.map_eq_nil_iff.mpr (List.map_eq_nil_iff.mp begins.threads)) begins.keyed
  exact ⟨base_begins setup _ begins,
    ⟨fun t ht => absurd ht (nobody t), fun id _ => begins.attempts id⟩, turns, ⟨_, booked⟩,
    fun t ht => absurd (mem_forget Prod.fst c t ht) (nobody _),
    fun t ht => absurd (mem_forget Prod.fst c t ht) (nobody _)⟩

theorem manned_begins (c : Duo) (begins : Begins (forget Prod.fst c))
    (rooted : ∀ relpath label, c.state.store.phase relpath label = .verified →
      c.state.store.items relpath ≠ none) : Manned setup c := by
  have nobody : ∀ t, t ∉ c.threads := by
    intro t
    rw [List.map_eq_nil_iff.mp begins.threads]
    exact List.not_mem_nil
  exact ⟨staffed_begins setup c begins, fun t ht => absurd ht (nobody t), rooted⟩

section Calls

variable {setup}
variable {c : Duo} {t : Hand} {operation : Op} {ret : Ret operation} {effect : Effect World Spec}
variable {next : Ret operation → Program Unit} {known more : String × String → Prop}

/-- What a thread that has rows is sure of when it makes a call that is about them. -/
theorem sure_of_called (manned : Manned setup c) (counts : Counts setup known c)
    (called : Called setup c t operation ret effect next)
    (busy : t.notes.1.todo ≠ [] ∨ t.notes.1.stage ≠ .idle) (asks : operation ≠ .isActive)
    (locks : operation ≠ .lockTick) : Sure setup known t.notes.1 :=
  counts.sure t called.member (attached_of_turn manned.toStaffed called.member called.turn
    (has_rows setup c manned.toStaffed t called.member busy) asks locks)

theorem told_settle (manned : Manned setup c) (counts : Counts setup known c)
    (called : Called setup c t operation ret effect next) (grows : ∀ p, known p → more p)
    (entered : ∀ p, vouches operation ret = some p → more p) :
    Tells setup more effect.state.store := by
  have before := tells_mono setup _ _ c.state.store grows counts.told
  have may := called.may
  constructor
  · intro relpath label phase
    cases called.did with
    | statement statement =>
        rcases Relabelling.phase_call c.state.store statement relpath label phase with was | rfl |
          ⟨error, gate, rfl⟩
        · exact before.verified relpath label was
        · exact entered (relpath, label) rfl
        · exact absurd rfl may.2
    | undelivered item l resume left error after stored =>
        apply before.verified relpath label
        rcases stored with rfl | ⟨_, _, rfl⟩ <;> exact phase
    | _ => exact before.verified relpath label phase
  · intro relpath row found owes label member
    by_cases same : effect.state.store.items relpath = c.state.store.items relpath
    · exact before.pending relpath row (same ▸ found) owes label member
    · have writes : operation ≠ .isActive ∧ operation ≠ .lockTick := by
        constructor
        · rintro rfl
          cases called.did
          exact same rfl
        · rintro rfl
          cases called.did
          exact same rfl
      -- whoever has a row owe its action is sure of its destinations
      have sure (busy : t.notes.1.todo ≠ [] ∨ t.notes.1.stage ≠ .idle) : Sure setup known t.notes.1 :=
        sure_of_called manned counts called busy writes.1 writes.2
      rcases Relabelling.owing_of_did setup _ _ c.state operation ret effect called.did may relpath row
        found owes with ⟨was, rows, owed⟩ | ⟨todo, surely⟩ | acting
      · exact before.pending relpath was rows owed label member
      · exact grows _ ((sure (Or.inl (List.ne_nil_of_mem todo))).sure relpath (Or.inl todo) label
          member (surely label member))
      · have stage : t.notes.1.stage ≠ .idle := by
          intro idle
          change runsFor t.notes.1.stage = some relpath at acting
          rw [idle] at acting
          cases acting
        exact grows _ ((sure (Or.inr stage)).acting relpath acting label member)

theorem counts_settle (manned : Manned setup c) (counts : Counts setup known c)
    (called : Called setup c t operation ret effect next) (grows : ∀ p, known p → more p)
    (entered : ∀ p, vouches operation ret = some p → more p) :
    Counts setup more ((duo setup).settle c ((duo setup).resumed t operation ret next) effect) := by
  refine ⟨told_settle manned counts called grows entered, ?_, ?_⟩
  · apply called.sure manned
    · intro attached
      exact sure_learn setup _ (forgetThread Prod.fst t) _ c.state operation ret effect called.did
        called.may (tells_mono setup _ _ _ grows counts.told)
        (sure_mono setup _ _ _ grows (counts.sure t called.member attached))
        (fun relpath role label came => grows _ (counts.reported _ (mem_forget Prod.fst c t called.member)
          relpath role label came))
        entered
    · exact fun u hu _ attached => sure_mono setup _ _ _ grows (counts.sure u hu attached)
  · have live : Machine.live (forget Prod.fst c) = Machine.live c := live_forget c
    have did := called.did
    rw [← live] at did
    rw [settle_forget (duo_engine setup)]
    refine Offspring.reported_settle manned.base (mem_forget Prod.fst c t called.member) called.may
      did manned.family _ _ grows counts.reported ?_
    rintro owner ctx spec ⟨v, hv, named⟩ label member listed
    obtain ⟨u, hu, rfl⟩ := List.mem_map.mp hv
    have attached : Attached c t := by
      refine ⟨Or.inr ⟨owner, ctx, spec⟩, ?_, ?_⟩
      · intro now ignoreWindow redriveCleanup fuel tick
        rw [show t.spec = .attempt owner ctx from spec] at tick
        cases tick
      · intro other another same
        rw [show t.spec = .attempt owner ctx from spec] at same
        cases same
        exact ⟨u, hu, named⟩
    have role := role_of manned.toStaffed t called.member
    rw [show t.spec = .attempt owner ctx from spec] at role
    exact (counts.sure t called.member attached).sure ctx.item.relpath (Or.inr (Or.inr ⟨_, role⟩)) label
      member listed

theorem told_restart (manned : Manned setup c) (counts : Counts setup known c) (relpath : String)
    (size : Nat) (mtimeMs now : Int)
    (anew : startsOver size mtimeMs (c.state.store.items relpath) = true)
    (rest : ∀ p, known p → p.1 ≠ relpath → more p) :
    Tells setup more (c.state.store.upsertReady relpath size mtimeMs now) := by
  obtain ⟨others, own⟩ := c.state.store.upsert_cases relpath size mtimeMs now
  constructor
  · intro row label phase
    by_cases mine : row = relpath
    · subst mine
      rcases own with ⟨absent, _, same⟩ | ⟨_, _, _, _, cleared⟩ | ⟨old, found, stays, _⟩
      -- a row that was not there had no verified destination
      · exact absurd absent (manned.rooted row label (same label ▸ phase))
      · rw [cleared label] at phase
        cases phase
      · rw [found] at anew
        exact absurd (stays.symm.trans anew) Bool.noConfusion
    · exact rest _ (counts.told.verified row label ((others row mine).2 label ▸ phase)) mine
  · intro row after found owes label member
    by_cases mine : row = relpath
    · subst mine
      rcases own with ⟨_, fresh, _⟩ | ⟨_, _, _, fresh, _⟩ | ⟨old, before, stays, _⟩
      · rw [fresh] at found
        cases found
        cases owes
      · rw [fresh] at found
        cases found
        cases owes
      · rw [before] at anew
        exact absurd (stays.symm.trans anew) Bool.noConfusion
    · exact rest _ (counts.told.pending row after ((others row mine).1 ▸ found) owes label member) mine

/-- A row is started over by a tick that is alone with the rows: nothing of it is counted on. -/
theorem counts_restart (manned : Manned setup c) (counts : Counts setup known c)
    (called : Called setup c t operation ret effect next) (relpath : String) (size : Nat)
    (mtimeMs now : Int) (looks : operation = .store (.upsertReady relpath size mtimeMs now))
    (anew : startsOver size mtimeMs (c.state.store.items relpath) = true)
    (learned : learn setup t.notes.1 operation ret = t.notes.1)
    (done : effect =
      changes { c.state with store := c.state.store.upsertReady relpath size mtimeMs now })
    (rest : ∀ p, known p → p.1 ≠ relpath → more p) :
    Counts setup more ((duo setup).settle c ((duo setup).resumed t operation ret next) effect) := by
  have alone := called.alone manned.toStaffed relpath size mtimeMs now looks
  have may := called.may
  rw [looks] at may
  obtain ⟨tick, stage, todo, _⟩ := may
  refine ⟨?_, ?_, ?_⟩
  · show Tells setup more effect.state.store
    rw [done]
    exact told_restart manned counts relpath size mtimeMs now anew rest
  · apply called.sure manned
    · intro _
      rw [learned]
      exact sure_idle setup _ t.notes.1 tick todo stage
    · exact fun u hu other attached => absurd (alone u hu attached) other
  · -- no item is there to be reported to
    have no_item : ∀ u ∈ ((duo setup).settle c ((duo setup).resumed t operation ret next) effect).threads,
        ∀ row, u.notes.1.role ≠ .item row := by
      apply all_settle (duo setup) (fun _ n => ∀ row, n.1.role ≠ .item row) c t operation ret effect next
      · intro row role
        change (learn setup t.notes.1 operation ret).role = _ at role
        rw [learned, tick] at role
        cases role
      · intro u hu other row role
        rw [role_of manned.toStaffed u hu] at role
        cases spec : u.spec with
        | item owner item at_ =>
            refine other (alone u hu ⟨Or.inl (by rw [role]; rfl), ?_, ?_⟩)
            · intro _ _ _ _ same
              rw [spec] at same
              cases same
            · intro _ _ same
              rw [spec] at same
              cases same
        | _ =>
            rw [spec] at role
            cases role
      · rw [done]
        exact fun spec none => by cases none
    intro v hv row role
    obtain ⟨u, hu, rfl⟩ := List.mem_map.mp hv
    exact absurd role (no_item u hu row)

theorem counts_without (counts : Counts setup known c) (id : Nat) :
    Counts setup known ((duo setup).without c id) := by
  refine ⟨counts.told, sure_without id _ counts.sure, ?_⟩
  rw [without_forget (duo_engine setup)]
  exact Offspring.reported_without _ counts.reported id

theorem counts_absorb (manned : Manned setup c) (counts : Counts setup known c) (event : Event)
    (reaction : Reaction World Spec)
    (reacted : react c.state (Machine.live c) event = some reaction) :
    Counts setup known ((duo setup).absorb c reaction) := by
  obtain ⟨store, _, _⟩ := react_base _ _ event reaction reacted
  refine ⟨?_, sure_absorb reaction manned _ counts.sure, ?_⟩
  · show Tells setup known reaction.state.store
    rw [store]
    exact counts.told
  · have live : Machine.live (forget Prod.fst c) = Machine.live c := live_forget c
    rw [absorb_forget (duo_engine setup)]
    refine Offspring.reported_absorb event reaction ?_ _ counts.reported
    rw [live]
    exact reacted

end Calls

end FileReplicator.Vouching
