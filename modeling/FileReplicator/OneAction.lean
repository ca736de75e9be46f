import FileReplicator.Handles

/-!
# Cleanups and their actions

A cleanup of an item that is entered while no other is under way, and no action of
one is left running, has the only action of the item as long as it lasts.
-/

namespace FileReplicator.OneAction

open Domain DurableStore Effects FileTree SourceActions Retry Operations Worker Interleaving Instance
open Protocol Steps Runs Handles

variable (setup : Setup)

/-- The item of a cleanup under way, from its marker to its recorded outcome. -/
def rowOf : Stage → Option String
  | .marked relpath => some relpath
  | .acting _ ctx => some ctx.relpath
  | .acted ctx _ => some ctx.relpath
  | .failed ctx => some ctx.relpath
  | _ => none

def actsOn : Spec → Option String
  | .action _ ctx => some ctx.relpath
  | _ => none

def Cleans (relpath : String) (t : Running) : Prop := rowOf t.notes.stage = some relpath

/-- The thread is a completion action of the item. -/
def Acts (relpath : String) (t : Running) : Prop := actsOn t.spec = some relpath

/-- The item whose cleanup the next call enters. -/
def enters : Program Unit → Option String
  | .call (.store (.setState relpath .cleanupPending _)) _ => some relpath
  | _ => none

/-- A cleanup of an item is entered while no other one is under way and no action of one runs. -/
def Alone (c : State) (choice : Step) : Prop :=
  ∀ t ∈ c.threads, ∀ answer, choice = .run t.id answer → ∀ relpath, enters t.prog = some relpath →
    ∀ u ∈ c.threads, ¬Cleans relpath u ∧ ¬Acts relpath u

/-- At most one cleanup of each item is under way, and every action belongs to it. -/
structure One (c : State) : Prop where
  cleanups : ∀ t ∈ c.threads, ∀ u ∈ c.threads, ∀ relpath, Cleans relpath t → Cleans relpath u →
    t.id = u.id
  actions : ∀ t ∈ c.threads, ∀ u ∈ c.threads, ∀ relpath, Acts relpath t → Acts relpath u →
    t.id = u.id
  own : ∀ t ∈ c.threads, ∀ u ∈ c.threads, ∀ relpath, Cleans relpath t → Acts relpath u →
    ∃ handle ctx, t.notes.stage = .acting handle ctx ∧ pooled u.spec = some handle

/-! ## Steps that enter nothing -/

/-- Every thread of the second list is one of the first in the same stage, or does not clean up. -/
def Covered (before after : List Running) : Prop :=
  ∀ u ∈ after,
    (∃ t ∈ before, u.id = t.id ∧ u.spec = t.spec ∧
      ∀ relpath, Cleans relpath u → u.notes.stage = t.notes.stage) ∨
    ∀ relpath, ¬Cleans relpath u ∧ ¬Acts relpath u

theorem one_of_covered (c after : State) (one : One c) (covered : Covered c.threads after.threads) :
    One after := by
  have cleaning : ∀ u ∈ after.threads, ∀ relpath, Cleans relpath u →
      ∃ t ∈ c.threads, u.id = t.id ∧ u.notes.stage = t.notes.stage ∧ Cleans relpath t := by
    intro u hu relpath cleans
    rcases covered u hu with ⟨t, ht, id, _, stage⟩ | neither
    · have same := stage relpath cleans
      exact ⟨t, ht, id, same, by rwa [Cleans, ← same]⟩
    · exact absurd cleans (neither relpath).1
  have acting : ∀ u ∈ after.threads, ∀ relpath, Acts relpath u →
      ∃ t ∈ c.threads, u.id = t.id ∧ u.spec = t.spec ∧ Acts relpath t := by
    intro u hu relpath acts
    rcases covered u hu with ⟨t, ht, id, spec, _⟩ | neither
    · exact ⟨t, ht, id, spec, by rwa [Acts, ← spec]⟩
    · exact absurd acts (neither relpath).2
  constructor
  · intro u hu v hv relpath hcleans vcleans
    obtain ⟨t, ht, uid, _, htc⟩ := cleaning u hu relpath hcleans
    obtain ⟨s, hs, vid, _, hsc⟩ := cleaning v hv relpath vcleans
    rw [uid, vid]
    exact one.cleanups t ht s hs relpath htc hsc
  · intro u hu v hv relpath hacts vacts
    obtain ⟨t, ht, uid, _, hta⟩ := acting u hu relpath hacts
    obtain ⟨s, hs, vid, _, hsa⟩ := acting v hv relpath vacts
    rw [uid, vid]
    exact one.actions t ht s hs relpath hta hsa
  · intro u hu v hv relpath cleans acts
    obtain ⟨t, ht, _, stage, htc⟩ := cleaning u hu relpath cleans
    obtain ⟨s, hs, _, spec, hsa⟩ := acting v hv relpath acts
    rw [stage, spec]
    exact one.own t ht s hs relpath htc hsa

theorem covered_same (c : State) (t u : Running) (ht : t ∈ c.threads) (same : SameThread t u) :
    (∃ t ∈ c.threads, u.id = t.id ∧ u.spec = t.spec ∧
      ∀ relpath, Cleans relpath u → u.notes.stage = t.notes.stage) :=
  ⟨t, ht, same.id, same.spec, fun _ _ => by rw [same.notes]⟩

theorem start_idle (spec : Spec) : (start spec).stage = .idle := by
  cases spec <;> rfl

theorem covered_new (m : List Spec) (first : Nat) (u new : Running)
    (hnew : new ∈ (engine setup).spawnFrom first m) (same : SameThread new u)
    (none : ∀ spec ∈ m, actsOn spec = none) :
    ∀ relpath, ¬Cleans relpath u ∧ ¬Acts relpath u := by
  obtain ⟨hspec, _, _, _, notes, _⟩ := mem_spawn_from (engine setup) _ _ new hnew
  intro relpath
  constructor
  · intro cleans
    rw [Cleans, same.notes, notes, show (engine setup).start = start from rfl, start_idle] at cleans
    cases cleans
  · intro acts
    rw [Acts, same.spec, none new.spec hspec] at acts
    cases acts

theorem acts_on_of_pooled (spec : Spec) (unpooled : pooled spec = none) : actsOn spec = none := by
  cases spec with
  | action handle ctx => cases unpooled
  | _ => rfl

theorem one_without (c : State) (one : One c) (id : Nat) : One ((engine setup).without c id) := by
  apply one_of_covered c _ one
  intro u hu
  obtain ⟨before, hbefore, _, same⟩ := mem_without (engine setup) c id u hu
  exact Or.inl (covered_same c before u hbefore same)

theorem one_absorb (c : State) (one : One c) (event : Event) (reaction : Reaction World Spec)
    (reacted : react c.state (Machine.live c) event = some reaction) :
    One ((engine setup).absorb c reaction) := by
  obtain ⟨_, _, none⟩ := react_pool _ _ event reaction reacted
  apply one_of_covered c _ one
  intro u hu
  rcases mem_absorb (engine setup) c reaction u hu with ⟨_, before, hbefore, same⟩ |
    ⟨new, hnew, same⟩
  · exact Or.inl (covered_same c before u hbefore same)
  · exact Or.inr (covered_new setup _ _ u new hnew same fun spec hspec =>
      acts_on_of_pooled spec (none spec hspec))

/-! ## Calls -/

section Settle

variable (c : State) (t u : Running) (operation : Op) (ret : Ret operation)
variable (effect : Effect World Spec) (next : Ret operation → Program Unit) (choice : Step)

/-- A thread after a call: the caller in its next stage, another one, or a new one. -/
theorem settled_member
    (hu : u ∈ ((engine setup).settle c ((engine setup).resumed t operation ret next) effect).threads) :
    (u.id = t.id ∧ u.spec = t.spec ∧ u.notes.stage = (learn setup t.notes operation ret).stage) ∨
    (∃ before ∈ c.threads, before.id ≠ t.id ∧ SameThread before u ∧
      effect.fate before.id before.spec ≠ .gone) ∨
    ∃ new ∈ (engine setup).spawnFrom c.next effect.spawned, SameThread new u := by
  rcases mem_settle (engine setup) c _ u effect hu with ⟨same, _⟩ |
    ⟨before, hbefore, other, same, fate, _⟩ | new
  · exact Or.inl ⟨same.id, same.spec, by rw [same.notes]; rfl⟩
  · exact Or.inr (Or.inl ⟨before, hbefore, other, same, fate⟩)
  · exact Or.inr (Or.inr new)

/-- A call after which the caller is in the same stage or in no cleanup at all, and which starts no
action. -/
theorem one_settle_plain (one : One c) (ht : t ∈ c.threads)
    (stage : (learn setup t.notes operation ret).stage = t.notes.stage ∨
      rowOf (learn setup t.notes operation ret).stage = none)
    (none : ∀ spec ∈ effect.spawned, actsOn spec = none) :
    One ((engine setup).settle c ((engine setup).resumed t operation ret next) effect) := by
  apply one_of_covered c _ one
  intro u hu
  rcases settled_member setup c t u operation ret effect next hu with ⟨id, spec, learned⟩ |
    ⟨before, hbefore, _, same, _⟩ | ⟨new, hnew, same⟩
  · refine Or.inl ⟨t, ht, id, spec, fun relpath cleans => ?_⟩
    rcases stage with same | out
    · exact learned.trans same
    · rw [Cleans, learned, out] at cleans
      cases cleans
  · exact Or.inl (covered_same c before u hbefore same)
  · exact Or.inr (covered_new setup _ _ u new hnew same none)

theorem one_settle_entered (one : One c) (ht : t ∈ c.threads) (relpath : String)
    (stage : (learn setup t.notes operation ret).stage = .marked relpath)
    (none : ∀ spec ∈ effect.spawned, actsOn spec = none)
    (alone : ∀ v ∈ c.threads, ¬Cleans relpath v ∧ ¬Acts relpath v) :
    One ((engine setup).settle c ((engine setup).resumed t operation ret next) effect) := by
  -- what another thread does it did before, so not for this item
  have member : ∀ v ∈ ((engine setup).settle c ((engine setup).resumed t operation ret next)
      effect).threads, (v.id = t.id ∧ v.spec = t.spec ∧ v.notes.stage = .marked relpath) ∨
      (∃ before ∈ c.threads, before.id ≠ t.id ∧ v.id = before.id ∧ v.spec = before.spec ∧
        v.notes = before.notes) ∨ ∀ r, ¬Cleans r v ∧ ¬Acts r v := by
    intro v hv
    rcases settled_member setup c t v operation ret effect next hv with ⟨id, spec, learned⟩ |
      ⟨before, hbefore, other, same, _⟩ | ⟨new, hnew, same⟩
    · exact Or.inl ⟨id, spec, learned.trans stage⟩
    · exact Or.inr (Or.inl ⟨before, hbefore, other, same.id, same.spec, same.notes⟩)
    · exact Or.inr (Or.inr (covered_new setup _ _ v new hnew same none))
  have acting : ∀ v ∈ ((engine setup).settle c ((engine setup).resumed t operation ret next)
      effect).threads, ∀ r, Acts r v → ∃ before ∈ c.threads, v.id = before.id ∧
        v.spec = before.spec ∧ Acts r before := by
    intro v hv r acts
    rcases member v hv with ⟨id, spec, _⟩ | ⟨before, hbefore, _, id, spec, _⟩ | neither
    · exact ⟨t, ht, id, spec, by rwa [Acts, ← spec]⟩
    · exact ⟨before, hbefore, id, spec, by rwa [Acts, ← spec]⟩
    · exact absurd acts (neither r).2
  have cleaning : ∀ v ∈ ((engine setup).settle c ((engine setup).resumed t operation ret next)
      effect).threads, ∀ r, Cleans r v → (v.id = t.id ∧ r = relpath) ∨
        ∃ before ∈ c.threads, v.id = before.id ∧ v.notes = before.notes ∧ Cleans r before := by
    intro v hv r cleans
    rcases member v hv with ⟨id, _, marked⟩ | ⟨before, hbefore, _, id, _, notes⟩ | neither
    · rw [Cleans, marked] at cleans
      exact Or.inl ⟨id, (Option.some.inj cleans).symm⟩
    · exact Or.inr ⟨before, hbefore, id, notes, by rwa [Cleans, ← notes]⟩
    · exact absurd cleans (neither r).1
  constructor
  · intro v hv w hw r vcleans wcleans
    rcases cleaning v hv r vcleans with ⟨vid, rfl⟩ | ⟨b, hb, vid, _, bcleans⟩ <;>
      rcases cleaning w hw _ wcleans with ⟨wid, wsame⟩ | ⟨d, hd, wid, _, dcleans⟩
    · rw [vid, wid]
    · exact absurd dcleans (alone d hd).1
    · subst wsame
      exact absurd bcleans (alone b hb).1
    · rw [vid, wid]
      exact one.cleanups b hb d hd r bcleans dcleans
  · intro v hv w hw r vacts wacts
    obtain ⟨b, hb, vid, _, bacts⟩ := acting v hv r vacts
    obtain ⟨d, hd, wid, _, dacts⟩ := acting w hw r wacts
    rw [vid, wid]
    exact one.actions b hb d hd r bacts dacts
  · intro v hv w hw r cleans acts
    obtain ⟨d, hd, _, spec, dacts⟩ := acting w hw r acts
    rcases cleaning v hv r cleans with ⟨_, rfl⟩ | ⟨b, hb, _, notes, bcleans⟩
    · exact absurd dacts (alone d hd).2
    · rw [notes, spec]
      exact one.own b hb d hd r bcleans dacts

theorem one_settle_started (one : One c) (ht : t ∈ c.threads) (ctx : CleanupCtx) (handle : Nat)
    (marked : t.notes.stage = .marked ctx.relpath)
    (stage : (learn setup t.notes operation ret).stage = .acting handle ctx)
    (spawned : effect.spawned = [.action handle ctx]) :
    One ((engine setup).settle c ((engine setup).resumed t operation ret next) effect) := by
  have cleans : Cleans ctx.relpath t := by rw [Cleans, marked]; rfl
  -- the caller was marked, so no action of the item was running
  have quiet : ∀ v ∈ c.threads, ¬Acts ctx.relpath v := by
    intro v hv acts
    obtain ⟨_, _, acting, _⟩ := one.own t ht v hv ctx.relpath cleans acts
    rw [marked] at acting
    cases acting
  have cleaning : ∀ v ∈ ((engine setup).settle c ((engine setup).resumed t operation ret next)
      effect).threads, ∀ r, Cleans r v →
        (v.id = t.id ∧ r = ctx.relpath ∧ v.notes.stage = .acting handle ctx) ∨
        ∃ before ∈ c.threads, before.id ≠ t.id ∧ v.id = before.id ∧ v.notes = before.notes ∧
          Cleans r before := by
    intro v hv r vcleans
    rcases settled_member setup c t v operation ret effect next hv with ⟨id, _, learned⟩ |
      ⟨before, hbefore, other, same, _⟩ | ⟨new, hnew, same⟩
    · rw [Cleans, learned, stage] at vcleans
      exact Or.inl ⟨id, (Option.some.inj vcleans).symm, learned.trans stage⟩
    · exact Or.inr ⟨before, hbefore, other, same.id, same.notes, by rwa [Cleans, ← same.notes]⟩
    · obtain ⟨_, _, _, _, notes, _⟩ := mem_spawn_from (engine setup) _ _ new hnew
      rw [Cleans, same.notes, notes, show (engine setup).start = start from rfl, start_idle]
        at vcleans
      cases vcleans
  have acting : ∀ v ∈ ((engine setup).settle c ((engine setup).resumed t operation ret next)
      effect).threads, ∀ r, Acts r v →
        (v.id = c.next ∧ r = ctx.relpath ∧ pooled v.spec = some handle) ∨
        ∃ before ∈ c.threads, v.id = before.id ∧ v.spec = before.spec ∧ Acts r before := by
    intro v hv r acts
    rcases settled_member setup c t v operation ret effect next hv with ⟨id, spec, _⟩ |
      ⟨before, hbefore, _, same, _⟩ | ⟨new, hnew, same⟩
    · exact Or.inr ⟨t, ht, id, spec, by rwa [Acts, ← spec]⟩
    · exact Or.inr ⟨before, hbefore, same.id, same.spec, by rwa [Acts, ← same.spec]⟩
    · rw [spawned] at hnew
      obtain ⟨hspec, first, later, _⟩ := mem_spawn_from (engine setup) _ _ new hnew
      rw [List.mem_singleton] at hspec
      rw [List.length_singleton] at later
      rw [Acts, same.spec, hspec] at acts
      refine Or.inl ⟨same.id.trans (by omega), (Option.some.inj acts).symm, ?_⟩
      rw [same.spec, hspec]
      rfl
  constructor
  · intro v hv w hw r vcleans wcleans
    rcases cleaning v hv r vcleans with ⟨vid, rfl, _⟩ | ⟨b, hb, bother, vid, _, bcleans⟩ <;>
      rcases cleaning w hw _ wcleans with ⟨wid, wsame, _⟩ | ⟨d, hd, dother, wid, _, dcleans⟩
    · rw [vid, wid]
    · exact absurd (one.cleanups d hd t ht _ dcleans cleans) dother
    · subst wsame
      exact absurd (one.cleanups b hb t ht _ bcleans cleans) bother
    · rw [vid, wid]
      exact one.cleanups b hb d hd r bcleans dcleans
  · intro v hv w hw r vacts wacts
    rcases acting v hv r vacts with ⟨vid, rfl, _⟩ | ⟨b, hb, vid, _, bacts⟩ <;>
      rcases acting w hw _ wacts with ⟨wid, wsame, _⟩ | ⟨d, hd, wid, _, dacts⟩
    · rw [vid, wid]
    · exact absurd dacts (quiet d hd)
    · subst wsame
      exact absurd bacts (quiet b hb)
    · rw [vid, wid]
      exact one.actions b hb d hd r bacts dacts
  · intro v hv w hw r vcleans acts
    rcases cleaning v hv r vcleans with ⟨_, rfl, vstage⟩ | ⟨b, hb, bother, _, notes, bcleans⟩ <;>
      rcases acting w hw _ acts with ⟨_, wsame, wpool⟩ | ⟨d, hd, _, spec, dacts⟩
    · exact ⟨handle, ctx, vstage, wpool⟩
    · exact absurd dacts (quiet d hd)
    · subst wsame
      exact absurd (one.cleanups b hb t ht _ bcleans cleans) bother
    · rw [notes, spec]
      exact one.own b hb d hd r bcleans dacts

theorem one_settle_ended (one : One c) (ht : t ∈ c.threads) (ctx : CleanupCtx) (handle : Nat)
    (acting : t.notes.stage = .acting handle ctx)
    (stage : rowOf (learn setup t.notes operation ret).stage = some ctx.relpath)
    (none : effect.spawned = [])
    (gone : ∀ v ∈ c.threads, Acts ctx.relpath v → pooled v.spec = some handle →
      effect.fate v.id v.spec = .gone ∧ v.id ≠ t.id) :
    One ((engine setup).settle c ((engine setup).resumed t operation ret next) effect) := by
  have cleans : Cleans ctx.relpath t := by rw [Cleans, acting]; rfl
  have member : ∀ v ∈ ((engine setup).settle c ((engine setup).resumed t operation ret next)
      effect).threads, (v.id = t.id ∧ v.spec = t.spec ∧ rowOf v.notes.stage = some ctx.relpath) ∨
      ∃ before ∈ c.threads, before.id ≠ t.id ∧ v.id = before.id ∧ v.spec = before.spec ∧
        v.notes = before.notes ∧ effect.fate before.id before.spec ≠ .gone := by
    intro v hv
    rcases settled_member setup c t v operation ret effect next hv with ⟨id, spec, learned⟩ |
      ⟨before, hbefore, other, same, fate⟩ | ⟨new, hnew, same⟩
    · exact Or.inl ⟨id, spec, by rw [learned]; exact stage⟩
    · exact Or.inr ⟨before, hbefore, other, same.id, same.spec, same.notes, fate⟩
    · rw [none] at hnew
      cases hnew
  have acts : ∀ v ∈ ((engine setup).settle c ((engine setup).resumed t operation ret next)
      effect).threads, ∀ r, Acts r v → ∃ before ∈ c.threads, v.id = before.id ∧
        v.spec = before.spec ∧ Acts r before ∧ r ≠ ctx.relpath := by
    intro v hv r vacts
    have other : ∀ before ∈ c.threads, Acts r before →
        (before.id = t.id ∨ effect.fate before.id before.spec ≠ .gone) → r ≠ ctx.relpath := by
      rintro before hbefore bacts left rfl
      obtain ⟨_, _, again, pool⟩ := one.own t ht before hbefore _ cleans bacts
      rw [acting] at again
      cases again
      obtain ⟨fate, apart⟩ := gone before hbefore bacts pool
      rcases left with same | stays
      · exact apart same
      · exact stays fate
    rcases member v hv with ⟨id, spec, _⟩ | ⟨before, hbefore, _, id, spec, _, fate⟩
    · have tacts : Acts r t := by rwa [Acts, ← spec]
      exact ⟨t, ht, id, spec, tacts, other t ht tacts (Or.inl rfl)⟩
    · have bacts : Acts r before := by rwa [Acts, ← spec]
      exact ⟨before, hbefore, id, spec, bacts, other before hbefore bacts (Or.inr fate)⟩
  have cleaning : ∀ v ∈ ((engine setup).settle c ((engine setup).resumed t operation ret next)
      effect).threads, ∀ r, Cleans r v → (v.id = t.id ∧ r = ctx.relpath) ∨
        ∃ before ∈ c.threads, before.id ≠ t.id ∧ v.id = before.id ∧ v.notes = before.notes ∧
          Cleans r before := by
    intro v hv r vcleans
    rcases member v hv with ⟨id, _, row⟩ | ⟨before, hbefore, other, id, _, notes, _⟩
    · rw [Cleans, row] at vcleans
      exact Or.inl ⟨id, (Option.some.inj vcleans).symm⟩
    · exact Or.inr ⟨before, hbefore, other, id, notes, by rwa [Cleans, ← notes]⟩
  constructor
  · intro v hv w hw r vcleans wcleans
    rcases cleaning v hv r vcleans with ⟨vid, rfl⟩ | ⟨b, hb, bother, vid, _, bcleans⟩ <;>
      rcases cleaning w hw _ wcleans with ⟨wid, wsame⟩ | ⟨d, hd, dother, wid, _, dcleans⟩
    · rw [vid, wid]
    · exact absurd (one.cleanups d hd t ht _ dcleans cleans) dother
    · subst wsame
      exact absurd (one.cleanups b hb t ht _ bcleans cleans) bother
    · rw [vid, wid]
      exact one.cleanups b hb d hd r bcleans dcleans
  · intro v hv w hw r vacts wacts
    obtain ⟨b, hb, vid, _, bacts, _⟩ := acts v hv r vacts
    obtain ⟨d, hd, wid, _, dacts, _⟩ := acts w hw r wacts
    rw [vid, wid]
    exact one.actions b hb d hd r bacts dacts
  · intro v hv w hw r vcleans wacts
    obtain ⟨d, hd, _, spec, dacts, apart⟩ := acts w hw r wacts
    rcases cleaning v hv r vcleans with ⟨_, same⟩ | ⟨b, hb, _, _, notes, bcleans⟩
    · exact absurd same apart
    · rw [notes, spec]
      exact one.own b hb d hd r bcleans dacts

end Settle

theorem did_no_action (t : Running) (live : List Spec) (world : World) (operation : Op)
    (ret : Ret operation) (effect : Effect World Spec) (plain : usesPool operation = false)
    (did : Did setup t live world operation ret effect) :
    ∀ spec ∈ effect.spawned, actsOn spec = none := by
  intro spec hspec
  cases did with
  | startedAction ctx => cases plain
  | startedQuarantine job => cases plain
  | spawnedAttempts contexts =>
      obtain ⟨ctx, _, rfl⟩ := List.mem_map.mp hspec
      rfl
  | spawnedBatch items now =>
      obtain ⟨item, _, rfl⟩ := List.mem_map.mp hspec
      rfl
  | _ => cases hspec

theorem not_caller (c : State) (base : Base setup c) (t v : Running) (ht : t ∈ c.threads)
    (hv : v ∈ c.threads) (ctx : CleanupCtx) (handle : Nat) (acting : t.notes.stage = .acting handle ctx)
    (relpath : String) (acts : Acts relpath v) : v.id ≠ t.id := by
  intro same
  have eq := eq_of_same_id c base.distinct v t hv ht same
  subst eq
  have role : hasRows v.notes.role = false := by
    rw [base.roles v ht]
    unfold Acts actsOn at acts
    split at acts
    · rename_i spec
      rw [spec]
      rfl
    · cases acts
  have idle := (base.rowless v ht role).stage
  rw [acting] at idle
  cases idle

theorem one_settle (c : State) (base : Base setup c) (pool : Pool c) (one : One c) (t : Running)
    (operation : Op) (ret : Ret operation) (effect : Effect World Spec)
    (next : Ret operation → Program Unit) (choice : Step)
    (calls : Calls (engine setup) c t operation ret effect next choice) (alone : Alone c choice) :
    One ((engine setup).settle c ((engine setup).resumed t operation ret next) effect) := by
  have did := calls_did setup c t operation ret effect next choice calls
  have may := calls_allowed (engine setup) c t operation ret effect next choice calls base.orderly
  have ht := calls.member
  have staged := learn_stage setup t.notes operation ret may
  generalize hstage : (learn setup t.notes operation ret).stage = stage at staged
  cases staged with
  | same operation ret plain =>
      exact one_settle_plain setup c t operation ret effect next one ht (Or.inl hstage)
        (did_no_action setup t _ _ operation ret effect plain did)
  | idle operation ret plain =>
      exact one_settle_plain setup c t operation ret effect next one ht
        (Or.inr (by rw [hstage]; rfl)) (did_no_action setup t _ _ operation ret effect plain did)
  | marked relpath now ret _ =>
      obtain ⟨answer, chosen, _⟩ := calls.choice
      exact one_settle_entered setup c t _ _ effect next one ht relpath hstage
        (did_no_action setup t _ _ _ _ effect rfl did)
        (alone t ht answer chosen relpath (by rw [calls.prog]; rfl))
  | acting ctx handle marked =>
      cases did with
      | startedAction =>
          exact one_settle_started setup c t _ _ _ next one ht ctx _ marked hstage rfl
  | acted ctx handle done acting =>
      cases did with
      | awaited _ _ ended =>
          refine one_settle_ended setup c t _ _ _ next one ht ctx handle acting
            (by rw [hstage]; rfl) rfl fun v hv _ own => ?_
          exact absurd own (pool.ended handle (by rw [ended]; simp) v hv)
  | failed ctx handle result acting =>
      cases did with
      | awaited _ _ ended =>
          refine one_settle_ended setup c t _ _ _ next one ht ctx handle acting
            (by rw [hstage]; rfl) rfl fun v hv _ own => ?_
          exact absurd own (pool.ended handle (by rw [ended]; simp) v hv)
      | awaitPanicked _ _ _ =>
          refine one_settle_ended setup c t _ _ _ next one ht ctx handle acting
            (by rw [hstage]; rfl) rfl fun v hv acts own => ⟨?_, ?_⟩
          · have mine : isAction handle v.spec = true := by
              unfold Acts actsOn at acts
              split at acts
              · rename_i spec
                rw [spec, pooled, Option.some.injEq] at own
                rw [spec]
                exact decide_eq_true own
              · cases acts
            show endsAction handle v.id v.spec = .gone
            rw [endsAction, if_pos mine]
          · exact not_caller setup c base t v ht hv ctx handle acting ctx.relpath acts
  | moving job handle _ =>
      cases did with
      | startedQuarantine =>
          refine one_settle_plain setup c t _ _ _ next one ht (Or.inr (by rw [hstage]; rfl))
            fun spec hspec => ?_
          rw [List.mem_singleton.mp hspec]
          rfl
  | moved job handle result moving =>
      cases did with
      | awaitedQuarantine _ _ =>
          exact one_settle_plain setup c t _ _ _ next one ht (Or.inr (by rw [hstage]; rfl))
            fun _ none => by cases none
      | quarantinePanicked _ _ _ =>
          exact one_settle_plain setup c t _ _ _ next one ht (Or.inr (by rw [hstage]; rfl))
            fun _ none => by cases none

structure Whole (c : State) : Prop where
  base : Base setup c
  pool : Pool c
  one : One c

theorem whole_begins (c : State) (begins : Begins c) : Whole setup c := by
  have nobody : ∀ t, t ∉ c.threads := by
    intro t
    rw [begins.threads]
    exact List.not_mem_nil
  refine ⟨base_begins setup c begins, pool_begins c begins, ?_⟩
  constructor
  · intro t ht
    exact absurd ht (nobody t)
  · intro t ht
    exact absurd ht (nobody t)
  · intro t ht
    exact absurd ht (nobody t)

theorem whole_step (c after : State) (choice : Step) (whole : Whole setup c) (alone : Alone c choice)
    (stepped : (engine setup).step c choice = some after) : Whole setup after := by
  refine ⟨base_step setup c after choice whole.base stepped,
    pool_step setup c after choice whole.pool stepped, ?_⟩
  rcases step_cases (engine setup) c after choice stepped with
    ⟨t, operation, ret, effect, next, calls, rfl⟩ | ⟨id, _, _, rfl⟩ |
    ⟨event, reaction, _, reacted, rfl⟩
  · exact one_settle setup c whole.base whole.pool whole.one t operation ret effect next choice calls
      alone
  · exact one_without setup c whole.one id
  · exact one_absorb setup c whole.one event reaction reacted

/-- The outcome of a cleanup is recorded by a thread that has seen its action end. -/
theorem cleans_of_recorded (n : Notes) (operation : StoreOp) (relpath : String)
    (recorded : persists .completed operation = some relpath ∨
      persists .cleanupFailed operation = some relpath)
    (may : allowedStatement setup n operation) :
    rowOf n.stage = some relpath ∧ ∀ handle ctx, n.stage ≠ .acting handle ctx := by
  rcases recorded with completed | failed
  · obtain ⟨ctx, done, stage, own⟩ := acted_of_completed setup n operation relpath completed may
    rw [stage, rowOf, own]
    exact ⟨rfl, fun _ _ same => by cases same⟩
  · obtain ⟨ctx, stage, own⟩ := failed_of_cleanup_failed setup n operation relpath failed may
    rw [stage, rowOf, own]
    exact ⟨rfl, fun _ _ same => by cases same⟩

end FileReplicator.OneAction
