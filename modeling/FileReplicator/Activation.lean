import Mathlib.Data.List.Nodup

/-!
# Activation and its record

A persistent activation call writes the store and then the flag of the running
instance, with nothing that holds the two together. Calls of any number may be
between their two writes at once; a call whose store write is refused returns
without the second.
-/

namespace FileReplicator.Activation

/-- `set_activation` and `clear_activation`. -/
inductive Request where
  | set (active : Bool)
  | reset
  deriving DecidableEq

structure Call where
  id : Nat
  request : Request
  stored : Bool
  deriving DecidableEq

structure Instance where
  /-- `enabled` of the configuration. -/
  enabled : Bool
  /-- The persisted override. -/
  record : Option Bool
  flag : Bool
  calls : List Call
  next : Nat
  deriving DecidableEq

namespace Instance

variable (inst : Instance)

def effective : Bool := inst.record.getD inst.enabled

/-- `Instance::build`. -/
def restarted : Instance := { inst with flag := inst.effective, calls := [] }

/-- The record after the store write of a call. -/
def recordAfter : Request → Option Bool
  | .set active => some active
  | .reset => none

def flagAfter : Request → Bool
  | .set active => active
  | .reset => inst.enabled

end Instance

inductive Step where
  | begin (request : Request)
  /-- A call makes its store write. -/
  | store (id : Nat)
  | refused (id : Nat)
  /-- A call that has written the store writes the flag and returns. -/
  | raise (id : Nat)
  | restart
  deriving DecidableEq

def find (calls : List Call) (id : Nat) (stored : Bool) : Option Call :=
  calls.find? fun call => call.id = id && call.stored = stored

def without (calls : List Call) (id : Nat) : List Call := calls.filter fun call => call.id ≠ id

def markStored (calls : List Call) (id : Nat) : List Call :=
  calls.map fun call => if call.id = id then { call with stored := true } else call

def step (inst : Instance) : Step → Option Instance
  | .begin request =>
      some { inst with calls := inst.calls ++ [⟨inst.next, request, false⟩], next := inst.next + 1 }
  | .store id =>
      (find inst.calls id false).map fun call =>
        { inst with record := Instance.recordAfter call.request, calls := markStored inst.calls id }
  | .refused id =>
      (find inst.calls id false).map fun _ => { inst with calls := without inst.calls id }
  | .raise id =>
      (find inst.calls id true).map fun call =>
        { inst with flag := inst.flagAfter call.request, calls := without inst.calls id }
  | .restart => some inst.restarted

/-- The call that has written the store last, as long as it has not written the flag. -/
abbrev Newest := Option Nat

def follow (newest : Newest) : Step → Newest
  | .store id => some id
  | .raise id => if newest = some id then none else newest
  | .restart => none
  | _ => newest

/-- A call writes the flag before the call with the last store write does, or it is that call, or the
two want the same. -/
def InOrder (newest : Newest) (inst : Instance) : Step → Prop
  | .raise id => newest = none → ∀ call, find inst.calls id true = some call →
      inst.flagAfter call.request = inst.effective
  | _ => True

inductive Reached (meets : Newest → Instance → Step → Prop) : Newest → Instance → Prop where
  | start (inst : Instance) (idle : inst.calls = []) (built : inst.flag = inst.effective) :
      Reached meets none inst
  | step (newest : Newest) (inst after : Instance) (action : Step)
      (reached : Reached meets newest inst) (met : meets newest inst action)
      (stepped : step inst action = some after) : Reached meets (follow newest action) after

/-- When every call has returned, the flag is what a restart would make it. -/
def Agrees (inst : Instance) : Prop := inst.calls = [] → inst.flag = inst.effective

theorem find_spec (calls : List Call) (id : Nat) (stored : Bool) (call : Call)
    (found : find calls id stored = some call) :
    call ∈ calls ∧ call.id = id ∧ call.stored = stored := by
  have holds := List.find?_some found
  rw [Bool.and_eq_true, decide_eq_true_iff, decide_eq_true_iff] at holds
  exact ⟨List.mem_of_find?_eq_some found, holds⟩

theorem mem_without (calls : List Call) (id : Nat) (call : Call) :
    call ∈ without calls id ↔ call ∈ calls ∧ call.id ≠ id := by
  rw [without, List.mem_filter, decide_eq_true_iff]

theorem mem_mark_stored (calls : List Call) (id : Nat) (call : Call)
    (member : call ∈ markStored calls id) :
    ∃ before ∈ calls, call.id = before.id ∧ call.request = before.request := by
  obtain ⟨before, hbefore, rfl⟩ := List.mem_map.mp member
  refine ⟨before, hbefore, ?_⟩
  split
  · exact ⟨rfl, rfl⟩
  · exact ⟨rfl, rfl⟩

theorem mark_stored_ids (calls : List Call) (id : Nat) :
    (markStored calls id).map Call.id = calls.map Call.id := by
  rw [markStored, List.map_map]
  refine List.map_congr_left fun call _ => ?_
  show (if call.id = id then { call with stored := true } else call).id = call.id
  split <;> rfl

theorem flag_after_eq (inst : Instance) (request : Request) :
    inst.flagAfter request = (Instance.recordAfter request).getD inst.enabled := by
  cases request <;> rfl

/-! ## What holds in every run -/

structure Sound (newest : Newest) (inst : Instance) : Prop where
  below : ∀ call ∈ inst.calls, call.id < inst.next
  unique : (inst.calls.map Call.id).Nodup
  /-- The call with the last store write is still to write what that write says. -/
  pending : ∀ id, newest = some id → ∃ call ∈ inst.calls, call.id = id ∧ call.stored = true ∧
    inst.flagAfter call.request = inst.effective
  settled : newest = none → inst.flag = inst.effective

theorem eq_of_same_id (calls : List Call) (unique : (calls.map Call.id).Nodup) (a b : Call)
    (ha : a ∈ calls) (hb : b ∈ calls) (same : a.id = b.id) : a = b :=
  List.inj_on_of_nodup_map unique ha hb same

theorem without_unique (calls : List Call) (id : Nat) (unique : (calls.map Call.id).Nodup) :
    ((without calls id).map Call.id).Nodup :=
  unique.sublist (List.filter_sublist.map _)

theorem sound_begin (newest : Newest) (inst : Instance) (sound : Sound newest inst) (request : Request) :
    Sound newest
      { inst with calls := inst.calls ++ [⟨inst.next, request, false⟩], next := inst.next + 1 } := by
  constructor
  case below =>
    intro call member
    rcases List.mem_append.mp member with old | new
    · exact Nat.lt_succ_of_lt (sound.below call old)
    · rw [List.mem_singleton.mp new]
      exact Nat.lt_succ_self _
  case unique =>
    rw [List.map_append, List.nodup_append]
    refine ⟨sound.unique, List.nodup_singleton _, ?_⟩
    intro a ha b hb same
    obtain ⟨call, member, rfl⟩ := List.mem_map.mp ha
    have young : b = inst.next := List.mem_singleton.mp hb
    have older := sound.below call member
    rw [same, young] at older
    exact Nat.lt_irrefl _ older
  case pending =>
    intro id newer
    obtain ⟨call, member, holds⟩ := sound.pending id newer
    exact ⟨call, List.mem_append_left _ member, holds⟩
  case settled => exact sound.settled

theorem sound_store (newest : Newest) (inst : Instance) (sound : Sound newest inst) (id : Nat)
    (call : Call) (found : find inst.calls id false = some call) :
    Sound (some id)
      { inst with record := Instance.recordAfter call.request, calls := markStored inst.calls id } := by
  obtain ⟨member, own, _⟩ := find_spec inst.calls id false call found
  constructor
  case below =>
    intro other hother
    obtain ⟨before, hbefore, same, _⟩ := mem_mark_stored inst.calls id other hother
    rw [same]
    exact sound.below before hbefore
  case unique =>
    rw [mark_stored_ids]
    exact sound.unique
  case pending =>
    intro newer same
    rw [← Option.some.inj same]
    refine ⟨{ call with stored := true }, List.mem_map.mpr ⟨call, member, if_pos own⟩, own, rfl, ?_⟩
    exact flag_after_eq inst call.request
  case settled => exact fun none => by cases none

theorem sound_refused (newest : Newest) (inst : Instance) (sound : Sound newest inst) (id : Nat)
    (call : Call) (found : find inst.calls id false = some call) :
    Sound newest { inst with calls := without inst.calls id } := by
  obtain ⟨member, own, unstored⟩ := find_spec inst.calls id false call found
  constructor
  case below => exact fun other hother => sound.below other ((mem_without _ _ _).mp hother).1
  case unique => exact without_unique inst.calls id sound.unique
  case pending =>
    intro newer same
    obtain ⟨last, hlast, hid, stored, holds⟩ := sound.pending newer same
    refine ⟨last, (mem_without _ _ _).mpr ⟨hlast, fun also => ?_⟩, hid, stored, holds⟩
    obtain rfl := eq_of_same_id inst.calls sound.unique last call hlast member (also.trans own.symm)
    rw [stored] at unstored
    cases unstored
  case settled => exact sound.settled

theorem sound_raise (newest : Newest) (inst : Instance) (sound : Sound newest inst) (id : Nat)
    (call : Call) (found : find inst.calls id true = some call)
    (inOrder : newest = none → inst.flagAfter call.request = inst.effective) :
    Sound (if newest = some id then none else newest)
      { inst with flag := inst.flagAfter call.request, calls := without inst.calls id } := by
  obtain ⟨member, own, _⟩ := find_spec inst.calls id true call found
  constructor
  case below => exact fun other hother => sound.below other ((mem_without _ _ _).mp hother).1
  case unique => exact without_unique inst.calls id sound.unique
  case pending =>
    intro newer same
    split at same
    · cases same
    · rename_i other
      obtain ⟨last, hlast, hid, stored, holds⟩ := sound.pending newer same
      refine ⟨last, (mem_without _ _ _).mpr ⟨hlast, fun also => other ?_⟩, hid, stored, holds⟩
      rw [same, ← hid, also]
  case settled =>
    intro none
    split at none
    · rename_i last
      obtain ⟨pending, hpending, hid, _, holds⟩ := sound.pending id last
      obtain rfl := eq_of_same_id inst.calls sound.unique pending call hpending member
        (hid.trans own.symm)
      exact holds
    · exact inOrder none

theorem sound_step (newest : Newest) (inst after : Instance) (action : Step)
    (sound : Sound newest inst) (met : InOrder newest inst action)
    (stepped : step inst action = some after) : Sound (follow newest action) after := by
  cases action with
  | begin request =>
      cases stepped
      exact sound_begin newest inst sound request
  | store id =>
      obtain ⟨call, found, rfl⟩ := Option.map_eq_some_iff.mp stepped
      exact sound_store newest inst sound id call found
  | refused id =>
      obtain ⟨call, found, rfl⟩ := Option.map_eq_some_iff.mp stepped
      exact sound_refused newest inst sound id call found
  | raise id =>
      obtain ⟨call, found, rfl⟩ := Option.map_eq_some_iff.mp stepped
      exact sound_raise newest inst sound id call found fun none => met none call found
  | restart =>
      cases stepped
      exact ⟨fun _ none => (by cases none), List.nodup_nil, fun _ none => (by cases none), fun _ => rfl⟩

/-- In every run in which no call writes the flag behind the back of the call with the last store
write, the flag agrees with the record whenever all calls have returned. -/
theorem activation_agrees (newest : Newest) (inst : Instance) (reached : Reached InOrder newest inst) :
    Agrees inst := by
  have sound : Sound newest inst := by
    induction reached with
    | start inst idle built =>
        refine ⟨fun call member => ?_, ?_, fun _ none => (by cases none), fun _ => built⟩
        · rw [idle] at member
          cases member
        · rw [idle]
          exact List.nodup_nil
    | step newest inst after action _ met stepped ih =>
        exact sound_step newest inst after action ih met stepped
  intro returned
  apply sound.settled
  cases newer : newest with
  | none => rfl
  | some id =>
      obtain ⟨call, member, _⟩ := sound.pending id newer
      rw [returned] at member
      cases member

/-! ## Two calls -/

def activeInstance : Instance where
  enabled := true
  record := none
  flag := true
  calls := []
  next := 0

/-- These steps in their order, as far as each passes the check. -/
def run (check : Newest → Instance → Step → Bool) (newest : Newest) (inst : Instance) :
    List Step → Option (Newest × Instance)
  | [] => some (newest, inst)
  | action :: rest =>
      if check newest inst action then
        (step inst action).bind fun after => run check (follow newest action) after rest
      else none

theorem reached_of_run (meets : Newest → Instance → Step → Prop)
    (check : Newest → Instance → Step → Bool)
    (sound : ∀ newest inst action, check newest inst action = true → meets newest inst action)
    (actions : List Step) (newest last : Newest) (inst after : Instance)
    (reached : Reached meets newest inst) (ran : run check newest inst actions = some (last, after)) :
    Reached meets last after := by
  induction actions generalizing newest inst with
  | nil =>
      cases ran
      exact reached
  | cons action rest ih =>
      rw [run] at ran
      split at ran
      · rename_i met
        obtain ⟨middle, stepped, later⟩ := Option.bind_eq_some_iff.mp ran
        exact ih _ middle (.step newest inst middle action reached (sound _ _ _ met) stepped) later
      · cases ran

def inOrderAt (newest : Newest) (inst : Instance) : Step → Bool
  | .raise id => newest ≠ none || (find inst.calls id true).all fun call =>
      inst.flagAfter call.request = inst.effective
  | _ => true

theorem in_order_of_check (newest : Newest) (inst : Instance) (action : Step)
    (checked : inOrderAt newest inst action = true) : InOrder newest inst action := by
  cases action with
  | raise id =>
      intro none call found
      rw [inOrderAt, found, none] at checked
      simpa using checked
  | _ => trivial

/-- The calls overlap; the first to write the store is the first to write the flag. -/
def overlapping : List Step :=
  [.begin (.set false), .begin .reset, .store 0, .store 1, .raise 0, .raise 1]

/-- The reset writes the flag before the deactivation that has written the store before it. -/
def crossing : List Step :=
  [.begin (.set false), .begin .reset, .store 0, .store 1, .raise 1, .raise 0]

theorem activation_agrees_overlapping :
    ∃ newest inst, Reached InOrder newest inst ∧ inst.calls = [] ∧ inst.next = 2 ∧ Agrees inst := by
  have ran : (run inOrderAt none activeInstance overlapping).map (fun r => (r.2.calls, r.2.next)) =
      some ([], 2) := by decide
  obtain ⟨⟨newest, inst⟩, ran, same⟩ := Option.map_eq_some_iff.mp ran
  have reached := reached_of_run InOrder inOrderAt in_order_of_check overlapping none newest
    activeInstance inst (.start activeInstance rfl rfl) ran
  obtain ⟨returned, count⟩ := Prod.mk.inj same
  exact ⟨newest, inst, reached, returned, count, activation_agrees newest inst reached⟩

/-- Both calls have returned; the instance is off, and a restart would turn it on. -/
theorem activation_crossed :
    ∃ newest inst, Reached (fun _ _ _ => True) newest inst ∧ ¬Agrees inst := by
  have ran : (run (fun _ _ _ => true) none activeInstance crossing).map
      (fun r => (r.2.calls, r.2.flag, r.2.effective)) = some ([], false, true) := by decide
  obtain ⟨⟨newest, inst⟩, ran, same⟩ := Option.map_eq_some_iff.mp ran
  simp only [Prod.mk.injEq] at same
  refine ⟨newest, inst, reached_of_run _ (fun _ _ _ => true) (fun _ _ _ _ => trivial) crossing none
    newest activeInstance inst (.start activeInstance rfl rfl) ran, fun agrees => ?_⟩
  have agreed := agrees same.1
  rw [same.2.1, same.2.2] at agreed
  cases agreed

end FileReplicator.Activation
