import Mathlib.Logic.Basic

/-!
# Verdicts

Checks that ask before they judge. An answer that does not come is an error that
says nothing about what is checked; every other error blames it.
-/

namespace FileReplicator.Verdicts

variable {ε : Type} {neutral : ε → Prop}

def Blameless {α : Type} (neutral : ε → Prop) (x : Except ε α) : Prop :=
  ∀ e, x = .error e → neutral e

/-- A result that tells whether something is `good`, at least when all is `answered`. -/
structure Judges (neutral : ε → Prop) (result : Except ε Unit) (good answered : Prop) : Prop where
  accepts : result = .ok () → good
  blames : ∀ e, result = .error e → neutral e ∨ ¬ good
  complete : answered → good → result = .ok ()

theorem judges_accept (good answered : Prop) (holds : good) :
    Judges neutral (.ok ()) good answered :=
  ⟨fun _ => holds, nofun, fun _ _ => rfl⟩

theorem judges_blame (e : ε) (good answered : Prop) (fails : ¬ good) :
    Judges neutral (.error e) good answered :=
  ⟨nofun, fun _ _ => Or.inr fails, fun _ holds => absurd holds fails⟩

theorem judges_if (good answered : Prop) [Decidable good] (e : ε) :
    Judges neutral (if good then .ok () else .error e) good answered := by
  by_cases holds : good
  · rw [if_pos holds]
    exact judges_accept _ _ holds
  · rw [if_neg holds]
    exact judges_blame _ _ _ holds

theorem judges_mono (result : Except ε Unit) (good good' answered answered' : Prop)
    (judges : Judges neutral result good answered) (same : good ↔ good')
    (more : answered' → answered) : Judges neutral result good' answered' where
  accepts ok := same.mp (judges.accepts ok)
  blames e is := (judges.blames e is).imp id fun fails holds => fails (same.mpr holds)
  complete all holds := judges.complete (more all) (same.mpr holds)

theorem judges_ask {α : Type} (first : Except ε α) (rest : α → Except ε Unit)
    (good answered : Prop) (blameless : Blameless neutral first)
    (judges : ∀ value, first = .ok value → Judges neutral (rest value) good answered) :
    Judges neutral (first >>= rest) good ((∃ value, first = .ok value) ∧ answered) := by
  cases first with
  | error e =>
      refine ⟨nofun, fun other is => Or.inl (Except.error.inj is ▸ blameless e rfl), ?_⟩
      rintro ⟨⟨value, is⟩, _⟩
      cases is
  | ok value =>
      have judges := judges value rfl
      exact ⟨judges.accepts, judges.blames, fun all => judges.complete all.2⟩

theorem judges_both (first second : Except ε Unit) (good good' answered answered' : Prop)
    (judges : Judges neutral first good answered)
    (judges' : good → Judges neutral second good' answered') :
    Judges neutral (first >>= fun _ => second) (good ∧ good') (answered ∧ answered') := by
  cases is : first with
  | error e =>
      refine ⟨nofun, fun other blamed => ?_, fun all holds => ?_⟩
      · obtain rfl := Except.error.inj blamed
        exact (judges.blames e is).imp id fun fails holds => fails holds.1
      · exact absurd (is.symm.trans (judges.complete all.1 holds.1)) nofun
  | ok done =>
      have holds := judges.accepts is
      have judges' := judges' holds
      refine ⟨fun ok => ⟨holds, judges'.accepts ok⟩, fun e blamed => ?_, ?_⟩
      · exact (judges'.blames e blamed).imp id fun fails both => fails both.2
      · exact fun all both => judges'.complete all.2 both.2

theorem blameless_map {α δ : Type} (x : Except δ α) (classify : δ → ε)
    (all : ∀ e, neutral (classify e)) : Blameless neutral (x.mapError classify) := by
  intro e is
  cases x with
  | ok value => cases is
  | error inner =>
      obtain rfl := Except.error.inj is
      exact all inner

theorem blameless_bind {α β : Type} (first : Except ε α) (rest : α → Except ε β)
    (blameless : Blameless neutral first) (later : ∀ value, Blameless neutral (rest value)) :
    Blameless neutral (first >>= rest) := by
  cases first with
  | error e => exact fun other is => Except.error.inj is ▸ blameless e rfl
  | ok value => exact later value

theorem ok_of_map {α δ : Type} (x : Except δ α) (classify : δ → ε) (value : α)
    (is : x.mapError classify = .ok value) : x = .ok value := by
  cases x with
  | error e => cases is
  | ok inner => exact congrArg Except.ok (Except.ok.inj is)

end FileReplicator.Verdicts
