import FileReplicator.KindLabels
import FileReplicator.Worker

/-!
# The completion test

A round ends with the set of the labels that are verified. Labels are distinct, so
the set is as large as the list of the destinations only if none is missing.
-/

namespace FileReplicator.VerifiedLabels

open Domain Operations Worker

/-- What a round knows at its end: the labels it found verified, and the outcomes of its attempts. -/
def tallyAfter (labels : List String) (existing : String → Option DestState)
    (results : List (String × DestOutcome)) : Tally :=
  results.foldl Tally.count ⟨labels.filter fun label => phaseOf existing label = .verified, [], []⟩

theorem verified_foldl (results : List (String × DestOutcome)) (tally : Tally)
    (nodup : tally.verified.Nodup) :
    (results.foldl Tally.count tally).verified.Nodup ∧
      ∀ label, label ∈ (results.foldl Tally.count tally).verified ↔
        label ∈ tally.verified ∨ (label, .verified) ∈ results := by
  induction results generalizing tally with
  | nil => simpa using nodup
  | cons result rest ih =>
      obtain ⟨label, outcome⟩ := result
      cases outcome with
      | verified =>
          obtain ⟨kept, members⟩ := ih (tally.count (label, .verified)) nodup.insert
          refine ⟨kept, fun other => ?_⟩
          rw [List.foldl_cons, members, Tally.count, List.mem_insert_iff, List.mem_cons,
            Prod.mk.injEq]
          tauto
      | retry nextAttemptAt err =>
          obtain ⟨kept, members⟩ := ih (tally.count (label, .retry nextAttemptAt err)) nodup
          exact ⟨kept, fun other => by rw [List.foldl_cons, members]; simp [Tally.count]⟩
      | giveUp err attempts =>
          obtain ⟨kept, members⟩ := ih (tally.count (label, .giveUp err attempts)) nodup
          exact ⟨kept, fun other => by rw [List.foldl_cons, members]; simp [Tally.count]⟩

/-- Without two labels that are the same, the sizes agree exactly when all are verified. -/
theorem all_verified_iff (labels : List String) (existing : String → Option DestState)
    (results : List (String × DestOutcome)) (nodup : labels.Nodup)
    (attempted : ∀ result ∈ results, result.1 ∈ labels) :
    (tallyAfter labels existing results).verified.length = labels.length ↔
      ∀ label ∈ labels, phaseOf existing label = .verified ∨ (label, .verified) ∈ results := by
  obtain ⟨distinct, members⟩ := verified_foldl results
    ⟨labels.filter fun label => phaseOf existing label = .verified, [], []⟩ (nodup.filter _)
  have within : (tallyAfter labels existing results).verified ⊆ labels := by
    intro label member
    rcases (members label).mp member with before | now
    · exact List.mem_of_mem_filter before
    · exact attempted _ now
  constructor
  · intro same label member
    -- a part of the labels that is as long as all of them leaves none out
    have all := (List.subperm_of_subset distinct within).perm_of_length_le same.ge
    rcases (members label).mp (all.mem_iff.mpr member) with before | now
    · exact Or.inl (of_decide_eq_true (List.mem_filter.mp before).2)
    · exact Or.inr now
  · intro all
    have covers : labels ⊆ (tallyAfter labels existing results).verified := by
      intro label member
      refine (members label).mpr ?_
      rcases all label member with before | now
      · exact Or.inl (List.mem_filter.mpr ⟨member, decide_eq_true before⟩)
      · exact Or.inr now
    exact Nat.le_antisymm (List.subperm_of_subset distinct within).length_le
      (List.subperm_of_subset nodup covers).length_le

/-- One label for each destination, all of them different: the kind itself if it is there once, or
with the number of its occurrence. So a file is complete only with every destination verified. -/
theorem labels_unique (kinds : List String) (plain : ∀ kind ∈ kinds, '#' ∉ kind.toList) :
    (KindLabels.labelDestinations id kinds).length = kinds.length ∧
      (KindLabels.labelDestinations id kinds).Nodup ∧
      (∀ index kind, kinds[index]? = some kind →
        ((KindLabels.labelDestinations id kinds)[index]? = some kind ↔ kinds.count kind = 1) ∧
          (kinds.count kind ≠ 1 → (KindLabels.labelDestinations id kinds)[index]? =
            some (kind ++ "#" ++ toString ((kinds.take (index + 1)).count kind)))) ∧
      ∀ (existing : String → Option DestState) (results : List (String × DestOutcome)),
        (∀ result ∈ results, result.1 ∈ KindLabels.labelDestinations id kinds) →
        ((tallyAfter (KindLabels.labelDestinations id kinds) existing results).verified.length =
            kinds.length ↔
          ∀ label ∈ KindLabels.labelDestinations id kinds,
            phaseOf existing label = .verified ∨ (label, .verified) ∈ results) := by
  have length := KindLabels.labels_length id kinds
  have nodup := KindLabels.labels_nodup id kinds Function.injective_id plain
  refine ⟨length, nodup, ?_, ?_⟩
  · intro index kind found
    have label : (KindLabels.labelDestinations id kinds)[index]? =
        some (KindLabels.labelAt id kinds index kind) := by
      rw [KindLabels.label_destinations_eq, found, Option.map_some]
    rw [label, Option.some.injEq, KindLabels.labelAt]
    by_cases once : kinds.count kind = 1
    · simp [once]
    · have apart := KindLabels.name_ne_numbered id kind kind
        ((kinds.take (index + 1)).count kind) (plain kind (List.mem_of_getElem? found))
      simp only [once, iff_false]
      exact ⟨fun same => apart same.symm, fun _ => rfl⟩
  · intro existing results attempted
    rw [← length]
    exact all_verified_iff _ existing results nodup attempted

/-- Three destinations, two of one kind: they are named apart. -/
theorem labels_unique_three :
    (KindLabels.labelDestinations id ["s3", "local", "s3"]).Nodup :=
  (labels_unique ["s3", "local", "s3"] (by decide)).2.1

end FileReplicator.VerifiedLabels
