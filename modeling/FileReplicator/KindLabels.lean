import Mathlib.Data.List.Count
import Mathlib.Data.List.Nodup
import Std.Data.String.ToNat

/-!
# Numbered names

Names for the members of a list: what is there once keeps its own name, and what is
there several times is numbered as it comes. No two members have one name, as long
as their own names lack the mark before a number.
-/

namespace FileReplicator.KindLabels

variable {α : Type} [DecidableEq α] (name : α → String)

def numbered (a : α) (n : Nat) : String := name a ++ "#" ++ toString n

/-- One pass over the rest of the list; `seen` counts what it has passed. -/
def labelRest (dests : List α) (seen : α → Nat) : List α → List String
  | [] => []
  | a :: rest =>
      if dests.count a = 1 then name a :: labelRest dests seen rest
      else
        let n := seen a + 1
        numbered name a n :: labelRest dests (fun b => if b = a then n else seen b) rest

def labelDestinations (dests : List α) : List String := labelRest name dests (fun _ => 0) dests

/-- The name of the member at `index`, which is `a`. -/
def labelAt (dests : List α) (index : Nat) (a : α) : String :=
  if dests.count a = 1 then name a else numbered name a ((dests.take (index + 1)).count a)

theorem label_rest_eq (dests : List α) (seen : α → Nat) (done rest : List α)
    (counts : ∀ a, dests.count a ≠ 1 → seen a = done.count a) (index : Nat) :
    (labelRest name dests seen rest)[index]? =
      (rest[index]?).map fun a =>
        if dests.count a = 1 then name a
        else numbered name a (done.count a + (rest.take (index + 1)).count a) := by
  induction rest generalizing seen done index with
  | nil => simp [labelRest]
  | cons first rest ih =>
      -- what is counted once more stays counted as the pass moves on
      have shifted : ∀ (a : α) (index : Nat),
          (done ++ [first]).count a + (rest.take (index + 1)).count a =
            done.count a + ((first :: rest).take (index + 1 + 1)).count a := by
        intro a index
        simp only [List.take_succ_cons, List.count_append, List.count_cons, List.count_nil]
        omega
      rw [labelRest]
      split
      · rename_i once
        cases index with
        | zero => simp [once]
        | succ index =>
            have hcounts : ∀ a, dests.count a ≠ 1 → seen a = (done ++ [first]).count a := by
              intro a several
              have hne : a ≠ first := fun same => several (same ▸ once)
              rw [counts a several, List.count_append]
              simp [Ne.symm hne]
            rw [List.getElem?_cons_succ, List.getElem?_cons_succ, ih seen (done ++ [first]) hcounts]
            exact Option.map_congr fun a _ => by rw [shifted]
      · rename_i several
        cases index with
        | zero => simp [several, counts first several]
        | succ index =>
            have hcounts : ∀ a, dests.count a ≠ 1 →
                (if a = first then seen first + 1 else seen a) = (done ++ [first]).count a := by
              intro a manyTimes
              rw [List.count_append, ← counts a manyTimes]
              split
              · rename_i same
                simp [same]
              · rename_i hne
                simp [Ne.symm hne]
            rw [List.getElem?_cons_succ, List.getElem?_cons_succ, ih _ (done ++ [first]) hcounts]
            exact Option.map_congr fun a _ => by rw [shifted]

theorem label_destinations_eq (dests : List α) (index : Nat) :
    (labelDestinations name dests)[index]? = (dests[index]?).map (labelAt name dests index) := by
  have hrest := label_rest_eq name dests (fun _ => 0) [] dests (fun _ _ => rfl) index
  simp only [List.count_nil, Nat.zero_add] at hrest
  exact hrest

theorem labels_length (dests : List α) : (labelDestinations name dests).length = dests.length := by
  refine Nat.le_antisymm ?_ ?_
  · by_contra more
    have hnone := label_destinations_eq name dests dests.length
    simp only [List.getElem?_eq_none (Nat.le_refl dests.length), Option.map_none,
      List.getElem?_eq_none_iff] at hnone
    exact more hnone
  · by_contra fewer
    have hnone := label_destinations_eq name dests (labelDestinations name dests).length
    rw [List.getElem?_eq_none (Nat.le_refl _), List.getElem?_eq_getElem (by omega)] at hnone
    simp at hnone

/-! ## Names are distinct -/

section Occurrences

variable (dests : List α)

theorem occurrence_lt (first later : Nat) (a : α) (order : first < later)
    (found : dests[later]? = some a) :
    (dests.take (first + 1)).count a < (dests.take (later + 1)).count a := by
  have hlater : dests.take (later + 1) = dests.take later ++ [a] := by
    rw [List.take_add_one, found]
    rfl
  have hprefix : dests.take (first + 1) <+: dests.take later :=
    List.take_prefix_take_left (by omega)
  rw [hlater, List.count_append]
  have hle := hprefix.sublist.count_le a
  simp only [List.count_singleton_self]
  omega

theorem occurrence_injective (i j : Nat) (a : α) (hi : dests[i]? = some a) (hj : dests[j]? = some a)
    (same : (dests.take (i + 1)).count a = (dests.take (j + 1)).count a) : i = j := by
  by_contra distinct
  rcases Nat.lt_or_gt_of_ne distinct with order | order
  · exact absurd same (Nat.ne_of_lt (occurrence_lt dests i j a order hj))
  · exact absurd same (Nat.ne_of_gt (occurrence_lt dests j i a order hi))

theorem occurrence_once (i : Nat) (a : α) (found : dests[i]? = some a) (once : dests.count a = 1) :
    (dests.take (i + 1)).count a = 1 := by
  have hpos : 0 < (dests.take (i + 1)).count a :=
    List.count_pos_iff.mpr
      (List.mem_of_getElem? (i := i) (by rw [List.getElem?_take]; simpa using found))
  have hle := (List.take_prefix (i + 1) dests).sublist.count_le a
  omega

end Occurrences

omit [DecidableEq α] in
theorem name_ne_numbered (a b : α) (n : Nat) (plain : '#' ∉ (name a).toList) :
    name a ≠ numbered name b n := by
  intro same
  refine plain ?_
  rw [same, numbered]
  simp

theorem take_while_of_not_mem (c : Char) (start rest : List Char) (absent : c ∉ start) :
    (start ++ c :: rest).takeWhile (· ≠ c) = start := by
  rw [List.takeWhile_append_of_pos]
  · simp
  · intro d hd
    simp only [ne_eq, decide_eq_true_eq]
    rintro rfl
    exact absent hd

omit [DecidableEq α] in
theorem numbered_injective (a b : α) (m n : Nat) (plainA : '#' ∉ (name a).toList)
    (plainB : '#' ∉ (name b).toList) (same : numbered name a m = numbered name b n) :
    name a = name b ∧ m = n := by
  have hchars : (name a).toList ++ '#' :: (toString m).toList =
      (name b).toList ++ '#' :: (toString n).toList := by
    have hlist := congrArg String.toList same
    simpa [numbered] using hlist
  have hname : name a = name b := by
    have htake := congrArg (List.takeWhile (· ≠ '#')) hchars
    rw [take_while_of_not_mem _ _ _ plainA, take_while_of_not_mem _ _ _ plainB] at htake
    exact String.toList_inj.mp htake
  refine ⟨hname, ?_⟩
  rw [hname] at hchars
  have hdigits := List.append_cancel_left hchars
  rw [List.cons.injEq] at hdigits
  exact Nat.repr_injective (String.toList_inj.mp hdigits.2)

section Distinct

variable (dests : List α) (injective : Function.Injective name)
  (plain : ∀ a ∈ dests, '#' ∉ (name a).toList)

include injective plain

theorem label_at_injective (i j : Nat) (a b : α) (hi : dests[i]? = some a) (hj : dests[j]? = some b)
    (same : labelAt name dests i a = labelAt name dests j b) : i = j := by
  have plainA := plain a (List.mem_of_getElem? hi)
  have plainB := plain b (List.mem_of_getElem? hj)
  unfold labelAt at same
  split at same
  · rename_i once
    split at same
    · obtain rfl := injective same
      refine occurrence_injective dests i j a hi hj ?_
      rw [occurrence_once dests i a hi once, occurrence_once dests j a hj once]
    · exact absurd same (name_ne_numbered name a b _ plainA)
  · split at same
    · exact absurd same.symm (name_ne_numbered name b a _ plainB)
    · obtain ⟨sameName, hcount⟩ := numbered_injective name a b _ _ plainA plainB same
      obtain rfl := injective sameName
      exact occurrence_injective dests i j a hi hj hcount

theorem labels_nodup : (labelDestinations name dests).Nodup := by
  rw [List.nodup_iff_injective_get]
  rintro ⟨i, hi⟩ ⟨j, hj⟩ same
  have hlen := labels_length name dests
  have hdi : i < dests.length := by omega
  have hdj : j < dests.length := by omega
  have hlabel : ∀ (k : Nat) (hk : k < (labelDestinations name dests).length) (hd : k < dests.length),
      (labelDestinations name dests).get ⟨k, hk⟩ = labelAt name dests k (dests.get ⟨k, hd⟩) := by
    intro k hk hd
    have heq := label_destinations_eq name dests k
    rw [List.getElem?_eq_getElem hk, List.getElem?_eq_getElem hd] at heq
    simpa using heq
  rw [hlabel i hi hdi, hlabel j hj hdj] at same
  exact Fin.ext (label_at_injective name dests injective plain i j _ _
    (List.getElem?_eq_getElem hdi) (List.getElem?_eq_getElem hdj) same)

end Distinct

end FileReplicator.KindLabels
