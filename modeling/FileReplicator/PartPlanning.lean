import Mathlib.Algebra.Order.Floor.Div
import FileReplicator.SourceFile

/-!
# Upload plans

The s3 and azure backends cut a large file into numbered parts by the same
arithmetic, each within its service's limits. A plan covers the file exactly.
-/

namespace FileReplicator.PartPlanning

open ByteRanges SourceFile

inductive UploadPlan where
  | single
  | parts (partSize numParts : Nat)
  deriving DecidableEq, Repr

/-- What a service allows: the smallest and largest part, and how many of them. -/
structure Limits where
  minPart : Nat
  maxPart : Nat
  maxCount : Nat
  positive : 0 < minPart
  ordered : minPart ≤ maxPart
  counted : 0 < maxCount
  counts : maxCount < 2 ^ 32
  reaches : 2 ^ 63 ≤ maxPart * (2 ^ 32 - 1)

def clamp (low high x : Nat) : Nat := max low (min x high)

/-- `plan_upload`: the part size grows until the count fits; the count is cast to a `u32`. -/
def planUpload (limits : Limits) (threshold partSize size : Nat) : UploadPlan :=
  if size ≤ threshold then .single
  else
    let minByCount := size ⌈/⌉ limits.maxCount
    let effective := clamp limits.minPart limits.maxPart (max partSize minByCount)
    .parts effective ((size ⌈/⌉ effective) % 2 ^ 32)

/-- `part_len`: every part is full but the last, which has the rest. -/
def partLen (number partSize numParts total : Nat) : Nat :=
  if number ≥ numParts then total - (numParts - 1) * partSize else partSize

/-- The bytes of part `number`, counted from 1. -/
def partBytes (src : Source) (partSize number : Nat) : Domain.Bytes :=
  slice src.bytes ((number - 1) * partSize) partSize

theorem le_ceil_mul (size part : Nat) (positive : 0 < part) : size ≤ (size ⌈/⌉ part) * part := by
  rw [Nat.mul_comm]
  exact (ceilDiv_le_iff_le_mul positive).mp le_rfl

theorem plan_parts (limits : Limits) (threshold partSize size effective count : Nat)
    (small : size < 2 ^ 63)
    (plan : planUpload limits threshold partSize size = .parts effective count) :
    0 < effective ∧ count = size ⌈/⌉ effective := by
  unfold planUpload at plan
  split at plan
  · cases plan
  · simp only [UploadPlan.parts.injEq] at plan
    obtain ⟨heffective, hcount⟩ := plan
    have hlow : limits.minPart ≤ effective := heffective ▸ Nat.le_max_left _ _
    have hpos : 0 < effective := lt_of_lt_of_le limits.positive hlow
    have hfits : size ⌈/⌉ effective < 2 ^ 32 := by
      by_cases capped : max partSize (size ⌈/⌉ limits.maxCount) ≤ limits.maxPart
      · have hge : size ⌈/⌉ limits.maxCount ≤ effective := by
          rw [← heffective, clamp, Nat.min_eq_left capped]
          exact le_trans (Nat.le_max_right _ _) (Nat.le_max_right _ _)
        have hle : size ⌈/⌉ effective ≤ limits.maxCount := by
          rw [ceilDiv_le_iff_le_mul hpos]
          calc size ≤ limits.maxCount * (size ⌈/⌉ limits.maxCount) :=
                (ceilDiv_le_iff_le_mul limits.counted).mp le_rfl
            _ ≤ limits.maxCount * effective := Nat.mul_le_mul_left _ hge
            _ = effective * limits.maxCount := Nat.mul_comm _ _
        exact lt_of_le_of_lt hle limits.counts
      · have hge : limits.maxPart ≤ effective := by
          rw [← heffective, clamp, Nat.min_eq_right (by omega)]
          exact Nat.le_max_right _ _
        have hle : size ⌈/⌉ effective ≤ 2 ^ 32 - 1 := by
          rw [ceilDiv_le_iff_le_mul hpos]
          calc size ≤ limits.maxPart * (2 ^ 32 - 1) := le_trans (Nat.le_of_lt small) limits.reaches
            _ ≤ effective * (2 ^ 32 - 1) := Nat.mul_le_mul_right _ hge
        omega
    rw [heffective, Nat.mod_eq_of_lt hfits] at hcount
    exact ⟨hpos, hcount.symm⟩

/-- A part's index is below the count exactly when the part starts inside the file. -/
theorem lt_ceil_iff (size part index : Nat) (positive : 0 < part) :
    index < size ⌈/⌉ part ↔ index * part < size := by
  rw [← not_le, ceilDiv_le_iff_le_mul positive, Nat.mul_comm, not_le]

theorem part_len_eq (src : Source) (number part : Nat) (positive : 0 < part)
    (first : 1 ≤ number) (last : number ≤ src.size ⌈/⌉ part) :
    (partBytes src part number).length =
      partLen number part (src.size ⌈/⌉ part) src.size := by
  obtain ⟨index, rfl⟩ : ∃ index, number = index + 1 := ⟨number - 1, by omega⟩
  have hstart := (lt_ceil_iff src.size part index positive).mp (by omega)
  have hcover := le_ceil_mul src.size part positive
  rw [partBytes, slice_length, partLen, Nat.add_sub_cancel]
  change min part (src.size - _) = _
  split
  · have heq : src.size ⌈/⌉ part = index + 1 := by omega
    rw [heq, Nat.succ_mul] at hcover
    rw [heq, Nat.add_sub_cancel]
    omega
  · have hinside := (lt_ceil_iff src.size part (index + 1) positive).mp (by omega)
    rw [Nat.succ_mul] at hinside
    omega

theorem read_part_eq (src : Source) (number part : Nat) (positive : 0 < part)
    (first : 1 ≤ number) (last : number ≤ src.size ⌈/⌉ part) :
    slice src.bytes ((number - 1) * part) (partLen number part (src.size ⌈/⌉ part) src.size) =
      partBytes src part number := by
  rw [← part_len_eq src number part positive first last]
  simp only [partBytes, slice, List.length_take]
  rw [← List.take_take, List.take_length]

theorem parts_flatten (src : Source) (part count : Nat) :
    ((List.range count).map fun index => partBytes src part (index + 1)).flatten =
      src.bytes.take (count * part) := by
  induction count with
  | zero => simp
  | succ count ih =>
      rw [List.range_succ, List.map_append, List.flatten_append, ih, List.map_singleton,
        List.flatten_singleton, partBytes, Nat.add_sub_cancel, take_append_slice, Nat.succ_mul]

theorem all_parts_flatten (src : Source) (part : Nat) (positive : 0 < part) :
    ((List.range (src.size ⌈/⌉ part)).map fun index => partBytes src part (index + 1)).flatten =
      src.bytes := by
  rw [parts_flatten]
  exact List.take_of_length_le (le_ceil_mul src.size part positive)

/-- Parts `1 … count` in order, if all of them are there. -/
def collectParts (parts : Nat → Option Domain.Bytes) : Nat → Option Domain.Bytes
  | 0 => some []
  | count + 1 =>
      match collectParts parts count, parts (count + 1) with
      | some before, some last => some (before ++ last)
      | _, _ => none

theorem collect_parts_some_iff (parts : Nat → Option Domain.Bytes) (count : Nat) :
    collectParts parts count ≠ none ↔ ∀ index < count, parts (index + 1) ≠ none := by
  induction count with
  | zero => simp [collectParts]
  | succ count ih =>
      rw [Nat.forall_lt_succ_right, ← ih, collectParts]
      cases collectParts parts count <;> cases parts (count + 1) <;> simp

theorem collect_parts_eq (src : Source) (part : Nat) (parts : Nat → Option Domain.Bytes)
    (count : Nat) (whole : Domain.Bytes) (collected : collectParts parts count = some whole)
    (own : ∀ index < count, ∀ bytes, parts (index + 1) = some bytes →
      bytes = partBytes src part (index + 1)) :
    whole = src.bytes.take (count * part) := by
  induction count generalizing whole with
  | zero => simpa [collectParts] using collected.symm
  | succ count ih =>
      rw [collectParts] at collected
      split at collected
      · rename_i before last hbefore hlast
        rw [Option.some.injEq] at collected
        rw [← collected, ih before hbefore (fun index lt => own index (by omega)),
          own count (by omega) last hlast, partBytes, Nat.add_sub_cancel, take_append_slice,
          Nat.succ_mul]
      · cases collected

theorem collect_all_eq (src : Source) (part : Nat) (positive : 0 < part)
    (parts : Nat → Option Domain.Bytes) (whole : Domain.Bytes)
    (collected : collectParts parts (src.size ⌈/⌉ part) = some whole)
    (own : ∀ index < src.size ⌈/⌉ part, ∀ bytes, parts (index + 1) = some bytes →
      bytes = partBytes src part (index + 1)) : whole = src.bytes := by
  rw [collect_parts_eq src part parts _ whole collected own]
  exact List.take_of_length_le (le_ceil_mul src.size part positive)

end FileReplicator.PartPlanning
