import Mathlib.Algebra.Group.Nat.Defs
import Mathlib.Data.List.TakeDrop
import Mathlib.Data.List.Infix

/-!
# Ranges of a list

A list cut into ranges and put together again, and machine words that wrap.
Nothing here knows about files.
-/

namespace FileReplicator.ByteRanges

section Slices

variable {α : Type}

/-- The `count` elements of `xs` from `start` on, fewer where `xs` ends. -/
def slice (xs : List α) (start count : Nat) : List α :=
  (xs.drop start).take count

theorem take_append_slice (xs : List α) (start count : Nat) :
    xs.take start ++ slice xs start count = xs.take (start + count) := by
  rw [slice, List.take_add]

theorem slice_length (xs : List α) (start count : Nat) :
    (slice xs start count).length = min count (xs.length - start) := by
  simp [slice]

theorem slice_length_of_le (xs : List α) (start count : Nat) (inside : start + count ≤ xs.length) :
    (slice xs start count).length = count := by
  rw [slice_length]
  omega

theorem prefix_eq_take (xs held : List α) (isHead : held <+: xs) :
    held = xs.take held.length :=
  List.prefix_iff_eq_take.mp isHead

/-- A head of `xs` extended with the part of a slice it misses is again a head of `xs`. -/
theorem take_append_slice_drop (xs : List α) (held start count : Nat)
    (reached : start ≤ held) (inside : held ≤ start + count) :
    xs.take held ++ (slice xs start count).drop (held - start) = xs.take (start + count) := by
  obtain ⟨extra, rfl⟩ : ∃ extra, held = start + extra := ⟨held - start, by omega⟩
  obtain ⟨rest, rfl⟩ : ∃ rest, count = extra + rest := ⟨count - extra, by omega⟩
  have hcut : (slice xs start (extra + rest)).drop (start + extra - start) =
      slice xs (start + extra) rest := by
    simp [slice, List.drop_take, List.drop_drop]
  rw [hcut, take_append_slice, Nat.add_assoc]

end Slices

/-! Arithmetic of unsigned 64-bit words, as release builds compute it: sums and differences wrap. -/

def word : Nat := 2 ^ 64

def wrapAdd (a b : Nat) : Nat := if a + b < word then a + b else a + b - word

def wrapSub (a b : Nat) : Nat := if b ≤ a then a - b else a + word - b

theorem wrap_add_of_lt (a b : Nat) (small : a + b < word) : wrapAdd a b = a + b :=
  if_pos small

theorem wrap_add_of_le (a b : Nat) (large : word ≤ a + b) : wrapAdd a b = a + b - word :=
  if_neg (by omega)

theorem wrap_sub_of_le (a b : Nat) (le : b ≤ a) : wrapSub a b = a - b :=
  if_pos le

theorem wrap_sub_of_lt (a b : Nat) (lt : a < b) : wrapSub a b = a + word - b :=
  if_neg (by omega)

end FileReplicator.ByteRanges
