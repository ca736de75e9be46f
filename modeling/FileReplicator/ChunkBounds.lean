import FileReplicator.SourceFile

/-!
# The chunk loops

The azure, gcs and http uploads walk through the file in ranges computed by the
same function. This module says what one range is and how the source is read for
it.
-/

namespace FileReplicator.ChunkBounds

open Domain ByteRanges SourceFile

def chunkBounds (committed chunkBytes total : Nat) : Nat × Nat :=
  (committed, wrapSub (min (wrapAdd committed (max chunkBytes 1)) total) 1)

/-- `end - start + 1`. -/
def chunkLen (bounds : Nat × Nat) : Nat :=
  wrapAdd (wrapSub bounds.2 bounds.1) 1

/-- The chunk from `committed` on does not pass the end of the address space. -/
def InRange (chunkBytes committed : Nat) : Prop :=
  committed + max chunkBytes 1 < word

/-- The offset after the chunk at `committed`. -/
def nextOffset (chunkBytes : Nat) (src : Source) (committed : Nat) : Nat :=
  min (committed + max chunkBytes 1) src.size

def nextChunk (chunkBytes : Nat) (src : Source) (committed : Nat) : Bytes :=
  slice src.bytes committed (nextOffset chunkBytes src committed - committed)

theorem next_offset_le (chunkBytes : Nat) (src : Source) (committed : Nat) :
    nextOffset chunkBytes src committed ≤ src.size :=
  Nat.min_le_right _ _

theorem lt_next_offset (chunkBytes : Nat) (src : Source) (committed : Nat)
    (left : committed < src.size) : committed < nextOffset chunkBytes src committed := by
  unfold nextOffset
  omega

theorem in_range_zero (chunkBytes : Nat) (fits : chunkBytes < word) : InRange chunkBytes 0 := by
  unfold InRange word at *
  omega

theorem in_range_next (chunkBytes : Nat) (src : Source) (committed : Nat)
    (left : nextOffset chunkBytes src committed < src.size) :
    InRange chunkBytes (nextOffset chunkBytes src committed) := by
  have hsize := double_size_lt_word src
  unfold InRange nextOffset at *
  omega

theorem chunk_bounds_fit (committed chunkBytes total : Nat)
    (inRange : InRange chunkBytes committed) (left : committed < total) :
    chunkBounds committed chunkBytes total =
      (committed, min (committed + max chunkBytes 1) total - 1) := by
  rw [chunkBounds, wrap_add_of_lt _ _ inRange, wrap_sub_of_le _ _ (by omega)]

theorem chunk_len_fit (committed chunkBytes total : Nat)
    (inRange : InRange chunkBytes committed) (left : committed < total) :
    chunkLen (chunkBounds committed chunkBytes total) =
      min (committed + max chunkBytes 1) total - committed := by
  unfold InRange at inRange
  rw [chunk_bounds_fit _ _ _ inRange left, chunkLen, wrap_sub_of_le _ _ (by omega),
    wrap_add_of_lt _ _ (by omega)]
  omega

/-- When the end of the chunk wraps, the range asked for is the whole chunk size. -/
theorem chunk_len_wraps (committed chunkBytes total : Nat) (fits : chunkBytes < word)
    (total_fits : total < word) (wraps : ¬InRange chunkBytes committed) (left : committed < total) :
    chunkLen (chunkBounds committed chunkBytes total) = max chunkBytes 1 := by
  have hsize : max chunkBytes 1 < word := by
    unfold word at *
    omega
  have hwraps : word ≤ committed + max chunkBytes 1 := not_lt.mp wraps
  simp only [chunkLen, chunkBounds]
  generalize max chunkBytes 1 = chunk at hwraps hsize ⊢
  rw [wrap_add_of_le _ _ hwraps, Nat.min_eq_left (by omega : committed + chunk - word ≤ total)]
  by_cases zero : committed + chunk = word
  · rw [wrap_sub_of_lt _ 1 (by omega), wrap_sub_of_le _ _ (by omega),
      wrap_add_of_lt _ _ (by omega)]
    omega
  · rw [wrap_sub_of_le _ 1 (by omega), wrap_sub_of_lt _ _ (by omega),
      wrap_add_of_lt _ _ (by omega)]
    omega

/-- The chunk at `committed` is read whole, or its end does not fit a word and the read fails. -/
theorem read_chunk (chunkBytes : Nat) (fits : chunkBytes < word) (src : Source) (relpath : String)
    (committed : Nat) (left : committed < src.size) :
    (InRange chunkBytes committed ∧
        (chunkBounds committed chunkBytes src.size).2 + 1 = nextOffset chunkBytes src committed ∧
        readSourceRange src relpath committed
          (chunkLen (chunkBounds committed chunkBytes src.size)) =
            .ok (nextChunk chunkBytes src committed)) ∨
      (¬InRange chunkBytes committed ∧
        ∃ text, readSourceRange src relpath committed
          (chunkLen (chunkBounds committed chunkBytes src.size)) = .error (.transient text)) := by
  by_cases inRange : InRange chunkBytes committed
  · refine Or.inl ⟨inRange, ?_, ?_⟩
    · rw [chunk_bounds_fit _ _ _ inRange left]
      simp only [nextOffset]
      omega
    · rw [chunk_len_fit _ _ _ inRange left]
      exact read_inside src relpath _ _ (by omega)
  · refine Or.inr ⟨inRange, ?_⟩
    have hsize := size_lt_word src
    rw [chunk_len_wraps _ _ _ fits hsize inRange left]
    unfold InRange at inRange
    exact read_past_end src relpath _ _ (by omega) (by omega)

end FileReplicator.ChunkBounds
