import FileReplicator.GcsSession
import FileReplicator.HttpUpload
import FileReplicator.UploadRanges

/-!
# Chunk loops from an offset

The http, azure and gcs loops send what is left of a file in one way, each with
a chunk size of its own. They do so exactly if the last chunk, taken at its full
size, ends inside of a word.
-/

namespace FileReplicator.ChunkLoops

open ByteRanges ChunkBounds PartPlanning Tilings UploadRanges

/-- The loop is over, its ranges are what is left of the file in order, and no sum leaves a word. -/
structure Sequential (chunkBytes total committed : Nat) (ranges : List Span) : Prop where
  ends : ∃ fuel, chunkLoop chunkBytes total fuel committed = some ranges
  tiles : Tiles committed total ranges
  sized : ∀ range ∈ ranges, 0 < range.length ∧ range.length ≤ max chunkBytes 1
  /-- `committed + chunk_bytes.max(1)`, `end - start + 1` and `end + 1`. -/
  sums : ∀ range ∈ ranges,
    InRange chunkBytes range.start ∧ range.length < word ∧ range.stop < word

def Aligned (unit committed : Nat) (ranges : List Span) : Prop :=
  (∀ range ∈ ranges.dropLast, unit ∣ range.length) ∧
    (unit ∣ committed → ∀ range ∈ ranges, unit ∣ range.start)

/-- The end of the last chunk, taken at its full size. -/
def lastEnd (chunkBytes total committed : Nat) : Nat :=
  committed + (total - committed) ⌈/⌉ max chunkBytes 1 * max chunkBytes 1

theorem fits_iff_last_end (chunkBytes total committed : Nat) (left : committed < total) :
    Fits chunkBytes total committed ↔ lastEnd chunkBytes total committed < word := by
  have positive : 0 < max chunkBytes 1 := by omega
  have counted := counted_ceil (max chunkBytes 1) (total - committed) positive
  constructor
  · intro fits
    have some : 0 < (total - committed) ⌈/⌉ max chunkBytes 1 :=
      (lt_ceil_iff (total - committed) _ 0 positive).mpr (by omega)
    obtain ⟨before, count⟩ : ∃ before, (total - committed) ⌈/⌉ max chunkBytes 1 = before + 1 :=
      ⟨_, (Nat.succ_pred_eq_of_pos some).symm⟩
    have short := counted.2
    rw [count, Nat.succ_mul] at short
    rw [lastEnd, count]
    exact fits before (by omega)
  · intro inside index started
    have before := (lt_ceil_iff (total - committed) _ index positive).mpr (by omega)
    have upTo : (index + 1) * max chunkBytes 1 ≤
        (total - committed) ⌈/⌉ max chunkBytes 1 * max chunkBytes 1 :=
      Nat.mul_le_mul_right _ before
    unfold lastEnd at inside
    omega

/-- The ranges of a loop that does not overflow. -/
def ranges (chunkBytes total committed : Nat) : List Span :=
  strides (max chunkBytes 1) total ((total - committed) ⌈/⌉ max chunkBytes 1) committed

theorem sequential_of_fits (chunkBytes total committed : Nat) (small : total < word)
    (left : committed < total) (fits : Fits chunkBytes total committed) :
    Sequential chunkBytes total committed (ranges chunkBytes total committed) := by
  obtain ⟨ends, tiles, sent⟩ := covers_of_fits chunkBytes total committed small left fits
  have inside := tiles_cover committed total _ tiles
  refine ⟨ends, tiles, fun range member => ⟨tiles_positive _ _ _ tiles range member,
    (sent range member).1⟩, fun range member => ⟨(sent range member).2, ?_⟩⟩
  have positive := tiles_positive _ _ _ tiles range member
  have last : range.stop - 1 < total :=
    ((inside (range.stop - 1)).mp ⟨range, member, by simp only [Span.Holds, Span.stop]; omega⟩).2
  simp only [Span.stop] at last ⊢
  omega

theorem sequential_iff (chunkBytes total committed : Nat) (small : total < word)
    (left : committed < total) :
    (∃ ranges, Sequential chunkBytes total committed ranges) ↔
      lastEnd chunkBytes total committed < word := by
  rw [← fits_iff_last_end chunkBytes total committed left]
  constructor
  · rintro ⟨sent, sequential⟩
    -- no sum of a sent range wraps, so none of the chunks does
    obtain ⟨fuel, ends⟩ := sequential.ends
    exact fits_of_covers chunkBytes total fuel committed small sent ends fun range member =>
      (sequential.sums range member).1
  · exact fun fits => ⟨_, sequential_of_fits chunkBytes total committed small left fits⟩

theorem aligned_ranges (unit chunkBytes total committed : Nat) (whole : unit ∣ max chunkBytes 1) :
    Aligned unit committed (ranges chunkBytes total committed) := by
  have counted := counted_ceil (max chunkBytes 1) (total - committed) (by omega)
  constructor
  · intro range member
    rw [strides_full _ _ _ _ counted range member]
    exact whole
  · exact strides_start_dvd unit _ _ _ _ whole

theorem gcs_chunk_aligned (cfg : Option Nat) :
    GcsSession.chunkAlign ∣ max (GcsSession.resolveChunkBytes cfg) 1 := by
  have positive : 0 < GcsSession.chunkAlign := by decide
  have least : GcsSession.chunkAlign ≤ GcsSession.resolveChunkBytes cfg := by
    have unit : 1 ≤ max (cfg.getD GcsSession.defaultChunkBytes) GcsSession.chunkAlign /
        GcsSession.chunkAlign := (Nat.one_le_div_iff positive).mpr (Nat.le_max_right _ _)
    exact Nat.le_mul_of_pos_left _ unit
  rw [Nat.max_eq_left (le_trans positive least)]
  exact Nat.dvd_mul_left _ _

/-- In each of the loops, whatever was configured, the ranges are as they should be exactly if the
last chunk, taken at its full size, ends inside of a word. -/
theorem loops_sequential_iff (total committed : Nat) (small : total < word)
    (left : committed < total) :
    (∀ cfg, (∃ ranges, Sequential (HttpUpload.resolveChunkBytes cfg) total committed ranges) ↔
      lastEnd (HttpUpload.resolveChunkBytes cfg) total committed < word) ∧
    (∀ thresholdBytes blockSizeBytes blockSize numBlocks,
      planUpload AzureBlocks.azureLimits
        (AzureBlocks.AzureBlockParams.resolve thresholdBytes blockSizeBytes).threshold
        (AzureBlocks.AzureBlockParams.resolve thresholdBytes blockSizeBytes).blockSize total =
          .parts blockSize numBlocks →
      ((∃ ranges, Sequential blockSize total committed ranges) ↔
        lastEnd blockSize total committed < word)) ∧
    ∀ cfg, (∃ ranges, Sequential (GcsSession.resolveChunkBytes cfg) total committed ranges ∧
        Aligned GcsSession.chunkAlign committed ranges) ↔
      lastEnd (GcsSession.resolveChunkBytes cfg) total committed < word := by
  refine ⟨fun cfg => sequential_iff _ total committed small left,
    fun _ _ blockSize _ _ => sequential_iff blockSize total committed small left, fun cfg => ?_⟩
  rw [← sequential_iff _ total committed small left]
  constructor
  · rintro ⟨sent, sequential, _⟩
    exact ⟨sent, sequential⟩
  -- the chunks of gcs are aligned whether or not the loop is
  · intro sequential
    rw [sequential_iff _ total committed small left,
      ← fits_iff_last_end _ total committed left] at sequential
    exact ⟨_, sequential_of_fits _ total committed small left sequential,
      aligned_ranges _ _ total committed (gcs_chunk_aligned cfg)⟩

/-- 33 MiB of which one has been sent, in chunks of the default sizes. -/
theorem loops_sequential_default :
    (∃ ranges, Sequential (HttpUpload.resolveChunkBytes none) (33 * GcsSession.mib) GcsSession.mib
        ranges) ∧
      ∃ ranges, Sequential (GcsSession.resolveChunkBytes none) (33 * GcsSession.mib) GcsSession.mib
          ranges ∧ Aligned GcsSession.chunkAlign GcsSession.mib ranges := by
  have loops := loops_sequential_iff (33 * GcsSession.mib) GcsSession.mib (by decide) (by decide)
  exact ⟨(loops.1 none).mpr (by decide), (loops.2.2 none).mpr (by decide)⟩

/-- With the largest chunk size and one byte sent, the end of the next chunk is no word. -/
theorem resumed_chunk_overflows :
    (¬∃ ranges, Sequential (HttpUpload.resolveChunkBytes (some (word - 1))) 2 1 ranges) ∧
      ¬∃ ranges, Sequential (GcsSession.resolveChunkBytes (some (word - 1)))
        (GcsSession.chunkAlign + 1) GcsSession.chunkAlign ranges := by
  constructor
  · rw [sequential_iff _ 2 1 (by decide) (by decide)]
    decide
  · rw [sequential_iff _ _ _ (by decide) (by decide)]
    decide

end FileReplicator.ChunkLoops
