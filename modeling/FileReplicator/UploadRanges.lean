import FileReplicator.AzureBlocks
import FileReplicator.S3Multipart
import FileReplicator.Tilings

/-!
# The ranges an upload sends

Planned parts and the ranges of the chunk loops, as spans of the file. A plan
covers the file once; a loop covers what is left of it, as long as the end of no
chunk leaves a word.
-/

namespace FileReplicator.UploadRanges

open ByteRanges ChunkBounds PartPlanning Tilings

theorem counted_ceil (chunk gap : Nat) (positive : 0 < chunk) :
    Counted chunk gap (gap ⌈/⌉ chunk) := by
  refine ⟨le_ceil_mul gap chunk positive, ?_⟩
  rcases Nat.eq_zero_or_pos (gap ⌈/⌉ chunk) with none | some
  · rw [none]
    omega
  · obtain ⟨before, same⟩ : ∃ before, gap ⌈/⌉ chunk = before + 1 := ⟨gap ⌈/⌉ chunk - 1, by omega⟩
    have inside := (lt_ceil_iff gap chunk before positive).mp (by omega)
    rw [same, Nat.succ_mul]
    omega

/-! ## Planned parts -/

/-- `1..=num_parts`. -/
def partNumbers (numParts : Nat) : List Nat := (List.range numParts).map (· + 1)

/-- The offset and the length of a part, as they are sent. -/
def partSpan (partSize numParts total number : Nat) : Span :=
  ⟨(number - 1) * partSize, partLen number partSize numParts total⟩

/-- A plan that cuts `[0, size)` within the limits of its service, computed without overflow. -/
structure Partitions (limits : Limits) (size partSize numParts : Nat) : Prop where
  tiles : Tiles 0 size ((partNumbers numParts).map (partSpan partSize numParts size))
  disjoint : ((partNumbers numParts).map (partSpan partSize numParts size)).Pairwise
    fun earlier later => earlier.stop ≤ later.start
  covered : ∀ byte, byte < size ↔ ∃ number ∈ partNumbers numParts,
    (partSpan partSize numParts size number).Holds byte
  lengths : ∀ number ∈ partNumbers numParts,
    0 < partLen number partSize numParts size ∧ partLen number partSize numParts size ≤ partSize
  counted : numParts ≤ limits.maxCount
  least : ∀ number ∈ partNumbers numParts, number ≠ numParts →
    limits.minPart ≤ partLen number partSize numParts size
  most : ∀ number ∈ partNumbers numParts, partLen number partSize numParts size ≤ limits.maxPart
  /-- The count is what the cast to a `u32` keeps of it. -/
  cast : numParts = size ⌈/⌉ partSize
  /-- `(part_number - 1) * part_size`. -/
  offsets : ∀ number ∈ partNumbers numParts, (number - 1) * partSize < word
  /-- `total - (num_parts - 1) * part_size`. -/
  rest : (numParts - 1) * partSize ≤ size ∧ size < word

theorem part_len_planned (part size number : Nat) (positive : 0 < part)
    (first : 1 ≤ number) (last : number ≤ size ⌈/⌉ part) :
    partLen number part (size ⌈/⌉ part) size = min part (size - (number - 1) * part) := by
  obtain ⟨index, rfl⟩ : ∃ index, number = index + 1 := ⟨number - 1, by omega⟩
  have cover := le_ceil_mul size part positive
  rw [partLen, Nat.add_sub_cancel]
  split
  · have same : size ⌈/⌉ part = index + 1 := by omega
    rw [same, Nat.succ_mul] at cover
    rw [same, Nat.add_sub_cancel]
    omega
  · have inside := (lt_ceil_iff size part (index + 1) positive).mp (by omega)
    rw [Nat.succ_mul] at inside
    omega

theorem mem_part_numbers (numParts number : Nat) :
    number ∈ partNumbers numParts ↔ 1 ≤ number ∧ number ≤ numParts := by
  simp only [partNumbers, List.mem_map, List.mem_range]
  constructor
  · rintro ⟨index, before, rfl⟩
    omega
  · rintro ⟨first, last⟩
    exact ⟨number - 1, by omega, by omega⟩

theorem part_spans_eq (part size : Nat) (positive : 0 < part) :
    (partNumbers (size ⌈/⌉ part)).map (partSpan part (size ⌈/⌉ part) size) =
      strides part size (size ⌈/⌉ part) 0 := by
  rw [strides_eq_map, partNumbers, List.map_map]
  refine List.map_congr_left fun index before => ?_
  have last := List.mem_range.mp before
  simp only [Function.comp_apply, partSpan, Nat.zero_add, Nat.add_sub_cancel]
  rw [part_len_planned part size (index + 1) positive (by omega) (by omega), Nat.add_sub_cancel]

theorem planned_size (limits : Limits) (threshold partSize size : Nat) (above : threshold < size)
    (within : size ≤ limits.maxCount * limits.maxPart) :
    ∃ effective, planUpload limits threshold partSize size =
        .parts effective ((size ⌈/⌉ effective) % 2 ^ 32) ∧
      limits.minPart ≤ effective ∧ effective ≤ limits.maxPart ∧
      size ⌈/⌉ effective ≤ limits.maxCount := by
  have least : limits.minPart ≤ clamp limits.minPart limits.maxPart
      (max partSize (size ⌈/⌉ limits.maxCount)) := Nat.le_max_left _ _
  refine ⟨_, by rw [planUpload, if_neg (by omega)], least, ?_, ?_⟩
  · have ordered := limits.ordered
    unfold clamp
    omega
  · have positive := lt_of_lt_of_le limits.positive least
    have fits : size ⌈/⌉ limits.maxCount ≤ limits.maxPart :=
      (ceilDiv_le_iff_le_mul limits.counted).mpr within
    have grown : size ⌈/⌉ limits.maxCount ≤ clamp limits.minPart limits.maxPart
        (max partSize (size ⌈/⌉ limits.maxCount)) := by
      unfold clamp
      omega
    rw [ceilDiv_le_iff_le_mul positive]
    calc size ≤ limits.maxCount * (size ⌈/⌉ limits.maxCount) :=
          (ceilDiv_le_iff_le_mul limits.counted).mp le_rfl
      _ ≤ limits.maxCount * _ := Nat.mul_le_mul_left _ grown
      _ = _ := Nat.mul_comm _ _

theorem partitions_of_size (limits : Limits) (size effective : Nat) (small : size < word)
    (least : limits.minPart ≤ effective) (most : effective ≤ limits.maxPart)
    (counted : size ⌈/⌉ effective ≤ limits.maxCount) :
    Partitions limits size effective (size ⌈/⌉ effective) := by
  have positive := lt_of_lt_of_le limits.positive least
  have inside : ∀ number ∈ partNumbers (size ⌈/⌉ effective), (number - 1) * effective < size := by
    intro number member
    obtain ⟨first, last⟩ := (mem_part_numbers _ _).mp member
    exact (lt_ceil_iff size effective (number - 1) positive).mp (by omega)
  have length : ∀ number ∈ partNumbers (size ⌈/⌉ effective),
      partLen number effective (size ⌈/⌉ effective) size =
        min effective (size - (number - 1) * effective) := by
    intro number member
    obtain ⟨first, last⟩ := (mem_part_numbers _ _).mp member
    exact part_len_planned effective size number positive first last
  have tiles : Tiles 0 size ((partNumbers (size ⌈/⌉ effective)).map
      (partSpan effective (size ⌈/⌉ effective) size)) := by
    rw [part_spans_eq effective size positive]
    exact tiles_strides effective size _ 0 (Nat.zero_le _) (counted_ceil effective size positive)
  refine ⟨tiles, tiles_disjoint 0 size _ tiles, fun byte => ?_, fun number member => ?_, counted,
    fun number member more => ?_, fun number member => ?_, rfl, fun number member => ?_, ?_, small⟩
  · have cover := tiles_cover 0 size _ tiles byte
    simp only [List.mem_map, exists_exists_and_eq_and] at cover
    rw [cover]
    omega
  · have started := inside number member
    rw [length number member]
    omega
  · obtain ⟨first, last⟩ := (mem_part_numbers _ _).mp member
    rw [partLen, if_neg (by omega)]
    exact least
  · rw [length number member]
    omega
  · exact lt_trans (inside number member) small
  · rcases Nat.eq_zero_or_pos (size ⌈/⌉ effective) with none | some
    · simp [none]
    · exact le_of_lt ((lt_ceil_iff size effective _ positive).mp (by omega))

theorem plan_partitions (limits : Limits) (threshold partSize size : Nat) (above : threshold < size)
    (within : size ≤ limits.maxCount * limits.maxPart)
    (small : limits.maxCount * limits.maxPart < word) :
    ∃ effective numParts, planUpload limits threshold partSize size = .parts effective numParts ∧
      Partitions limits size effective numParts := by
  obtain ⟨effective, plan, least, most, counted⟩ :=
    planned_size limits threshold partSize size above within
  have kept : (size ⌈/⌉ effective) % 2 ^ 32 = size ⌈/⌉ effective :=
    Nat.mod_eq_of_lt (lt_of_le_of_lt counted limits.counts)
  rw [kept] at plan
  exact ⟨effective, _, plan, partitions_of_size limits size effective (by omega) least most counted⟩

/-! ## The chunk loops -/

/-- `start`, and `len = end - start + 1`. -/
def boundsSpan (bounds : Nat × Nat) : Span := ⟨bounds.1, chunkLen bounds⟩

/-- The ranges a loop sends while `committed < total`, if it is over after `fuel` of them. -/
def chunkLoop (chunkBytes total : Nat) : Nat → Nat → Option (List Span)
  | 0, committed => if committed < total then none else some []
  | fuel + 1, committed =>
      if committed < total then
        let bounds := chunkBounds committed chunkBytes total
        (chunkLoop chunkBytes total fuel (wrapAdd bounds.2 1)).map (boundsSpan bounds :: ·)
      else some []

/-- The end of every full chunk that starts inside of the file fits a word. -/
def Fits (chunkBytes total committed : Nat) : Prop :=
  ∀ index, committed + index * max chunkBytes 1 < total →
    committed + (index + 1) * max chunkBytes 1 < word

/-- The loop is over, and what it sent covers the rest of the file, without overflow. -/
def Covers (chunkBytes total committed : Nat) (spans : List Span) : Prop :=
  (∃ fuel, chunkLoop chunkBytes total fuel committed = some spans) ∧
    Tiles committed total spans ∧
    ∀ s ∈ spans, s.length ≤ max chunkBytes 1 ∧ InRange chunkBytes s.start

theorem fits_in_range (chunkBytes total committed : Nat) (fits : Fits chunkBytes total committed)
    (left : committed < total) : InRange chunkBytes committed := by
  have first := fits 0 (by omega)
  rw [Nat.zero_add, Nat.one_mul] at first
  exact first

theorem fits_next (chunkBytes total committed : Nat) (inRange : InRange chunkBytes committed) :
    Fits chunkBytes total committed ↔ Fits chunkBytes total (committed + max chunkBytes 1) := by
  have shift : ∀ index, committed + max chunkBytes 1 + index * max chunkBytes 1 =
      committed + (index + 1) * max chunkBytes 1 := by
    intro index
    rw [Nat.succ_mul]
    omega
  constructor
  · intro fits index inside
    rw [shift] at inside ⊢
    exact fits (index + 1) inside
  · intro fits index inside
    cases index with
    | zero =>
        rw [Nat.zero_add, Nat.one_mul]
        exact inRange
    | succ index =>
        rw [← shift] at inside ⊢
        exact fits index inside

theorem chunk_loop_next (chunkBytes total fuel committed : Nat) (left : committed < total)
    (small : total < word) (inRange : InRange chunkBytes committed) :
    chunkLoop chunkBytes total (fuel + 1) committed =
      (chunkLoop chunkBytes total fuel (min (committed + max chunkBytes 1) total)).map
        (⟨committed, min (max chunkBytes 1) (total - committed)⟩ :: ·) := by
  have length := chunk_len_fit committed chunkBytes total inRange left
  have bounds := chunk_bounds_fit committed chunkBytes total inRange left
  have stop : wrapAdd (min (committed + max chunkBytes 1) total - 1) 1 =
      min (committed + max chunkBytes 1) total := by
    rw [wrap_add_of_lt _ _ (by omega)]
    omega
  rw [chunkLoop, if_pos left]
  simp only [boundsSpan, length]
  rw [bounds, stop, show min (committed + max chunkBytes 1) total - committed =
    min (max chunkBytes 1) (total - committed) by omega]

theorem chunk_loop_strides (chunkBytes total count committed : Nat) (small : total < word)
    (inside : committed ≤ total) (counted : Counted (max chunkBytes 1) (total - committed) count)
    (fits : Fits chunkBytes total committed) :
    chunkLoop chunkBytes total count committed =
      some (strides (max chunkBytes 1) total count committed) := by
  -- the count says how many chunks are left, the last of them the only short one
  induction count generalizing committed with
  | zero =>
      have reach := counted.1
      rw [chunkLoop, if_neg (by omega)]
      rfl
  | succ count ih =>
      have short := counted.2
      rw [Nat.succ_mul] at short
      have left : committed < total := by omega
      have inRange := fits_in_range chunkBytes total committed fits left
      rw [chunk_loop_next chunkBytes total count committed left small inRange, strides]
      -- the last chunk ends with the file
      rcases Nat.eq_zero_or_pos count with rfl | more
      · have reach := counted.1
        rw [Nat.zero_add, Nat.one_mul] at reach
        rw [Nat.min_eq_right (by omega), chunkLoop, if_neg (by omega)]
        rfl
      · have whole : max chunkBytes 1 ≤ count * max chunkBytes 1 := Nat.le_mul_of_pos_left _ more
        rw [Nat.min_eq_left (by omega : committed + max chunkBytes 1 ≤ total)]
        rw [ih (committed + max chunkBytes 1) (by omega) ?_
          ((fits_next chunkBytes total committed inRange).mp fits)]
        · rfl
        · refine counted_succ _ _ count ?_
          rw [show total - (committed + max chunkBytes 1) + max chunkBytes 1 = total - committed by
            omega]
          exact counted

theorem fits_of_covers (chunkBytes total fuel committed : Nat) (small : total < word)
    (spans : List Span) (sent : chunkLoop chunkBytes total fuel committed = some spans)
    (inRange : ∀ s ∈ spans, InRange chunkBytes s.start) : Fits chunkBytes total committed := by
  induction fuel generalizing committed spans with
  | zero =>
      intro index inside
      rw [chunkLoop, if_pos (by omega)] at sent
      cases sent
  | succ fuel ih =>
      by_cases left : committed < total
      · have first : InRange chunkBytes committed := by
          rw [chunkLoop, if_pos left] at sent
          obtain ⟨rest, _, rfl⟩ := Option.map_eq_some_iff.mp sent
          exact inRange _ List.mem_cons_self
        rw [chunk_loop_next chunkBytes total fuel committed left small first] at sent
        obtain ⟨rest, later, rfl⟩ := Option.map_eq_some_iff.mp sent
        rw [fits_next chunkBytes total committed first]
        by_cases last : total ≤ committed + max chunkBytes 1
        · intro index inside
          omega
        · rw [Nat.min_eq_left (by omega)] at later
          exact ih _ rest later fun s member => inRange s (List.mem_cons_of_mem _ member)
      · intro index inside
        omega

theorem covers_of_fits (chunkBytes total committed : Nat) (small : total < word)
    (left : committed < total) (fits : Fits chunkBytes total committed) :
    Covers chunkBytes total committed
      (strides (max chunkBytes 1) total ((total - committed) ⌈/⌉ max chunkBytes 1) committed) := by
  have positive : 0 < max chunkBytes 1 := by omega
  have counted := counted_ceil (max chunkBytes 1) (total - committed) positive
  refine ⟨⟨_, chunk_loop_strides chunkBytes total _ committed small (by omega) counted fits⟩,
    tiles_strides _ _ _ _ (by omega) counted, fun s member => ⟨?_, ?_⟩⟩
  · exact strides_length_le _ _ _ _ s member
  · rw [strides_eq_map] at member
    obtain ⟨index, before, rfl⟩ := List.mem_map.mp member
    have started := (lt_ceil_iff (total - committed) _ index positive).mp (List.mem_range.mp before)
    have ends := fits index (by omega)
    rw [Nat.succ_mul] at ends
    show committed + index * max chunkBytes 1 + max chunkBytes 1 < word
    omega

/-- The number of the block that starts at an offset, as the staging loop computes it. -/
def blockNumber (blockSize start : Nat) : Nat := start / blockSize % 2 ^ 32 + 1

/-- Within the limits the loop overflows nowhere, and stages the planned blocks under their
numbers. -/
theorem staged_as_planned (size effective : Nat) (positive : 0 < effective)
    (fits : size + effective < word) (counted : size ⌈/⌉ effective < 2 ^ 32) :
    ∃ spans, Covers effective size 0 spans ∧
      spans.map (fun s => (blockNumber effective s.start, s)) =
        (partNumbers (size ⌈/⌉ effective)).map fun number =>
          (number, partSpan effective (size ⌈/⌉ effective) size number) := by
  have chunk : max effective 1 = effective := by omega
  refine ⟨strides effective size (size ⌈/⌉ effective) 0, ?_, ?_⟩
  · rcases Nat.eq_zero_or_pos size with rfl | some
    · have none : 0 ⌈/⌉ effective = 0 := zero_ceilDiv _
      rw [none]
      exact ⟨⟨0, rfl⟩, rfl, by simp [strides]⟩
    · have all := covers_of_fits effective size 0 (by omega) some ?_
      · rw [chunk, Nat.sub_zero] at all
        exact all
      · intro index inside
        rw [chunk] at inside ⊢
        rw [Nat.succ_mul]
        omega
  -- the number of a block is the index of its offset, which fits u32 by the limit on the blocks
  · rw [← part_spans_eq effective size positive, partNumbers, List.map_map, List.map_map,
      List.map_map]
    refine List.map_congr_left fun index before => ?_
    have few : index < 2 ^ 32 := lt_trans (List.mem_range.mp before) counted
    simp only [Function.comp_apply, partSpan, blockNumber, Nat.add_sub_cancel,
      Nat.mul_div_cancel _ positive, Nat.mod_eq_of_lt few]

/-- Every plan above the threshold is an exact partition, on s3 and on azure; the blocks that the
azure loop stages are the planned ones. -/
theorem plans_partition :
    (∀ thresholdBytes partSizeBytes maxConcurrentParts size,
      (S3Multipart.MultipartParams.resolve thresholdBytes partSizeBytes
        maxConcurrentParts).threshold < size →
      size ≤ 10000 * (5 * 1024 * S3Multipart.mib) →
      ∃ partSize numParts,
        planUpload S3Multipart.s3Limits
          (S3Multipart.MultipartParams.resolve thresholdBytes partSizeBytes
            maxConcurrentParts).threshold
          (S3Multipart.MultipartParams.resolve thresholdBytes partSizeBytes
            maxConcurrentParts).partSize size = .parts partSize numParts ∧
        Partitions S3Multipart.s3Limits size partSize numParts) ∧
    ∀ thresholdBytes blockSizeBytes size,
      (AzureBlocks.AzureBlockParams.resolve thresholdBytes blockSizeBytes).threshold < size →
      size ≤ 50000 * (4000 * AzureBlocks.mib) →
      ∃ blockSize numBlocks,
        planUpload AzureBlocks.azureLimits
          (AzureBlocks.AzureBlockParams.resolve thresholdBytes blockSizeBytes).threshold
          (AzureBlocks.AzureBlockParams.resolve thresholdBytes blockSizeBytes).blockSize size =
            .parts blockSize numBlocks ∧
        Partitions AzureBlocks.azureLimits size blockSize numBlocks ∧
        ∃ spans, Covers blockSize size 0 spans ∧
          spans.map (fun s => (blockNumber blockSize s.start, s)) =
            (partNumbers numBlocks).map fun number =>
              (number, partSpan blockSize numBlocks size number) := by
  refine ⟨fun thresholdBytes partSizeBytes maxConcurrentParts size above within => ?_,
    fun thresholdBytes blockSizeBytes size above within => ?_⟩
  · exact plan_partitions S3Multipart.s3Limits _ _ size above within (by decide)
  · obtain ⟨blockSize, numBlocks, plan, exact⟩ :=
      plan_partitions AzureBlocks.azureLimits _ _ size above within (by decide)
    refine ⟨blockSize, numBlocks, plan, exact, ?_⟩
    have few : numBlocks < 2 ^ 32 := lt_of_le_of_lt exact.counted AzureBlocks.azureLimits.counts
    have sized : blockSize ≤ AzureBlocks.azureLimits.maxPart ∧ 0 < blockSize := by
      obtain ⟨effective, planned, least, most, _⟩ :=
        planned_size AzureBlocks.azureLimits _ _ size above within
      rw [plan, UploadPlan.parts.injEq] at planned
      rw [planned.1]
      exact ⟨most, lt_of_lt_of_le AzureBlocks.azureLimits.positive least⟩
    have same := exact.cast
    subst same
    refine staged_as_planned size blockSize sized.2 ?_ few
    have most : blockSize ≤ 4000 * (1024 * 1024) := sized.1
    have bounded : size ≤ 50000 * (4000 * (1024 * 1024)) := within
    unfold word
    omega

/-- 33 MiB with the default settings. -/
theorem plans_partition_default :
    (∃ partSize numParts, planUpload S3Multipart.s3Limits (16 * S3Multipart.mib)
        (16 * S3Multipart.mib) (33 * S3Multipart.mib) = .parts partSize numParts ∧
        Partitions S3Multipart.s3Limits (33 * S3Multipart.mib) partSize numParts) ∧
      ∃ blockSize numBlocks, planUpload AzureBlocks.azureLimits (16 * AzureBlocks.mib)
        (16 * AzureBlocks.mib) (33 * AzureBlocks.mib) = .parts blockSize numBlocks ∧
        Partitions AzureBlocks.azureLimits (33 * AzureBlocks.mib) blockSize numBlocks ∧
        ∃ spans, Covers blockSize (33 * AzureBlocks.mib) 0 spans ∧
          spans.map (fun s => (blockNumber blockSize s.start, s)) =
            (partNumbers numBlocks).map fun number =>
              (number, partSpan blockSize numBlocks (33 * AzureBlocks.mib) number) :=
  ⟨plans_partition.1 none none none (33 * S3Multipart.mib) (by decide) (by decide),
    plans_partition.2 none none (33 * AzureBlocks.mib) (by decide) (by decide)⟩

end FileReplicator.UploadRanges
