import FileReplicator.AzureBlocks
import FileReplicator.Healing

/-!
# Resuming and recovering an Azure upload

What the blocks on the service are worth after any history of deliveries, and
what the commit fallback makes of a blob that was there before.
-/

namespace FileReplicator.AzureResume

open Domain ByteRanges SourceFile ChunkBounds PartPlanning AzureBlocks Healing

variable (digest : Algorithm → Bytes → Checksum) (dest : AzureDest) (src : Source)
variable (relpath blob : String) (blockSize : Nat)

/-- The blocks that start below `committed`, where still staged, hold their bytes of the source. -/
def OwnBlocks (committed : Nat) (server : AzureServer) : Prop :=
  ∀ index, index * blockSize < committed → ∀ bytes, server.staged (index + 1) = some bytes →
    bytes = partBytes src blockSize (index + 1)

def Aligned (committed : Nat) : Prop :=
  committed ≤ src.size ∧ (committed = src.size ∨ blockSize ∣ committed)

/-- The state of one blob: the service and the resume row. -/
abbrev State := AzureServer × Option ResumeState

/-- A persisted token counts only blocks of the version of the source it names. -/
def Sound (versions : Source → Prop) (state : State) : Prop :=
  ∀ token, state.2.bind Token.fromResume = some token →
    ∀ src, versions src → token.size = src.size → token.mtimeMs = src.mtimeMs →
      Aligned src token.blockSize token.bytesCommitted ∧
        OwnBlocks src token.blockSize token.bytesCommitted state.1

theorem aligned_next (committed : Nat) :
    Aligned src blockSize committed → 0 < blockSize → committed < src.size →
      Aligned src blockSize (nextOffset blockSize src committed) := by
  rintro ⟨_, whole | ⟨index, rfl⟩⟩ positive left
  · omega
  · refine ⟨next_offset_le _ _ _, ?_⟩
    by_cases last : blockSize * index + max blockSize 1 < src.size
    · refine Or.inr ⟨index + 1, ?_⟩
      rw [nextOffset, Nat.min_eq_left (Nat.le_of_lt last), Nat.max_eq_left positive,
        Nat.mul_succ]
    · exact Or.inl (Nat.min_eq_right (by omega))

theorem block_at (committed : Nat) (aligned : Aligned src blockSize committed)
    (positive : 0 < blockSize) (left : committed < src.size) :
    ∃ index, committed = index * blockSize ∧ committed / blockSize + 1 = index + 1 ∧
      nextChunk blockSize src committed = partBytes src blockSize (index + 1) := by
  obtain ⟨_, whole | ⟨index, rfl⟩⟩ := aligned
  · omega
  · refine ⟨index, Nat.mul_comm _ _, by rw [Nat.mul_div_cancel_left _ positive], ?_⟩
    rw [nextChunk, nextOffset, partBytes, Nat.add_sub_cancel, Nat.max_eq_left positive,
      Nat.mul_comm index]
    unfold slice
    by_cases inside : blockSize * index + blockSize ≤ src.size
    · rw [Nat.min_eq_left inside, Nat.add_sub_cancel_left]
    · rw [Nat.min_eq_right (by omega), List.take_of_length_le (by simp [Source.size]),
        List.take_of_length_le (by simp only [List.length_drop]; unfold Source.size at inside; omega)]

theorem own_blocks_stage (committed index : Nat) (server : AzureServer)
    (at_index : committed = index * blockSize) (positive : 0 < blockSize)
    (own : OwnBlocks src blockSize committed server) :
    OwnBlocks src blockSize committed
        (server.stage (index + 1) (partBytes src blockSize (index + 1))) ∧
      OwnBlocks src blockSize (nextOffset blockSize src committed)
        (server.stage (index + 1) (partBytes src blockSize (index + 1))) := by
  have hstage : ∀ i bytes,
      (server.stage (index + 1) (partBytes src blockSize (index + 1))).staged (i + 1) = some bytes →
      i * blockSize < committed ∨ i = index → bytes = partBytes src blockSize (i + 1) := by
    intro i bytes found below
    by_cases same : i = index
    · subst same
      simpa [AzureServer.stage] using found.symm
    · refine own i (below.resolve_right same) bytes ?_
      simpa [AzureServer.stage, same] using found
  refine ⟨fun i below bytes found => hstage i bytes found (Or.inl below), ?_⟩
  intro i below bytes found
  refine hstage i bytes found ?_
  have hnext : i * blockSize < index * blockSize + blockSize := by
    unfold nextOffset at below
    omega
  have hle : i ≤ index := by
    by_contra past
    have := Nat.mul_le_mul_right blockSize (show index + 1 ≤ i by omega)
    rw [Nat.succ_mul] at this
    omega
  rcases Nat.lt_or_eq_of_le hle with lt | eq
  · left
    rw [at_index]
    exact Nat.mul_lt_mul_of_pos_right lt positive
  · exact Or.inr eq

/-- A turn of the staging loop stages the next block of the plan, or leaves the blocks below
alone. -/
theorem stage_next_eq (committed : Nat) (server : AzureServer) (answer : Answer)
    (fits : blockSize < word) (inRange : InRange blockSize committed)
    (aligned : Aligned src blockSize committed) (positive : 0 < blockSize)
    (left : committed < src.size) :
    ∃ index, committed = index * blockSize ∧
      let sent := server.request
        (server.stage (index + 1) (partBytes src blockSize (index + 1))) answer
      stageNext src relpath blockSize committed server answer =
        (sent.1, match sent.2 with
          | none => .ok (partBytes src blockSize (index + 1), nextOffset blockSize src committed)
          | some failure => .error (mapAzure failure)) := by
  obtain ⟨index, hindex, hnumber, hbody⟩ := block_at src blockSize committed aligned positive left
  obtain ⟨_, hnext, hread⟩ | ⟨wraps, _⟩ :=
    read_chunk blockSize fits src relpath committed left
  · refine ⟨index, hindex, ?_⟩
    simp only [chunkBounds] at hnext hread
    simp only [stageNext, chunkBounds, hread, hnext, hnumber, hbody]
    cases (server.request
      (server.stage (index + 1) (partBytes src blockSize (index + 1))) answer).2 <;> rfl
  · exact absurd inRange wraps

theorem request_cases (server applied : AzureServer) (answer : Answer) :
    ((server.request applied answer).2 = none ∧ (server.request applied answer).1 = applied) ∨
      ((∃ failure, (server.request applied answer).2 = some failure) ∧
        ((server.request applied answer).1 = applied ∨
          (server.request applied answer).1 = server)) := by
  cases answer with
  | accept => exact Or.inl ⟨rfl, rfl⟩
  | lost done => exact Or.inr ⟨⟨_, rfl⟩, by cases done <;> simp [AzureServer.request]⟩
  | refuse done code => exact Or.inr ⟨⟨_, rfl⟩, by cases done <;> simp [AzureServer.request]⟩

theorem in_range_of_limit (committed : Nat) (limit : blockSize ≤ azureLimits.maxPart)
    (left : committed < src.size) : blockSize < word ∧ InRange blockSize committed := by
  have hsize := src.fits
  have hlimit : azureLimits.maxPart = 4194304000 := rfl
  unfold InRange word Source.size at *
  omega

/-- The blocks staged are the source's own, and only a loop that got to the end is `staged`. -/
theorem stage_blocks_spec (script : List Answer) (committed : Nat) (hashed : Bytes)
    (server : AzureServer) (limit : blockSize ≤ azureLimits.maxPart) (positive : 0 < blockSize)
    (aligned : Aligned src blockSize committed) (own : OwnBlocks src blockSize committed server) :
    let run := stageBlocks src relpath blockSize committed hashed server script
    Aligned src blockSize run.committed ∧ OwnBlocks src blockSize run.committed run.server ∧
      run.server.object = server.object ∧ (run.result = .staged → run.committed = src.size) := by
  induction script generalizing committed hashed server with
  | nil =>
      rw [stageBlocks]
      split
      · exact ⟨aligned, own, rfl, by simp⟩
      · exact ⟨aligned, own, rfl, fun _ => by have := aligned.1; simp only; omega⟩
  | cons answer rest ih =>
      rw [stageBlocks]
      split
      · rename_i left
        obtain ⟨fits, inRange⟩ := in_range_of_limit src blockSize committed limit left
        obtain ⟨index, hindex, hturn⟩ := stage_next_eq src relpath blockSize committed server answer
          fits inRange aligned positive left
        obtain ⟨ownHere, ownNext⟩ :=
          own_blocks_stage src blockSize committed index server hindex positive own
        rw [hturn]
        rcases request_cases server
            (server.stage (index + 1) (partBytes src blockSize (index + 1))) answer with
          ⟨hnone, happlied⟩ | ⟨⟨failure, hfailure⟩, hafter⟩
        · simp only [hnone, happlied]
          exact ih _ _ _ (aligned_next src blockSize committed aligned positive left) ownNext
        · simp only [hfailure]
          rcases hafter with happlied | hsame
          · simp only [happlied]
            exact ⟨aligned, ownHere, rfl, by simp⟩
          · simp only [hsame]
            exact ⟨aligned, own, trivial, by simp⟩
      · exact ⟨aligned, own, rfl, fun _ => by have := aligned.1; simp only; omega⟩

theorem commit_is_source (server after : AzureServer) (positive : 0 < blockSize)
    (own : OwnBlocks src blockSize src.size server)
    (committed : server.commit (src.size ⌈/⌉ blockSize) = some after) :
    after.object = some src.bytes ∧ ∀ n, after.staged n = none := by
  rw [AzureServer.commit, Option.map_eq_some_iff] at committed
  obtain ⟨whole, hwhole, rfl⟩ := committed
  refine ⟨?_, fun _ => rfl⟩
  rw [collect_all_eq src blockSize positive server.staged whole hwhole]
  intro index below
  exact own index ((lt_ceil_iff src.size blockSize index positive).mp below)

/-- `Put Block List`: the blob is the source where it went through, and untouched where not. -/
theorem put_block_list_cases (server : AzureServer) (answer : Answer) (positive : 0 < blockSize)
    (own : OwnBlocks src blockSize src.size server) :
    let sent := server.putBlockList (src.size ⌈/⌉ blockSize) answer
    (sent.2 = none → sent.1.object = some src.bytes) ∧
      (sent.1 = server ∨ (sent.1.object = some src.bytes ∧ ∀ n, sent.1.staged n = none)) := by
  unfold AzureServer.putBlockList
  split
  · rename_i after hcommit
    have hsource := commit_is_source src blockSize server after positive own hcommit
    rcases request_cases server after answer with ⟨hnone, happlied⟩ | ⟨⟨failure, hfailure⟩, hafter⟩
    · simp only [happlied]
      exact ⟨fun _ => hsource.1, Or.inr hsource⟩
    · refine ⟨fun h => by simp [hfailure] at h, ?_⟩
      rcases hafter with happlied | hsame
      · exact Or.inr (by rw [happlied]; exact hsource)
      · exact Or.inl hsame
  · cases answer <;> exact ⟨fun h => by simp at h, Or.inl rfl⟩

/-! ## One delivery -/

theorem start_offset_of_sound (versions : Source → Prop) (state : State)
    (sound : Sound versions state) (member : versions src) :
    Aligned src blockSize (startOffset src blob blockSize state.2) ∧
      OwnBlocks src blockSize (startOffset src blob blockSize state.2) state.1 := by
  unfold startOffset
  cases husable : reusable src blob blockSize state.2 with
  | none =>
      refine ⟨⟨Nat.zero_le _, Or.inr ⟨0, rfl⟩⟩, ?_⟩
      intro index below
      simp at below
  | some token =>
      obtain ⟨hfrom, hmatch⟩ := Option.filter_eq_some_iff.mp husable
      simp only [Token.matchesSource, Bool.and_eq_true, decide_eq_true_eq] at hmatch
      obtain ⟨⟨⟨_, hblock⟩, hsize⟩, hmtime⟩ := hmatch
      obtain ⟨aligned, own⟩ := sound token hfrom src member hsize hmtime
      rw [hblock] at aligned own
      simp only [Option.map_some, Option.getD_some, Nat.min_eq_left aligned.1]
      exact ⟨aligned, own⟩

theorem azure_plan_parts (count : Nat) (plan : dest.plan src = .parts blockSize count) :
    0 < blockSize ∧ blockSize ≤ azureLimits.maxPart ∧ count = src.size ⌈/⌉ blockSize := by
  obtain ⟨positive, hcount⟩ := plan_parts azureLimits _ _ src.size blockSize count src.fits plan
  refine ⟨positive, ?_, hcount⟩
  unfold AzureDest.plan planUpload at plan
  split at plan
  · cases plan
  · simp only [UploadPlan.parts.injEq] at plan
    rw [← plan.1]
    exact Nat.max_le.mpr ⟨azureLimits.ordered, Nat.min_le_right _ _⟩

def SameSize (server : AzureServer) : Prop :=
  ∃ other, server.object = some other ∧ other.length = src.size

/-- The end of a delivery: an `Ok` found the source committed, or an object of its size that was
there before. -/
theorem commit_blocks_spec (hashed : Bytes) (server : AzureServer) (row : Option ResumeState)
    (list : Answer) (props : PropsAnswer) (positive : 0 < blockSize)
    (own : OwnBlocks src blockSize src.size server) :
    let run := commitBlocks digest dest src blob (src.size ⌈/⌉ blockSize) hashed server row list props
    ((∃ d, run.result = .ok d) → run.server.object = some src.bytes ∨
        (run.server.object = server.object ∧ SameSize src server)) ∧
      OwnBlocks src blockSize src.size run.server ∧ (run.row = none ∨ run.row = row) := by
  have hlist := put_block_list_cases src blockSize server list positive own
  have hown : OwnBlocks src blockSize src.size
      (server.putBlockList (src.size ⌈/⌉ blockSize) list).1 := by
    rcases hlist.2 with hsame | ⟨_, hcleared⟩
    · rw [hsame]
      exact own
    · intro index _ bytes found
      simp [hcleared] at found
  unfold commitBlocks
  split
  · rename_i after hsent
    simp only [hsent] at hlist hown
    exact ⟨fun _ => Or.inl (hlist.1 trivial), hown, Or.inl rfl⟩
  · rename_i after failure hsent
    simp only [hsent] at hlist hown
    split
    · rename_i hseen
      refine ⟨fun _ => ?_, hown, Or.inl rfl⟩
      rcases hlist.2 with hsame | ⟨hsource, _⟩
      · refine Or.inr ⟨congrArg AzureServer.object hsame, ?_⟩
        rw [hsame] at hseen
        unfold blobCommittedAtSize at hseen
        split at hseen
        · split at hseen
          · rename_i bytes hobject
            exact ⟨bytes, hobject, by simpa using hseen⟩
          · simp at hseen
        · simp at hseen
        · simp at hseen
      · exact Or.inl hsource
    · exact ⟨fun ⟨d, hd⟩ => by simp at hd, hown, Or.inr rfl⟩
    · exact ⟨fun ⟨d, hd⟩ => by simp at hd, hown, Or.inr rfl⟩

theorem deliver_blocks_spec (resume : Option ResumeState) (server : AzureServer)
    (script : DeliverScript) (limit : blockSize ≤ azureLimits.maxPart) (positive : 0 < blockSize)
    (aligned : Aligned src blockSize (startOffset src blob blockSize resume))
    (own : OwnBlocks src blockSize (startOffset src blob blockSize resume) server) :
    let run := deliverBlocks digest dest src relpath blob blockSize (src.size ⌈/⌉ blockSize) resume
      server script
    ((∃ d, run.result = .ok d) → run.server.object = some src.bytes ∨
        (run.server.object = server.object ∧ SameSize src server)) ∧
      (run.row = none ∨ ∃ committed, run.row = some (checkpoint src blob blockSize committed) ∧
        Aligned src blockSize committed ∧ OwnBlocks src blockSize committed run.server) := by
  have hspec := stage_blocks_spec src relpath blockSize script.blocks _
    (src.bytes.take (startOffset src blob blockSize resume)) server limit positive aligned own
  simp only [deliverBlocks]
  generalize stageBlocks src relpath blockSize (startOffset src blob blockSize resume)
    (src.bytes.take (startOffset src blob blockSize resume)) server script.blocks = run at hspec ⊢
  obtain ⟨hresult, hobject, hown, hdone⟩ : Aligned src blockSize run.committed ∧
      run.server.object = server.object ∧ OwnBlocks src blockSize run.committed run.server ∧
        (run.result = .staged → run.committed = src.size) :=
    ⟨hspec.1, hspec.2.2.1, hspec.2.1, hspec.2.2.2⟩
  split
  · exact ⟨fun ⟨d, hd⟩ => by simp at hd, Or.inr ⟨_, rfl, hresult, hown⟩⟩
  · exact ⟨fun ⟨d, hd⟩ => by simp at hd, Or.inr ⟨_, rfl, hresult, hown⟩⟩
  · rename_i hstaged
    rw [hdone hstaged] at hresult hown ⊢
    obtain ⟨hok, hownAfter, hrow⟩ := commit_blocks_spec digest dest src blob blockSize run.hashed
      run.server (some (checkpoint src blob blockSize src.size)) script.list script.props positive
      hown
    refine ⟨fun ok => ?_, hrow.imp id fun same => ⟨_, same, hresult, hownAfter⟩⟩
    refine (hok ok).imp id fun ⟨same, sized⟩ => ⟨same.trans hobject, ?_⟩
    obtain ⟨other, hother, hsize⟩ := sized
    exact ⟨other, hobject ▸ hother, hsize⟩

/-- Every delivery leaves a resume row that counts only blocks of its own version. -/
theorem sound_deliver (versions : Source → Prop) (versioned : Versioned versions) (state : State)
    (sound : Sound versions state) (member : versions src) (script : DeliverScript) :
    Sound versions
      ((deliver digest dest src relpath state.2 state.1 script).server,
        (deliver digest dest src relpath state.2 state.1 script).row) := by
  unfold deliver
  split
  · have hless : ∀ server : AzureServer, server = state.1 ∨ server = state.1.write src.bytes →
        Sound versions (server, state.2) := by
      intro server hserver token htoken v hv hsize hmtime
      obtain ⟨aligned, own⟩ := sound token htoken v hv hsize hmtime
      refine ⟨aligned, ?_⟩
      rcases hserver with rfl | rfl
      · exact own
      · intro index _ bytes found
        simp [AzureServer.write] at found
    split
    · exact fun token htoken => by simp at htoken
    · rename_i after failure hsent
      refine hless after ?_
      rcases request_cases state.1 (state.1.write src.bytes) script.single with
        ⟨hnone, _⟩ | ⟨_, hafter⟩
      · simp [hsent] at hnone
      · simpa [hsent, or_comm] using hafter
  · rename_i blockSize count plan
    obtain ⟨positive, limit, rfl⟩ := azure_plan_parts dest src blockSize count plan
    obtain ⟨aligned, own⟩ := start_offset_of_sound src
      (ObjectPath.objectKey dest.keyPrefix relpath) blockSize versions state sound member
    obtain ⟨_, hnone | ⟨committed, hrow, haligned, hown⟩⟩ := deliver_blocks_spec digest dest src
      relpath (ObjectPath.objectKey dest.keyPrefix relpath) blockSize state.2 state.1 script limit
      positive aligned own
    · intro token htoken
      simp [hnone] at htoken
    · intro token htoken v hv hsize hmtime
      simp only [hrow, checkpoint, Token.toResume, Token.fromResume, Option.bind_some,
        Option.some.injEq] at htoken
      subst htoken
      have heq := versioned src v member hv hsize hmtime
      subst heq
      exact ⟨haligned, hown⟩

/-- An `Ok` means the blob is the source, unless an object of its size was taken for it. -/
theorem deliver_ok_cases (versions : Source → Prop) (state : State)
    (sound : Sound versions state) (member : versions src) (script : DeliverScript)
    (ok : ∃ d, (deliver digest dest src relpath state.2 state.1 script).result = .ok d) :
    (deliver digest dest src relpath state.2 state.1 script).server.object = some src.bytes ∨
      (dest.plan src ≠ .single ∧ SameSize src state.1 ∧
        (deliver digest dest src relpath state.2 state.1 script).server.object =
          state.1.object) := by
  unfold deliver at ok ⊢
  split at ok
  · rename_i plan
    simp only [plan] at ok ⊢
    split at ok
    · rename_i after hsent
      rcases request_cases state.1 (state.1.write src.bytes) script.single with
        ⟨_, happlied⟩ | ⟨⟨failure, hfailure⟩, _⟩
      · simp only [hsent] at happlied
        exact Or.inl (by rw [happlied]; rfl)
      · simp [hsent] at hfailure
    · simp at ok
  · rename_i blockSize count plan
    simp only [plan] at ok ⊢
    obtain ⟨positive, limit, rfl⟩ := azure_plan_parts dest src blockSize count plan
    obtain ⟨aligned, own⟩ := start_offset_of_sound src
      (ObjectPath.objectKey dest.keyPrefix relpath) blockSize versions state sound member
    obtain ⟨hok, _⟩ := deliver_blocks_spec digest dest src relpath
      (ObjectPath.objectKey dest.keyPrefix relpath) blockSize state.2 state.1 script limit
      positive aligned own
    exact (hok ok).imp id fun ⟨same, sized⟩ => ⟨by simp, sized, same⟩

theorem stage_blocks_accept (count committed : Nat) (hashed : Bytes) (server : AzureServer)
    (limit : blockSize ≤ azureLimits.maxPart) (positive : 0 < blockSize)
    (aligned : Aligned src blockSize committed) (enough : src.size ≤ committed + count) :
    let run := stageBlocks src relpath blockSize committed hashed server
      (List.replicate count .accept)
    run.result = .staged ∧ ∀ index, index * blockSize < src.size →
      (run.server.staged (index + 1) ≠ none ↔
        server.staged (index + 1) ≠ none ∨ committed ≤ index * blockSize) := by
  induction count generalizing committed hashed server with
  | zero =>
      have hdone : ¬committed < src.size := by omega
      rw [List.replicate_zero, stageBlocks, if_neg hdone]
      refine ⟨rfl, fun index below => ?_⟩
      have hpast : ¬committed ≤ index * blockSize := by omega
      simp [hpast]
  | succ count ih =>
      rw [List.replicate_succ, stageBlocks]
      split
      · rename_i left
        obtain ⟨fits, inRange⟩ := in_range_of_limit src blockSize committed limit left
        obtain ⟨index, hindex, hturn⟩ := stage_next_eq src relpath blockSize committed server .accept
          fits inRange aligned positive left
        have hnext := lt_next_offset blockSize src committed left
        rw [hturn]
        obtain ⟨hstaged, hblocks⟩ := ih _ (hashed ++ partBytes src blockSize (index + 1))
          (server.stage (index + 1) (partBytes src blockSize (index + 1)))
          (aligned_next src blockSize committed aligned positive left) (by omega)
        refine ⟨hstaged, fun i below => (hblocks i below).trans ?_⟩
        rcases Nat.lt_trichotomy i index with lt | rfl | gt
        · have hmul := Nat.mul_lt_mul_of_pos_right lt positive
          have hne : i ≠ index := by omega
          have hlow : ¬nextOffset blockSize src committed ≤ i * blockSize := by omega
          have hlow' : ¬committed ≤ i * blockSize := by omega
          simp [AzureServer.stage, hne, hlow, hlow']
        · simp [AzureServer.stage, hindex]
        · have hmul := Nat.mul_le_mul_right blockSize (show index + 1 ≤ i by omega)
          rw [Nat.succ_mul] at hmul
          have hne : i ≠ index := by omega
          have hhigh : nextOffset blockSize src committed ≤ i * blockSize := by
            unfold nextOffset
            omega
          have hhigh' : committed ≤ i * blockSize := by omega
          simp [hhigh, hhigh']
      · rename_i done
        refine ⟨rfl, fun index below => ?_⟩
        have hpast : ¬committed ≤ index * blockSize := by omega
        simp [hpast]

theorem commit_ne_none_iff (server : AzureServer) (count : Nat) :
    server.commit count ≠ none ↔ ∀ index < count, server.staged (index + 1) ≠ none := by
  rw [← collect_parts_some_iff, AzureServer.commit, ne_eq, Option.map_eq_none_iff]

/-- Any history of one blob before a delivery: deliveries of versions of the file with any settings
and any answers, blocks the service dropped, a blob somebody else wrote, a cleared resume row. -/
inductive Reached (keyPrefix : String) (versions : Source → Prop) : State → Prop where
  | start (object : Option Bytes) :
      Reached keyPrefix versions ({ staged := fun _ => none, object := object }, none)
  | delivered (state : State) (src : Source) (blocks : AzureBlockParams) (algo : Algorithm)
      (script : DeliverScript) (member : versions src)
      (reached : Reached keyPrefix versions state) :
      Reached keyPrefix versions
        ((deliver digest ⟨keyPrefix, blocks, algo⟩ src relpath state.2 state.1 script).server,
          (deliver digest ⟨keyPrefix, blocks, algo⟩ src relpath state.2 state.1 script).row)
  | dropped (state : State) (keeps : Nat → Bool) (reached : Reached keyPrefix versions state) :
      Reached keyPrefix versions
        ({ state.1 with staged := fun n => if keeps n then state.1.staged n else none }, state.2)
  | replaced (state : State) (object : Option Bytes) (reached : Reached keyPrefix versions state) :
      Reached keyPrefix versions ({ state.1 with object := object }, state.2)
  | cleared (state : State) (reached : Reached keyPrefix versions state) :
      Reached keyPrefix versions (state.1, none)

theorem sound_of_reached (keyPrefix : String) (versions : Source → Prop)
    (versioned : Versioned versions) (state : State)
    (reached : Reached digest relpath keyPrefix versions state) : Sound versions state := by
  induction reached with
  | start object => exact fun token htoken => by simp at htoken
  | delivered state src blocks algo script member _ ih =>
      exact sound_deliver digest ⟨keyPrefix, blocks, algo⟩ src relpath versions versioned state ih
        member script
  | dropped state keeps _ ih =>
      intro token htoken v hv hsize hmtime
      obtain ⟨aligned, own⟩ := ih token htoken v hv hsize hmtime
      refine ⟨aligned, fun index below bytes found => own index below bytes ?_⟩
      simp only at found
      split at found
      · exact found
      · simp at found
  | replaced state object _ ih => exact ih
  | cleared state _ _ => exact fun token htoken => by simp at htoken

/-- The blob before the delivery is not mistaken for the source: a single write replaces it, and
otherwise it has another size or is the source. -/
def NotMistaken (object : Option Bytes) : Prop :=
  dest.plan src = .single ∨ ∀ other, object = some other → other.length = src.size →
    other = src.bytes

/-- Whatever the service answers, an `Ok` means that the blob is the source exactly if the blob
before could not be mistaken for it. -/
theorem azure_ok_is_source_iff (versions : Source → Prop) (state : State)
    (sound : Sound versions state) (member : versions src) :
    (∀ script, (∃ d, (deliver digest dest src relpath state.2 state.1 script).result = .ok d) →
      (deliver digest dest src relpath state.2 state.1 script).server.object = some src.bytes) ↔
      NotMistaken dest src state.1.object := by
  constructor
  · intro truth
    by_contra mistaken
    simp only [NotMistaken, not_or, not_forall] at mistaken
    obtain ⟨hplan, other, hobject, hsize, hother⟩ := mistaken
    cases plan : dest.plan src with
    | single => exact hplan plan
    | parts blockSize count =>
        obtain ⟨positive, limit, rfl⟩ := azure_plan_parts dest src blockSize count plan
        obtain ⟨aligned, own⟩ := start_offset_of_sound src
          (ObjectPath.objectKey dest.keyPrefix relpath) blockSize versions state sound member
        have hstage := stage_blocks_accept src relpath blockSize src.size _
          (src.bytes.take (startOffset src (ObjectPath.objectKey dest.keyPrefix relpath) blockSize
            state.2)) state.1 limit positive aligned (by omega)
        have hspec := stage_blocks_spec src relpath blockSize
          (List.replicate src.size .accept) _
          (src.bytes.take (startOffset src (ObjectPath.objectKey dest.keyPrefix relpath) blockSize
            state.2)) state.1 limit positive aligned own
        have hkept := hspec.2.2.1
        have hrefused : ∀ (server : AzureServer) (count : Nat),
            server.putBlockList count (.refuse false 500) = (server, some (some 500)) := by
          intro server count
          unfold AzureServer.putBlockList
          split <;> rfl
        have hwrong := truth
          ⟨.accept, List.replicate src.size .accept, .refuse false 500, .seen⟩
        simp only [deliver, plan, deliverBlocks, hstage.1, commitBlocks, hrefused,
          blobCommittedAtSize, hkept, hobject, hsize, decide_true] at hwrong
        exact hother (Option.some.inj (hwrong ⟨_, rfl⟩))
  · intro clear script ok
    rcases deliver_ok_cases digest dest src relpath versions state sound member script ok with
      done | ⟨hplan, ⟨other, hobject, hsize⟩, hsame⟩
    · exact done
    · rw [hsame, hobject, clear.resolve_left hplan other hobject hsize]

def healthyScript : DeliverScript where
  single := .accept
  blocks := List.replicate src.size .accept
  list := .accept
  props := .seen

def attempt (state : State) : DeliverResult × State :=
  let run := deliver digest dest src relpath state.2 state.1 (healthyScript src)
  (run.result, run.server, run.row)

def Full (state : State) : Prop :=
  state.1.object = some src.bytes

/-- Healthy attempts deliver the source: in one request, from blocks that are all still staged, or
because the blob is the source already. -/
def Recoverable (state : State) : Prop :=
  match dest.plan src with
  | .single => True
  | .parts blockSize _ =>
      state.1.object = some src.bytes ∨
        ∀ index, index * blockSize <
            startOffset src (ObjectPath.objectKey dest.keyPrefix relpath) blockSize state.2 →
          state.1.staged (index + 1) ≠ none

/-- A healthy attempt gets to the commit with every block of its own; the blocks it did not stage
itself are there exactly where they were before. -/
theorem healthy_attempt (versions : Source → Prop) (state : State) (sound : Sound versions state)
    (member : versions src) (plan : dest.plan src = .parts blockSize (src.size ⌈/⌉ blockSize)) :
    ∃ hashed server row,
      attempt digest dest src relpath state =
        (let run := commitBlocks digest dest src (ObjectPath.objectKey dest.keyPrefix relpath)
          (src.size ⌈/⌉ blockSize) hashed server row .accept .seen
        (run.result, run.server, run.row)) ∧
      OwnBlocks src blockSize src.size server ∧ server.object = state.1.object ∧
      ((∀ index, index * blockSize <
            startOffset src (ObjectPath.objectKey dest.keyPrefix relpath) blockSize state.2 →
          state.1.staged (index + 1) ≠ none) ↔
        server.commit (src.size ⌈/⌉ blockSize) ≠ none) := by
  obtain ⟨positive, limit, _⟩ := azure_plan_parts dest src blockSize _ plan
  obtain ⟨aligned, own⟩ := start_offset_of_sound src
    (ObjectPath.objectKey dest.keyPrefix relpath) blockSize versions state sound member
  simp only [attempt, deliver, plan, deliverBlocks, healthyScript]
  generalize hstart : startOffset src (ObjectPath.objectKey dest.keyPrefix relpath) blockSize
    state.2 = start at aligned own ⊢
  obtain ⟨hstaged, hblocks⟩ := stage_blocks_accept src relpath blockSize src.size start
    (src.bytes.take start) state.1 limit positive aligned (by omega)
  obtain ⟨_, hown, hkept, hdone⟩ := stage_blocks_spec src relpath blockSize
    (List.replicate src.size .accept) start (src.bytes.take start) state.1 limit positive aligned own
  rw [hdone hstaged] at hown
  simp only [hstaged]
  refine ⟨_, _, _, rfl, hown, hkept, ?_⟩
  rw [commit_ne_none_iff]
  constructor
  · intro below index lt
    have hin := (lt_ceil_iff src.size blockSize index positive).mp lt
    rw [hblocks index hin]
    by_cases started : start ≤ index * blockSize
    · exact Or.inr started
    · exact Or.inl (below index (by omega))
  · intro all index below
    have hin : index * blockSize < src.size := lt_of_lt_of_le below aligned.1
    have hsome := all index ((lt_ceil_iff src.size blockSize index positive).mpr hin)
    rw [hblocks index hin] at hsome
    exact hsome.resolve_right (by omega)

theorem azure_heals_iff (versions : Source → Prop) (state : State)
    (sound : Sound versions state) (member : versions src) :
    Heals (attempt digest dest src relpath) (Full src) state ↔
      Recoverable dest src relpath state := by
  cases plan : dest.plan src with
  | single =>
      refine iff_of_true ?_ (by simp [Recoverable, plan])
      rw [heals_iff_of_ok _ _ _ (delivered digest dest src
        (ObjectPath.objectKey dest.keyPrefix relpath) src.bytes)
        (by simp [attempt, deliver, plan, healthyScript, AzureServer.request])]
      simp [Full, attempt, deliver, plan, healthyScript, AzureServer.request, AzureServer.write]
  | parts blockSize count =>
      obtain ⟨positive, _, rfl⟩ := azure_plan_parts dest src blockSize count plan
      obtain ⟨hashed, server, row, hattempt, hown, hkept, hall⟩ := healthy_attempt digest dest src
        relpath blockSize versions state sound member plan
      simp only [Recoverable, plan]
      rw [hall]
      cases hcommit : server.commit (src.size ⌈/⌉ blockSize) with
      | some after =>
          refine iff_of_true ?_ (Or.inr (by simp))
          have hsource := commit_is_source src blockSize server after positive hown hcommit
          have hsent : server.putBlockList (src.size ⌈/⌉ blockSize) .accept = (after, none) := by
            simp only [AzureServer.putBlockList, hcommit, AzureServer.request]
          simp only [commitBlocks, hsent] at hattempt
          rw [heals_iff_of_ok _ _ _ _ (congrArg Prod.fst hattempt), hattempt]
          exact hsource.1
      | none =>
          have hsent : server.putBlockList (src.size ⌈/⌉ blockSize) .accept =
              (server, some (some 400)) := by
            simp only [AzureServer.putBlockList, hcommit]
          simp only [ne_eq, not_true_eq_false, or_false]
          by_cases sized : SameSize src state.1
          · obtain ⟨other, hobject, hsize⟩ := sized
            have hok : blobCommittedAtSize server src.size .seen = .ok true := by
              simp [blobCommittedAtSize, hkept, hobject, hsize]
            simp only [commitBlocks, hsent, hok] at hattempt
            rw [heals_iff_of_ok _ _ _ _ (congrArg Prod.fst hattempt), hattempt]
            simp only [Full, hkept]
          · have hok : blobCommittedAtSize server src.size .seen = .ok false := by
              unfold blobCommittedAtSize
              rw [hkept]
              cases hobject : state.1.object with
              | none => rfl
              | some other =>
                  have hne : ¬other.length = src.size := fun eq => sized ⟨other, hobject, eq⟩
                  simp [hne]
            simp only [commitBlocks, hsent, hok] at hattempt
            refine iff_of_false ?_ ?_
            · rw [heals_iff_of_err _ _ _ _ (congrArg Prod.fst hattempt)]
              exact fun heals => absurd heals.1 (by decide)
            · intro full
              exact sized ⟨_, full, rfl⟩

end FileReplicator.AzureResume
