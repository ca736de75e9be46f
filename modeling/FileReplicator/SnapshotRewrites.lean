import FileReplicator.SnapshotDelivery

/-!
# When a rewrite splices a delivery

The instants, sizes and times of the rewrites alone decide whether a delivery can
publish a splice. The reads may then fall anywhere, resume anything and see any
content.
-/

namespace FileReplicator.SnapshotRewrites

open Domain SourceFile ByteRanges SnapshotDelivery

section Stats

variable (tl : Timeline)

/-- The `(size, mtime)` differs at the two instants. -/
def Changed (i j : Nat) : Prop :=
  (tl.version i).size ≠ (tl.version j).size ∨ (tl.version i).mtimeMs ≠ (tl.version j).mtimeMs

theorem changed_iff (i j : Nat) : Changed tl i j ↔
    (tl.version i).size ≠ (tl.version j).size ∨ (tl.version i).mtimeMs ≠ (tl.version j).mtimeMs :=
  Iff.rfl

instance (i j : Nat) : Decidable (Changed tl i j) :=
  inferInstanceAs (Decidable (_ ∨ _))

/-- The same rewrites at the same instants, of any content. -/
def Alike (other : Timeline) : Prop :=
  ∀ i, (other.version i).size = (tl.version i).size ∧
    (other.version i).mtimeMs = (tl.version i).mtimeMs

theorem changed_alike (other : Timeline) (alike : Alike tl other) (i j : Nat) :
    Changed other i j ↔ Changed tl i j := by
  obtain ⟨hsize, hmtime⟩ := alike i
  obtain ⟨hsize', hmtime'⟩ := alike j
  rw [changed_iff, changed_iff, hsize, hmtime, hsize', hmtime']

theorem version_of_unchanged (i j : Nat) (le : i ≤ j) (same : ¬Changed tl i j) :
    tl.version j = tl.version i := by
  simp only [changed_iff, not_or, not_not] at same
  exact tl.fresh i j j le (Nat.le_refl _) same.1 same.2

theorem changed_later (i j k : Nat) (first : i ≤ j) (second : j ≤ k) (changed : Changed tl i j) :
    Changed tl i k := by
  by_contra same
  simp only [changed_iff, not_or, not_not] at same
  have hsame := tl.fresh i j k first second same.1 same.2
  rw [changed_iff, hsame] at changed
  simp at changed

/-- `deliver` and `verify` both `Ok`: the object is the source at some instant of the call,
whatever the rewrites wrote. -/
def Faithful (start : Nat) (digest : Bytes → Checksum) (sized : Bool) (policy : Verify)
    (delivers : Timeline → Published → Prop) : Prop :=
  ∀ other, Alike tl other → ∀ pub, delivers other pub → accepts digest sized other pub policy = true →
    Snapshot other start pub

end Stats

/-! ## Deliveries of one version -/

attribute [local simp] readLoop

section Loops

variable (tl : Timeline)

theorem read_loop_order (accesses : List Access) (limit : Option Nat) (now offset : Nat)
    (out : Nat × List Read × List Access) (ran : readLoop tl limit now offset accesses = some out) :
    out.2.1.Pairwise (fun r later => r.instant ≤ later.instant) ∧ ∀ r ∈ out.2.1, 0 < r.length := by
  induction accesses generalizing limit now offset out with
  | nil =>
      rw [readLoop] at ran
      split at ran
      · rw [← Option.some.inj ran]
        exact ⟨List.Pairwise.nil, by simp⟩
      · simp at ran
  | cons access rest ih =>
      rw [readLoop] at ran
      split at ran
      · rw [← Option.some.inj ran]
        exact ⟨List.Pairwise.nil, by simp⟩
      · simp only at ran
        split at ran
        · rw [← Option.some.inj ran]
          exact ⟨List.Pairwise.nil, by simp⟩
        · rename_i some_read
          obtain ⟨later, hlater, rfl⟩ := Option.map_eq_some_iff.mp ran
          obtain ⟨hordered, hpositive⟩ := ih _ _ _ later hlater
          obtain ⟨_, _, hreads, _⟩ := read_loop_spec tl rest _ _ _ later hlater
          refine ⟨List.Pairwise.cons (fun r member => (hreads r member).1) hordered, ?_⟩
          intro r member
          rcases List.mem_cons.mp member with rfl | after
          · exact Nat.pos_of_ne_zero some_read
          · exact hpositive r after

theorem read_loop_end (accesses : List Access) (now offset : Nat)
    (out : Nat × List Read × List Access) (ran : readLoop tl none now offset accesses = some out) :
    (tl.version out.1).size ≤ offset + extent out.2.1 := by
  induction accesses generalizing now offset out with
  | nil => simp at ran
  | cons access rest ih =>
      simp only [readLoop, reduceCtorEq, if_false] at ran
      split at ran
      · rename_i nothing
        rw [← Option.some.inj ran]
        rw [slice_length] at nothing
        simp only [extent, List.map_nil, List.sum_nil, Source.size]
        have hchunk : 0 < TempUpload.chunkSize := by decide
        simp only [Option.getD_none] at nothing
        omega
      · obtain ⟨later, hlater, rfl⟩ := Option.map_eq_some_iff.mp ran
        have hend := ih _ _ later hlater
        have hextent (r : Read) : extent (r :: later.2.1) = r.length + extent later.2.1 := by
          simp [extent]
        rw [hextent]
        simp only
        omega

/-- A loop that is past every later version's end can only read on in the one it is in. -/
theorem read_loop_version (i : Nat) (accesses : List Access) (now offset : Nat)
    (out : Nat × List Read × List Access) (ran : readLoop tl none now offset accesses = some out)
    (since : i ≤ now) (inside : offset ≤ (tl.version i).size)
    (late : ∀ j, now ≤ j → Changed tl i j →
      (tl.version i).size ≤ offset ∧ (tl.version j).size ≤ offset) :
    (∀ r ∈ out.2.1, tl.version r.instant = tl.version i) ∧
      offset + extent out.2.1 = (tl.version i).size := by
  induction accesses generalizing now offset out with
  | nil => simp at ran
  | cons access rest ih =>
      simp only [readLoop, reduceCtorEq, if_false] at ran
      have hchunk : 0 < TempUpload.chunkSize := by decide
      split at ran
      · rename_i nothing
        rw [← Option.some.inj ran]
        refine ⟨by simp, ?_⟩
        rw [slice_length] at nothing
        simp only [Option.getD_none] at nothing
        simp only [extent, List.map_nil, List.sum_nil]
        by_cases changed : Changed tl i (now + access.wait)
        · have hends := late (now + access.wait) (by omega) changed
          omega
        · rw [version_of_unchanged tl i _ (by omega) changed] at nothing
          unfold Source.size at inside ⊢
          omega
      · rename_i some_read
        obtain ⟨later, hlater, rfl⟩ := Option.map_eq_some_iff.mp ran
        have hgot := slice_length (tl.version (now + access.wait)).bytes offset
          (min (min (max access.count 1) TempUpload.chunkSize)
            ((none : Option Nat).getD (min (max access.count 1) TempUpload.chunkSize)))
        have hsame : tl.version (now + access.wait) = tl.version i := by
          refine version_of_unchanged tl i _ (by omega) fun changed => some_read ?_
          have hends := (late (now + access.wait) (by omega) changed).2
          unfold Source.size at hends
          omega
        simp only [Option.map_none] at hlater ⊢
        rw [hsame] at hgot hlater some_read ⊢
        obtain ⟨hreads, hextent⟩ := ih _ _ later hlater (by omega)
          (by unfold Source.size at inside ⊢; omega)
          fun j after changed => by
            have hends := late j (by omega) changed
            omega
        refine ⟨?_, ?_⟩
        · intro r member
          rcases List.mem_cons.mp member with rfl | after
          · exact hsame
          · exact hreads r after
        · rw [← hextent]
          simp only [extent, List.map_cons, List.sum_cons]
          omega

theorem reads_nil (reads : List Read) (positive : ∀ r ∈ reads, 0 < r.length)
    (nothing : extent reads = 0) : reads = [] := by
  cases reads with
  | nil => rfl
  | cons r rest =>
      have hone := positive r (by simp)
      simp only [extent, List.map_cons, List.sum_cons] at nothing
      omega

theorem contiguous_full (reads : List Read) (offset : Nat) (chain : Contiguous tl offset reads) :
    ∀ r ∈ reads, (r.bytes tl).length = r.length := by
  induction reads generalizing offset with
  | nil => simp
  | cons r rest ih =>
      intro other member
      rcases List.mem_cons.mp member with rfl | after
      · exact chain.2.1
      · exact ih _ chain.2.2 other after

theorem contiguous_last (front : List Read) (last : Read) (offset : Nat)
    (chain : Contiguous tl offset (front ++ [last])) : last.offset = offset + extent front := by
  induction front generalizing offset with
  | nil => exact chain.1
  | cons r rest ih =>
      rw [ih (offset + r.length) chain.2.2]
      simp only [extent, List.map_cons, List.sum_cons]
      omega

theorem assemble_version (v : Source) (reads : List Read) (chain : Contiguous tl 0 reads)
    (whole : extent reads = v.size) (same : ∀ r ∈ reads, tl.version r.instant = v) :
    assemble tl reads = v.bytes := by
  refine (assemble_eq_iff tl _ reads chain).mpr ⟨whole.symm, fun r member => ?_⟩
  rw [Read.bytes, same r member]

end Loops

/-! ## Rewrites that no delivery can splice -/

/-- The first version that is read has one byte at most, or stays. -/
def LocalQuiet (tl : Timeline) (start : Nat) : Prop :=
  ∀ i j, start ≤ i → i ≤ j → Changed tl i j →
    (tl.version i).size = 0 ∨ (tl.version i).size = 1 ∧ (tl.version j).size ≤ 1

/-- No rewrite is long enough to be read to the end of the first version. -/
def RangesQuiet (tl : Timeline) (start : Nat) : Prop :=
  (tl.version start).size = 0 ∨
    ∀ j, start ≤ j → Changed tl start j → (tl.version j).size < max (tl.version start).size 2

/-- After a rewrite that is long enough, the file never gets as short as the first version. -/
def TempQuiet (tl : Timeline) (start : Nat) : Prop :=
  (tl.version start).size = 0 ∨
    ∀ j e, start ≤ j → j ≤ e → Changed tl start j →
      max (tl.version start).size 2 ≤ (tl.version j).size →
        (tl.version start).size < (tl.version e).size

section Sufficient

variable (tl : Timeline) (start : Nat)

theorem local_snapshot (quiet : LocalQuiet tl start) (accesses : List Access) (pub : Published)
    (delivered : deliverLocal tl start accesses = some (.ok pub)) : Snapshot tl start pub := by
  have chain := local_contiguous tl start accesses pub delivered
  obtain ⟨out, ran, hpub⟩ := Option.map_eq_some_iff.mp delivered
  rw [← Except.ok.inj hpub] at chain ⊢
  cases accesses with
  | nil => simp at ran
  | cons access rest =>
      have hend := read_loop_end tl _ _ _ _ ran
      simp only [readLoop, reduceCtorEq, if_false] at ran
      split at ran
      · rename_i nothing
        rw [← Option.some.inj ran] at hend chain ⊢
        refine ⟨start + access.wait, Nat.le_add_right _ _, Nat.le_refl _, ?_⟩
        refine assemble_version tl _ [] chain ?_ (by simp)
        simp only [extent, List.map_nil, List.sum_nil] at hend ⊢
        omega
      · rename_i some_read
        obtain ⟨later, hlater, rfl⟩ := Option.map_eq_some_iff.mp ran
        have hgot := slice_length (tl.version (start + access.wait)).bytes 0
          (min (min (max access.count 1) TempUpload.chunkSize)
            ((none : Option Nat).getD (min (max access.count 1) TempUpload.chunkSize)))
        generalize hlen : (slice (tl.version (start + access.wait)).bytes 0 _).length = got at *
        have hinside : 0 + got ≤ (tl.version (start + access.wait)).size := by
          unfold Source.size
          omega
        obtain ⟨hreads, hextent⟩ := read_loop_version tl (start + access.wait) rest _ _ later hlater
          (Nat.le_refl _) hinside fun j after changed => by
            have hquiet := quiet (start + access.wait) j (by omega) after changed
            omega
        have hlater := (read_loop_spec tl rest _ _ _ later hlater).2.1
        refine ⟨start + access.wait, Nat.le_add_right _ _, hlater, ?_⟩
        refine assemble_version tl _ _ chain ?_ ?_
        · rw [← hextent]
          simp [extent]
        · intro r member
          rcases List.mem_cons.mp member with rfl | after
          · rfl
          · exact hreads r after

/-- Reads of this call that end with the last byte of the first version, behind a head of that
version: one version gave them all, or the last one came from a rewrite that is long enough. -/
theorem snapshot_or_rewritten (head reads : List Read) (ended : Nat)
    (headChain : Contiguous tl 0 head)
    (headSame : ∀ r ∈ head, tl.version r.instant = tl.version start ∧ 0 < r.length)
    (chain : Contiguous tl (extent head) reads)
    (whole : extent head + extent reads = (tl.version start).size)
    (later : start ≤ ended)
    (inCall : ∀ r ∈ reads, start ≤ r.instant ∧ r.instant ≤ ended ∧
      r.offset + r.length ≤ (tl.version r.instant).size)
    (ordered : reads.Pairwise fun r later => r.instant ≤ later.instant)
    (positive : ∀ r ∈ reads, 0 < r.length) (bytes : Nat) (hashed : Bytes) :
    Snapshot tl start ⟨head ++ reads, bytes, hashed, ended⟩ ∨
      0 < (tl.version start).size ∧ ∃ j, start ≤ j ∧ j ≤ ended ∧ Changed tl start j ∧
        max (tl.version start).size 2 ≤ (tl.version j).size := by
  have hchain := contiguous_append tl head reads 0 headChain (by rw [Nat.zero_add]; exact chain)
  by_cases same : ∀ r ∈ reads, tl.version r.instant = tl.version start
  · refine Or.inl ⟨start, Nat.le_refl _, later, assemble_version tl _ _ hchain ?_ ?_⟩
    · rw [extent_append, whole]
    · intro r member
      rcases List.mem_append.mp member with inHead | inReads
      · exact (headSame r inHead).1
      · exact same r inReads
  · simp only [not_forall] at same
    obtain ⟨r, member, different⟩ := same
    obtain ⟨front, last, rfl⟩ : ∃ front last, reads = front ++ [last] :=
      (List.eq_nil_or_concat' reads).resolve_left fun none => by simp [none] at member
    obtain ⟨hlow, hhigh, hinside⟩ := inCall last (by simp)
    have hafter : r.instant ≤ last.instant := by
      rcases List.mem_append.mp member with inFront | isLast
      · exact (List.pairwise_append.mp ordered).2.2 r inFront last (by simp)
      · rw [List.mem_singleton.mp isLast]
    have hchanged : Changed tl start last.instant := by
      refine changed_later tl start r.instant _ (inCall r member).1 hafter ?_
      by_contra unchanged
      exact different (version_of_unchanged tl start _ (inCall r member).1 unchanged)
    have hends : last.offset + last.length = (tl.version start).size := by
      have hlast := contiguous_last tl front last _ chain
      rw [hlast, ← whole, extent_append]
      simp only [extent, List.map_cons, List.map_nil, List.sum_cons, List.sum_nil]
      omega
    have hone := positive last (by simp)
    by_cases long : 2 ≤ (tl.version last.instant).size
    · exact Or.inr ⟨by omega, last.instant, hlow, hhigh, hchanged, by omega⟩
    · -- one byte, and it is the whole of the version it came from
      refine Or.inl ⟨last.instant, hlow, hhigh, assemble_version tl _ _ hchain ?_ ?_⟩
      · rw [extent_append, whole]
        omega
      · have hlast := contiguous_last tl front last _ chain
        have hhead := reads_nil head (fun r inHead => (headSame r inHead).2) (by omega)
        have hfront := reads_nil front (fun r inFront => positive r (by simp [inFront])) (by omega)
        rw [hhead, hfront]
        simp

theorem resumed_reads_same (resume : Option Resume) :
    ∀ r ∈ resumedReads tl start resume,
      tl.version r.instant = tl.version start ∧ 0 < r.length := by
  intro r member
  unfold resumedReads at member
  cases resume with
  | none => simp at member
  | some earlier =>
      simp only at member
      split at member
      · simp at member
      · rename_i some_head
        rw [List.mem_singleton.mp member]
        refine ⟨?_, Nat.pos_of_ne_zero some_head⟩
        simp only [resumeOffset] at some_head
        split at some_head
        · rename_i usable
          exact (tl.fresh earlier.earlier start start usable.1 (Nat.le_refl _) usable.2.1
            usable.2.2).symm
        · exact absurd rfl some_head

theorem temp_snapshot (quiet : TempQuiet tl start) (flavor : TempUpload.Flavor)
    (resume : Option Resume) (accesses : List Access) (pub : Published)
    (delivered : deliverTemp tl start flavor resume accesses = some (.ok pub)) :
    Snapshot tl start pub := by
  have whole := temp_contiguous tl start flavor resume accesses pub delivered
  unfold deliverTemp at delivered
  simp only at delivered
  split at delivered
  · simp at delivered
  · rename_i opened head rest hhead
    obtain ⟨out, ran, hpub⟩ := Option.map_eq_some_iff.mp delivered
    split at hpub
    · simp at hpub
    · rename_i total
      rw [← Except.ok.inj hpub] at whole ⊢
      obtain ⟨hheadChain, hheadExtent⟩ := resumed_reads_spec tl start resume
      obtain ⟨hchain, hlater, hreads, _⟩ := read_loop_spec tl rest none opened _ out ran
      obtain ⟨hordered, hpositive⟩ := read_loop_order tl rest none opened _ out ran
      have hopened : start ≤ opened := (read_loop_spec tl accesses _ start 0 _ hhead).2.1
      have hend := read_loop_end tl rest opened _ out ran
      rw [← hheadExtent] at hchain hend total
      have htotal := not_not.mp total
      refine (snapshot_or_rewritten tl start _ out.2.1 out.1 hheadChain
        (resumed_reads_same tl start resume) hchain htotal (by omega) ?_ hordered hpositive
        _ _).resolve_right ?_
      · intro r member
        obtain ⟨hlow, hhigh, hinside⟩ := hreads r member
        exact ⟨by omega, hhigh, hinside⟩
      · rintro ⟨some_byte, j, hlow, hhigh, changed, long⟩
        have hlong := quiet.resolve_left (by omega) j out.1 hlow hhigh changed long
        omega

/-- What the chunk loop sends: the rest of the file as it was planned, at ascending instants. -/
theorem send_ranges_spec (path : String) (chunkBytes : UInt64) (size : Nat) (small : size < word)
    (fuel now committed : Nat) (accesses : List Access) (out : Nat × List Read)
    (enough : size - committed ≤ fuel) (inside : committed ≤ size)
    (sent : sendRanges tl path chunkBytes.toNat size fuel now committed accesses = some (.ok out)) :
    committed + extent out.2 = size ∧ now ≤ out.1 ∧
      (∀ r ∈ out.2, now ≤ r.instant ∧ r.instant ≤ out.1 ∧
        r.offset + r.length ≤ (tl.version r.instant).size) ∧
      out.2.Pairwise (fun r later => r.instant ≤ later.instant) ∧ ∀ r ∈ out.2, 0 < r.length := by
  induction fuel generalizing now committed accesses out with
  | zero =>
      rw [sendRanges] at sent
      rw [← Except.ok.inj (Option.some.inj sent)]
      refine ⟨?_, Nat.le_refl _, by simp, List.Pairwise.nil, by simp⟩
      simp only [extent, List.map_nil, List.sum_nil]
      omega
  | succ fuel ih =>
      rw [sendRanges] at sent
      split at sent
      · rw [← Except.ok.inj (Option.some.inj sent)]
        refine ⟨?_, Nat.le_refl _, by simp, List.Pairwise.nil, by simp⟩
        simp only [extent, List.map_nil, List.sum_nil]
        omega
      · rename_i unfinished
        simp only at sent
        split at sent
        · simp at sent
        · simp at sent
        · rename_i later reads rest hrange
          split at sent
          · simp at sent
          · simp at sent
          · rename_i ended more hmore
            rw [← Except.ok.inj (Option.some.inj sent)]
            obtain ⟨hchain, hwhole, hinside⟩ := read_range_spec tl path _ _ _ _ _ hrange
            obtain ⟨loop, hloop, hout⟩ := Option.map_eq_some_iff.mp hrange
            split at hout
            · obtain ⟨hordered, hpositive⟩ := read_loop_order tl accesses _ _ _ loop hloop
              obtain ⟨_, hlater, hreads, _⟩ := read_loop_spec tl accesses _ _ _ loop hloop
              rw [Except.ok.inj hout] at hordered hpositive hlater hreads
              obtain ⟨hnext, hpos, hbelow⟩ := next_range tl chunkBytes committed size reads
                (by omega) small hchain hinside hwhole
              rw [hnext] at hmore
              obtain ⟨htotal, hended, hmoreReads, hmoreOrdered, hmorePositive⟩ :=
                ih later _ rest _ (by omega) hbelow hmore
              refine ⟨?_, by simp only at hlater hended ⊢; omega, ?_, ?_, ?_⟩
              · rw [extent_append]
                simp only at htotal
                omega
              · intro r member
                rcases List.mem_append.mp member with first | second
                · obtain ⟨hlow, hhigh, hfits⟩ := hreads r first
                  exact ⟨hlow, Nat.le_trans hhigh hended, hfits⟩
                · obtain ⟨hlow, hhigh, hfits⟩ := hmoreReads r second
                  exact ⟨Nat.le_trans hlater hlow, hhigh, hfits⟩
              · exact List.pairwise_append.mpr ⟨hordered, hmoreOrdered, fun r first next second =>
                  Nat.le_trans (hreads r first).2.1 (hmoreReads next second).1⟩
              · intro r member
                exact (List.mem_append.mp member).elim (hpositive r) (hmorePositive r)
            · simp at hout

theorem ranges_snapshot (quiet : RangesQuiet tl start) (path : String) (chunkBytes : UInt64)
    (resume : Option Resume) (accesses : List Access) (pub : Published)
    (delivered : deliverRanges tl start path chunkBytes.toNat resume accesses = some (.ok pub)) :
    Snapshot tl start pub := by
  unfold deliverRanges at delivered
  simp only at delivered
  split at delivered
  · simp at delivered
  · rename_i opened head rest hhead
    split at delivered
    · simp at delivered
    · simp at delivered
    · rename_i ended reads hsent
      rw [← Except.ok.inj (Option.some.inj delivered)]
      obtain ⟨hheadChain, hheadExtent⟩ := resumed_reads_spec tl start resume
      have hopened : start ≤ opened := (read_loop_spec tl accesses _ start 0 _ hhead).2.1
      have hchain := send_ranges_contiguous tl path chunkBytes _ (size_lt_word _) _ _ _ _ _ hsent
      obtain ⟨htotal, hended, hreads, hordered, hpositive⟩ := send_ranges_spec tl path chunkBytes _
        (size_lt_word _) _ _ _ _ _ (Nat.le_refl _) (resume_offset_le tl start resume) hsent
      rw [← hheadExtent] at hchain htotal
      refine (snapshot_or_rewritten tl start _ reads ended hheadChain
        (resumed_reads_same tl start resume) hchain htotal (Nat.le_trans hopened hended) ?_ hordered
        hpositive _ _).resolve_right ?_
      · intro r member
        obtain ⟨hlow, hhigh, hinside⟩ := hreads r member
        exact ⟨Nat.le_trans hopened hlow, hhigh, hinside⟩
      · rintro ⟨some_byte, j, hlow, _, changed, long⟩
        have hshort := quiet.resolve_left (by omega) j hlow changed
        omega

end Sufficient

/-! ## Rewrites that some delivery splices -/

section Necessary

variable (tl : Timeline) (t : Nat)

/-- The versions of one `(size, mtime)` are zeros, all others ones. -/
def colour (i : Nat) : UInt8 := if Changed tl t i then 1 else 0

def painted : Timeline where
  version := fun i =>
    ⟨List.replicate (tl.version i).size (colour tl t i), (tl.version i).mtimeMs, by
      rw [List.length_replicate]
      exact (tl.version i).fits⟩
  fresh := by
    intro i j k low high size mtime
    simp only [Source.size, List.length_replicate] at size
    have hsame : tl.version j = tl.version i := tl.fresh i j k low high size mtime
    have hcolour : colour tl t j = colour tl t i :=
      if_congr (by rw [changed_iff, changed_iff, hsame]) rfl rfl
    simp only [hsame, hcolour]

theorem painted_alike : Alike tl (painted tl t) := by
  intro i
  exact ⟨by simp [painted, Source.size], rfl⟩

theorem colour_eq_zero_iff (i : Nat) : colour tl t i = 0 ↔ ¬Changed tl t i := by
  unfold colour
  split <;> simp_all

theorem painted_bytes (r : Read) :
    r.bytes (painted tl t) =
      List.replicate (min r.length ((tl.version r.instant).size - r.offset))
        (colour tl t r.instant) := by
  simp [Read.bytes, slice, painted, List.drop_replicate, List.take_replicate]

theorem painted_read (r : Read) (instant : Nat)
    (full : (r.bytes (painted tl t)).length = r.length) (positive : 0 < r.length)
    (agree : r.bytes (painted tl t) = slice ((painted tl t).version instant).bytes r.offset r.length) :
    colour tl t r.instant = colour tl t instant := by
  have hslice : slice ((painted tl t).version instant).bytes r.offset r.length =
      Read.bytes (painted tl t) ⟨instant, r.offset, r.length⟩ := rfl
  rw [painted_bytes, List.length_replicate] at full
  rw [hslice, painted_bytes, painted_bytes, List.replicate_inj] at agree
  exact agree.2.resolve_left (by omega)

/-- A snapshot that holds a byte read at `t` is of the version in place at `t`. -/
theorem painted_snapshot (start : Nat) (pub : Published)
    (chain : Contiguous (painted tl t) 0 pub.reads) (r : Read) (member : r ∈ pub.reads)
    (here : r.instant = t) (positive : ∀ r ∈ pub.reads, 0 < r.length)
    (snapshot : Snapshot (painted tl t) start pub) :
    extent pub.reads = (tl.version t).size ∧
      ∀ other ∈ pub.reads, ¬Changed tl t other.instant := by
  obtain ⟨instant, _, _, same⟩ := snapshot
  obtain ⟨hlength, hreads⟩ := (assemble_eq_iff _ _ _ chain).mp same
  have hcolour (other : Read) (among : other ∈ pub.reads) :
      colour tl t other.instant = colour tl t instant :=
    painted_read tl t other instant (contiguous_full _ _ 0 chain other among) (positive other among)
      (hreads other among)
  have hself : colour tl t t = 0 := (colour_eq_zero_iff tl t t).mpr (by simp [changed_iff])
  have hinstant : colour tl t instant = 0 := by rw [← hcolour r member, here, hself]
  refine ⟨?_, fun other among => ?_⟩
  · have hsame := (colour_eq_zero_iff tl t instant).mp hinstant
    simp only [changed_iff, not_or, not_not] at hsame
    rw [← hlength, hsame.1]
    simp [painted]
  · rw [← colour_eq_zero_iff, hcolour other among, hinstant]

end Necessary

/-! ## Reads of one byte each -/

section Bytewise

variable (tl : Timeline)

/-- One read call for each byte, after the given waits. -/
def bytewise (waits : List Nat) : List Access := waits.map fun wait => ⟨wait, 1⟩

def byteReads (now offset : Nat) : List Nat → List Read
  | [] => []
  | wait :: waits => ⟨now + wait, offset, 1⟩ :: byteReads (now + wait) (offset + 1) waits

def Covered (now offset : Nat) : List Nat → Prop
  | [] => True
  | wait :: waits =>
      offset < (tl.version (now + wait)).size ∧ Covered (now + wait) (offset + 1) waits

theorem read_bytewise (waits : List Nat) (limit : Option Nat) (now offset : Nat)
    (rest : List Access) (covered : Covered tl now offset waits)
    (allowed : ∀ most, limit = some most → waits.length ≤ most) :
    readLoop tl limit now offset (bytewise waits ++ rest) =
      (readLoop tl (limit.map (· - waits.length)) (now + waits.sum) (offset + waits.length) rest).map
        fun out => (out.1, byteReads now offset waits ++ out.2.1, out.2.2) := by
  induction waits generalizing limit now offset with
  | nil => cases limit <;> simp [bytewise, byteReads]
  | cons wait waits ih =>
      obtain ⟨hsize, hrest⟩ := covered
      have hopen : limit ≠ some 0 := by
        rintro rfl
        have hmost := allowed 0 rfl
        simp at hmost
      have hwant : min (min (max 1 1) TempUpload.chunkSize)
          (limit.getD (min (max 1 1) TempUpload.chunkSize)) = 1 := by
        cases limit with
        | none => decide
        | some most =>
            have hmost : most ≠ 0 := fun zero => hopen (by rw [zero])
            have hone : min (max 1 1) TempUpload.chunkSize = 1 := by decide
            rw [hone, Option.getD_some]
            omega
      have hgot : (slice (tl.version (now + wait)).bytes offset 1).length = 1 := by
        rw [slice_length]
        unfold Source.size at hsize
        omega
      have hnext := ih (limit.map (· - 1)) (now + wait) (offset + 1) hrest (by
        intro most bound
        obtain ⟨before, hbefore, rfl⟩ := Option.map_eq_some_iff.mp bound
        have hmost := allowed before hbefore
        rw [List.length_cons] at hmost
        omega)
      have hcons : bytewise (wait :: waits) ++ rest = ⟨wait, 1⟩ :: (bytewise waits ++ rest) := rfl
      rw [hcons, readLoop, if_neg hopen]
      simp only [hwant, hgot, Nat.one_ne_zero, if_false]
      rw [hnext, Option.map_map, Option.map_map]
      have hlimit : ((fun x => x - waits.length) ∘ fun x => x - 1) =
          fun x => x - (wait :: waits).length := by
        funext x
        simp only [Function.comp_apply, List.length_cons]
        omega
      rw [hlimit, List.sum_cons, List.length_cons, Nat.add_assoc, Nat.add_assoc,
        Nat.add_comm 1 waits.length]
      rfl

theorem extent_byte_reads (waits : List Nat) (now offset : Nat) :
    extent (byteReads now offset waits) = waits.length := by
  induction waits generalizing now offset with
  | nil => rfl
  | cons wait waits ih =>
      have htail := ih (now + wait) (offset + 1)
      simp only [extent, byteReads, List.map_cons, List.sum_cons, List.length_cons] at htail ⊢
      omega

theorem byte_reads_positive (waits : List Nat) (now offset : Nat) :
    ∀ r ∈ byteReads now offset waits, 0 < r.length := by
  induction waits generalizing now offset with
  | nil => simp [byteReads]
  | cons wait waits ih =>
      intro r member
      rcases List.mem_cons.mp member with rfl | after
      · exact Nat.one_pos
      · exact ih _ _ r after

theorem byte_reads_append (waits more : List Nat) (now offset : Nat) :
    byteReads now offset (waits ++ more) =
      byteReads now offset waits ++ byteReads (now + waits.sum) (offset + waits.length) more := by
  induction waits generalizing now offset with
  | nil => rfl
  | cons wait waits ih =>
      rw [List.cons_append, byteReads, ih, byteReads, List.cons_append, List.sum_cons,
        List.length_cons, Nat.add_assoc now, Nat.add_assoc offset, Nat.add_comm 1 waits.length]

theorem covered_append (waits more : List Nat) (now offset : Nat) :
    Covered tl now offset (waits ++ more) ↔
      Covered tl now offset waits ∧
        Covered tl (now + waits.sum) (offset + waits.length) more := by
  induction waits generalizing now offset with
  | nil => simp [Covered]
  | cons wait waits ih =>
      rw [List.cons_append, Covered, ih, Covered, List.sum_cons, List.length_cons,
        Nat.add_assoc now, Nat.add_assoc offset, Nat.add_comm 1 waits.length, and_assoc]

/-- Byte after byte up to the end of the file, which is found after one more wait. -/
theorem read_to_end (waits : List Nat) (wait now offset : Nat)
    (covered : Covered tl now offset waits)
    (ends : (tl.version (now + waits.sum + wait)).size ≤ offset + waits.length) :
    readLoop tl none now offset (bytewise waits ++ [⟨wait, 1⟩]) =
      some (now + waits.sum + wait, byteReads now offset waits, []) := by
  have hnothing (count : Nat) :
      (slice (tl.version (now + waits.sum + wait)).bytes (offset + waits.length) count).length =
        0 := by
    rw [slice_length]
    unfold Source.size at ends
    omega
  rw [read_bytewise tl waits none now offset _ covered (by simp), Option.map_none, readLoop]
  simp [hnothing]

theorem read_to_limit (waits more : List Nat) (now offset : Nat)
    (covered : Covered tl now offset waits) :
    readLoop tl (some waits.length) now offset (bytewise waits ++ bytewise more) =
      some (now + waits.sum, byteReads now offset waits, bytewise more) := by
  rw [read_bytewise tl waits _ now offset _ covered fun most bound => by
    rw [Option.some.inj bound]]
  have hstop : readLoop tl (some 0) (now + waits.sum) (offset + waits.length) (bytewise more) =
      some (now + waits.sum, [], bytewise more) := by
    cases bytewise more <;> simp
  rw [Option.map_some, Nat.sub_self, hstop]
  simp

theorem send_bytewise (path : String) (chunkBytes : Nat) (src : Source) (fuel now committed : Nat)
    (waits : List Nat) (enough : src.size - committed ≤ fuel)
    (whole : waits.length = src.size - committed) (covered : Covered tl now committed waits)
    (inRange : committed < src.size → ChunkBounds.InRange chunkBytes committed) :
    ∃ ended, sendRanges tl path chunkBytes src.size fuel now committed (bytewise waits) =
      some (.ok (ended, byteReads now committed waits)) := by
  induction fuel generalizing now committed waits with
  | zero =>
      have hnone : waits = [] := List.length_eq_zero_iff.mp (by omega)
      rw [hnone]
      exact ⟨now, rfl⟩
  | succ fuel ih =>
      rw [sendRanges]
      by_cases done : src.size ≤ committed
      · have hnone : waits = [] := List.length_eq_zero_iff.mp (by omega)
        rw [if_pos done, hnone]
        exact ⟨now, rfl⟩
      · rw [if_neg done]
        have hrange := inRange (by omega)
        have hbounds := ChunkBounds.chunk_bounds_fit committed chunkBytes src.size hrange (by omega)
        have hlen := ChunkBounds.chunk_len_fit committed chunkBytes src.size hrange (by omega)
        generalize hl : min (committed + max chunkBytes 1) src.size - committed = l at hlen
        have hsplit : bytewise waits = bytewise (waits.take l) ++ bytewise (waits.drop l) := by
          simp only [bytewise, ← List.map_append, List.take_append_drop]
        have hfirst : (waits.take l).length = l := by
          rw [List.length_take]
          omega
        rw [← List.take_append_drop l waits] at covered
        obtain ⟨hcovered, hmoreCovered⟩ := (covered_append tl _ _ now committed).mp covered
        have hread := read_to_limit tl (waits.take l) (waits.drop l) now committed hcovered
        rw [hfirst] at hread hmoreCovered
        have hnext : (ChunkBounds.chunkBounds committed chunkBytes src.size).2 + 1 =
            committed + l := by
          rw [hbounds]
          simp only
          omega
        obtain ⟨ended, hmore⟩ := ih (now + (waits.take l).sum) (committed + l) (waits.drop l)
          (by omega) (by rw [List.length_drop]; omega) hmoreCovered fun left => by
            have hin := ChunkBounds.in_range_next chunkBytes src committed
            unfold ChunkBounds.nextOffset at hin
            have hoffset : min (committed + max chunkBytes 1) src.size = committed + l := by omega
            rw [hoffset] at hin
            exact hin left
        refine ⟨ended, ?_⟩
        have hstart : (ChunkBounds.chunkBounds committed chunkBytes src.size).1 = committed := rfl
        have hextent := extent_byte_reads (waits.take l) now committed
        rw [hfirst] at hextent
        simp only [hsplit, readRange, hlen, hstart, hread, Option.map_some, hextent, if_true,
          hnext, hmore]
        have hreads := byte_reads_append (waits.take l) (waits.drop l) now committed
        rw [List.take_append_drop, hfirst] at hreads
        rw [hreads]

end Bytewise

section Splices

variable (tl : Timeline)

/-- One byte at instant `i`, the other `n - 1` at instant `j`. -/
def spliceWaits (now i j n : Nat) : List Nat :=
  (i - now) :: (j - i) :: List.replicate (n - 2) 0

theorem splice_length (now i j n : Nat) (two : 2 ≤ n) : (spliceWaits now i j n).length = n := by
  simp only [spliceWaits, List.length_cons, List.length_replicate]
  omega

theorem splice_sum (now i j n : Nat) (first : now ≤ i) (second : i ≤ j) :
    now + (spliceWaits now i j n).sum = j := by
  simp only [spliceWaits, List.sum_cons, List.sum_replicate_nat, Nat.mul_zero]
  omega

theorem covered_still (now offset count : Nat) (inside : offset + count ≤ (tl.version now).size) :
    Covered tl now offset (List.replicate count 0) := by
  induction count generalizing offset with
  | zero => trivial
  | succ count ih =>
      refine ⟨?_, ih (offset + 1) (by omega)⟩
      rw [Nat.add_zero]
      omega

theorem covered_splice (now i j n : Nat) (first : now ≤ i) (second : i ≤ j) (two : 2 ≤ n)
    (some_byte : 0 < (tl.version i).size) (long : n ≤ (tl.version j).size) :
    Covered tl now 0 (spliceWaits now i j n) := by
  have hi : now + (i - now) = i := by omega
  have hj : i + (j - i) = j := by omega
  refine ⟨by rw [hi]; exact some_byte, ?_⟩
  rw [hi]
  refine ⟨by rw [hj]; omega, ?_⟩
  rw [hj]
  exact covered_still tl j _ _ (by omega)

theorem covered_one (now j : Nat) (le : now ≤ j) (some_byte : 0 < (tl.version j).size) :
    Covered tl now 0 [j - now] := by
  have hj : now + (j - now) = j := by omega
  refine ⟨by rw [hj]; exact some_byte, trivial⟩

theorem splice_no_snapshot (start now i j n : Nat) (pub : Published) (first : now ≤ i)
    (second : i ≤ j) (changed : Changed tl i j)
    (reads : pub.reads = byteReads now 0 (spliceWaits now i j n))
    (chain : Contiguous (painted tl i) 0 pub.reads) : ¬Snapshot (painted tl i) start pub := by
  intro snapshot
  have hi : now + (i - now) = i := by omega
  have hj : i + (j - i) = j := by omega
  have hpositive : ∀ r ∈ pub.reads, 0 < r.length := by
    rw [reads]
    exact byte_reads_positive _ now 0
  have hfirst : (⟨i, 0, 1⟩ : Read) ∈ pub.reads := by simp [reads, spliceWaits, byteReads, hi]
  have hsecond : (⟨j, 1, 1⟩ : Read) ∈ pub.reads := by simp [reads, spliceWaits, byteReads, hi, hj]
  exact (painted_snapshot tl i start pub chain ⟨i, 0, 1⟩ hfirst rfl hpositive snapshot).2
    ⟨j, 1, 1⟩ hsecond changed

theorem cut_no_snapshot (start now j : Nat) (pub : Published) (le : now ≤ j)
    (more : (tl.version j).size ≠ 1) (reads : pub.reads = byteReads now 0 [j - now])
    (chain : Contiguous (painted tl j) 0 pub.reads) : ¬Snapshot (painted tl j) start pub := by
  intro snapshot
  have hj : now + (j - now) = j := by omega
  have hread : pub.reads = [⟨j, 0, 1⟩] := by simp [reads, byteReads, hj]
  have hwhole := (painted_snapshot tl j start pub chain ⟨j, 0, 1⟩ (by simp [hread]) rfl
    (by simp [hread]) snapshot).1
  rw [hread] at hwhole
  exact more hwhole.symm

/-- What was counted and hashed is what was published, so every verification accepts it. -/
theorem accepts_streamed (digest : Bytes → Checksum) (sized : Bool) (policy : Verify)
    (reads : List Read) (bytes ended : Nat) (count : bytes = (assemble tl reads).length) :
    accepts digest sized tl ⟨reads, bytes, assemble tl reads, ended⟩ policy = true := by
  cases policy <;> simp [accepts, count]

end Splices

/-! ## Exactly the rewrites that can be spliced -/

section Exact

variable (tl : Timeline) (start : Nat) (digest : Bytes → Checksum) (sized : Bool) (policy : Verify)

/-- The local `deliver`, of any reads. -/
def DeliversLocal (tl : Timeline) (pub : Published) : Prop :=
  ∃ accesses, deliverLocal tl start accesses = some (.ok pub)

/-- The sftp and ftps `deliver`, of any reads behind any resumed head. -/
def DeliversTemp (flavor : TempUpload.Flavor) (tl : Timeline) (pub : Published) : Prop :=
  ∃ resume accesses, deliverTemp tl start flavor resume accesses = some (.ok pub)

/-- The http, azure and gcs `deliver`, of any reads behind any resumed head. -/
def DeliversRanges (path : String) (chunkBytes : UInt64) (tl : Timeline) (pub : Published) : Prop :=
  ∃ resume accesses, deliverRanges tl start path chunkBytes.toNat resume accesses = some (.ok pub)

def DeliversS3 (dest : S3Multipart.S3Dest) (key : String) (tl : Timeline) (pub : Published) :
    Prop :=
  ∃ parts wait, deliverS3 tl start dest key parts wait = some (.ok pub)

theorem local_quiet_alike (other : Timeline) (alike : Alike tl other) (quiet : LocalQuiet tl start) :
    LocalQuiet other start := by
  intro i j low high changed
  rw [(alike i).1, (alike j).1]
  exact quiet i j low high ((changed_alike tl other alike i j).mp changed)

theorem temp_quiet_alike (other : Timeline) (alike : Alike tl other) (quiet : TempQuiet tl start) :
    TempQuiet other start := by
  unfold TempQuiet
  rw [(alike start).1]
  refine quiet.imp id fun late j e low high changed long => ?_
  rw [(alike e).1]
  rw [(alike j).1] at long
  exact late j e low high ((changed_alike tl other alike start j).mp changed) long

theorem ranges_quiet_alike (other : Timeline) (alike : Alike tl other)
    (quiet : RangesQuiet tl start) : RangesQuiet other start := by
  unfold RangesQuiet
  rw [(alike start).1]
  refine quiet.imp id fun late j low changed => ?_
  rw [(alike j).1]
  exact late j low ((changed_alike tl other alike start j).mp changed)

theorem local_reads (waits : List Nat) (wait : Nat) (covered : Covered tl start 0 waits)
    (ends : (tl.version (start + waits.sum + wait)).size ≤ waits.length) :
    ∃ pub, deliverLocal tl start (bytewise waits ++ [⟨wait, 1⟩]) = some (.ok pub) ∧
      pub.reads = byteReads start 0 waits ∧ accepts digest sized tl pub policy = true := by
  have hread := read_to_end tl waits wait start 0 covered (by rw [Nat.zero_add]; exact ends)
  have hdelivered : deliverLocal tl start (bytewise waits ++ [⟨wait, 1⟩]) = some (.ok
      ⟨byteReads start 0 waits, extent (byteReads start 0 waits),
        assemble tl (byteReads start 0 waits), start + waits.sum + wait⟩) := by
    rw [deliverLocal, hread]
    rfl
  have hchain := local_contiguous tl start _ _ hdelivered
  exact ⟨_, hdelivered, rfl, accepts_streamed tl digest sized policy _ _ _
    (assemble_length tl _ 0 hchain).symm⟩

theorem no_head (accesses : List Access) :
    readLoop tl (some (resumeOffset tl start none)) start 0 accesses =
      some (start, [], accesses) := by
  cases accesses <;> simp [resumeOffset]

theorem temp_reads (flavor : TempUpload.Flavor) (waits : List Nat) (wait : Nat)
    (whole : waits.length = (tl.version start).size) (covered : Covered tl start 0 waits)
    (ends : (tl.version (start + waits.sum + wait)).size ≤ waits.length) :
    ∃ pub, deliverTemp tl start flavor none (bytewise waits ++ [⟨wait, 1⟩]) = some (.ok pub) ∧
      pub.reads = byteReads start 0 waits ∧ accepts digest sized tl pub policy = true := by
  have hread := read_to_end tl waits wait start 0 covered (by rw [Nat.zero_add]; exact ends)
  have hextent := extent_byte_reads waits start 0
  have hdelivered : deliverTemp tl start flavor none (bytewise waits ++ [⟨wait, 1⟩]) = some (.ok
      ⟨byteReads start 0 waits, (tl.version start).size, assemble tl (byteReads start 0 waits),
        start + waits.sum + wait⟩) := by
    simp only [deliverTemp, no_head]
    rw [show resumeOffset tl start none = 0 from rfl, hread]
    simp [hextent, whole, resumedReads, assemble]
  have hchain := temp_contiguous tl start flavor none _ _ hdelivered
  refine ⟨_, hdelivered, rfl, accepts_streamed tl digest sized policy _ _ _ ?_⟩
  rw [assemble_length tl _ 0 hchain, hextent, whole]

theorem ranges_reads (path : String) (chunkBytes : UInt64) (waits : List Nat)
    (whole : waits.length = (tl.version start).size) (covered : Covered tl start 0 waits) :
    ∃ pub, deliverRanges tl start path chunkBytes.toNat none (bytewise waits) = some (.ok pub) ∧
      pub.reads = byteReads start 0 waits ∧ accepts digest sized tl pub policy = true := by
  obtain ⟨ended, hsent⟩ := send_bytewise tl path chunkBytes.toNat (tl.version start)
    ((tl.version start).size - 0) start 0 waits (by omega) (by omega) covered
    fun _ => ChunkBounds.in_range_zero _ chunkBytes.toNat_lt
  have hdelivered : deliverRanges tl start path chunkBytes.toNat none (bytewise waits) =
      some (.ok ⟨byteReads start 0 waits, (tl.version start).size,
        assemble tl (byteReads start 0 waits), ended⟩) := by
    simp only [deliverRanges, no_head]
    rw [show resumeOffset tl start none = 0 from rfl, hsent]
    simp [resumedReads, assemble]
  have hchain := ranges_contiguous tl start path chunkBytes none _ _ hdelivered
  refine ⟨_, hdelivered, rfl, accepts_streamed tl digest sized policy _ _ _ ?_⟩
  rw [assemble_length tl _ 0 hchain, extent_byte_reads, whole]

theorem local_exact :
    Faithful tl start digest sized policy (DeliversLocal start) ↔ LocalQuiet tl start := by
  constructor
  · intro faithful i j low high changed
    by_contra long
    simp only [not_or] at long
    have alike := painted_alike tl i
    by_cases two : 2 ≤ (tl.version j).size
    · -- one byte of the first version, the rest of the second
      obtain ⟨pub, hdelivered, hreads, accepted⟩ := local_reads (painted tl i) start digest sized
        policy (spliceWaits start i j (tl.version j).size) 0
        (covered_splice _ start i j _ low high two (by rw [(alike i).1]; omega)
          (Nat.le_of_eq (alike j).1.symm))
        (by rw [splice_sum start i j _ low high, splice_length _ _ _ _ two]
            exact Nat.le_of_eq (alike j).1)
      exact splice_no_snapshot tl start start i j _ pub low high changed hreads
        (local_contiguous _ start _ _ hdelivered)
        (faithful (painted tl i) alike pub ⟨_, hdelivered⟩ accepted)
    · -- one byte of the first version, which has more
      have hi : start + [i - start].sum + (j - i) = j := by
        simp only [List.sum_cons, List.sum_nil]
        omega
      obtain ⟨pub, hdelivered, hreads, accepted⟩ := local_reads (painted tl i) start digest sized
        policy [i - start] (j - i) (covered_one _ start i low (by rw [(alike i).1]; omega))
        (by rw [hi, (alike j).1, List.length_singleton]; omega)
      exact cut_no_snapshot tl start start i pub low (by omega) hreads
        (local_contiguous _ start _ _ hdelivered)
        (faithful (painted tl i) alike pub ⟨_, hdelivered⟩ accepted)
  · rintro quiet other alike pub ⟨accesses, delivered⟩ _
    exact local_snapshot other start (local_quiet_alike tl start other alike quiet) accesses pub
      delivered

theorem temp_exact (flavor : TempUpload.Flavor) :
    Faithful tl start digest sized policy (DeliversTemp start flavor) ↔ TempQuiet tl start := by
  constructor
  · intro faithful
    refine or_iff_not_imp_left.mpr fun some_byte j e low high changed long => ?_
    by_contra short
    by_cases two : 2 ≤ (tl.version start).size
    · have alike := painted_alike tl start
      have hwhole := splice_length start start j _ two
      obtain ⟨pub, hdelivered, hreads, accepted⟩ := temp_reads (painted tl start) start digest sized
        policy flavor (spliceWaits start start j (tl.version start).size) (e - j)
        (by rw [hwhole, (alike start).1])
        (covered_splice _ start start j _ (Nat.le_refl _) low two (by rw [(alike start).1]; omega)
          (by rw [(alike j).1]; omega))
        (by rw [splice_sum start start j _ (Nat.le_refl _) low, hwhole, Nat.add_sub_of_le high,
              (alike e).1]
            omega)
      exact splice_no_snapshot tl start start start j _ pub (Nat.le_refl _) low changed hreads
        (temp_contiguous _ start flavor none _ _ hdelivered)
        (faithful (painted tl start) alike pub ⟨none, _, hdelivered⟩ accepted)
    · have alike := painted_alike tl j
      have he : start + [j - start].sum + (e - j) = e := by
        simp only [List.sum_cons, List.sum_nil]
        omega
      obtain ⟨pub, hdelivered, hreads, accepted⟩ := temp_reads (painted tl j) start digest sized
        policy flavor [j - start] (e - j) (by rw [List.length_singleton, (alike start).1]; omega)
        (covered_one _ start j low (by rw [(alike j).1]; omega))
        (by rw [he, (alike e).1, List.length_singleton]; omega)
      exact cut_no_snapshot tl start start j pub low (by omega) hreads
        (temp_contiguous _ start flavor none _ _ hdelivered)
        (faithful (painted tl j) alike pub ⟨none, _, hdelivered⟩ accepted)
  · rintro quiet other alike pub ⟨resume, accesses, delivered⟩ _
    exact temp_snapshot other start (temp_quiet_alike tl start other alike quiet) flavor resume
      accesses pub delivered

theorem ranges_exact (path : String) (chunkBytes : UInt64) :
    Faithful tl start digest sized policy (DeliversRanges start path chunkBytes) ↔
      RangesQuiet tl start := by
  constructor
  · intro faithful
    refine or_iff_not_imp_left.mpr fun some_byte j low changed => ?_
    by_contra long
    by_cases two : 2 ≤ (tl.version start).size
    · have alike := painted_alike tl start
      obtain ⟨pub, hdelivered, hreads, accepted⟩ := ranges_reads (painted tl start) start digest
        sized policy path chunkBytes (spliceWaits start start j (tl.version start).size)
        (by rw [splice_length _ _ _ _ two, (alike start).1])
        (covered_splice _ start start j _ (Nat.le_refl _) low two (by rw [(alike start).1]; omega)
          (by rw [(alike j).1]; omega))
      exact splice_no_snapshot tl start start start j _ pub (Nat.le_refl _) low changed hreads
        (ranges_contiguous _ start path chunkBytes none _ _ hdelivered)
        (faithful (painted tl start) alike pub ⟨none, _, hdelivered⟩ accepted)
    · have alike := painted_alike tl j
      obtain ⟨pub, hdelivered, hreads, accepted⟩ := ranges_reads (painted tl j) start digest sized
        policy path chunkBytes [j - start] (by rw [List.length_singleton, (alike start).1]; omega)
        (covered_one _ start j low (by rw [(alike j).1]; omega))
      exact cut_no_snapshot tl start start j pub low (by omega) hreads
        (ranges_contiguous _ start path chunkBytes none _ _ hdelivered)
        (faithful (painted tl j) alike pub ⟨none, _, hdelivered⟩ accepted)
  · rintro quiet other alike pub ⟨resume, accesses, delivered⟩ _
    exact ranges_snapshot other start (ranges_quiet_alike tl start other alike quiet) path chunkBytes
      resume accesses pub delivered

end Exact

end FileReplicator.SnapshotRewrites
