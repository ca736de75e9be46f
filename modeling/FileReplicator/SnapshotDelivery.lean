import FileReplicator.ChunkBounds
import FileReplicator.S3Multipart
import FileReplicator.TempUpload

/-!
# Deliveries of a changing source

A producer rewrites the source while it is delivered. Each read sees the version
in place at its instant; the servers keep what they are sent. A delivery is a
list of reads, and its object their bytes put together.
-/

namespace FileReplicator.SnapshotDelivery

open Domain SourceFile ByteRanges

/-- The version in place at each instant. Every rewrite has a fresh `(size, mtime)`, so the source
did not change between two instants with the same one. -/
structure Timeline where
  version : Nat → Source
  fresh : ∀ i j k, i ≤ j → j ≤ k → (version i).size = (version k).size →
    (version i).mtimeMs = (version k).mtimeMs → version j = version i

/-- One `read` call: how long after the access before it, and how much it may return. -/
structure Access where
  wait : Nat
  count : Nat

/-- A read that returned: when, from where, and how much. -/
structure Read where
  instant : Nat
  offset : Nat
  length : Nat
  deriving DecidableEq

section Reads

variable (tl : Timeline)

def Read.bytes (r : Read) : Bytes := slice (tl.version r.instant).bytes r.offset r.length

def assemble (reads : List Read) : Bytes := (reads.map (Read.bytes tl)).flatten

def extent (reads : List Read) : Nat := (reads.map Read.length).sum

/-- Reads of at most `limit` bytes from an offset on, up to the end of the file. `none` when the
accesses run out first. -/
def readLoop (limit : Option Nat) (now offset : Nat) :
    List Access → Option (Nat × List Read × List Access)
  | [] => if limit = some 0 then some (now, [], []) else none
  | access :: rest =>
      if limit = some 0 then some (now, [], access :: rest)
      else
        let later := now + access.wait
        let want := min (max access.count 1) TempUpload.chunkSize
        let got := (slice (tl.version later).bytes offset (min want (limit.getD want))).length
        if got = 0 then some (later, [], rest)
        else
          (readLoop (limit.map (· - got)) later (offset + got) rest).map fun out =>
            (out.1, ⟨later, offset, got⟩ :: out.2.1, out.2.2)

end Reads

/-! ## The deliveries -/

/-- An object as it is published: the reads it consists of, the size and the bytes that the
delivery counted and hashed, and the instant of its last access. -/
structure Published where
  reads : List Read
  bytes : Nat
  hashed : Bytes
  ended : Nat

/-- What an earlier attempt left: how much it had sent, and when it read it. -/
structure Resume where
  earlier : Nat
  committed : Nat

section Deliveries

variable (tl : Timeline) (start : Nat)

/-- The persisted offset counts only while the source has the `(size, mtime)` it was saved with. -/
def resumeOffset (resume : Option Resume) : Nat :=
  match resume with
  | none => 0
  | some r =>
      let then_ := tl.version r.earlier
      let now := tl.version start
      if r.earlier ≤ start ∧ then_.size = now.size ∧ then_.mtimeMs = now.mtimeMs then
        min r.committed now.size
      else 0

def resumedReads (resume : Option Resume) : List Read :=
  match resume with
  | none => []
  | some r =>
      if resumeOffset tl start resume = 0 then []
      else [⟨r.earlier, 0, resumeOffset tl start resume⟩]

/-- `LocalDest::deliver`: copy until the end of the file. -/
def deliverLocal (accesses : List Access) : Option (Except ReplError Published) :=
  (readLoop tl none start 0 accesses).map fun out =>
    .ok ⟨out.2.1, extent out.2.1, assemble tl out.2.1, out.1⟩

/-- The sftp and the ftps `deliver`: hash the resumed head locally, copy until the end of the file,
and compare the count with the size at the start. -/
def deliverTemp (flavor : TempUpload.Flavor) (resume : Option Resume) (accesses : List Access) :
    Option (Except ReplError Published) :=
  let src := tl.version start
  let committed := resumeOffset tl start resume
  match readLoop tl (some committed) start 0 accesses with
  | none => none
  | some (opened, head, rest) =>
      (readLoop tl none opened committed rest).map fun out =>
        let total := committed + extent out.2.1
        if total ≠ src.size then
          .error (.transient (TempUpload.sizeChangedText flavor src total))
        else
          .ok ⟨resumedReads tl start resume ++ out.2.1, src.size,
            assemble tl head ++ assemble tl out.2.1, out.1⟩

/-- `read_source_range`. -/
def readRange (path : String) (now offset len : Nat) (accesses : List Access) :
    Option (Except ReplError (Nat × List Read × List Access)) :=
  (readLoop tl (some len) now offset accesses).map fun out =>
    if extent out.2.1 = len then .ok out
    else .error (.transient (truncatedText (extent out.2.1) offset len path))

/-- The chunk loop of the http, azure and gcs uploads; `fuel` bounds the bytes left. -/
def sendRanges (path : String) (chunkBytes size : Nat) :
    Nat → Nat → Nat → List Access → Option (Except ReplError (Nat × List Read))
  | 0, now, _, _ => some (.ok (now, []))
  | fuel + 1, now, committed, accesses =>
      if size ≤ committed then some (.ok (now, []))
      else
        let bounds := ChunkBounds.chunkBounds committed chunkBytes size
        match readRange tl path now bounds.1 (ChunkBounds.chunkLen bounds) accesses with
        | none => none
        | some (.error error) => some (.error error)
        | some (.ok (later, reads, rest)) =>
            match sendRanges path chunkBytes size fuel later (bounds.2 + 1) rest with
            | none => none
            | some (.error error) => some (.error error)
            | some (.ok (ended, more)) => some (.ok (ended, reads ++ more))

/-- The resumable http upload, the azure blocks and the gcs session: hash the resumed head locally,
then send range after range. A single put is one range without a head. -/
def deliverRanges (path : String) (chunkBytes : Nat) (resume : Option Resume)
    (accesses : List Access) : Option (Except ReplError Published) :=
  let src := tl.version start
  let committed := resumeOffset tl start resume
  match readLoop tl (some committed) start 0 accesses with
  | none => none
  | some (opened, head, rest) =>
      match sendRanges tl path chunkBytes src.size (src.size - committed) opened committed rest with
      | none => none
      | some (.error error) => some (.error error)
      | some (.ok (ended, reads)) =>
          some (.ok ⟨resumedReads tl start resume ++ reads, src.size,
            assemble tl head ++ assemble tl reads, ended⟩)

/-- Where a part of an s3 upload comes from: an earlier attempt of the same token, or this one. -/
inductive PartScript where
  | resumed (earlier : Nat)
  | sent (wait : Nat) (accesses : List Access)

/-- One part body: all of its range, or the request fails. -/
def readPart (offset len : Nat) : PartScript → Option (Except ReplError (Nat × List Read))
  | .resumed earlier =>
      let then_ := tl.version earlier
      let now := tl.version start
      if earlier ≤ start ∧ then_.size = now.size ∧ then_.mtimeMs = now.mtimeMs then
        some (.ok (start, [⟨earlier, offset, len⟩]))
      else none
  | .sent wait accesses =>
      (readLoop tl (some len) (start + wait) offset accesses).map fun out =>
        if extent out.2.1 = len then .ok (out.1, out.2.1)
        else .error (Classify.classifyS3 none none true)

/-- The parts in the order of their numbers; they are read at any instants of the call. -/
def readParts (partSize count : Nat) : Nat → List PartScript →
    Option (Except ReplError (Nat × List Read))
  | number, [] => if number = count + 1 then some (.ok (start, [])) else none
  | number, part :: rest =>
      let len := PartPlanning.partLen number partSize count (tl.version start).size
      match readPart tl start ((number - 1) * partSize) len part,
        readParts partSize count (number + 1) rest with
      | some (.ok (ended, reads)), some (.ok (later, more)) =>
          some (.ok (max ended later, reads ++ more))
      | some (.error error), some _ => some (.error error)
      | some (.ok _), some (.error error) => some (.error error)
      | _, _ => none

/-- Both s3 uploads look at the source once more when the object is there. -/
def restat (key : String) (wait : Nat) (ended : Nat) (reads : List Read) :
    Except ReplError Published :=
  let src := tl.version start
  let after := tl.version (ended + wait)
  if S3Multipart.sourceChanged src.size src.mtimeMs after.size after.mtimeMs then
    .error (.transient ("s3 source changed during upload of " ++ key ++
      "; re-planning against the current bytes"))
  else .ok ⟨reads, src.size, [], ended + wait⟩

/-- The s3 `deliver`. -/
def deliverS3 (dest : S3Multipart.S3Dest) (key : String) (parts : List PartScript) (wait : Nat) :
    Option (Except ReplError Published) :=
  let src := tl.version start
  let read :=
    match dest.plan src, parts with
    | .single, [.sent wait accesses] => readPart tl start 0 src.size (.sent wait accesses)
    | .single, _ => none
    | .parts partSize count, parts => readParts tl start partSize count 1 parts
  match read with
  | none => none
  | some (.error error) => some (.error error)
  | some (.ok (ended, reads)) => some (restat tl start key wait ended reads)

end Deliveries

/-- `verify` of the backends that keep a digest: `sized` says whether the checksum policy compares
the size too. s3 has no digest of its own to compare; its service's are equal here. -/
def accepts (digest : Bytes → Checksum) (sized : Bool) (tl : Timeline) (pub : Published) :
    Verify → Bool
  | .none => true
  | .size => pub.bytes = (assemble tl pub.reads).length
  | .checksum =>
      (!sized || pub.bytes = (assemble tl pub.reads).length) &&
        digest pub.hashed = digest (assemble tl pub.reads)

/-- The object is the source as it was at one instant of the call. -/
def Snapshot (tl : Timeline) (start : Nat) (pub : Published) : Prop :=
  ∃ instant, start ≤ instant ∧ instant ≤ pub.ended ∧
    assemble tl pub.reads = (tl.version instant).bytes

/-! ## Reads put together -/

section Contiguous

variable (tl : Timeline)

/-- Each read starts where the one before it ended, and returned its whole length. -/
def Contiguous : Nat → List Read → Prop
  | _, [] => True
  | offset, r :: rest =>
      r.offset = offset ∧ (r.bytes tl).length = r.length ∧ Contiguous (offset + r.length) rest

theorem contiguous_append (reads more : List Read) (offset : Nat)
    (first : Contiguous tl offset reads) (second : Contiguous tl (offset + extent reads) more) :
    Contiguous tl offset (reads ++ more) := by
  induction reads generalizing offset with
  | nil => simpa [extent] using second
  | cons r rest ih =>
      obtain ⟨hoffset, hfull, hrest⟩ := first
      refine ⟨hoffset, hfull, ih (offset + r.length) hrest ?_⟩
      have hextent : extent (r :: rest) = r.length + extent rest := by simp [extent]
      rw [hextent, ← Nat.add_assoc] at second
      exact second

theorem extent_append (reads more : List Read) :
    extent (reads ++ more) = extent reads + extent more := by
  simp [extent]

theorem assemble_length (reads : List Read) (offset : Nat) (chain : Contiguous tl offset reads) :
    (assemble tl reads).length = extent reads := by
  induction reads generalizing offset with
  | nil => rfl
  | cons r rest ih =>
      obtain ⟨_, hfull, hrest⟩ := chain
      have htail := ih (offset + r.length) hrest
      simp only [assemble, extent, List.map_cons, List.flatten_cons, List.length_append,
        List.sum_cons] at htail ⊢
      rw [hfull, htail]

/-- Reads one after the other give a range of a file exactly if each of them does. -/
theorem assemble_eq_slice_iff (xs : Bytes) (reads : List Read) (offset : Nat)
    (chain : Contiguous tl offset reads) (inside : offset + extent reads ≤ xs.length) :
    assemble tl reads = slice xs offset (extent reads) ↔
      ∀ r ∈ reads, r.bytes tl = slice xs r.offset r.length := by
  induction reads generalizing offset with
  | nil => simp [assemble, extent, slice]
  | cons r rest ih =>
      obtain ⟨rfl, hfull, hrest⟩ := chain
      have hextent : extent (r :: rest) = r.length + extent rest := by simp [extent]
      rw [hextent] at inside ⊢
      have hsplit : slice xs r.offset (r.length + extent rest) =
          slice xs r.offset r.length ++ slice xs (r.offset + r.length) (extent rest) := by
        rw [slice, slice, slice, List.take_add, List.drop_drop]
      have hlength : (r.bytes tl).length = (slice xs r.offset r.length).length := by
        rw [hfull, slice_length_of_le _ _ _ (by omega)]
      have htail := ih (r.offset + r.length) hrest (by omega)
      have hassemble : assemble tl (r :: rest) = r.bytes tl ++ assemble tl rest := rfl
      rw [hassemble, hsplit, List.forall_mem_cons, ← htail]
      constructor
      · exact fun same => List.append_inj same hlength
      · rintro ⟨hhead, hrest⟩
        rw [hhead, hrest]

/-- The reads of a whole object give a file exactly if it is as long and agrees with each. -/
theorem assemble_eq_iff (xs : Bytes) (reads : List Read) (chain : Contiguous tl 0 reads) :
    assemble tl reads = xs ↔
      xs.length = extent reads ∧ ∀ r ∈ reads, r.bytes tl = slice xs r.offset r.length := by
  have hwhole : xs.length = extent reads → slice xs 0 (extent reads) = xs := by
    intro same
    rw [slice, List.drop_zero, ← same, List.take_length]
  constructor
  · intro same
    have hlength : xs.length = extent reads := by rw [← same, assemble_length tl reads 0 chain]
    have hslice := (assemble_eq_slice_iff tl xs reads 0 chain (by omega)).mp
      (by rw [hwhole hlength]; exact same)
    exact ⟨hlength, hslice⟩
  · rintro ⟨hlength, agree⟩
    have hslice := (assemble_eq_slice_iff tl xs reads 0 chain (by omega)).mpr agree
    rw [hslice, hwhole hlength]

/-- What a read loop returns: contiguous reads, within the limit, at ascending instants. -/
theorem read_loop_spec (accesses : List Access) (limit : Option Nat) (now offset : Nat)
    (out : Nat × List Read × List Access) (ran : readLoop tl limit now offset accesses = some out) :
    Contiguous tl offset out.2.1 ∧ now ≤ out.1 ∧
      (∀ r ∈ out.2.1, now ≤ r.instant ∧ r.instant ≤ out.1 ∧
        r.offset + r.length ≤ (tl.version r.instant).size) ∧
      ∀ most, limit = some most → extent out.2.1 ≤ most := by
  induction accesses generalizing limit now offset out with
  | nil =>
      rw [readLoop] at ran
      split at ran
      · rw [← Option.some.inj ran]
        exact ⟨trivial, Nat.le_refl _, by simp, fun _ _ => Nat.zero_le _⟩
      · simp at ran
  | cons access rest ih =>
      rw [readLoop] at ran
      split at ran
      · rw [← Option.some.inj ran]
        exact ⟨trivial, Nat.le_refl _, by simp, fun _ _ => Nat.zero_le _⟩
      · simp only at ran
        generalize hwant : min (min (max access.count 1) TempUpload.chunkSize)
          (limit.getD (min (max access.count 1) TempUpload.chunkSize)) = want at ran
        have hgot := slice_length (tl.version (now + access.wait)).bytes offset want
        split at ran
        · rw [← Option.some.inj ran]
          exact ⟨trivial, Nat.le_add_right _ _, by simp, fun _ _ => Nat.zero_le _⟩
        · obtain ⟨later, hlater, rfl⟩ := Option.map_eq_some_iff.mp ran
          rename_i some_read
          obtain ⟨hchain, hnow, hreads, hmost⟩ := ih _ _ _ later hlater
          generalize hlen : (slice (tl.version (now + access.wait)).bytes offset want).length = got
            at *
          refine ⟨⟨rfl, ?_, hchain⟩, by omega, ?_, ?_⟩
          · rw [Read.bytes, slice_length]
            simp only
            omega
          · intro r member
            rcases List.mem_cons.mp member with rfl | after
            · refine ⟨Nat.le_add_right _ _, hnow, ?_⟩
              simp only [Source.size]
              omega
            · obtain ⟨hlow, hhigh, hinside⟩ := hreads r after
              exact ⟨by omega, hhigh, hinside⟩
          · rintro most rfl
            have htail := hmost (most - got) (by simp)
            simp only [Option.getD_some] at hwant
            have hextent : extent (⟨now + access.wait, offset, got⟩ :: later.2.1) =
                got + extent later.2.1 := by simp [extent]
            simp only [hextent]
            omega

theorem contiguous_inside (reads : List Read) (offset : Nat) (chain : Contiguous tl offset reads)
    (inside : ∀ r ∈ reads, r.offset + r.length ≤ (tl.version r.instant).size) :
    extent reads = 0 ∨ offset + extent reads < word := by
  induction reads generalizing offset with
  | nil => exact Or.inl rfl
  | cons r rest ih =>
      obtain ⟨rfl, _, hrest⟩ := chain
      have hhead := inside r (by simp)
      have hsize := size_lt_word (tl.version r.instant)
      have htail := ih (r.offset + r.length) hrest fun other member =>
        inside other (List.mem_cons_of_mem _ member)
      have hextent : extent (r :: rest) = r.length + extent rest := by simp [extent]
      omega

end Contiguous

/-! ## Every delivery is a chain of reads -/

section Specs

variable (tl : Timeline) (start : Nat)

theorem resume_offset_le (resume : Option Resume) :
    resumeOffset tl start resume ≤ (tl.version start).size := by
  unfold resumeOffset
  split
  · exact Nat.zero_le _
  · simp only
    split
    · exact Nat.min_le_right _ _
    · exact Nat.zero_le _

theorem resumed_reads_spec (resume : Option Resume) :
    Contiguous tl 0 (resumedReads tl start resume) ∧
      extent (resumedReads tl start resume) = resumeOffset tl start resume := by
  unfold resumedReads
  cases resume with
  | none => exact ⟨trivial, rfl⟩
  | some r =>
      simp only
      split
      · rename_i zero
        exact ⟨trivial, by rw [zero]; rfl⟩
      · rename_i some_head
        refine ⟨⟨rfl, ?_, trivial⟩, by simp [extent]⟩
        have hle := resume_offset_le tl start (some r)
        have hsame : (tl.version r.earlier).size = (tl.version start).size := by
          by_contra different
          refine some_head ?_
          simp only [resumeOffset]
          rw [if_neg fun usable => different usable.2.1]
        unfold Source.size at hsame
        rw [Read.bytes, slice_length]
        simp only
        unfold Source.size at hle
        omega

theorem local_contiguous (accesses : List Access) (pub : Published)
    (delivered : deliverLocal tl start accesses = some (.ok pub)) : Contiguous tl 0 pub.reads := by
  obtain ⟨out, ran, hpub⟩ := Option.map_eq_some_iff.mp delivered
  rw [← Except.ok.inj hpub]
  exact (read_loop_spec tl accesses none start 0 out ran).1

theorem temp_contiguous (flavor : TempUpload.Flavor) (resume : Option Resume)
    (accesses : List Access) (pub : Published)
    (delivered : deliverTemp tl start flavor resume accesses = some (.ok pub)) :
    Contiguous tl 0 pub.reads := by
  unfold deliverTemp at delivered
  simp only at delivered
  split at delivered
  · simp at delivered
  · rename_i opened head rest _
    obtain ⟨out, ran, hpub⟩ := Option.map_eq_some_iff.mp delivered
    split at hpub
    · simp at hpub
    · rw [← Except.ok.inj hpub]
      obtain ⟨hhead, hextent⟩ := resumed_reads_spec tl start resume
      refine contiguous_append tl _ _ 0 hhead ?_
      rw [hextent, Nat.zero_add]
      exact (read_loop_spec tl rest none opened _ out ran).1

theorem read_range_spec (path : String) (now offset len : Nat) (accesses : List Access)
    (out : Nat × List Read × List Access)
    (ran : readRange tl path now offset len accesses = some (.ok out)) :
    Contiguous tl offset out.2.1 ∧ extent out.2.1 = len ∧
      ∀ r ∈ out.2.1, r.offset + r.length ≤ (tl.version r.instant).size := by
  obtain ⟨loop, hloop, hout⟩ := Option.map_eq_some_iff.mp ran
  split at hout
  · rename_i whole
    rw [← Except.ok.inj hout]
    obtain ⟨hchain, _, hreads, _⟩ := read_loop_spec tl accesses (some len) now offset loop hloop
    exact ⟨hchain, whole, fun r member => (hreads r member).2.2⟩
  · simp at hout

theorem range_in_range (chunkBytes : UInt64) (committed size : Nat) (reads : List Read)
    (left : committed < size) (small : size < word)
    (chain : Contiguous tl committed reads)
    (inside : ∀ r ∈ reads, r.offset + r.length ≤ (tl.version r.instant).size)
    (whole : extent reads =
      ChunkBounds.chunkLen (ChunkBounds.chunkBounds committed chunkBytes.toNat size)) :
    ChunkBounds.InRange chunkBytes.toNat committed := by
  by_contra wraps
  have hlen := ChunkBounds.chunk_len_wraps committed chunkBytes.toNat size
    chunkBytes.toNat_lt small wraps left
  have hends := contiguous_inside tl reads committed chain inside
  unfold ChunkBounds.InRange at wraps
  omega

theorem next_range (chunkBytes : UInt64) (committed size : Nat) (reads : List Read)
    (left : committed < size) (small : size < word)
    (chain : Contiguous tl committed reads)
    (inside : ∀ r ∈ reads, r.offset + r.length ≤ (tl.version r.instant).size)
    (whole : extent reads =
      ChunkBounds.chunkLen (ChunkBounds.chunkBounds committed chunkBytes.toNat size)) :
    (ChunkBounds.chunkBounds committed chunkBytes.toNat size).2 + 1 = committed + extent reads ∧
      0 < extent reads ∧ committed + extent reads ≤ size := by
  have inRange := range_in_range tl chunkBytes committed size reads left small chain inside whole
  rw [whole, ChunkBounds.chunk_len_fit _ _ _ inRange left,
    ChunkBounds.chunk_bounds_fit _ _ _ inRange left]
  refine ⟨?_, ?_, ?_⟩
  · simp only
    omega
  · omega
  · omega

theorem send_ranges_contiguous (path : String) (chunkBytes : UInt64) (size : Nat)
    (small : size < word) (fuel now committed : Nat) (accesses : List Access)
    (out : Nat × List Read)
    (sent : sendRanges tl path chunkBytes.toNat size fuel now committed accesses = some (.ok out)) :
    Contiguous tl committed out.2 := by
  induction fuel generalizing now committed accesses out with
  | zero =>
      rw [sendRanges] at sent
      rw [← Except.ok.inj (Option.some.inj sent)]
      trivial
  | succ fuel ih =>
      rw [sendRanges] at sent
      split at sent
      · rw [← Except.ok.inj (Option.some.inj sent)]
        trivial
      · rename_i unfinished
        simp only at sent
        split at sent
        · simp at sent
        · simp at sent
        · rename_i later reads rest hrange
          split at sent
          · simp at sent
          · simp at sent
          · rename_i ended more hmore
            rw [← Except.ok.inj (Option.some.inj sent)]
            obtain ⟨hchain, hwhole, hinside⟩ := read_range_spec tl path _ _ _ _ _ hrange
            refine contiguous_append tl reads more committed hchain ?_
            rw [← (next_range tl chunkBytes committed size reads (by omega) small hchain hinside
              hwhole).1]
            exact ih _ _ _ _ hmore

theorem ranges_contiguous (path : String) (chunkBytes : UInt64) (resume : Option Resume)
    (accesses : List Access) (pub : Published)
    (delivered : deliverRanges tl start path chunkBytes.toNat resume accesses = some (.ok pub)) :
    Contiguous tl 0 pub.reads := by
  unfold deliverRanges at delivered
  simp only at delivered
  split at delivered
  · simp at delivered
  · split at delivered
    · simp at delivered
    · simp at delivered
    · rename_i ended reads hsent
      rw [← Except.ok.inj (Option.some.inj delivered)]
      obtain ⟨hhead, hextent⟩ := resumed_reads_spec tl start resume
      refine contiguous_append tl _ _ 0 hhead ?_
      rw [hextent, Nat.zero_add]
      exact send_ranges_contiguous tl path chunkBytes _ (size_lt_word _) _ _ _ _ _ hsent

/-! ## s3 -/

/-- A read of the call, or of an earlier one before which the source has not changed. -/
def OfCall (ended : Nat) (r : Read) : Prop :=
  (start ≤ r.instant ∧ r.instant ≤ ended) ∨ tl.version r.instant = tl.version start

theorem of_call_later (ended later : Nat) (r : Read) (le : ended ≤ later)
    (ofCall : OfCall tl start ended r) : OfCall tl start later r :=
  ofCall.imp (fun inside => ⟨inside.1, Nat.le_trans inside.2 le⟩) id

theorem read_part_spec (offset len : Nat) (part : PartScript) (out : Nat × List Read)
    (inside : offset + len ≤ (tl.version start).size)
    (ran : readPart tl start offset len part = some (.ok out)) :
    Contiguous tl offset out.2 ∧ extent out.2 = len ∧ start ≤ out.1 ∧
      ∀ r ∈ out.2, OfCall tl start out.1 r := by
  cases part with
  | resumed earlier =>
      simp only [readPart] at ran
      split at ran
      · rename_i usable
        rw [← Except.ok.inj (Option.some.inj ran)]
        have hsame : tl.version start = tl.version earlier :=
          tl.fresh earlier start start usable.1 (Nat.le_refl _) usable.2.1 usable.2.2
        refine ⟨⟨rfl, ?_, trivial⟩, by simp [extent], Nat.le_refl _, ?_⟩
        · rw [Read.bytes, ← hsame]
          exact slice_length_of_le _ _ _ inside
        · intro r member
          rw [List.mem_singleton.mp member]
          exact Or.inr hsame.symm
      · simp at ran
  | sent wait accesses =>
      obtain ⟨loop, hloop, hout⟩ := Option.map_eq_some_iff.mp ran
      split at hout
      · rename_i whole
        rw [← Except.ok.inj hout]
        obtain ⟨hchain, hnow, hreads, _⟩ := read_loop_spec tl accesses _ _ _ loop hloop
        refine ⟨hchain, whole, by omega, fun r member => Or.inl ?_⟩
        obtain ⟨hlow, hhigh, _⟩ := hreads r member
        exact ⟨by omega, hhigh⟩
      · simp at hout

theorem read_parts_spec (partSize : Nat) (positive : 0 < partSize) (parts : List PartScript)
    (number : Nat) (first : 1 ≤ number) (out : Nat × List Read)
    (ran : readParts tl start partSize ((tl.version start).size ⌈/⌉ partSize) number parts =
      some (.ok out)) :
    Contiguous tl ((number - 1) * partSize) out.2 ∧
      extent out.2 = (tl.version start).size - (number - 1) * partSize ∧ start ≤ out.1 ∧
      number + parts.length = (tl.version start).size ⌈/⌉ partSize + 1 ∧
      ∀ r ∈ out.2, OfCall tl start out.1 r := by
  induction parts generalizing number out with
  | nil =>
      simp only [readParts] at ran
      split at ran
      · rename_i last
        rw [← Except.ok.inj (Option.some.inj ran)]
        have hcover := PartPlanning.le_ceil_mul (tl.version start).size partSize positive
        have hnumber : number - 1 = (tl.version start).size ⌈/⌉ partSize := by omega
        refine ⟨trivial, ?_, Nat.le_refl _, by simpa using last, by simp⟩
        rw [hnumber]
        simp only [extent, List.map_nil, List.sum_nil]
        omega
      · simp at ran
  | cons part rest ih =>
      simp only [readParts] at ran
      split at ran
      · rename_i ended reads later more hpart hrest
        rw [← Except.ok.inj (Option.some.inj ran)]
        obtain ⟨hchain, hextent, hlater, hcount, hreads⟩ := ih (number + 1) (by omega) _ hrest
        have hlast : number ≤ (tl.version start).size ⌈/⌉ partSize := by omega
        have hstart := (PartPlanning.lt_ceil_iff (tl.version start).size partSize (number - 1)
          positive).mp (by omega)
        have hlen := PartPlanning.part_len_eq (tl.version start) number partSize positive first hlast
        have hbound : PartPlanning.partLen number partSize ((tl.version start).size ⌈/⌉ partSize)
            (tl.version start).size =
            min partSize ((tl.version start).size - (number - 1) * partSize) := by
          rw [← hlen, PartPlanning.partBytes, slice_length]
          rfl
        obtain ⟨hhead, hheadExtent, hended, hheadReads⟩ := read_part_spec tl start _ _ part _
          (by rw [hbound]; omega) hpart
        have hnext : (number + 1 - 1) * partSize = (number - 1) * partSize + partSize := by
          rw [Nat.add_sub_cancel, ← Nat.succ_mul]
          congr 1
          omega
        simp only at hhead hheadExtent hended hheadReads hchain hextent hlater hreads ⊢
        rw [hnext] at hchain hextent
        have hfull : more = [] ∨ extent reads = partSize := by
          by_cases final : number = (tl.version start).size ⌈/⌉ partSize
          · refine Or.inl ?_
            have hnone : rest = [] := List.length_eq_zero_iff.mp (by omega)
            rw [hnone] at hrest
            simp only [readParts] at hrest
            split at hrest
            · exact (Prod.mk.inj (Except.ok.inj (Option.some.inj hrest))).2.symm
            · simp at hrest
          · refine Or.inr ?_
            rw [hheadExtent, PartPlanning.partLen, if_neg (by omega)]
        refine ⟨contiguous_append tl reads more _ hhead ?_, ?_, by omega, by
          rw [List.length_cons]; omega, ?_⟩
        · rcases hfull with rfl | hfull
          · trivial
          · rw [hfull]
            exact hchain
        · rw [extent_append, hextent, hheadExtent, hbound]
          omega
        · intro r member
          rcases List.mem_append.mp member with head | tail
          · exact of_call_later tl start ended _ r (Nat.le_max_left _ _) (hheadReads r head)
          · exact of_call_later tl start later _ r (Nat.le_max_right _ _) (hreads r tail)
      · simp at ran
      · simp at ran
      · simp at ran

/-- Where the source looks the same at the end as at the start, all reads saw that version. -/
theorem restat_snapshot (key : String) (wait ended : Nat) (reads : List Read) (pub : Published)
    (chain : Contiguous tl 0 reads) (whole : extent reads = (tl.version start).size)
    (later : start ≤ ended) (ofCall : ∀ r ∈ reads, OfCall tl start ended r)
    (stable : restat tl start key wait ended reads = .ok pub) : Snapshot tl start pub := by
  unfold restat at stable
  simp only at stable
  split at stable
  · simp at stable
  · rename_i same
    rw [← Except.ok.inj stable]
    simp only [S3Multipart.sourceChanged, Bool.or_eq_true, decide_eq_true_eq, not_or,
      not_not] at same
    have hsame : ∀ r ∈ reads, tl.version r.instant = tl.version start := by
      intro r member
      rcases ofCall r member with ⟨low, high⟩ | unchanged
      · exact tl.fresh start r.instant (ended + wait) low (by omega) same.1 same.2
      · exact unchanged
    refine ⟨start, Nat.le_refl _, by simp only; omega, ?_⟩
    refine (assemble_eq_iff tl _ reads chain).mpr ⟨whole.symm, fun r member => ?_⟩
    rw [Read.bytes, hsame r member]

theorem s3_snapshot (dest : S3Multipart.S3Dest) (key : String) (parts : List PartScript)
    (wait : Nat) (pub : Published)
    (delivered : deliverS3 tl start dest key parts wait = some (.ok pub)) :
    Snapshot tl start pub := by
  unfold deliverS3 at delivered
  simp only at delivered
  split at delivered
  · simp at delivered
  · simp at delivered
  · rename_i ended reads hread
    have hstable := Option.some.inj delivered
    split at hread
    · rename_i partWait accesses _
      obtain ⟨hchain, hextent, hlater, hreads⟩ := read_part_spec tl start 0 _
        (.sent partWait accesses) _ (by omega) hread
      exact restat_snapshot tl start key wait ended reads pub hchain hextent hlater hreads hstable
    · simp at hread
    · rename_i partSize count plan
      obtain ⟨positive, rfl⟩ := PartPlanning.plan_parts S3Multipart.s3Limits _ _ _ partSize count
        (tl.version start).fits plan
      obtain ⟨hchain, hextent, hlater, _, hreads⟩ := read_parts_spec tl start partSize positive
        _ 1 (Nat.le_refl _) _ hread
      simp only [Nat.sub_self, Nat.zero_mul, Nat.sub_zero] at hchain hextent
      exact restat_snapshot tl start key wait ended reads pub hchain hextent hlater hreads hstable

end Specs

def shortFile : Source := ⟨[1, 2], 1, by decide⟩

def longFile : Source := ⟨[3, 4, 5], 2, by decide⟩

def rewrittenOnce : Timeline where
  version := fun instant => if instant = 0 then shortFile else longFile
  fresh := by
    intro i j k low high size _
    by_cases first : i = 0
    · by_cases last : k = 0
      · rw [if_pos first, if_pos (by omega)]
      · rw [if_pos first, if_neg last] at size
        exact absurd size (by decide)
    · rw [if_neg first, if_neg (by omega)]

def growingReads : List Access := [⟨0, 9⟩, ⟨1, 9⟩, ⟨0, 9⟩]

end FileReplicator.SnapshotDelivery
