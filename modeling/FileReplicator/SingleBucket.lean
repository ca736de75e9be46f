import FileReplicator.Bandwidth

/-!
# One bucket by itself

Calls of `acquire` one after the other. What the bucket remembers of them is when
they are paid for: not before the rate allows it, and as soon as it does. A call
that waits is let through when all that was asked for since the bucket was last
full has been paid for, but for the second's tokens it held.
-/

namespace FileReplicator.SingleBucket

open Bandwidth VirtualSchedule

/-! ## A sequence of calls -/

structure Call where
  time : ℚ
  bytes : Nat

def serve (bucket : TokenBucket) (calls : List Call) : TokenBucket :=
  calls.foldl (fun b c => (b.acquire c.time c.bytes).2) bucket

def releases (bucket : TokenBucket) : List Call → List (Charge ℚ)
  | [] => []
  | c :: rest =>
      let out := bucket.acquire c.time c.bytes
      ⟨c.bytes, c.time + out.1⟩ :: releases out.2 rest

/-- The clock does not go back, from when the bucket was made to now. -/
def Ordered (start : ℚ) (calls : List Call) (now : ℚ) : Prop :=
  (start :: calls.map Call.time ++ [now]).Pairwise (· ≤ ·)

def releasedIn (first last : ℚ) (charges : List (Charge ℚ)) : List (Charge ℚ) :=
  charges.filter fun c => decide (first ≤ c.due ∧ c.due ≤ last)

def bytesIn (first last : ℚ) (charges : List (Charge ℚ)) : ℚ :=
  ((releasedIn first last charges).map Charge.amount).sum

def largestIn (first last : ℚ) (charges : List (Charge ℚ)) : ℚ :=
  ((releasedIn first last charges).map Charge.amount).foldr max 0

def Full (bucket : TokenBucket) (x : ℚ) : Prop :=
  bucket.capacity ≤ bucket.tokens + max 0 (x - bucket.last) * bucket.rate

section Histories

variable (rate : Nat) (start : ℚ)

/-- The bucket was full at an instant: some calls had been made by then, the others came later. -/
def WasFull (calls : List Call) (now x : ℚ) : Prop :=
  ∃ made coming, calls = made ++ coming ∧ start ≤ x ∧ x ≤ now ∧ (∀ c ∈ made, c.time ≤ x) ∧
    (∀ c ∈ coming, x ≤ c.time) ∧ Full (serve (.new rate start) made) x

def LastFull (calls : List Call) (now x : ℚ) : Prop :=
  WasFull rate start calls now x ∧ ∀ y, WasFull rate start calls now y → y ≤ x

end Histories

def requestedSince (x : ℚ) (calls : List Call) : Nat :=
  ((calls.filter fun c => decide (x ≤ c.time)).map Call.bytes).sum

/-! ## One more call -/

theorem serve_snoc (bucket : TokenBucket) (calls : List Call) (c : Call) :
    serve bucket (calls ++ [c]) = ((serve bucket calls).acquire c.time c.bytes).2 := by
  simp [serve]

theorem releases_snoc (bucket : TokenBucket) (calls : List Call) (c : Call) :
    releases bucket (calls ++ [c]) = releases bucket calls ++
      [⟨c.bytes, c.time + ((serve bucket calls).acquire c.time c.bytes).1⟩] := by
  induction calls generalizing bucket with
  | nil => rfl
  | cons first rest ih =>
      rw [List.cons_append, releases, releases, ih]
      rfl

theorem ordered_snoc {start now : ℚ} {calls : List Call} {c : Call}
    (ordered : Ordered start (calls ++ [c]) now) : Ordered start calls c.time ∧ c.time ≤ now := by
  rw [Ordered, List.map_append, ← List.cons_append, List.pairwise_append] at ordered
  exact ⟨ordered.1, ordered.2.2 c.time (by simp) now (by simp)⟩

theorem Ordered.starts {start now : ℚ} {calls : List Call} (ordered : Ordered start calls now) :
    start ≤ now :=
  (List.pairwise_append.mp ordered).2.2 start List.mem_cons_self now List.mem_cons_self

theorem Ordered.past {start now : ℚ} {calls : List Call} (ordered : Ordered start calls now) (c : Call)
    (member : c ∈ calls) : c.time ≤ now :=
  (List.pairwise_append.mp ordered).2.2 c.time
    (List.mem_cons_of_mem start (List.mem_map_of_mem member)) now List.mem_cons_self

theorem requested_snoc (x : ℚ) (calls : List Call) (c : Call) :
    requestedSince x (calls ++ [c]) =
      requestedSince x calls + if x ≤ c.time then c.bytes else 0 := by
  rw [requestedSince, requestedSince, List.filter_append, List.map_append, List.sum_append]
  by_cases since : x ≤ c.time <;> simp [since]

section Runs

variable (rate : Nat) (limited : 0 < rate) (start : ℚ)

theorem serve_sane (calls : List Call) (now : ℚ) (ordered : Ordered start calls now) :
    (serve (.new rate start) calls).Sane now ∧ (serve (.new rate start) calls).rate = rate := by
  induction calls using List.reverseRecOn generalizing now with
  | nil => exact ⟨⟨rfl, ordered.starts⟩, rfl⟩
  | append_singleton calls c ih =>
      obtain ⟨before, forward⟩ := ordered_snoc ordered
      obtain ⟨sane, same⟩ := ih c.time before
      obtain ⟨kept, sameRate⟩ := TokenBucket.acquire_sane _ c.time c.bytes sane
      rw [serve_snoc]
      exact ⟨kept.later now forward, sameRate.trans same⟩

def owed (calls : List Call) : ℚ := (serve (.new rate start) calls).paid

include limited

theorem owed_nil : owed rate start [] = start - 1 := by
  have hrate : (rate : ℚ) ≠ 0 := by exact_mod_cast limited.ne'
  simp [owed, serve, TokenBucket.paid, TokenBucket.new, div_self hrate]

theorem owed_snoc (calls : List Call) (c : Call) (ordered : Ordered start calls c.time) :
    owed rate start (calls ++ [c]) =
      charge (rate : ℚ) 1 (owed rate start calls) c.time c.bytes := by
  obtain ⟨sane, same⟩ := serve_sane rate start calls c.time ordered
  rw [owed, serve_snoc, TokenBucket.acquire_paid _ c.time c.bytes sane (by rwa [same]), same]
  rfl

theorem release_eq (calls : List Call) (c : Call) (ordered : Ordered start calls c.time) :
    c.time + ((serve (.new rate start) calls).acquire c.time c.bytes).1 =
      dueAt (owed rate start (calls ++ [c])) c.time := by
  obtain ⟨_, same⟩ := serve_sane rate start calls c.time ordered
  rw [TokenBucket.acquire_due _ c.time c.bytes (by rwa [same]), owed, serve_snoc]

theorem full_iff (calls : List Call) (x : ℚ) (ordered : Ordered start calls x) :
    Full (serve (.new rate start) calls) x ↔ owed rate start calls ≤ x - 1 := by
  obtain ⟨sane, same⟩ := serve_sane rate start calls x ordered
  have hrate : (0 : ℚ) < rate := by exact_mod_cast limited
  rw [Full, sane.capacity, max_eq_right (sub_nonneg.mpr sane.past), owed, TokenBucket.paid, same]
  generalize serve (.new rate start) calls = bucket
  have seconds : bucket.tokens + (x - bucket.last) * rate =
      (bucket.tokens / rate + (x - bucket.last)) * rate := by
    rw [add_mul, div_mul_cancel₀ _ hrate.ne']
  rw [seconds, le_mul_iff_one_le_left hrate]
  constructor
  · intro full
    linarith
  · intro full
    linarith

theorem released_le (calls : List Call) (now : ℚ) (ordered : Ordered start calls now) :
    ∀ r ∈ releases (.new rate start) calls, r.due ≤ dueAt (owed rate start calls) now := by
  have hrate : (0 : ℚ) < rate := by exact_mod_cast limited
  induction calls using List.reverseRecOn generalizing now with
  | nil => simp [releases]
  | append_singleton calls c ih =>
      obtain ⟨before, forward⟩ := ordered_snoc ordered
      have grows : owed rate start calls ≤ owed rate start (calls ++ [c]) := by
        rw [owed_snoc rate limited start calls c before]
        exact paid_le_charge _ _ _ _ _ hrate (Nat.cast_nonneg _)
      rw [releases_snoc, release_eq rate limited start calls c before]
      intro r member
      cases List.mem_append.mp member with
      | inl earlier =>
          exact (ih c.time before r earlier).trans (max_le_max forward grows)
      | inr last =>
          rw [List.mem_singleton.mp last]
          exact max_le_max forward le_rfl

theorem released_sorted (calls : List Call) (now : ℚ) (ordered : Ordered start calls now) :
    ((releases (.new rate start) calls).map Charge.due).Pairwise (· ≤ ·) := by
  have hrate : (0 : ℚ) < rate := by exact_mod_cast limited
  induction calls using List.reverseRecOn generalizing now with
  | nil => exact List.Pairwise.nil
  | append_singleton calls c ih =>
      obtain ⟨before, _⟩ := ordered_snoc ordered
      rw [releases_snoc, List.map_append, List.pairwise_append]
      refine ⟨ih c.time before, List.pairwise_singleton _ _, ?_⟩
      intro earlier member last isLast
      obtain ⟨r, released, rfl⟩ := List.mem_map.mp member
      have below := released_le rate limited start calls c.time before r released
      rw [List.mem_singleton.mp isLast, release_eq rate limited start calls c before]
      refine below.trans (max_le_max le_rfl ?_)
      rw [owed_snoc rate limited start calls c before]
      exact paid_le_charge _ _ _ _ _ hrate (Nat.cast_nonneg _)

theorem tokens_le (calls : List Call) (now : ℚ) (ordered : Ordered start calls now) :
    (serve (.new rate start) calls).tokens ≤ rate := by
  induction calls using List.reverseRecOn generalizing now with
  | nil => exact le_rfl
  | append_singleton calls c ih =>
      obtain ⟨before, _⟩ := ordered_snoc ordered
      obtain ⟨sane, same⟩ := serve_sane rate start calls c.time before
      have taken : (0 : ℚ) ≤ c.bytes := Nat.cast_nonneg _
      have capped : ∀ tokens : ℚ, min tokens (serve (.new rate start) calls).capacity ≤ rate := by
        intro tokens
        rw [sane.capacity, same]
        exact min_le_right _ _
      rw [serve_snoc, TokenBucket.acquire, if_neg (by rw [same]; exact limited.ne')]
      dsimp only
      split
      · exact (sub_le_self _ taken).trans (capped _)
      · exact (sub_le_self _ taken).trans (capped _)

theorem allowed_served (calls : List Call) (now : ℚ) (ordered : Ordered start calls now)
    (first last most : ℚ) :
    Allowed (rate : ℚ) (owed rate start calls) first last most (max rate most)
      ↑(releases (.new rate start) calls) := by
  have hrate : (0 : ℚ) < rate := by exact_mod_cast limited
  induction calls using List.reverseRecOn generalizing now with
  | nil => exact fun part below _ => Or.inl (Multiset.le_zero.mp below)
  | append_singleton calls c ih =>
      obtain ⟨before, _⟩ := ordered_snoc ordered
      have covers : (c.bytes : ℚ) ≤ most →
          (rate : ℚ) * 1 ≤ max (rate : ℚ) most ∧ most ≤ max (rate : ℚ) most := by
        intro _
        rw [mul_one]
        exact ⟨le_max_left _ _, le_max_right _ _⟩
      have charged := allowed_charge (rate : ℚ) 1 (owed rate start calls) c.time c.bytes hrate
        (Nat.cast_nonneg _) first last most _ covers _ (ih c.time before)
      rw [releases_snoc, release_eq rate limited start calls c before, ← Multiset.coe_add, add_comm,
        owed_snoc rate limited start calls c before]
      exact charged

theorem bytes_le (calls : List Call) (now : ℚ) (ordered : Ordered start calls now)
    (first last : ℚ) (forward : first ≤ last) :
    bytesIn first last (releases (.new rate start) calls) ≤
      max (rate : ℚ) (largestIn first last (releases (.new rate start) calls)) +
        rate * (last - first) := by
  have hrate : (0 : ℚ) < rate := by exact_mod_cast limited
  have interval := allowed_interval (rate : ℚ) _ first last
    (largestIn first last (releases (.new rate start) calls)) _ _
    ↑(releasedIn first last (releases (.new rate start) calls))
    (allowed_served rate limited start calls now ordered first last _) hrate forward
    (hrate.le.trans (le_max_left _ _)) (Multiset.coe_le.mpr List.filter_sublist.subperm)
  rw [add_comm]
  refine le_trans (le_of_eq ?_) (interval ?_)
  · rw [bytesIn, total, Multiset.map_coe, Multiset.sum_coe]
  · intro c member
    have inside := (List.mem_filter.mp member).2
    rw [decide_eq_true_eq] at inside
    exact ⟨inside.1, inside.2, (le_foldr_max _ _).2 _ (List.mem_map_of_mem member)⟩

omit limited in
theorem ordered_prefix {start now : ℚ} (made coming : List Call) (x : ℚ)
    (ordered : Ordered start (made ++ coming) now) (started : start ≤ x)
    (past : ∀ c ∈ made, c.time ≤ x) : Ordered start made x := by
  rw [Ordered, List.map_append, ← List.cons_append, List.append_assoc] at ordered
  refine List.pairwise_append.mpr ⟨(List.pairwise_append.mp ordered).1, by simp, ?_⟩
  intro time member last isLast
  rw [List.mem_singleton.mp isLast]
  cases List.mem_cons.mp member with
  | inl first => rwa [first]
  | inr later =>
      obtain ⟨c, made, rfl⟩ := List.mem_map.mp later
      exact past c made

theorem requested_full (calls : List Call) (now : ℚ) (ordered : Ordered start calls now)
    (full : owed rate start calls ≤ now - 1) : requestedSince now calls = 0 := by
  have hrate : (0 : ℚ) < rate := by exact_mod_cast limited
  induction calls using List.reverseRecOn with
  | nil => rfl
  | append_singleton calls c ih =>
      obtain ⟨before, forward⟩ := ordered_snoc ordered
      rw [requested_snoc]
      by_cases since : now ≤ c.time
      · -- a call at this instant was for no bytes, or the bucket would not be full
        have same : c.time = now := le_antisymm forward since
        rw [owed_snoc rate limited start calls c before, charge, same] at full
        have share : (0 : ℚ) ≤ c.bytes / rate := div_nonneg (Nat.cast_nonneg _) hrate.le
        have least := le_max_right (owed rate start calls) (now - 1)
        have earlier := le_max_left (owed rate start calls) (now - 1)
        have nothing : (c.bytes : ℚ) / rate = 0 := by linarith
        have empty : c.bytes = 0 := by
          rcases div_eq_zero_iff.mp nothing with zero | zero
          · exact_mod_cast zero
          · exact absurd zero hrate.ne'
        rw [if_pos since, empty, ih (same ▸ before) (by linarith)]
      · rw [if_neg since]
        have sooner : c.time < now := not_le.mp since
        have none : (calls.filter fun d => decide (now ≤ d.time)) = [] := by
          refine List.filter_eq_nil_iff.mpr fun d member late => ?_
          exact absurd ((of_decide_eq_true late).trans (before.past d member)) (not_le.mpr sooner)
        rw [requestedSince, none]
        rfl

/-- The induction is on the calls from the last one: either the bucket is full again now, or the
last full instant is the one before the call, and the call is one more since then. -/
theorem paid_since (calls : List Call) (now : ℚ) (ordered : Ordered start calls now) :
    ∃ x, LastFull rate start calls now x ∧
      max (owed rate start calls) (now - 1) = x - 1 + (requestedSince x calls : ℚ) / rate := by
  induction calls using List.reverseRecOn generalizing now with
  | nil =>
      have started := ordered.starts
      have full : owed rate start [] ≤ now - 1 := by
        rw [owed_nil rate limited start]
        linarith
      refine ⟨now, ⟨?_, fun y was => was.choose_spec.choose_spec.2.2.1⟩, ?_⟩
      · exact ⟨[], [], rfl, started, le_rfl, by simp, by simp,
          (full_iff rate limited start [] now ordered).mpr full⟩
      · rw [max_eq_right full]
        simp [requestedSince]
  | append_singleton calls c ih =>
      obtain ⟨before, forward⟩ := ordered_snoc ordered
      by_cases full : owed rate start (calls ++ [c]) ≤ now - 1
      · refine ⟨now, ⟨?_, fun y was => was.choose_spec.choose_spec.2.2.1⟩, ?_⟩
        · exact ⟨calls ++ [c], [], (List.append_nil _).symm, ordered.starts, le_rfl,
            ordered.past, by simp, (full_iff rate limited start _ now ordered).mpr full⟩
        · rw [max_eq_right full, requested_full rate limited start _ now ordered full]
          simp
      · obtain ⟨x, ⟨was, last⟩, paid⟩ := ih c.time before
        obtain ⟨made, coming, cut, started, sooner, past, ahead, wasFull⟩ := was
        refine ⟨x, ⟨?_, ?_⟩, ?_⟩
        · refine ⟨made, coming ++ [c], by rw [cut, List.append_assoc], started,
            sooner.trans forward, past, ?_, wasFull⟩
          intro d member
          cases List.mem_append.mp member with
          | inl earlier => exact ahead d earlier
          | inr isLast => rwa [List.mem_singleton.mp isLast]
        · -- a later full instant lies after the call, and the bucket is not full now, or before it
          rintro y ⟨first, rest, split, begun, y_now, gone, comes, y_full⟩
          cases rest using List.reverseRecOn with
          | nil =>
              rw [List.append_nil] at split
              subst split
              have atY := ordered_prefix _ [] y (by rwa [List.append_nil]) begun gone
              have paidUp := (full_iff rate limited start _ y atY).mp y_full
              exact absurd (paidUp.trans (by linarith)) full
          | append_singleton rest d =>
              rw [← List.append_assoc] at split
              obtain ⟨rfl, same⟩ := List.append_inj' split rfl
              cases same
              exact last y ⟨first, rest, rfl, begun, comes c (by simp), gone,
                fun d member => comes d (List.mem_append_left _ member), y_full⟩
        · rw [max_eq_left (not_le.mp full).le, owed_snoc rate limited start calls c before, charge,
            paid, requested_snoc, if_pos sooner]
          push_cast
          ring

theorem release_of_wait (calls : List Call) (c : Call) (ordered : Ordered start calls c.time)
    (waits : 0 < ((serve (.new rate start) calls).acquire c.time c.bytes).1) :
    ∃ x, LastFull rate start calls c.time x ∧
      c.time + ((serve (.new rate start) calls).acquire c.time c.bytes).1 =
        x + ((requestedSince x (calls ++ [c]) : ℚ) - rate) / rate := by
  have hrate : (rate : ℚ) ≠ 0 := by exact_mod_cast limited.ne'
  obtain ⟨x, last, paid⟩ := paid_since rate limited start calls c.time ordered
  refine ⟨x, last, ?_⟩
  obtain ⟨_, _, _, _, sooner, _⟩ := last.1
  have due := release_eq rate limited start calls c ordered
  have later : c.time < dueAt (owed rate start (calls ++ [c])) c.time := by linarith
  -- a call that waits is let through when all is paid for
  have owing : dueAt (owed rate start (calls ++ [c])) c.time = owed rate start (calls ++ [c]) :=
    max_eq_right (le_of_not_ge fun early => absurd later (by rw [dueAt, max_eq_left early]; simp))
  rw [due, owing, owed_snoc rate limited start calls c ordered, charge, paid, requested_snoc,
    if_pos sooner, sub_div, div_self hrate]
  push_cast
  ring

end Runs

/-- One bucket, alone: it lets calls through in their order, never faster than its rate but for a
second's tokens or one large request, and never later than that. -/
theorem single_bucket (rate : Nat) (limited : 0 < rate) (start now : ℚ) (calls : List Call)
    (ordered : Ordered start calls now) :
    ((releases (.new rate start) calls).map Charge.due).Pairwise (· ≤ ·) ∧
      (serve (.new rate start) calls).tokens ≤ rate ∧
      (∀ first last : ℚ, first ≤ last →
        bytesIn first last (releases (.new rate start) calls) ≤
          max (rate : ℚ) (largestIn first last (releases (.new rate start) calls)) +
            rate * (last - first)) ∧
      ∀ before c after, calls = before ++ c :: after →
        0 < ((serve (.new rate start) before).acquire c.time c.bytes).1 →
        ∃ x, LastFull rate start before c.time x ∧
          c.time + ((serve (.new rate start) before).acquire c.time c.bytes).1 =
            x + ((requestedSince x (before ++ [c]) : ℚ) - rate) / rate := by
  refine ⟨released_sorted rate limited start calls now ordered,
    tokens_le rate limited start calls now ordered,
    bytes_le rate limited start calls now ordered, ?_⟩
  rintro before c after rfl waits
  have upTo : Ordered start before c.time := by
    rw [Ordered, List.map_append, List.map_cons, ← List.cons_append, List.append_assoc] at ordered
    obtain ⟨earlier, _, across⟩ := List.pairwise_append.mp ordered
    refine List.pairwise_append.mpr ⟨earlier, by simp, fun time member last isLast => ?_⟩
    rw [List.mem_singleton.mp isLast]
    exact across time member c.time (by simp)
  exact release_of_wait rate limited start before c upTo waits

/-- Six bytes of a rate of four, and two more half a second later. -/
theorem single_bucket_owing :
    ∃ x, LastFull 4 0 [⟨0, 6⟩] (1 / 2) x ∧
      (1 / 2 : ℚ) + ((serve (.new 4 0) [⟨0, 6⟩]).acquire (1 / 2) 2).1 =
        x + ((requestedSince x [⟨0, 6⟩, ⟨1 / 2, 2⟩] : ℚ) - 4) / 4 := by
  have ordered : Ordered 0 [⟨0, 6⟩, ⟨1 / 2, 2⟩] 1 := by
    simp [Ordered]
    norm_num
  refine (single_bucket 4 (by decide) 0 1 [⟨0, 6⟩, ⟨1 / 2, 2⟩] ordered).2.2.2 [⟨0, 6⟩] ⟨1 / 2, 2⟩ []
    rfl ?_
  decide +kernel

end FileReplicator.SingleBucket
