import Mathlib.Algebra.BigOperators.Group.Multiset.Basic
import Mathlib.Algebra.Order.Field.Basic
import Mathlib.Tactic.Linarith

/-!
# Virtual schedules

A meter with a rate and a burst. What it remembers is one moment, at which all
that was charged so far is paid for; each charge moves it on. An amount is due
when it is paid for, and at once if the burst covers it. Amounts are charged in
the order of their moments, but what they add up to does not depend on it.
-/

namespace FileReplicator.VirtualSchedule

variable {K : Type} [Field K]

structure Charge (K : Type) where
  amount : K
  due : K

def total (charges : Multiset (Charge K)) : K := (charges.map Charge.amount).sum

theorem total_cons (c : Charge K) (charges : Multiset (Charge K)) :
    total (c ::ₘ charges) = c.amount + total charges := by
  simp [total]

variable [LinearOrder K]

/-- The moment at which everything is paid for, after a charge. -/
def charge (rate burst paid now amount : K) : K :=
  max paid (now - burst) + amount / rate

def dueAt (paid now : K) : K := max now paid

/-- Whatever part of the charges is due between two moments, it adds up to the rate over what has
been paid of the time between them, the burst and one more charge at most. -/
def Metered (rate burst paid : K) (charges : Multiset (Charge K)) : Prop :=
  ∀ first last most : K, ∀ part ≤ charges,
    (∀ c ∈ part, first ≤ c.due ∧ c.due ≤ last ∧ c.amount ≤ most) →
      part = 0 ∨ total part ≤ rate * (min paid last - first) + rate * burst + most

/-- The same for one interval, one size and one allowance. -/
def Allowed (rate paid first last most allow : K) (charges : Multiset (Charge K)) : Prop :=
  ∀ part ≤ charges, (∀ c ∈ part, first ≤ c.due ∧ c.due ≤ last ∧ c.amount ≤ most) →
    part = 0 ∨ total part ≤ rate * (min paid last - first) + allow

theorem metered_start (rate burst paid : K) : Metered rate burst paid 0 := by
  intro first last most part below _
  exact Or.inl (Multiset.le_zero.mp below)

section Charging

variable [IsStrictOrderedRing K] (rate burst paid now amount : K)

theorem paid_le_charge (positive : 0 < rate) (sized : 0 ≤ amount) :
    paid ≤ charge rate burst paid now amount := by
  have hshare : 0 ≤ amount / rate := div_nonneg sized positive.le
  have hmax := le_max_left paid (now - burst)
  unfold charge
  linarith

/-- The charge itself is covered: by the burst if it is due at once, else by its own size. -/
theorem first_charge (positive : 0 < rate) (first allow : K)
    (later : first ≤ dueAt (charge rate burst paid now amount) now)
    (covers : rate * burst ≤ allow) (small : amount ≤ allow) :
    amount ≤ rate * (charge rate burst paid now amount - first) + allow := by
  have hshare : rate * (amount / rate) = amount := mul_div_cancel₀ amount positive.ne'
  rw [dueAt] at later
  rcases le_total now (charge rate burst paid now amount) with owing | covered
  · rw [max_eq_right owing] at later
    have hpaid : 0 ≤ rate * (charge rate burst paid now amount - first) :=
      mul_nonneg positive.le (by linarith)
    linarith
  · rw [max_eq_left covered] at later
    have hfrom : first - burst + amount / rate ≤ charge rate burst paid now amount := by
      have hmax := le_max_right paid (now - burst)
      unfold charge
      linarith
    have hscaled := mul_le_mul_of_nonneg_left hfrom positive.le
    have hexpand : rate * (first - burst + amount / rate) =
        rate * first - rate * burst + amount := by
      rw [mul_add, mul_sub, hshare]
    have hsplit : rate * (charge rate burst paid now amount - first) =
        rate * charge rate burst paid now amount - rate * first := mul_sub _ _ _
    linarith

theorem more_charged (positive : 0 < rate) (first last allow sum : K)
    (bounded : sum ≤ rate * (min paid last - first) + allow) :
    amount + sum ≤ rate * (charge rate burst paid now amount - first) + allow := by
  have hshare : rate * (amount / rate) = amount := mul_div_cancel₀ amount positive.ne'
  have hfrom : min paid last + amount / rate ≤ charge rate burst paid now amount := by
    have hmax := le_max_left paid (now - burst)
    have hmin := min_le_left paid last
    unfold charge
    linarith
  have hscaled := mul_le_mul_of_nonneg_left hfrom positive.le
  have hexpand : rate * (min paid last + amount / rate) = rate * min paid last + amount := by
    rw [mul_add, hshare]
  have hsplit : rate * (min paid last - first) = rate * min paid last - rate * first := mul_sub _ _ _
  have hgoal : rate * (charge rate burst paid now amount - first) =
      rate * charge rate burst paid now amount - rate * first := mul_sub _ _ _
  linarith

/-- An allowance that covers the burst and the charge is enough for whatever is due in an
interval. -/
theorem allowed_charge (positive : 0 < rate) (sized : 0 ≤ amount) (first last most allow : K)
    (covers : amount ≤ most → rate * burst ≤ allow ∧ most ≤ allow) (charges : Multiset (Charge K))
    (allowed : Allowed rate paid first last most allow charges) :
    Allowed rate (charge rate burst paid now amount) first last most allow
      (⟨amount, dueAt (charge rate burst paid now amount) now⟩ ::ₘ charges) := by
  intro part below within
  by_cases among :
      (⟨amount, dueAt (charge rate burst paid now amount) now⟩ : Charge K) ∈ part
  · right
    obtain ⟨rest, rfl⟩ := Multiset.exists_cons_of_mem among
    have hbelow := (Multiset.cons_le_cons_iff _).mp below
    obtain ⟨later, sooner, small⟩ := within _ among
    have hmin : min (charge rate burst paid now amount) last =
        charge rate burst paid now amount :=
      min_eq_left ((le_max_right _ _).trans sooner)
    rw [total_cons, hmin]
    rcases allowed rest hbelow
      (fun c hc => within c (Multiset.mem_cons_of_mem hc)) with rfl | bounded
    · have hone := first_charge rate burst paid now amount positive first allow later
        (covers small).1 (small.trans (covers small).2)
      simpa [total] using hone
    · exact more_charged rate burst paid now amount positive first last allow _ bounded
  · rcases allowed part ((Multiset.le_cons_of_notMem among).mp below) within with
      none | bounded
    · exact Or.inl none
    · right
      have hmin : min paid last ≤ min (charge rate burst paid now amount) last :=
        min_le_min_right last (paid_le_charge rate burst paid now amount positive sized)
      have hscaled : rate * (min paid last - first) ≤
          rate * (min (charge rate burst paid now amount) last - first) :=
        mul_le_mul_of_nonneg_left (by linarith) positive.le
      linarith

theorem metered_charge (positive : 0 < rate) (bursts : 0 ≤ burst) (sized : 0 ≤ amount)
    (charges : Multiset (Charge K)) (metered : Metered rate burst paid charges) :
    Metered rate burst (charge rate burst paid now amount)
      (⟨amount, dueAt (charge rate burst paid now amount) now⟩ ::ₘ charges) := by
  intro first last most
  have hburst : 0 ≤ rate * burst := mul_nonneg positive.le bursts
  have hallowed := allowed_charge rate burst paid now amount positive sized first last most
    (rate * burst + most) (fun small => ⟨by linarith, by linarith⟩) charges
  simp only [Allowed, ← add_assoc] at hallowed
  exact hallowed (metered first last most)

end Charging

theorem allowed_interval [IsStrictOrderedRing K] (rate paid first last most allow : K)
    (charges part : Multiset (Charge K)) (allowed : Allowed rate paid first last most allow charges)
    (positive : 0 < rate) (forward : first ≤ last) (covers : 0 ≤ allow) (below : part ≤ charges)
    (within : ∀ c ∈ part, first ≤ c.due ∧ c.due ≤ last ∧ c.amount ≤ most) :
    total part ≤ rate * (last - first) + allow := by
  have hlength : 0 ≤ rate * (last - first) := mul_nonneg positive.le (by linarith)
  rcases allowed part below within with rfl | bounded
  · have hnone : total (0 : Multiset (Charge K)) = 0 := by simp [total]
    rw [hnone]
    linarith
  · have hscaled : rate * (min paid last - first) ≤ rate * (last - first) :=
      mul_le_mul_of_nonneg_left (by linarith [min_le_right paid last]) positive.le
    linarith

theorem metered_interval [IsStrictOrderedRing K] (rate burst paid : K) (charges part : Multiset (Charge K))
    (metered : Metered rate burst paid charges) (positive : 0 < rate) (bursts : 0 ≤ burst)
    (first last most : K) (forward : first ≤ last) (sized : 0 ≤ most) (below : part ≤ charges)
    (within : ∀ c ∈ part, first ≤ c.due ∧ c.due ≤ last ∧ c.amount ≤ most) :
    total part ≤ rate * (last - first) + rate * burst + most := by
  have hallowed : Allowed rate paid first last most (rate * burst + most) charges := by
    intro part below within
    rw [← add_assoc]
    exact metered first last most part below within
  rw [add_assoc]
  exact allowed_interval rate paid first last most _ charges part hallowed positive forward
    (add_nonneg (mul_nonneg positive.le bursts) sized) below within

end FileReplicator.VirtualSchedule
