import FileReplicator.Domain

/-!
# Attempts that heal

Repeated delivery attempts over a state they change: whether some finite number
of them, with nothing but transient errors in between, ends in success.
-/

namespace FileReplicator.Healing

open Domain

variable {σ : Type} (attempt : σ → DeliverResult × σ) (full : σ → Prop)

/-- The next attempt succeeds in full, or it fails transiently and the rest of `count` heals. -/
def HealsIn : Nat → σ → Prop
  | 0, _ => False
  | count + 1, state =>
      match attempt state with
      | (.ok _, after) => full after
      | (.err e, after) => e.isTransient = true ∧ HealsIn count after
      | (.interrupted, _) => False

def Heals (state : σ) : Prop :=
  ∃ count, HealsIn attempt full count state

theorem heals_in_ok (count : Nat) (state : σ) (d : Delivered) (ok : (attempt state).1 = .ok d) :
    HealsIn attempt full (count + 1) state ↔ full (attempt state).2 := by
  have hpair : attempt state = (.ok d, (attempt state).2) := by rw [← ok]
  rw [HealsIn, hpair]

theorem heals_in_err (count : Nat) (state : σ) (e : ReplError) (err : (attempt state).1 = .err e) :
    HealsIn attempt full (count + 1) state ↔
      e.isTransient = true ∧ HealsIn attempt full count (attempt state).2 := by
  have hpair : attempt state = (.err e, (attempt state).2) := by rw [← err]
  rw [HealsIn, hpair]

theorem heals_iff_of_ok (state : σ) (d : Delivered) (ok : (attempt state).1 = .ok d) :
    Heals attempt full state ↔ full (attempt state).2 := by
  constructor
  · rintro ⟨count, heals⟩
    cases count with
    | zero => exact heals.elim
    | succ count => exact (heals_in_ok attempt full count state d ok).mp heals
  · intro done
    exact ⟨1, (heals_in_ok attempt full 0 state d ok).mpr done⟩

theorem heals_iff_of_err (state : σ) (e : ReplError) (err : (attempt state).1 = .err e) :
    Heals attempt full state ↔ e.isTransient = true ∧ Heals attempt full (attempt state).2 := by
  constructor
  · rintro ⟨count, heals⟩
    cases count with
    | zero => exact heals.elim
    | succ count =>
        have later := (heals_in_err attempt full count state e err).mp heals
        exact ⟨later.1, count, later.2⟩
  · rintro ⟨transient, count, heals⟩
    exact ⟨count + 1, (heals_in_err attempt full count state e err).mpr ⟨transient, heals⟩⟩

/-- Attempts that only ever fail from `stuck` states into `stuck` states heal nothing. -/
theorem not_heals_of_stuck (stuck : σ → Prop)
    (fails : ∀ state, stuck state →
      (∃ e, (attempt state).1 = .err e) ∧ stuck (attempt state).2)
    (state : σ) (held : stuck state) : ¬Heals attempt full state := by
  rintro ⟨count, heals⟩
  induction count generalizing state with
  | zero => exact heals
  | succ count ih =>
      obtain ⟨⟨e, herr⟩, hstuck⟩ := fails state held
      exact ih _ hstuck ((heals_in_err attempt full count state e herr).mp heals).2

end FileReplicator.Healing
