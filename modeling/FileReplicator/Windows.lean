import Mathlib.Order.Bounds.Basic

/-!
# Windows on a line

Openings on a linear order, each with a close of its own or none. The last
opening decides whether a window is open. A pairing in which a later opening
never closes sooner keeps a window open until its first close.
-/

namespace FileReplicator.Windows

variable {T : Type} [LinearOrder T]

structure Timetable (T : Type) where
  opens : Set T
  closeOf : T → Option T

namespace Timetable

variable (w : Timetable T)

def Last (t o : T) : Prop := IsGreatest (w.opens ∩ Set.Iic t) o

def Next (t o : T) : Prop := IsLeast (w.opens ∩ Set.Ici t) o

def OpenAt (t : T) : Prop := ∃ o c, w.Last t o ∧ w.closeOf o = some c ∧ t < c

/-- An opening inside of a span has a close, and not before the end of the span. -/
def Lasting : Prop :=
  ∀ o o' c, o ≤ o' → w.closeOf o = some c → o' < c → ∃ c', w.closeOf o' = some c' ∧ c ≤ c'

def HasLast : Prop := ∀ t o, o ∈ w.opens → o ≤ t → ∃ last, w.Last t last

theorem last_unique (t o o' : T) (last : w.Last t o) (last' : w.Last t o') : o = o' :=
  last.unique last'

/-- An open window stays open until the close that belongs to its last opening. -/
theorem open_until (lasting : w.Lasting) (hasLast : w.HasLast) (now t o c : T) (last : w.Last now o)
    (close : w.closeOf o = some c) (reached : now ≤ t) (before : t < c) : w.OpenAt t := by
  obtain ⟨later, last'⟩ := hasLast t o last.1.1 (le_trans last.1.2 reached)
  have order : o ≤ later := last'.2 ⟨last.1.1, le_trans last.1.2 reached⟩
  obtain ⟨c', close', after⟩ := lasting o later c order close (lt_of_le_of_lt last'.1.2 before)
  exact ⟨later, c', last', close', lt_of_lt_of_le before after⟩

theorem closed_until (now t : T) (shut : ¬w.OpenAt now) (reached : now ≤ t)
    (none : ∀ o ∈ w.opens, now ≤ o → t < o) : ¬w.OpenAt t := by
  rintro ⟨o, c, last, close, before⟩
  have earlier : o ≤ now := by
    by_contra later
    exact absurd (none o last.1.1 (le_of_lt (not_le.mp later))) (not_lt.mpr last.1.2)
  refine shut ⟨o, c, ⟨⟨last.1.1, earlier⟩, fun o' member => ?_⟩, close, lt_of_le_of_lt reached before⟩
  exact last.2 ⟨member.1, le_trans member.2 reached⟩

theorem last_of_next (now o : T) (next : w.Next now o) : w.Last o o :=
  ⟨⟨next.1.1, le_rfl⟩, fun _ member => member.2⟩

/-- A window is open for a while after every instant exactly if after every instant there is an
opening that is not closed at once. -/
theorem open_again_iff (lasting : w.Lasting) (hasLast : w.HasLast) :
    (∀ t, ∃ a b, t ≤ a ∧ a < b ∧ ∀ s, a ≤ s → s < b → w.OpenAt s) ↔
      ∀ t, ∃ o c, t ≤ o ∧ o ∈ w.opens ∧ w.closeOf o = some c ∧ o < c := by
  constructor
  · intro again t
    -- past the close of the opening before `t`, only a later opening helps
    have past : ∃ t', t ≤ t' ∧ ∀ o c, w.Last t o → w.closeOf o = some c → c ≤ t' := by
      by_cases known : ∃ o c, w.Last t o ∧ w.closeOf o = some c
      · obtain ⟨o, c, last, close⟩ := known
        refine ⟨max t c, le_max_left t c, fun o' c' last' close' => ?_⟩
        rw [w.last_unique t o' o last' last, close, Option.some.injEq] at close'
        exact close' ▸ le_max_right t c
      · exact ⟨t, le_rfl, fun o c last close => absurd ⟨o, c, last, close⟩ known⟩
    obtain ⟨t', after, ended⟩ := past
    obtain ⟨a, b, reached, inside, opened⟩ := again t'
    obtain ⟨o, c, last, close, before⟩ := opened a le_rfl inside
    refine ⟨o, c, ?_, last.1.1, close, lt_of_le_of_lt last.1.2 before⟩
    by_contra earlier
    have lastT : w.Last t o := by
      refine ⟨⟨last.1.1, le_of_lt (not_le.mp earlier)⟩, fun other member => ?_⟩
      exact last.2 ⟨member.1, le_trans member.2 (le_trans after reached)⟩
    exact absurd (le_trans (ended o c lastT close) reached) (not_le.mpr before)
  · intro again t
    obtain ⟨o, c, after, occurs, close, inside⟩ := again t
    have last : w.Last o o := ⟨⟨occurs, le_rfl⟩, fun _ member => member.2⟩
    exact ⟨o, c, after, inside, fun s reached before =>
      w.open_until lasting hasLast o s o c last close reached before⟩

end Timetable

end FileReplicator.Windows
