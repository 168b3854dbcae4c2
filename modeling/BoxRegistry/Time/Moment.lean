/-!
This module contains moments of universal time with a resolution of one nanosecond. A moment within
a leap second is written with more than 999 999 999 nanoseconds in the second before it, so moments
are ordered by their seconds first and by their nanoseconds second.
-/

namespace BoxRegistry.Time

structure Moment where
  seconds : Int
  nanos : Nat := 0
deriving DecidableEq, Repr, Inhabited

namespace Moment

instance : LE Moment where
  le a b := a.seconds < b.seconds ∨ (a.seconds = b.seconds ∧ a.nanos ≤ b.nanos)

instance (a b : Moment) : Decidable (a ≤ b) :=
  inferInstanceAs (Decidable (a.seconds < b.seconds ∨ (a.seconds = b.seconds ∧ a.nanos ≤ b.nanos)))

instance : Max Moment where
  max a b := if a ≤ b then b else a

theorem le_def {a b : Moment} :
    a ≤ b ↔ a.seconds < b.seconds ∨ (a.seconds = b.seconds ∧ a.nanos ≤ b.nanos) := Iff.rfl

@[simp]
theorem le_refl (a : Moment) : a ≤ a := by
  simp [le_def]

theorem le_trans {a b c : Moment} (h₁ : a ≤ b) (h₂ : b ≤ c) : a ≤ c := by
  simp only [le_def] at *
  omega

theorem le_total (a b : Moment) : a ≤ b ∨ b ≤ a := by
  simp only [le_def]
  omega

theorem max_def (a b : Moment) : max a b = if a ≤ b then b else a := rfl

theorem le_max_left (a b : Moment) : a ≤ max a b := by
  rw [max_def]
  split
  · assumption
  · simp

theorem le_max_right (a b : Moment) : b ≤ max a b := by
  rw [max_def]
  split
  · simp
  · exact (le_total a b).resolve_left ‹_›

end Moment

end BoxRegistry.Time
