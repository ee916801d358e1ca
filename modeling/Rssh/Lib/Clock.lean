import Mathlib.Algebra.Ring.Nat
import Mathlib.Order.Defs.LinearOrder
import Mathlib.Order.Lattice
import Mathlib.Tactic.Common

/-!
# Instants of a bounded clock

Durations are numbers of nanoseconds, and an instant is one that the clock's type can represent. The
operations are those of `std::time::Instant`: an addition whose end is not representable has no
result.
-/

/-- An instant of a clock whose largest one is `limit`. -/
structure Instant (limit : Nat) where
  nanos : Nat
  nanos_le : nanos ≤ limit
deriving DecidableEq, Repr

namespace Instant

variable {limit : Nat}

/-- An instant is determined by its number of nanoseconds. -/
theorem nanos_injective : Function.Injective (nanos : Instant limit → Nat) := by
  intro a b h
  cases a
  cases b
  congr

instance : LinearOrder (Instant limit) := LinearOrder.lift' nanos nanos_injective

theorem le_iff {a b : Instant limit} : a ≤ b ↔ a.nanos ≤ b.nanos := Iff.rfl

theorem lt_iff {a b : Instant limit} : a < b ↔ a.nanos < b.nanos := Iff.rfl

/-- The earlier of two instants has the smaller number. -/
theorem nanos_min (a b : Instant limit) : (min a b).nanos = min a.nanos b.nanos := by
  rcases le_total a b with h | h
  · rw [min_eq_left h, Nat.min_eq_left (le_iff.mp h)]
  · rw [min_eq_right h, Nat.min_eq_right (le_iff.mp h)]

/-- `checked_add`. -/
def checkedAdd (t : Instant limit) (duration : Nat) : Option (Instant limit) :=
  if h : t.nanos + duration ≤ limit then some ⟨t.nanos + duration, h⟩ else none

/-- `checked_sub`. -/
def checkedSub (t : Instant limit) (duration : Nat) : Option (Instant limit) :=
  if duration ≤ t.nanos then some ⟨t.nanos - duration, (Nat.sub_le _ _).trans t.nanos_le⟩ else none

/-- `saturating_duration_since`. -/
def saturatingDurationSince (t earlier : Instant limit) : Nat := t.nanos - earlier.nanos

/-- An addition with another instant in the place of an end that cannot be represented. -/
theorem nanos_checkedAdd_getD (t other : Instant limit) (duration : Nat) :
    ((t.checkedAdd duration).getD other).nanos =
      if t.nanos + duration ≤ limit then t.nanos + duration else other.nanos := by
  unfold checkedAdd
  split
  · rfl
  · rfl

end Instant
