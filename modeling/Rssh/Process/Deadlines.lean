import Rssh.Lib.Clock

/-!
# Deadlines

Three places of the test support add a duration to the current instant: the deadline of a shutdown,
the one of a cleanup, and the cap on what remains to a child. An end that the clock cannot represent
is replaced by the current instant.

* `deadlines_monotone_iff` says when a longer duration still gives the later end, and when a cap
  that is longer than the remaining time changes nothing.
-/

namespace Rssh

variable {limit : Nat}

structure ShutdownDeadline (limit : Nat) where
  at_ : Instant limit
  budget : Nat
deriving DecidableEq, Repr

namespace ShutdownDeadline

/-- `ShutdownDeadline::after`; the clock is read again when the end cannot be represented. -/
def after (first second : Instant limit) (budget : Nat) : ShutdownDeadline limit where
  at_ := (first.checkedAdd budget).getD second
  budget

/-- `ABORT_RESERVE`, in nanoseconds. -/
def abortReserve : Nat := 50 * 10 ^ 6

/-- `ShutdownDeadline::abort_at`; the clock is read a first time only if the reserve is longer than
the clock has run. -/
def abortAt (deadline : ShutdownDeadline limit) (first second : Instant limit) : Instant limit :=
  max ((deadline.at_.checkedSub abortReserve).getD first) second

end ShutdownDeadline

/-- The deadline of `bounded_cleanup`. -/
def cleanupDeadline (started : Instant limit) (grace : Nat) : Instant limit :=
  (started.checkedAdd grace).getD started

/-- The bounds of a `ChildGuard`. -/
structure ChildBounds (limit : Nat) where
  deadline : Instant limit
  timeout : Nat
deriving DecidableEq, Repr

/-- `cap_remaining_timeout`. -/
def ChildBounds.capRemainingTimeout (bounds : ChildBounds limit) (now : Instant limit)
    (timeout : Nat) : ChildBounds limit :=
  let requested := (now.checkedAdd timeout).getD now
  let deadline := min bounds.deadline requested
  { deadline, timeout := deadline.saturatingDurationSince now }

/-- The ends for two durations are in their order, and a cap with the longer one leaves the deadline
of a child alone if it is at least what remains. -/
structure EndsOrdered (now later : Instant limit) (bounds : ChildBounds limit) (short long : Nat) :
    Prop where
  shutdown : (ShutdownDeadline.after now later short).at_ ≤
    (ShutdownDeadline.after now later long).at_
  cleanup : cleanupDeadline now short ≤ cleanupDeadline now long
  cap : (bounds.capRemainingTimeout now short).deadline ≤
    (bounds.capRemainingTimeout now long).deadline
  unchanged : ∀ duration, duration = short ∨ duration = long →
    bounds.deadline.saturatingDurationSince now ≤ duration →
    (bounds.capRemainingTimeout now duration).deadline = bounds.deadline

/-- A cap moves the deadline to its end, or to now when the end does not fit. -/
theorem nanos_capRemainingTimeout (bounds : ChildBounds limit) (now : Instant limit)
    (timeout : Nat) :
    (bounds.capRemainingTimeout now timeout).deadline.nanos =
      min bounds.deadline.nanos
        (if now.nanos + timeout ≤ limit then now.nanos + timeout else now.nanos) := by
  rw [← Instant.nanos_checkedAdd_getD, ← Instant.nanos_min]
  rfl

theorem nanos_after (now later : Instant limit) (budget : Nat) :
    (ShutdownDeadline.after now later budget).at_.nanos =
      if now.nanos + budget ≤ limit then now.nanos + budget else later.nanos :=
  Instant.nanos_checkedAdd_getD now later budget

theorem nanos_cleanupDeadline (started : Instant limit) (grace : Nat) :
    (cleanupDeadline started grace).nanos =
      if started.nanos + grace ≤ limit then started.nanos + grace else started.nanos :=
  Instant.nanos_checkedAdd_getD started started grace

section Ordered

variable {now later : Instant limit} {bounds : ChildBounds limit} {short long : Nat}

/-- The longer end can be represented. -/
theorem ordered_of_fits (h : short ≤ long) (hlong : now.nanos + long ≤ limit) :
    EndsOrdered now later bounds short long := by
  have hshort : now.nanos + short ≤ limit := by omega
  constructor
  · rw [Instant.le_iff, nanos_after, nanos_after, if_pos hshort, if_pos hlong]
    omega
  · rw [Instant.le_iff, nanos_cleanupDeadline, nanos_cleanupDeadline, if_pos hshort, if_pos hlong]
    omega
  · rw [Instant.le_iff, nanos_capRemainingTimeout, nanos_capRemainingTimeout, if_pos hshort,
      if_pos hlong]
    omega
  · intro duration hduration hremaining
    -- the shorter one fits, as the longer one does
    have hfits : now.nanos + duration ≤ limit := by
      rcases hduration with rfl | rfl
      · exact hshort
      · exact hlong
    unfold Instant.saturatingDurationSince at hremaining
    apply Instant.nanos_injective
    rw [nanos_capRemainingTimeout, if_pos hfits]
    omega

/-- The longer end cannot be represented, the child's deadline has passed, and the shorter end is
now too. -/
theorem ordered_of_past (hlater : now ≤ later)
    (hlong : ¬ now.nanos + long ≤ limit) (hpast : bounds.deadline ≤ now)
    (hshort : short = 0 ∨ limit < now.nanos + short) : EndsOrdered now later bounds short long := by
  rw [Instant.le_iff] at hlater hpast
  have hnow := now.nanos_le
  constructor
  · rw [Instant.le_iff, nanos_after, nanos_after, if_neg hlong]
    split <;> omega
  · rw [Instant.le_iff, nanos_cleanupDeadline, nanos_cleanupDeadline, if_neg hlong]
    split <;> omega
  · rw [Instant.le_iff, nanos_capRemainingTimeout, nanos_capRemainingTimeout, if_neg hlong]
    split <;> omega
  · intro duration _ _
    apply Instant.nanos_injective
    rw [nanos_capRemainingTimeout]
    split <;> omega

/-- For every current time, every deadline of a child and every two durations, up to the longest:
the three ends are in the order of the durations, and a cap of at least what remains changes
nothing, exactly when the clock can represent the longer end, or neither a deadline of the child
nor a shorter end lies in the future. -/
theorem deadlines_monotone_iff (hlater : now ≤ later) (h : short ≤ long) :
    EndsOrdered now later bounds short long ↔
      now.nanos + long ≤ limit ∨
        (bounds.deadline ≤ now ∧ (short = 0 ∨ limit < now.nanos + short)) := by
  constructor
  · intro hordered
    by_cases hlong : now.nanos + long ≤ limit
    · exact .inl hlong
    · right
      constructor
      · -- the cap with the longer duration falls back to now
        by_contra hfuture
        have hcap := hordered.unchanged long (.inr rfl)
        have hdeadline := bounds.deadline.nanos_le
        unfold Instant.saturatingDurationSince at hcap
        have heq := congrArg Instant.nanos (hcap (by omega))
        rw [nanos_capRemainingTimeout, if_neg hlong] at heq
        rw [Instant.le_iff] at hfuture
        omega
      · by_contra hshort
        have hcleanup := hordered.cleanup
        rw [Instant.le_iff, nanos_cleanupDeadline, nanos_cleanupDeadline, if_neg hlong,
          if_pos (by omega)] at hcleanup
        omega
  · rintro (hlong | ⟨hpast, hshort⟩)
    · exact ordered_of_fits h hlong
    · by_cases hlong : now.nanos + long ≤ limit
      · exact ordered_of_fits h hlong
      · exact ordered_of_past hlater hlong hpast hshort

end Ordered

/-! ## A clock of 64-bit seconds -/

/-- The longest duration: 64 bits of seconds and the nanoseconds of one. -/
def durationMax : Nat := (2 ^ 64 - 1) * 10 ^ 9 + 999999999

/-- A clock with signed 64-bit seconds. -/
def timespecLimit : Nat := (2 ^ 63 - 1) * 10 ^ 9 + 999999999

/-- One second after the start of the clock, with nine left to a child. -/
def oneSecond : Instant timespecLimit := ⟨10 ^ 9, by decide⟩

def tenSeconds : ChildBounds timespecLimit := ⟨⟨10 ^ 10, by decide⟩, 9 * 10 ^ 9⟩

/-- Seconds on a clock of 64 bits are far from its end. -/
theorem deadlines_monotone_seconds :
    EndsOrdered oneSecond oneSecond tenSeconds (10 ^ 8) (60 * 10 ^ 9) :=
  (deadlines_monotone_iff (le_refl _) (by decide)).mpr (.inl (by decide))

/-- A cap with the longest duration ends what remains at once. -/
theorem longest_cap_ends_now :
    (tenSeconds.capRemainingTimeout oneSecond durationMax).deadline = oneSecond ∧
      tenSeconds.deadline.saturatingDurationSince oneSecond ≤ durationMax ∧
      ¬ EndsOrdered oneSecond oneSecond tenSeconds (10 ^ 9) durationMax := by
  have hcap : (tenSeconds.capRemainingTimeout oneSecond durationMax).deadline = oneSecond := by
    decide
  refine ⟨hcap, by decide, fun hordered => ?_⟩
  have hunchanged := hordered.unchanged durationMax (.inr rfl) (by decide)
  rw [hcap] at hunchanged
  exact absurd hunchanged (by decide)

end Rssh
