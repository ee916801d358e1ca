import Rssh.Lib.Notify

/-!
# Cancellation handles and the task tracker

The three waits of the forwarding code that rest on `tokio::sync::Notify`: the two
cancellation handles wait for a flag, the task tracker waits for a count to reach zero.
Each is a source of `Rssh.Lib.Notify`, whose step is one atomic operation of the code; the
threads between their atomic operation and the `notify_waiters` after it are counted.

`no_lost_wakeup` is the result for all three.
-/

namespace Rssh

/-! ## Cancellation -/

/-- The flag of a cancellation handle and the number of `cancel` calls that have stored it
and not notified yet. -/
structure CancellationState where
  cancelled : Bool := false
  notifying : Nat := 0
deriving DecidableEq, Repr

inductive CancellationLabel where
  | store
  | notifyWaiters
deriving DecidableEq, Repr

/-- `cancel`: store the flag, then notify. -/
def CancellationState.step (s : CancellationState) : CancellationLabel → Option CancellationState
  | .store => some { cancelled := true, notifying := s.notifying + 1 }
  | .notifyWaiters =>
      if s.notifying = 0 then none else some { s with notifying := s.notifying - 1 }

/-- The two handles have the same shape. -/
def cancellation : NotifySource CancellationState CancellationLabel where
  step := CancellationState.step
  ready s := s.cancelled
  owing s := 0 < s.notifying
  notifies l := l = .notifyWaiters

def russhForwardCancellation : NotifySource CancellationState CancellationLabel := cancellation

def russhConnectionCancellation : NotifySource CancellationState CancellationLabel := cancellation

theorem cancellation_lawful : cancellation.Lawful := by
  intro s l s' h hsilent _ _
  cases l with
  | store =>
      obtain rfl := Option.some.inj h
      simp [cancellation]
  | notifyWaiters => simp [cancellation] at hsilent

/-! ## The task tracker -/

/-- `RemoteForwardTaskTracker`: the guards alive, and those whose drop took the count to
zero and has not notified yet. -/
structure RemoteForwardTaskTracker where
  active : Nat := 0
  notifying : Nat := 0
deriving DecidableEq, Repr

inductive TrackerLabel where
  | register
  | fetchSub
  | notifyWaiters
deriving DecidableEq, Repr

def RemoteForwardTaskTracker.step (s : RemoteForwardTaskTracker) :
    TrackerLabel → Option RemoteForwardTaskTracker
  | .register => some { s with active := s.active + 1 }
  | .fetchSub =>
      -- only a guard that is alive can be dropped
      if s.active = 0 then none
      else
        some { active := s.active - 1
               notifying := if s.active = 1 then s.notifying + 1 else s.notifying }
  | .notifyWaiters =>
      if s.notifying = 0 then none else some { s with notifying := s.notifying - 1 }

def remoteForwardTaskTracker : NotifySource RemoteForwardTaskTracker TrackerLabel where
  step := RemoteForwardTaskTracker.step
  ready s := s.active = 0
  owing s := 0 < s.notifying
  notifies l := l = .notifyWaiters

/-- The tracker counts down before it notifies. -/
theorem remoteForwardTaskTracker_lawful : remoteForwardTaskTracker.Lawful := by
  intro s l s' h hsilent hready howed
  cases l with
  | register =>
      obtain rfl := Option.some.inj h
      simp [remoteForwardTaskTracker] at hready
  | fetchSub =>
      simp only [remoteForwardTaskTracker, RemoteForwardTaskTracker.step] at h
      split at h
      · cases h
      · -- the count reaches zero only from one
        obtain rfl := Option.some.inj h
        simp only [remoteForwardTaskTracker, decide_eq_true_eq] at hready ⊢
        have hone : s.active = 1 := by omega
        simp [hone]
  | notifyWaiters => simp [remoteForwardTaskTracker] at hsilent

/-! ## No lost wake-up -/

/-- Some waiter is parked without a wake-up, what it waits for holds, and nobody is going
to notify it. -/
def LostWakeup {σ ℓ ι : Type} (N : NotifySource σ ℓ) (s : WaitState σ ι) : Prop :=
  (∃ i, s.waiter i = .parked false) ∧ N.ready s.source = true ∧ N.owing s.source = false

/-- The invariant excludes a lost wake-up. -/
theorem not_lostWakeup {σ ℓ ι : Type} {N : NotifySource σ ℓ} {s : WaitState σ ι}
    (hinv : WaitInv N s) : ¬ LostWakeup N s := by
  rintro ⟨⟨i, hparked⟩, hready, howing⟩
  have hunwoken : (s.waiter i).unwoken = true := by
    rw [hparked]
    rfl
  rw [hinv i hunwoken hready] at howing
  cases howing

/-- Whatever the cancellers, the guards and the waiters do, in any order, no wake-up is
lost. -/
theorem no_lost_wakeup {ι : Type} [DecidableEq ι] :
    (∀ trace s, (russhForwardCancellation.waiting ι).run (.init {}) trace = some s →
      ¬ LostWakeup russhForwardCancellation s) ∧
    (∀ trace s, (russhConnectionCancellation.waiting ι).run (.init {}) trace = some s →
      ¬ LostWakeup russhConnectionCancellation s) ∧
    (∀ trace s, (remoteForwardTaskTracker.waiting ι).run (.init {}) trace = some s →
      ¬ LostWakeup remoteForwardTaskTracker s) := by
  refine ⟨?_, ?_, ?_⟩
  · intro trace s hrun
    exact not_lostWakeup (waiting_inv cancellation_lawful hrun)
  · intro trace s hrun
    exact not_lostWakeup (waiting_inv cancellation_lawful hrun)
  · intro trace s hrun
    exact not_lostWakeup (waiting_inv remoteForwardTaskTracker_lawful hrun)

/-- A canceller stores the flag while a waiter parks, and notifies it after. -/
def parkedTrace : List (WaitLabel CancellationLabel Unit) :=
  [.call (), .advance (), .advance (), .advance (), .source .store, .advance ()]

/-- A waiter that is parked when the flag is raised is owed a wake-up. -/
theorem parkedTrace_is_owed :
    ∃ s, (russhForwardCancellation.waiting Unit).run (.init {}) parkedTrace = some s ∧
      s.waiter () = .parked false ∧ s.source.cancelled = true ∧
      ¬ LostWakeup russhForwardCancellation s :=
  ⟨_, rfl, rfl, rfl, no_lost_wakeup.1 parkedTrace _ rfl⟩

end Rssh
