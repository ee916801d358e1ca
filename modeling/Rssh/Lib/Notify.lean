import Mathlib.Logic.Function.Basic
import Rssh.Lib.Machine

/-!
# Waiting for a condition with notifications

The pattern of a condition guarded by `tokio::sync::Notify`: whoever makes the condition
true then calls `notify_waiters`, and a waiter checks the condition, creates its notified
future, checks again and parks on the future. A notified future receives every
`notify_waiters` issued after its creation.

* `NotifySource` is the side that changes the condition, and `Lawful` what it owes: a step
  that makes the condition true leaves a notification to be issued.
* `waiting` is the machine of a source and any number of waiters, in all interleavings.
* `waiting_inv`: a waiter that is past its second check and has no wake-up is still owed
  one whenever the condition holds.
-/

universe u v w

/-- The side that changes the condition. `owing` says that some notification is still to
be issued, and `notifies` which steps issue one. -/
structure NotifySource (σ : Type u) (ℓ : Type v) where
  step : σ → ℓ → Option σ
  ready : σ → Bool
  owing : σ → Bool
  notifies : ℓ → Bool

/-- A step that notifies nobody leaves a notification owed if it makes the condition
true, and drops none that was owed before. -/
def NotifySource.Lawful {σ : Type u} {ℓ : Type v} (N : NotifySource σ ℓ) : Prop :=
  ∀ s l s', N.step s l = some s' → N.notifies l = false → N.ready s' = true →
    (N.ready s = true → N.owing s = true) → N.owing s' = true

/-- Where a waiter stands. From the creation of the future on, the flag says whether it
has received a notification. -/
inductive WaiterPc where
  | idle
  | checking
  | creating
  | rechecking (notified : Bool)
  | parking (notified : Bool)
  | parked (notified : Bool)
deriving DecidableEq, Repr

/-- What `notify_waiters` does to a waiter. -/
def WaiterPc.notify : WaiterPc → WaiterPc
  | .idle => .idle
  | .checking => .checking
  | .creating => .creating
  | .rechecking _ => .rechecking true
  | .parking _ => .parking true
  | .parked _ => .parked true

/-- The next step of a waiter that sees the condition as `ready`; a parked waiter without
a notification has none. -/
def WaiterPc.advance (ready : Bool) : WaiterPc → Option WaiterPc
  | .idle => none
  | .checking => some (if ready then .idle else .creating)
  | .creating => some (.rechecking false)
  | .rechecking notified => some (if ready then .idle else .parking notified)
  | .parking notified => some (if notified then .checking else .parked false)
  | .parked notified => if notified then some .checking else none

structure WaitState (σ : Type u) (ι : Type w) where
  source : σ
  waiter : ι → WaiterPc

inductive WaitLabel (ℓ : Type v) (ι : Type w) where
  | source (label : ℓ)
  /-- A call that waits begins. -/
  | call (i : ι)
  | advance (i : ι)
  /-- The waiting future is dropped. -/
  | abandon (i : ι)

section Machine

variable {σ : Type u} {ℓ : Type v} {ι : Type w} [DecidableEq ι]

def NotifySource.stepWaiting (N : NotifySource σ ℓ) (s : WaitState σ ι) :
    WaitLabel ℓ ι → Option (WaitState σ ι)
  | .source label =>
      (N.step s.source label).map fun source =>
        { source, waiter := if N.notifies label then fun i => (s.waiter i).notify else s.waiter }
  | .call i =>
      if s.waiter i = .idle then some { s with waiter := Function.update s.waiter i .checking }
      else none
  | .advance i =>
      ((s.waiter i).advance (N.ready s.source)).map fun pc =>
        { s with waiter := Function.update s.waiter i pc }
  | .abandon i => some { s with waiter := Function.update s.waiter i .idle }

/-- A source and its waiters. -/
def NotifySource.waiting (N : NotifySource σ ℓ) (ι : Type w) [DecidableEq ι] :
    Machine (WaitState σ ι) (WaitLabel ℓ ι) where
  step s l := N.stepWaiting s l

/-- A waiter that will sleep, or sleeps, on a future without a notification. -/
def WaiterPc.unwoken : WaiterPc → Bool
  | .parking false | .parked false => true
  | .parking true | .parked true => false
  | .idle | .checking | .creating | .rechecking _ => false

/-- An unwoken waiter is owed a notification while the condition holds. -/
def WaitInv (N : NotifySource σ ℓ) (s : WaitState σ ι) : Prop :=
  ∀ i, (s.waiter i).unwoken = true → N.ready s.source = true → N.owing s.source = true

theorem WaiterPc.notify_woken (pc : WaiterPc) : pc.notify.unwoken = false := by
  cases pc <;> rfl

/-- A waiter becomes unwoken only after it has seen that the condition does not hold. -/
theorem WaiterPc.advance_unwoken {ready : Bool} {pc pc' : WaiterPc}
    (h : pc.advance ready = some pc') (hunwoken : pc'.unwoken = true) :
    ready = false ∨ pc.unwoken = true := by
  cases pc with
  | idle => cases h
  | checking | rechecking notified =>
      obtain rfl := Option.some.inj h
      cases ready with
      | true => cases hunwoken
      | false => exact .inl rfl
  | creating =>
      obtain rfl := Option.some.inj h
      cases hunwoken
  | parking notified | parked notified =>
      cases notified with
      | true =>
          obtain rfl := Option.some.inj h
          cases hunwoken
      | false => exact .inr rfl

/-- A step of one waiter that leaves the source alone. -/
theorem WaitInv.update {N : NotifySource σ ℓ} {s : WaitState σ ι} (hinv : WaitInv N s) {i : ι}
    {pc : WaiterPc}
    (hpc : pc.unwoken = true → N.ready s.source = false ∨ (s.waiter i).unwoken = true) :
    WaitInv N { s with waiter := Function.update s.waiter i pc } := by
  intro j hunwoken hready
  by_cases hij : j = i
  · subst hij
    simp only [Function.update_self] at hunwoken
    rcases hpc hunwoken with hnot | hold
    · exact absurd hready (by simp [hnot])
    · exact hinv j hold hready
  · simp only [Function.update_of_ne hij] at hunwoken
    exact hinv j hunwoken hready

theorem wait_step_inv {N : NotifySource σ ℓ} (hN : N.Lawful) :
    ∀ s l s', (N.waiting ι).step s l = some s' → WaitInv N s → WaitInv N s' := by
  intro s l s' h hinv
  cases l with
  | source label =>
      rcases Option.map_eq_some_iff.mp h with ⟨source, hstep, rfl⟩
      intro i hunwoken hready
      cases hnotifies : N.notifies label with
      | true =>
          -- everyone who holds a future has been notified
          simp only [hnotifies, if_true, WaiterPc.notify_woken] at hunwoken
          cases hunwoken
      | false =>
          simp only [hnotifies, Bool.false_eq_true, if_false] at hunwoken
          exact hN s.source label source hstep hnotifies hready (hinv i hunwoken)
  | call i =>
      change (if s.waiter i = .idle then _ else none) = some s' at h
      split at h
      · obtain rfl := Option.some.inj h
        exact hinv.update (by simp [WaiterPc.unwoken])
      · cases h
  | advance i =>
      rcases Option.map_eq_some_iff.mp h with ⟨pc, hpc, rfl⟩
      exact hinv.update (WaiterPc.advance_unwoken hpc)
  | abandon i =>
      obtain rfl := Option.some.inj h
      exact hinv.update (by simp [WaiterPc.unwoken])

/-- Nobody waits yet. -/
def WaitState.init (source : σ) : WaitState σ ι where
  source
  waiter _ := .idle

/-- In every reachable state an unwoken waiter is owed a notification while the condition
holds. -/
theorem waiting_inv {N : NotifySource σ ℓ} (hN : N.Lawful) {source : σ}
    {trace : List (WaitLabel ℓ ι)} {s : WaitState σ ι}
    (hrun : (N.waiting ι).run (.init source) trace = some s) : WaitInv N s := by
  refine Machine.run_invariant (wait_step_inv hN) hrun ?_
  intro i hunwoken
  cases hunwoken

end Machine
