import Rssh.Process.Deadlines

/-!
# The bounded cleanup of a child

`bounded_cleanup` kills a child and asks for its status until it has one or the grace period is
over. The target and the clock are one world of arbitrary behaviour; all that is known of it is that
the clock does not go back and that a sleep lasts at least as long as was asked for.

* `cleanupRound` is one turn of the loop, and `boundedCleanup` runs it with a bound on the turns.
* `GoesOn` is what a turn does that the loop goes on from, `Ends` what the last one does, and
  `cleanupRound_cases` says that there is no other.
* `bounded_cleanup_spec`: the loop ends, and everything it has called by then is as it should be.
-/

namespace Rssh

variable {ω σ ε : Type} {limit : Nat}

/-- `POLL_INTERVAL`, in nanoseconds. -/
def pollInterval : Nat := 10 * 10 ^ 6

/-- A `CleanupTarget` and a `CleanupClock`, which may know of each other. No later reading of the
clock is before `reached`, and a sleep takes as long as it should, up to the end of the clock. -/
structure CleanupWorld (ω σ ε : Type) (limit : Nat) where
  kill : ω → Except ε Unit × ω
  tryWait : ω → Except ε (Option σ) × ω
  now : ω → Instant limit × ω
  sleep : Nat → ω → ω
  reached : ω → Nat
  kill_reached : ∀ w, reached w ≤ reached (kill w).2
  tryWait_reached : ∀ w, reached w ≤ reached (tryWait w).2
  now_reached : ∀ w, reached w ≤ (now w).1.nanos ∧ (now w).1.nanos ≤ reached (now w).2
  sleep_reached : ∀ duration w, min limit (reached w + duration) ≤ reached (sleep duration w)

inductive CleanupOutcome (σ ε : Type) where
  | reaped (status : σ) (lastError : Option ε)
  | deferred (lastError : Option ε)
deriving DecidableEq

def CleanupOutcome.lastError : CleanupOutcome σ ε → Option ε
  | .reaped _ lastError => lastError
  | .deferred lastError => lastError

/-- A call on the target or the clock, with its result. -/
inductive CleanupCall (σ ε : Type) where
  | kill (result : Except ε Unit)
  | tryWait (result : Except ε (Option σ))
  | now (nanos : Nat)
  | sleep (duration : Nat)

/-- The variables of `bounded_cleanup`, with the calls that it has made. -/
structure CleanupState (ω σ ε : Type) where
  killed : Bool := false
  lastError : Option ε := none
  world : ω
  calls : List (CleanupCall σ ε) := []

namespace CleanupWorld

variable (W : CleanupWorld ω σ ε limit)

def attemptKill (s : CleanupState ω σ ε) : CleanupState ω σ ε :=
  match W.kill s.world with
  | (.ok (), world) =>
      { s with killed := true, world, calls := s.calls ++ [.kill (.ok ())] }
  | (.error source, world) =>
      { s with lastError := some source, world, calls := s.calls ++ [.kill (.error source)] }

/-- A kill that is tried again until it has succeeded. -/
def retryKill (s : CleanupState ω σ ε) : CleanupState ω σ ε :=
  if s.killed then s else W.attemptKill s

def readClock (s : CleanupState ω σ ε) : Instant limit × CleanupState ω σ ε :=
  ((W.now s.world).1,
    { s with world := (W.now s.world).2, calls := s.calls ++ [.now (W.now s.world).1.nanos] })

def rest (duration : Nat) (s : CleanupState ω σ ε) : CleanupState ω σ ε :=
  { s with world := W.sleep duration s.world, calls := s.calls ++ [.sleep duration] }

/-- A turn behind a `try_wait` without a status. -/
def roundRest (deadline : Instant limit) (s : CleanupState ω σ ε) :
    CleanupOutcome σ ε × CleanupState ω σ ε ⊕ CleanupState ω σ ε :=
  let (now, s) := W.readClock s
  if deadline ≤ now then .inl (.deferred s.lastError, s)
  else
    -- the clock is read again for the sleep, as the kill may have taken a while
    let (now, s) := W.readClock (W.retryKill s)
    .inr (W.rest (min (deadline.saturatingDurationSince now) pollInterval) s)

/-- One turn of the loop: its result, or the state for the next one. -/
def cleanupRound (deadline : Instant limit) (s : CleanupState ω σ ε) :
    CleanupOutcome σ ε × CleanupState ω σ ε ⊕ CleanupState ω σ ε :=
  match W.tryWait s.world with
  | (.ok (some status), world) =>
      .inl (.reaped status s.lastError,
        { s with world, calls := s.calls ++ [.tryWait (.ok (some status))] })
  | (.ok none, world) =>
      W.roundRest deadline { s with world, calls := s.calls ++ [.tryWait (.ok none)] }
  | (.error source, world) =>
      W.roundRest deadline
        { s with
          lastError := some source, world, calls := s.calls ++ [.tryWait (.error source)] }

/-- The loop; `none` when `fuel` turns do not end it. -/
def cleanupLoop (deadline : Instant limit) :
    Nat → CleanupState ω σ ε → Option (CleanupOutcome σ ε × CleanupState ω σ ε)
  | 0, _ => none
  | fuel + 1, s =>
      match W.cleanupRound deadline s with
      | .inl result => some result
      | .inr s => cleanupLoop deadline fuel s

/-- `bounded_cleanup`. -/
def boundedCleanup (grace fuel : Nat) (world : ω) :
    Option (CleanupOutcome σ ε × CleanupState ω σ ε) :=
  let (started, s) := W.readClock { world }
  W.cleanupLoop (cleanupDeadline started grace) fuel (W.attemptKill s)

end CleanupWorld

/-! ## What the calls tell -/

namespace CleanupCall

def failure? : CleanupCall σ ε → Option ε
  | .kill (.error source) | .tryWait (.error source) => some source
  | _ => none

def slept : CleanupCall σ ε → Nat
  | .sleep duration => duration
  | _ => 0

def onTarget : CleanupCall σ ε → Bool
  | .kill _ | .tryWait _ => true
  | .now _ | .sleep _ => false

end CleanupCall

/-- The turns of the loop, on the target: each asks for the status, and one that goes on kills again
exactly when no kill has succeeded. -/
def Turns : Bool → List (CleanupCall σ ε) → Prop
  | _, [.tryWait _] => True
  | killed, .tryWait _ :: .kill result :: rest => killed = false ∧ Turns result.isOk rest
  | killed, .tryWait _ :: rest => killed = true ∧ Turns true rest
  | _, _ => False

theorem Turns.cons_killed {rest : List (CleanupCall σ ε)} (h : Turns true rest)
    (result : Except ε (Option σ)) : Turns true (.tryWait result :: rest) := by
  cases rest with
  | nil => trivial
  | cons call rest =>
      cases call with
      | tryWait => exact ⟨rfl, h⟩
      | kill | now | sleep => simp [Turns] at h

def sleptIn (calls : List (CleanupCall σ ε)) : Nat := (calls.map CleanupCall.slept).sum

def lastFailure (calls : List (CleanupCall σ ε)) : Option ε :=
  (calls.filterMap CleanupCall.failure?).getLast?

/-- What a cleanup that has started then, with this grace, has done when it returns. -/
structure CleanedUp (started grace : Nat) (outcome : CleanupOutcome σ ε)
    (calls : List (CleanupCall σ ε)) : Prop where
  /-- The sleeps add up to at most the grace period. -/
  slept : sleptIn calls ≤ grace
  /-- A kill comes first, and is repeated in each turn until it has succeeded. -/
  attempts : ∃ result turns, calls.filter CleanupCall.onTarget = .kill result :: turns ∧
    Turns result.isOk turns
  /-- The result is a status exactly when the target has given it. -/
  reaped_iff : ∀ status, (∃ lastError, outcome = .reaped status lastError) ↔
    .tryWait (.ok (some status)) ∈ calls
  /-- The status ends the cleanup. -/
  reaped_last : ∀ status lastError, outcome = .reaped status lastError →
    calls.getLast? = some (.tryWait (.ok (some status)))
  /-- Without a status the deadline has come. -/
  deferred_late : ∀ lastError, outcome = .deferred lastError →
    ∃ nanos, started + grace ≤ nanos ∧ calls.getLast? = some (.now nanos)
  /-- The error is that of the last call that failed. -/
  lastError : outcome.lastError = lastFailure calls

theorem lastFailure_append (xs ys : List (CleanupCall σ ε)) :
    lastFailure (xs ++ ys) = (lastFailure ys).or (lastFailure xs) := by
  rw [lastFailure, List.filterMap_append, List.getLast?_append]
  rfl

theorem sleptIn_append (xs ys : List (CleanupCall σ ε)) :
    sleptIn (xs ++ ys) = sleptIn xs + sleptIn ys := by
  rw [sleptIn, List.map_append, List.sum_append]
  rfl

/-! ## One turn -/

/-- A turn that goes on, with the calls it has made. -/
structure GoesOn (W : CleanupWorld ω σ ε limit) (deadline : Instant limit)
    (s s' : CleanupState ω σ ε) (turn : List (CleanupCall σ ε)) : Prop where
  early : W.reached s.world < deadline.nanos
  calls : s'.calls = s.calls ++ turn
  target : (∃ result, turn.filter CleanupCall.onTarget = [.tryWait result] ∧ s.killed = true ∧
      s'.killed = true) ∨
    ∃ result kill, turn.filter CleanupCall.onTarget = [.tryWait result, .kill kill] ∧
      s.killed = false ∧ s'.killed = kill.isOk
  status : ∀ status, .tryWait (.ok (some status)) ∉ turn
  lastError : s'.lastError = (lastFailure turn).or s.lastError
  slept : ∃ now, W.reached s.world ≤ now ∧
    sleptIn turn = min (deadline.nanos - now) pollInterval ∧
    now + sleptIn turn ≤ W.reached s'.world

/-- A turn that ends the loop, with the calls it has made. -/
structure Ends (deadline : Instant limit) (s : CleanupState ω σ ε) (outcome : CleanupOutcome σ ε)
    (s' : CleanupState ω σ ε) (turn : List (CleanupCall σ ε)) : Prop where
  calls : s'.calls = s.calls ++ turn
  target : ∃ result, turn.filter CleanupCall.onTarget = [.tryWait result]
  lastError : outcome.lastError = (lastFailure turn).or s.lastError
  slept : sleptIn turn = 0
  outcome : (∃ status lastError, outcome = .reaped status lastError ∧
      turn = [.tryWait (.ok (some status))]) ∨
    ∃ result lastError nanos, outcome = .deferred lastError ∧ deadline.nanos ≤ nanos ∧
      turn = [.tryWait result, .now nanos] ∧ ∀ status, result ≠ .ok (some status)

namespace CleanupWorld

variable (W : CleanupWorld ω σ ε limit)

/-- A kill is noted with its result. -/
theorem attemptKill_cases (s : CleanupState ω σ ε) :
    ∃ result, (W.attemptKill s).calls = s.calls ++ [.kill result] ∧
      (W.attemptKill s).killed = (result.isOk || s.killed) ∧
      (W.attemptKill s).lastError =
        (lastFailure [(.kill result : CleanupCall σ ε)]).or s.lastError ∧
      W.reached s.world ≤ W.reached (W.attemptKill s).world := by
  have hreached := W.kill_reached s.world
  unfold attemptKill
  rcases hkill : W.kill s.world with ⟨result, world⟩
  rw [hkill] at hreached
  cases result with
  | ok => exact ⟨.ok (), rfl, rfl, rfl, hreached⟩
  | error source => exact ⟨.error source, rfl, rfl, rfl, hreached⟩

/-- The kill is tried again until it has succeeded once. -/
theorem retryKill_cases (s : CleanupState ω σ ε) :
    ∃ tries, (W.retryKill s).calls = s.calls ++ tries ∧
      ((tries = [] ∧ s.killed = true ∧ (W.retryKill s).killed = true) ∨
        ∃ result, tries = [.kill result] ∧ s.killed = false ∧
          (W.retryKill s).killed = result.isOk) ∧
      (W.retryKill s).lastError = (lastFailure tries).or s.lastError ∧
      W.reached s.world ≤ W.reached (W.retryKill s).world := by
  unfold retryKill
  cases hkilled : s.killed with
  | true =>
      rw [if_pos rfl]
      exact ⟨[], (List.append_nil _).symm, .inl ⟨rfl, rfl, hkilled⟩, rfl, le_refl _⟩
  | false =>
      rw [if_neg Bool.false_ne_true]
      rcases W.attemptKill_cases s with ⟨result, hcalls, hkill, herror, hle⟩
      rw [hkilled, Bool.or_false] at hkill
      exact ⟨[.kill result], hcalls, .inr ⟨result, rfl, rfl, hkill⟩, herror, hle⟩

/-- The end of a turn: the clock, and a sleep no longer than it shows. -/
theorem pause_spec (deadline : Instant limit) (s : CleanupState ω σ ε) :
    (W.rest (min (deadline.saturatingDurationSince (W.readClock s).1) pollInterval)
        (W.readClock s).2).calls =
      s.calls ++ [.now (W.now s.world).1.nanos,
        .sleep (min (deadline.nanos - (W.now s.world).1.nanos) pollInterval)] ∧
    W.reached s.world ≤ (W.now s.world).1.nanos ∧
    (W.now s.world).1.nanos + min (deadline.nanos - (W.now s.world).1.nanos) pollInterval ≤
      W.reached (W.rest (min (deadline.saturatingDurationSince (W.readClock s).1) pollInterval)
        (W.readClock s).2).world := by
  have hnow := W.now_reached s.world
  have hsleep := W.sleep_reached (min (deadline.nanos - (W.now s.world).1.nanos) pollInterval)
    (W.now s.world).2
  refine ⟨?_, hnow.1, ?_⟩
  · show s.calls ++ [_] ++ [_] = _
    rw [List.append_assoc]
    rfl
  · have hend := deadline.nanos_le
    have hread := (W.now s.world).1.nanos_le
    exact Nat.le_trans (by omega) hsleep

/-- Behind a `try_wait` without a status. -/
theorem roundRest_cases (deadline : Instant limit) (s : CleanupState ω σ ε) :
    (∃ nanos s', W.roundRest deadline s = .inl (.deferred s.lastError, s') ∧
      deadline.nanos ≤ nanos ∧ s'.calls = s.calls ++ [.now nanos]) ∨
    ∃ first tries nanos s', W.roundRest deadline s = .inr s' ∧
      W.reached s.world < deadline.nanos ∧
      s'.calls = s.calls ++ (.now first :: tries ++
        [.now nanos, .sleep (min (deadline.nanos - nanos) pollInterval)]) ∧
      ((tries = [] ∧ s.killed = true ∧ s'.killed = true) ∨
        ∃ result, tries = [.kill result] ∧ s.killed = false ∧ s'.killed = result.isOk) ∧
      s'.lastError = (lastFailure tries).or s.lastError ∧ W.reached s.world ≤ nanos ∧
      nanos + min (deadline.nanos - nanos) pollInterval ≤ W.reached s'.world := by
  have hfirst := W.now_reached s.world
  unfold roundRest
  -- the clock is read before the retry and after it
  by_cases hdue : deadline ≤ (W.readClock s).1
  · simp only [if_pos hdue]
    exact .inl ⟨_, _, rfl, Instant.le_iff.mp hdue, rfl⟩
  · simp only [if_neg hdue]
    right
    let s₁ : CleanupState ω σ ε := (W.readClock s).2
    have hreached : W.reached s.world ≤ W.reached s₁.world := hfirst.1.trans hfirst.2
    rcases W.retryKill_cases s₁ with ⟨tries, hcalls, hkilled, herror, hle⟩
    rcases W.pause_spec deadline (W.retryKill s₁) with ⟨hpause, hnow, hslept⟩
    have hearly : W.reached s.world < deadline.nanos :=
      Nat.lt_of_le_of_lt hfirst.1 (Instant.lt_iff.mp (not_le.mp hdue))
    refine ⟨(W.now s.world).1.nanos, tries, _, _, rfl, hearly, ?_, hkilled, herror,
      (hreached.trans hle).trans hnow, hslept⟩
    rw [hpause, hcalls]
    show s.calls ++ [.now _] ++ tries ++ _ = _
    simp only [List.append_assoc, List.cons_append, List.nil_append]

/-- The rest of a turn whose `try_wait` has given no status. -/
theorem pending_cases (deadline : Instant limit) {s s₁ : CleanupState ω σ ε}
    {result : Except ε (Option σ)} (hresult : ∀ status, result ≠ .ok (some status))
    (hcalls : s₁.calls = s.calls ++ [.tryWait result]) (hkilled : s₁.killed = s.killed)
    (herror : s₁.lastError = (lastFailure [(.tryWait result : CleanupCall σ ε)]).or s.lastError)
    (hreached : W.reached s.world ≤ W.reached s₁.world) :
    (∃ outcome s' turn, W.roundRest deadline s₁ = .inl (outcome, s') ∧
      Ends deadline s outcome s' turn) ∨
    ∃ s' turn, W.roundRest deadline s₁ = .inr s' ∧ GoesOn W deadline s s' turn := by
  rcases W.roundRest_cases deadline s₁ with
    ⟨nanos, s', hrest, hdue, hmore⟩ |
      ⟨first, tries, nanos, s', hrest, hearly, hmore, htries, hlast, hle, hpause⟩
  · refine .inl ⟨_, s', [.tryWait result, .now nanos], hrest, ?_⟩
    constructor
    · rw [hmore, hcalls, List.append_assoc]
      rfl
    · exact ⟨result, rfl⟩
    · rw [CleanupOutcome.lastError, herror]
      rfl
    · rfl
    · exact .inr ⟨result, _, nanos, rfl, hdue, rfl, hresult⟩
  · refine .inr ⟨s', .tryWait result :: .now first :: tries ++
      [.now nanos, .sleep (min (deadline.nanos - nanos) pollInterval)], hrest, ?_⟩
    rw [hkilled] at htries
    rw [herror] at hlast
    -- the sleep is the only one of the turn
    have hslept : sleptIn (.tryWait result :: .now first :: tries ++
        [.now nanos, .sleep (min (deadline.nanos - nanos) pollInterval)]) =
          min (deadline.nanos - nanos) pollInterval := by
      rcases htries with ⟨rfl, _⟩ | ⟨kill, rfl, _⟩
      · simp [sleptIn, CleanupCall.slept]
      · simp [sleptIn, CleanupCall.slept]
    constructor
    · exact Nat.lt_of_le_of_lt hreached hearly
    · rw [hmore, hcalls, List.append_assoc]
      rfl
    · rcases htries with ⟨rfl, hold, hnew⟩ | ⟨kill, rfl, hold, hnew⟩
      · exact .inl ⟨result, rfl, hold, hnew⟩
      · exact .inr ⟨result, kill, rfl, hold, hnew⟩
    · intro status hmem
      rcases htries with ⟨rfl, _⟩ | ⟨kill, rfl, _⟩
      · simp only [List.cons_append, List.nil_append, List.mem_cons, CleanupCall.tryWait.injEq,
          reduceCtorEq, List.not_mem_nil, or_false] at hmem
        exact hresult status hmem.symm
      · simp only [List.cons_append, List.nil_append, List.mem_cons, CleanupCall.tryWait.injEq,
          reduceCtorEq, List.not_mem_nil, or_false] at hmem
        exact hresult status hmem.symm
    · rw [hlast, ← Option.or_assoc, ← lastFailure_append]
      congr 1
      rcases htries with ⟨rfl, _⟩ | ⟨kill, rfl, _⟩
      · rcases result with source | _ | status <;> rfl
      · rcases result with source | _ | status <;> rcases kill with source' | _ <;> rfl
    · exact ⟨nanos, hreached.trans hle, hslept, by rw [hslept]; exact hpause⟩

/-- A turn goes on or ends the loop. -/
theorem cleanupRound_cases (deadline : Instant limit) (s : CleanupState ω σ ε) :
    (∃ outcome s' turn, W.cleanupRound deadline s = .inl (outcome, s') ∧
      Ends deadline s outcome s' turn) ∨
    ∃ s' turn, W.cleanupRound deadline s = .inr s' ∧ GoesOn W deadline s s' turn := by
  have hreached := W.tryWait_reached s.world
  unfold cleanupRound
  rcases hwait : W.tryWait s.world with ⟨result, world⟩
  rw [hwait] at hreached
  rcases result with source | _ | status
  · exact W.pending_cases deadline (by intro _ h; cases h) rfl rfl rfl hreached
  · exact W.pending_cases deadline (by intro _ h; cases h) rfl rfl rfl hreached
  · refine .inl ⟨_, _, [.tryWait (.ok (some status))], rfl, ?_⟩
    exact ⟨rfl, ⟨_, rfl⟩, rfl, rfl, .inl ⟨status, _, rfl, rfl⟩⟩

end CleanupWorld

/-! ## The loop -/

/-- What the loop has done from a state on, with the calls it has made. -/
structure LoopDone (W : CleanupWorld ω σ ε limit) (deadline : Instant limit)
    (s : CleanupState ω σ ε) (outcome : CleanupOutcome σ ε) (s' : CleanupState ω σ ε)
    (more : List (CleanupCall σ ε)) : Prop where
  calls : s'.calls = s.calls ++ more
  turns : Turns s.killed (more.filter CleanupCall.onTarget)
  lastError : outcome.lastError = (lastFailure more).or s.lastError
  slept : sleptIn more ≤ deadline.nanos - W.reached s.world
  outcome : ∃ before last, more = before ++ [last] ∧
    (∀ status, .tryWait (.ok (some status)) ∉ before) ∧
    ((∃ status lastError, outcome = .reaped status lastError ∧
        last = .tryWait (.ok (some status))) ∨
      ∃ lastError nanos, outcome = .deferred lastError ∧ deadline.nanos ≤ nanos ∧
        last = .now nanos)

namespace CleanupWorld

variable (W : CleanupWorld ω σ ε limit) {deadline : Instant limit}

/-- A turn that ends the loop is a run of it. -/
theorem loopDone_of_ends {s s' : CleanupState ω σ ε} {outcome : CleanupOutcome σ ε}
    {turn : List (CleanupCall σ ε)} (h : Ends deadline s outcome s' turn) :
    LoopDone W deadline s outcome s' turn := by
  constructor
  · exact h.calls
  · rcases h.target with ⟨result, htarget⟩
    rw [htarget]
    trivial
  · exact h.lastError
  · rw [h.slept]
    exact Nat.zero_le _
  · rcases h.outcome with
      ⟨status, lastError, houtcome, hturn⟩ |
        ⟨result, lastError, nanos, houtcome, hdue, hturn, hnone⟩
    · exact ⟨[], _, hturn, fun _ => List.not_mem_nil, .inl ⟨status, lastError, houtcome, rfl⟩⟩
    · refine ⟨[.tryWait result], .now nanos, hturn, ?_,
        .inr ⟨lastError, nanos, houtcome, hdue, rfl⟩⟩
      intro status hmem
      rw [List.mem_singleton, CleanupCall.tryWait.injEq] at hmem
      exact hnone status hmem.symm

/-- A turn before a run of the loop makes a longer one. -/
theorem loopDone_of_goesOn {s s₁ s' : CleanupState ω σ ε} {outcome : CleanupOutcome σ ε}
    {turn more : List (CleanupCall σ ε)} (hturn : GoesOn W deadline s s₁ turn)
    (h : LoopDone W deadline s₁ outcome s' more) :
    LoopDone W deadline s outcome s' (turn ++ more) := by
  constructor
  · rw [h.calls, hturn.calls, List.append_assoc]
  · have hrest := h.turns
    rw [List.filter_append]
    -- killed before, or tried again in this turn
    rcases hturn.target with ⟨result, htarget, hold, hnew⟩ | ⟨result, kill, htarget, hold, hnew⟩
    · rw [hnew] at hrest
      rw [htarget, hold]
      exact hrest.cons_killed result
    · rw [hnew] at hrest
      rw [htarget, hold]
      exact ⟨rfl, hrest⟩
  · rw [h.lastError, hturn.lastError, lastFailure_append, Option.or_assoc]
  · -- the sleep is no longer than what was left, and the rest sleeps within what is left then
    rcases hturn.slept with ⟨now, hle, hslept, hreached⟩
    have hrest := h.slept
    rw [sleptIn_append]
    omega
  · rcases h.outcome with ⟨before, last, hmore, hnone, hlast⟩
    refine ⟨turn ++ before, last, by rw [hmore, List.append_assoc], ?_, hlast⟩
    intro status hmem
    rcases List.mem_append.mp hmem with hmem | hmem
    · exact hturn.status status hmem
    · exact hnone status hmem

/-- The loop ends after at most so many turns as the poll interval fits into the time that is left,
and one more; what it does does not depend on the bound. -/
theorem cleanupLoop_done (turns : Nat) (s : CleanupState ω σ ε)
    (h : deadline.nanos - W.reached s.world ≤ turns * pollInterval) :
    ∃ outcome s' more, (∀ fuel, turns < fuel → W.cleanupLoop deadline fuel s = some (outcome, s')) ∧
      LoopDone W deadline s outcome s' more := by
  -- each turn that goes on uses up a poll interval, or all that is left
  induction turns generalizing s with
  | zero =>
      rcases W.cleanupRound_cases deadline s with
        ⟨outcome, s', turn, hround, hends⟩ | ⟨s₁, turn, _, hturn⟩
      · refine ⟨outcome, s', turn, fun fuel hfuel => ?_, W.loopDone_of_ends hends⟩
        obtain ⟨fuel, rfl⟩ := Nat.exists_eq_add_one_of_ne_zero (Nat.ne_of_gt hfuel)
        rw [cleanupLoop, hround]
      · -- no turn goes on when no time is left
        have hearly := hturn.early
        omega
  | succ turns ih =>
      rcases W.cleanupRound_cases deadline s with
        ⟨outcome, s', turn, hround, hends⟩ | ⟨s₁, turn, hround, hturn⟩
      · refine ⟨outcome, s', turn, fun fuel hfuel => ?_, W.loopDone_of_ends hends⟩
        obtain ⟨fuel, rfl⟩ := Nat.exists_eq_add_one_of_ne_zero (show fuel ≠ 0 by omega)
        rw [cleanupLoop, hround]
      · have hleft : deadline.nanos - W.reached s₁.world ≤ turns * pollInterval := by
          rcases hturn.slept with ⟨now, hle, hslept, hreached⟩
          rw [Nat.succ_mul] at h
          omega
        rcases ih s₁ hleft with ⟨outcome, s', more, hloop, hdone⟩
        refine ⟨outcome, s', turn ++ more, fun fuel hfuel => ?_, W.loopDone_of_goesOn hturn hdone⟩
        obtain ⟨fuel, rfl⟩ := Nat.exists_eq_add_one_of_ne_zero (show fuel ≠ 0 by omega)
        rw [cleanupLoop, hround]
        exact hloop fuel (by omega)

/-- For every target and every clock that does not go back and sleeps long enough, and every grace
period whose end can be represented: `bounded_cleanup` returns, after at most so many turns, and
has then done what it should. -/
theorem bounded_cleanup_spec (grace : Nat) (world : ω)
    (hgrace : (W.now world).1.nanos + grace ≤ limit) :
    ∃ outcome s, (∀ fuel, grace / pollInterval + 2 ≤ fuel →
        W.boundedCleanup grace fuel world = some (outcome, s)) ∧
      CleanedUp (W.now world).1.nanos grace outcome s.calls := by
  let s₀ : CleanupState ω σ ε := (W.readClock { world }).2
  have hdeadline : (cleanupDeadline (W.now world).1 grace).nanos =
      (W.now world).1.nanos + grace := by
    rw [nanos_cleanupDeadline, if_pos hgrace]
  rcases W.attemptKill_cases s₀ with ⟨result, hcalls, hkilled, herror, hle⟩
  have hstarted : (W.now world).1.nanos ≤ W.reached (W.attemptKill s₀).world :=
    (W.now_reached world).2.trans hle
  have hleft : (cleanupDeadline (W.now world).1 grace).nanos -
      W.reached (W.attemptKill s₀).world ≤ (grace / pollInterval + 1) * pollInterval := by
    -- the turns that fit into the time, and one more
    have hdiv : grace < (grace / pollInterval + 1) * pollInterval :=
      Nat.lt_mul_of_div_lt (Nat.lt_succ_self _) (by decide)
    rw [hdeadline]
    omega
  rcases W.cleanupLoop_done _ _ hleft with ⟨outcome, s, more, hloop, hdone⟩
  refine ⟨outcome, s, fun fuel hfuel => hloop fuel (by omega), ?_⟩
  have hall : s.calls = .now (W.now world).1.nanos :: .kill result :: more := by
    rw [hdone.calls, hcalls]
    rfl
  rw [hall]
  rcases hdone.outcome with ⟨before, last, hmore, hnone, hlast⟩
  have hend :
      (.now (W.now world).1.nanos :: .kill result :: more : List (CleanupCall σ ε)).getLast? =
        some last := by
    rw [hmore]
    exact @List.getLast?_concat _ (_ :: _ :: before) last
  constructor
  · have hslept := hdone.slept
    rw [hdeadline] at hslept
    show 0 + (0 + sleptIn more) ≤ grace
    omega
  · refine ⟨result, more.filter CleanupCall.onTarget, rfl, ?_⟩
    have hturns := hdone.turns
    rw [hkilled, show s₀.killed = false from rfl, Bool.or_false] at hturns
    exact hturns
  · intro status
    have hmem : .tryWait (.ok (some status)) ∈
        (.now (W.now world).1.nanos :: .kill result :: more : List (CleanupCall σ ε)) ↔
          .tryWait (.ok (some status)) = last := by
      rw [hmore]
      simp [hnone status]
    rw [hmem]
    rcases hlast with ⟨status', lastError, houtcome, hlast⟩ | ⟨lastError, nanos, houtcome, _, hlast⟩
    · simp [houtcome, hlast, eq_comm]
    · simp [houtcome, hlast]
  · intro status lastError houtcome
    rcases hlast with ⟨status', _, houtcome', hlast⟩ | ⟨_, _, houtcome', _, _⟩
    · rw [houtcome] at houtcome'
      cases houtcome'
      rw [hend, hlast]
    · rw [houtcome] at houtcome'
      cases houtcome'
  · intro lastError houtcome
    rcases hlast with ⟨_, _, houtcome', _⟩ | ⟨_, nanos, _, hdue, hlast⟩
    · rw [houtcome] at houtcome'
      cases houtcome'
    · rw [hdeadline] at hdue
      exact ⟨nanos, hdue, by rw [hend, hlast]⟩
  · rw [hdone.lastError, herror, ← Option.or_assoc, ← lastFailure_append]
    show ((lastFailure (.kill result :: more)).or none) = _
    rw [Option.or_none]
    rfl

end CleanupWorld

/-! ## A child that is slow to end -/

/-- A clock that only sleeps move, of one second, and a child that has ended after 15 ms. -/
def slowChild : CleanupWorld Nat Nat Unit (10 ^ 9) where
  kill w := (.ok (), w)
  tryWait w := (.ok (if 15 * 10 ^ 6 ≤ w then some 7 else none), w)
  now w := (⟨min (10 ^ 9) w, Nat.min_le_left _ _⟩, w)
  sleep duration w := w + duration
  reached w := min (10 ^ 9) w
  kill_reached _ := le_refl _
  tryWait_reached _ := le_refl _
  now_reached _ := ⟨le_refl _, le_refl _⟩
  sleep_reached duration w := by omega

/-- The slow child is reaped in the third turn. -/
theorem bounded_cleanup_slowChild :
    ∃ s, slowChild.boundedCleanup (50 * 10 ^ 6) 7 0 = some (.reaped 7 none, s) ∧
      CleanedUp 0 (50 * 10 ^ 6) (.reaped 7 none) s.calls := by
  rcases slowChild.bounded_cleanup_spec (50 * 10 ^ 6) 0 (by decide) with ⟨outcome, s, hrun, hdone⟩
  have hrun := hrun 7 (by decide)
  have hresult : (slowChild.boundedCleanup (50 * 10 ^ 6) 7 0).map Prod.fst =
      some (.reaped 7 none) := by
    decide
  rw [hrun] at hresult
  obtain rfl : outcome = .reaped 7 none := Option.some.inj hresult
  exact ⟨s, hrun, hdone⟩

end Rssh
