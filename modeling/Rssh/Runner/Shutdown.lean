import Rssh.Runner.Split

/-!
# Closing the session

The writer of `run_split_shell_with_events` is closed by the pump on a Cancel event, by
the input thread after a failed pump, or by the caller at the end, and a run may pass
through two of these. `runner_closes_and_reports` states what holds over all
interleavings: a close comes before the return and ends the calls on the data path, a
failed pump does not wait for the output loop, and the value that is returned follows
the order of the errors.

The caller waits for the input thread on every way out. `cancelled_before_waiting_iff` says in
which runs the cancellation flag is set by then.
-/

namespace Rssh

variable {ρ ε : Type} {R : SshShellReader ρ ε} {s : RunnerState ρ}

/-! ## The order of the calls -/

/-- Nothing on the data path follows a close. -/
def AfterClose (earlier later : SessionEvent) : Prop :=
  ∀ site outcome, earlier = .close site outcome → later.onDataPath = false

/-- The pump has returned or panicked. -/
def PumpPc.stopped : PumpPc → Bool
  | .ended _ => true
  | .panicked => true
  | _ => false

/-- A pump that has failed does not go on. -/
theorem InputPump.stopped_of_failure {p : InputPump} {error : SshSessionError}
    (h : p.failure = some error) : p.pc.stopped = true := by
  unfold failure at h
  split at h
  · rename_i hpc
    rw [hpc]
    rfl
  · rename_i hpc
    rw [hpc]
    rfl
  · simp at h

theorem InputPump.afterCall_stopped (p : InputPump) (outcome : CallOutcome) :
    (p.afterCall outcome).pc.stopped = true := by
  cases outcome <;> rfl

/-- A stopped pump takes no step of its own. -/
theorem InputPump.step_of_stopped {p : InputPump} (h : p.pc.stopped = true) {label : PumpLabel}
    (hlabel : label ≠ .raise) : p.step label = none := by
  cases hpc : p.pc <;> simp [hpc, PumpPc.stopped] at h <;>
    cases label <;> simp_all [step, advance, recv, write, resize]

/-- A step makes at most one call, and a close stops the pump. -/
theorem InputPump.Step.close_stops {p p' : InputPump} {entries : List SessionEvent}
    (h : Step p entries p') :
    entries.Pairwise AfterClose ∧
      ∀ site outcome, .close site outcome ∈ entries → p'.pc.stopped = true := by
  cases h with
  | closed hpc => exact ⟨by simp, fun _ _ _ => p.afterCall_stopped _⟩
  | _ => exact ⟨by simp, by simp⟩

/-- The calls are in order, and the pump is stopped once the writer is closed. -/
def CloseInv (s : RunnerState ρ) : Prop :=
  s.history.Pairwise AfterClose ∧
    ∀ site outcome, .close site outcome ∈ s.history → s.pump.pc.stopped = true

/-- A close of the writer of a stopped pump keeps the order. -/
theorem CloseInv.close (h : CloseInv s) (hstopped : s.pump.pc.stopped = true) (site : CloseSite)
    (outcome : CallOutcome) (thread : InputThread) (out : OutputPc) :
    CloseInv { s with thread, out, history := s.history ++ [.close site outcome] } := by
  refine ⟨?_, fun _ _ _ => hstopped⟩
  rw [List.pairwise_append]
  refine ⟨h.1, by simp, ?_⟩
  rintro earlier - later hlater site' outcome' -
  rw [List.mem_singleton.mp hlater]
  rfl

/-- The whole invariant of the runner. -/
structure RunnerInv (R : SshShellReader ρ ε) (s : RunnerState ρ) : Prop where
  thread : ThreadInv s
  output : OutputInv R s
  closes : CloseInv s

/-- Every step of the runner keeps the order of the calls and what is known of its threads. -/
theorem runner_step_inv :
    ∀ s l s', (splitRunner R).step s l = some s' → RunnerInv R s → RunnerInv R s' := by
  intro s l s' h hinv
  rcases thread_step_inv R s l s' h ⟨hinv.thread, hinv.output⟩ with ⟨hthreadInv, houtInv⟩
  -- the two threads are as before; what is left is the order of the calls
  refine ⟨hthreadInv, houtInv, ?_⟩
  have hcloses := hinv.closes
  cases RunnerState.step_sound h with
  | @pump label pump entries hthread hlabel hstep =>
      rcases (InputPump.step_sound hstep).close_stops with ⟨hpairs, hclose⟩
      -- a pump that takes a step has not closed the writer before
      have hopen : ∀ site outcome, .close site outcome ∉ s.history := by
        intro site outcome hmem
        rw [InputPump.step_of_stopped (hcloses.2 site outcome hmem) hlabel] at hstep
        simp at hstep
      constructor
      · rw [List.pairwise_append]
        refine ⟨hcloses.1, hpairs, ?_⟩
        rintro earlier hearlier later - site outcome rfl
        exact absurd hearlier (hopen site outcome)
      · intro site outcome hmem
        rcases List.mem_append.mp hmem with hold | hnew
        · exact absurd hold (hopen site outcome)
        · exact hclose site outcome hnew
  | exit | copy | cancel | join => exact hcloses
  | emergencyClose hthread hfailure =>
      exact hcloses.close (InputPump.stopped_of_failure hfailure) _ _ _ _
  | @finalClose result inputBytes outcome hout =>
      have hthread : s.thread = .finished inputBytes := by
        simpa only [OutputInv, hout] using hinv.output
      have hpc : s.pump.pc = .ended (.ok inputBytes) := by
        simpa only [ThreadInv, hthread] using hinv.thread
      exact hcloses.close (by rw [hpc]; rfl) _ _ _ _

/-- In every run the invariant holds. -/
theorem runner_inv {events : List SshInputEvent} {reader : ρ} {trace : List (RunnerLabel ε)}
    (hrun : (splitRunner R).run (.init events reader) trace = some s) : RunnerInv R s := by
  rcases thread_inv_init R events reader with ⟨hthread, hout⟩
  have hcloses : CloseInv (RunnerState.init events reader) := by
    simp [CloseInv, RunnerState.init]
  exact Machine.run_invariant runner_step_inv hrun ⟨hthread, hout, hcloses⟩

/-! ## The emergency close -/

/-- The input thread of a failed pump. While it runs, the close is the one step it can
take, in whatever state the calling thread is; once it has ended, the close was
attempted. -/
def ClosesByItself (R : SshShellReader ρ ε) (s : RunnerState ρ) : Prop :=
  (s.thread = .pumping → ∀ out : OutputPc,
    (∀ label, (splitRunner R).step { s with out } (.pump label) = none) ∧
    (splitRunner R).step { s with out } .exit = none ∧
    ∀ outcome, ∃ thread, (splitRunner R).step { s with out } (.emergencyClose outcome) =
      some { s with out, thread, history := s.history ++ [.close .emergency outcome] }) ∧
  (s.thread ≠ .pumping → ∃ outcome, .close .emergency outcome ∈ s.history)

/-- In every state of a run, a failed pump has its writer closed without any other thread. -/
theorem closesByItself_of_failure (hinv : RunnerInv R s) {error : SshSessionError}
    (hfailure : s.pump.failure = some error) : ClosesByItself R s := by
  have hstopped := InputPump.stopped_of_failure hfailure
  refine ⟨fun hthread out => ⟨fun label => ?_, ?_, fun outcome => ?_⟩, fun hthread => ?_⟩
  · -- the pump takes no step any more
    by_cases hlabel : label = .raise
    · simp [splitRunner, RunnerState.step, hlabel]
    · simp [splitRunner, RunnerState.step, InputPump.step_of_stopped hstopped hlabel]
  · simp only [splitRunner, RunnerState.step, hthread]
    split
    · rename_i hpc
      simp [InputPump.failure, hpc] at hfailure
    · rfl
  · exact ⟨_, by simp [splitRunner, RunnerState.step, hthread, hfailure]; rfl⟩
  · -- behind the pump, the close is the last of the history
    have hinv := hinv.thread
    unfold ThreadInv at hinv
    split at hinv
    · rename_i hpumping
      exact absurd hpumping hthread
    · simp [InputPump.failure, hinv] at hfailure
    · exact ⟨_, List.mem_of_getLast? hinv.2⟩
    · exact ⟨_, hinv⟩

/-! ## The value that is returned -/

def CallOutcome.error? : CallOutcome → Option SshSessionError
  | .failed error => some error
  | _ => none

def SessionEvent.closeOutcome? : SessionEvent → Option CallOutcome
  | .close _ outcome => some outcome
  | _ => none

/-- The outcome of the last attempt to close the writer. -/
def lastClose (history : List SessionEvent) : Option CallOutcome :=
  (history.filterMap SessionEvent.closeOutcome?).getLast?

theorem lastClose_of_getLast? {history : List SessionEvent} {site : CloseSite}
    {outcome : CallOutcome} (h : history.getLast? = some (.close site outcome)) :
    lastClose history = some outcome := by
  rcases List.getLast?_eq_some_iff.mp h with ⟨earlier, rfl⟩
  simp [lastClose, SessionEvent.closeOutcome?]

/-- The error to report: of the output loop, else of the pump, else of the last close. -/
def reportedError (outputResult : Except SshSessionError Unit) (s : RunnerState ρ) :
    Option SshSessionError :=
  match outputResult with
  | .error error => some error
  | .ok () => s.pump.failure.or ((lastClose s.history).bind CallOutcome.error?)

/-- The value that the runner should return. -/
def Reports (R : SshShellReader ρ ε) (s : RunnerState ρ)
    (outputResult : Except SshSessionError Unit)
    (result : Except SshSessionError SshSessionOutcome) : Prop :=
  match reportedError outputResult s with
  | some error => result = .error error
  | none => ∃ inputBytes, s.pump.pc = .ended (.ok inputBytes) ∧
      result = .ok
        { result := R.sessionResult s.copy.reader, inputBytes, outputBytes := s.copy.outputBytes }

/-- What the runner returns is the first failure: of the output, the input, or the final close. -/
theorem Returned.reports {outputResult : Except SshSessionError Unit}
    {result : Except SshSessionError SshSessionOutcome} (h : Returned R s outputResult result)
    (hinv : ThreadInv s) (hpanic : ∀ site, .close site .panicked ∉ s.history) :
    Reports R s outputResult result := by
  cases h with
  | dead hthread =>
      -- the input thread can only have died in the emergency close
      simp only [ThreadInv, hthread] at hinv
      exact absurd hinv (hpanic _)
  | failed hthread =>
      -- the pump has failed: the output result comes first
      simp only [ThreadInv, hthread] at hinv
      cases outputResult with
      | error error => rfl
      | ok => simp [Reports, reportedError, hinv.1, runnerResult, bind, Except.bind]
  | @finished inputBytes outcome hthread houtcome hlast =>
      -- the pump has ended well: the final close decides
      simp only [ThreadInv, hthread] at hinv
      have hfailure : s.pump.failure = none := by simp [InputPump.failure, hinv]
      have hclose := lastClose_of_getLast? hlast
      cases outputResult with
      | error error => rfl
      | ok =>
          cases outcome with
          | failed error =>
              simp [Reports, reportedError, hfailure, hclose, CallOutcome.error?, runnerResult,
                CallOutcome.toResult, bind, Except.bind]
          | panicked => exact absurd rfl houtcome
          | done =>
              simp only [Reports, reportedError, hfailure, hclose, CallOutcome.error?,
                Option.bind_some, Option.or_none]
              exact ⟨inputBytes, hinv, rfl⟩

/-- Whatever is returned, the writer was closed. -/
theorem Returned.closed {outputResult : Except SshSessionError Unit}
    {result : Except SshSessionError SshSessionOutcome} (h : Returned R s outputResult result)
    (hinv : ThreadInv s) : ∃ site outcome, .close site outcome ∈ s.history := by
  cases h with
  | dead hthread =>
      simp only [ThreadInv, hthread] at hinv
      exact ⟨_, _, hinv⟩
  | failed hthread =>
      simp only [ThreadInv, hthread] at hinv
      exact ⟨_, _, List.mem_of_getLast? hinv.2⟩
  | finished hthread houtcome hlast => exact ⟨_, _, List.mem_of_getLast? hlast⟩

/-- Over every interleaving in which no close panics:

1. when the runner returns, the writer's close has been attempted;
2. no write, resize or end of input follows a close;
3. the thread of a failed pump closes the writer without waiting for the output loop;
4. the runner returns the output error, else the input error, else the error of the last
   close, else the outcome. -/
theorem runner_closes_and_reports (R : SshShellReader ρ ε) (events : List SshInputEvent)
    (reader : ρ) (trace : List (RunnerLabel ε)) {s : RunnerState ρ}
    (hrun : (splitRunner R).run (.init events reader) trace = some s)
    (hpanic : ∀ site, .close site .panicked ∉ s.history) :
    (∀ outputResult result, s.out = .returned outputResult result →
      ∃ site outcome, .close site outcome ∈ s.history) ∧
    s.history.Pairwise AfterClose ∧
    (∀ error, s.pump.failure = some error → ClosesByItself R s) ∧
    (∀ outputResult result, s.out = .returned outputResult result →
      Reports R s outputResult result) := by
  have hinv := runner_inv hrun
  have hreturned : ∀ outputResult result, s.out = .returned outputResult result →
      Returned R s outputResult result := by
    intro outputResult result hout
    simpa only [OutputInv, hout] using hinv.output
  refine ⟨?_, hinv.closes.1, ?_, ?_⟩
  · intro outputResult result hout
    exact (hreturned outputResult result hout).closed hinv.thread
  · intro error hfailure
    exact closesByItself_of_failure hinv hfailure
  · intro outputResult result hout
    exact (hreturned outputResult result hout).reports hinv.thread hpanic

/-- The pump fails to finish the input while the remote keeps the channel open, and the
emergency close fails as well. -/
def failedEofTrace : List (RunnerLabel (Nat → Bool)) :=
  [.pump .advance, .pump (.recv .event), .pump .advance,
    .pump (.finishInput (.failed ⟨"channel is gone"⟩)),
    .emergencyClose (.failed ⟨"transport is gone"⟩), .copy (fun _ => false) .ok, .cancel, .join]

/-- Where that run ends. -/
def failedEofState : RunnerState RusshChannelReader where
  pump := { pc := .ended (.error ⟨"channel is gone"⟩), inbox := [], cancelled := true }
  thread := .failed ⟨"channel is gone"⟩ (.failed ⟨"transport is gone"⟩)
  out := .returned (.ok ()) (.error ⟨"channel is gone"⟩)
  copy := { reader := { readHalf := [], finished := true } }
  history :=
    [.handled .eof, .finishInput (.failed ⟨"channel is gone"⟩),
      .close .emergency (.failed ⟨"transport is gone"⟩)]

theorem failedEofTrace_run :
    (splitRunner russhShellReader).run (.init [.eof] closedReader) failedEofTrace =
      some failedEofState :=
  rfl

theorem failedEofTrace_reports :
    failedEofState.history.Pairwise AfterClose ∧
      ClosesByItself russhShellReader failedEofState ∧
      Reports russhShellReader failedEofState (.ok ()) (.error ⟨"channel is gone"⟩) := by
  obtain ⟨-, hpairwise, hcloses, hreports⟩ :=
    runner_closes_and_reports russhShellReader [.eof] closedReader failedEofTrace
      failedEofTrace_run (by simp [failedEofState])
  exact ⟨hpairwise, hcloses _ rfl, hreports _ _ rfl⟩

/-! ## The flag before the join

`std::thread::scope` joins the input thread on every way out of the closure, also when the
output loop unwinds. -/

/-- The output loop has stopped and the caller waits for the input thread, in `join` or at the
end of the scope. -/
def RunnerState.WaitsForInput (s : RunnerState ρ) : Prop :=
  s.thread = .pumping ∧ ((∃ outputResult, s.out = .joining outputResult) ∨ s.out = .unwinding)

/-- One turn of the output loop panics: the reader does, or the output does on the bytes that
were read. -/
def CopyPanics (R : SshShellReader ρ ε) (env : ε) (sink : SinkOutcome) (reader : ρ) : Prop :=
  (R.read reader env copyBufferSize).1 = .panicked ∨
    sink = .panicked ∧ ∃ bytes, (R.read reader env copyBufferSize).1 = .bytes bytes ∧ bytes ≠ []

/-- A turn of the copy panics exactly where the reader or the sink does. -/
theorem copyStep_eq_panicked_iff (env : ε) (sink : SinkOutcome) (copy : CopyState ρ) :
    (copyStep R env sink copy).1 = .panicked ↔ CopyPanics R env sink copy.reader := by
  unfold CopyPanics copyStep
  rcases R.read copy.reader env copyBufferSize with ⟨outcome, reader⟩
  cases outcome with
  | panicked => simp
  | failed error => simp
  | bytes bytes =>
      cases bytes with
      | nil => simp
      | cons byte bytes => cases sink <;> simp

/-- The side condition on a step: the output loop does not panic while the input thread is
running with the flag clear. -/
def PanicsCancelled (R : SshShellReader ρ ε) (s : RunnerState ρ) (l : RunnerLabel ε) : Prop :=
  ∀ env sink, l = .copy env sink → s.thread = .pumping → s.pump.cancelled = false →
    ¬ CopyPanics R env sink s.copy.reader

/-- Nothing clears the flag. -/
theorem InputPump.Step.cancelled_kept {p p' : InputPump} {entries : List SessionEvent}
    (h : Step p entries p') (hflag : p.cancelled = true) : p'.cancelled = true := by
  have hcall : ∀ outcome, (p.afterCall outcome).cancelled = p.cancelled := by
    intro outcome
    cases outcome <;> rfl
  cases h with
  | resizeFailed | closed | finished => rw [hcall, hflag]
  | raise | cancel => rfl
  | _ => exact hflag

/-- The flag is set while the caller waits. -/
def RunnerState.WaitsCancelled (s : RunnerState ρ) : Prop :=
  s.WaitsForInput → s.pump.cancelled = true

/-- The caller waits with the flag set, unless a turn of the output loop panics with the flag clear.
-/
theorem waitsCancelled_step :
    ∀ s l s', PanicsCancelled R s l → (splitRunner R).step s l = some s' →
      OutputInv R s → s.WaitsCancelled → s'.WaitsCancelled := by
  rintro s l s' hok h houtInv hinv ⟨hpumping, hstopped⟩
  cases RunnerState.step_sound h with
  | pump hthread hlabel hstep =>
      exact (InputPump.step_sound hstep).cancelled_kept (hinv ⟨hpumping, hstopped⟩)
  | exit => cases hpumping
  | @emergencyClose outcome error hthread hfailure =>
      by_cases houtcome : outcome = .panicked <;> simp [houtcome] at hpumping
  | @copy env sink hout =>
      -- the loop has stopped without passing the call of `cancel`, so it panicked
      have hpanics : (copyStep R env sink s.copy).1 = .panicked := by
        cases houtcome : (copyStep R env sink s.copy).1 with
        | panicked => rfl
        | more | done => simp [RunnerState.afterCopy, houtcome] at hstopped
      by_contra hclear
      exact hok env sink rfl hpumping (by simpa using hclear)
        ((copyStep_eq_panicked_iff env sink s.copy).mp hpanics)
  | cancel => rfl
  | join hout hnext =>
      -- `join` returns only when the input thread has ended
      have hthread : s.thread = .pumping := hpumping
      simp [RunnerState.afterJoin, hthread] at hnext
  | @finalClose result inputBytes outcome hout =>
      have hthread : s.thread = .finished inputBytes := by
        simpa only [OutputInv, hout] using houtInv
      simp [hthread] at hpumping

/-- Behind such a panic the caller waits with the flag clear. -/
theorem not_waitsCancelled_of_panic :
    ∀ s l s', (splitRunner R).step s l = some s' → ¬ PanicsCancelled R s l →
      ¬ s'.WaitsCancelled := by
  intro s l s' h hnot hgood
  simp only [PanicsCancelled, not_forall] at hnot
  rcases hnot with ⟨env, sink, rfl, hthread, hclear, hpanics⟩
  have hstep := (copyStep_eq_panicked_iff env sink s.copy).mpr (not_not.mp hpanics)
  cases RunnerState.step_sound h with
  | copy hout =>
      have hflag : s.pump.cancelled = true :=
        hgood ⟨hthread, .inr (by simp [RunnerState.afterCopy, hstep])⟩
      rw [hclear] at hflag
      cases hflag

/-- In every state of a run, the flag is set while the caller waits for the input thread, exactly
when no turn of the output loop panics while the input thread runs with the flag clear. -/
theorem cancelled_before_waiting_iff (R : SshShellReader ρ ε) (events : List SshInputEvent)
    (reader : ρ) (trace : List (RunnerLabel ε)) {s : RunnerState ρ}
    (hrun : (splitRunner R).run (.init events reader) trace = some s) :
    (∀ t, (splitRunner R).Visits (.init events reader) trace t →
      t.WaitsForInput → t.pump.cancelled = true) ↔
    (splitRunner R).AllSteps (PanicsCancelled R) (.init events reader) trace := by
  rcases thread_inv_init R events reader with ⟨hthread, hout⟩
  have hinit : (RunnerState.init events reader).WaitsCancelled := by
    simp [RunnerState.WaitsCancelled, RunnerState.WaitsForInput, RunnerState.init]
  have hkept : ∀ t l t', PanicsCancelled R t l → (splitRunner R).step t l = some t' →
      (ThreadInv t ∧ OutputInv R t) ∧ t.WaitsCancelled →
        (ThreadInv t' ∧ OutputInv R t') ∧ t'.WaitsCancelled := by
    rintro t l t' hok hstep ⟨hinv, hcancelled⟩
    exact ⟨thread_step_inv R t l t' hstep hinv,
      waitsCancelled_step t l t' hok hstep hinv.2 hcancelled⟩
  exact Machine.visits_good_iff hkept (fun t ht => ht.2) not_waitsCancelled_of_panic hrun
    ⟨⟨hthread, hout⟩, hinit⟩

/-- The remote sends a byte and the output panics on it. -/
def panickingOutput : List (RunnerLabel (Nat → Bool)) :=
  [.copy (fun _ => false) .panicked]

/-- The output loop unwinds, the caller waits for the input thread, and the flag is clear. -/
theorem panickingOutput_waits_uncancelled :
    ∃ s, (splitRunner russhShellReader).run (.init [] { readHalf := [.data [7]] })
        panickingOutput = some s ∧ s.WaitsForInput ∧ s.pump.cancelled = false :=
  ⟨_, rfl, ⟨rfl, .inr rfl⟩, rfl⟩

/-- The output panics after the pump has handled a Cancel event. -/
def cancelledPanic : List (RunnerLabel (Nat → Bool)) :=
  [.pump .advance, .pump (.recv .event), .pump .advance, .pump .advance,
    .copy (fun _ => false) .panicked]

theorem cancelledPanic_waits_cancelled :
    ∃ s, (splitRunner russhShellReader).run (.init [.cancel] { readHalf := [.data [7]] })
        cancelledPanic = some s ∧ s.WaitsForInput ∧ s.pump.cancelled = true := by
  -- the panic comes when the flag is up, so all steps are as the condition wants
  have hsteps : (splitRunner russhShellReader).AllSteps (PanicsCancelled russhShellReader)
      (.init [.cancel] { readHalf := [.data [7]] }) cancelledPanic := by
    refine ⟨nofun, fun s₁ h₁ => ⟨nofun, fun s₂ h₂ => ⟨nofun, fun s₃ h₃ => ⟨nofun, ?_⟩⟩⟩⟩
    obtain rfl := Option.some.inj h₁
    obtain rfl := Option.some.inj h₂
    obtain rfl := Option.some.inj h₃
    intro s₄ h₄
    obtain rfl := Option.some.inj h₄
    exact ⟨fun env sink _ _ hclear => (nomatch hclear), fun _ _ => trivial⟩
  have hwaits : ∃ s, (splitRunner russhShellReader).run
      (.init [.cancel] { readHalf := [.data [7]] }) cancelledPanic = some s ∧ s.WaitsForInput :=
    ⟨_, rfl, rfl, .inr rfl⟩
  rcases hwaits with ⟨s, hrun, hwaits⟩
  refine ⟨s, hrun, hwaits, ?_⟩
  exact (cancelled_before_waiting_iff russhShellReader [.cancel] _ cancelledPanic hrun).mpr hsteps
    s ⟨cancelledPanic, [], rfl, hrun⟩ hwaits

end Rssh
