import Rssh.Runner.Input
import Rssh.Channel.Output

/-!
# The full-duplex runner

`run_split_shell_with_events` runs the input pump in a thread of its own while the
calling thread copies remote output. The two share the cancellation flag and hand the
writer over: it belongs to the input thread until that thread is joined, and to the
caller for the final close.

* `splitRunner` is the machine of all interleavings. The pump's steps, the calls that
  close the writer and the turns of the output loop are its labels.
* `runner_projects` maps every run of the runner to a run of the input pump, so that
  what holds of the pump holds of the runner.
* `ThreadInv` and `OutputInv` say what the two threads know of each other; they carry
  the results about whole runs here and in `Rssh.Runner.Shutdown`.
* `input_bytes_exact_iff` says when the reported byte count is exact.
-/

namespace Rssh

/-! ## The runner -/

/-- The input thread: still pumping, ended with the pump's byte count, ended after the
emergency close of a failed pump, or dead because that close panicked. -/
inductive InputThread where
  | pumping
  | finished (inputBytes : Nat)
  | failed (error : SshSessionError) (emergencyClose : CallOutcome)
  | dead
deriving DecidableEq, Repr

/-- The calling thread. `unwinding` is a panic of the reader, of the output or of the
final close. -/
inductive OutputPc where
  | copying
  | cancelling (outputResult : Except SshSessionError Unit)
  | joining (outputResult : Except SshSessionError Unit)
  | closing (outputResult : Except SshSessionError Unit) (inputBytes : Nat)
  | returned (outputResult : Except SshSessionError Unit)
      (result : Except SshSessionError SshSessionOutcome)
  | unwinding

structure RunnerState (ρ : Type) where
  pump : InputPump
  thread : InputThread := .pumping
  out : OutputPc := .copying
  copy : CopyState ρ
  history : List SessionEvent := []

inductive RunnerLabel (ε : Type) where
  | pump (label : PumpLabel)
  /-- The pump succeeded and its thread ends. -/
  | exit
  | emergencyClose (outcome : CallOutcome)
  | copy (env : ε) (sink : SinkOutcome)
  | cancel
  | join
  | finalClose (outcome : CallOutcome)

/-- The error of a failed pump; a panic is caught and becomes an error. -/
def InputPump.failure (p : InputPump) : Option SshSessionError :=
  match p.pc with
  | .ended (.error error) => some error
  | .panicked => some ⟨"SSH input pump panicked"⟩
  | _ => none

def CallOutcome.toResult : CallOutcome → Except SshSessionError Unit
  | .done => .ok ()
  | .failed error => .error error
  | .panicked => .ok ()

variable {ρ ε : Type}

/-- The value of the runner: the output error, then the input error, then the error of
the close. -/
def runnerResult (R : SshShellReader ρ ε) (copy : CopyState ρ)
    (outputResult : Except SshSessionError Unit) (inputResult : Except SshSessionError Nat)
    (closeResult : Except SshSessionError Unit) : Except SshSessionError SshSessionOutcome := do
  outputResult
  let inputBytes ← inputResult
  closeResult
  return { result := R.sessionResult copy.reader, inputBytes, outputBytes := copy.outputBytes }

namespace RunnerState

/-- After one turn of the output loop. -/
def afterCopy : CopyOutcome → OutputPc
  | .more => .copying
  | .done result => .cancelling result
  | .panicked => .unwinding

/-- After `join`: a dead thread is an error, a failed pump has been closed already, and a
finished one leaves the close to the caller. -/
def afterJoin (R : SshShellReader ρ ε) (s : RunnerState ρ)
    (outputResult : Except SshSessionError Unit) : Option OutputPc :=
  match s.thread with
  | .pumping => none
  | .dead =>
      some (.returned outputResult
        (runnerResult R s.copy outputResult (.error ⟨"SSH input pump panicked"⟩) (.ok ())))
  | .failed error emergencyClose =>
      some (.returned outputResult
        (runnerResult R s.copy outputResult (.error error) emergencyClose.toResult))
  | .finished inputBytes => some (.closing outputResult inputBytes)

/-- After the final close. -/
def afterFinalClose (R : SshShellReader ρ ε) (s : RunnerState ρ)
    (outputResult : Except SshSessionError Unit) (inputBytes : Nat) : CallOutcome → OutputPc
  | .panicked => .unwinding
  | outcome =>
      .returned outputResult (runnerResult R s.copy outputResult (.ok inputBytes) outcome.toResult)

/-- One step of `run_split_shell_with_events`. -/
def step (R : SshShellReader ρ ε) (s : RunnerState ρ) : RunnerLabel ε → Option (RunnerState ρ)
  | .pump label =>
      if s.thread = .pumping ∧ label ≠ .raise then
        (s.pump.step label).map fun (pump, entries) =>
          { s with pump, history := s.history ++ entries }
      else none
  | .exit =>
      match s.thread, s.pump.pc with
      | .pumping, .ended (.ok inputBytes) => some { s with thread := .finished inputBytes }
      | _, _ => none
  | .emergencyClose outcome =>
      -- `closed_on_error`: the input thread still owns the writer
      match s.thread, s.pump.failure with
      | .pumping, some error =>
          some { s with
            thread := if outcome = .panicked then .dead else .failed error outcome
            history := s.history ++ [.close .emergency outcome] }
      | _, _ => none
  | .copy env sink =>
      match s.out with
      | .copying =>
          let (outcome, copy) := copyStep R env sink s.copy
          some { s with copy, out := afterCopy outcome }
      | _ => none
  | .cancel =>
      -- the one store that the pump sees of the output loop
      match s.out with
      | .cancelling result =>
          some { s with pump := { s.pump with cancelled := true }, out := .joining result }
      | _ => none
  | .join =>
      match s.out with
      | .joining result => (s.afterJoin R result).map fun out => { s with out }
      | _ => none
  | .finalClose outcome =>
      match s.out with
      | .closing result inputBytes =>
          some { s with
            out := s.afterFinalClose R result inputBytes outcome
            history := s.history ++ [.close .final outcome] }
      | _ => none

/-- The runner before its first step. -/
def init (events : List SshInputEvent) (reader : ρ) : RunnerState ρ where
  pump := .init events
  copy := { reader }

end RunnerState

def splitRunner (R : SshShellReader ρ ε) : Machine (RunnerState ρ) (RunnerLabel ε) where
  step s l := s.step R l

/-- Everything a step of the runner can do. -/
inductive RunnerState.Step (R : SshShellReader ρ ε) (s : RunnerState ρ) :
    RunnerLabel ε → RunnerState ρ → Prop
  | pump {label : PumpLabel} {pump : InputPump} {entries : List SessionEvent}
      (hthread : s.thread = .pumping) (hlabel : label ≠ .raise)
      (hstep : s.pump.step label = some (pump, entries)) :
      Step R s (.pump label) { s with pump, history := s.history ++ entries }
  | exit {inputBytes : Nat} (hthread : s.thread = .pumping)
      (hpc : s.pump.pc = .ended (.ok inputBytes)) :
      Step R s .exit { s with thread := .finished inputBytes }
  | emergencyClose {outcome : CallOutcome} {error : SshSessionError}
      (hthread : s.thread = .pumping) (hfailure : s.pump.failure = some error) :
      Step R s (.emergencyClose outcome) { s with
        thread := if outcome = .panicked then .dead else .failed error outcome
        history := s.history ++ [.close .emergency outcome] }
  | copy {env : ε} {sink : SinkOutcome} (hout : s.out = .copying) :
      Step R s (.copy env sink) { s with
        copy := (copyStep R env sink s.copy).2
        out := afterCopy (copyStep R env sink s.copy).1 }
  | cancel {result : Except SshSessionError Unit} (hout : s.out = .cancelling result) :
      Step R s .cancel
        { s with pump := { s.pump with cancelled := true }, out := .joining result }
  | join {result : Except SshSessionError Unit} {out : OutputPc} (hout : s.out = .joining result)
      (hnext : s.afterJoin R result = some out) : Step R s .join { s with out }
  | finalClose {result : Except SshSessionError Unit} {inputBytes : Nat} {outcome : CallOutcome}
      (hout : s.out = .closing result inputBytes) :
      Step R s (.finalClose outcome) { s with
        out := s.afterFinalClose R result inputBytes outcome
        history := s.history ++ [.close .final outcome] }

/-- `Step` has every step of the runner. -/
theorem RunnerState.step_sound {R : SshShellReader ρ ε} {s s' : RunnerState ρ}
    {l : RunnerLabel ε} (h : (splitRunner R).step s l = some s') : Step R s l s' := by
  change s.step R l = some s' at h
  cases l with
  | pump label =>
      simp only [step] at h
      split at h
      · rename_i hguard
        rcases Option.map_eq_some_iff.mp h with ⟨⟨pump, entries⟩, hstep, rfl⟩
        exact .pump hguard.1 hguard.2 hstep
      · simp at h
  | exit =>
      simp only [step] at h
      split at h
      · rename_i hthread hpc
        obtain rfl := Option.some.inj h
        exact .exit hthread hpc
      · simp at h
  | emergencyClose outcome =>
      -- a failed pump is closed by its own thread
      simp only [step] at h
      split at h
      · rename_i hthread hfailure
        obtain rfl := Option.some.inj h
        exact .emergencyClose hthread hfailure
      · simp at h
  | copy env sink =>
      simp only [step] at h
      split at h
      · rename_i hout
        obtain rfl := Option.some.inj h
        exact .copy hout
      · simp at h
  | cancel =>
      -- a copy that is done sets the flag
      simp only [step] at h
      split at h
      · rename_i hout
        obtain rfl := Option.some.inj h
        exact .cancel hout
      · simp at h
  | join =>
      simp only [step] at h
      split at h
      · rename_i hout
        rcases Option.map_eq_some_iff.mp h with ⟨out, hnext, rfl⟩
        exact .join hout hnext
      · simp at h
  | finalClose outcome =>
      simp only [step] at h
      split at h
      · rename_i hout
        obtain rfl := Option.some.inj h
        exact .finalClose hout
      · simp at h

/-! ## The pump inside the runner -/

/-- The entries that the pump itself adds to the history. -/
def SessionEvent.ofPump : SessionEvent → Bool
  | .close .emergency _ => false
  | .close .final _ => false
  | _ => true

/-- The runner as its input pump sees it. -/
def RunnerState.inputView (s : RunnerState ρ) : InputPump × List SessionEvent :=
  (s.pump, s.history.filter SessionEvent.ofPump)

def RunnerLabel.inputView : RunnerLabel ε → Option PumpLabel
  | .pump label => some label
  | .cancel => some .raise
  | _ => none

theorem InputPump.Step.ofPump {p p' : InputPump} {entries : List SessionEvent}
    (h : Step p entries p') : entries.filter SessionEvent.ofPump = entries := by
  cases h <;> rfl

/-- Every run of the runner is a run of the input pump. -/
theorem runner_projects (R : SshShellReader ρ ε) :
    Machine.Projects (splitRunner R) inputPump RunnerState.inputView RunnerLabel.inputView := by
  intro s l s' h
  cases RunnerState.step_sound h with
  | pump hthread hlabel hstep =>
      have hentries := (InputPump.step_sound hstep).ofPump
      simp [RunnerLabel.inputView, RunnerState.inputView, inputPump, hstep, hentries]
  | exit | copy | join => rfl
  | emergencyClose | finalClose =>
      simp [RunnerLabel.inputView, RunnerState.inputView, SessionEvent.ofPump]
  | cancel =>
      -- the only step of the other thread that the pump can see
      simp [RunnerLabel.inputView, RunnerState.inputView, inputPump, InputPump.step]

/-- The closes of the other two sites carry no input. -/
theorem accepted_filter_ofPump (history : List SessionEvent) :
    accepted (history.filter SessionEvent.ofPump) = accepted history := by
  induction history with
  | nil => rfl
  | cons entry history ih =>
      have hcons : accepted (entry :: history) = entry.accepted ++ accepted history := rfl
      cases hentry : entry.ofPump with
      | true =>
          rw [List.filter_cons_of_pos hentry, hcons, ← ih]
          rfl
      | false =>
          have hnone : entry.accepted = [] := by
            cases entry with
            | close site outcome => rfl
            | handled event => rfl
            | resize size outcome => rfl
            | finishInput outcome => rfl
            -- every write is one of the pump
            | write bytes written outcome => simp [SessionEvent.ofPump] at hentry
          rw [List.filter_cons_of_neg (by simp [hentry]), hcons, hnone, ih, List.nil_append]

theorem torn_filter_ofPump (history : List SessionEvent) :
    Torn (history.filter SessionEvent.ofPump) ↔ Torn history := by
  simp [Torn, SessionEvent.ofPump]

/-! ## The two threads -/

/-- What each state of the input thread says about the pump and the history. -/
def ThreadInv (s : RunnerState ρ) : Prop :=
  match s.thread with
  | .pumping => True
  | .finished inputBytes => s.pump.pc = .ended (.ok inputBytes)
  | .failed error emergencyClose =>
      s.pump.failure = some error ∧ s.history.getLast? = some (.close .emergency emergencyClose)
  | .dead => .close .emergency .panicked ∈ s.history

/-- The three ways in which the runner returns: a dead input thread, a failed one, and a
finished one after the final close. -/
inductive Returned (R : SshShellReader ρ ε) (s : RunnerState ρ)
    (outputResult : Except SshSessionError Unit) :
    Except SshSessionError SshSessionOutcome → Prop
  | dead (hthread : s.thread = .dead) : Returned R s outputResult
      (runnerResult R s.copy outputResult (.error ⟨"SSH input pump panicked"⟩) (.ok ()))
  | failed {error : SshSessionError} {emergencyClose : CallOutcome}
      (hthread : s.thread = .failed error emergencyClose) : Returned R s outputResult
      (runnerResult R s.copy outputResult (.error error) emergencyClose.toResult)
  | finished {inputBytes : Nat} {outcome : CallOutcome}
      (hthread : s.thread = .finished inputBytes) (houtcome : outcome ≠ .panicked)
      (hlast : s.history.getLast? = some (.close .final outcome)) : Returned R s outputResult
      (runnerResult R s.copy outputResult (.ok inputBytes) outcome.toResult)

/-- What each state of the calling thread says about the input thread. -/
def OutputInv (R : SshShellReader ρ ε) (s : RunnerState ρ) : Prop :=
  match s.out with
  | .closing _ inputBytes => s.thread = .finished inputBytes
  | .returned outputResult result => Returned R s outputResult result
  | _ => True

/-- The calling thread waits for the input thread before it closes or returns. -/
theorem OutputInv.joined {R : SshShellReader ρ ε} {s : RunnerState ρ} (h : OutputInv R s)
    (hthread : s.thread = .pumping) :
    (∀ outputResult inputBytes, s.out ≠ .closing outputResult inputBytes) ∧
      ∀ outputResult result, s.out ≠ .returned outputResult result := by
  constructor
  · intro outputResult inputBytes hout
    simp only [OutputInv, hout, hthread] at h
    exact absurd h (by simp)
  · intro outputResult result hout
    simp only [OutputInv, hout] at h
    cases h <;> simp_all

/-- A step of the input thread keeps `OutputInv`. -/
theorem OutputInv.of_pumping {R : SshShellReader ρ ε} {s s' : RunnerState ρ}
    (h : OutputInv R s) (hthread : s.thread = .pumping) (hout : s'.out = s.out) :
    OutputInv R s' := by
  rcases h.joined hthread with ⟨hclosing, hreturned⟩
  unfold OutputInv
  rw [hout]
  split
  · rename_i heq
    exact absurd heq (hclosing _ _)
  · rename_i heq
    exact absurd heq (hreturned _ _)
  · trivial

/-- Each step keeps what the threads know of each other and of the output. -/
theorem thread_step_inv (R : SshShellReader ρ ε) :
    ∀ s l s', (splitRunner R).step s l = some s' → ThreadInv s ∧ OutputInv R s →
      ThreadInv s' ∧ OutputInv R s' := by
  rintro s l s' h ⟨hthreadInv, houtInv⟩
  cases RunnerState.step_sound h with
  | pump hthread hlabel hstep =>
      exact ⟨by simp [ThreadInv, hthread], houtInv.of_pumping hthread rfl⟩
  | exit hthread hpc => exact ⟨hpc, houtInv.of_pumping hthread rfl⟩
  | @emergencyClose outcome error hthread hfailure =>
      refine ⟨?_, houtInv.of_pumping hthread rfl⟩
      by_cases houtcome : outcome = .panicked
      · simp [ThreadInv, houtcome]
      · simp [ThreadInv, houtcome, hfailure]
  | @copy env sink hout =>
      refine ⟨hthreadInv, ?_⟩
      cases (copyStep R env sink s.copy).1 <;> simp [OutputInv, RunnerState.afterCopy]
  | cancel hout =>
      exact ⟨hthreadInv, trivial⟩
  | @join result out hout hnext =>
      -- the result of the join says in which of its three ways the thread ended
      refine ⟨hthreadInv, ?_⟩
      unfold RunnerState.afterJoin at hnext
      split at hnext
      · simp at hnext
      · rename_i hthread
        obtain rfl := Option.some.inj hnext
        exact .dead hthread
      · rename_i hthread
        obtain rfl := Option.some.inj hnext
        exact .failed hthread
      · rename_i hthread
        obtain rfl := Option.some.inj hnext
        exact hthread
  | @finalClose result inputBytes outcome hout =>
      -- only a finished input thread leaves the close to the caller
      have hthread : s.thread = .finished inputBytes := by
        simpa only [OutputInv, hout] using houtInv
      have hpc : s.pump.pc = .ended (.ok inputBytes) := by
        simpa only [ThreadInv, hthread] using hthreadInv
      refine ⟨by simpa only [ThreadInv, hthread] using hpc, ?_⟩
      cases outcome with
      | done => exact .finished hthread (by simp) (by simp)
      | failed error => exact .finished hthread (by simp) (by simp)
      | panicked => trivial

theorem thread_inv_init (R : SshShellReader ρ ε) (events : List SshInputEvent) (reader : ρ) :
    ThreadInv (.init events reader) ∧ OutputInv R (.init events reader) :=
  ⟨trivial, trivial⟩

/-- The runner is `Ok` only when the pump was, with the pump's count. -/
theorem Returned.pump_ended {R : SshShellReader ρ ε} {s : RunnerState ρ}
    {outputResult : Except SshSessionError Unit} {outcome : SshSessionOutcome}
    (h : Returned R s outputResult (.ok outcome)) (hinv : ThreadInv s) :
    s.pump.pc = .ended (.ok outcome.inputBytes) := by
  -- an error of either thread or of the close would be the value
  generalize hresult : Except.ok outcome = result at h
  cases h with
  | dead hthread => cases outputResult <;> simp [runnerResult, bind, Except.bind] at hresult
  | failed hthread => cases outputResult <;> simp [runnerResult, bind, Except.bind] at hresult
  | @finished inputBytes close hthread hclose hlast =>
      cases outputResult with
      | error error => simp [runnerResult, bind, Except.bind] at hresult
      | ok =>
          cases close with
          | failed error =>
              simp [runnerResult, bind, Except.bind, CallOutcome.toResult] at hresult
          | panicked => exact absurd rfl hclose
          | done =>
              obtain rfl := Except.ok.inj hresult
              simpa only [ThreadInv, hthread] using hinv

/-- What every read keeps of the reader, every step of the runner keeps. -/
theorem reader_step_inv {R : SshShellReader ρ ε} {P : ρ → Prop}
    (hread : ∀ r env, P r → P (R.read r env copyBufferSize).2) :
    ∀ s l s', (splitRunner R).step s l = some s' → P s.copy.reader → P s'.copy.reader := by
  intro s l s' h hinv
  cases RunnerState.step_sound h with
  | @copy env sink hout =>
      rw [copyStep_reader]
      exact hread _ env hinv
  | pump | exit | emergencyClose | cancel | join | finalClose => exact hinv

/-- The runner is `Ok` only with the metadata its reader holds. -/
theorem Returned.result_eq {R : SshShellReader ρ ε} {s : RunnerState ρ}
    {outputResult : Except SshSessionError Unit} {outcome : SshSessionOutcome}
    (h : Returned R s outputResult (.ok outcome)) :
    outcome.result = R.sessionResult s.copy.reader := by
  have hvalue : ∀ inputResult closeResult,
      Except.ok outcome = runnerResult R s.copy outputResult inputResult closeResult →
        outcome.result = R.sessionResult s.copy.reader := by
    intro inputResult closeResult hresult
    rcases outputResult with _ | _ <;> rcases inputResult with _ | _ <;>
      rcases closeResult with _ | _ <;>
      simp only [runnerResult, bind, Except.bind, pure, Except.pure, reduceCtorEq,
        Except.ok.injEq] at hresult
    rw [hresult]
  generalize hresult : Except.ok outcome = result at h
  cases h with
  | dead | failed | finished => exact hvalue _ _ hresult

/-! ## The byte count -/

/-- The side condition on a step: a write is not answered with a cancellation when an
earlier write of the same Data event was accepted. -/
def WholeEvents (s : RunnerState ρ) (l : RunnerLabel ε) : Prop :=
  ∀ bytes written, l = .pump (.write .cancelled) → s.pump.pc = .writing bytes written →
    written = 0

/-- The history only grows. -/
theorem history_grows {R : SshShellReader ρ ε} {s s' : RunnerState ρ} {l : RunnerLabel ε}
    (h : (splitRunner R).step s l = some s') :
    ∃ entries, s'.history = s.history ++ entries := by
  cases RunnerState.step_sound h with
  | pump | emergencyClose | finalClose => exact ⟨_, rfl⟩
  | exit | copy | cancel | join => exact ⟨[], (List.append_nil _).symm⟩

/-- A cancelled write is the answer to the write in progress. -/
theorem InputPump.cancelled_write_mem {p p' : InputPump} {label : PumpLabel}
    {entries : List SessionEvent} (h : p.step label = some (p', entries)) {bytes : List UInt8}
    {written : Nat} (hmem : .write bytes written .cancelled ∈ entries) :
    label = .write .cancelled ∧ p.pc = .writing bytes written := by
  -- only a write that is under way can be cancelled
  have hpc : p.pc = .writing bytes written := by
    cases step_sound h <;> simp_all
  refine ⟨?_, hpc⟩
  cases label with
  | raise => simp_all [step]
  | advance => simp_all [step, advance]
  | recv outcome => simp [step, recv, hpc] at h
  | write outcome =>
      simp only [step, write, hpc] at h
      split at h
      · rcases Option.map_eq_some_iff.mp h with ⟨q, hq, heq⟩
        rcases Prod.mk.inj heq with ⟨rfl, rfl⟩
        obtain rfl : WriteOutcome.cancelled = outcome := by simpa using hmem
        rfl
      · simp at h
  | resize outcome => simp [step, resize, hpc] at h
  | finishInput outcome => simp [step, hpc] at h
  | close outcome => simp [step, hpc] at h

/-- A step outside `WholeEvents` leaves its mark in the history. -/
theorem torn_of_not_wholeEvents (R : SshShellReader ρ ε) :
    ∀ s l s', (splitRunner R).step s l = some s' → ¬ WholeEvents s l → Torn s'.history := by
  intro s l s' h hnot
  simp only [WholeEvents, not_forall] at hnot
  rcases hnot with ⟨bytes, written, rfl, hpc, hne⟩
  cases RunnerState.step_sound h with
  | pump hthread hlabel hstep =>
      simp only [InputPump.step, InputPump.write, hpc] at hstep
      split at hstep
      · rcases Option.map_eq_some_iff.mp hstep with ⟨q, hq, heq⟩
        rcases Prod.mk.inj heq with ⟨rfl, rfl⟩
        exact torn_append.mpr (.inr ⟨bytes, written, by omega, by simp⟩)
      · simp at hstep

/-- A step that tears no event leaves the history whole. -/
theorem not_torn_step (R : SshShellReader ρ ε) :
    ∀ s l s', WholeEvents s l → (splitRunner R).step s l = some s' → ¬ Torn s.history →
      ¬ Torn s'.history := by
  intro s l s' hok h hinv
  cases RunnerState.step_sound h with
  | pump hthread hlabel hstep =>
      rw [torn_append, not_or]
      refine ⟨hinv, ?_⟩
      rintro ⟨bytes, written, hpos, hmem⟩
      rcases InputPump.cancelled_write_mem hstep hmem with ⟨rfl, hpc⟩
      exact absurd (hok bytes written rfl hpc) (by omega)
  | exit | copy | cancel | join => exact hinv
  | emergencyClose | finalClose =>
      rw [torn_append, not_or]
      exact ⟨hinv, not_torn_singleton (by simp)⟩

theorem torn_kept (R : SshShellReader ρ ε) :
    ∀ s l s', (splitRunner R).step s l = some s' → Torn s.history → Torn s'.history := by
  intro s l s' h hinv
  rcases history_grows h with ⟨entries, hentries⟩
  rw [hentries]
  exact torn_append.mpr (.inl hinv)

/-- A run of the runner is torn exactly when some step of it is outside `WholeEvents`. -/
theorem not_torn_iff {R : SshShellReader ρ ε} {events : List SshInputEvent} {reader : ρ}
    {trace : List (RunnerLabel ε)} {s : RunnerState ρ}
    (hrun : (splitRunner R).run (.init events reader) trace = some s) :
    ¬ Torn s.history ↔ (splitRunner R).AllSteps WholeEvents (.init events reader) trace := by
  constructor
  · exact Machine.allSteps_of_unmarked (torn_kept R) (torn_of_not_wholeEvents R) hrun
  · intro hall
    have hinit : ¬ Torn (RunnerState.init events reader).history := by
      simp [Torn, RunnerState.init]
    exact Machine.run_invariant_of (not_torn_step R) hall hrun hinit

/-- The byte count of a run that returns `Ok` is the number of accepted bytes exactly when
no write was cancelled after an earlier write of the same Data event. -/
theorem input_bytes_exact_iff (R : SshShellReader ρ ε) (events : List SshInputEvent) (reader : ρ)
    (trace : List (RunnerLabel ε)) {s : RunnerState ρ}
    {outputResult : Except SshSessionError Unit} {outcome : SshSessionOutcome}
    (hrun : (splitRunner R).run (.init events reader) trace = some s)
    (hreturned : s.out = .returned outputResult (.ok outcome))
    (htotal : (accepted s.history).length < 2 ^ 64) :
    outcome.inputBytes = (accepted s.history).length ↔
      (splitRunner R).AllSteps WholeEvents (.init events reader) trace := by
  rcases Machine.run_invariant (thread_step_inv R) hrun (thread_inv_init R events reader) with
    ⟨hthread, hout⟩
  have hpc : s.pump.pc = .ended (.ok outcome.inputBytes) := by
    simp only [OutputInv, hreturned] at hout
    exact hout.pump_ended hthread
  rcases ended_count events _ ((runner_projects R).run hrun) hpc with ⟨lost, hlost, hbytes, htorn⟩
  rw [torn_filter_ofPump] at htorn
  rw [accepted_filter_ofPump] at hlost hbytes
  rw [← not_torn_iff hrun, ← htorn, hbytes]
  simp only [u64Max]
  omega

/-- A remote that closes the channel at once. -/
def closedReader : RusshChannelReader where
  readHalf := [.close]

/-- Three bytes in two writes; the remote closes before the pump looks for more input. -/
def wholeTrace : List (RunnerLabel (Nat → Bool)) :=
  [.pump .advance, .pump (.recv .event), .pump .advance, .pump (.write (.accepted 2)),
    .pump (.write (.accepted 1)), .pump .advance, .copy (fun _ => false) .ok, .cancel,
    .pump .advance, .exit, .join, .finalClose .done]

/-- The run in which each event is written as a whole. -/
theorem wholeTrace_exact :
    ∃ s outcome, (splitRunner russhShellReader).run (.init [.data [1, 2, 3]] closedReader)
        wholeTrace = some s ∧
      s.out = .returned (.ok ()) (.ok outcome) ∧ outcome.inputBytes = 3 ∧
      (splitRunner russhShellReader).AllSteps WholeEvents
        (.init [.data [1, 2, 3]] closedReader) wholeTrace :=
  ⟨_, _, rfl, rfl, rfl,
    (input_bytes_exact_iff russhShellReader [.data [1, 2, 3]] closedReader wholeTrace rfl rfl
      (by decide)).mp rfl⟩

/-- The same payload, but the remote closes between the two writes: two bytes are accepted
and none is reported. -/
def tornTrace : List (RunnerLabel (Nat → Bool)) :=
  [.pump .advance, .pump (.recv .event), .pump .advance, .pump (.write (.accepted 2)),
    .copy (fun _ => false) .ok, .cancel, .pump (.write .cancelled), .exit, .join,
    .finalClose .done]

/-- The run in which a write is cancelled after two bytes. -/
theorem tornTrace_undercounts :
    ∃ s outcome, (splitRunner russhShellReader).run (.init [.data [1, 2, 3]] closedReader)
        tornTrace = some s ∧
      s.out = .returned (.ok ()) (.ok outcome) ∧ outcome.inputBytes = 0 ∧
      accepted s.history = [1, 2] :=
  ⟨_, _, rfl, rfl, rfl, rfl⟩

end Rssh
