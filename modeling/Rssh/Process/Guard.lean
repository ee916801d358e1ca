import Mathlib.Data.List.Nodup
import Rssh.Lib.Machine
import Rssh.Process.Capture

/-!
# Child guards and the background reaper

A `ChildGuard` owns a child process. `try_wait`, `wait`, `terminate` and dropping the guard end
in one of three ways: the guard keeps the child, a `try_wait` of the operating system has
returned the child's status, or the child is pushed to the queue of the background reaper,
which polls it again and again.

The machine `reaping` has any number of guards and the reaper. Each label is one
operating-system call or one atomic step of one of them, and what the call returned is part of
the label.

* `ChildGuard.step_spec` is what one step of a guard does with its child.
* `Custody` is the invariant: every spawned child is in exactly one place.
* `reaping_custody` is the result about all runs.
-/

namespace Rssh

/-! ## Results of the guard -/

/-- `io::Error`, as its text. -/
structure IoError where
  message : String
deriving DecidableEq, Repr

/-- `ChildOutput`, over the exit statuses `σ`. -/
structure ChildOutput (σ : Type) where
  status : σ
  stdout : List UInt8
  stderr : List UInt8
deriving DecidableEq, Repr

/-- `ChildGuardError`. -/
inductive ChildGuardError (σ : Type) where
  | io (operation : String) (source : IoError) (secondary : Option IoError)
      (output : Option (ChildOutput σ))
  | timedOut (timeout : Nat) (output : ChildOutput σ) (cleanupError captureError : Option IoError)
  | cleanupDeferred (operation : String) (source : IoError) (secondary : Option IoError)
      (stdout stderr : List UInt8)
deriving DecidableEq, Repr

variable {κ σ : Type}

def missingChildError (operation : String) : ChildGuardError σ :=
  .io operation ⟨"child process ownership was already released"⟩ none none

def combineSecondaryErrors : Option IoError → Option IoError → Option IoError
  | some cleanup, some capture =>
      some ⟨"cleanup warning: " ++ cleanup.message ++ "; capture warning: " ++ capture.message⟩
  | some error, none => some error
  | none, some error => some error
  | none, none => none

def buildTimeoutError (timeout : Nat) (output : ChildOutput σ)
    (cleanupError captureError : Option IoError) : ChildGuardError σ :=
  .timedOut timeout output cleanupError captureError

def buildCompletedCaptureError (output : ChildOutput σ) (source : IoError)
    (redactions : List (List UInt8)) : ChildGuardError σ :=
  .io "capture completed child output" source none
    (some { output with
      stdout := redactValues output.stdout redactions
      stderr := redactValues output.stderr redactions })

def buildObservationError (output : ChildOutput σ) (observationError : IoError)
    (cleanupError captureError : Option IoError) : ChildGuardError σ :=
  .io "observe and clean up" observationError (combineSecondaryErrors cleanupError captureError)
    (some output)

/-- `capture_diagnostics` on the results of the two snapshots. -/
def captureDiagnostics (stdout stderr : Except IoError (List UInt8))
    (redactions : List (List UInt8)) (redact : Bool) :
    List UInt8 × List UInt8 × Option IoError :=
  let kept (snapshot : Except IoError (List UInt8)) : List UInt8 :=
    match snapshot with
    | .ok bytes => if redact then redactValues bytes redactions else bytes
    | .error _ => if redact then redactValues [] redactions else []
  let error (snapshot : Except IoError (List UInt8)) : Option IoError :=
    match snapshot with
    | .ok _ => none
    | .error source => some source
  (kept stdout, kept stderr, (error stdout).or (error stderr))

/-! ## One guard -/

/-- The two calls that poll the child. -/
inductive Poller where
  | tryWait
  | wait
deriving DecidableEq, Repr

/-- The calls of `bounded_cleanup` that return a result. -/
inductive Cleanup where
  | terminate
  | timeout
  | observation (source : IoError) (poller : Poller)
deriving DecidableEq, Repr

/-- Where a guard stands. `overdue` is the clock of `bounded_cleanup`, `waiting` the one of
`wait`; a cleanup without a `why` is the one of `Drop::drop`, which starts at `dropping` and
ends at `fields`, where the fields of the guard are dropped. -/
inductive GuardPc (σ : Type) where
  | idle
  | polling (poller : Poller)
  | waiting
  | killing (why : Option Cleanup)
  | reaping (why : Option Cleanup) (killed : Bool) (lastError : Option IoError)
  | overdue (why : Option Cleanup) (killed : Bool) (lastError : Option IoError)
  | rekilling (why : Option Cleanup) (lastError : Option IoError)
  | deferred (why : Cleanup) (lastError : Option IoError)
  | handing (why : Cleanup) (lastError : Option IoError) (stdout stderr : List UInt8)
      (captureError : Option IoError)
  | dropHanding
  | exited (poller : Poller) (status : σ)
  | reaped (why : Cleanup) (status : σ) (lastError : Option IoError)
  | dropping
  | fields
  | gone
deriving DecidableEq, Repr

/-- A `ChildGuard` over the process handles `κ`. `returns` logs what its calls have returned,
with `ok (some output)` for the `Ok(output)` of `wait` and `terminate`. -/
structure ChildGuard (κ σ : Type) where
  child : Option κ
  timeout : Nat
  redactions : List (List UInt8)
  pc : GuardPc σ := .idle
  returns : List (Except (ChildGuardError σ) (Option (ChildOutput σ))) := []

inductive GuardCall where
  | tryWait
  | wait
  | terminate
  | drop
deriving DecidableEq, Repr

/-- The steps of a guard. `clock due` is `now >= deadline`, and `capture` has the results of
the snapshots of stdout and stderr. -/
inductive GuardEvent (σ : Type) where
  | call (call : GuardCall)
  | tryWait (result : Except IoError (Option σ))
  | kill (result : Except IoError Unit)
  | clock (due : Bool)
  | capture (stdout stderr : Except IoError (List UInt8))
  | handOver
  | drop
  | dropFields

/-- What a step of a guard does with the child outside the guard. `reaped` drops a handle
whose status was returned, `dropped` one that is still in the guard. -/
inductive Move (κ σ : Type) where
  | stays
  | reaped (child : κ) (status : σ)
  | enqueued (child : κ)
  | dropped (child : κ)

/-- Where the guard goes when the poll is over: `wait` has consumed it. -/
def Poller.after : Poller → GuardPc σ
  | .tryWait => .idle
  | .wait => .dropping

def Cleanup.after : Cleanup → GuardPc σ
  | .terminate => .dropping
  | .timeout => .dropping
  | .observation _ poller => poller.after

/-- The operation in the `missing_child_error` at the start of a cleanup. -/
def Cleanup.operation : Cleanup → String
  | .terminate => "terminate and reap"
  | .timeout => "terminate after timeout"
  | .observation _ _ => "clean up after observation error"

/-- The operation in the `missing_child_error` of the deferred branch. -/
def Cleanup.deferOperation : Cleanup → String
  | .terminate => "defer explicit termination cleanup"
  | .timeout => "defer timeout cleanup"
  | .observation _ _ => "defer observation-error cleanup"

/-- The error of a cleanup that was handed to the reaper. -/
def Cleanup.deferredError (lastError : Option IoError) (stdout stderr : List UInt8)
    (captureError : Option IoError) : Cleanup → ChildGuardError σ
  | .terminate =>
      .cleanupDeferred "explicit termination cleanup delegated to background reaper"
        (lastError.getD ⟨"child remained unreaped after explicit termination"⟩)
        captureError stdout stderr
  | .timeout =>
      .cleanupDeferred "cleanup deadline expired; delegated to background reaper"
        (lastError.getD ⟨"child remained unreaped after kill and cleanup grace"⟩)
        captureError stdout stderr
  | .observation source _ =>
      .cleanupDeferred "observation cleanup deferred to background reaper" source
        (combineSecondaryErrors lastError captureError) stdout stderr

namespace ChildGuard

def goto (g : ChildGuard κ σ) (pc : GuardPc σ) : ChildGuard κ σ := { g with pc }

/-- A call returns. -/
def answer (g : ChildGuard κ σ) (result : Except (ChildGuardError σ) (Option (ChildOutput σ)))
    (pc : GuardPc σ) : ChildGuard κ σ :=
  { g with pc, returns := g.returns ++ [result] }

/-- The head of `try_wait` and of the loop of `wait`. -/
def startPoll (g : ChildGuard κ σ) (poller : Poller) : ChildGuard κ σ :=
  match g.child with
  | some _ => g.goto (.polling poller)
  | none => g.answer (.error (missingChildError "poll")) poller.after

/-- The head of `terminate` and of the two `terminate_after_*` functions. -/
def startCleanup (g : ChildGuard κ σ) (why : Cleanup) : ChildGuard κ σ :=
  match g.child with
  | some _ => g.goto (.killing (some why))
  | none => g.answer (.error (missingChildError why.operation)) why.after

/-- A call on a guard that no other call is using. -/
def onCall (g : ChildGuard κ σ) (call : GuardCall) : Option (ChildGuard κ σ) :=
  match g.pc, call with
  | .idle, .tryWait => some (g.startPoll .tryWait)
  | .idle, .wait => some (g.startPoll .wait)
  | .idle, .terminate => some (g.startCleanup .terminate)
  | .idle, .drop => some (g.goto .dropping)
  | _, _ => none

/-- The branches on `child.try_wait()`. -/
def onTryWait (g : ChildGuard κ σ) (result : Except IoError (Option σ)) :
    Option (ChildGuard κ σ × Move κ σ) :=
  match g.child, g.pc, result with
  | some child, .polling poller, .ok (some status) =>
      some ({ g with child := none, pc := .exited poller status }, .reaped child status)
  | some _, .polling .tryWait, .ok none => some (g.answer (.ok none) .idle, .stays)
  | some _, .polling .wait, .ok none => some (g.goto .waiting, .stays)
  | some _, .polling poller, .error source =>
      some (g.startCleanup (.observation source poller), .stays)
  | some child, .reaping none _ _, .ok (some status) =>
      some ({ g with child := none, pc := .fields }, .reaped child status)
  | some child, .reaping (some why) _ lastError, .ok (some status) =>
      some ({ g with child := none, pc := .reaped why status lastError }, .reaped child status)
  | some _, .reaping why killed lastError, .ok none =>
      some (g.goto (.overdue why killed lastError), .stays)
  | some _, .reaping why killed _, .error source =>
      some (g.goto (.overdue why killed (some source)), .stays)
  | _, _, _ => none

/-- The branches on `target.kill()`. -/
def onKill (g : ChildGuard κ σ) (result : Except IoError Unit) : Option (ChildGuard κ σ) :=
  match g.pc, result with
  | .killing why, .ok () => some (g.goto (.reaping why true none))
  | .killing why, .error source => some (g.goto (.reaping why false (some source)))
  | .rekilling why lastError, .ok () => some (g.goto (.reaping why true lastError))
  | .rekilling why _, .error source => some (g.goto (.reaping why false (some source)))
  | _, _ => none

/-- The two deadlines. A cleanup by `Drop` captures nothing before it hands over. -/
def onClock (g : ChildGuard κ σ) (due : Bool) : Option (ChildGuard κ σ) :=
  match g.pc with
  | .waiting => some (if due then g.startCleanup .timeout else g.startPoll .wait)
  | .overdue why killed lastError =>
      if due then
        match why with
        | none => some (g.goto .dropHanding)
        | some why => some (g.goto (.deferred why lastError))
      else if killed then some (g.goto (.reaping why killed lastError))
      else some (g.goto (.rekilling why lastError))
  | _ => none

/-- `capture_output` and `capture_diagnostics`, with what the caller makes of them. -/
def onCapture (g : ChildGuard κ σ) (stdout stderr : Except IoError (List UInt8)) :
    Option (ChildGuard κ σ) :=
  match g.pc with
  | .exited poller status =>
      let (out, err, captureError) := captureDiagnostics stdout stderr g.redactions false
      let output : ChildOutput σ := ⟨status, out, err⟩
      match captureError with
      | some source =>
          some (g.answer (.error (buildCompletedCaptureError output source g.redactions))
            poller.after)
      | none => some (g.answer (.ok (some output)) poller.after)
  | .reaped why status lastError =>
      let (out, err, captureError) := captureDiagnostics stdout stderr g.redactions true
      let output : ChildOutput σ := ⟨status, out, err⟩
      match why with
      | .terminate =>
          match lastError, captureError with
          | none, none => some (g.answer (.ok (some output)) why.after)
          | some source, secondary =>
              some (g.answer (.error (.io "terminate and reap" source secondary (some output)))
                why.after)
          | none, some source =>
              some (g.answer (.error (buildCompletedCaptureError output source g.redactions))
                why.after)
      | .timeout =>
          some (g.answer (.error (buildTimeoutError g.timeout output lastError captureError))
            why.after)
      | .observation source _ =>
          some (g.answer (.error (buildObservationError output source lastError captureError))
            why.after)
  | .deferred why lastError =>
      let (out, err, captureError) := captureDiagnostics stdout stderr g.redactions true
      some (g.goto (.handing why lastError out err captureError))
  | _ => none

/-- `self.child.take()` and `self.reaper.enqueue(child)`. -/
def onHandOver (g : ChildGuard κ σ) : Option (ChildGuard κ σ × Move κ σ) :=
  match g.pc, g.child with
  | .dropHanding, some child =>
      some ({ g with child := none, pc := .fields }, .enqueued child)
  | .dropHanding, none => some (g.goto .fields, .stays)
  | .handing why lastError stdout stderr captureError, some child =>
      let error := why.deferredError lastError stdout stderr captureError
      some ({ g with child := none }.answer (.error error) why.after, .enqueued child)
  | .handing why _ _ _ _, none =>
      some (g.answer (.error (missingChildError why.deferOperation)) why.after, .stays)
  | _, _ => none

/-- `Drop::drop`, which returns at once without a child. -/
def onDrop (g : ChildGuard κ σ) : Option (ChildGuard κ σ) :=
  match g.pc, g.child with
  | .dropping, some _ => some (g.goto (.killing none))
  | .dropping, none => some (g.goto .fields)
  | _, _ => none

/-- The fields are dropped after `Drop::drop`: a child left in the guard is dropped with
them. -/
def onDropFields (g : ChildGuard κ σ) : Option (ChildGuard κ σ × Move κ σ) :=
  match g.pc, g.child with
  | .fields, some child => some ({ g with child := none, pc := .gone }, .dropped child)
  | .fields, none => some (g.goto .gone, .stays)
  | _, _ => none

/-- One step of a guard, with what it does to the child. -/
def step (g : ChildGuard κ σ) : GuardEvent σ → Option (ChildGuard κ σ × Move κ σ)
  | .call call => (g.onCall call).map (·, .stays)
  | .tryWait result => g.onTryWait result
  | .kill result => (g.onKill result).map (·, .stays)
  | .clock due => (g.onClock due).map (·, .stays)
  | .capture stdout stderr => (g.onCapture stdout stderr).map (·, .stays)
  | .handOver => g.onHandOver
  | .drop => (g.onDrop).map (·, .stays)
  | .dropFields => g.onDropFields

/-! ## What a guard does with its child -/

/-- The cleanup and the polls of a guard run while it has its child; when its fields are
dropped it has none. -/
def Fits (g : ChildGuard κ σ) : Prop :=
  match g.pc with
  | .idle | .exited _ _ | .reaped _ _ _ | .dropping => True
  | .fields | .gone => g.child = none
  | _ => g.child ≠ none

/-- What a move says about the child before and after the step. -/
def Moved (g g' : ChildGuard κ σ) : Move κ σ → Prop
  | .stays => g'.child = g.child
  | .reaped child _ => g.child = some child ∧ g'.child = none
  | .enqueued child => g.child = some child ∧ g'.child = none
  | .dropped _ => False

variable {g g' : ChildGuard κ σ}

theorem fits_answer_poller (result : Except (ChildGuardError σ) (Option (ChildOutput σ)))
    (poller : Poller) : (g.answer result poller.after).Fits := by
  cases poller <;> trivial

theorem fits_answer_cleanup (result : Except (ChildGuardError σ) (Option (ChildOutput σ)))
    (why : Cleanup) : (g.answer result why.after).Fits := by
  cases why with
  | terminate | timeout => trivial
  | observation source poller => exact fits_answer_poller result poller

/-- A poll starts with the child where it was. -/
theorem startPoll_spec (poller : Poller) :
    (g.startPoll poller).Fits ∧ (g.startPoll poller).child = g.child := by
  unfold startPoll
  split
  · rename_i child hchild
    exact ⟨by simp [Fits, goto, hchild], rfl⟩
  · exact ⟨fits_answer_poller _ _, rfl⟩

/-- A cleanup starts with the child where it was. -/
theorem startCleanup_spec (why : Cleanup) :
    (g.startCleanup why).Fits ∧ (g.startCleanup why).child = g.child := by
  unfold startCleanup
  split
  · rename_i child hchild
    exact ⟨by simp [Fits, goto, hchild], rfl⟩
  · exact ⟨fits_answer_cleanup _ _, rfl⟩

/-- A call moves no child. -/
theorem onCall_spec {call : GuardCall} (h : g.onCall call = some g') :
    g'.Fits ∧ g'.child = g.child := by
  unfold onCall at h
  split at h
  · cases h
    exact startPoll_spec _
  · cases h
    exact startPoll_spec _
  · cases h
    exact startCleanup_spec _
  · cases h
    exact ⟨trivial, rfl⟩
  · cases h

/-- Only a status that was seen takes the child out of the guard. -/
theorem onTryWait_spec {result : Except IoError (Option σ)} {move : Move κ σ}
    (h : g.onTryWait result = some (g', move)) : g'.Fits ∧ Moved g g' move := by
  unfold onTryWait at h
  split at h
  · -- polls of `try_wait` and `wait`
    cases h
    exact ⟨trivial, by assumption, rfl⟩
  · cases h
    exact ⟨trivial, rfl⟩
  · cases h
    exact ⟨by simp [Fits, goto, *], rfl⟩
  · cases h
    exact startCleanup_spec _
  · -- polls of `bounded_cleanup`
    cases h
    exact ⟨rfl, by assumption, rfl⟩
  · cases h
    exact ⟨trivial, by assumption, rfl⟩
  · cases h
    exact ⟨by simp [Fits, goto, *], rfl⟩
  · cases h
    exact ⟨by simp [Fits, goto, *], rfl⟩
  · cases h

/-- Killing leaves the child with the guard: it still has to be waited for. -/
theorem onKill_spec {result : Except IoError Unit} (hfits : g.Fits)
    (h : g.onKill result = some g') : g'.Fits ∧ g'.child = g.child := by
  unfold onKill at h
  split at h
  all_goals
    first
    | cases h
      simp only [Fits, *] at hfits
      exact ⟨hfits, rfl⟩
    | cases h

/-- The clock decides how a wait goes on, not where the child is. -/
theorem onClock_spec {due : Bool} (hfits : g.Fits) (h : g.onClock due = some g') :
    g'.Fits ∧ g'.child = g.child := by
  unfold onClock at h
  -- the deadline of the call, or of the cleanup
  split at h
  · cases h
    split
    · exact startCleanup_spec _
    · exact startPoll_spec _
  · rename_i hpc
    simp only [Fits, hpc] at hfits
    split at h
    · split at h
      all_goals
        cases h
        exact ⟨hfits, rfl⟩
    · split at h
      all_goals
        cases h
        exact ⟨hfits, rfl⟩
  · cases h

/-- The captured output is put into the result; the child is not touched. -/
theorem onCapture_spec {stdout stderr : Except IoError (List UInt8)} (hfits : g.Fits)
    (h : g.onCapture stdout stderr = some g') : g'.Fits ∧ g'.child = g.child := by
  unfold onCapture at h
  split at h
  · -- after a normal exit
    dsimp only at h
    split at h
    all_goals
      cases h
      exact ⟨fits_answer_poller _ _, rfl⟩
  · -- after a cleanup that saw the status
    dsimp only at h
    split at h
    · split at h
      all_goals
        cases h
        exact ⟨trivial, rfl⟩
    · cases h
      exact ⟨trivial, rfl⟩
    · cases h
      exact ⟨fits_answer_poller _ _, rfl⟩
  · rename_i hpc
    simp only [Fits, hpc] at hfits
    cases h
    exact ⟨hfits, rfl⟩
  · cases h

/-- A child that is handed over is with the reaper. -/
theorem onHandOver_spec {move : Move κ σ} (hfits : g.Fits)
    (h : g.onHandOver = some (g', move)) : g'.Fits ∧ Moved g g' move := by
  unfold onHandOver at h
  split at h
  · cases h
    exact ⟨rfl, by assumption, rfl⟩
  · -- a guard that hands over has its child, so the `missing_child_error` is never made
    simp only [Fits, *] at hfits
    exact absurd rfl hfits
  · cases h
    exact ⟨fits_answer_cleanup _ _, by assumption, rfl⟩
  · simp only [Fits, *] at hfits
    exact absurd rfl hfits
  · cases h

/-- The drop of a guard begins with a cleanup, while the child is there. -/
theorem onDrop_spec (h : g.onDrop = some g') : g'.Fits ∧ g'.child = g.child := by
  unfold onDrop at h
  split at h
  · cases h
    exact ⟨by simp [Fits, goto, *], rfl⟩
  · cases h
    exact ⟨by assumption, rfl⟩
  · cases h

/-- The fields are dropped when the child is gone. -/
theorem onDropFields_spec {move : Move κ σ} (hfits : g.Fits)
    (h : g.onDropFields = some (g', move)) : g'.Fits ∧ Moved g g' move := by
  unfold onDropFields at h
  split at h
  · -- the one branch that would drop a child unreaped
    simp [Fits, *] at hfits
  · cases h
    exact ⟨by assumption, rfl⟩
  · cases h

/-- A step that only moves the program counter has the move `stays`. -/
theorem eq_stays_of_map {after : Option (ChildGuard κ σ)} {move : Move κ σ}
    (h : after.map (·, .stays) = some (g', move)) : after = some g' ∧ move = .stays := by
  rcases Option.map_eq_some_iff.mp h with ⟨t, ht, hpair⟩
  cases hpair
  exact ⟨ht, rfl⟩

/-- A step of a guard leaves the child in it, or takes it out because its status was returned
or because it goes to the reaper. No step drops a child that is in the guard. -/
theorem step_spec {event : GuardEvent σ} {move : Move κ σ} (hfits : g.Fits)
    (h : g.step event = some (g', move)) : g'.Fits ∧ Moved g g' move := by
  -- only a status and a handover move the child
  cases event with
  | call call =>
      obtain ⟨hafter, rfl⟩ := eq_stays_of_map h
      exact onCall_spec hafter
  | tryWait result => exact onTryWait_spec h
  | kill result =>
      obtain ⟨hafter, rfl⟩ := eq_stays_of_map h
      exact onKill_spec hfits hafter
  | clock due =>
      obtain ⟨hafter, rfl⟩ := eq_stays_of_map h
      exact onClock_spec hfits hafter
  | capture stdout stderr =>
      obtain ⟨hafter, rfl⟩ := eq_stays_of_map h
      exact onCapture_spec hfits hafter
  | handOver => exact onHandOver_spec hfits h
  | drop =>
      obtain ⟨hafter, rfl⟩ := eq_stays_of_map h
      exact onDrop_spec hafter
  | dropFields => exact onDropFields_spec hfits h

end ChildGuard

/-! ## Guards and the reaper -/

/-- `Vec::swap_remove`: the last element takes the place of the removed one. -/
def swapRemove (xs : List κ) (i : Nat) : List κ :=
  match xs.getLast? with
  | some last => (xs.set i last).dropLast
  | none => xs

/-- One pass of `deferred_reaper_loop`: its active list at the start, what each poll returned,
and its active list at the end. -/
structure ReaperPass (κ σ : Type) where
  start : List κ := []
  polled : List (κ × Option σ) := []
  finish : List κ := []

/-- The guards and the reaper. `index` is the index of a pass that is going on, `none` while
the reaper waits for its queue. The other fields are history: the children spawned, the
statuses `try_wait` has returned, the handles dropped, the children pushed to the queue, the
pass going on and the passes done. -/
structure Reaping (κ σ : Type) where
  guards : List (ChildGuard κ σ) := []
  pending : List κ := []
  active : List κ := []
  index : Option Nat := none
  spawned : List κ := []
  reaped : List (κ × σ) := []
  dropped : List κ := []
  enqueued : List κ := []
  pass : ReaperPass κ σ := {}
  passes : List (ReaperPass κ σ) := []

inductive ReapingLabel (κ σ : Type) where
  | spawn (child : κ) (timeout : Nat) (redactions : List (List UInt8))
  | guard (i : Nat) (event : GuardEvent σ)
  | takeBatch
  | poll (result : Except IoError (Option σ))

namespace Reaping

/-- The children that are in their guards. -/
def held (s : Reaping κ σ) : List κ := s.guards.filterMap ChildGuard.child

/-- The children of which some `try_wait` has returned the status. -/
def reapedChildren (s : Reaping κ σ) : List κ := s.reaped.map Prod.fst

/-- The effect of a guard's step outside the guard. -/
def apply (s : Reaping κ σ) : Move κ σ → Reaping κ σ
  | .stays => s
  | .reaped child status =>
      { s with reaped := s.reaped ++ [(child, status)], dropped := s.dropped ++ [child] }
  | .enqueued child =>
      { s with pending := s.pending ++ [child], enqueued := s.enqueued ++ [child] }
  | .dropped child => { s with dropped := s.dropped ++ [child] }

/-- The end of one turn of the polling loop. The pass is over at index 0. -/
def next (s : Reaping κ σ) (i : Nat) : Reaping κ σ :=
  match i with
  | 0 => { s with index := none, passes := s.passes ++ [{ s.pass with finish := s.active }] }
  | i + 1 => { s with index := some (i + 1) }

/-- One turn of the polling loop at index `i`, with the child there. An error of `try_wait`
counts as no status, and the result of the `kill` that follows is ignored. -/
def pollActive (s : Reaping κ σ) (i : Nat) (child : κ) (result : Except IoError (Option σ)) :
    Reaping κ σ :=
  match result with
  | .ok (some status) =>
      { s with
        active := swapRemove s.active i
        reaped := s.reaped ++ [(child, status)]
        dropped := s.dropped ++ [child]
        pass := { s.pass with polled := s.pass.polled ++ [(child, some status)] } }
  | _ => { s with pass := { s.pass with polled := s.pass.polled ++ [(child, none)] } }

variable [DecidableEq κ]

def step (s : Reaping κ σ) : ReapingLabel κ σ → Option (Reaping κ σ)
  | .spawn child timeout redactions =>
      -- the handle of a new process is not one of the handles there were
      if child ∈ s.spawned then none
      else some { s with
        guards := s.guards ++ [{ child := some child, timeout, redactions }]
        spawned := s.spawned ++ [child] }
  | .guard i event =>
      match s.guards[i]? with
      | some g =>
          match g.step event with
          | some (g', move) => some ({ s with guards := s.guards.set i g' }.apply move)
          | none => none
      | none => none
  | .takeBatch =>
      match s.index with
      | some _ => none
      | none =>
          -- with nothing active the worker sleeps until the queue has a child
          if s.active = [] ∧ s.pending = [] then none
          else
            let active := s.active ++ s.pending
            some { s with
              active, pending := [], index := some active.length, pass := { start := active } }
  | .poll result =>
      match s.index with
      | some (i + 1) =>
          match s.active[i]? with
          | some child => some ((s.pollActive i child result).next i)
          | none => none
      | _ => none

end Reaping

/-- Any number of guards and the background reaper. -/
def reaping (κ σ : Type) [DecidableEq κ] : Machine (Reaping κ σ) (ReapingLabel κ σ) where
  step := Reaping.step

/-! ## Custody of the children -/

/-- The last element takes the place of the one that is removed. -/
theorem swapRemove_concat (xs : List κ) (last : κ) {i : Nat} (hi : i ≤ xs.length) :
    swapRemove (xs ++ [last]) i = xs.set i last := by
  simp only [swapRemove, List.getLast?_append, List.getLast?_singleton, Option.some_or]
  rcases Nat.lt_or_eq_of_le hi with hlt | rfl
  · rw [List.set_append_left _ _ hlt, List.dropLast_concat]
  · rw [List.set_append_right _ _ (Nat.le_refl _), List.set_eq_of_length_le (Nat.le_refl _)]
    simp

/-- The elements below the removed one stay where they are. -/
theorem take_swapRemove {xs : List κ} {i : Nat} (hi : i < xs.length) :
    (swapRemove xs i).take i = xs.take i := by
  rcases List.eq_nil_or_concat xs with rfl | ⟨ys, last, rfl⟩
  · simp at hi
  · rw [List.concat_eq_append] at hi ⊢
    simp only [List.length_append, List.length_singleton] at hi
    rw [swapRemove_concat ys last (by omega), List.take_set_of_le (Nat.le_refl _),
      List.take_append_of_le_length (by omega)]

/-- From the index on, only the removed element goes. -/
theorem drop_swapRemove {xs : List κ} {i : Nat} {child : κ} (hget : xs[i]? = some child) :
    (child :: (swapRemove xs i).drop i).Perm (xs.drop i) := by
  rcases List.eq_nil_or_concat xs with rfl | ⟨ys, last, rfl⟩
  · simp at hget
  · rw [List.concat_eq_append] at hget ⊢
    have hi : i < (ys ++ [last]).length := (List.getElem?_eq_some_iff.mp hget).1
    simp only [List.length_append, List.length_singleton] at hi
    rw [swapRemove_concat ys last (by omega)]
    rcases Nat.lt_or_eq_of_le (Nat.le_of_lt_succ hi) with hlt | rfl
    · -- the last element moves to the index
      rw [List.getElem?_append_left hlt] at hget
      obtain ⟨-, rfl⟩ := List.getElem?_eq_some_iff.mp hget
      rw [List.drop_append_of_le_length (Nat.le_of_lt hlt), List.drop_eq_getElem_cons hlt,
        List.drop_eq_getElem_cons (by simpa using hlt), List.getElem_set_self,
        List.drop_set_of_lt (Nat.lt_succ_self i)]
      exact .cons _ (List.perm_append_singleton _ _).symm
    · -- the removed element is the last one
      rw [List.getElem?_append_right (Nat.le_refl _)] at hget
      simp only [Nat.sub_self, List.getElem?_cons_zero, Option.some.injEq] at hget
      simp [hget]

namespace ReaperPass

/-- A pass polled every child of its active list once, from the end, and kept exactly those
whose poll returned no status. -/
structure Fair (pass : ReaperPass κ σ) : Prop where
  distinct : pass.start.Nodup
  polledOnce : pass.polled.map Prod.fst = pass.start.reverse
  left : ∀ child result, (child, result) ∈ pass.polled → (child ∈ pass.finish ↔ result = none)
  kept : ∀ child ∈ pass.finish, child ∈ pass.start

/-- The children whose poll returned no status. -/
def unreaped (pass : ReaperPass κ σ) : List κ :=
  (pass.polled.filter fun entry => entry.2.isNone).map Prod.fst

theorem mem_unreaped {pass : ReaperPass κ σ} {child : κ} :
    child ∈ pass.unreaped ↔ (child, none) ∈ pass.polled := by
  simp [unreaped]

/-- A pass that goes through the children from behind, and leaves those without a status, is fair.
-/
theorem fair_of_perm {pass : ReaperPass κ σ} (hdistinct : pass.start.Nodup)
    (hpolled : pass.polled.map Prod.fst = pass.start.reverse)
    (hfinish : pass.finish.Perm pass.unreaped) : pass.Fair := by
  -- no child is polled twice
  have hnodup : (pass.polled.map Prod.fst).Nodup := by
    rw [hpolled]
    exact List.nodup_reverse.mpr hdistinct
  refine ⟨hdistinct, hpolled, ?_, ?_⟩
  · intro child result hmem
    rw [hfinish.mem_iff, mem_unreaped]
    constructor
    · intro hnone
      exact congrArg Prod.snd (List.inj_on_of_nodup_map hnodup hmem hnone rfl)
    · rintro rfl
      exact hmem
  · intro child hchild
    rw [hfinish.mem_iff, mem_unreaped] at hchild
    have hmem : child ∈ pass.polled.map Prod.fst := List.mem_map_of_mem hchild
    rw [hpolled] at hmem
    exact List.mem_reverse.mp hmem

end ReaperPass

/-- Replacing one guard changes the children held by at most that guard's child. -/
theorem count_held_set [DecidableEq κ] {guards : List (ChildGuard κ σ)} {i : Nat}
    {g : ChildGuard κ σ} (hget : guards[i]? = some g) (g' : ChildGuard κ σ) (child : κ) :
    ((guards.set i g').filterMap ChildGuard.child).count child +
        g.child.toList.count child =
      (guards.filterMap ChildGuard.child).count child + g'.child.toList.count child := by
  -- one guard counts for at most one child
  have hcons (g : ChildGuard κ σ) (gs : List (ChildGuard κ σ)) :
      ((g :: gs).filterMap ChildGuard.child).count child =
        g.child.toList.count child + (gs.filterMap ChildGuard.child).count child := by
    rw [List.filterMap_cons]
    cases g.child with
    | none => simp
    | some c => simp [List.count_cons, Nat.add_comm]
  induction guards generalizing i with
  | nil => simp at hget
  | cons first rest ih =>
      cases i with
      | zero =>
          obtain rfl : first = g := by simpa using hget
          rw [List.set_cons_zero, hcons, hcons]
          omega
      | succ i =>
          have hrest := ih (by simpa using hget)
          rw [List.set_cons_succ, hcons, hcons]
          omega

namespace ReaperPass

/-- A pass at index `k` over the active list: below the index the list is as the pass found it,
from the index on every child was polled, and those without a status are still there. -/
structure Going (pass : ReaperPass κ σ) (active : List κ) (k : Nat) : Prop where
  distinct : pass.start.Nodup
  below : active.take k = pass.start.take k
  bound : k ≤ active.length
  polled : pass.polled.map Prod.fst = (pass.start.drop k).reverse
  above : (active.drop k).Perm pass.unreaped

/-- The pass after one more poll. -/
def poll (pass : ReaperPass κ σ) (child : κ) (status : Option σ) : ReaperPass κ σ :=
  { pass with polled := pass.polled ++ [(child, status)] }

variable {pass : ReaperPass κ σ} {active : List κ} {k : Nat} {child : κ}

theorem unreaped_poll_none : (pass.poll child none).unreaped = pass.unreaped ++ [child] := by
  simp [unreaped, poll]

theorem unreaped_poll_some (status : σ) :
    (pass.poll child (some status)).unreaped = pass.unreaped := by
  simp [unreaped, poll]

/-- The child at the index is the one the pass found there. -/
theorem Going.polled_poll (h : pass.Going active (k + 1)) (hget : active[k]? = some child)
    (status : Option σ) :
    (pass.poll child status).polled.map Prod.fst = (pass.start.drop k).reverse := by
  have hstart : pass.start[k]? = some child := by
    have htake := congrArg (fun xs => xs[k]?) h.below
    simpa [List.getElem?_take, hget] using htake.symm
  obtain ⟨hlt, hchild⟩ := List.getElem?_eq_some_iff.mp hstart
  rw [List.drop_eq_getElem_cons hlt, hchild, List.reverse_cons, ← h.polled]
  simp [poll]

theorem Going.below_pred (h : pass.Going active (k + 1)) :
    active.take k = pass.start.take k := by
  have htake := congrArg (List.take k) h.below
  simpa [List.take_take] using htake

theorem drop_eq_cons_of_getElem? (hget : active[k]? = some child) :
    active.drop k = child :: active.drop (k + 1) := by
  obtain ⟨hlt, hchild⟩ := List.getElem?_eq_some_iff.mp hget
  rw [List.drop_eq_getElem_cons hlt, hchild]

/-- A poll without a status leaves the child in the list. -/
theorem Going.keep (h : pass.Going active (k + 1)) (hget : active[k]? = some child) :
    (pass.poll child none).Going active k where
  distinct := h.distinct
  below := h.below_pred
  bound := Nat.le_of_lt h.bound
  polled := h.polled_poll hget none
  above := by
    rw [drop_eq_cons_of_getElem? hget, unreaped_poll_none]
    exact (h.above.cons child).trans (List.perm_append_singleton _ _).symm

/-- A poll with a status removes it. The element that `swap_remove` moves to the index comes
from above it, so it was polled before. -/
theorem Going.remove (h : pass.Going active (k + 1)) (hget : active[k]? = some child)
    (status : σ) : (pass.poll child (some status)).Going (swapRemove active k) k where
  distinct := h.distinct
  below := (take_swapRemove h.bound).trans h.below_pred
  bound := by
    have hk : k < active.length := h.bound
    have htake := congrArg List.length (take_swapRemove hk)
    simp only [List.length_take] at htake
    omega
  polled := h.polled_poll hget (some status)
  above := by
    have hdrop := drop_swapRemove hget
    rw [drop_eq_cons_of_getElem? hget] at hdrop
    rw [unreaped_poll_some]
    exact hdrop.cons_inv.trans h.above

/-- At index 0 the pass is over. -/
theorem Going.fair (h : pass.Going active 0) :
    ({ pass with finish := active } : ReaperPass κ σ).Fair :=
  fair_of_perm h.distinct h.polled h.above

end ReaperPass

namespace Reaping

variable [DecidableEq κ]

/-- Every spawned child is in exactly one place, and only reaped children are dropped. A child
that was enqueued has left its guard. -/
structure Placed (s : Reaping κ σ) : Prop where
  once : ∀ child, s.held.count child + s.pending.count child + s.active.count child +
    s.reapedChildren.count child = s.spawned.count child
  fresh : s.spawned.Nodup
  fits : ∀ g ∈ s.guards, g.Fits
  dropped : ∀ child ∈ s.dropped, child ∈ s.reapedChildren
  enqueued : ∀ child, s.enqueued.count child ≤
    s.pending.count child + s.active.count child + s.reapedChildren.count child

namespace Placed

variable {s s' : Reaping κ σ}

/-- A new child is with its new guard. -/
theorem spawn (h : s.Placed) {child : κ} (timeout : Nat) (redactions : List (List UInt8))
    (hnew : child ∉ s.spawned) :
    Placed { s with
      guards := s.guards ++ [{ child := some child, timeout, redactions }]
      spawned := s.spawned ++ [child] } where
  once c := by
    have := h.once c
    simp only [held, reapedChildren, List.filterMap_append, List.filterMap_cons,
      List.filterMap_nil, List.count_append] at this ⊢
    omega
  fresh := by
    rw [List.nodup_append]
    refine ⟨h.fresh, List.nodup_singleton _, ?_⟩
    rintro a ha b hb rfl
    exact hnew (List.mem_singleton.mp hb ▸ ha)
  fits g hg := by
    rcases List.mem_append.mp hg with hold | hnewGuard
    · exact h.fits g hold
    · rw [List.mem_singleton.mp hnewGuard]
      trivial
  dropped := h.dropped
  enqueued := h.enqueued

theorem fits_set (h : s.Placed) {i : Nat} {g' : ChildGuard κ σ} (hfits : g'.Fits) :
    ∀ g ∈ s.guards.set i g', g.Fits := by
  intro g hg
  rcases List.mem_or_eq_of_mem_set hg with hold | rfl
  · exact h.fits g hold
  · exact hfits

/-- A step of one guard. -/
theorem guard (h : s.Placed) {i : Nat} {g g' : ChildGuard κ σ} {move : Move κ σ}
    (hget : s.guards[i]? = some g) (hfits : g'.Fits) (hmoved : ChildGuard.Moved g g' move) :
    Placed ({ s with guards := s.guards.set i g' }.apply move) := by
  cases move with
  | stays =>
      -- the child of the guard stays
      refine ⟨?_, h.fresh, h.fits_set hfits, h.dropped, h.enqueued⟩
      intro c
      have hone := h.once c
      have hheld := count_held_set hget g' c
      rw [show g'.child = g.child from hmoved] at hheld
      simp only [apply, held, reapedChildren] at hone hheld ⊢
      omega
  | reaped child status =>
      -- the child is reaped, and the guard has it no more
      refine ⟨?_, h.fresh, h.fits_set hfits, ?_, ?_⟩
      · intro c
        have hone := h.once c
        have hheld := count_held_set hget g' c
        rw [hmoved.1, hmoved.2] at hheld
        simp only [apply, held, reapedChildren, List.map_append, List.map_cons, List.map_nil,
          List.count_append, Option.toList_some, Option.toList_none, List.count_nil]
          at hone hheld ⊢
        omega
      · intro c hc
        simp only [apply, reapedChildren, List.map_append, List.mem_append] at hc ⊢
        exact hc.imp (h.dropped c) (by simp)
      · intro c
        have := h.enqueued c
        simp only [apply, reapedChildren, List.map_append, List.count_append] at this ⊢
        omega
  | enqueued child =>
      -- the child is pending, and the guard has it no more
      refine ⟨?_, h.fresh, h.fits_set hfits, h.dropped, ?_⟩
      · intro c
        have hone := h.once c
        have hheld := count_held_set hget g' c
        rw [hmoved.1, hmoved.2] at hheld
        simp only [apply, held, reapedChildren, List.count_append, Option.toList_some,
          Option.toList_none, List.count_nil] at hone hheld ⊢
        omega
      · intro c
        have := h.enqueued c
        simp only [apply, reapedChildren, List.count_append] at this ⊢
        omega
  | dropped child => exact hmoved.elim

/-- The pending children become active ones. -/
theorem takeBatch (h : s.Placed) (index : Option Nat) (pass : ReaperPass κ σ) :
    Placed { s with active := s.active ++ s.pending, pending := [], index, pass } where
  once child := by
    have := h.once child
    simp only [held, reapedChildren, List.count_append, List.count_nil] at this ⊢
    omega
  fresh := h.fresh
  fits := h.fits
  dropped := h.dropped
  enqueued child := by
    have := h.enqueued child
    simp only [reapedChildren, List.count_append, List.count_nil] at this ⊢
    omega

/-- A removed child is the only one that is missing. -/
theorem count_swapRemove {active : List κ} {i : Nat} {child : κ}
    (hget : active[i]? = some child) (c : κ) :
    (swapRemove active i).count c + [child].count c = active.count c := by
  have hi : i < active.length := (List.getElem?_eq_some_iff.mp hget).1
  have hdrop := (drop_swapRemove hget).count_eq c
  have htake := congrArg (List.count c) (take_swapRemove hi)
  have hall := congrArg (List.count c) (List.take_append_drop i active)
  have hleft := congrArg (List.count c) (List.take_append_drop i (swapRemove active i))
  simp only [List.count_cons, List.count_append, List.count_nil] at *
  omega

/-- A poll that returned a status. -/
theorem remove (h : s.Placed) {i : Nat} {child : κ} (hget : s.active[i]? = some child)
    (status : σ) (pass : ReaperPass κ σ) :
    Placed { s with
      active := swapRemove s.active i
      reaped := s.reaped ++ [(child, status)]
      dropped := s.dropped ++ [child]
      pass } where
  -- the child goes from the active ones to the reaped
  once c := by
    have hone := h.once c
    have hactive := count_swapRemove hget c
    simp only [held, reapedChildren, List.map_append, List.map_cons, List.map_nil,
      List.count_append] at hone ⊢
    omega
  fresh := h.fresh
  fits := h.fits
  dropped c hc := by
    simp only [reapedChildren, List.map_append, List.mem_append] at hc ⊢
    exact hc.imp (h.dropped c) (by simp)
  enqueued c := by
    have hone := h.enqueued c
    have hactive := count_swapRemove hget c
    simp only [reapedChildren, List.map_append, List.map_cons, List.map_nil,
      List.count_append] at hone ⊢
    omega

/-- The reaper's index and its passes say nothing about where the children are. -/
theorem of_pass (h : s.Placed) (index : Option Nat) (pass : ReaperPass κ σ)
    (passes : List (ReaperPass κ σ)) : Placed { s with index, pass, passes } :=
  ⟨h.once, h.fresh, h.fits, h.dropped, h.enqueued⟩

/-- A poll removes its child or leaves it active. -/
theorem pollActive (h : s.Placed) {i : Nat} {child : κ} (hget : s.active[i]? = some child)
    (result : Except IoError (Option σ)) : (s.pollActive i child result).Placed := by
  match result with
  | .ok (some status) => exact h.remove hget status _
  | .ok none => exact h.of_pass _ _ _
  | .error _ => exact h.of_pass _ _ _

/-- No child is twice in the active list that a pass starts with. -/
theorem nodup_active (h : s.Placed) : (s.active ++ s.pending).Nodup := by
  rw [List.nodup_iff_count_le_one]
  intro child
  have hone := h.once child
  have hspawned := List.nodup_iff_count_le_one.mp h.fresh child
  rw [List.count_append]
  omega

end Placed

/-- The invariant: the places of the children, and the passes of the reaper. -/
structure Custody (s : Reaping κ σ) : Prop where
  placed : s.Placed
  passing : ∀ k, s.index = some k → s.pass.Going s.active k
  passes : ∀ pass ∈ s.passes, pass.Fair

namespace Custody

variable {s s' : Reaping κ σ}

theorem initial : Custody ({} : Reaping κ σ) where
  placed := ⟨fun _ => rfl, List.nodup_nil, nofun, nofun, fun _ => Nat.le_refl _⟩
  passing := nofun
  passes := nofun

/-- A pass starts with all children that are there. -/
theorem takeBatch (h : s.Custody) :
    Custody { s with
      active := s.active ++ s.pending
      pending := []
      index := some (s.active ++ s.pending).length
      pass := { start := s.active ++ s.pending } } where
  placed := h.placed.takeBatch _ _
  passing k hk := by
    obtain rfl : (s.active ++ s.pending).length = k := Option.some.inj hk
    refine ⟨h.placed.nodup_active, rfl, Nat.le_refl _, ?_, ?_⟩
    · simp only [List.drop_length, List.map_nil, List.reverse_nil]
    · simp only [List.drop_length]
      exact .nil
  passes := h.passes

/-- A poll of a pass goes on with the next index. -/
theorem going_pollActive (h : s.Custody) {i : Nat} {child : κ}
    (hindex : s.index = some (i + 1)) (hget : s.active[i]? = some child)
    (result : Except IoError (Option σ)) :
    (s.pollActive i child result).pass.Going (s.pollActive i child result).active i := by
  match result with
  | .ok (some status) => exact (h.passing _ hindex).remove hget status
  | .ok none => exact (h.passing _ hindex).keep hget
  | .error _ => exact (h.passing _ hindex).keep hget

/-- One turn of the polling loop. -/
theorem poll (h : s.Custody) {i : Nat} {child : κ} (hindex : s.index = some (i + 1))
    (hget : s.active[i]? = some child) (result : Except IoError (Option σ)) :
    Custody ((s.pollActive i child result).next i) := by
  have hplaced := h.placed.pollActive hget result
  have hgoing := h.going_pollActive hindex hget result
  have hpasses : (s.pollActive i child result).passes = s.passes := by
    unfold pollActive
    split <;> rfl
  cases i with
  | zero =>
      -- the pass is over, and it joins the passes done
      refine ⟨hplaced.of_pass _ _ _, nofun, ?_⟩
      intro pass hpass
      rcases List.mem_append.mp hpass with hold | hnew
      · exact h.passes pass (hpasses ▸ hold)
      · rw [List.mem_singleton.mp hnew]
        exact hgoing.fair
  | succ i =>
      refine ⟨hplaced.of_pass _ _ _, ?_, ?_⟩
      · intro k hk
        obtain rfl : i + 1 = k := Option.some.inj hk
        exact hgoing
      · intro pass hpass
        exact h.passes pass (hpasses ▸ hpass)

/-- Every step keeps the invariant. -/
theorem step {label : ReapingLabel κ σ} (hstep : s.step label = some s') (h : s.Custody) :
    s'.Custody := by
  cases label with
  | spawn child timeout redactions =>
      -- the child is new
      simp only [Reaping.step] at hstep
      split at hstep
      · cases hstep
      · rename_i hnew
        cases hstep
        exact ⟨h.placed.spawn timeout redactions hnew, h.passing, h.passes⟩
  | guard i event =>
      -- a guard moves its child as `Moved` says
      simp only [Reaping.step] at hstep
      split at hstep
      · rename_i g hget
        split at hstep
        · rename_i g' move hguard
          cases hstep
          have hfits := h.placed.fits g (List.mem_of_getElem? hget)
          obtain ⟨hfits', hmoved⟩ := ChildGuard.step_spec hfits hguard
          refine ⟨h.placed.guard hget hfits' hmoved, ?_, ?_⟩
          · cases move <;> exact h.passing
          · cases move <;> exact h.passes
        · cases hstep
      · cases hstep
  | takeBatch =>
      simp only [Reaping.step] at hstep
      split at hstep
      · cases hstep
      · split at hstep
        · cases hstep
        · cases hstep
          exact h.takeBatch
  | poll result =>
      simp only [Reaping.step] at hstep
      split at hstep
      · rename_i i hindex
        split at hstep
        · rename_i child hget
          cases hstep
          exact h.poll hindex hget result
        · cases hstep
      · cases hstep

/-- The polling loop never indexes past the end of its list. -/
theorem poll_defined (h : s.Custody) {i : Nat} (hindex : s.index = some (i + 1))
    (result : Except IoError (Option σ)) : ∃ s', s.step (.poll result) = some s' := by
  have hlt : i < s.active.length := (h.passing _ hindex).bound
  simp [Reaping.step, hindex, List.getElem?_eq_getElem hlt]

end Custody

end Reaping

/-- In every run each spawned child is in exactly one place: its guard, the pending queue, the
active list of the reaper, or among the children whose status a `try_wait` has returned. Only
the latter are ever dropped, no child is enqueued twice, and every pass of the reaper is
fair. -/
theorem reaping_custody [DecidableEq κ] {trace : List (ReapingLabel κ σ)} {s : Reaping κ σ}
    (hrun : (reaping κ σ).run {} trace = some s) :
    (∀ child ∈ s.spawned, s.held.count child + s.pending.count child + s.active.count child +
      s.reapedChildren.count child = 1) ∧
    (∀ child ∈ s.dropped, child ∈ s.reapedChildren) ∧
    s.enqueued.Nodup ∧
    (∀ pass ∈ s.passes, pass.Fair) := by
  have hinv : s.Custody := Machine.run_invariant
    (fun _ _ _ hstep hinv => hinv.step hstep) hrun Reaping.Custody.initial
  have hone (child : κ) : s.spawned.count child ≤ 1 :=
    List.nodup_iff_count_le_one.mp hinv.placed.fresh child
  refine ⟨?_, hinv.placed.dropped, ?_, hinv.passes⟩
  · intro child hchild
    rw [hinv.placed.once child]
    exact Nat.le_antisymm (hone child) (List.count_pos_iff.mpr hchild)
  · rw [List.nodup_iff_count_le_one]
    intro child
    have henqueued := hinv.placed.enqueued child
    have honce := hinv.placed.once child
    have := hone child
    omega

/-- Two children that their guards hand to the reaper: the first pass reaps one of them, the
second pass the other. -/
def twoDeferred : List (ReapingLabel Nat Nat) :=
  [.spawn 7 1 [], .spawn 8 1 [],
    .guard 0 (.call .terminate), .guard 0 (.kill (.error ⟨"denied"⟩)),
    .guard 0 (.tryWait (.ok none)), .guard 0 (.clock true),
    .guard 0 (.capture (.ok []) (.ok [])), .guard 0 .handOver, .guard 0 .drop,
    .guard 0 .dropFields,
    .guard 1 (.call .drop), .guard 1 .drop, .guard 1 (.kill (.ok ())),
    .guard 1 (.tryWait (.ok none)), .guard 1 (.clock true), .guard 1 .handOver,
    .takeBatch, .poll (.error ⟨"interrupted"⟩), .poll (.ok (some 0)),
    .takeBatch, .poll (.ok (some 9))]

theorem reaping_custody_two_deferred :
    ∃ s, (reaping Nat Nat).run {} twoDeferred = some s ∧
      s.spawned = [7, 8] ∧ s.reaped = [(7, 0), (8, 9)] ∧ s.passes.length = 2 ∧
      (∀ child ∈ s.spawned, s.held.count child + s.pending.count child +
        s.active.count child + s.reapedChildren.count child = 1) ∧
      (∀ pass ∈ s.passes, pass.Fair) := by
  have hrun : ∃ s, (reaping Nat Nat).run {} twoDeferred = some s ∧
      s.spawned = [7, 8] ∧ s.reaped = [(7, 0), (8, 9)] ∧ s.passes.length = 2 :=
    ⟨_, rfl, rfl, rfl, rfl⟩
  rcases hrun with ⟨s, hrun, hspawned, hreaped, hpasses⟩
  obtain ⟨honce, -, -, hfair⟩ := reaping_custody hrun
  exact ⟨s, hrun, hspawned, hreaped, hpasses, honce, hfair⟩

end Rssh
