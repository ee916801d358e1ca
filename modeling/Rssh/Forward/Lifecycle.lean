import Mathlib.Data.List.Chain
import Rssh.Lib.Machine
import Rssh.Types

/-!
# The life of a remote forward

`RusshRemoteTcpIpForward` is driven by `wait`, `shutdown` and `wait_until_cancelled`, one
call at a time. The three share the session handle, the cancellation flag and the count of
child tasks; each step of a session can fail, and a timeout can strike at any await.

The machine `remoteForward` takes one label per await that ends and per event outside the
calls: children register and finish, the session future completes, another clone of the
cancellation is raised. Every return is logged with what the forward looks like then.

* `ForwardInv` says what is known at each await.
* `forward_returns_sound` is the result about all sequences of calls.
-/

namespace Rssh

/-! ## The forward -/

/-- The result of the session future. -/
inductive SessionEnd where
  | finished
  | disconnected (message : String)
  | failed (message : String)
deriving DecidableEq, Repr

def SessionEnd.wait : SessionEnd → Except SshSessionError Unit
  | .finished => .ok ()
  | .disconnected message => .error ⟨"SSH forwarding session failed: " ++ message⟩
  | .failed message => .error ⟨"SSH forwarding session failed: " ++ message⟩

/-- After a disconnect of our own its error is the expected end. -/
def SessionEnd.waitAfterDisconnect : SessionEnd → Except SshSessionError Unit
  | .finished => .ok ()
  | .disconnected _ => .ok ()
  | .failed message => .error ⟨"SSH forwarding session failed: " ++ message⟩

/-- `Result::and`. -/
def resultAnd : Except SshSessionError Unit → Except SshSessionError Unit →
    Except SshSessionError Unit
  | .ok (), next => next
  | .error error, _ => .error error

inductive ForwardCall where
  | wait
  | shutdown
  | waitUntilCancelled
deriving DecidableEq, Repr

inductive SessionStep where
  | cancelTcpipForward
  | disconnect
  | wait
deriving DecidableEq, Repr

/-- The await a call is blocked on. `returning` has the value of the call, and whether the
timeout decided it. -/
inductive ForwardPc where
  | idle
  | waiting
  | selecting
  | cancelling
  | disconnecting (cancel : Except SshSessionError Unit)
  | joining (cancel disconnect : Except SshSessionError Unit)
  | draining (cancel disconnect wait : Except SshSessionError Unit)
  | completing (session : Except SshSessionError Unit)
  | returning (result : Except SshSessionError Unit) (timedOut : Bool)

/-- What a call has done so far: whether the handle was there when it began, whether it
went through `shutdown` and with a handle, and the session steps it has run. -/
structure CallRecord where
  call : ForwardCall := .wait
  hadHandle : Bool := true
  shutdown : Option Bool := none
  steps : List (SessionStep × Except SshSessionError Unit) := []

/-- A return, with the state of the forward at that moment. -/
structure ForwardReturn extends CallRecord where
  timedOut : Bool
  result : Except SshSessionError Unit
  handle : Bool
  ended : Bool
  cancelled : Bool
  active : Nat

/-- `RusshRemoteTcpIpForward`: whether it has its handle, how its session future has ended,
its cancellation flag and its count of children. -/
structure RemoteForward where
  handle : Bool := true
  session : Option SessionEnd := none
  cancelled : Bool := false
  active : Nat := 0
  pc : ForwardPc := .idle
  current : CallRecord := {}
  returns : List ForwardReturn := []

inductive ForwardLabel where
  | call (call : ForwardCall)
  | register
  | finish
  | sessionEnds (ending : SessionEnd)
  /-- Another clone of the forward's cancellation is raised. -/
  | raise
  | cancelDone (result : Except String Unit)
  | disconnectDone (result : Except String Unit)
  | joined
  /-- The cancellation given to `wait_until_cancelled` is seen. -/
  | observed
  | drained
  | elapsed
  | return_

def shutdownTimedOut : Except SshSessionError Unit :=
  .error ⟨"SSH remote forwarding shutdown timed out"⟩

namespace RemoteForward

/-- `complete_remote_forward_session`, up to its wait for the children. -/
def complete (s : RemoteForward) (session : Except SshSessionError Unit) : RemoteForward :=
  { s with cancelled := true, pc := .completing session }

/-- `shutdown`, up to its first await. -/
def beginShutdown (s : RemoteForward) : RemoteForward :=
  let s := { s with cancelled := true, current := { s.current with shutdown := some s.handle } }
  if s.handle then { s with pc := .cancelling } else s.complete (.ok ())

/-- A call, up to its first await. -/
def beginCall (s : RemoteForward) (call : ForwardCall) : RemoteForward :=
  let s := { s with current := { call, hadHandle := s.handle } }
  match call with
  | .shutdown => s.beginShutdown
  | .wait => if s.handle then { s with pc := .waiting } else s.complete (.ok ())
  | .waitUntilCancelled => if s.handle then { s with pc := .selecting } else s.complete (.ok ())

/-- A session step is over. -/
def ran (s : RemoteForward) (step : SessionStep) (result : Except SshSessionError Unit) :
    RemoteForward :=
  { s with current := { s.current with steps := s.current.steps ++ [(step, result)] } }

/-- The entry for a return in this state. -/
def entry (s : RemoteForward) (result : Except SshSessionError Unit) (timedOut : Bool) :
    ForwardReturn :=
  { s.current with
    timedOut, result, handle := s.handle, ended := s.session.isSome, cancelled := s.cancelled
    active := s.active }

def cancelError (message : String) : SshSessionError :=
  ⟨"SSH remote forwarding cancellation failed: " ++ message⟩

def disconnectError (message : String) : SshSessionError :=
  ⟨"SSH disconnect failed: " ++ message⟩

/-- The next state, if the label is enabled. -/
def step (s : RemoteForward) : ForwardLabel → Option RemoteForward
  | .call call =>
      match s.pc with
      | .idle => some (s.beginCall call)
      | _ => none
  | .register =>
      -- no forwarded channel is opened once the session is over
      if s.session.isSome then none else some { s with active := s.active + 1 }
  | .finish => if s.active = 0 then none else some { s with active := s.active - 1 }
  | .sessionEnds ending =>
      if s.session.isSome then none else some { s with session := some ending }
  | .raise => some { s with cancelled := true }
  | .cancelDone result =>
      match s.pc with
      | .cancelling =>
          let result := result.mapError cancelError
          some { s.ran .cancelTcpipForward result with pc := .disconnecting result }
      | _ => none
  | .disconnectDone result =>
      match s.pc with
      | .disconnecting cancel =>
          let result := result.mapError disconnectError
          some { s.ran .disconnect result with pc := .joining cancel result }
      | _ => none
  | .joined =>
      match s.session with
      | none => none
      | some ending =>
          match s.pc with
          | .waiting => some ({ s with handle := false }.complete ending.wait)
          | .selecting => some ({ s with handle := false }.complete ending.wait)
          | .joining cancel disconnect =>
              let wait := ending.waitAfterDisconnect
              some { s.ran .wait wait with pc := .draining cancel disconnect wait }
          | _ => none
  | .observed =>
      match s.pc with
      | .selecting => some s.beginShutdown
      | _ => none
  | .drained =>
      if s.active = 0 then
        match s.pc with
        | .draining cancel disconnect wait =>
            some { s with
              handle := false
              pc := .returning (resultAnd (resultAnd cancel disconnect) wait) false }
        | .completing session => some { s with pc := .returning session false }
        | _ => none
      else none
  | .elapsed =>
      match s.pc with
      | .cancelling => some { s with pc := .returning shutdownTimedOut true }
      | .disconnecting _ => some { s with pc := .returning shutdownTimedOut true }
      | .joining _ _ => some { s with pc := .returning shutdownTimedOut true }
      -- `session_terminal` was stored before the wait for the children
      | .draining _ _ _ =>
          some { s with handle := false, pc := .returning shutdownTimedOut true }
      | .completing session =>
          some { s with pc := .returning (resultAnd session shutdownTimedOut) true }
      | _ => none
  | .return_ =>
      match s.pc with
      | .returning result timedOut =>
          some { s with pc := .idle, returns := s.returns ++ [s.entry result timedOut] }
      | _ => none

end RemoteForward

def remoteForward : Machine RemoteForward ForwardLabel where
  step s l := s.step l

/-- Everything a step can do. -/
inductive RemoteForward.Step (s : RemoteForward) : ForwardLabel → RemoteForward → Prop
  | call {call : ForwardCall} (hpc : s.pc = .idle) : Step s (.call call) (s.beginCall call)
  | register (hopen : s.session = none) : Step s .register { s with active := s.active + 1 }
  | finish (hactive : s.active ≠ 0) : Step s .finish { s with active := s.active - 1 }
  | sessionEnds {ending : SessionEnd} (hopen : s.session = none) :
      Step s (.sessionEnds ending) { s with session := some ending }
  | raise : Step s .raise { s with cancelled := true }
  | cancelDone {result : Except String Unit} (hpc : s.pc = .cancelling) :
      Step s (.cancelDone result)
        { s.ran .cancelTcpipForward (result.mapError cancelError) with
          pc := .disconnecting (result.mapError cancelError) }
  | disconnectDone {result : Except String Unit} {cancel : Except SshSessionError Unit}
      (hpc : s.pc = .disconnecting cancel) :
      Step s (.disconnectDone result)
        { s.ran .disconnect (result.mapError disconnectError) with
          pc := .joining cancel (result.mapError disconnectError) }
  | joinedWait {ending : SessionEnd} (hended : s.session = some ending)
      (hpc : s.pc = .waiting ∨ s.pc = .selecting) :
      Step s .joined ({ s with handle := false }.complete ending.wait)
  | joinedShutdown {ending : SessionEnd} {cancel disconnect : Except SshSessionError Unit}
      (hended : s.session = some ending) (hpc : s.pc = .joining cancel disconnect) :
      Step s .joined
        { s.ran .wait ending.waitAfterDisconnect with
          pc := .draining cancel disconnect ending.waitAfterDisconnect }
  | observed (hpc : s.pc = .selecting) : Step s .observed s.beginShutdown
  | drainedShutdown {cancel disconnect wait : Except SshSessionError Unit}
      (hactive : s.active = 0) (hpc : s.pc = .draining cancel disconnect wait) :
      Step s .drained
        { s with
          handle := false
          pc := .returning (resultAnd (resultAnd cancel disconnect) wait) false }
  | drainedComplete {session : Except SshSessionError Unit} (hactive : s.active = 0)
      (hpc : s.pc = .completing session) :
      Step s .drained { s with pc := .returning session false }
  | elapsedSession (hpc : s.pc = .cancelling ∨ (∃ cancel, s.pc = .disconnecting cancel) ∨
      ∃ cancel disconnect, s.pc = .joining cancel disconnect) :
      Step s .elapsed { s with pc := .returning shutdownTimedOut true }
  | elapsedDraining {cancel disconnect wait : Except SshSessionError Unit}
      (hpc : s.pc = .draining cancel disconnect wait) :
      Step s .elapsed { s with handle := false, pc := .returning shutdownTimedOut true }
  | elapsedComplete {session : Except SshSessionError Unit} (hpc : s.pc = .completing session) :
      Step s .elapsed { s with pc := .returning (resultAnd session shutdownTimedOut) true }
  | return_ {result : Except SshSessionError Unit} {timedOut : Bool}
      (hpc : s.pc = .returning result timedOut) :
      Step s .return_ { s with pc := .idle, returns := s.returns ++ [s.entry result timedOut] }

/-- `Step` has every step of a remote forward. -/
theorem RemoteForward.step_sound {s s' : RemoteForward} {l : ForwardLabel}
    (h : remoteForward.step s l = some s') : Step s l s' := by
  change s.step l = some s' at h
  cases l with
  | call call =>
      simp only [step] at h
      split at h
      · rename_i hpc
        obtain rfl := Option.some.inj h
        exact .call hpc
      · cases h
  | register =>
      simp only [step] at h
      split at h
      · cases h
      · rename_i hopen
        obtain rfl := Option.some.inj h
        exact .register (by simpa using hopen)
  | finish =>
      simp only [step] at h
      split at h
      · cases h
      · rename_i hactive
        obtain rfl := Option.some.inj h
        exact .finish hactive
  | sessionEnds ending =>
      simp only [step] at h
      split at h
      · cases h
      · rename_i hopen
        obtain rfl := Option.some.inj h
        exact .sessionEnds (by simpa using hopen)
  | raise =>
      obtain rfl := Option.some.inj h
      exact .raise
  | cancelDone result =>
      simp only [step] at h
      split at h
      · rename_i hpc
        obtain rfl := Option.some.inj h
        exact .cancelDone hpc
      · cases h
  | disconnectDone result =>
      simp only [step] at h
      split at h
      · rename_i hpc
        obtain rfl := Option.some.inj h
        exact .disconnectDone hpc
      · cases h
  | joined =>
      simp only [step] at h
      split at h
      · cases h
      · rename_i hended
        split at h
        · rename_i hpc
          obtain rfl := Option.some.inj h
          exact .joinedWait hended (.inl hpc)
        · rename_i hpc
          obtain rfl := Option.some.inj h
          exact .joinedWait hended (.inr hpc)
        · rename_i hpc
          obtain rfl := Option.some.inj h
          exact .joinedShutdown hended hpc
        · cases h
  | observed =>
      simp only [step] at h
      split at h
      · rename_i hpc
        obtain rfl := Option.some.inj h
        exact .observed hpc
      · cases h
  | drained =>
      simp only [step] at h
      split at h
      · rename_i hactive
        split at h
        · rename_i hpc
          obtain rfl := Option.some.inj h
          exact .drainedShutdown hactive hpc
        · rename_i hpc
          obtain rfl := Option.some.inj h
          exact .drainedComplete hactive hpc
        · cases h
      · cases h
  | elapsed =>
      simp only [step] at h
      split at h
      · rename_i hpc
        obtain rfl := Option.some.inj h
        exact .elapsedSession (.inl hpc)
      · rename_i hpc
        obtain rfl := Option.some.inj h
        exact .elapsedSession (.inr (.inl ⟨_, hpc⟩))
      · rename_i hpc
        obtain rfl := Option.some.inj h
        exact .elapsedSession (.inr (.inr ⟨_, _, hpc⟩))
      · rename_i hpc
        obtain rfl := Option.some.inj h
        exact .elapsedDraining hpc
      · rename_i hpc
        obtain rfl := Option.some.inj h
        exact .elapsedComplete hpc
      · cases h
  | return_ =>
      simp only [step] at h
      split at h
      · rename_i hpc
        obtain rfl := Option.some.inj h
        exact .return_ hpc
      · cases h

/-! ## What a return says -/

/-- The error of the first failing result, if any. -/
def firstFailing : List (Except SshSessionError Unit) → Except SshSessionError Unit
  | [] => .ok ()
  | .error error :: _ => .error error
  | .ok () :: rest => firstFailing rest

theorem resultAnd_eq_firstFailing (cancel disconnect wait : Except SshSessionError Unit) :
    resultAnd (resultAnd cancel disconnect) wait = firstFailing [cancel, disconnect, wait] := by
  rcases cancel with _ | _ <;> rcases disconnect with _ | _ <;> rcases wait with _ | _ <;> rfl

/-- The call has cancelled the listener, disconnected and waited for the session, and
returns the error of the first of these that failed. -/
def ForwardReturn.RanAllSteps (e : ForwardReturn) : Prop :=
  ∃ cancel disconnect wait,
    e.steps = [(.cancelTcpipForward, cancel), (.disconnect, disconnect), (.wait, wait)] ∧
    e.result = firstFailing [cancel, disconnect, wait]

structure ForwardReturn.Sound (e : ForwardReturn) : Prop where
  /-- `Ok` means that nothing is left. -/
  ok : e.result = .ok () → e.active = 0 ∧ e.handle = false ∧ e.cancelled = true
  /-- A timeout before the end of the session keeps the handle. -/
  kept : e.shutdown ≠ none → e.timedOut = true → e.ended = false → e.handle = true
  /-- With a handle and without a timeout all the steps are run. -/
  ran : e.shutdown = some true → e.timedOut = false → e.RanAllSteps

/-- What is known at each await. -/
def AwaitInv (s : RemoteForward) : ForwardPc → Prop
  | .idle => True
  | .waiting | .selecting => s.handle = true ∧ s.current.shutdown = none ∧ s.current.steps = []
  | .cancelling =>
      s.handle = true ∧ s.cancelled = true ∧ s.current.shutdown = some true ∧
        s.current.steps = []
  | .disconnecting cancel =>
      s.handle = true ∧ s.cancelled = true ∧ s.current.shutdown = some true ∧
        s.current.steps = [(.cancelTcpipForward, cancel)]
  | .joining cancel disconnect =>
      s.handle = true ∧ s.cancelled = true ∧ s.current.shutdown = some true ∧
        s.current.steps = [(.cancelTcpipForward, cancel), (.disconnect, disconnect)]
  | .draining cancel disconnect wait =>
      s.session ≠ none ∧ s.cancelled = true ∧ s.current.shutdown = some true ∧
        s.current.steps =
          [(.cancelTcpipForward, cancel), (.disconnect, disconnect), (.wait, wait)]
  | .completing _ =>
      s.handle = false ∧ s.cancelled = true ∧ s.current.shutdown ≠ some true
  | .returning result timedOut =>
      (s.entry result timedOut).Sound ∧ (result = .ok () → s.session ≠ none)

/-- The handle as the next call finds it, or as the current one found it. -/
def RemoteForward.startHandle (s : RemoteForward) : Bool :=
  match s.pc with
  | .idle => s.handle
  | _ => s.current.hadHandle

structure ForwardInv (s : RemoteForward) : Prop where
  handle : s.handle = false → s.session ≠ none
  await : AwaitInv s s.pc
  direct : s.current.call = .shutdown → s.current.shutdown = some s.current.hadHandle
  entries : ∀ e ∈ s.returns, e.Sound ∧ (e.call = .shutdown → e.shutdown = some e.hadHandle)
  chain : s.returns.IsChain fun e e' => e'.hadHandle = e.handle
  last : ∀ e ∈ s.returns.getLast?, s.startHandle = e.handle

/-! ## Steps -/

/-- An event outside the call: flag and session only rise, and children come only while the
session is open. -/
theorem ForwardInv.outside {s s' : RemoteForward} (h : ForwardInv s) (hpc : s'.pc = s.pc)
    (hhandle : s'.handle = s.handle) (hcurrent : s'.current = s.current)
    (hreturns : s'.returns = s.returns) (hsession : s.session ≠ none → s'.session ≠ none)
    (hcancelled : s.cancelled = true → s'.cancelled = true)
    (hactive : s.session ≠ none → s.active = 0 → s'.active = 0) : ForwardInv s' where
  handle hnone := hsession (h.handle (hhandle ▸ hnone))
  await := by
    have hawait := h.await
    rw [hpc]
    cases hat : s.pc with
    | idle => trivial
    | waiting | selecting =>
        rw [hat] at hawait
        simpa only [AwaitInv, hhandle, hcurrent] using hawait
    | cancelling | disconnecting | joining =>
        rw [hat] at hawait
        simp only [AwaitInv, hhandle, hcurrent] at hawait ⊢
        exact ⟨hawait.1, hcancelled hawait.2.1, hawait.2.2⟩
    | draining =>
        rw [hat] at hawait
        simp only [AwaitInv, hcurrent] at hawait ⊢
        exact ⟨hsession hawait.1, hcancelled hawait.2.1, hawait.2.2⟩
    | completing =>
        rw [hat] at hawait
        simp only [AwaitInv, hhandle, hcurrent] at hawait ⊢
        exact ⟨hawait.1, hcancelled hawait.2.1, hawait.2.2⟩
    | returning result timedOut =>
        rw [hat] at hawait
        rcases hawait with ⟨hsound, hended⟩
        refine ⟨⟨?_, ?_, ?_⟩, fun hok => hsession (hended hok)⟩
        · intro hok
          rcases hsound.ok hok with ⟨hnone, hgone, hraised⟩
          exact ⟨hactive (hended hok) hnone, hhandle.trans hgone, hcancelled hraised⟩
        · intro hshutdown htimedOut hopen
          have hshutdown : s'.current.shutdown ≠ none := hshutdown
          rw [hcurrent] at hshutdown
          refine hhandle.trans (hsound.kept hshutdown htimedOut ?_)
          -- the session was open before the event, too
          by_contra hsome
          have hclosed : s.session ≠ none := by simpa [RemoteForward.entry] using hsome
          have hstill := hsession hclosed
          simp [RemoteForward.entry] at hopen
          exact hstill hopen
        · intro hshutdown htimedOut
          have hshutdown : s'.current.shutdown = some true := hshutdown
          rw [hcurrent] at hshutdown
          have hran := hsound.ran hshutdown htimedOut
          simpa only [ForwardReturn.RanAllSteps, RemoteForward.entry, hcurrent] using hran
  direct := hcurrent ▸ h.direct
  entries := hreturns ▸ h.entries
  chain := hreturns ▸ h.chain
  last := by
    have hstart : s'.startHandle = s.startHandle := by
      simp only [RemoteForward.startHandle, hpc, hhandle, hcurrent]
    rw [hreturns, hstart]
    exact h.last

theorem startHandle_of_busy {s : RemoteForward} (hbusy : s.pc ≠ .idle) :
    s.startHandle = s.current.hadHandle := by
  cases hpc : s.pc with
  | idle => exact absurd hpc hbusy
  | waiting | selecting | cancelling | disconnecting | joining | draining | completing
  | returning => simp only [RemoteForward.startHandle, hpc]

/-- An await of the call ends and another begins. -/
theorem ForwardInv.advance {s s' : RemoteForward} (h : ForwardInv s) (hbusy : s.pc ≠ .idle)
    (hbusy' : s'.pc ≠ .idle) (hreturns : s'.returns = s.returns)
    (hcall : s'.current.call = s.current.call)
    (hhad : s'.current.hadHandle = s.current.hadHandle)
    (hshutdown : s.current.call = .shutdown → s'.current.shutdown = s.current.shutdown)
    (hhandle : s'.handle = false → s'.session ≠ none) (hawait : AwaitInv s' s'.pc) :
    ForwardInv s' where
  handle := hhandle
  await := hawait
  direct hdirect := by
    rw [hcall] at hdirect
    rw [hshutdown hdirect, h.direct hdirect, hhad]
  entries := hreturns ▸ h.entries
  chain := hreturns ▸ h.chain
  last := by
    rw [hreturns, startHandle_of_busy hbusy', hhad, ← startHandle_of_busy hbusy]
    exact h.last

/-- A call begins. -/
theorem ForwardInv.begin {s s' : RemoteForward} (h : ForwardInv s) (hidle : s.pc = .idle)
    (hbusy : s'.pc ≠ .idle) (hreturns : s'.returns = s.returns)
    (hhad : s'.current.hadHandle = s.handle)
    (hdirect : s'.current.call = .shutdown → s'.current.shutdown = some s'.current.hadHandle)
    (hhandle : s'.handle = false → s'.session ≠ none) (hawait : AwaitInv s' s'.pc) :
    ForwardInv s' where
  handle := hhandle
  await := hawait
  direct := hdirect
  entries := hreturns ▸ h.entries
  chain := hreturns ▸ h.chain
  last := by
    have hstart : s.startHandle = s.handle := by
      simp only [RemoteForward.startHandle, hidle]
    rw [hreturns, startHandle_of_busy hbusy, hhad, ← hstart]
    exact h.last

/-- A call begins with the handle that the one before has left. -/
theorem forward_call_inv {s : RemoteForward} (h : ForwardInv s) (hidle : s.pc = .idle)
    (call : ForwardCall) : ForwardInv (s.beginCall call) := by
  cases hhandle : s.handle with
  | true =>
      cases call with
      | wait | waitUntilCancelled =>
          refine h.begin hidle ?_ ?_ ?_ ?_ ?_ ?_ <;>
            simp [RemoteForward.beginCall, hhandle, AwaitInv]
      | shutdown =>
          refine h.begin hidle ?_ ?_ ?_ ?_ ?_ ?_ <;>
            simp [RemoteForward.beginCall, RemoteForward.beginShutdown, hhandle, AwaitInv]
  | false =>
      -- without a handle the session is over, and only the children are waited for
      have hended := h.handle hhandle
      cases call with
      | wait | waitUntilCancelled =>
          refine h.begin hidle ?_ ?_ ?_ ?_ ?_ ?_ <;>
            simp [RemoteForward.beginCall, RemoteForward.complete, hhandle, hended, AwaitInv]
      | shutdown =>
          refine h.begin hidle ?_ ?_ ?_ ?_ ?_ ?_ <;>
            simp [RemoteForward.beginCall, RemoteForward.beginShutdown, RemoteForward.complete,
              hhandle, hended, AwaitInv]

/-- Each step keeps the invariant. -/
theorem forward_step_inv :
    ∀ s l s', remoteForward.step s l = some s' → ForwardInv s → ForwardInv s' := by
  intro s l s' hstep h
  have hawait := h.await
  cases RemoteForward.step_sound hstep with
  | call hpc => exact forward_call_inv h hpc _
  | register hopen =>
      exact h.outside rfl rfl rfl rfl id id fun hended _ => absurd hopen hended
  | finish hactive =>
      refine h.outside rfl rfl rfl rfl id id fun _ hzero => ?_
      exact absurd hzero hactive
  | sessionEnds hopen => exact h.outside rfl rfl rfl rfl (by simp) id fun _ hzero => hzero
  | raise => exact h.outside rfl rfl rfl rfl id (fun _ => rfl) fun _ hzero => hzero
  | cancelDone hpc =>
      rw [hpc] at hawait
      refine h.advance (by simp [hpc]) (by simp) rfl rfl rfl (fun _ => rfl) h.handle ?_
      exact ⟨hawait.1, hawait.2.1, hawait.2.2.1, by simp [RemoteForward.ran, hawait.2.2.2]⟩
  | disconnectDone hpc =>
      rw [hpc] at hawait
      refine h.advance (by simp [hpc]) (by simp) rfl rfl rfl (fun _ => rfl) h.handle ?_
      exact ⟨hawait.1, hawait.2.1, hawait.2.2.1, by simp [RemoteForward.ran, hawait.2.2.2]⟩
  | joinedWait hended hpc =>
      have hnot : s.current.shutdown = none := by
        rcases hpc with hpc | hpc <;> rw [hpc] at hawait <;> exact hawait.2.1
      have hbusy : s.pc ≠ .idle := by
        rcases hpc with hpc | hpc <;> simp [hpc]
      refine h.advance hbusy (by simp [RemoteForward.complete]) rfl rfl rfl (fun _ => rfl) ?_ ?_
      · simp [RemoteForward.complete, hended]
      · exact ⟨rfl, rfl, by simp [RemoteForward.complete, hnot]⟩
  | joinedShutdown hended hpc =>
      rw [hpc] at hawait
      refine h.advance (by simp [hpc]) (by simp) rfl rfl rfl (fun _ => rfl) h.handle ?_
      exact ⟨by simp [RemoteForward.ran, hended], hawait.2.1, hawait.2.2.1,
        by simp [RemoteForward.ran, hawait.2.2.2]⟩
  | observed hpc =>
      rw [hpc] at hawait
      -- `wait_until_cancelled` goes on as a shutdown
      have hshape : s.beginShutdown =
          { s with
            cancelled := true, current := { s.current with shutdown := some true }
            pc := .cancelling } := by
        simp [RemoteForward.beginShutdown, hawait.1]
      rw [hshape]
      refine h.advance (by simp [hpc]) (by simp) rfl rfl rfl ?_ h.handle
        ⟨hawait.1, rfl, rfl, hawait.2.2⟩
      intro hcall
      have hnot := hawait.2.1
      rw [h.direct hcall] at hnot
      cases hnot
  | drainedShutdown hactive hpc =>
      rw [hpc] at hawait
      rcases hawait with ⟨hended, hraised, hshutdown, hsteps⟩
      refine h.advance (by simp [hpc]) (by simp) rfl rfl rfl (fun _ => rfl) (fun _ => hended) ?_
      refine ⟨⟨fun _ => ⟨hactive, rfl, hraised⟩, (fun _ htimedOut => nomatch htimedOut), ?_⟩,
        fun _ => hended⟩
      intro _ _
      exact ⟨_, _, _, hsteps, resultAnd_eq_firstFailing _ _ _⟩
  | drainedComplete hactive hpc =>
      rw [hpc] at hawait
      rcases hawait with ⟨hgone, hraised, hshutdown⟩
      refine h.advance (by simp [hpc]) (by simp) rfl rfl rfl (fun _ => rfl) h.handle ?_
      exact ⟨⟨fun _ => ⟨hactive, hgone, hraised⟩, (fun _ htimedOut => nomatch htimedOut),
        fun hran => absurd hran hshutdown⟩, fun _ => h.handle hgone⟩
  | elapsedSession hpc =>
      have hhandle : s.handle = true := by
        rcases hpc with hpc | ⟨_, hpc⟩ | ⟨_, _, hpc⟩ <;> rw [hpc] at hawait <;> exact hawait.1
      have hbusy : s.pc ≠ .idle := by
        rcases hpc with hpc | ⟨_, hpc⟩ | ⟨_, _, hpc⟩ <;> simp [hpc]
      refine h.advance hbusy (by simp) rfl rfl rfl (fun _ => rfl) h.handle ?_
      exact ⟨⟨(nomatch ·), fun _ _ _ => hhandle, (fun _ hnot => nomatch hnot)⟩,
        (nomatch ·)⟩
  | elapsedDraining hpc =>
      rw [hpc] at hawait
      refine h.advance (by simp [hpc]) (by simp) rfl rfl rfl (fun _ => rfl) (fun _ => hawait.1) ?_
      refine ⟨⟨(nomatch ·), fun _ _ hopen => ?_, (fun _ hnot => nomatch hnot)⟩,
        (nomatch ·)⟩
      exact absurd (by simpa [RemoteForward.entry] using hopen) hawait.1
  | @elapsedComplete session hpc =>
      rw [hpc] at hawait
      have hended := h.handle hawait.1
      have hfails : resultAnd session shutdownTimedOut ≠ .ok () := by
        cases session <;> simp [resultAnd, shutdownTimedOut]
      refine h.advance (by simp [hpc]) (by simp) rfl rfl rfl (fun _ => rfl) h.handle ?_
      refine ⟨⟨fun hok => absurd hok hfails, fun _ _ hopen => ?_, (fun _ hnot => nomatch hnot)⟩,
        fun hok => absurd hok hfails⟩
      exact absurd (by simpa [RemoteForward.entry] using hopen) hended
  | @return_ result timedOut hpc =>
      rw [hpc] at hawait
      have hbusy : s.pc ≠ .idle := by simp [hpc]
      refine ⟨h.handle, trivial, h.direct, ?_, ?_, ?_⟩
      · intro e he
        rcases List.mem_append.mp he with hold | hnew
        · exact h.entries e hold
        · rw [List.mem_singleton.mp hnew]
          exact ⟨hawait.1, h.direct⟩
      · -- the call began with the handle that the last return left
        refine List.isChain_append.mpr ⟨h.chain, List.isChain_singleton _, ?_⟩
        intro e he e' he'
        obtain rfl : s.entry result timedOut = e' := by simpa using he'
        have hlast := h.last e he
        rw [startHandle_of_busy hbusy] at hlast
        exact hlast
      · intro e he
        obtain rfl : s.entry result timedOut = e := by simpa using he
        rfl

theorem forward_inv_init : ForwardInv {} where
  handle hgone := nomatch hgone
  await := trivial
  direct hcall := nomatch hcall
  entries _ he := absurd he List.not_mem_nil
  chain := List.isChain_nil
  last _ he := nomatch he

/-! ## Runs -/

/-- Over every sequence of calls: the handle goes only after the session future has
completed; every return is sound; and a shutdown that follows one whose timeout came before
the end of the session runs all its steps again, if it is not cut itself. -/
theorem forward_returns_sound {trace : List ForwardLabel} {s : RemoteForward}
    (hrun : remoteForward.run {} trace = some s) :
    (s.handle = false → s.session ≠ none) ∧
    (∀ e ∈ s.returns, e.Sound) ∧
    ∀ earlier e e' later, s.returns = earlier ++ e :: e' :: later →
      e.shutdown ≠ none → e.timedOut = true → e.ended = false →
      e'.call = .shutdown → e'.timedOut = false → e'.RanAllSteps := by
  have h : ForwardInv s := Machine.run_invariant forward_step_inv hrun forward_inv_init
  refine ⟨h.handle, fun e he => (h.entries e he).1, ?_⟩
  intro earlier e e' later hsplit hshutdown htimedOut hopen hcall hnot
  rcases h.entries e (by simp [hsplit]) with ⟨hsound, -⟩
  rcases h.entries e' (by simp [hsplit]) with ⟨hsound', hdirect⟩
  have hkept : e.handle = true := hsound.kept hshutdown htimedOut hopen
  have hchain := h.chain
  rw [hsplit, List.isChain_append_cons_cons] at hchain
  have hhad : e'.hadHandle = true := hchain.2.1.trans hkept
  exact hsound'.ran (by rw [hdirect hcall, hhad]) hnot

/-- A shutdown that times out at once, and a second one that gets through. -/
def retriedShutdown : List ForwardLabel :=
  [.call .shutdown, .elapsed, .return_, .call .shutdown, .cancelDone (.ok ()),
    .disconnectDone (.error "broken pipe"), .sessionEnds .finished, .joined, .drained, .return_]

/-- The second call runs all steps, after the first has timed out. -/
theorem retriedShutdown_runs_again :
    ∃ s e e', remoteForward.run {} retriedShutdown = some s ∧ s.returns = [e, e'] ∧
      e.timedOut = true ∧ e.ended = false ∧ e'.RanAllSteps :=
  ⟨_, _, _, rfl, rfl, rfl, rfl,
    (@forward_returns_sound retriedShutdown _ rfl).2.2 [] _ _ [] rfl (nomatch ·) rfl rfl rfl rfl⟩

/-- A shutdown that gets through, and another one after it. -/
def repeatedShutdown : List ForwardLabel :=
  [.call .shutdown, .cancelDone (.ok ()), .disconnectDone (.ok ()), .sessionEnds .finished,
    .joined, .drained, .return_, .call .shutdown, .drained, .return_]

/-- Once the handle is gone there is no session to run the steps on. -/
theorem repeatedShutdown_runs_nothing :
    ¬ ∀ trace s, remoteForward.run {} trace = some s →
      ∀ e ∈ s.returns, e.call = .shutdown → e.timedOut = false → e.RanAllSteps := by
  intro hall
  have hlast := hall repeatedShutdown _ rfl _ (List.mem_append_right _ (List.mem_singleton_self _))
    rfl rfl
  rcases hlast with ⟨cancel, disconnect, wait, hsteps, -⟩
  cases hsteps

end Rssh
