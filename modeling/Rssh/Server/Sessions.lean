import Rssh.Lib.AcceptLoop
import Rssh.Server.Stop
import Rssh.Server.Tasks

/-!
# The sessions of the server

`run_accept_loop` spawns `run_session` for each connection and, once it is told to stop, drains the
sessions up to the deadline. Each session owns the future of its stream, which a `ReapOnDrop` hands
to the process reaper unless it is complete, and shuts its tracker of child tasks down before it
returns.

The machine `sshServer` puts the accept loop, any number of sessions and their child tasks together.
Sessions, tasks, the clock and the loop take their steps in any order.

* `Session.Inv` is what is known of a session, and `SshServer.step_inv` one step of anything.
* `accept_loop` says what the result of the loop means.
* `accept_loop_returns` says when there is one.
-/

namespace Rssh

variable {π : Type} {limit : Nat}

/-! ## Sessions -/

/-- `SESSION_TEARDOWN` and `SECONDARY_DRAIN`, in nanoseconds. -/
def sessionTeardown : Nat := 500 * 10 ^ 6

def secondaryDrain : Nat := 100 * 10 ^ 6

/-- `shutdown_timeout`. -/
def shutdownTimeout (operation : String) (deadline : ShutdownDeadline limit) : SshFixtureError :=
  .timedOut operation ⟨deadline.budget⟩

/-- The watch channel that a stop is requested through. -/
structure Cancellation (limit : Nat) where
  value : Option (ShutdownDeadline limit) := none
  senderDropped : Bool := false
deriving DecidableEq

/-- What `shutdown_requested` returns, if it does. -/
def shutdownRequested (cancellation : Cancellation limit) (now : Instant limit) :
    Option (ShutdownDeadline limit) :=
  match cancellation.value with
  | some deadline => some deadline
  | none => if cancellation.senderDropped then some (.after now now 0) else none

/-- Who has the future of a stream. -/
inductive StreamOwner where
  | session
  | complete
  | reaper
deriving DecidableEq, Repr

structure SessionStream (limit : Nat) where
  readyAt : Option (Instant limit) := none
  owner : StreamOwner := .session
deriving DecidableEq

/-- How the task of a session has ended. -/
inductive SessionOutcome where
  | returned (result : Except SshFixtureError Unit)
  | panicked
  | cancelled
deriving DecidableEq

/-- Where `run_session` is. A round of its `select` looks for the request first. -/
inductive SessionStage (limit : Nat) where
  | starting (polled : Bool)
  /-- It waits for the shutdown of its child tasks and nothing else. -/
  | closing (operation : String) (deadline : ShutdownDeadline limit)
  | running (polled : Bool)
  | disconnecting (deadline : ShutdownDeadline limit)
  /-- It waits for its stream, of which the outcome may be there, and the shutdown. -/
  | joining (deadline : ShutdownDeadline limit) (disconnected : Bool) (completed : Option Bool)
  | ended (outcome : SessionOutcome) (at_ : Instant limit)
deriving DecidableEq

structure Session (π : Type) (limit : Nat) where
  peer : π
  stage : SessionStage limit := .starting false
  stream : Option (SessionStream limit) := none
deriving DecidableEq

inductive SessionLabel (limit : Nat) where
  | polls
  | stops
  | pends
  | starts
  | startFails (first : Instant limit)
  | completes (first : Instant limit)
  | disconnects
  | disconnectElapses
  | joinsStream
  | leavesStream
  | returns
  | streamEnds
deriving DecidableEq

namespace Session

def outcome (session : Session π limit) : Option SessionOutcome :=
  match session.stage with
  | .ended outcome _ => some outcome
  | _ => none

def endedAt (session : Session π limit) : Option (Instant limit) :=
  match session.stage with
  | .ended _ at_ => some at_
  | _ => none

/-- The deadline that the session shuts its child tasks down with. -/
def closes (session : Session π limit) : Option (ShutdownDeadline limit) :=
  match session.stage with
  | .closing _ deadline | .joining deadline _ _ => some deadline
  | _ => none

/-- The end of the task. The drop of a `ReapOnDrop` hands over what has not been completed. -/
def finish (session : Session π limit) (outcome : SessionOutcome) (now : Instant limit) :
    Session π limit :=
  { session with
    stage := .ended outcome now
    stream := session.stream.map fun stream =>
      if stream.owner = .session then { stream with owner := .reaper } else stream }

/-- What `tasks.shutdown` has returned. -/
def shutdownResult (shutdown : Option (Shutdown limit)) : Option Bool :=
  match shutdown with
  | some { stage := .returned completed, .. } => some completed
  | _ => none

/-- One step of `run_session`, or the end of its stream. -/
def step (now : Instant limit) (request : Option (ShutdownDeadline limit))
    (shutdown : Option (Shutdown limit)) (session : Session π limit) :
    SessionLabel limit → Option (Session π limit)
  | .polls =>
      match session.stage, request with
      | .starting false, none => some { session with stage := .starting true }
      | .running false, none => some { session with stage := .running true }
      | _, _ => none
  | .stops =>
      match session.stage, request with
      | .starting false, some deadline =>
          some { session with stage := .closing "session startup" deadline }
      | .running false, some deadline => some { session with stage := .disconnecting deadline }
      | _, _ => none
  | .pends =>
      match session.stage with
      | .starting true => some { session with stage := .starting false }
      | .running true => some { session with stage := .running false }
      | _ => none
  | .starts =>
      match session.stage with
      | .starting true => some { session with stage := .running false, stream := some {} }
      | _ => none
  | .startFails first =>
      match session.stage with
      | .starting true =>
          if first ≤ now then
            let deadline := .after first now sessionTeardown
            some { session with stage := .closing "session startup" deadline }
          else none
      | _ => none
  | .completes first =>
      match session.stage, session.stream with
      | .running true, some stream =>
          if stream.readyAt.isSome ∧ first ≤ now then
            let deadline := .after first now sessionTeardown
            some
              { session with
                stage := .closing "session child drain" deadline
                stream := some { stream with owner := .complete } }
          else none
      | _, _ => none
  | .disconnects =>
      match session.stage with
      | .disconnecting deadline => some { session with stage := .joining deadline true none }
      | _ => none
  | .disconnectElapses =>
      match session.stage with
      | .disconnecting deadline =>
          if deadline.at_ ≤ now then some { session with stage := .joining deadline false none }
          else none
      | _ => none
  | .joinsStream =>
      match session.stage, session.stream with
      | .joining deadline disconnected none, some stream =>
          if stream.readyAt.isSome then
            some
              { session with
                stage := .joining deadline disconnected (some true)
                stream := some { stream with owner := .complete } }
          else none
      | _, _ => none
  | .leavesStream =>
      match session.stage, session.stream with
      | .joining deadline disconnected none, some stream =>
          if deadline.at_ ≤ now ∧ stream.readyAt.all (deadline.at_ ≤ ·) then
            some { session with stage := .joining deadline disconnected (some false) }
          else none
      | _, _ => none
  | .returns =>
      match session.stage, shutdownResult shutdown with
      | .closing operation deadline, some completed =>
          let result := if completed then .ok () else .error (shutdownTimeout operation deadline)
          some (session.finish (.returned result) now)
      | .joining deadline disconnected (some sessionCompleted), some childrenCompleted =>
          let result :=
            if disconnected && sessionCompleted && childrenCompleted then .ok ()
            else .error (shutdownTimeout "session teardown" deadline)
          some (session.finish (.returned result) now)
      | _, _ => none
  | .streamEnds =>
      match session.stream with
      | some { readyAt := none, owner } =>
          some { session with stream := some { readyAt := some now, owner } }
      | _ => none

end Session

/-! ## The server -/

/-- The error of a session that has ended, as `record_session_result` takes it. -/
def SessionOutcome.error : SessionOutcome → Option SshFixtureError
  | .returned (.ok ()) => none
  | .returned (.error error) => some error
  | .panicked | .cancelled => some .workerPanicked

/-- `record_session_result`: the first error stays. -/
def recordSessionResult (joined : SessionOutcome) (firstError : Option SshFixtureError) :
    Option SshFixtureError :=
  firstError.or joined.error

/-- `run_accept_loop` with its sessions and their child tasks, which have the clock. The tracker of
a session has its number. -/
structure SshServer (π : Type) (limit : Nat) where
  children : ChildTasks Nat limit
  cancellation : Cancellation limit := {}
  sessions : List (Session π limit) := []
  loop : AcceptLoop (ShutdownDeadline limit) limit := {}
  sessionError : Option SshFixtureError := none
  acceptError : Option FixtureIoError := none

inductive SshServerLabel (π : Type) (limit : Nat) where
  | advance (later : Instant limit)
  | requests (deadline : ShutdownDeadline limit)
  | dropsSender
  | accepts (peer : π)
  | acceptFails (source : FixtureIoError)
  | loop (label : AcceptLabel limit)
  | session (session : Nat) (label : SessionLabel limit)
  | drops (session : Nat) (panicked : Bool)
  | child (label : ChildTaskLabel Nat limit)

namespace SshServer

def policy (limit : Nat) : AcceptPolicy (ShutdownDeadline limit) limit where
  breaks := false
  drainUpTo deadline := some deadline.at_
  grace := secondaryDrain

def now (s : SshServer π limit) : Instant limit := s.children.now

def request (s : SshServer π limit) : Option (ShutdownDeadline limit) :=
  shutdownRequested s.cancellation s.now

def outcome (s : SshServer π limit) (session : Nat) : Option SessionOutcome :=
  s.sessions[session]?.bind Session.outcome

/-- What the accept loop sees. -/
def world (s : SshServer π limit) : AcceptWorld (ShutdownDeadline limit) limit where
  now := s.now
  request := s.request
  ended session := s.sessions[session]?.bind Session.endedAt

/-- The first error, after a step of the loop. -/
def errorAfter (s : SshServer π limit) : AcceptLabel limit → Option SshFixtureError
  | .joins session =>
      (s.outcome session).elim s.sessionError fun joined =>
        recordSessionResult joined s.sessionError
  | _ => s.sessionError

/-- The drop of a session drops the future of a shutdown that is at a wait. -/
def dropShutdown (s : SshServer π limit) (session : Nat) : Option (ChildTasks Nat limit) :=
  match (s.children.trackers session).shutdown with
  | none => some s.children
  | some sd =>
      match sd.stage with
      | .returned _ => some s.children
      | _ => s.children.step (.shutdown session .drops)

/-- The steps of the child tasks that are not those of the clock or of a session. The handler of a
session spawns through its tracker; the session itself closes it. -/
def ownLabel (s : SshServer π limit) : ChildTaskLabel Nat limit → Bool
  | .spawn tracker => tracker < s.sessions.length
  | .push _ | .bodyEnds _ | .finishes _ => true
  | .close tracker deadline => s.sessions[tracker]?.bind Session.closes = some deadline
  | .shutdown _ label => label ≠ .drops
  | .advance _ => false

def step (s : SshServer π limit) : SshServerLabel π limit → Option (SshServer π limit)
  | .advance later =>
      (s.children.step (.advance later)).map fun children => { s with children }
  | .requests deadline =>
      some { s with cancellation := { s.cancellation with value := some deadline } }
  | .dropsSender => some { s with cancellation := { s.cancellation with senderDropped := true } }
  | .accepts peer =>
      (s.loop.step (policy limit) s.world .accepts).map fun loop =>
        { s with loop, sessions := s.sessions ++ [{ peer }] }
  | .acceptFails source =>
      (s.loop.step (policy limit) s.world .acceptFails).map fun loop =>
        { s with loop, acceptError := some source }
  | .loop label =>
      if label = .accepts ∨ label = .acceptFails then none
      else
        (s.loop.step (policy limit) s.world label).map fun loop =>
          { s with loop, sessionError := s.errorAfter label }
  | .session number label =>
      s.sessions[number]?.bind fun session =>
        let shutdown := (s.children.trackers number).shutdown
        (session.step s.now s.request shutdown label).map fun session =>
          { s with sessions := s.sessions.set number session }
  | .drops number panicked =>
      s.sessions[number]?.bind fun session =>
        if session.outcome.isNone ∧ (panicked = true ∨ number ∈ s.loop.aborted) then
          (s.dropShutdown number).map fun children =>
            let session :=
              session.finish (if panicked then .panicked else .cancelled) s.now
            { s with children, sessions := s.sessions.set number session }
        else none
  | .child label =>
      if s.ownLabel label then (s.children.step label).map fun children => { s with children }
      else none

/-- What `run_accept_loop` has returned. -/
def result (s : SshServer π limit) : Option (Except SshFixtureError Unit) :=
  match s.loop.stage with
  | .drained _ => some (s.sessionError.elim (.ok ()) .error)
  | .closed (some deadline) => some (.error (shutdownTimeout "session drain" deadline))
  | .failed => s.acceptError.map fun source => .error (.io "accept failed" source)
  | _ => none

end SshServer

def sshServer (π : Type) (limit : Nat) : Machine (SshServer π limit) (SshServerLabel π limit) where
  step := SshServer.step

/-! ## What a step of a session can do -/

namespace Session

variable {now later : Instant limit} {request : Option (ShutdownDeadline limit)}
  {shutdown shutdown' : Option (Shutdown limit)} {session session' : Session π limit}

theorem shutdownResult_eq_some {completed : Bool} (h : shutdownResult shutdown = some completed) :
    ∃ sd, shutdown = some sd ∧ sd.stage = .returned completed := by
  unfold shutdownResult at h
  split at h
  · obtain rfl := Option.some.inj h
    exact ⟨_, rfl, rfl⟩
  · cases h

inductive Steps (now : Instant limit) (request : Option (ShutdownDeadline limit))
    (shutdown : Option (Shutdown limit)) (session : Session π limit) : Session π limit → Prop where
  | looks {polled next : Bool} (hstage : session.stage = .starting polled) :
      Steps now request shutdown session { session with stage := .starting next }
  | stopsEarly {polled : Bool} (hstage : session.stage = .starting polled)
      {deadline : ShutdownDeadline limit} :
      Steps now request shutdown session
        { session with stage := .closing "session startup" deadline }
  | starts {polled : Bool} (hstage : session.stage = .starting polled) :
      Steps now request shutdown session { session with stage := .running false, stream := some {} }
  | runs {polled next : Bool} (hstage : session.stage = .running polled) :
      Steps now request shutdown session { session with stage := .running next }
  | stops {polled : Bool} (hstage : session.stage = .running polled)
      {deadline : ShutdownDeadline limit} (hrequest : request = some deadline) :
      Steps now request shutdown session { session with stage := .disconnecting deadline }
  | completes {polled : Bool} (hstage : session.stage = .running polled)
      {stream : SessionStream limit} (hstream : session.stream = some stream)
      (hready : stream.readyAt.isSome = true) {deadline : ShutdownDeadline limit} :
      Steps now request shutdown session
        { session with
          stage := .closing "session child drain" deadline
          stream := some { stream with owner := .complete } }
  | disconnects {deadline : ShutdownDeadline limit}
      (hstage : session.stage = .disconnecting deadline)
      {disconnected : Bool} (hover : disconnected = false → deadline.at_ ≤ now) :
      Steps now request shutdown session
        { session with stage := .joining deadline disconnected none }
  | joinsStream {deadline : ShutdownDeadline limit} {disconnected : Bool}
      (hstage : session.stage = .joining deadline disconnected none)
      {stream : SessionStream limit} (hstream : session.stream = some stream)
      (hready : stream.readyAt.isSome = true) :
      Steps now request shutdown session
        { session with
          stage := .joining deadline disconnected (some true)
          stream := some { stream with owner := .complete } }
  | leavesStream {deadline : ShutdownDeadline limit} {disconnected : Bool}
      (hstage : session.stage = .joining deadline disconnected none) (hover : deadline.at_ ≤ now) :
      Steps now request shutdown session
        { session with stage := .joining deadline disconnected (some false) }
  | returnsClosed {operation : String} {deadline : ShutdownDeadline limit}
      (hstage : session.stage = .closing operation deadline) {sd : Shutdown limit}
      {completed : Bool} (hshutdown : shutdown = some sd)
      (hreturned : sd.stage = .returned completed) :
      Steps now request shutdown session
        (session.finish
          (.returned
            (if completed then .ok () else .error (shutdownTimeout operation deadline))) now)
  | returnsJoined {deadline : ShutdownDeadline limit} {disconnected sessionCompleted : Bool}
      (hstage : session.stage = .joining deadline disconnected (some sessionCompleted))
      {sd : Shutdown limit} {childrenCompleted : Bool} (hshutdown : shutdown = some sd)
      (hreturned : sd.stage = .returned childrenCompleted) :
      Steps now request shutdown session
        (session.finish
          (.returned
            (if disconnected && sessionCompleted && childrenCompleted then .ok ()
            else .error (shutdownTimeout "session teardown" deadline))) now)
  | streamEnds {owner : StreamOwner}
      (hstream : session.stream = some { readyAt := none, owner := owner }) :
      Steps now request shutdown session
        { session with stream := some { readyAt := some now, owner := owner } }

/-- `Steps` has every step of a session. -/
theorem steps_of_step {label : SessionLabel limit}
    (h : session.step now request shutdown label = some session') :
    Steps now request shutdown session session' := by
  cases label with
  | polls =>
      -- the `select!` at the start, and the one beside the running stream
      simp only [step] at h
      split at h
      · rename_i hstage
        obtain rfl := Option.some.inj h
        exact .looks hstage
      · rename_i hstage
        obtain rfl := Option.some.inj h
        exact .runs hstage
      · cases h
  | stops =>
      -- a request is seen before or after the session has started
      simp only [step] at h
      split at h
      · rename_i hstage
        obtain rfl := Option.some.inj h
        exact .stopsEarly hstage
      · rename_i hstage
        obtain rfl := Option.some.inj h
        exact .stops hstage rfl
      · cases h
  | pends =>
      -- nothing was ready
      simp only [step] at h
      split at h
      · rename_i hstage
        obtain rfl := Option.some.inj h
        exact .looks hstage
      · rename_i hstage
        obtain rfl := Option.some.inj h
        exact .runs hstage
      · cases h
  | starts =>
      simp only [step] at h
      split at h
      · rename_i hstage
        obtain rfl := Option.some.inj h
        exact .starts hstage
      · cases h
  | startFails first =>
      simp only [step] at h
      split at h
      · rename_i hstage
        split_ifs at h with hfirst
        obtain rfl := Option.some.inj h
        exact .stopsEarly hstage
      · cases h
  | completes first =>
      simp only [step] at h
      split at h
      · rename_i stream hstage hstream
        split_ifs at h with hguard
        obtain rfl := Option.some.inj h
        exact .completes hstage hstream hguard.1
      · cases h
  | disconnects =>
      simp only [step] at h
      split at h
      · rename_i deadline hstage
        obtain rfl := Option.some.inj h
        exact .disconnects hstage nofun
      · cases h
  | disconnectElapses =>
      simp only [step] at h
      split at h
      · rename_i deadline hstage
        split_ifs at h with hover
        obtain rfl := Option.some.inj h
        exact .disconnects hstage fun _ => hover
      · cases h
  | joinsStream =>
      simp only [step] at h
      split at h
      · rename_i deadline disconnected stream hstage hstream
        split_ifs at h with hready
        obtain rfl := Option.some.inj h
        exact .joinsStream hstage hstream hready
      · cases h
  | leavesStream =>
      simp only [step] at h
      split at h
      · rename_i deadline disconnected stream hstage hstream
        split_ifs at h with hguard
        obtain rfl := Option.some.inj h
        exact .leavesStream hstage hguard.1
      · cases h
  | returns =>
      simp only [step] at h
      split at h
      · rename_i operation deadline completed hstage hresult
        obtain rfl := Option.some.inj h
        rcases shutdownResult_eq_some hresult with ⟨sd, hshutdown, hreturned⟩
        exact .returnsClosed hstage hshutdown hreturned
      · rename_i deadline disconnected sessionCompleted childrenCompleted hstage hresult
        obtain rfl := Option.some.inj h
        rcases shutdownResult_eq_some hresult with ⟨sd, hshutdown, hreturned⟩
        exact .returnsJoined hstage hshutdown hreturned
      · cases h
  | streamEnds =>
      simp only [step] at h
      split at h
      · rename_i owner hstream
        obtain rfl := Option.some.inj h
        exact .streamEnds hstream
      · cases h

/-- Once ended, a session stays as it has ended. -/
theorem Steps.ended (h : Steps now request shutdown session session') :
    session'.stage = session.stage ∨ session.outcome = none ∧ session.endedAt = none ∧
      (session'.endedAt = none ∨ session'.endedAt = some now) := by
  cases h with
  | looks hstage => exact .inr (by simp [outcome, endedAt, hstage])
  | stopsEarly hstage => exact .inr (by simp [outcome, endedAt, hstage])
  | starts hstage => exact .inr (by simp [outcome, endedAt, hstage])
  | runs hstage => exact .inr (by simp [outcome, endedAt, hstage])
  | stops hstage => exact .inr (by simp [outcome, endedAt, hstage])
  | completes hstage => exact .inr (by simp [outcome, endedAt, hstage])
  | disconnects hstage => exact .inr (by simp [outcome, endedAt, hstage])
  | joinsStream hstage => exact .inr (by simp [outcome, endedAt, hstage])
  | leavesStream hstage => exact .inr (by simp [outcome, endedAt, hstage])
  | returnsClosed hstage => exact .inr (by simp [outcome, endedAt, finish, hstage])
  | returnsJoined hstage => exact .inr (by simp [outcome, endedAt, finish, hstage])
  | streamEnds => exact .inl rfl

/-! ## What is known of a session -/

/-- The stream, if there is one, is with this owner. -/
def Owned (session : Session π limit) (owner : StreamOwner) : Prop :=
  ∀ stream, session.stream = some stream → stream.owner = owner

/-- A shutdown that has begun is under this deadline. -/
def ClosedBy (shutdown : Option (Shutdown limit)) (deadline : ShutdownDeadline limit) : Prop :=
  ∀ sd, shutdown = some sd → sd.deadline = deadline

/-- What a session has returned: a success when its child tasks are all joined and its stream is
complete, and otherwise that it has timed out. -/
def Returned (shutdown : Option (Shutdown limit)) (session : Session π limit) (at_ : Instant limit)
    (result : Except SshFixtureError Unit) : Prop :=
  ∃ sd completed, shutdown = some sd ∧ sd.stage = .returned completed ∧
    (result = .ok () ∧ completed = true ∧ session.Owned .complete ∨
      ∃ operation, result = .error (shutdownTimeout operation sd.deadline) ∧
        sd.deadline.at_ ≤ at_)

def Inv (now : Instant limit) (shutdown : Option (Shutdown limit)) (session : Session π limit) :
    Prop :=
  match session.stage with
  | .starting _ => session.stream = none ∧ shutdown = none
  | .running _ | .disconnecting _ => session.Owned .session ∧ shutdown = none
  | .closing _ deadline => session.Owned .complete ∧ ClosedBy shutdown deadline
  | .joining deadline disconnected completed =>
      session.Owned (if completed = some true then .complete else .session) ∧
        ClosedBy shutdown deadline ∧
        (disconnected = false ∨ completed = some false → deadline.at_ ≤ now)
  | .ended outcome at_ =>
      at_ ≤ now ∧ (∀ stream, session.stream = some stream → stream.owner ≠ .session) ∧
        ∀ result, outcome = .returned result → Returned shutdown session at_ result

theorem owned_finish {owner : StreamOwner} (h : session.Owned owner) (howner : owner ≠ .session)
    (outcome : SessionOutcome) (now : Instant limit) :
    (session.finish outcome now).Owned owner := by
  intro stream hstream
  rcases Option.map_eq_some_iff.mp hstream with ⟨before, hbefore, rfl⟩
  have hsame := h before hbefore
  rw [if_neg (by rw [hsame]; exact howner)]
  exact hsame

/-- When its task ends a session has no stream any more. -/
theorem owner_finish (session : Session π limit) (outcome : SessionOutcome) (now : Instant limit)
    {stream : SessionStream limit} (h : (session.finish outcome now).stream = some stream) :
    stream.owner ≠ .session := by
  rcases Option.map_eq_some_iff.mp h with ⟨before, hbefore, rfl⟩
  split_ifs with howner
  · simp
  · exact howner

/-- The stages read of a stream only who owns it. -/
theorem Inv.same_owner (h : Inv now shutdown session) (hstage : session'.stage = session.stage)
    (hnone : session.stream = none → session'.stream = none)
    (hsame : ∀ stream', session'.stream = some stream' →
      ∃ stream, session.stream = some stream ∧ stream.owner = stream'.owner) :
    Inv now shutdown session' := by
  have howned : ∀ owner, session.Owned owner → session'.Owned owner := by
    intro owner howner stream' hstream'
    rcases hsame stream' hstream' with ⟨stream, hstream, heq⟩
    rw [← heq]
    exact howner stream hstream
  cases hat : session.stage with
  | starting =>
      simp only [Inv, hat] at h
      simp only [Inv, hstage, hat]
      exact ⟨hnone h.1, h.2⟩
  | running =>
      simp only [Inv, hat] at h
      simp only [Inv, hstage, hat]
      exact ⟨howned _ h.1, h.2⟩
  | disconnecting =>
      simp only [Inv, hat] at h
      simp only [Inv, hstage, hat]
      exact ⟨howned _ h.1, h.2⟩
  | closing =>
      simp only [Inv, hat] at h
      simp only [Inv, hstage, hat]
      exact ⟨howned _ h.1, h.2⟩
  | joining =>
      simp only [Inv, hat] at h
      simp only [Inv, hstage, hat]
      exact ⟨howned _ h.1, h.2⟩
  | ended =>
      -- what was returned is not touched
      simp only [Inv, hat] at h
      simp only [Inv, hstage, hat]
      refine ⟨h.1, ?_, ?_⟩
      · intro stream' hstream'
        rcases hsame stream' hstream' with ⟨stream, hstream, heq⟩
        rw [← heq]
        exact h.2.1 stream hstream
      · intro result hresult
        rcases h.2.2 result hresult with ⟨sd, completed, hshutdown, hreturned, hok | herror⟩
        · refine ⟨sd, completed, hshutdown, hreturned, .inl ?_⟩
          exact ⟨hok.1, hok.2.1, howned _ hok.2.2⟩
        · exact ⟨sd, completed, hshutdown, hreturned, .inr herror⟩

/-- Each step of a session keeps what is known of it. -/
theorem Inv.step (h : Inv now shutdown session)
    (hlate : ∀ sd, shutdown = some sd → sd.stage = .returned false → sd.deadline.at_ ≤ now)
    (hstep : Steps now request shutdown session session') : Inv now shutdown session' := by
  cases hstep with
  | looks hstage =>
      simp only [Inv, hstage] at h
      exact h
  | stopsEarly hstage =>
      -- no stream yet, and `shutdown` is called in the next step
      simp only [Inv, hstage] at h
      constructor
      · intro stream hstream
        rw [h.1] at hstream
        cases hstream
      · intro sd hsd
        rw [h.2] at hsd
        cases hsd
  | starts hstage =>
      simp only [Inv, hstage] at h
      refine ⟨?_, h.2⟩
      intro stream hstream
      obtain rfl := Option.some.inj hstream
      rfl
  | runs hstage =>
      simp only [Inv, hstage] at h
      exact h
  | stops hstage =>
      simp only [Inv, hstage] at h
      exact h
  | completes hstage hstream hready =>
      -- the stream is taken, as it is complete
      simp only [Inv, hstage] at h
      constructor
      · intro stream hstream
        obtain rfl := Option.some.inj hstream
        rfl
      · intro sd hsd
        rw [h.2] at hsd
        cases hsd
  | disconnects hstage hover =>
      -- a disconnect that fails has used up the time
      simp only [Inv, hstage] at h
      refine ⟨h.1, ?_, ?_⟩
      · intro sd hsd
        rw [h.2] at hsd
        cases hsd
      · intro hnot
        apply hover
        simpa using hnot
  | joinsStream hstage hstream hready =>
      -- a joined stream says nothing of the time
      simp only [Inv, hstage] at h
      refine ⟨?_, h.2.1, ?_⟩
      · intro stream hstream
        obtain rfl := Option.some.inj hstream
        rfl
      · intro hnot
        apply h.2.2
        left
        simpa using hnot
  | leavesStream hstage hover =>
      simp only [Inv, hstage] at h
      refine ⟨?_, h.2.1, fun _ => hover⟩
      intro stream hstream
      simpa using h.1 stream hstream
  | @returnsClosed operation deadline hstage sd completed hshutdown hreturned =>
      simp only [Inv, hstage] at h
      refine ⟨le_refl _, fun stream hstream => owner_finish _ _ _ hstream, ?_⟩
      intro result hresult
      obtain rfl := SessionOutcome.returned.inj hresult
      refine ⟨sd, completed, hshutdown, hreturned, ?_⟩
      cases completed with
      | true => exact .inl ⟨rfl, rfl, owned_finish h.1 (by simp) _ _⟩
      | false =>
          right
          rw [← h.2 sd hshutdown]
          exact ⟨operation, rfl, hlate sd hshutdown hreturned⟩
  | @returnsJoined deadline disconnected sessionCompleted hstage sd completed hshutdown hreturned =>
      simp only [Inv, hstage] at h
      refine ⟨le_refl _, fun stream hstream => owner_finish _ _ _ hstream, ?_⟩
      intro result hresult
      obtain rfl := SessionOutcome.returned.inj hresult
      refine ⟨sd, completed, hshutdown, hreturned, ?_⟩
      have hdeadline := h.2.1 sd hshutdown
      by_cases hall : (disconnected && sessionCompleted && completed) = true
      · rw [if_pos hall]
        simp only [Bool.and_eq_true] at hall
        have howned : session.Owned .complete := by simpa [hall.1.2] using h.1
        exact .inl ⟨rfl, hall.2, owned_finish howned (by simp) _ _⟩
      · rw [if_neg hall]
        refine .inr ⟨_, by rw [hdeadline], ?_⟩
        -- one of the three waits was over at the deadline
        cases completed with
        | false => exact hlate sd hshutdown hreturned
        | true =>
            rw [hdeadline]
            apply h.2.2
            cases disconnected with
            | false => exact .inl rfl
            | true =>
                right
                simpa using hall
  | @streamEnds owner hstream =>
      apply h.same_owner
      · rfl
      · intro hnone
        rw [hnone] at hstream
        cases hstream
      · intro stream hsome
        obtain rfl := Option.some.inj hsome
        exact ⟨_, hstream, rfl⟩

/-- What is known of a session stays true as time goes on. -/
theorem Inv.advance (h : Inv now shutdown session) (hle : now ≤ later) :
    Inv later shutdown session := by
  unfold Inv at *
  split at h
  · exact h
  · exact h
  · exact h
  · exact h
  · exact ⟨h.1, h.2.1, fun hnot => (h.2.2 hnot).trans hle⟩
  · exact ⟨h.1.trans hle, h.2⟩

end Session

namespace Session

variable {now : Instant limit} {shutdown : Option (Shutdown limit)} {session : Session π limit}

/-- A session that is dropped. -/
theorem finish_inv {outcome : SessionOutcome} (h : ∀ result, outcome ≠ .returned result) :
    Inv now shutdown (session.finish outcome now) := by
  refine ⟨le_refl _, fun stream hstream => owner_finish _ _ _ hstream, ?_⟩
  intro result hresult
  exact absurd hresult (h result)

theorem endedAt_eq_none (h : session.outcome = none) : session.endedAt = none := by
  unfold outcome at h
  unfold endedAt
  split at h
  · cases h
  · rfl

end Session

/-! ## The child tasks beside the sessions -/

/-- The tasks are those of sessions, and a join is ready only when the body has ended. -/
def Tidy (sessions : Nat) (tasks : List (ChildTask Nat limit)) : Prop :=
  ∀ task ∈ tasks, task.tracker < sessions ∧ (task.finishedAt.isSome = true → task.bodyEnded = true)

theorem Tidy.mono {fewer more : Nat} {tasks : List (ChildTask Nat limit)} (h : Tidy fewer tasks)
    (hle : fewer ≤ more) : Tidy more tasks := by
  intro task hmem
  exact ⟨(h task hmem).1.trans_le hle, (h task hmem).2⟩

/-- A task stays with its session when it takes a step. -/
theorem Tidy.set {sessions task : Nat} {tasks : List (ChildTask Nat limit)}
    (h : Tidy sessions tasks) {found changed : ChildTask Nat limit}
    (hfound : tasks[task]? = some found)
    (htracker : changed.tracker = found.tracker)
    (hbody : changed.finishedAt.isSome = true → changed.bodyEnded = true) :
    Tidy sessions (tasks.set task changed) := by
  intro other hmem
  rcases List.mem_or_eq_of_mem_set hmem with hmem | rfl
  · exact h other hmem
  · rw [htracker]
    exact ⟨(h found (List.mem_of_getElem? hfound)).1, hbody⟩

/-- What a step of the child tasks does to the shutdown of one tracker. -/
inductive ShutdownMoves (label : ChildTaskLabel Nat limit) (number : Nat)
    (before : Option (Shutdown limit)) : Option (Shutdown limit) → Prop where
  | same : ShutdownMoves label number before before
  | closes {deadline : ShutdownDeadline limit} {owned : List Nat}
      (hlabel : label = .close number deadline) (hbefore : before = none) :
      ShutdownMoves label number before (some { deadline := deadline, stage := .closed owned })
  | steps {sd sd' : Shutdown limit} (hbefore : before = some sd)
      (hdeadline : sd'.deadline = sd.deadline)
      (hstage : ∀ completed, sd.stage ≠ .returned completed) :
      ShutdownMoves label number before (some sd')

/-- `shutdown` keeps the deadline it was called with, and after its return it takes no step. -/
theorem Shutdown.Steps.moves {now : Instant limit} {tasks : List (ChildTask Nat limit)}
    {sd sd' : Shutdown limit} (h : Shutdown.Steps now tasks sd sd') :
    sd'.deadline = sd.deadline ∧ ∀ completed, sd.stage ≠ .returned completed := by
  cases h with
  | readAbortAt hstage => exact ⟨rfl, by simp [hstage]⟩
  | joins hstage => exact ⟨rfl, by simp [hstage]⟩
  | elapses hstage => exact ⟨rfl, by simp [hstage]⟩
  | endsFirst hstage => exact ⟨rfl, by simp [hstage]⟩
  | aborts hstage => exact ⟨rfl, by simp [hstage]⟩
  | beginsFinal hstage => exact ⟨rfl, by simp [hstage]⟩
  | endsFinal hstage => exact ⟨rfl, by simp [hstage]⟩
  | defers hstage => exact ⟨rfl, by simp [hstage]⟩
  | returns hstage => exact ⟨rfl, by simp [hstage]⟩
  | drops hstage => exact ⟨rfl, by simp [hstage]⟩

namespace ChildTasks

variable {c c' : ChildTasks Nat limit} {label : ChildTaskLabel Nat limit}

/-- What a step of the child tasks leaves alone, and what it does to the shutdowns. -/
structure Moves (c : ChildTasks Nat limit) (label : ChildTaskLabel Nat limit)
    (c' : ChildTasks Nat limit) : Prop where
  le : c.now ≤ c'.now
  now : (∀ later, label ≠ .advance later) → c'.now = c.now
  tidy : ∀ sessions, Tidy sessions c.tasks → (∀ tracker, label = .spawn tracker →
    tracker < sessions) → Tidy sessions c'.tasks
  shutdowns : ∀ number,
    ShutdownMoves label number (c.trackers number).shutdown (c'.trackers number).shutdown

/-- A tracker is changed, and its shutdown with it. -/
theorem shutdownMoves_setTracker {tracker : Nat} {state : ChildTaskTracker limit}
    (h : ShutdownMoves label tracker (c.trackers tracker).shutdown state.shutdown) (number : Nat) :
    ShutdownMoves label number (c.trackers number).shutdown
      ((c.setTracker tracker state).trackers number).shutdown := by
  show ShutdownMoves label number (c.trackers number).shutdown
    (Function.update c.trackers tracker state number).shutdown
  by_cases heq : number = tracker
  · subst heq
    rw [Function.update_self]
    exact h
  · rw [Function.update_of_ne heq]
    exact .same

/-- Each step of the child tasks is one of `Moves`. -/
theorem moves_of_step (h : c.step label = some c') : Moves c label c' := by
  cases label with
  | advance later =>
      simp only [step] at h
      split_ifs at h with hle
      obtain rfl := Option.some.inj h
      exact ⟨hle, fun hnot => absurd rfl (hnot later), fun _ htidy _ => htidy, fun _ => .same⟩
  | spawn tracker =>
      simp only [step] at h
      split at h
      · obtain rfl := Option.some.inj h
        cases hclosed : (c.trackers tracker).closed with
        | true =>
            -- a closed tracker drops the task
            rw [spawn_of_closed hclosed]
            exact ⟨le_refl _, fun _ => rfl, fun _ htidy _ => htidy, fun _ => .same⟩
        | false =>
            rw [ChildTasks.spawn, hclosed, if_neg Bool.false_ne_true]
            refine ⟨le_refl _, fun _ => rfl, ?_, ?_⟩
            · intro sessions htidy hown task hmem
              rcases List.mem_append.mp hmem with hmem | hmem
              · exact htidy task hmem
              · obtain rfl := List.mem_singleton.mp hmem
                refine ⟨hown tracker rfl, ?_⟩
                intro hfinished
                cases hfinished
            · intro number
              apply shutdownMoves_setTracker
              exact .same
      · cases h
  | push tracker =>
      simp only [step] at h
      split at h
      · obtain rfl := Option.some.inj h
        refine ⟨le_refl _, fun _ => rfl, fun _ htidy _ => htidy, ?_⟩
        intro number
        apply shutdownMoves_setTracker
        exact .same
      · cases h
  | bodyEnds task =>
      simp only [step] at h
      split at h
      · rename_i found hfound
        split_ifs at h with hruns
        obtain rfl := Option.some.inj h
        refine ⟨le_refl _, fun _ => rfl, ?_, fun _ => .same⟩
        intro sessions htidy _
        exact htidy.set hfound rfl fun _ => rfl
      · cases h
  | finishes task =>
      simp only [step] at h
      split at h
      · rename_i found hfound
        split_ifs at h with hready
        obtain rfl := Option.some.inj h
        refine ⟨le_refl _, fun _ => rfl, ?_, fun _ => .same⟩
        intro sessions htidy _
        exact htidy.set hfound rfl fun _ => hready.1
      · cases h
  | close tracker deadline =>
      -- the only step that begins a shutdown
      simp only [step] at h
      split_ifs at h with hfree
      obtain rfl := Option.some.inj h
      exact ⟨le_refl _, fun _ => rfl, fun _ htidy _ => htidy,
        fun number => shutdownMoves_setTracker (.closes rfl hfree.2) number⟩
  | shutdown tracker label =>
      simp only [step] at h
      split at h
      · rename_i sd hsd
        rcases Option.map_eq_some_iff.mp h with ⟨sd', hsd', rfl⟩
        have hmoves := (Shutdown.steps_of_step hsd').moves
        refine ⟨le_refl _, fun _ => rfl, fun _ htidy _ => htidy, ?_⟩
        intro number
        exact shutdownMoves_setTracker (.steps hsd hmoves.1 hmoves.2) number
      · cases h

end ChildTasks

namespace Session

variable {now : Instant limit} {label : ChildTaskLabel Nat limit} {number : Nat}
  {before after : Option (Shutdown limit)} {session : Session π limit}

/-- A shutdown that goes on is one that the session waits for. -/
theorem Inv.moves (h : Inv now before session) (hmoves : ShutdownMoves label number before after)
    (hclose : ∀ deadline, label = .close number deadline → session.closes = some deadline) :
    Inv now after session := by
  cases hmoves with
  | same => exact h
  | @closes deadline owned hlabel hbefore =>
      -- it is called in the two stages that wait for it
      have hdeadline := hclose deadline hlabel
      have hclosed : ClosedBy (some { deadline := deadline, stage := .closed owned }) deadline := by
        intro sd hsd
        obtain rfl := Option.some.inj hsd
        rfl
      cases hstage : session.stage with
      | closing operation other =>
          simp only [closes, hstage] at hdeadline
          obtain rfl := Option.some.inj hdeadline
          simp only [Inv, hstage] at h ⊢
          exact ⟨h.1, hclosed⟩
      | joining other disconnected completed =>
          simp only [closes, hstage] at hdeadline
          obtain rfl := Option.some.inj hdeadline
          simp only [Inv, hstage] at h ⊢
          exact ⟨h.1, hclosed, h.2.2⟩
      | starting => simp [closes, hstage] at hdeadline
      | running => simp [closes, hstage] at hdeadline
      | disconnecting => simp [closes, hstage] at hdeadline
      | ended => simp [closes, hstage] at hdeadline
  | @steps sd sd' hbefore hdeadline hlive =>
      have hkeeps : ∀ deadline, ClosedBy before deadline → ClosedBy (some sd') deadline := by
        intro deadline hclosed other hother
        obtain rfl := Option.some.inj hother
        exact hdeadline.trans (hclosed sd hbefore)
      -- and goes on in those and in an ended session
      have hsome : before ≠ none := by simp [hbefore]
      cases hstage : session.stage with
      | starting =>
          simp only [Inv, hstage] at h
          exact absurd h.2 hsome
      | running =>
          simp only [Inv, hstage] at h
          exact absurd h.2 hsome
      | disconnecting =>
          simp only [Inv, hstage] at h
          exact absurd h.2 hsome
      | closing =>
          simp only [Inv, hstage] at h ⊢
          exact ⟨h.1, hkeeps _ h.2⟩
      | joining =>
          simp only [Inv, hstage] at h ⊢
          exact ⟨h.1, hkeeps _ h.2.1, h.2.2⟩
      | ended =>
          simp only [Inv, hstage] at h ⊢
          refine ⟨h.1, h.2.1, ?_⟩
          intro result hresult
          rcases h.2.2 result hresult with ⟨other, completed, hother, hreturned, -⟩
          obtain rfl := Option.some.inj (hbefore.symm.trans hother)
          exact absurd hreturned (hlive completed)

end Session

/-! ## What every step keeps -/

theorem shutdownRequested_isSome {cancellation : Cancellation limit} {now : Instant limit} :
    (shutdownRequested cancellation now).isSome = true ↔
      cancellation.value.isSome = true ∨ cancellation.senderDropped = true := by
  unfold shutdownRequested
  cases cancellation.value with
  | some deadline => simp
  | none => simp

/-- A shutdown that has left tasks behind has waited up to its deadline. -/
theorem Shutdown.Inv.overdue {now : Instant limit} {tasks : List (ChildTask Nat limit)}
    {sd : Shutdown limit} (h : sd.Inv now tasks) (hreturned : sd.stage = .returned false) :
    sd.deadline.at_ ≤ now := by
  have hknown := h.stage
  simp only [Shutdown.StageInv, hreturned] at hknown
  have hhanded : sd.handed ≠ [] := by
    intro hempty
    have hcompleted := hknown.1.mpr hempty
    cases hcompleted
  rcases List.exists_mem_of_ne_nil _ hhanded with ⟨task, hmem⟩
  exact (hknown.2 task hmem).1

namespace SshServer

variable {s s' : SshServer π limit}

structure Inv (s : SshServer π limit) : Prop where
  children : s.children.Inv
  tidy : Tidy s.sessions.length s.children.tasks
  fresh : ∀ number, s.sessions.length ≤ number → (s.children.trackers number).shutdown = none
  loop : s.loop.Inv (policy limit) s.world
  spawned : s.loop.spawned = s.sessions.length
  sessions : ∀ number (session : Session π limit), s.sessions[number]? = some session →
    session.Inv s.now (s.children.trackers number).shutdown
  error : s.sessionError =
    s.loop.joined.findSome? fun number => (s.outcome number).bind SessionOutcome.error
  accept : s.loop.stage = .failed → s.acceptError.isSome = true

/-- The loop sees a task as ended when its session has an outcome. -/
theorem ended_isSome (s : SshServer π limit) (number : Nat) :
    (s.world.ended number).isSome = (s.outcome number).isSome := by
  show (s.sessions[number]?.bind Session.endedAt).isSome =
    (s.sessions[number]?.bind Session.outcome).isSome
  cases s.sessions[number]? with
  | none => rfl
  | some session =>
      show session.endedAt.isSome = session.outcome.isSome
      unfold Session.endedAt Session.outcome
      cases session.stage with
      | ended => rfl
      | starting | closing | running | disconnecting | joining => rfl

/-- The outcomes that the loop has seen stay, and so does the first error. -/
theorem error_eq (h : s.Inv)
    (hsame : ∀ number, (s.outcome number).isSome = true → s'.outcome number = s.outcome number) :
    (s.loop.joined.findSome? fun number => (s'.outcome number).bind SessionOutcome.error) =
      s.sessionError := by
  rw [h.error]
  have hjoins := h.loop.joins
  generalize s.loop.joined = joined at hjoins ⊢
  induction joined with
  | nil => rfl
  | cons number rest ih =>
      have hended := hjoins number List.mem_cons_self
      rw [ended_isSome] at hended
      rw [List.findSome?_cons, List.findSome?_cons, hsame number hended]
      rw [ih fun other hmem => hjoins other (List.mem_cons_of_mem _ hmem)]

/-- The child tasks take a step, and no session does. -/
theorem children_inv (h : s.Inv) {label : ChildTaskLabel Nat limit}
    {children : ChildTasks Nat limit} (hstep : s.children.step label = some children)
    (hspawn : ∀ tracker, label = .spawn tracker → tracker < s.sessions.length)
    (hclose : ∀ tracker deadline, label = .close tracker deadline →
      s.sessions[tracker]?.bind Session.closes = some deadline) :
    ({ s with children := children } : SshServer π limit).Inv := by
  have hmoves := ChildTasks.moves_of_step hstep
  refine ⟨ChildTasks.step_inv hstep h.children, ?_, ?_, ?_, h.spawned, ?_, h.error, h.accept⟩
  · exact hmoves.tidy _ h.tidy hspawn
  · -- `close` is for sessions that exist
    intro number hfresh
    have hnone := h.fresh number hfresh
    have hmove := hmoves.shutdowns number
    rw [hnone] at hmove
    generalize (children.trackers number).shutdown = after at hmove
    cases hmove with
    | same => rfl
    | closes hlabel =>
        have hsome := hclose _ _ hlabel
        rw [List.getElem?_eq_none hfresh] at hsome
        cases hsome
    | steps hbefore => cases hbefore
  · apply h.loop.evolves
    refine ⟨hmoves.le, ?_, fun number => .inl rfl⟩
    intro hrequest
    exact shutdownRequested_isSome.mpr (shutdownRequested_isSome.mp hrequest)
  · intro number session hsession
    have hknown := (h.sessions number session hsession).advance hmoves.le
    apply hknown.moves (hmoves.shutdowns number)
    intro deadline hlabel
    have hsome := hclose number deadline hlabel
    rwa [hsession] at hsome

/-- A session is changed, which had not ended or has the same stage as before. -/
theorem session_inv (h : s.Inv) {number : Nat} {session session' : Session π limit}
    (hsession : s.sessions[number]? = some session)
    (hinv : session'.Inv s.now (s.children.trackers number).shutdown)
    (hended : session'.stage = session.stage ∨ session.outcome = none ∧ session.endedAt = none ∧
      (session'.endedAt = none ∨ session'.endedAt = some s.now)) :
    ({ s with sessions := s.sessions.set number session' } : SshServer π limit).Inv := by
  have hlt := (List.getElem?_eq_some_iff.mp hsession).1
  have hget : ∀ other, (s.sessions.set number session')[other]? =
      if other = number then some session' else s.sessions[other]? := by
    intro other
    rw [List.getElem?_set]
    by_cases heq : number = other
    · subst heq
      rw [if_pos rfl, if_pos hlt, if_pos rfl]
    · rw [if_neg heq, if_neg (Ne.symm heq)]
  refine ⟨h.children, ?_, ?_, ?_, ?_, ?_, ?_, h.accept⟩
  · rw [List.length_set]
    exact h.tidy
  · intro other hfresh
    rw [List.length_set] at hfresh
    exact h.fresh other hfresh
  · apply h.loop.evolves
    refine ⟨le_refl _, id, fun other => ?_⟩
    show (s.sessions.set number session')[other]?.bind Session.endedAt =
        s.sessions[other]?.bind Session.endedAt ∨
      s.sessions[other]?.bind Session.endedAt = none ∧
        (s.sessions.set number session')[other]?.bind Session.endedAt = some s.now
    rw [hget]
    by_cases heq : other = number
    · subst heq
      rw [if_pos rfl, hsession]
      -- it ends now, if it ends
      show session'.endedAt = session.endedAt ∨
        session.endedAt = none ∧ session'.endedAt = some s.now
      rcases hended with hstage | ⟨-, hnone, hlater | hlater⟩
      · exact .inl (by rw [Session.endedAt, Session.endedAt, hstage])
      · exact .inl (by rw [hnone, hlater])
      · exact .inr ⟨hnone, hlater⟩
    · rw [if_neg heq]
      exact .inl rfl
  · rw [List.length_set]
    exact h.spawned
  · intro other found hfound
    rw [hget] at hfound
    split_ifs at hfound with heq
    · subst heq
      obtain rfl := Option.some.inj hfound
      exact hinv
    · exact h.sessions other found hfound
  · refine (error_eq h ?_).symm
    intro other hsome
    show (s.sessions.set number session')[other]?.bind Session.outcome =
      s.sessions[other]?.bind Session.outcome
    rw [hget]
    by_cases heq : other = number
    · subst heq
      rw [if_pos rfl, hsession]
      show session'.outcome = session.outcome
      rcases hended with hstage | ⟨hnone, -⟩
      · rw [Session.outcome, Session.outcome, hstage]
      · -- an outcome that the loop has seen was there before
        have hsome' : session.outcome.isSome = true := by
          rwa [SshServer.outcome, hsession] at hsome
        rw [hnone] at hsome'
        cases hsome'
    · rw [if_neg heq]

/-- A step of the loop that accepts nothing. -/
theorem loop_inv (h : s.Inv) {label : AcceptLabel limit}
    {loop : AcceptLoop (ShutdownDeadline limit) limit} {acceptError : Option FixtureIoError}
    (hstep : AcceptLoop.Steps (policy limit) s.world s.loop label loop) (hlabel : label ≠ .accepts)
    (haccept : loop.stage = .failed → acceptError.isSome = true) :
    ({ s with loop := loop, sessionError := s.errorAfter label, acceptError := acceptError } :
      SshServer π limit).Inv := by
  have hspawned : loop.spawned = s.loop.spawned ∧
      (loop.joined = s.loop.joined ∧ s.errorAfter label = s.sessionError ∨
        ∃ number, label = .joins number ∧ number ∈ s.loop.live ∧
          (s.world.ended number).isSome = true ∧ loop.joined = s.loop.joined ++ [number]) := by
    cases hstep with
    | accepts => exact absurd rfl hlabel
    | joins hlive hended => exact ⟨rfl, .inr ⟨_, rfl, hlive, hended, rfl⟩⟩
    | drainJoins hlive hended => exact ⟨rfl, .inr ⟨_, rfl, hlive, hended, rfl⟩⟩
    | fallbackJoins hlive hended => exact ⟨rfl, .inr ⟨_, rfl, hlive, hended, rfl⟩⟩
    | polls | drains | stops | breaks | fails | pends => exact ⟨rfl, .inl ⟨rfl, rfl⟩⟩
    | elapses | hands | aborts | drained | closes => exact ⟨rfl, .inl ⟨rfl, rfl⟩⟩
  refine ⟨h.children, h.tidy, h.fresh, h.loop.step hstep, ?_, h.sessions, ?_, haccept⟩
  · exact hspawned.1.trans h.spawned
  · show s.errorAfter label =
      loop.joined.findSome? fun number => (s.outcome number).bind SessionOutcome.error
    -- a join records the error when it is the first
    rcases hspawned.2 with ⟨hjoined, herror⟩ | ⟨number, rfl, hlive, hended, hjoined⟩
    · rw [hjoined, herror]
      exact h.error
    · rw [ended_isSome] at hended
      rcases Option.isSome_iff_exists.mp hended with ⟨outcome, houtcome⟩
      rw [hjoined, List.findSome?_append, ← h.error]
      simp [errorAfter, houtcome, recordSessionResult, List.findSome?_cons]
      cases outcome.error with
      | none => rfl
      | some error => rfl

/-- A connection is accepted: its session is the next number, and has no shutdown. -/
theorem accepts_inv (h : s.Inv) {loop : AcceptLoop (ShutdownDeadline limit) limit} {peer : π}
    (hstep : AcceptLoop.Steps (policy limit) s.world s.loop .accepts loop) :
    ({ s with loop := loop, sessions := s.sessions ++ [{ peer := peer }] } :
      SshServer π limit).Inv := by
  have hget : ∀ number, s.sessions.length ≠ number →
      (s.sessions ++ [({ peer := peer } : Session π limit)])[number]? = s.sessions[number]? := by
    intro number hne
    rcases Nat.lt_or_gt_of_ne hne with hlt | hgt
    · rw [List.getElem?_eq_none hlt.le, List.getElem?_eq_none]
      rw [List.length_append, List.length_singleton]
      omega
    · exact List.getElem?_append_left hgt
  have hnew : (s.sessions ++ [({ peer := peer } : Session π limit)])[s.sessions.length]? =
      some { peer := peer } := by simp
  -- its task has not ended, as before when it was not there
  have hworld : AcceptLoop.Evolves s.world
      ({ s with sessions := s.sessions ++ [{ peer := peer }] } : SshServer π limit).world := by
    refine ⟨le_refl _, id, fun number => .inl ?_⟩
    show (s.sessions ++ [({ peer := peer } : Session π limit)])[number]?.bind Session.endedAt =
      s.sessions[number]?.bind Session.endedAt
    by_cases heq : s.sessions.length = number
    · subst heq
      rw [hnew, List.getElem?_eq_none (le_refl _)]
      rfl
    · rw [hget number heq]
  have hloop := (h.loop.step hstep).evolves hworld
  cases hstep with
  | accepts hstage =>
      refine ⟨h.children, ?_, ?_, hloop, ?_, ?_, ?_, nofun⟩
      · apply h.tidy.mono
        rw [List.length_append]
        omega
      · intro number hfresh
        rw [List.length_append, List.length_singleton] at hfresh
        exact h.fresh number (by omega)
      · show s.loop.spawned + 1 = (s.sessions ++ [({ peer := peer } : Session π limit)]).length
        rw [List.length_append, List.length_singleton, h.spawned]
      · intro number session hsession
        by_cases heq : s.sessions.length = number
        · subst heq
          rw [hnew] at hsession
          obtain rfl := Option.some.inj hsession
          exact ⟨rfl, h.fresh _ (le_refl _)⟩
        · rw [hget number heq] at hsession
          exact h.sessions number session hsession
      · refine (error_eq h ?_).symm
        intro number hsome
        show (s.sessions ++ [({ peer := peer } : Session π limit)])[number]?.bind Session.outcome =
          s.sessions[number]?.bind Session.outcome
        apply congrArg (Option.bind · Session.outcome)
        apply hget
        intro heq
        rw [SshServer.outcome, ← heq, List.getElem?_eq_none (le_refl _)] at hsome
        cases hsome

theorem request_inv (h : s.Inv) {cancellation : Cancellation limit}
    (hrequest : cancellation.value.isSome = true ∨ cancellation.senderDropped = true) :
    ({ s with cancellation := cancellation } : SshServer π limit).Inv := by
  refine ⟨h.children, h.tidy, h.fresh, ?_, h.spawned, h.sessions, h.error, h.accept⟩
  apply h.loop.evolves
  exact ⟨le_refl _, fun _ => shutdownRequested_isSome.mpr hrequest, fun number => .inl rfl⟩

theorem dropShutdown_eq_some {number : Nat} {children : ChildTasks Nat limit}
    (h : s.dropShutdown number = some children) :
    children = s.children ∨ s.children.step (.shutdown number .drops) = some children := by
  unfold dropShutdown at h
  split at h
  · exact .inl (Option.some.inj h).symm
  · split at h
    · exact .inl (Option.some.inj h).symm
    · exact .inr h

/-- Each step of the server keeps the invariant. -/
theorem step_inv {label : SshServerLabel π limit} (h : s.step label = some s') (hinv : s.Inv) :
    s'.Inv := by
  cases label with
  | advance later =>
      rcases Option.map_eq_some_iff.mp h with ⟨children, hstep, rfl⟩
      exact children_inv hinv hstep nofun nofun
  | requests deadline =>
      obtain rfl := Option.some.inj h
      exact request_inv hinv (.inl rfl)
  | dropsSender =>
      obtain rfl := Option.some.inj h
      exact request_inv hinv (.inr rfl)
  | accepts peer =>
      rcases Option.map_eq_some_iff.mp h with ⟨loop, hstep, rfl⟩
      exact accepts_inv hinv (AcceptLoop.steps_of_step hstep)
  | acceptFails source =>
      rcases Option.map_eq_some_iff.mp h with ⟨loop, hstep, rfl⟩
      exact loop_inv hinv (AcceptLoop.steps_of_step hstep) (by simp) fun _ => rfl
  | loop label =>
      simp only [step] at h
      split_ifs at h with hother
      rcases Option.map_eq_some_iff.mp h with ⟨loop, hstep, rfl⟩
      have hsteps := AcceptLoop.steps_of_step hstep
      -- `accepts` and `acceptFails` are steps of the server
      apply loop_inv hinv hsteps fun hlabel => hother (.inl hlabel)
      intro hfailed
      cases hsteps with
      | fails => exact absurd (.inr rfl) hother
      | joins | drainJoins | fallbackJoins => cases hfailed
      | polls | drains | stops | accepts | breaks | pends | elapses | hands | aborts | drained
        | closes => cases hfailed
  | session number label =>
      rcases Option.bind_eq_some_iff.mp h with ⟨session, hsession, hmap⟩
      rcases Option.map_eq_some_iff.mp hmap with ⟨session', hstep, rfl⟩
      have hsteps := Session.steps_of_step hstep
      apply session_inv hinv hsession _ hsteps.ended
      apply (hinv.sessions number session hsession).step _ hsteps
      intro sd hsd hreturned
      exact ((hinv.children.trackers number).shutdown sd hsd).overdue hreturned
  | drops number panicked =>
      rcases Option.bind_eq_some_iff.mp h with ⟨session, hsession, hdrop⟩
      split at hdrop
      · rename_i hguard
        rcases Option.map_eq_some_iff.mp hdrop with ⟨children, hchildren, rfl⟩
        -- the shutdown is dropped first, then the session ends
        have hrest : ({ s with children := children } : SshServer π limit).Inv ∧
            children.now = s.now := by
          rcases dropShutdown_eq_some hchildren with rfl | hstep
          · exact ⟨hinv, rfl⟩
          · exact ⟨children_inv hinv hstep nofun nofun,
              (ChildTasks.moves_of_step hstep).now nofun⟩
        rw [← hrest.2]
        apply session_inv hrest.1 hsession
        · apply Session.finish_inv
          split_ifs
          · simp
          · simp
        · rw [Option.isNone_iff_eq_none] at hguard
          exact .inr ⟨hguard.1, Session.endedAt_eq_none hguard.1, .inr rfl⟩
      · cases hdrop
  | child label =>
      simp only [step] at h
      split_ifs at h with hown
      rcases Option.map_eq_some_iff.mp h with ⟨children, hstep, rfl⟩
      apply children_inv hinv hstep
      · intro tracker hlabel
        subst hlabel
        simpa [ownLabel] using hown
      · intro tracker deadline hlabel
        subst hlabel
        simpa [ownLabel] using hown

end SshServer

/-! ## What the result means -/

namespace SshServer

variable {s s' : SshServer π limit}

theorem start_inv (now : Instant limit) :
    ({ children := { now } } : SshServer π limit).Inv := by
  refine ⟨ChildTasks.start_inv now, nofun, fun _ _ => rfl, AcceptLoop.start_inv _ _, rfl, ?_, rfl,
    nofun⟩
  intro number session hsession
  cases hsession

theorem inv_of_run {now : Instant limit} {trace : List (SshServerLabel π limit)}
    (hrun : (sshServer π limit).run { children := { now } } trace = some s) : s.Inv := by
  have hstep : ∀ (before : SshServer π limit) label after,
      (sshServer π limit).step before label = some after → before.Inv → after.Inv := by
    intro before label after hstep hbefore
    exact step_inv hstep hbefore
  exact Machine.run_invariant hstep hrun (start_inv now)

/-- A session that has returned a success: its stream is complete, if it had one, all its child
tasks are joined, and it starts no others. -/
structure Served (s : SshServer π limit) (number : Nat) (session : Session π limit) : Prop where
  outcome : session.outcome = some (.returned (.ok ()))
  stream : session.Owned .complete
  children : ∃ sd, (s.children.trackers number).shutdown = some sd ∧
    ShutDown s.children number sd true
  closed : s.children.spawn number = (none, s.children)

/-- What is the case when the loop has returned. -/
inductive AcceptReport (s : SshServer π limit) : Except SshFixtureError Unit → Prop where
  | ok (joined : s.loop.joined.Perm (List.range s.sessions.length))
      (served : ∀ number session, s.sessions[number]? = some session → s.Served number session)
      (active : s.children.active = 0) : AcceptReport s (.ok ())
  /-- The error is that of the session that was joined first of those with one. -/
  | session {before after : List Nat} {number : Nat} {error : SshFixtureError}
      (joined : s.loop.joined.Perm (List.range s.sessions.length))
      (split : s.loop.joined = before ++ number :: after)
      (healthy : ∀ other ∈ before, s.outcome other = some (.returned (.ok ())))
      (error_eq : (s.outcome number).bind SessionOutcome.error = some error) :
      AcceptReport s (.error error)
  /-- Some sessions had not ended by the deadline. They were aborted, and those of them that were
  not joined after all are with the reaper. -/
  | drain {deadline : ShutdownDeadline limit}
      (places : (s.loop.joined ++ s.loop.handed).Perm (List.range s.sessions.length))
      (aborted : s.loop.aborted ≠ [] ∧
        ∀ number ∈ s.loop.aborted, AcceptLoop.Late s.world deadline.at_ number)
      (handed : s.loop.handed ⊆ s.loop.aborted) :
      AcceptReport s (.error (shutdownTimeout "session drain" deadline))
  | accept {source : FixtureIoError}
      (places : (s.loop.joined ++ s.loop.aborted).Perm (List.range s.sessions.length)) :
      AcceptReport s (.error (.io "accept failed" source))

/-- A session that has returned a success is served. -/
theorem served (h : s.Inv) {number : Nat} {session : Session π limit}
    (hsession : s.sessions[number]? = some session)
    (houtcome : session.outcome = some (.returned (.ok ()))) : s.Served number session := by
  have hknown := h.sessions number session hsession
  have htracker := h.children.trackers number
  cases hstage : session.stage with
  | ended outcome at_ =>
      simp only [Session.Inv, hstage] at hknown
      simp only [Session.outcome, hstage, Option.some.injEq] at houtcome
      rcases hknown.2.2 _ houtcome with ⟨sd, completed, hsd, hreturned, hok | ⟨_, herror, -⟩⟩
      · rcases hok with ⟨-, rfl, howned⟩
        refine ⟨?_, howned, ⟨sd, hsd, htracker.shutDown hsd hreturned⟩, ?_⟩
        · rw [Session.outcome, hstage, houtcome]
        · apply ChildTasks.spawn_of_closed
          rw [htracker.closed, hsd]
          rfl
      · cases herror
  | starting | closing | running | disconnecting | joining =>
      -- it has no outcome
      simp [Session.outcome, hstage] at houtcome

/-- When all sessions have been served, no child task is left. -/
theorem active_eq_zero (h : s.Inv)
    (hall : ∀ number session, s.sessions[number]? = some session → s.Served number session) :
    s.children.active = 0 := by
  rw [h.children.active, List.countP_eq_zero]
  intro task hmem
  rcases h.tidy task hmem with ⟨htracker, hbody⟩
  rcases hall _ _ (List.getElem?_eq_getElem htracker) with ⟨-, -, ⟨sd, hsd, hshut⟩, -⟩
  rcases List.getElem?_of_mem hmem with ⟨index, hindex⟩
  have haccepted : index ∈ acceptedTasks s.children.tasks task.tracker := by
    apply List.mem_filter.mpr
    refine ⟨List.mem_range.mpr (List.getElem?_eq_some_iff.mp hindex).1, ?_⟩
    rw [hindex]
    simp
  rcases List.mem_map.mp (hshut.completed_iff.mp rfl index haccepted) with ⟨join, hjoin, rfl⟩
  rcases hshut.joins join hjoin with ⟨finished, hfinished, -⟩
  rw [finishedAt, hindex] at hfinished
  simp [hbody (Option.isSome_iff_exists.mpr ⟨finished, hfinished⟩)]

theorem outcome_eq_ok {outcome : SessionOutcome} (h : outcome.error = none) :
    outcome = .returned (.ok ()) := by
  unfold SessionOutcome.error at h
  split at h
  · rfl
  · cases h
  · cases h
  · cases h

/-- The tasks that were joined before the first error have returned a success. -/
theorem healthy (h : s.Inv) {number : Nat} (hmem : number ∈ s.loop.joined)
    (hnone : (s.outcome number).bind SessionOutcome.error = none) :
    s.outcome number = some (.returned (.ok ())) := by
  have hended := h.loop.joins number hmem
  rw [ended_isSome] at hended
  rcases Option.isSome_iff_exists.mp hended with ⟨outcome, houtcome⟩
  rw [houtcome] at hnone ⊢
  rw [outcome_eq_ok hnone]

/-- What the loop has returned is true of all sessions. -/
theorem report (h : s.Inv) {result : Except SshFixtureError Unit}
    (hresult : s.result = some result) : AcceptReport s result := by
  have hplaces := h.loop.places
  have hknown := h.loop.stage
  rw [h.spawned] at hplaces
  unfold SshServer.result at hresult
  split at hresult
  · rename_i stop hstage
    -- all tasks are joined
    simp only [AcceptLoop.StageInv, hstage] at hknown
    rcases hknown with ⟨hlive, -, hhanded, hdetached⟩
    rw [hlive, hhanded, hdetached, List.append_nil, List.append_nil, List.append_nil] at hplaces
    have herror := h.error
    cases hfirst : s.sessionError with
    | none =>
        rw [hfirst, eq_comm, List.findSome?_eq_none_iff] at herror
        rw [hfirst] at hresult
        obtain rfl := Option.some.inj hresult
        -- and none of them had an error
        have hall : ∀ number session, s.sessions[number]? = some session →
            s.Served number session := by
          intro number session hsession
          have hlt := (List.getElem?_eq_some_iff.mp hsession).1
          have hmem := hplaces.symm.subset (List.mem_range.mpr hlt)
          have houtcome := healthy h hmem (herror number hmem)
          rw [SshServer.outcome, hsession] at houtcome
          exact served h hsession houtcome
        exact .ok hplaces hall (active_eq_zero h hall)
    | some error =>
        rw [hfirst, eq_comm, List.findSome?_eq_some_iff] at herror
        rw [hfirst] at hresult
        obtain rfl := Option.some.inj hresult
        rcases herror with ⟨before, number, after, hsplit, herror, hbefore⟩
        refine .session hplaces hsplit ?_ herror
        intro other hmem
        apply healthy h _ (hbefore other hmem)
        rw [hsplit]
        exact List.mem_append_left _ hmem
  · rename_i deadline hstage
    obtain rfl := Option.some.inj hresult
    simp only [AcceptLoop.StageInv, hstage] at hknown
    -- some were aborted at the deadline
    rcases hknown with ⟨hlive, hdetached, hoverdue, hsubset⟩
    rw [hlive, hdetached, List.append_nil, List.append_nil] at hplaces
    exact .drain hplaces (hoverdue.late deadline deadline.at_ rfl rfl) hsubset
  · rename_i hstage
    rcases Option.map_eq_some_iff.mp hresult with ⟨source, -, rfl⟩
    simp only [AcceptLoop.StageInv, hstage] at hknown
    -- the `JoinSet` was dropped with those that were live
    rcases hknown with ⟨-, hlive, hhanded, haborted⟩
    rw [hlive, hhanded, List.append_nil, List.append_nil, ← haborted] at hplaces
    exact .accept hplaces
  · cases hresult

end SshServer

/-- In every run of the server: at most one connection is accepted after the request to stop, each
session is in one place, an ended one has no stream any more and has returned for a reason, and the
result of the loop says what has become of all of them. -/
theorem accept_loop {now : Instant limit} {trace : List (SshServerLabel π limit)}
    {s : SshServer π limit}
    (hrun : (sshServer π limit).run { children := { now } } trace = some s) :
    s.loop.late ≤ 1 ∧
    (s.loop.joined ++ s.loop.live ++ s.loop.handed ++ s.loop.detached).Perm
      (List.range s.sessions.length) ∧
    (∀ number (session : Session π limit) outcome at_, s.sessions[number]? = some session →
      session.stage = .ended outcome at_ →
        (∀ stream, session.stream = some stream → stream.owner ≠ .session) ∧
        ∀ result, outcome = .returned result →
          session.Returned (s.children.trackers number).shutdown at_ result) ∧
    ∀ result, s.result = some result → s.AcceptReport result := by
  have hinv := SshServer.inv_of_run hrun
  refine ⟨hinv.loop.late_le, ?_, ?_, fun result => SshServer.report hinv⟩
  · rw [← hinv.spawned]
    exact hinv.loop.places
  · intro number session outcome at_ hsession hstage
    have hknown := hinv.sessions number session hsession
    simp only [Session.Inv, hstage] at hknown
    exact hknown.2

/-! ## The end of the loop -/

namespace SshServer

variable {s s' : SshServer π limit}

/-- The steps of the loop but the look for a request. -/
def ofLoop : SshServerLabel π limit → Prop
  | .accepts _ | .acceptFails _ => True
  | .loop label => label ≠ .polls
  | _ => False

/-- The loop waits, before the end of its time, for sessions of which none has ended. -/
def Waits (s : SshServer π limit) : Prop :=
  ∃ upTo, s.loop.waitsUpTo = some upTo ∧ s.now < upTo ∧ s.loop.live ≠ [] ∧
    ∀ number ∈ s.loop.live, s.outcome number = none

/-- A step of the loop brings it closer to its end. -/
theorem rank_lt {label : SshServerLabel π limit} (hown : ofLoop label)
    (h : s.step label = some s') : s'.loop.rank < s.loop.rank := by
  cases label with
  | accepts peer =>
      rcases Option.map_eq_some_iff.mp h with ⟨loop, hstep, rfl⟩
      exact (AcceptLoop.steps_of_step hstep).rank_lt (by simp)
  | acceptFails source =>
      rcases Option.map_eq_some_iff.mp h with ⟨loop, hstep, rfl⟩
      exact (AcceptLoop.steps_of_step hstep).rank_lt (by simp)
  | loop label =>
      simp only [step] at h
      split_ifs at h
      rcases Option.map_eq_some_iff.mp h with ⟨loop, hstep, rfl⟩
      exact (AcceptLoop.steps_of_step hstep).rank_lt hown
  | advance | requests | dropsSender | session | drops | child => cases hown

/-- The loop does not take the request back. -/
theorem request_step {label : SshServerLabel π limit} (hown : ofLoop label)
    (h : s.step label = some s') (hrequest : s.request.isSome = true) :
    s'.request.isSome = true := by
  cases label with
  | accepts peer =>
      rcases Option.map_eq_some_iff.mp h with ⟨loop, -, rfl⟩
      exact hrequest
  | acceptFails source =>
      rcases Option.map_eq_some_iff.mp h with ⟨loop, -, rfl⟩
      exact hrequest
  | loop label =>
      simp only [step] at h
      split_ifs at h
      rcases Option.map_eq_some_iff.mp h with ⟨loop, -, rfl⟩
      exact hrequest
  | advance | requests | dropsSender | session | drops | child => cases hown

/-- A loop that has ended has a result. -/
theorem result_isSome (h : s.Inv) (hended : s.loop.hasEnded = true) : s.result.isSome = true := by
  have hknown := h.loop.stage
  unfold SshServer.result
  cases hstage : s.loop.stage with
  | drained stop => rfl
  | closed stop =>
      simp only [AcceptLoop.StageInv, hstage] at hknown
      cases stop with
      -- without a deadline the drain does not break off
      | none => exact absurd (hknown.2.2.1.broken rfl) Bool.false_ne_true
      | some deadline => rfl
  | failed =>
      rcases Option.isSome_iff_exists.mp (h.accept hstage) with ⟨source, hsource⟩
      rw [hsource]
      rfl
  | selecting | polled | draining | aborting | fallback =>
      rw [AcceptLoop.hasEnded, hstage] at hended
      cases hended

/-- A loop that can take no step has its result, or waits. -/
theorem result_or_waits (h : s.Inv) (hrequest : s.request.isSome = true)
    (hquiet : (sshServer π limit).Quiet ofLoop s) : s.result.isSome = true ∨ s.Waits := by
  have hstuck : ∀ label : AcceptLabel limit, label.listens = false →
      s.loop.step (policy limit) s.world label = none := by
    intro label hlistens
    have hlabel : ¬(label = .accepts ∨ label = .acceptFails) := by
      rintro (rfl | rfl)
      · cases hlistens
      · cases hlistens
    have hpolls : label ≠ .polls := by
      intro heq
      rw [heq] at hlistens
      cases hlistens
    have hnone := hquiet (.loop label) hpolls
    simp only [sshServer, step, if_neg hlabel, Option.map_eq_none_iff] at hnone
    exact hnone
  -- the two steps that listen are not needed here
  rcases AcceptLoop.ended_or_waits hrequest hstuck with hended | ⟨upTo, hupTo, hnow, hlive, hnone⟩
  · exact .inl (result_isSome h hended)
  · refine .inr ⟨upTo, hupTo, hnow, hlive, ?_⟩
    intro number hmem
    have hsame := ended_isSome s number
    rw [hnone number hmem] at hsame
    exact Option.not_isSome_iff_eq_none.mp (by rw [← hsame]; simp)

end SshServer

/-- After the request the loop takes a bounded number of steps, whatever they are, and as long as it
has one it can go on: to its result, or to where it waits for sessions that have not ended and its
time is not over. -/
theorem accept_loop_returns {now : Instant limit} {trace : List (SshServerLabel π limit)}
    {s : SshServer π limit}
    (hrun : (sshServer π limit).run { children := { now } } trace = some s)
    (hrequest : s.request.isSome = true) :
    (∀ more s', (∀ label ∈ more, SshServer.ofLoop label) →
      (sshServer π limit).run s more = some s' → more.length ≤ s.loop.live.length + 7) ∧
    ∃ more s', (∀ label ∈ more, SshServer.ofLoop label) ∧
      (sshServer π limit).run s more = some s' ∧ (s'.result.isSome = true ∨ s'.Waits) := by
  have hlower : ∀ (before : SshServer π limit) label after, SshServer.ofLoop label →
      (sshServer π limit).step before label = some after → after.loop.rank < before.loop.rank := by
    intro before label after hown hstep
    exact SshServer.rank_lt hown hstep
  -- `rank` bounds the steps, and a run that cannot be made longer is quiet
  constructor
  · intro more s' hown hmore
    have hlength := Machine.length_le_rank hlower hown hmore
    have hrank : s.loop.rank ≤ s.loop.live.length + 7 := by
      unfold AcceptLoop.rank
      split
      all_goals omega
    omega
  · have hkeep : ∀ (before : SshServer π limit) label after, SshServer.ofLoop label →
        (sshServer π limit).step before label = some after →
          before.Inv ∧ before.request.isSome = true → after.Inv ∧ after.request.isSome = true := by
      intro before label after hown hstep hbefore
      exact ⟨SshServer.step_inv hstep hbefore.1, SshServer.request_step hown hstep hbefore.2⟩
    rcases Machine.exists_quiet hlower hkeep ⟨SshServer.inv_of_run hrun, hrequest⟩ with
      ⟨more, s', hown, hmore, hafter, hquiet⟩
    exact ⟨more, s', hown, hmore, SshServer.result_or_waits hafter.1 hafter.2 hquiet⟩

/-! ## Two runs -/

/-- A session with one child task that ends, and a request to stop. -/
def servedSession : List (SshServerLabel Nat 10) :=
  [.loop .polls, .accepts 22, .session 0 .polls, .session 0 .starts, .child (.spawn 0),
    .child (.push 0), .child (.bodyEnds 0), .child (.finishes 0), .requests ⟨upToTen 5, 5⟩,
    .loop .stops, .session 0 .stops, .session 0 .disconnects, .child (.close 0 ⟨upToTen 5, 5⟩),
    .child (.shutdown 0 (.readAbortAt (upToTen 0))), .child (.shutdown 0 .joins),
    .child (.shutdown 0 .proceeds), .child (.shutdown 0 .proceeds), .child (.shutdown 0 .proceeds),
    .child (.shutdown 0 .proceeds), .session 0 .streamEnds, .session 0 .joinsStream,
    .session 0 .returns, .loop (.joins 0), .loop .finishes]

/-- A connection that is accepted when the request is there already, and does not end in time. -/
def lateSession : List (SshServerLabel Nat 10) :=
  [.loop .polls, .requests ⟨upToTen 2, 2⟩, .accepts 22, .loop .stops, .session 0 .stops,
    .advance (upToTen 2), .loop .elapses]

/-- The loop returns a success after a session with one task. -/
theorem accept_loop_servedSession :
    ∃ s, (sshServer Nat 10).run { children := { now := upToTen 0 } } servedSession = some s ∧
      s.AcceptReport (.ok ()) := by
  have hresult : ((sshServer Nat 10).run { children := { now := upToTen 0 } } servedSession).map
      SshServer.result = some (some (.ok ())) := by
    decide
  rcases Option.map_eq_some_iff.mp hresult with ⟨s, hrun, hsome⟩
  exact ⟨s, hrun, (accept_loop hrun).2.2.2 _ hsome⟩

/-- The late session is the one connection accepted after the request. -/
theorem accept_loop_returns_lateSession :
    ∃ s, (sshServer Nat 10).run { children := { now := upToTen 0 } } lateSession = some s ∧
      s.loop.late = 1 ∧ ∃ more s', (∀ label ∈ more, SshServer.ofLoop label) ∧
        (sshServer Nat 10).run s more = some s' ∧ (s'.result.isSome = true ∨ s'.Waits) := by
  have hresult : ((sshServer Nat 10).run { children := { now := upToTen 0 } } lateSession).map
      (fun s => (s.loop.late, s.request.isSome)) = some (1, true) := by
    decide
  rcases Option.map_eq_some_iff.mp hresult with ⟨s, hrun, hfields⟩
  have hrequest : s.request.isSome = true := congrArg Prod.snd hfields
  exact ⟨s, hrun, congrArg Prod.fst hfields, (accept_loop_returns hrun hrequest).2⟩

end Rssh
