import Rssh.Lib.Table
import Rssh.Forward.Listener
import Rssh.Forward.Loopback
import Rssh.Server.Shell
import Rssh.Transfer.Command

/-!
# The requests of a session

`FixtureHandler` answers all that a client asks of its session. It owns the channels that have been
opened until a task serves them, and the `RemoteForwardTask` of each forward until that is
cancelled.

* The callbacks keep their names; what the session does and what the network answers are parameters.
* `Owed` says, from the inputs alone, which channels are owed how many replies.
* `FixtureHandler.Inv` is what each callback keeps; the replies that are returned are those that the
  events tell.
* `fixture_handler` is the result about all sequences of requests.
-/

namespace Rssh.Fixture

open Posix

/-! ## The handler -/

/-- `SshEvent`, those of a connection. -/
inductive FixtureEvent where
  | publicKeyAuth (user fingerprint : List Char) (accepted : Bool)
  | sessionOpened
  | pty (term : List Char) (columns rows pixelWidth pixelHeight : UInt32)
  | command (event : SshEvent)
  | resize (columns rows pixelWidth pixelHeight : UInt32)
  | directTcpip (target : List Char) (port : UInt32) (accepted : Bool)
  | remoteForward (address : List Char) (port : UInt32) (accepted : Bool)
  | remoteForwardCancelled (address : List Char) (port : UInt32) (accepted : Bool)
  | agentForward (accepted : Bool)
  | subsystem (name : List Char) (accepted : Bool)
deriving DecidableEq, Repr

structure FixtureBehavior (κ : Type) where
  authorizedKeys : List κ
  fingerprint : κ → List Char
  passwords : List Char → Option (List Char)
  commands : List Char → Option CommandResponse
  authenticationDelay : Option Nat := none
  channelOpenDelay : Option Nat := none

/-- What a channel is given to. -/
inductive ChildWork where
  | scp (request : Except Scp.ScpProtocolError (Scp.ScpDirection × Scp.ScpRequest))
  | sftp
  | direct
deriving DecidableEq

/-- An attempt to connect or to bind, in the order in which they are made. -/
inductive NetAttempt where
  | connect (address : SocketAddr)
  | bind (address : SocketAddr)
deriving DecidableEq, Repr

def NetAttempt.address : NetAttempt → SocketAddr
  | .connect address | .bind address => address

/-- What becomes of an attempt. A listener knows its port, unless that fails too. -/
inductive NetAnswer where
  | refused
  | ok (localPort : Option UInt16)
deriving DecidableEq, Repr

abbrev ForwardKey := List Char × UInt32

/-- `FixtureHandler`. Channels and forwards are numbered as they are opened and started; a channel
is in the table, given to a task or dropped, a forward in the table, stopped or dropped. -/
structure FixtureHandler where
  shell : Handler := {}
  events : List FixtureEvent := []
  channels : Table ChannelId Nat := {}
  opened : Nat := 0
  served : List (Nat × ChildWork) := []
  droppedChannels : List Nat := []
  remoteForwards : Table ForwardKey Nat := {}
  started : Nat := 0
  stopped : List Nat := []
  droppedForwards : List Nat := []
  tasksClosed : Bool := false
  attempts : List NetAttempt := []
  awaits : Nat := 0
  /-- What the callbacks have returned, in the words of the events that tell of it. -/
  replies : List FixtureEvent := []
  net : Nat → NetAnswer := fun _ => .refused
  cut : Nat → Bool := fun _ => false

/-- A callback. It ends early with an error of the session, or as the session is dropped in an
await. -/
abbrev FixtureM := EStateM Unit FixtureHandler

namespace FixtureHandler

variable {α κ : Type}

def record (event : FixtureEvent) : FixtureM Unit :=
  modify fun s => { s with events := s.events ++ [event] }

/-- What shells do. -/
def ofShell (program : HandlerM α) : FixtureM α := fun s =>
  let ended (shell : Handler) : FixtureHandler :=
    { s with shell, events := s.events ++ shell.events.map .command }
  match program { s.shell with events := [] } with
  | .ok value shell => .ok value (ended shell)
  | .error error shell => .error error (ended shell)

def wait : FixtureM Unit := fun s =>
  let waited := { s with awaits := s.awaits + 1 }
  if s.cut s.awaits = true then .error () waited else .ok () waited

/-- While a callback holds a channel, the channel is dropped with it. -/
def holding (channel : Nat) (program : FixtureM α) : FixtureM α := fun s =>
  match program s with
  | .ok value t => .ok value t
  | .error error t => .error error { t with droppedChannels := t.droppedChannels ++ [channel] }

def dropChannel (channel : Nat) : FixtureM Unit :=
  modify fun s => { s with droppedChannels := s.droppedChannels ++ [channel] }

/-- `tasks.spawn` with a channel: a closed tracker drops it. -/
def spawnServing (channel : Nat) (work : ChildWork) : FixtureM Unit :=
  modify fun s =>
    if s.tasksClosed then { s with droppedChannels := s.droppedChannels ++ [channel] }
    else { s with served := s.served ++ [(channel, work)] }

def openChannel : FixtureM Nat := do
  let s ← get
  set { s with opened := s.opened + 1 }
  pure s.opened

/-- `channels.insert`: another channel that was open under the name is dropped. -/
def insertChannel (name : ChannelId) (channel : Nat) : FixtureM Unit :=
  modify fun s =>
    { s with
      channels := s.channels.insert name channel
      droppedChannels := s.droppedChannels ++ (s.channels.lookup? name).toList }

/-- `channels.remove`. -/
def takeChannel (name : ChannelId) : FixtureM (Option Nat) := do
  let s ← get
  set { s with channels := s.channels.erase name }
  pure (s.channels.lookup? name)

/-! ## Authentication -/

variable (behavior : FixtureBehavior κ)

/-- A delay is an await. -/
def sleep (delay : Option Nat) : FixtureM Unit := if delay.isSome then wait else pure ()

def authPublickey [DecidableEq κ] (user : List Char) (key : κ) : FixtureM Bool := do
  sleep behavior.authenticationDelay
  let accepted := decide (key ∈ behavior.authorizedKeys)
  record (.publicKeyAuth user (behavior.fingerprint key) accepted)
  pure accepted

def authPassword (user password : List Char) : FixtureM Bool := do
  sleep behavior.authenticationDelay
  pure (decide (behavior.passwords user = some password))

/-! ## Channels -/

def channelOpenSession (name : ChannelId) : FixtureM Bool := do
  let channel ← openChannel
  holding channel (sleep behavior.channelOpenDelay)
  record .sessionOpened
  insertChannel name channel
  pure true

def channelClose (name : ChannelId) : FixtureM Unit := do
  let channel ← takeChannel name
  if let some channel := channel then dropChannel channel
  modify fun s =>
    { s with
      shell :=
        { s.shell with
          shells := Function.update s.shell.shells name false
          shellBuffers := Function.update s.shell.shellBuffers name [] } }

def ptyRequest (name : ChannelId) (term : List Char)
    (columns rows pixelWidth pixelHeight : UInt32) : FixtureM Unit := do
  record (.pty term columns rows pixelWidth pixelHeight)
  ofShell (ask name .channelSuccess)

def shellRequest (name : ChannelId) : FixtureM Unit := ofShell (Fixture.shellRequest name)

def execRequest (name : ChannelId) (data : List UInt8) : FixtureM Unit := do
  let command := Text.fromUtf8Lossy data
  match Scp.parseScpRequest (String.ofList command) with
  | some request =>
      -- the event does not say whether there was a channel
      record (.command (.exec command request.isOk))
      match ← takeChannel name with
      | some channel =>
          holding channel (ofShell (ask name .channelSuccess))
          spawnServing channel (.scp request)
      | none => ofShell (ask name .channelFailure)
  | none =>
      let outcome := configuredCommand command behavior.commands
      record (.command (.exec command outcome.accepted))
      ofShell (finishCommand name outcome)

def data (name : ChannelId) (bytes : List UInt8) : FixtureM Unit :=
  ofShell (Fixture.data behavior.commands name bytes)

def windowChangeRequest (columns rows pixelWidth pixelHeight : UInt32) : FixtureM Unit :=
  record (.resize columns rows pixelWidth pixelHeight)

/-- Agents are not forwarded. -/
def agentRequest (name : ChannelId) : FixtureM Bool := do
  record (.agentForward false)
  ofShell (ask name .channelFailure)
  pure false

def subsystemRequest (name : ChannelId) (subsystem : List Char) : FixtureM Unit := do
  let s ← get
  let accepted := decide (subsystem = "sftp".toList ∧ (s.channels.lookup? name).isSome)
  record (.subsystem subsystem accepted)
  if accepted then
    match ← takeChannel name with
    | some channel =>
        holding channel (ofShell (ask name .channelSuccess))
        spawnServing channel .sftp
    | none => throw ()
  else ofShell (ask name .channelFailure)

/-! ## Forwards -/

/-- One attempt, and what the network answers. -/
def attempt (made : NetAttempt) : FixtureM NetAnswer := do
  let s ← get
  set { s with attempts := s.attempts ++ [made] }
  wait
  pure (s.net s.attempts.length)

/-- `TcpStream::connect`: the first address that answers. -/
def connect : List SocketAddr → FixtureM Bool
  | [] => pure false
  | address :: addresses => do
      match ← attempt (.connect address) with
      | .ok _ => pure true
      | .refused => connect addresses

/-- `bind_first`: the answer for the listener. -/
def bindFirst : List SocketAddr → FixtureM (Option (Option UInt16))
  | [] => pure none
  | address :: addresses => do
      match ← attempt (.bind address) with
      | .ok localPort => pure (some localPort)
      | .refused => bindFirst addresses

def endpoint (host : List Char) (port : UInt32) : Option LoopbackEndpoint :=
  (u16TryFrom port).bind fun port => (LoopbackEndpoint.new host port).toOption

def channelOpenDirectTcpip (host : List Char) (port : UInt32) : FixtureM Bool := do
  let channel ← openChannel
  let accepted ← holding channel <|
    match endpoint host port with
    | some endpoint => connect endpoint.addresses
    | none => pure false
  record (.directTcpip host port accepted)
  if accepted then spawnServing channel .direct else dropChannel channel
  pure accepted

/-- `remote_forwards.insert`: another forward with the key is dropped. -/
def insertForward (key : ForwardKey) : FixtureM Unit :=
  modify fun s =>
    { s with
      remoteForwards := s.remoteForwards.insert key s.started
      started := s.started + 1
      droppedForwards := s.droppedForwards ++ (s.remoteForwards.lookup? key).toList }

/-- Whether the forward is accepted, and its port. -/
def tcpipForward (address : List Char) (requested : UInt32) : FixtureM (Bool × UInt32) := do
  match endpoint address requested with
  | none =>
      record (.remoteForward address requested false)
      pure (false, requested)
  | some endpoint =>
      match ← bindFirst endpoint.addresses with
      | none =>
          record (.remoteForward address requested false)
          pure (false, requested)
      | some none => throw ()
      | some (some localPort) =>
          let allocated := localPort.toUInt32
          if (← get).tasksClosed then
            record (.remoteForward address requested false)
            pure (false, requested)
          else
            insertForward (address, allocated)
            record (.remoteForward address allocated true)
            pure (true, allocated)

/-- `RemoteForwardTask::stop`: if the session is dropped while it waits, so is the task. -/
def stopForward (forward : Nat) : FixtureM Unit := fun s =>
  let waited := { s with awaits := s.awaits + 1 }
  if s.cut s.awaits = true then
    .error () { waited with droppedForwards := s.droppedForwards ++ [forward] }
  else .ok () { waited with stopped := s.stopped ++ [forward] }

/-- `remote_forwards.remove`. -/
def takeForward (key : ForwardKey) : FixtureM (Option Nat) := do
  let s ← get
  set { s with remoteForwards := s.remoteForwards.erase key }
  pure (s.remoteForwards.lookup? key)

def cancelTcpipForward (address : List Char) (port : UInt32) : FixtureM Bool := do
  let task ← takeForward (address, port)
  if let some forward := task then stopForward forward
  record (.remoteForwardCancelled address port task.isSome)
  pure task.isSome

/-! ## A session -/

/-- The session is told what a callback returns. -/
def reply (toldOf : α → FixtureEvent) (program : FixtureM α) : FixtureM Unit := do
  let value ← program
  modify fun s => { s with replies := s.replies ++ [toldOf value] }

/-- What a session receives, and that its tracker is closed meanwhile. -/
inductive Input (κ : Type) where
  | authPublickey (user : List Char) (key : κ)
  | authPassword (user password : List Char)
  | channelOpenSession (name : ChannelId)
  | channelClose (name : ChannelId)
  | ptyRequest (name : ChannelId) (term : List Char)
      (columns rows pixelWidth pixelHeight : UInt32)
  | shellRequest (name : ChannelId)
  | execRequest (name : ChannelId) (command : List UInt8)
  | data (name : ChannelId) (bytes : List UInt8)
  | windowChangeRequest (columns rows pixelWidth pixelHeight : UInt32)
  | agentRequest (name : ChannelId)
  | subsystemRequest (name : ChannelId) (subsystem : List Char)
  | channelOpenDirectTcpip (host : List Char) (port : UInt32)
  | tcpipForward (address : List Char) (port : UInt32)
  | cancelTcpipForward (address : List Char) (port : UInt32)
  | tasksClose

def handle [DecidableEq κ] : Input κ → FixtureM Unit
  | .authPublickey user key =>
      reply (.publicKeyAuth user (behavior.fingerprint key)) (authPublickey behavior user key)
  | .authPassword user password => discard (authPassword behavior user password)
  | .channelOpenSession name => discard (channelOpenSession behavior name)
  | .channelClose name => channelClose name
  | .ptyRequest name term columns rows pixelWidth pixelHeight =>
      ptyRequest name term columns rows pixelWidth pixelHeight
  | .shellRequest name => shellRequest name
  | .execRequest name command => execRequest behavior name command
  | .data name bytes => data behavior name bytes
  | .windowChangeRequest columns rows pixelWidth pixelHeight =>
      windowChangeRequest columns rows pixelWidth pixelHeight
  | .agentRequest name => reply .agentForward (agentRequest name)
  | .subsystemRequest name subsystem => subsystemRequest name subsystem
  | .channelOpenDirectTcpip host port =>
      reply (.directTcpip host port) (channelOpenDirectTcpip host port)
  | .tcpipForward address port =>
      reply (fun allocated => .remoteForward address allocated.2 allocated.1)
        (tcpipForward address port)
  | .cancelTcpipForward address port =>
      reply (.remoteForwardCancelled address port) (cancelTcpipForward address port)
  | .tasksClose => modify fun s => { s with tasksClosed := true }

/-- The callbacks of a session, one after the other, up to one that ends it. -/
def serve [DecidableEq κ] : List (Input κ) → FixtureM Unit
  | [] => pure ()
  | input :: inputs => do
      handle behavior input
      serve inputs

/-- The end of a session drops what the tables have. -/
def drop (s : FixtureHandler) : FixtureHandler :=
  { s with
    channels := {}
    droppedChannels := s.droppedChannels ++ s.channels.values
    remoteForwards := {}
    droppedForwards := s.droppedForwards ++ s.remoteForwards.values }

/-! ## What a session has recorded -/

/-- The forwards that are open behind an event. -/
def replay (forwards : List ForwardKey) : FixtureEvent → List ForwardKey
  | .remoteForward address port true =>
      (address, port) :: forwards.filter fun key => key ≠ (address, port)
  | .remoteForwardCancelled address port _ => forwards.filter fun key => key ≠ (address, port)
  | _ => forwards

def openForwards (events : List FixtureEvent) : List ForwardKey := events.foldl replay []

/-- A cancellation is accepted exactly when the events before it have left the forward open. -/
def CancelsAgree (events : List FixtureEvent) : Prop :=
  ∀ before address port accepted after,
    events = before ++ .remoteForwardCancelled address port accepted :: after →
      (accepted = true ↔ (address, port) ∈ openForwards before)

/-- Whether an event tells what a callback returns. -/
def isOfReplies : FixtureEvent → Bool
  | .publicKeyAuth .. | .directTcpip .. | .remoteForward .. | .remoteForwardCancelled ..
  | .agentForward _ => true
  | _ => false

/-- Whether an event says something of the open forwards. -/
def isOfForwards : FixtureEvent → Bool
  | .remoteForward _ _ accepted => accepted
  | .remoteForwardCancelled .. => true
  | _ => false

theorem openForwards_concat (events : List FixtureEvent) (event : FixtureEvent) :
    openForwards (events ++ [event]) = replay (openForwards events) event :=
  List.foldl_append

/-- An event of another kind opens and closes no forward. -/
theorem replay_of_not_isOfForwards {event : FixtureEvent} (h : isOfForwards event = false)
    (forwards : List ForwardKey) : replay forwards event = forwards := by
  unfold isOfForwards at h
  unfold replay
  split at h
  · subst h
    rfl
  · cases h
  · split
    · simp_all
    · simp_all
    · rfl

/-- A cancellation that agrees with the open forwards may be recorded next. -/
theorem CancelsAgree.concat {events : List FixtureEvent} {event : FixtureEvent}
    (h : CancelsAgree events)
    (hevent : ∀ address port accepted, event = .remoteForwardCancelled address port accepted →
      (accepted = true ↔ (address, port) ∈ openForwards events)) :
    CancelsAgree (events ++ [event]) := by
  intro before address port accepted after heq
  rcases List.eq_nil_or_concat after with rfl | ⟨after, last, rfl⟩
  · -- it is the new event
    have hsplit := List.append_inj' heq rfl
    rw [← hsplit.1]
    exact hevent address port accepted (List.cons.inj hsplit.2).1
  · have hsplit : events ++ [event] =
        (before ++ .remoteForwardCancelled address port accepted :: after) ++ [last] := by
      rw [heq, List.concat_eq_append, List.append_assoc, List.cons_append]
    exact h before address port accepted after (List.append_inj' hsplit rfl).1

end FixtureHandler

/-! ## Replies -/

def SessionCall.isReply : SessionCall → Bool
  | .channelSuccess | .channelFailure => true
  | _ => false

/-- What the inputs so far have made of the shells, and the channels that are owed a reply for each
of them. -/
structure Owed where
  shells : ChannelId → Bool := fun _ => false
  buffers : ChannelId → List UInt8 := fun _ => []
  replies : List ChannelId := []

namespace Owed

/-- One more request on the channel. -/
def request (owed : Owed) (name : ChannelId) : Owed :=
  { owed with replies := name :: owed.replies }

def openShell (owed : Owed) (name : ChannelId) : Owed :=
  { owed with shells := Function.update owed.shells name true }

def closeShell (owed : Owed) (name : ChannelId) : Owed :=
  { owed with shells := Function.update owed.shells name false }

def setBuffer (owed : Owed) (name : ChannelId) (buffer : List UInt8) : Owed :=
  { owed with buffers := Function.update owed.buffers name buffer }

/-- Input of a shell is owed a reply when it is too long, and when it completes a line, which
closes the shell. -/
def data (owed : Owed) (name : ChannelId) (bytes : List UInt8) : Owed :=
  let buffer := owed.buffers name
  if owed.shells name = false then owed
  else if maxShellCommand < buffer.length + bytes.length then
    (owed.setBuffer name []).request name
  else
    match firstLine (buffer ++ bytes) with
    | none => owed.setBuffer name (buffer ++ bytes)
    | some (_, rest) => ((owed.setBuffer name rest).request name).closeShell name

end Owed

/-- The shells are as the inputs have left them, and each channel has had the replies it is owed. -/
structure Replied (owed : Owed) (s : Handler) : Prop where
  shells : s.shells = owed.shells
  buffers : s.shellBuffers = owed.buffers
  replies : ∀ channel, (s.callsOf channel).countP SessionCall.isReply = owed.replies.count channel

section Replies

variable {owed : Owed}

theorem Replied.of_same {s s' : Handler} (h : Replied owed s) (hshells : s'.shells = s.shells)
    (hbuffers : s'.shellBuffers = s.shellBuffers) (hcalls : s'.calls = s.calls) :
    Replied owed s' := by
  refine ⟨hshells.trans h.shells, hbuffers.trans h.buffers, ?_⟩
  intro channel
  have hchannel := h.replies channel
  unfold Handler.callsOf at *
  rwa [hcalls]

theorem record_replied (event : SshEvent) :
    Triple (Replied owed) (record event) (fun _ => Replied owed) (fun _ => True) := by
  intro s hs
  exact hs.of_same rfl rfl rfl

theorem setBuffer_replied (channel : ChannelId) (buffer : List UInt8) :
    Triple (Replied owed) (setBuffer channel buffer)
      (fun _ => Replied (owed.setBuffer channel buffer)) (fun _ => True) := by
  intro s hs
  refine ⟨hs.shells, ?_, hs.replies⟩
  show Function.update s.shellBuffers channel buffer = Function.update owed.buffers channel buffer
  rw [hs.buffers]

/-- A shell that is opened or closed. -/
theorem setShell_replied (channel : ChannelId) (isOpen : Bool) :
    Triple (Replied owed)
      (modify fun s =>
        { s with shells := Function.update s.shells channel isOpen } : HandlerM Unit)
      (fun _ => Replied { owed with shells := Function.update owed.shells channel isOpen })
      (fun _ => True) := by
  intro s hs
  refine ⟨?_, hs.buffers, hs.replies⟩
  show Function.update s.shells channel isOpen = Function.update owed.shells channel isOpen
  rw [hs.shells]

/-- Calls on one channel, with one reply among them. -/
theorem Replied.asked {s s' : Handler} (h : Replied owed s) {channel : ChannelId}
    {made : List SessionCall} (hmade : made.countP SessionCall.isReply = 1)
    (hshells : s'.shells = s.shells) (hbuffers : s'.shellBuffers = s.shellBuffers)
    (hcalls : s'.calls = s.calls ++ made.map (channel, ·)) : Replied (owed.request channel) s' := by
  refine ⟨hshells.trans h.shells, hbuffers.trans h.buffers, ?_⟩
  intro other
  have hother := h.replies other
  unfold Handler.callsOf at *
  rw [hcalls]
  by_cases hsame : channel = other
  · subst hsame
    have hown : ((made.map (channel, ·)).filter (·.1 = channel)).map Prod.snd = made := by
      simp [List.filter_map, Function.comp_def]
    rw [List.filter_append, List.map_append, List.countP_append, hother, hown, hmade]
    exact List.count_cons_self.symm
  · simp [Owed.request, List.filter_append, List.filter_map, Function.comp_def, hother, hsame]

/-- A call that replies is the reply to one more request on its channel. -/
theorem ask_replied {channel : ChannelId} {call : SessionCall} (hcall : call.isReply = true) :
    Triple (Replied owed) (ask channel call) (fun _ => Replied (owed.request channel))
      (fun _ => True) := by
  intro s hs
  by_cases hfault : s.fault s.calls.length = true
  · have hask : ask channel call s = .error () s := if_pos hfault
    rw [hask]
    trivial
  · have hask : ask channel call s = .ok () { s with calls := s.calls ++ [(channel, call)] } :=
      if_neg hfault
    rw [hask]
    have hone : [call].countP SessionCall.isReply = 1 := by simp [hcall]
    exact hs.asked hone rfl rfl rfl

/-- The first call of `finish_command` is its only reply. -/
theorem countP_replies (outcome : CommandOutcome) :
    outcome.replies.countP SessionCall.isReply = 1 := by
  rcases outcome with ⟨accepted, stdout, stderr, termination, closes⟩
  unfold CommandOutcome.replies
  by_cases hout : stdout = [] <;> by_cases herr : stderr = [] <;>
    cases termination <;> cases accepted <;>
      simp [List.countP_cons, SessionCall.isReply, hout, herr]

/-- Finishing a command is the reply to its request, whatever the outcome. -/
theorem finishCommand_replied (channel : ChannelId) (outcome : CommandOutcome) :
    Triple (Replied owed) (finishCommand channel outcome)
      (fun _ => Replied (owed.request channel)) (fun _ => True) := by
  intro s hs
  rcases finishCommand_cases channel outcome s with hrun | ⟨made, n, _, _, hrun⟩
  · rw [hrun]
    exact hs.asked (countP_replies outcome) rfl rfl rfl
  · rw [hrun]
    trivial

theorem shellRequest_replied (channel : ChannelId) :
    Triple (Replied owed) (shellRequest channel)
      (fun _ => Replied ((owed.openShell channel).request channel)) (fun _ => True) := by
  refine (record_replied .shell).bind fun _ => ?_
  exact (setShell_replied channel true).bind fun _ => ask_replied rfl

/-- Input of a shell is replied to as it is owed. -/
theorem data_replied (commands : List Char → Option CommandResponse) (channel : ChannelId)
    (bytes : List UInt8) :
    Triple (Replied owed) (data commands channel bytes)
      (fun _ => Replied (owed.data channel bytes)) (fun _ => True) := by
  intro s hs
  have hshell : s.shells channel = owed.shells channel := congrFun hs.shells channel
  have hbuffer : s.shellBuffers channel = owed.buffers channel := congrFun hs.buffers channel
  unfold Owed.data
  cases hopen : owed.shells channel with
  | false =>
      rw [data_of_no_shell (hshell.trans hopen)]
      exact hs
  | true =>
      have hrun : data commands channel bytes s =
          (if (owed.buffers channel).length + bytes.length > maxShellCommand then do
              setBuffer channel []
              finishCommand channel .rejected
            else do
              setBuffer channel (owed.buffers channel ++ bytes)
              runLines commands channel (owed.buffers channel ++ bytes) : HandlerM Unit) s := by
        show (if s.shells channel = true then _ else pure () : HandlerM Unit) s = _
        rw [hshell, hopen, hbuffer]
        rfl
      rw [hrun]
      dsimp only
      rw [if_neg (show ¬ true = false from nofun)]
      by_cases hlong : maxShellCommand < (owed.buffers channel).length + bytes.length
      · rw [if_pos hlong, if_pos hlong]
        exact ((setBuffer_replied channel []).bind fun _ => finishCommand_replied channel _) s hs
      · rw [if_neg hlong, if_neg hlong]
        cases hline : firstLine (owed.buffers channel ++ bytes) with
        | none =>
            rw [runLines_of_none hline]
            exact ((setBuffer_replied channel _).bind fun _ => Triple.pure fun _ h => h) s hs
        | some found =>
            -- the line closes the shell
            have hfound : firstLine (owed.buffers channel ++ bytes) =
                some (found.1, found.2) := hline
            have hrest : (owed.setBuffer channel (owed.buffers channel ++ bytes)).setBuffer channel
                found.2 = owed.setBuffer channel found.2 := by
              simp [Owed.setBuffer]
            rw [runLines_of_line hfound]
            refine ((setBuffer_replied channel _).bind fun _ => ?_) s hs
            refine (setBuffer_replied channel found.2).bind fun _ => ?_
            rw [hrest]
            refine (record_replied _).bind fun _ => ?_
            exact (finishCommand_replied channel _).bind fun _ => setShell_replied channel false

end Replies

/-! ## What every callback keeps -/

namespace FixtureHandler

/-- What an input asks of the session: each request is owed one reply, and so is what the input of a
shell finishes. -/
def Input.owed {κ : Type} (owed : Owed) : Input κ → Owed
  | .ptyRequest name .. | .execRequest name _ | .agentRequest name | .subsystemRequest name _ =>
      owed.request name
  | .shellRequest name => (owed.openShell name).request name
  | .data name bytes => owed.data name bytes
  | .channelClose name => (owed.closeShell name).setBuffer name []
  | _ => owed

/-- What all inputs ask of the session. -/
def owedFor {κ : Type} (inputs : List (Input κ)) : Owed := inputs.foldl Input.owed {}

/-- What is known of a session also where a callback ends early. A callback may hold channels. -/
structure Sound (held : List Nat) (s : FixtureHandler) : Prop where
  loopback : ∀ made ∈ s.attempts, made.address.ip.isLoopback = true
  channels : (held ++ (s.channels.values ++ (s.served.map Prod.fst ++ s.droppedChannels))).Perm
    (List.range s.opened)
  forwards : (s.remoteForwards.values ++ (s.stopped ++ s.droppedForwards)).Perm
    (List.range s.started)
  keys : s.remoteForwards.keys.Sublist (openForwards s.events)
  cancels : CancelsAgree s.events
  told : s.replies <+: s.events.filter isOfReplies

/-- What is known between the callbacks, and in one that holds channels and has recorded events that
tell of a reply it has yet to make. -/
structure Inv (held : List Nat) (untold : List FixtureEvent) (owed : Owed) (s : FixtureHandler) :
    Prop where
  sound : s.Sound held
  keys : s.remoteForwards.keys = openForwards s.events
  replied : Replied owed s.shell
  told : s.events.filter isOfReplies = s.replies ++ untold

section Callbacks

variable {α κ : Type} {held : List Nat} {untold : List FixtureEvent} {owed : Owed}
  {s s' : FixtureHandler}

/-- The shells and the counts are no part of what is known, and of the events and the replies only
what they tell. -/
theorem Sound.update (h : s.Sound held) {shell : Handler} {events replies : List FixtureEvent}
    {awaits : Nat} {tasksClosed : Bool} (hopen : openForwards events = openForwards s.events)
    (hcancels : CancelsAgree events) (htold : replies <+: events.filter isOfReplies) :
    Sound held { s with shell, events, replies, awaits, tasksClosed } := by
  refine ⟨h.loopback, h.channels, h.forwards, ?_, hcancels, htold⟩
  rw [hopen]
  exact h.keys

/-- The same is known where neither an event nor a reply comes in. -/
theorem Sound.unchanged (h : s.Sound held) {shell : Handler} {awaits : Nat}
    {tasksClosed : Bool} : Sound held { s with shell, awaits, tasksClosed } :=
  h.update rfl h.cancels h.told

/-- An event that says nothing of the open forwards. -/
theorem agrees_concat {events : List FixtureEvent} (event : FixtureEvent)
    (h : CancelsAgree events) (hevent : isOfForwards event = false) :
    openForwards (events ++ [event]) = openForwards events ∧ CancelsAgree (events ++ [event]) := by
  constructor
  · rw [openForwards_concat, replay_of_not_isOfForwards hevent]
  · apply h.concat
    rintro address port accepted rfl
    cases hevent

theorem filter_commands (commands : List SshEvent) :
    (commands.map FixtureEvent.command).filter isOfReplies = [] := by
  simp [List.filter_map, Function.comp_def, isOfReplies]

/-- The events of commands open and close no forward. -/
theorem agrees_append_commands {events : List FixtureEvent} (h : CancelsAgree events)
    (commands : List SshEvent) :
    openForwards (events ++ commands.map .command) = openForwards events ∧
      CancelsAgree (events ++ commands.map .command) := by
  induction commands using List.reverseRecOn with
  | nil =>
      rw [List.map_nil, List.append_nil]
      exact ⟨rfl, h⟩
  | append_singleton commands command ih =>
      have hstep := agrees_concat (.command command) ih.2 rfl
      rw [List.map_append, List.map_singleton, ← List.append_assoc]
      exact ⟨hstep.1.trans ih.1, hstep.2⟩

/-- An event is recorded; if it tells of a reply, the reply is still to be made. -/
theorem record_telling (event : FixtureEvent) (hevent : isOfForwards event = false) :
    Triple (Inv held untold owed) (record event)
      (fun _ => Inv held (untold ++ [event].filter isOfReplies) owed) (Sound held) := by
  intro s hs
  have hagrees := agrees_concat event hs.sound.cancels hevent
  constructor
  · refine hs.sound.update hagrees.1 hagrees.2 ?_
    exact hs.sound.told.trans ((List.prefix_append _ _).filter _)
  · show s.remoteForwards.keys = openForwards (s.events ++ [event])
    rw [hagrees.1]
    exact hs.keys
  · exact hs.replied
  · show (s.events ++ [event]).filter isOfReplies = s.replies ++ _
    rw [List.filter_append, hs.told, List.append_assoc]

theorem record_inv (event : FixtureEvent) (hevent : isOfForwards event = false)
    (hreplies : isOfReplies event = false) :
    Triple (Inv held untold owed) (record event) (fun _ => Inv held untold owed) (Sound held) := by
  have htelling := @record_telling held untold owed event hevent
  rwa [List.filter_singleton, hreplies, cond_false, List.append_nil] at htelling

theorem record_reply_inv (event : FixtureEvent) (hevent : isOfForwards event = false)
    (hreplies : isOfReplies event = true) :
    Triple (Inv held [] owed) (record event) (fun _ => Inv held [event] owed) (Sound held) := by
  have htelling := @record_telling held [] owed event hevent
  rwa [List.filter_singleton, hreplies, cond_true, List.nil_append] at htelling

/-- What a callback has told of is what the session is told. -/
theorem reply_inv {owed' : Owed} {toldOf : α → FixtureEvent} {program : FixtureM α}
    (h : Triple (Inv held [] owed) program (fun value => Inv held [toldOf value] owed')
      (Sound held)) :
    Triple (Inv held [] owed) (reply toldOf program) (fun _ => Inv held [] owed')
      (Sound held) := by
  refine h.bind fun value => ?_
  intro s hs
  have htold : s.replies ++ [toldOf value] = s.events.filter isOfReplies := hs.told.symm
  constructor
  · refine hs.sound.update rfl hs.sound.cancels ?_
    exact htold ▸ List.prefix_rfl
  · exact hs.keys
  · exact hs.replied
  · exact htold.symm.trans (List.append_nil _).symm

/-- What is done to the shells leaves the rest alone. -/
theorem ofShell_inv {program : HandlerM α} {owed' : Owed}
    (h : Triple (Replied owed) program (fun _ => Replied owed') fun _ => True) :
    Triple (Inv held untold owed) (ofShell program) (fun _ => Inv held untold owed')
      (Sound held) := by
  intro s hs
  have hprogram := h { s.shell with events := [] } (hs.replied.of_same rfl rfl rfl)
  unfold ofShell
  cases hrun : program { s.shell with events := [] } with
  | ok value shell =>
      -- the events of the shell go behind those of the session
      rw [hrun] at hprogram
      have hagrees := agrees_append_commands hs.sound.cancels shell.events
      constructor
      · refine hs.sound.update hagrees.1 hagrees.2 ?_
        exact hs.sound.told.trans ((List.prefix_append _ _).filter _)
      · exact hs.keys.trans hagrees.1.symm
      · exact hprogram
      · show (s.events ++ shell.events.map FixtureEvent.command).filter isOfReplies = _
        rw [List.filter_append, hs.told, filter_commands, List.append_nil]
  | error error shell =>
      -- also where the callback ends early
      have hagrees := agrees_append_commands hs.sound.cancels shell.events
      refine hs.sound.update hagrees.1 hagrees.2 ?_
      exact hs.sound.told.trans ((List.prefix_append _ _).filter _)

/-- The session may be dropped in an await, and keeps what it is known by. -/
theorem wait_inv :
    Triple (Inv held untold owed) wait (fun _ => Inv held untold owed) (Sound held) := by
  intro s hs
  have hsound : Sound held { s with awaits := s.awaits + 1 } := hs.sound.unchanged
  by_cases hcut : s.cut s.awaits = true
  · have hwait : wait s = .error () { s with awaits := s.awaits + 1 } := if_pos hcut
    rw [hwait]
    exact hsound
  · have hwait : wait s = .ok () { s with awaits := s.awaits + 1 } := if_neg hcut
    rw [hwait]
    exact ⟨hsound, hs.keys, hs.replied, hs.told⟩

theorem sleep_inv (delay : Option Nat) :
    Triple (Inv held untold owed) (sleep delay) (fun _ => Inv held untold owed) (Sound held) := by
  unfold sleep
  split
  · exact wait_inv
  · exact Triple.pure fun _ h => h

/-- A channel in hand is dropped with the callback. -/
theorem holding_inv {program : FixtureM α} {channel : Nat} {P : FixtureHandler → Prop}
    {Q : α → FixtureHandler → Prop}
    (h : Triple P program Q (Sound (channel :: held))) :
    Triple P (holding channel program) Q (Sound held) := by
  intro s hs
  have hprogram := h s hs
  unfold holding
  cases hrun : program s with
  | ok value t =>
      rw [hrun] at hprogram
      exact hprogram
  | error error t =>
      -- the channel in hand is dropped with the callback
      rw [hrun] at hprogram
      refine ⟨hprogram.loopback, ?_, hprogram.forwards, hprogram.keys, hprogram.cancels,
        hprogram.told⟩
      refine List.Perm.trans ?_ hprogram.channels
      show (held ++ (t.channels.values ++ (t.served.map Prod.fst ++
        (t.droppedChannels ++ [channel])))).Perm _
      simp only [← List.append_assoc]
      exact List.perm_append_singleton channel _

/-! ### Channels -/

/-- The places of the channels have changed, and nothing else. -/
theorem Inv.of_places {held' : List Nat} (h : s.Inv held untold owed)
    (hchannels : (held' ++ (s'.channels.values ++ (s'.served.map Prod.fst ++
      s'.droppedChannels))).Perm (List.range s'.opened))
    (hattempts : s'.attempts = s.attempts) (hforwards : s'.remoteForwards = s.remoteForwards)
    (hstopped : s'.stopped = s.stopped) (hdroppedForwards : s'.droppedForwards = s.droppedForwards)
    (hstarted : s'.started = s.started) (hevents : s'.events = s.events)
    (hshell : s'.shell = s.shell) (hreplies : s'.replies = s.replies) :
    s'.Inv held' untold owed := by
  -- only the place of a channel is new
  constructor
  · constructor
    · rw [hattempts]
      exact h.sound.loopback
    · exact hchannels
    · rw [hforwards, hstopped, hdroppedForwards, hstarted]
      exact h.sound.forwards
    · rw [hforwards, hevents]
      exact h.sound.keys
    · rw [hevents]
      exact h.sound.cancels
    · rw [hevents, hreplies]
      exact h.sound.told
  · rw [hforwards, hevents]
    exact h.keys
  · rw [hshell]
    exact h.replied
  · rw [hevents, hreplies]
    exact h.told

/-- A channel that was opened is in the hands of the callback. -/
theorem openChannel_inv :
    Triple (Inv held untold owed) openChannel (fun channel => Inv (channel :: held) untold owed)
      (Sound held) := by
  intro s hs
  refine hs.of_places ?_ rfl rfl rfl rfl rfl rfl rfl rfl
  show (s.opened :: held ++ (s.channels.values ++ (s.served.map Prod.fst ++
    s.droppedChannels))).Perm (List.range (s.opened + 1))
  rw [List.range_succ]
  exact (hs.sound.channels.cons s.opened).trans (List.perm_append_singleton _ _).symm

/-- A channel in hand is dropped. -/
theorem dropChannel_inv (channel : Nat) :
    Triple (Inv (channel :: held) untold owed) (dropChannel channel)
      (fun _ => Inv held untold owed) (Sound held) := by
  intro s hs
  refine hs.of_places ?_ rfl rfl rfl rfl rfl rfl rfl rfl
  refine List.Perm.trans ?_ hs.sound.channels
  show (held ++ (s.channels.values ++ (s.served.map Prod.fst ++
    (s.droppedChannels ++ [channel])))).Perm _
  simp only [← List.append_assoc]
  exact List.perm_append_singleton channel _

/-- A channel in hand is given to a task, or dropped by a closed tracker. -/
theorem spawnServing_inv (channel : Nat) (work : ChildWork) :
    Triple (Inv (channel :: held) untold owed) (spawnServing channel work)
      (fun _ => Inv held untold owed) (Sound held) := by
  intro s hs
  -- a closed tracker spawns nothing
  by_cases hclosed : s.tasksClosed = true
  · have hspawn : spawnServing channel work s = dropChannel channel s := by
      show EStateM.Result.ok () (if s.tasksClosed = true then _ else _) = _
      rw [if_pos hclosed]
      rfl
    rw [hspawn]
    exact dropChannel_inv channel s hs
  · have hspawn : spawnServing channel work s =
        .ok () { s with served := s.served ++ [(channel, work)] } := by
      show EStateM.Result.ok () (if s.tasksClosed = true then _ else _) = _
      rw [if_neg hclosed]
    rw [hspawn]
    refine hs.of_places ?_ rfl rfl rfl rfl rfl rfl rfl rfl
    refine List.Perm.trans ?_ hs.sound.channels
    simp only [List.map_append, List.map_singleton, List.append_assoc, List.cons_append,
      List.nil_append]
    simp only [← List.append_assoc]
    exact List.perm_middle

/-- A channel goes into the table; the one it replaces is dropped. -/
theorem insertChannel_inv (name : ChannelId) (channel : Nat) :
    Triple (Inv (channel :: held) untold owed) (insertChannel name channel)
      (fun _ => Inv held untold owed) (Sound held) := by
  intro s hs
  refine hs.of_places ?_ rfl rfl rfl rfl rfl rfl rfl rfl
  refine List.Perm.trans ?_ hs.sound.channels
  show (held ++ ((s.channels.insert name channel).values ++ (s.served.map Prod.fst ++
    (s.droppedChannels ++ (s.channels.lookup? name).toList)))).Perm _
  exact ((Table.values_insert_perm ..).append_left held).trans List.perm_middle

/-- A channel of the table is taken into hand, if there is one. -/
theorem takeChannel_inv (name : ChannelId) :
    Triple (Inv held untold owed) (takeChannel name)
      (fun found => Inv (found.toList ++ held) untold owed) (Sound held) := by
  intro s hs
  refine hs.of_places ?_ rfl rfl rfl rfl rfl rfl rfl rfl
  refine List.Perm.trans ?_ hs.sound.channels
  show ((s.channels.lookup? name).toList ++ held ++ ((s.channels.erase name).values ++
    (s.served.map Prod.fst ++ s.droppedChannels))).Perm _
  have hvalues := Table.values_perm_erase s.channels name
  refine List.Perm.trans ?_ ((hvalues.symm.append_right _).append_left held)
  simp only [← List.append_assoc]
  exact (List.perm_append_comm.append_right _).append_right _ |>.append_right _

/-! ### Forwards -/

/-- An attempt on a loopback address is recorded. -/
theorem attempt_inv (made : NetAttempt) (hmade : made.address.ip.isLoopback = true) :
    Triple (Inv held untold owed) (attempt made) (fun _ => Inv held untold owed) (Sound held) := by
  intro s hs
  have hattempted : Inv held untold owed { s with attempts := s.attempts ++ [made] } := by
    refine ⟨⟨?_, hs.sound.channels, hs.sound.forwards, hs.sound.keys, hs.sound.cancels,
      hs.sound.told⟩,
      hs.keys, hs.replied, hs.told⟩
    intro other hother
    rcases List.mem_append.mp hother with hbefore | hnew
    · exact hs.sound.loopback other hbefore
    · rw [List.mem_singleton.mp hnew]
      exact hmade
  have hrest : Triple (Inv held untold owed) (wait >>= fun _ => pure (s.net s.attempts.length))
      (fun _ => Inv held untold owed) (Sound held) :=
    wait_inv.bind fun _ => Triple.pure fun _ h => h
  exact hrest _ hattempted

/-- Connecting tries loopback addresses only. -/
theorem connect_inv {addresses : List SocketAddr}
    (h : ∀ address ∈ addresses, address.ip.isLoopback = true) :
    Triple (Inv held untold owed) (connect addresses) (fun _ => Inv held untold owed)
      (Sound held) := by
  induction addresses with
  | nil => exact Triple.pure fun _ h => h
  | cons address addresses ih =>
      rw [List.forall_mem_cons] at h
      refine (attempt_inv (.connect address) h.1).bind fun answer => ?_
      cases answer with
      | ok localPort => exact Triple.pure fun _ h => h
      | refused => exact ih h.2

/-- Binding tries loopback addresses only. -/
theorem bindFirst_inv {addresses : List SocketAddr}
    (h : ∀ address ∈ addresses, address.ip.isLoopback = true) :
    Triple (Inv held untold owed) (bindFirst addresses) (fun _ => Inv held untold owed)
      (Sound held) := by
  induction addresses with
  | nil => exact Triple.pure fun _ h => h
  | cons address addresses ih =>
      rw [List.forall_mem_cons] at h
      refine (attempt_inv (.bind address) h.1).bind fun answer => ?_
      cases answer with
      | ok localPort => exact Triple.pure fun _ h => h
      | refused => exact ih h.2

/-- A forward that starts is recorded as it is put into the table. -/
theorem insertForward_inv (address : List Char) (port : UInt32) :
    Triple (Inv held [] owed)
      (do
        insertForward (address, port)
        record (.remoteForward address port true))
      (fun _ => Inv held [.remoteForward address port true] owed) (Sound held) := by
  intro s hs
  have hkeys : (s.remoteForwards.insert (address, port) s.started).keys =
      openForwards (s.events ++ [.remoteForward address port true]) := by
    rw [openForwards_concat, Table.keys_insert, hs.keys]
    rfl
  have htold : (s.events ++ [FixtureEvent.remoteForward address port true]).filter isOfReplies =
      s.replies ++ [.remoteForward address port true] := by
    rw [List.filter_append, hs.told, List.append_nil]
    rfl
  refine ⟨⟨hs.sound.loopback, hs.sound.channels, ?_, ?_, ?_, htold ▸ List.prefix_append _ _⟩,
    hkeys, hs.replied, htold⟩
  · -- another forward with the key is dropped
    show ((s.remoteForwards.insert (address, port) s.started).values ++ (s.stopped ++
      (s.droppedForwards ++ (s.remoteForwards.lookup? (address, port)).toList))).Perm
        (List.range (s.started + 1))
    rw [List.range_succ]
    refine (Table.values_insert_perm ..).trans ?_
    exact (hs.sound.forwards.cons s.started).trans (List.perm_append_singleton _ _).symm
  · exact hkeys ▸ List.Sublist.refl _
  · apply hs.sound.cancels.concat
    rintro other otherPort accepted ⟨⟩

/-- A forward has been taken out of the table, and its cancellation is not recorded yet. -/
structure Closing (held : List Nat) (owed : Owed) (key : ForwardKey) (accepted : Bool)
    (stopping : List Nat) (s : FixtureHandler) : Prop where
  loopback : ∀ made ∈ s.attempts, made.address.ip.isLoopback = true
  channels : (held ++ (s.channels.values ++ (s.served.map Prod.fst ++ s.droppedChannels))).Perm
    (List.range s.opened)
  forwards : (stopping ++ (s.remoteForwards.values ++ (s.stopped ++ s.droppedForwards))).Perm
    (List.range s.started)
  keys : s.remoteForwards.keys = (openForwards s.events).filter fun other => other ≠ key
  cancels : CancelsAgree s.events
  accepted : accepted = true ↔ key ∈ openForwards s.events
  replied : Replied owed s.shell
  told : s.events.filter isOfReplies = s.replies

variable {key : ForwardKey} {accepted : Bool}

/-- A forward that is cancelled leaves the table first; its key is still open for the events. -/
theorem takeForward_closing (key : ForwardKey) :
    Triple (Inv held [] owed) (takeForward key)
      (fun found => Closing held owed key found.isSome found.toList) (Sound held) := by
  intro s hs
  constructor
  · exact hs.sound.loopback
  · exact hs.sound.channels
  · show ((s.remoteForwards.lookup? key).toList ++ ((s.remoteForwards.erase key).values ++
      (s.stopped ++ s.droppedForwards))).Perm (List.range s.started)
    have hvalues := Table.values_perm_erase s.remoteForwards key
    rw [← List.append_assoc]
    exact (hvalues.symm.append_right _).trans hs.sound.forwards
  · show (s.remoteForwards.erase key).keys = _
    rw [Table.keys_erase, hs.keys]
  · exact hs.sound.cancels
  · show (s.remoteForwards.lookup? key).isSome = true ↔ _
    rw [← Table.mem_keys_iff, hs.keys]
  · exact hs.replied
  · exact hs.told.trans (List.append_nil _)

/-- The task is stopped, or dropped with the session. -/
theorem stopForward_closing (forward : Nat) :
    Triple (Closing held owed key accepted [forward]) (stopForward forward)
      (fun _ => Closing held owed key accepted []) (Sound held) := by
  intro s hs
  -- the session is dropped while it waits, or the forward is stopped
  by_cases hcut : s.cut s.awaits = true
  · have hstop : stopForward forward s =
        .error ()
          { s with
            awaits := s.awaits + 1
            droppedForwards := s.droppedForwards ++ [forward] } := if_pos hcut
    rw [hstop]
    refine ⟨hs.loopback, hs.channels, ?_, ?_, hs.cancels, hs.told ▸ List.prefix_rfl⟩
    · refine List.Perm.trans ?_ hs.forwards
      simp only [← List.append_assoc]
      exact List.perm_append_singleton forward _
    · show s.remoteForwards.keys.Sublist _
      rw [hs.keys]
      exact List.filter_sublist
  · have hstop : stopForward forward s =
        .ok () { s with awaits := s.awaits + 1, stopped := s.stopped ++ [forward] } :=
      if_neg hcut
    rw [hstop]
    refine ⟨hs.loopback, hs.channels, ?_, hs.keys, hs.cancels, hs.accepted, hs.replied, hs.told⟩
    refine List.Perm.trans ?_ hs.forwards
    show (s.remoteForwards.values ++ ((s.stopped ++ [forward]) ++ s.droppedForwards)).Perm
      (forward :: (s.remoteForwards.values ++ (s.stopped ++ s.droppedForwards)))
    simp only [List.append_assoc, List.singleton_append]
    simp only [← List.append_assoc]
    exact List.perm_middle

/-- Recording the cancellation closes the key for the events as well. -/
theorem record_closing :
    Triple (Closing held owed key accepted [])
      (record (.remoteForwardCancelled key.1 key.2 accepted))
      (fun _ => Inv held [.remoteForwardCancelled key.1 key.2 accepted] owed) (Sound held) := by
  intro s hs
  have hkeys : s.remoteForwards.keys =
      openForwards (s.events ++ [.remoteForwardCancelled key.1 key.2 accepted]) := by
    rw [openForwards_concat, hs.keys]
    rfl
  have htold : (s.events ++ [FixtureEvent.remoteForwardCancelled key.1 key.2 accepted]).filter
      isOfReplies = s.replies ++ [.remoteForwardCancelled key.1 key.2 accepted] := by
    rw [List.filter_append, hs.told]
    rfl
  refine ⟨⟨hs.loopback, hs.channels, hs.forwards, hkeys ▸ List.Sublist.refl _, ?_,
    htold ▸ List.prefix_append _ _⟩, hkeys, hs.replied, htold⟩
  apply hs.cancels.concat
  intro address port found heq
  cases heq
  exact hs.accepted

/-- A cancellation answers whether the forward was open, and records the same. -/
theorem cancelTcpipForward_inv (address : List Char) (port : UInt32) :
    Triple (Inv held [] owed) (cancelTcpipForward address port)
      (fun accepted => Inv held [.remoteForwardCancelled address port accepted] owed)
      (Sound held) := by
  refine (takeForward_closing (address, port)).bind fun task => ?_
  have hrecord : ∀ accepted, Triple (Closing held owed (address, port) accepted [])
      (do
        record (.remoteForwardCancelled address port accepted)
        pure accepted)
      (fun accepted => Inv held [.remoteForwardCancelled address port accepted] owed)
      (Sound held) :=
    fun accepted => record_closing.bind fun _ => Triple.pure fun _ h => h
  cases task with
  | none => exact hrecord false
  | some forward => exact (stopForward_closing forward).bind fun _ => hrecord true

/-! ### The callbacks -/

theorem authPublickey_inv [DecidableEq κ] (behavior : FixtureBehavior κ) (user : List Char)
    (key : κ) :
    Triple (Inv held [] owed) (authPublickey behavior user key)
      (fun accepted =>
        Inv held [.publicKeyAuth user (behavior.fingerprint key) accepted] owed)
      (Sound held) := by
  refine (sleep_inv _).bind fun _ => ?_
  exact (record_reply_inv _ rfl rfl).bind fun _ => Triple.pure fun _ h => h

theorem authPassword_inv (behavior : FixtureBehavior κ) (user password : List Char) :
    Triple (Inv held untold owed) (authPassword behavior user password)
      (fun _ => Inv held untold owed) (Sound held) :=
  (sleep_inv _).bind fun _ => Triple.pure fun _ h => h

/-- An opened channel goes into the table or is dropped. -/
theorem channelOpenSession_inv (behavior : FixtureBehavior κ) (name : ChannelId) :
    Triple (Inv held untold owed) (channelOpenSession behavior name) (fun _ => Inv held untold owed)
      (Sound held) := by
  refine openChannel_inv.bind fun channel => ?_
  refine (holding_inv (sleep_inv _)).bind fun _ => ?_
  have hrest : Triple (Inv (channel :: held) untold owed)
      (do
        record .sessionOpened
        insertChannel name channel
        pure true)
      (fun _ => Inv held untold owed) (Sound held) := by
    intro s hs
    have hrecord := record_inv .sessionOpened rfl rfl s hs
    exact ((insertChannel_inv name channel).bind fun _ => Triple.pure fun _ h => h) _ hrecord
  exact hrest

/-- A closed channel leaves the table, and its shell and buffer are given up. -/
theorem channelClose_inv (name : ChannelId) :
    Triple (Inv held untold owed) (channelClose name)
      (fun _ => Inv held untold ((owed.closeShell name).setBuffer name [])) (Sound held) := by
  refine (takeChannel_inv name).bind fun channel => ?_
  have hclose : Triple (Inv held untold owed)
      (modify fun s =>
        { s with
          shell :=
            { s.shell with
              shells := Function.update s.shell.shells name false
              shellBuffers := Function.update s.shell.shellBuffers name [] } } : FixtureM Unit)
      (fun _ => Inv held untold ((owed.closeShell name).setBuffer name [])) (Sound held) := by
    intro s hs
    have hreplied : Replied ((owed.closeShell name).setBuffer name [])
        { s.shell with
          shells := Function.update s.shell.shells name false
          shellBuffers := Function.update s.shell.shellBuffers name [] } :=
      ⟨congrArg (Function.update · name false) hs.replied.shells,
        congrArg (Function.update · name []) hs.replied.buffers, hs.replied.replies⟩
    exact ⟨hs.sound.unchanged, hs.keys, hreplied, hs.told⟩
  cases channel with
  | none => exact hclose
  | some channel => exact (dropChannel_inv channel).bind fun _ => hclose

/-- A request is replied to on its channel. -/
theorem ask_inv (name : ChannelId) {call : SessionCall} (hcall : call.isReply = true) :
    Triple (Inv held untold owed) (ofShell (ask name call))
      (fun _ => Inv held untold (owed.request name)) (Sound held) :=
  ofShell_inv (ask_replied hcall)

theorem agentRequest_inv (name : ChannelId) :
    Triple (Inv held [] owed) (agentRequest name)
      (fun accepted => Inv held [.agentForward accepted] (owed.request name)) (Sound held) := by
  refine (record_reply_inv _ rfl rfl).bind fun _ => ?_
  exact (ask_inv name rfl).bind fun _ => Triple.pure fun _ h => h

/-- A channel that has been taken is given to a task behind the reply. -/
theorem serving_inv (name : ChannelId) (channel : Nat) (work : ChildWork) :
    Triple (Inv (channel :: held) untold owed)
      (do
        holding channel (ofShell (ask name .channelSuccess))
        spawnServing channel work)
      (fun _ => Inv held untold (owed.request name)) (Sound held) :=
  (holding_inv (ask_inv name rfl)).bind fun _ => spawnServing_inv channel work

/-- A command is replied to once, whether `scp` or the table of commands answers it. -/
theorem execRequest_inv (behavior : FixtureBehavior κ) (name : ChannelId)
    (command : List UInt8) :
    Triple (Inv held untold owed) (execRequest behavior name command)
      (fun _ => Inv held untold (owed.request name)) (Sound held) := by
  unfold execRequest
  dsimp only
  cases Scp.parseScpRequest (String.ofList (Text.fromUtf8Lossy command)) with
  | some request =>
      refine (record_inv (.command (.exec _ _)) rfl rfl).bind fun _ => ?_
      refine (takeChannel_inv name).bind fun channel => ?_
      cases channel with
      | some channel => exact serving_inv name channel (.scp request)
      | none => exact ask_inv name rfl
  | none =>
      refine (record_inv (.command (.exec _ _)) rfl rfl).bind fun _ => ?_
      exact ofShell_inv (finishCommand_replied name _)

/-- A subsystem gets its channel, or the request is refused; either way it is answered once. -/
theorem subsystemRequest_inv (name : ChannelId) (subsystem : List Char) :
    Triple (Inv held untold owed) (subsystemRequest name subsystem)
      (fun _ => Inv held untold (owed.request name)) (Sound held) := by
  refine Triple.get.bind fun s => ?_
  refine Triple.weaken (P := Inv held untold owed) ?_ (fun _ h => h.2) fun _ _ h => h
  refine (record_inv _ rfl rfl).bind fun _ => ?_
  split
  · refine (takeChannel_inv name).bind fun channel => ?_
    cases channel with
    | some channel => exact serving_inv name channel .sftp
    | none => exact Triple.throw fun _ h => h.sound
  · exact ask_inv name rfl

/-- A direct connection is made to loopback addresses only; without one the channel is dropped. -/
theorem channelOpenDirectTcpip_inv (host : List Char) (port : UInt32) :
    Triple (Inv held [] owed) (channelOpenDirectTcpip host port)
      (fun accepted => Inv held [.directTcpip host port accepted] owed) (Sound held) := by
  refine openChannel_inv.bind fun channel => ?_
  -- a host that is not allowed is not connected to
  have hconnect : Triple (Inv (channel :: held) [] owed)
      (match endpoint host port with
        | some endpoint => connect endpoint.addresses
        | none => pure false)
      (fun _ => Inv (channel :: held) [] owed) (Sound (channel :: held)) := by
    cases endpoint host port with
    | some endpoint => exact connect_inv endpoint.loopback
    | none => exact Triple.pure fun _ h => h
  refine (holding_inv hconnect).bind fun accepted => ?_
  intro s hs
  have hrecord := record_reply_inv (.directTcpip host port accepted) rfl rfl s hs
  have hrest : Triple (Inv (channel :: held) [.directTcpip host port accepted] owed)
      (do
        if accepted then spawnServing channel .direct else dropChannel channel
        pure accepted)
      (fun accepted => Inv held [.directTcpip host port accepted] owed) (Sound held) := by
    cases accepted with
    | true => exact (spawnServing_inv channel .direct).bind fun _ => Triple.pure fun _ h => h
    | false => exact (dropChannel_inv channel).bind fun _ => Triple.pure fun _ h => h
  exact hrest _ hrecord

/-- A forward is recorded as it is answered, with the port that was bound. -/
theorem tcpipForward_inv (address : List Char) (requested : UInt32) :
    Triple (Inv held [] owed) (tcpipForward address requested)
      (fun allocated => Inv held [.remoteForward address allocated.2 allocated.1] owed)
      (Sound held) := by
  -- a refusal opens nothing and is recorded with the port that was asked for
  have hrefused : Triple (Inv held [] owed)
      (do
        record (.remoteForward address requested false)
        pure (false, requested))
      (fun allocated => Inv held [.remoteForward address allocated.2 allocated.1] owed)
      (Sound held) :=
    (record_reply_inv _ rfl rfl).bind fun _ => Triple.pure fun _ h => h
  unfold tcpipForward
  cases endpoint address requested with
  -- the address is no loopback one
  | none => exact hrefused
  | some endpoint =>
      refine (bindFirst_inv endpoint.loopback).bind fun answer => ?_
      cases answer with
      | none => exact hrefused
      | some localPort =>
          cases localPort with
          | none => exact Triple.throw fun _ h => h.sound
          | some localPort =>
              refine Triple.get.bind fun s => ?_
              refine Triple.weaken (P := Inv held [] owed) ?_ (fun _ h => h.2) fun _ _ h => h
              split
              · exact hrefused
              · -- the listener is bound: the forward is started under the port that it got
                have hstarted := @insertForward_inv held owed address localPort.toUInt32
                exact hstarted.bind fun _ => Triple.pure fun _ h => h

/-- The reply is left to the session. -/
theorem discard_inv {P : FixtureHandler → Prop} {Q : FixtureHandler → Prop}
    {E : FixtureHandler → Prop} {program : FixtureM α} (h : Triple P program (fun _ => Q) E) :
    Triple P (discard program) (fun _ => Q) E :=
  h.bind fun _ => Triple.pure fun _ hq => hq

/-- What a callback keeps: the input is answered as it is owed, and the events tell of it. -/
theorem handle_inv [DecidableEq κ] (behavior : FixtureBehavior κ) (input : Input κ) :
    Triple (Inv held [] owed) (handle behavior input)
      (fun _ => Inv held [] (input.owed owed)) (Sound held) := by
  -- one case for each callback; only what is owed to the channels differs
  cases input with
  | authPublickey user key => exact reply_inv (authPublickey_inv behavior user key)
  | authPassword user password => exact discard_inv (authPassword_inv behavior user password)
  | channelOpenSession name => exact discard_inv (channelOpenSession_inv behavior name)
  | channelClose name => exact channelClose_inv name
  | ptyRequest name term columns rows pixelWidth pixelHeight =>
      exact (record_inv _ rfl rfl).bind fun _ => ask_inv name rfl
  | shellRequest name => exact ofShell_inv (shellRequest_replied name)
  | execRequest name command => exact execRequest_inv behavior name command
  | data name bytes => exact ofShell_inv (data_replied behavior.commands name bytes)
  | windowChangeRequest columns rows pixelWidth pixelHeight => exact record_inv _ rfl rfl
  | agentRequest name => exact reply_inv (agentRequest_inv name)
  | subsystemRequest name subsystem => exact subsystemRequest_inv name subsystem
  | channelOpenDirectTcpip host port => exact reply_inv (channelOpenDirectTcpip_inv host port)
  | tcpipForward address port => exact reply_inv (tcpipForward_inv address port)
  | cancelTcpipForward address port => exact reply_inv (cancelTcpipForward_inv address port)
  | tasksClose =>
      intro s hs
      exact ⟨hs.sound.unchanged, hs.keys, hs.replied, hs.told⟩

/-- What a session keeps. -/
theorem serve_inv [DecidableEq κ] (behavior : FixtureBehavior κ) (inputs : List (Input κ)) :
    Triple (Inv held [] owed) (serve behavior inputs)
      (fun _ => Inv held [] (inputs.foldl Input.owed owed)) (Sound held) := by
  induction inputs generalizing owed with
  | nil => exact Triple.pure fun _ h => h
  | cons input inputs ih => exact (handle_inv behavior input).bind fun _ => ih

end Callbacks

/-! ## All sessions -/

/-- A session that has yet to receive anything. -/
def new (fault : Nat → Bool) (net : Nat → NetAnswer) (cut : Nat → Bool) : FixtureHandler :=
  { shell := { fault }, net, cut }

theorem new_inv (fault : Nat → Bool) (net : Nat → NetAnswer) (cut : Nat → Bool) :
    (new fault net cut).Inv [] [] {} := by
  refine ⟨⟨?_, List.Perm.refl _, List.Perm.refl _, List.Sublist.refl _, ?_, List.nil_prefix⟩, rfl,
    ⟨rfl, rfl, fun _ => rfl⟩, rfl⟩
  · intro made hmade
    cases hmade
  · intro before address port accepted after heq
    cases before <;> cases heq

/-- What a session leaves when it is dropped: it has touched loopback addresses only, each channel
has been served once or dropped, each forward has been stopped or dropped, no other forwards are
open than the events say, and what it has been told is a first part of what the events tell. -/
structure Ended (s : FixtureHandler) : Prop where
  loopback : ∀ made ∈ s.attempts, made.address.ip.isLoopback = true
  channels : (s.served.map Prod.fst ++ s.drop.droppedChannels).Perm (List.range s.opened)
  forwards : (s.stopped ++ s.drop.droppedForwards).Perm (List.range s.started)
  keys : s.remoteForwards.keys.Sublist (openForwards s.events)
  cancels : CancelsAgree s.events
  told : s.replies <+: s.events.filter isOfReplies

/-- What holds of a session that has answered all that it has received: moreover the open forwards
are those that the events say, each channel has had exactly the replies that it is owed, and the
session has been told all that the events tell. -/
structure Answered {κ : Type} (inputs : List (Input κ)) (s : FixtureHandler) : Prop where
  ended : s.Ended
  keys : s.remoteForwards.keys = openForwards s.events
  replied : ∀ channel, (s.shell.callsOf channel).countP SessionCall.isReply =
    (owedFor inputs).replies.count channel
  told : s.replies = s.events.filter isOfReplies

/-- A session that is dropped gives up what the tables have. -/
theorem Sound.ended {s : FixtureHandler} (h : s.Sound []) : s.Ended := by
  refine ⟨h.loopback, ?_, ?_, h.keys, h.cancels, h.told⟩
  · refine List.Perm.trans ?_ h.channels
    show (s.served.map Prod.fst ++ (s.droppedChannels ++ s.channels.values)).Perm _
    rw [← List.append_assoc]
    exact List.perm_append_comm
  · refine List.Perm.trans ?_ h.forwards
    show (s.stopped ++ (s.droppedForwards ++ s.remoteForwards.values)).Perm _
    rw [← List.append_assoc]
    exact List.perm_append_comm

/-- For every behaviour, whatever the client sends, the network answers and the session fails or is
dropped at: the session ends as `Ended` says, and as `Answered` says if no callback ended early. -/
theorem fixture_handler {κ : Type} [DecidableEq κ] (behavior : FixtureBehavior κ)
    (fault : Nat → Bool) (net : Nat → NetAnswer) (cut : Nat → Bool) (inputs : List (Input κ)) :
    Triple (· = new fault net cut) (serve behavior inputs) (fun _ => Answered inputs) Ended := by
  have hserve : Triple (Inv [] [] {}) (serve behavior inputs)
      (fun _ => Inv [] [] (owedFor inputs)) (Sound []) := serve_inv behavior inputs
  refine (hserve.weaken ?_ ?_).fails ?_
  · rintro s rfl
    exact new_inv fault net cut
  · intro value s h
    exact ⟨h.sound.ended, h.keys, h.replied.replies, (h.told.trans (List.append_nil _)).symm⟩
  · intro s h
    exact h.ended

end FixtureHandler

end Rssh.Fixture
