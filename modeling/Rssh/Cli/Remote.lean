import Rssh.Cli
import Rssh.Runner.Delivery
import Rssh.Server.Requests

/-!
# A remote command from end to end

`rssh USER@HOST COMMAND ...` against the SSH fixture: the command line becomes a PTY and an exec
request, the fixture looks the command up and answers on the channel, and the client prints what it
is sent and exits with a code.

The transport keeps the order of what is sent on a channel, and may cut data into packets and add
messages of its own: `Carries` says so.

* `serve_asked` is what the fixture asks of its session for the command.
* `Carries.arrives` is what such calls look like at the client.
* `remote_command_delivered` puts the two together.
-/

namespace Rssh.Cli

open ChannelMsg Fixture Posix

/-! ## The transport -/

/-- What is sent on a channel, and the messages that arrive there. -/
inductive Carries : List SessionCall → List ChannelMsg → Prop
  | nil : Carries [] []
  | own {calls : List SessionCall} {messages : List ChannelMsg} (h : Carries calls messages) :
      Carries calls (.other :: messages)
  | success {calls : List SessionCall} {messages : List ChannelMsg} (h : Carries calls messages) :
      Carries (.channelSuccess :: calls) (.success :: messages)
  | failure {calls : List SessionCall} {messages : List ChannelMsg} (h : Carries calls messages) :
      Carries (.channelFailure :: calls) (.failure :: messages)
  | packet {calls : List SessionCall} {messages : List ChannelMsg} {packet rest : List UInt8}
      (hpacket : packet ≠ []) (h : Carries (.data rest :: calls) messages) :
      Carries (.data (packet ++ rest) :: calls) (.data packet :: messages)
  | sent {calls : List SessionCall} {messages : List ChannelMsg} (h : Carries calls messages) :
      Carries (.data [] :: calls) messages
  | extendedPacket {calls : List SessionCall} {messages : List ChannelMsg} {code : UInt32}
      {packet rest : List UInt8} (hpacket : packet ≠ [])
      (h : Carries (.extendedData code rest :: calls) messages) :
      Carries (.extendedData code (packet ++ rest) :: calls) (.extendedData code packet :: messages)
  | extendedSent {calls : List SessionCall} {messages : List ChannelMsg} {code : UInt32}
      (h : Carries calls messages) : Carries (.extendedData code [] :: calls) messages
  | exitStatus {calls : List SessionCall} {messages : List ChannelMsg} {status : UInt32}
      (h : Carries calls messages) :
      Carries (.exitStatusRequest status :: calls) (.exitStatus status :: messages)
  | exitSignal {calls : List SessionCall} {messages : List ChannelMsg} {signal : Sig}
      {coreDumped : Bool} {errorMessage lang : List Char} (h : Carries calls messages) :
      Carries (.exitSignalRequest signal coreDumped errorMessage lang :: calls)
        (.exitSignal signal coreDumped (String.ofList errorMessage) (String.ofList lang) ::
          messages)
  | eof {calls : List SessionCall} {messages : List ChannelMsg} (h : Carries calls messages) :
      Carries (.eof :: calls) (.eof :: messages)
  | close {calls : List SessionCall} {messages : List ChannelMsg} (h : Carries calls messages) :
      Carries (.close :: calls) (.close :: messages)

/-- The bytes that a call sends. -/
def sentBytes : SessionCall → List UInt8
  | .data bytes | .extendedData _ bytes => bytes
  | _ => []

def sentStatus? : SessionCall → Option UInt32
  | .exitStatusRequest status => some status
  | _ => none

def sentSignal? : SessionCall → Option SshExitSignal
  | .exitSignalRequest signal coreDumped errorMessage lang =>
      some ⟨signalNameText signal, coreDumped, String.ofList errorMessage, String.ofList lang⟩
  | _ => none

/-- The calls before CLOSE. -/
def untilClose (calls : List SessionCall) : List SessionCall := calls.takeWhile (· ≠ .close)

/-- The client gets, before Close, what was sent before it, and no empty payload. -/
structure Arrives (calls : List SessionCall) (messages : List ChannelMsg) : Prop where
  filled : NoEmptyPayload messages
  bytes : payload (beforeClose messages) = (untilClose calls).flatMap sentBytes
  status : (beforeClose messages).filterMap exitStatus? =
    (untilClose calls).filterMap sentStatus?
  signal : (beforeClose messages).filterMap exitSignal? =
    (untilClose calls).filterMap sentSignal?

theorem beforeClose_cons {m : ChannelMsg} (hm : m ≠ .close) (messages : List ChannelMsg) :
    beforeClose (m :: messages) = m :: beforeClose messages := by
  simp [beforeClose, hm]

theorem untilClose_cons {call : SessionCall} (hcall : call ≠ .close) (calls : List SessionCall) :
    untilClose (call :: calls) = call :: untilClose calls := by
  simp [untilClose, hcall]

section Arrives

variable {calls : List SessionCall} {messages : List ChannelMsg}

/-- A message that carries the whole of a call. -/
theorem Arrives.cons (h : Arrives calls messages) {call : SessionCall} {m : ChannelMsg}
    (hm : m ≠ .close) (hcall : call ≠ .close) (hfilled : m.payload? ≠ some [])
    (hbytes : m.payload?.getD [] = sentBytes call) (hstatus : m.exitStatus? = sentStatus? call)
    (hsignal : m.exitSignal? = sentSignal? call) : Arrives (call :: calls) (m :: messages) := by
  constructor
  · exact List.forall_mem_cons.mpr ⟨hfilled, h.filled⟩
  · rw [beforeClose_cons hm, untilClose_cons hcall, List.flatMap_cons, ← h.bytes, ← hbytes]
    rfl
  · rw [beforeClose_cons hm, untilClose_cons hcall, List.filterMap_cons, List.filterMap_cons,
      hstatus, h.status]
  · rw [beforeClose_cons hm, untilClose_cons hcall, List.filterMap_cons, List.filterMap_cons,
      hsignal, h.signal]

/-- A message that carries nothing of a call. -/
theorem Arrives.own (h : Arrives calls messages) : Arrives calls (.other :: messages) := by
  have hbefore := beforeClose_cons (m := .other) nofun messages
  constructor
  · exact List.forall_mem_cons.mpr ⟨nofun, h.filled⟩
  · rw [hbefore]
    exact h.bytes
  · rw [hbefore]
    exact h.status
  · rw [hbefore]
    exact h.signal

/-- A call with nothing left to send. -/
theorem Arrives.sent (h : Arrives calls messages) {call : SessionCall} (hcall : call ≠ .close)
    (hbytes : sentBytes call = []) (hstatus : sentStatus? call = none)
    (hsignal : sentSignal? call = none) : Arrives (call :: calls) messages := by
  constructor
  · exact h.filled
  · rw [untilClose_cons hcall, List.flatMap_cons, hbytes]
    exact h.bytes
  · rw [untilClose_cons hcall, List.filterMap_cons_none hstatus]
    exact h.status
  · rw [untilClose_cons hcall, List.filterMap_cons_none hsignal]
    exact h.signal

/-- A packet of a call, whose rest follows. -/
theorem Arrives.packet {whole rest : SessionCall} {m : ChannelMsg} {packet : List UInt8}
    (h : Arrives (rest :: calls) messages) (hm : m.payload? = some packet)
    (hpacket : packet ≠ []) (hwhole : whole ≠ .close) (hrest : rest ≠ .close)
    (hbytes : sentBytes whole = packet ++ sentBytes rest)
    (hstatus : sentStatus? whole = sentStatus? rest)
    (hsignal : sentSignal? whole = sentSignal? rest) :
    Arrives (whole :: calls) (m :: messages) := by
  have hpart : m ≠ .close ∧ m.exitStatus? = none ∧ m.exitSignal? = none := by
    cases m <;> simp_all [payload?, exitStatus?, exitSignal?]
  rcases h with ⟨hfilled, hsent, hstatuses, hsignals⟩
  rw [untilClose_cons hrest] at hsent hstatuses hsignals
  constructor
  · refine List.forall_mem_cons.mpr ⟨?_, hfilled⟩
    rw [hm]
    simpa using hpacket
  · rw [beforeClose_cons hpart.1, untilClose_cons hwhole, List.flatMap_cons, hbytes,
      List.append_assoc, ← List.flatMap_cons, ← hsent]
    simp [payload, hm]
  · rw [beforeClose_cons hpart.1, untilClose_cons hwhole, List.filterMap_cons_none hpart.2.1,
      hstatuses, List.filterMap_cons, List.filterMap_cons, hstatus]
  · rw [beforeClose_cons hpart.1, untilClose_cons hwhole, List.filterMap_cons_none hpart.2.2,
      hsignals, List.filterMap_cons, List.filterMap_cons, hsignal]

/-- A transport that carries the calls of a channel has its packets and results arrive. -/
theorem Carries.arrives (h : Carries calls messages) : Arrives calls messages := by
  induction h with
  | nil => exact ⟨fun m hm => absurd hm List.not_mem_nil, rfl, rfl, rfl⟩
  | own h ih => exact ih.own
  | success h ih | failure h ih | exitStatus h ih | exitSignal h ih | eof h ih =>
      exact ih.cons nofun nofun nofun rfl rfl rfl
  | packet hpacket h ih | extendedPacket hpacket h ih =>
      exact ih.packet rfl hpacket nofun nofun rfl rfl rfl
  | sent h ih | extendedSent h ih => exact ih.sent nofun rfl rfl rfl
  | close h ih => exact ⟨List.forall_mem_cons.mpr ⟨nofun, ih.filled⟩, rfl, rfl, rfl⟩

end Arrives

/-! ## The fixture -/

section Server

variable {κ : Type} {channel : ChannelId} {calls made : List SessionCall} {fault cut : Nat → Bool}

/-- A request of the startup plan, as the fixture receives it. -/
def received (channel : ChannelId) : RusshChannelStartupRequest → FixtureHandler.Input κ
  | .requestPty term columns rows pixelWidth pixelHeight =>
      .ptyRequest channel term.toList columns rows pixelWidth pixelHeight
  | .requestShell => .shellRequest channel
  | .exec command => .execRequest channel (Text.encodeUtf8 command.toList)

/-- The channel is opened, and the requests of the plan arrive in order. -/
def sessionInputs (channel : ChannelId) (plan : RusshChannelStartupPlan) :
    List (FixtureHandler.Input κ) :=
  .channelOpenSession channel :: plan.requests.map (received channel)

/-- A PTY and a command. -/
def commandPlan (command : String) : RusshChannelStartupPlan :=
  ⟨[.requestPty "xterm-256color" 80 24 0 0, .exec command]⟩

/-- These calls have been made for the channel, in a session that fails as given. -/
def Made (channel : ChannelId) (calls : List SessionCall) (fault : Nat → Bool) (s : Handler) :
    Prop :=
  s.callsOf channel = calls ∧ s.fault = fault

def Asked (channel : ChannelId) (calls : List SessionCall) (fault cut : Nat → Bool)
    (s : FixtureHandler) : Prop :=
  Made channel calls fault s.shell ∧ s.cut = cut

/-- A call is made, or the session has failed. -/
theorem ask_made (call : SessionCall) :
    Triple (Made channel calls fault) (ask channel call)
      (fun _ => Made channel (calls ++ [call]) fault) (fun _ => ∃ n, fault n = true) := by
  rintro s ⟨hcalls, rfl⟩
  by_cases hfault : s.fault s.calls.length = true
  · have hask : ask channel call s = .error () s := if_pos hfault
    rw [hask]
    exact ⟨_, hfault⟩
  · have hask : ask channel call s = .ok () (s.asked channel [call]) := if_neg hfault
    have hmade : (s.asked channel [call]).callsOf channel = s.callsOf channel ++ [call] := by
      simp [Handler.asked, Handler.callsOf]
    rw [hask]
    exact ⟨hmade.trans (by rw [hcalls]), rfl⟩

/-- All replies of an outcome are made, or the session has failed. -/
theorem finishCommand_made (outcome : CommandOutcome) :
    Triple (Made channel calls fault) (finishCommand channel outcome)
      (fun _ => Made channel (calls ++ outcome.replies) fault)
      (fun _ => ∃ n, fault n = true) := by
  rintro s ⟨hcalls, rfl⟩
  rcases finishCommand_cases channel outcome s with hrun | ⟨sent, n, _, hn, hrun⟩
  · rw [hrun]
    exact ⟨(callsOf_finishing s outcome outcome.replies).trans (by rw [hcalls]), rfl⟩
  · rw [hrun]
    exact ⟨n, hn⟩

/-- A callback of the shell is one of the fixture, and its errors end the session. -/
theorem ofShell_asked {program : HandlerM Unit}
    (h : Triple (Made channel calls fault) program (fun _ => Made channel made fault)
      (fun _ => ∃ n, fault n = true)) :
    Triple (Asked channel calls fault cut) (FixtureHandler.ofShell program)
      (fun _ => Asked channel made fault cut)
      (fun _ => ∃ n, fault n = true ∨ cut n = true) := by
  rintro s ⟨hmade, hcut⟩
  have hprogram := h { s.shell with events := [] } hmade
  unfold FixtureHandler.ofShell
  cases hrun : program { s.shell with events := [] } with
  | ok value shell =>
      rw [hrun] at hprogram
      exact ⟨hprogram, hcut⟩
  | error error shell =>
      rw [hrun] at hprogram
      exact hprogram.imp fun n hn => .inl hn

theorem record_asked (event : FixtureEvent) :
    Triple (Asked channel calls fault cut) (FixtureHandler.record event)
      (fun _ => Asked channel calls fault cut)
      (fun _ => ∃ n, fault n = true ∨ cut n = true) :=
  fun _ h => h

/-- Waiting makes no call. -/
theorem wait_asked :
    Triple (Asked channel calls fault cut) FixtureHandler.wait
      (fun _ => Asked channel calls fault cut)
      (fun _ => ∃ n, fault n = true ∨ cut n = true) := by
  rintro s ⟨hmade, rfl⟩
  by_cases hcut : s.cut s.awaits = true
  · have hwait : FixtureHandler.wait s = .error () { s with awaits := s.awaits + 1 } := if_pos hcut
    rw [hwait]
    exact ⟨_, .inr hcut⟩
  · have hwait : FixtureHandler.wait s = .ok () { s with awaits := s.awaits + 1 } := if_neg hcut
    rw [hwait]
    exact ⟨hmade, rfl⟩

/-- Opening a channel asks nothing of the session. -/
theorem channelOpenSession_asked (behavior : FixtureBehavior κ) (name : ChannelId) :
    Triple (Asked channel calls fault cut) (FixtureHandler.channelOpenSession behavior name)
      (fun _ => Asked channel calls fault cut)
      (fun _ => ∃ n, fault n = true ∨ cut n = true) := by
  refine Triple.bind (Q := fun _ => Asked channel calls fault cut) (fun s hs => hs) fun opened => ?_
  -- the delay that was configured
  have hsleep : Triple (Asked channel calls fault cut)
      (FixtureHandler.sleep behavior.channelOpenDelay) (fun _ => Asked channel calls fault cut)
      (fun _ => ∃ n, fault n = true ∨ cut n = true) := by
    unfold FixtureHandler.sleep
    split
    · exact wait_asked
    · exact Triple.pure fun s hs => hs
  -- the claim on one of the session slots
  have hholding : Triple (Asked channel calls fault cut)
      (FixtureHandler.holding opened (FixtureHandler.sleep behavior.channelOpenDelay))
      (fun _ => Asked channel calls fault cut)
      (fun _ => ∃ n, fault n = true ∨ cut n = true) := by
    intro s hs
    have hs' := hsleep s hs
    unfold FixtureHandler.holding
    cases hrun : FixtureHandler.sleep behavior.channelOpenDelay s with
    | ok value t | error error t =>
        rw [hrun] at hs'
        exact hs'
  refine hholding.bind fun _ => (record_asked _).bind fun _ => ?_
  exact fun s hs => hs

/-- A PTY is granted. -/
theorem ptyRequest_asked (term : List Char) (columns rows pixelWidth pixelHeight : UInt32) :
    Triple (Asked channel calls fault cut)
      (FixtureHandler.ptyRequest channel term columns rows pixelWidth pixelHeight)
      (fun _ => Asked channel (calls ++ [.channelSuccess]) fault cut)
      (fun _ => ∃ n, fault n = true ∨ cut n = true) :=
  (record_asked _).bind fun _ => ofShell_asked (ask_made .channelSuccess)

/-- A command that is not `scp` is looked up and finished. -/
theorem execRequest_asked (behavior : FixtureBehavior κ) {bytes : List UInt8}
    {command : List Char} (hbytes : Text.fromUtf8Lossy bytes = command)
    (hscp : Scp.parseScpRequest (String.ofList command) = none) :
    Triple (Asked channel calls fault cut) (FixtureHandler.execRequest behavior channel bytes)
      (fun _ => Asked channel
        (calls ++ (configuredCommand command behavior.commands).replies) fault cut)
      (fun _ => ∃ n, fault n = true ∨ cut n = true) := by
  unfold FixtureHandler.execRequest
  dsimp only
  rw [hbytes, hscp]
  exact (record_asked _).bind fun _ => ofShell_asked (finishCommand_made _)

/-- What the fixture asks of its session for a PTY and a command; it fails only with the
session. -/
theorem serve_asked [DecidableEq κ] (behavior : FixtureBehavior κ) (term : List Char)
    (columns rows : UInt32) {bytes : List UInt8} {command : List Char}
    (hbytes : Text.fromUtf8Lossy bytes = command)
    (hscp : Scp.parseScpRequest (String.ofList command) = none) :
    Triple (Asked channel [] fault cut)
      (FixtureHandler.serve behavior [.channelOpenSession channel,
        .ptyRequest channel term columns rows 0 0, .execRequest channel bytes])
      (fun _ => Asked channel
        (.channelSuccess :: (configuredCommand command behavior.commands).replies) fault cut)
      (fun _ => ∃ n, fault n = true ∨ cut n = true) := by
  refine Triple.bind (Q := fun _ => Asked channel [] fault cut) ?_ fun _ => ?_
  · exact (channelOpenSession_asked behavior channel).bind fun _ => Triple.pure fun s hs => hs
  refine (ptyRequest_asked _ _ _ _ _).bind fun _ => ?_
  exact (execRequest_asked behavior hbytes hscp).bind fun _ => Triple.pure fun s hs => hs

/-- A command session sends an open, a PTY request and the command. -/
theorem sessionInputs_command (command : String) :
    (sessionInputs channel (commandPlan command) : List (FixtureHandler.Input κ)) =
      [.channelOpenSession channel,
        .ptyRequest channel "xterm-256color".toList 80 24 0 0,
        .execRequest channel (Text.encodeUtf8 command.toList)] := rfl

/-- The calls of a session that has served a command. -/
theorem served_calls [DecidableEq κ] {behavior : FixtureBehavior κ} {command : String}
    {s₀ s : FixtureHandler} (hscp : Scp.parseScpRequest command = none)
    (hnew : s₀.shell.callsOf channel = [])
    (hserved : FixtureHandler.serve behavior (sessionInputs channel (commandPlan command)) s₀ =
      .ok () s) :
    s.shell.callsOf channel =
      .channelSuccess :: (configuredCommand command.toList behavior.commands).replies := by
  have hasked := serve_asked behavior "xterm-256color".toList 80 24
    (Text.fromUtf8Lossy_encodeUtf8 command.toList) (String.ofList_toList ▸ hscp) s₀
    ⟨⟨hnew, rfl⟩, rfl⟩
  rw [sessionInputs_command] at hserved
  rw [hserved] at hasked
  exact hasked.1.1

variable (channel) in
/-- A session in which nothing fails serves every command. -/
theorem serve_ok [DecidableEq κ] (behavior : FixtureBehavior κ) {command : String}
    {s₀ : FixtureHandler} (hscp : Scp.parseScpRequest command = none)
    (hnew : s₀.shell.callsOf channel = []) (hfault : s₀.shell.fault = fun _ => false)
    (hcut : s₀.cut = fun _ => false) :
    ∃ s, FixtureHandler.serve behavior (sessionInputs channel (commandPlan command)) s₀ =
      .ok () s := by
  have hasked := serve_asked behavior "xterm-256color".toList 80 24
    (Text.fromUtf8Lossy_encodeUtf8 command.toList) (String.ofList_toList ▸ hscp) s₀
    ⟨⟨hnew, hfault⟩, hcut⟩
  rw [← sessionInputs_command] at hasked
  cases hserved : FixtureHandler.serve behavior
      (sessionInputs channel (commandPlan command)) s₀ with
  | ok value s => exact ⟨s, rfl⟩
  | error error s =>
      rw [hserved] at hasked
      rcases hasked with ⟨n, hfailed | hfailed⟩ <;> cases hfailed

end Server

/-! ## The command line -/

/-- The request that the command line makes. -/
def requestOf (options : Options) : Except String SshConnectRequest := do
  let config ←
    (SshSessionConfig.tryNew options.host options.port options.user ⟨80, 24⟩).mapError
      SshConfigError.debug
  let startup ← startupOf options.command
  pure { config, auth := options.auth, startup }

/-- The exit metadata of a command. -/
def exitOf : CommandTermination → SshSessionResult
  | .status status => { exitStatus := some status }
  | .stall => {}
  | .signal signal coreDumped errorMessage =>
      { exitSignal := some
          ⟨signalNameText signal, coreDumped, String.ofList errorMessage, String.ofList []⟩ }

section Client

variable {options : Options} {request : SshConnectRequest}

/-- A command line with a command asks for a PTY and then for the command. -/
theorem plan_of_command (h : requestOf options = .ok request) (hcommand : options.command ≠ []) :
    RusshChannelStartupPlan.fromOpenPlan (.fromRequest request) =
      commandPlan (encodePosixRemoteCommand options.command) := by
  simp only [requestOf, except_bind_eq_ok_iff, except_mapError_eq_ok_iff] at h
  rcases h with ⟨config, hconfig, startup, hstartup, hrequest⟩
  have hsize : config.initialSize = ⟨80, 24⟩ := by
    unfold SshSessionConfig.tryNew at hconfig
    dsimp only at hconfig
    split_ifs at hconfig
    cases hconfig
    rfl
  -- a command is no login shell
  have hargv : startup = .command options.command := by
    simp only [startupOf, hcommand, if_false, except_mapError_eq_ok_iff,
      SshSessionStartup.ofCommand] at hstartup
    split_ifs at hstartup
    cases hstartup
    rfl
  cases hrequest
  simp only [SshChannelOpenPlan.fromRequest, hargv, RusshChannelStartupPlan.fromOpenPlan, hsize]
  rfl

/-- The bytes that the calls for a command send, its output before its error output. -/
theorem replies_bytes (outcome : CommandOutcome) :
    (untilClose (.channelSuccess :: outcome.replies)).flatMap sentBytes =
      outcome.stdout ++ outcome.stderr := by
  rcases outcome with ⟨accepted, stdout, stderr, termination, closes⟩
  unfold CommandOutcome.replies
  by_cases hout : stdout = [] <;> by_cases herr : stderr = [] <;>
    cases termination <;> cases accepted <;> simp [untilClose, sentBytes, hout, herr]

/-- The replies of an outcome name its exit status or its signal. -/
theorem replies_exit (outcome : CommandOutcome) :
    (untilClose (.channelSuccess :: outcome.replies)).filterMap sentStatus? =
        (exitOf outcome.termination).exitStatus.toList ∧
      (untilClose (.channelSuccess :: outcome.replies)).filterMap sentSignal? =
        (exitOf outcome.termination).exitSignal.toList := by
  rcases outcome with ⟨accepted, stdout, stderr, termination, closes⟩
  unfold CommandOutcome.replies
  by_cases hout : stdout = [] <;> by_cases herr : stderr = [] <;>
    cases termination <;> cases accepted <;>
      simp [untilClose, List.filterMap_cons, sentStatus?, sentSignal?, exitOf, hout, herr]

/-- The metadata that the client gets for the calls of a command. -/
theorem Arrives.lastResult_eq {outcome : CommandOutcome} {messages : List ChannelMsg}
    (h : Arrives (.channelSuccess :: outcome.replies) messages) :
    lastResult (beforeClose messages) = exitOf outcome.termination := by
  have hexit := replies_exit outcome
  have hlast : ∀ {α : Type} (found : Option α), found.toList.getLast? = found := by
    intro α found
    cases found <;> rfl
  unfold lastResult
  rw [h.status, h.signal, hexit.1, hexit.2, hlast, hlast]

end Client

/-! ## The session -/

section Session

variable {κ : Type} [DecidableEq κ] {channel : ChannelId} {s₀ s : FixtureHandler}
  {env : CliEnv} {args : List String} {options : Options} {request : SshConnectRequest}
  {code : UInt8}

/-- A command that the fixture has served, whatever its commands are and however the transport cuts
the output: whenever `rssh` has ended, either it has failed with an error and the code 255, or it
has printed the output and the error output of the command, and its code is that of the command's
status or signal. -/
theorem remote_command_delivered (behavior : FixtureBehavior κ)
    (hparse : parse env.home args = .ok (some options)) (hcommand : options.command ≠ [])
    (hrequest : requestOf options = .ok request)
    (hscp : Scp.parseScpRequest (encodePosixRemoteCommand options.command) = none)
    (hnew : s₀.shell.callsOf channel = [])
    (hserved : FixtureHandler.serve behavior
      (sessionInputs channel (.fromOpenPlan (.fromRequest request))) s₀ = .ok () s)
    (hcarried : Carries (s.shell.callsOf channel) env.messages)
    (hcode : exitCode env args = some code) :
    let outcome :=
      configuredCommand (encodePosixRemoteCommand options.command).toList behavior.commands
    (∃ error, run env options = some (.error error) ∧ code = 255) ∨
      run env options = some (.ok code) ∧
        code = sessionExitCode (exitOf outcome.termination) ∧
        ∃ runner, pumped env { readHalf := env.messages } = some runner ∧
          runner.copy.written = outcome.stdout ++ outcome.stderr := by
  intro outcome
  -- the exit code is that of the session, or 255
  have hrun : (∃ error, run env options = some (.error error) ∧ code = 255) ∨
      run env options = some (.ok code) := by
    simp only [exitCode, hparse, Option.map_eq_some_iff] at hcode
    rcases hcode with ⟨error | value, hresult, hvalue⟩
    · exact .inl ⟨error, hresult, hvalue.symm⟩
    · cases hvalue
      exact .inr hresult
  refine hrun.imp_right ?_
  intro hrun
  rw [plan_of_command hrequest hcommand] at hserved
  rw [served_calls hscp hnew hserved] at hcarried
  have harrives := hcarried.arrives
  refine ⟨hrun, ?_⟩
  cases hconnect : connect env options with
  | error error =>
      simp only [run, hconnect] at hrun
      cases hrun
  | ok reader =>
      simp only [run, hconnect, Option.map_eq_some_iff] at hrun
      rcases hrun with ⟨result, hresult, hvalue⟩
      cases result with
      | error error => cases hvalue
      | ok ended =>
          cases hvalue
          rcases connect_ok_iff.mp hconnect with ⟨-, rfl⟩
          rcases pumpResult_eq_some hresult with ⟨runner, outputResult, hpumped, hout⟩
          -- the output and the result of all messages before CLOSE
          rcases returned_ok_delivers harrives.filled hpumped hout with
            ⟨hwritten, -, hmetadata⟩
          refine ⟨?_, runner, hpumped, ?_⟩
          · show sessionExitCode ended.result = _
            rw [hmetadata, harrives.lastResult_eq]
          · rw [hwritten, harrives.bytes, replies_bytes]

/-- A fixture that answers every command alike. -/
def trialBehavior : FixtureBehavior Unit where
  authorizedKeys := []
  fingerprint _ := []
  passwords _ := none
  commands _ :=
    some { stdout := [0x6F, 0x6B, 0x0A], stderr := [0x21], termination := .status 42 }

/-- The output in two packets. -/
def trialEnv : CliEnv where
  home := some "/home/u"
  opening := smoothOpening
  messages := [.success, .success, .data [0x6F], .other, .data [0x6B, 0x0A],
    .extendedData 1 [0x21], .exitStatus 42, .eof, .close]
  input := []
  trace := [.copy (fun _ => false) .ok, .copy (fun _ => false) .ok, .copy (fun _ => false) .ok,
    .copy (fun _ => false) .ok, .cancel, .pump .advance, .exit, .join, .finalClose .done]

/-- The messages of the trial carry its calls in their order. -/
theorem trialEnv_carries : Carries
    [.channelSuccess, .channelSuccess, .data ([0x6F] ++ ([0x6B, 0x0A] ++ [])),
      .extendedData 1 ([0x21] ++ []), .exitStatusRequest 42, .eof, .close] trialEnv.messages := by
  refine .success (.success (.packet (by decide) (.own (.packet (by decide) (.sent ?_)))))
  exact .extendedPacket (by decide) (.extendedSent (.exitStatus (.eof (.close .nil))))

theorem trialBehavior_outcome (command : List Char) :
    configuredCommand command trialBehavior.commands =
      { accepted := true, stdout := [0x6F, 0x6B, 0x0A], stderr := [0x21],
        termination := .status 42, closes := true } := rfl

/-- The program run on the trial has the exit code of the command. -/
theorem trialEnv_exitCode : exitCode trialEnv ["u@h", "trial-status"] = some 42 := by rfl

def trialOptions : Options := { trueOptions with command := ["trial-status"] }

def trialRequest : SshConnectRequest :=
  ⟨⟨"h", 22, "u", ⟨80, 24⟩⟩, .agent, .command ["trial-status"]⟩

theorem trialEnv_parse :
    parse trialEnv.home ["u@h", "trial-status"] = .ok (some trialOptions) := by rfl

theorem trialRequest_made : requestOf trialOptions = .ok trialRequest := by decide

theorem trialCommand_scp :
    Scp.parseScpRequest (encodePosixRemoteCommand trialOptions.command) = none := by decide

/-- The trial goes through the program and the fixture. -/
theorem remote_command_delivered_trial :
    exitCode trialEnv ["u@h", "trial-status"] = some 42 ∧
      ∃ runner, pumped trialEnv { readHalf := trialEnv.messages } = some runner ∧
        runner.copy.written = [0x6F, 0x6B, 0x0A, 0x21] := by
  have hplan : RusshChannelStartupPlan.fromOpenPlan (.fromRequest trialRequest) =
      commandPlan (encodePosixRemoteCommand trialOptions.command) :=
    plan_of_command trialRequest_made (List.cons_ne_nil _ _)
  have hnew : ({} : FixtureHandler).shell.callsOf 0 = [] := rfl
  rcases serve_ok 0 trialBehavior trialCommand_scp hnew rfl rfl with ⟨s, hserved⟩
  have hcarried : Carries (s.shell.callsOf 0) trialEnv.messages := by
    rw [served_calls trialCommand_scp hnew hserved, trialBehavior_outcome]
    exact trialEnv_carries
  rw [← hplan] at hserved
  have hdelivered := remote_command_delivered trialBehavior trialEnv_parse
    (List.cons_ne_nil _ _) trialRequest_made trialCommand_scp hnew hserved hcarried
    trialEnv_exitCode
  dsimp only at hdelivered
  rw [trialBehavior_outcome] at hdelivered
  rcases hdelivered with ⟨error, -, hbad⟩ | ⟨-, -, runner, hpumped, hwritten⟩
  · cases hbad
  · exact ⟨trialEnv_exitCode, runner, hpumped, hwritten⟩

end Session

end Rssh.Cli
