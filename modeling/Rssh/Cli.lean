import Rssh.Channel.Startup
import Rssh.Runner.Split

/-!
# The `rssh` command

`main` parses the arguments, opens a channel, pumps the session between the console
and the remote side, and turns what came of it into a process exit code.

Main results:

- `session_metadata`: a session that ends well reports the last exit status and the
  last exit signal among the messages its reader consumed.
- `exit_code_of_connection`: what the exit code of a connection says about the session.
-/

namespace Rssh

def SshAuthError.debug : SshAuthError → String
  | .emptyPassword => "EmptyPassword"
  | .emptyPrivateKeyPath => "EmptyPrivateKeyPath"

def SshConfigError.debug : SshConfigError → String
  | .emptyHost => "EmptyHost"
  | .emptyUsername => "EmptyUsername"
  | .invalidPort => "InvalidPort"
  | .invalidTerminalSize => "InvalidTerminalSize"

def SshStartupError.debug : SshStartupError → String
  | .emptyCommand => "EmptyCommand"

namespace Cli

open ChannelMsg

/-! ## Arguments -/

def helpText : String :=
  "rssh [--known-hosts FILE] [-p PORT] [-i KEY | --password] USER@HOST [COMMAND ...]\n\n" ++
  "Native SSH trial. Default authentication: agent. Unknown/changed keys are rejected.\n" ++
  "Commands run through a remote PTY; stdin/stdout are streamed in both directions.\n" ++
  "Interactive input currently uses the host console's cooked mode.\n" ++
  "OpenSSH config, scp/sftp and forwarding CLI options are not implemented."

structure Options where
  host : String
  user : String
  port : UInt16
  knownHosts : String
  auth : SshAuthMethod
  command : List String
deriving DecidableEq, Repr

/-- The settings gathered before the destination. -/
structure Settings where
  knownHosts : Option String
  port : UInt16 := 22
  auth : SshAuthMethod := .agent
  authSelected : Bool := false
deriving DecidableEq, Repr

/-- `PathBuf::join` with a relative path. -/
def joinPath (base relative : String) : String :=
  if base = "" ∨ base.toList.getLast? = some '/' then base ++ relative
  else base ++ "/" ++ relative

/-- The port after `-p`. -/
def parsePort (text : String) : Except String UInt16 :=
  match Text.parseUnsigned 10 65535 text.toList with
  | none => .error "invalid port"
  | some port =>
      if port = 0 then .error "port must be nonzero" else .ok (UInt16.ofNat port)

/-- The destination; all that follows it is the remote command. -/
def parseDestination (settings : Settings) (argument : String) (command : List String) :
    Except String Options :=
  match Text.splitOnce '@' argument.toList with
  | none => .error "destination must be USER@HOST"
  | some (user, host) =>
      if user = [] ∨ host = [] then .error "empty user or host"
      else
        match settings.knownHosts with
        | none => .error "home unavailable; supply --known-hosts"
        | some knownHosts =>
            .ok { host := String.ofList host, user := String.ofList user, port := settings.port,
                  knownHosts, auth := settings.auth, command }

/-- The loop of `parse`. -/
def parseLoop (settings : Settings) : List String → Except String Options
  | [] => .error ("missing destination\n" ++ helpText)
  | argument :: rest =>
      if argument = "-p" then
        match rest with
        | [] => .error "-p requires a port"
        | value :: rest =>
            match parsePort value with
            | .error error => .error error
            | .ok port => parseLoop { settings with port } rest
      else if argument = "--known-hosts" then
        match rest with
        | [] => .error "--known-hosts requires a file"
        | value :: rest => parseLoop { settings with knownHosts := some value } rest
      else if argument = "-i" ∨ argument = "--password" then
        if settings.authSelected then .error "select only one authentication method"
        else if argument = "-i" then
          match rest with
          | [] => .error "-i requires a key file"
          | value :: rest =>
              match SshAuthMethod.ofPrivateKey value none with
              | .error error => .error error.debug
              | .ok auth => parseLoop { settings with auth, authSelected := true } rest
        else parseLoop { settings with auth := .passwordPrompt, authSelected := true } rest
      else if argument.toList.head? = some '-' then .error ("unknown option: " ++ argument)
      else parseDestination settings argument rest

/-- `parse`: `none` after the help or the version has been printed. -/
def parse (home : Option String) (args : List String) : Except String (Option Options) :=
  if args = ["--help"] ∨ args = ["-h"] ∨ args = ["--version"] then .ok none
  else
    (parseLoop { knownHosts := home.map (joinPath · ".ssh/known_hosts") } args).map some

/-! ## A connection -/

/-- `RusshChannelOpener::default()` with a known-hosts path and a secret provider. -/
def cliOpener : RusshChannelOpener := {}

/-- All that the outside decides about one run of the command: the home directory, the
steps of the opening, the messages of the server, the console input, and how the two
threads of the pump take turns. -/
structure CliEnv where
  home : Option String
  opening : OpenEnv cliOpener
  messages : List ChannelMsg
  input : List SshInputEvent
  trace : List (RunnerLabel (Nat → Bool))

/-- A shell, unless there is a command. -/
def startupOf (command : List String) : Except String SshSessionStartup :=
  if command = [] then .ok .shell
  else (SshSessionStartup.ofCommand command).mapError SshStartupError.debug

/-- The first half of `run`: check the configuration and open the channel. -/
def connect (env : CliEnv) (options : Options) : Except String RusshChannelReader := do
  let config ←
    (SshSessionConfig.tryNew options.host options.port options.user ⟨80, 24⟩).mapError
      SshConfigError.debug
  let startup ← startupOf options.command
  (cliOpener.openChannel env.opening { config, auth := options.auth, startup }
    env.messages).mapError SshSessionError.message

/-- The exit code of a completed session; a status that does not fit a byte is 255. -/
def sessionExitCode (result : SshSessionResult) : UInt8 :=
  if result.exitSignal.isSome then 255
  else
    match result.exitStatus with
    | none => 255
    | some status => if status.toNat < 256 then status.toUInt8 else 255

/-- The pump's runner after the turns of the environment. -/
def pumped (env : CliEnv) (reader : RusshChannelReader) :
    Option (RunnerState RusshChannelReader) :=
  (splitRunner russhShellReader).run (.init env.input reader) env.trace

/-- The value of the pump, once its runner has returned. -/
def pumpResult (env : CliEnv) (reader : RusshChannelReader) :
    Option (Except SshSessionError SshSessionOutcome) :=
  match (pumped env reader).map RunnerState.out with
  | some (.returned _ result) => some result
  | _ => none

/-- `run`; `none` while the pump has not returned. -/
def run (env : CliEnv) (options : Options) : Option (Except String UInt8) :=
  match connect env options with
  | .error error => some (.error error)
  | .ok reader =>
      (pumpResult env reader).map fun result =>
        match result with
        | .error error => .error error.message
        | .ok outcome => .ok (sessionExitCode outcome.result)

/-- `main`: the process exit code. -/
def exitCode (env : CliEnv) (args : List String) : Option UInt8 :=
  match parse env.home args with
  | .error _ => some 255
  | .ok none => some 0
  | .ok (some options) =>
      (run env options).map fun result =>
        match result with
        | .error _ => 255
        | .ok code => code

/-! ## What the exit code says -/

/-- The configuration is accepted and every step of the opening succeeds. -/
def Connects (env : CliEnv) (options : Options) : Prop :=
  ∃ config startup,
    SshSessionConfig.tryNew options.host options.port options.user ⟨80, 24⟩ = .ok config ∧
    startupOf options.command = .ok startup ∧
    env.opening.AllSucceed
      (.fromOpenPlan (.fromRequest { config, auth := options.auth, startup }))

/-- A connection gives a reader of all messages of the session. -/
theorem connect_ok_iff {env : CliEnv} {options : Options} {reader : RusshChannelReader} :
    connect env options = .ok reader ↔
      Connects env options ∧ reader = { readHalf := env.messages } := by
  simp only [connect, Connects, RusshChannelOpener.openChannel, except_bind_eq_ok_iff,
    except_mapError_eq_ok_iff, RusshChannelOpener.openPlanned_ok_iff]
  constructor
  · rintro ⟨config, hconfig, startup, hstartup, hsteps, hreader⟩
    exact ⟨⟨config, startup, hconfig, hstartup, hsteps⟩, hreader⟩
  · rintro ⟨⟨config, startup, hconfig, hstartup, hsteps⟩, hreader⟩
    exact ⟨config, hconfig, startup, hstartup, hsteps, hreader⟩

/-- When the pump returns, its reader has consumed a part of the messages, and a result
without error carries what that part says. -/
theorem session_metadata {env : CliEnv} {s : RunnerState RusshChannelReader}
    {outputResult : Except SshSessionError Unit}
    {result : Except SshSessionError SshSessionOutcome}
    (hrun : pumped env { readHalf := env.messages } = some s)
    (hreturned : s.out = .returned outputResult result) :
    ∃ consumed, env.messages = consumed ++ s.copy.reader.readHalf ∧
      ∀ outcome, result = .ok outcome → outcome.result = lastResult consumed := by
  have hstep := reader_step_inv (R := russhShellReader) (P := Consumes env.messages)
    fun r elapsed h => russhShellReader_consumes h elapsed copyBufferSize
  rcases Machine.run_invariant hstep hrun (consumes_init env.messages none) with
    ⟨consumed, hall, hresult⟩
  refine ⟨consumed, hall, ?_⟩
  rintro outcome rfl
  have hout := (Machine.run_invariant (thread_step_inv russhShellReader) hrun
    (thread_inv_init russhShellReader env.input { readHalf := env.messages })).2
  simp only [OutputInv, hreturned] at hout
  rw [hout.result_eq, ← hresult]
  rfl

/-- What an exit code says about a session whose reader has consumed `consumed` and whose
pump has returned `result`. -/
structure Agrees (consumed : List ChannelMsg) (result : Except SshSessionError SshSessionOutcome)
    (code : UInt8) : Prop where
  zero : code = 0 →
    (lastResult consumed).exitStatus = some 0 ∧ ∀ m ∈ consumed, m.exitSignal? = none
  signal : (∃ m ∈ consumed, m.exitSignal? ≠ none) → code = 255
  missing : (∀ m ∈ consumed, m.exitStatus? = none) → code = 255
  large : ∀ status, (lastResult consumed).exitStatus = some status → 255 < status.toNat →
    code = 255
  failed : ∀ error, result = .error error → code = 255

/-- The exit code agrees with the messages that were consumed. -/
theorem sessionExitCode_agrees (consumed : List ChannelMsg) {outcome : SshSessionOutcome} :
    Agrees consumed (.ok outcome) (sessionExitCode (lastResult consumed)) := by
  have hsignal : (lastResult consumed).exitSignal.isSome = false ↔
      ∀ m ∈ consumed, m.exitSignal? = none := by
    simp [lastResult]
  have hstatus : (lastResult consumed).exitStatus = none ↔
      ∀ m ∈ consumed, m.exitStatus? = none := by
    simp [lastResult]
  cases hsome : (lastResult consumed).exitSignal.isSome with
  | true =>
      -- a signal settles it
      have hcode : sessionExitCode (lastResult consumed) = 255 := by
        simp [sessionExitCode, hsome]
      rw [hcode]
      exact ⟨by simp, fun _ => rfl, fun _ => rfl, fun _ _ _ => rfl, by simp⟩
  | false =>
      have hnone := hsignal.mp hsome
      cases hlast : (lastResult consumed).exitStatus with
      | none =>
          have hcode : sessionExitCode (lastResult consumed) = 255 := by
            simp [sessionExitCode, hsome, hlast]
          rw [hcode]
          exact ⟨by simp, fun _ => rfl, fun _ => rfl, fun _ _ _ => rfl, by simp⟩
      | some status =>
          have hcode : sessionExitCode (lastResult consumed) =
              if status.toNat < 256 then status.toUInt8 else 255 := by
            simp [sessionExitCode, hsome, hlast]
          rw [hcode]
          refine ⟨fun hzero => ⟨?_, hnone⟩, ?_, ?_, ?_, by simp⟩
          · -- a status of which only the low byte is zero is too large to get here
            split at hzero
            · rename_i hlt
              have hnat : status.toNat = 0 := by
                have := congrArg UInt8.toNat hzero
                simp only [UInt32.toNat_toUInt8, UInt8.toNat_zero] at this
                omega
              rw [hlast, show status = 0 from UInt32.toNat_inj.mp hnat]
            · simp at hzero
          · rintro ⟨m, hm, hne⟩
            exact absurd (hnone m hm) hne
          · intro hall
            rw [hstatus.mpr hall] at hlast
            cases hlast
          · intro status' hstatus' hlarge
            obtain rfl : status = status' := Option.some.inj (hlast.symm.trans hstatus')
            rw [if_neg (by omega)]

/-- The code of a pump that has returned. -/
def codeOf : Except SshSessionError SshSessionOutcome → UInt8
  | .error _ => 255
  | .ok outcome => sessionExitCode outcome.result

theorem pumpResult_eq_some {env : CliEnv} {reader : RusshChannelReader}
    {result : Except SshSessionError SshSessionOutcome} (h : pumpResult env reader = some result) :
    ∃ s outputResult, pumped env reader = some s ∧ s.out = .returned outputResult result := by
  simp only [pumpResult] at h
  split at h
  · rename_i outputResult result' hout
    rcases Option.map_eq_some_iff.mp hout with ⟨s, hs, hsout⟩
    obtain rfl := Option.some.inj h
    exact ⟨s, outputResult, hs, hsout⟩
  · simp at h

/-- The exit code agrees with the messages when the outcome does. -/
theorem codeOf_agrees {consumed : List ChannelMsg}
    {result : Except SshSessionError SshSessionOutcome}
    (h : ∀ outcome, result = .ok outcome → outcome.result = lastResult consumed) :
    Agrees consumed result (codeOf result) := by
  cases result with
  | error error =>
      exact ⟨by simp [codeOf], fun _ => rfl, fun _ => rfl, fun _ _ _ => rfl, fun _ _ => rfl⟩
  | ok outcome =>
      rw [codeOf, h outcome rfl]
      exact sessionExitCode_agrees consumed

/-- The code that `main` makes of one connection. -/
theorem exitCode_eq_some {env : CliEnv} {args : List String} {options : Options} {code : UInt8}
    (hparse : parse env.home args = .ok (some options)) (h : exitCode env args = some code) :
    (∃ error, connect env options = .error error) ∧ code = 255 ∨
      ∃ reader result, connect env options = .ok reader ∧ pumpResult env reader = some result ∧
        code = codeOf result := by
  simp only [exitCode, hparse, run] at h
  cases hconnect : connect env options with
  | error error =>
      simp only [hconnect, Option.map_some, Option.some.injEq] at h
      exact .inl ⟨⟨error, rfl⟩, h.symm⟩
  | ok reader =>
      simp only [hconnect, Option.map_map, Option.map_eq_some_iff] at h
      rcases h with ⟨result, hresult, hcode⟩
      refine .inr ⟨reader, result, rfl, hresult, ?_⟩
      cases result <;> exact hcode.symm

/-- A code of zero means that the session ended, that the last exit status among the
consumed messages was zero and that none of them was an exit signal; every failure gives
255. -/
theorem exit_code_of_connection {env : CliEnv} {args : List String} {code : UInt8}
    (h : exitCode env args = some code) :
    (∀ error, parse env.home args = .error error → code = 255) ∧
    ∀ options, parse env.home args = .ok (some options) →
      (¬ Connects env options → code = 255) ∧
      (Connects env options →
        ∃ s outputResult result consumed,
          pumped env { readHalf := env.messages } = some s ∧
          s.out = .returned outputResult result ∧
          env.messages = consumed ++ s.copy.reader.readHalf ∧
          Agrees consumed result code) := by
  constructor
  · intro error hparse
    simp only [exitCode, hparse, Option.some.injEq] at h
    exact h.symm
  · intro options hparse
    rcases exitCode_eq_some hparse h with
      ⟨⟨error, hconnect⟩, hcode⟩ | ⟨reader, result, hconnect, hresult, hcode⟩
    · refine ⟨fun _ => hcode, fun hconnects => ?_⟩
      rw [connect_ok_iff.mpr ⟨hconnects, rfl⟩] at hconnect
      cases hconnect
    · rcases connect_ok_iff.mp hconnect with ⟨hconnects, rfl⟩
      refine ⟨fun hnot => absurd hconnects hnot, fun _ => ?_⟩
      rcases pumpResult_eq_some hresult with ⟨s, outputResult, hrun, hout⟩
      -- the metadata is that of the messages consumed, whatever the threads did
      rcases session_metadata hrun hout with ⟨consumed, hall, hmeta⟩
      exact ⟨s, outputResult, result, consumed, hrun, hout, hall, hcode ▸ codeOf_agrees hmeta⟩

/-- A remote command that prints one byte and exits with status 0. -/
def trueEnv : CliEnv where
  home := some "/home/u"
  opening := smoothOpening
  messages := [.success, .success, .data [33], .exitStatus 0, .eof, .close]
  input := []
  trace := [.copy (fun _ => false) .ok, .copy (fun _ => false) .ok, .cancel, .pump .advance,
    .exit, .join, .finalClose .done]

/-- `rssh u@h true` with a home directory. -/
def trueOptions : Options where
  host := "h"
  user := "u"
  port := 22
  knownHosts := "/home/u/.ssh/known_hosts"
  auth := .agent
  command := ["true"]

theorem trueOptions_connects : Connects trueEnv trueOptions :=
  ⟨⟨"h", 22, "u", ⟨80, 24⟩⟩, .command ["true"], by decide, by decide,
    ⟨.inr rfl, rfl, rfl, rfl, fun _ _ => rfl⟩⟩

/-- A command that ends with status 0 gives the exit code 0. -/
theorem exit_code_of_true :
    exitCode trueEnv ["u@h", "true"] = some 0 ∧
      ∃ consumed rest, trueEnv.messages = consumed ++ rest ∧
        (lastResult consumed).exitStatus = some 0 ∧ ∀ m ∈ consumed, m.exitSignal? = none := by
  have hcode : exitCode trueEnv ["u@h", "true"] = some 0 := by rfl
  have hparse : parse trueEnv.home ["u@h", "true"] = .ok (some trueOptions) := by rfl
  rcases ((exit_code_of_connection hcode).2 trueOptions hparse).2 trueOptions_connects with
    ⟨s, outputResult, result, consumed, hrun, hout, hall, hagrees⟩
  exact ⟨hcode, consumed, s.copy.reader.readHalf, hall, hagrees.zero rfl⟩

end Cli

end Rssh
