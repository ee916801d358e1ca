import Rssh.Lib.Text

/-!
# Session data model

The records and enumerations shared by the SSH client (`rssh-types` and the
public half of `rssh-ssh`): terminal sizes, the validated session configuration,
durations, authentication and startup requests, exit metadata and the local input
events of the full-duplex runner.

Field names and error texts are the source's. Types whose values carry no data
for the modelled functions (futures, handles, runtimes) have no counterpart here.
-/

namespace Rssh

/-- PTY dimensions (`u16` columns and rows). -/
structure TerminalSize where
  columns : UInt16
  rows : UInt16
deriving DecidableEq, Repr

/-- `SshSessionError`: a message. -/
structure SshSessionError where
  message : String
deriving DecidableEq, Repr

/-! ## Durations -/

/-- `std::time::Duration`. -/
structure Duration where
  nanos : Nat
deriving DecidableEq, Repr

/-- A decimal number with a fixed count of fractional digits, trailing zeros
dropped. -/
def decimalDebug (integer fractional digits : Nat) : String :=
  let text := (Nat.repr fractional).toList
  let padded := List.replicate (digits - text.length) '0' ++ text
  let kept := (padded.reverse.dropWhile (· == '0')).reverse
  if kept = [] then Nat.repr integer else Nat.repr integer ++ "." ++ String.ofList kept

/-- The `Debug` text of a duration, in the largest unit that is not zero. -/
def Duration.debug (d : Duration) : String :=
  if 10 ^ 9 ≤ d.nanos then decimalDebug (d.nanos / 10 ^ 9) (d.nanos % 10 ^ 9) 9 ++ "s"
  else if 10 ^ 6 ≤ d.nanos then decimalDebug (d.nanos / 10 ^ 6) (d.nanos % 10 ^ 6) 6 ++ "ms"
  else if 10 ^ 3 ≤ d.nanos then decimalDebug (d.nanos / 10 ^ 3) (d.nanos % 10 ^ 3) 3 ++ "µs"
  else Nat.repr d.nanos ++ "ns"

/-! ## Configuration and requests -/

inductive SshConfigError where
  | emptyHost
  | emptyUsername
  | invalidPort
  | invalidTerminalSize
deriving DecidableEq, Repr

structure SshSessionConfig where
  host : String
  port : UInt16
  username : String
  initialSize : TerminalSize
deriving DecidableEq, Repr

/-- `SshSessionConfig::try_new`: trims host and user, then checks the fields in
the order host, user, port, size. -/
def SshSessionConfig.tryNew (host : String) (port : UInt16) (username : String)
    (initialSize : TerminalSize) : Except SshConfigError SshSessionConfig :=
  let host := String.ofList (Text.trim host.toList)
  let username := String.ofList (Text.trim username.toList)
  if host = "" then .error .emptyHost
  else if username = "" then .error .emptyUsername
  else if port = 0 then .error .invalidPort
  else if initialSize.columns = 0 ∨ initialSize.rows = 0 then .error .invalidTerminalSize
  else .ok { host, port, username, initialSize }

inductive SshAuthMethod where
  | passwordPrompt
  | password (password : String)
  | privateKey (path : String) (passphrase : Option String)
  | agent
deriving DecidableEq, Repr

inductive SshAuthError where
  | emptyPassword
  | emptyPrivateKeyPath
deriving DecidableEq, Repr

/-- `SshAuthMethod::private_key`. -/
def SshAuthMethod.ofPrivateKey (path : String) (passphrase : Option String) :
    Except SshAuthError SshAuthMethod :=
  if path = "" then .error .emptyPrivateKeyPath else .ok (.privateKey path passphrase)

inductive SshStartupError where
  | emptyCommand
deriving DecidableEq, Repr

/-- What to start on the session channel. `command` carries an argument vector,
not shell text. -/
inductive SshSessionStartup where
  | shell
  | command (argv : List String)
  | noShell
deriving DecidableEq, Repr

/-- `SshSessionStartup::command`: refuses a vector whose words are all blank. -/
def SshSessionStartup.ofCommand (argv : List String) : Except SshStartupError SshSessionStartup :=
  if argv.all (fun argument => Text.trim argument.toList = []) then .error .emptyCommand
  else .ok (.command argv)

structure SshConnectRequest where
  config : SshSessionConfig
  auth : SshAuthMethod
  startup : SshSessionStartup
deriving DecidableEq, Repr

structure SshChannelOpenPlan where
  ptySize : Option TerminalSize
  startup : SshSessionStartup
deriving DecidableEq, Repr

/-- `SshChannelOpenPlan::from_request`: a PTY for shells and commands only. -/
def SshChannelOpenPlan.fromRequest (request : SshConnectRequest) : SshChannelOpenPlan where
  ptySize :=
    match request.startup with
    | .shell => some request.config.initialSize
    | .command _ => some request.config.initialSize
    | .noShell => none
  startup := request.startup

/-! ## Exit metadata -/

structure SshExitSignal where
  name : String
  coreDumped : Bool
  errorMessage : String
  langTag : String
deriving DecidableEq, Repr

/-- Last exit status and last exit signal; the two are independent. -/
structure SshSessionResult where
  exitStatus : Option UInt32 := none
  exitSignal : Option SshExitSignal := none
deriving DecidableEq, Repr

/-- Remote exit metadata and the byte counts of a completed pump (`u64`). -/
structure SshSessionOutcome where
  result : SshSessionResult
  inputBytes : Nat
  outputBytes : Nat
deriving DecidableEq, Repr

/-- `u64::MAX`. -/
def u64Max : Nat := 2 ^ 64 - 1

/-- `u64::saturating_add` on counters kept below `2 ^ 64`. -/
def saturatingAdd (a b : Nat) : Nat := min (a + b) u64Max

/-! ## Local input -/

/-- Bounded local-input message consumed by the full-duplex runner. -/
inductive SshInputEvent where
  | data (bytes : List UInt8)
  | resize (size : TerminalSize)
  | cancel
  | eof
  | error (message : String)
deriving DecidableEq, Repr

end Rssh
