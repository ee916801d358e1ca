import Rssh.Channel.Reader
import Rssh.Transfer.Path

/-!
# The shell of the SSH fixture

`FixtureHandler` answers a shell channel: data is collected until a line is complete, the line is
looked up among the configured commands, and `finish_command` sends the output, how it ended, EOF
and CLOSE.

* `data`, `configuredCommand` and `finishCommand` are the handler and what it calls; which calls
  of the session fail is a parameter, and an error ends the session.
* `Shell` is what the handler does to one channel, and `serve_shell` says that it does that and no
  more, whatever the other channels get.
* An input over the limit is answered like a command, but the channel stays a shell:
  `finishes_once_iff` says when a shell is still finished only once.
* The limit is compared with the whole message before a line is taken out of it:
  `cuts_agree_iff` says for which streams the cuts into messages do not matter.
-/

namespace Rssh.Fixture

open Posix

/-! ## Commands -/

abbrev ChannelId := Nat

def maxShellCommand : Nat := 4096

inductive CommandTermination where
  | status (status : UInt32)
  | stall
  | signal (signal : Sig) (coreDumped : Bool) (errorMessage : List Char)
deriving DecidableEq, Repr

structure CommandResponse where
  stdout : List UInt8
  stderr : List UInt8
  termination : CommandTermination
deriving DecidableEq, Repr

structure CommandOutcome where
  accepted : Bool
  stdout : List UInt8
  stderr : List UInt8
  termination : CommandTermination
  closes : Bool
deriving DecidableEq, Repr

def CommandOutcome.rejected : CommandOutcome where
  accepted := false
  stdout := []
  stderr := Text.encodeUtf8 "command rejected by hermetic SSH fixture\n".toList
  termination := .status 126
  closes := true

/-- The argument behind the name of a built-in command, if it is short and shows as it is. -/
def plainArgument (name command : List Char) : Option (List Char) :=
  (name.isPrefixOf? command).filter fun text =>
    (Text.encodeUtf8 text).length ≤ 1024 && !text.any isControl

/-- `configured_command`. -/
def configuredCommand (command : List Char) (commands : List Char → Option CommandResponse) :
    CommandOutcome :=
  match commands command with
  | some response =>
      { accepted := true, stdout := response.stdout, stderr := response.stderr,
        termination := response.termination, closes := true }
  | none =>
  match plainArgument "rssh-test-marker ".toList command with
  | some marker =>
      { accepted := true, stdout := Text.encodeUtf8 marker, stderr := [],
        termination := .status 0, closes := true }
  | none =>
  match plainArgument "echo ".toList command with
  | some message =>
      { accepted := true, stdout := Text.encodeUtf8 message ++ [0x0A], stderr := [],
        termination := .status 0, closes := true }
  | none =>
  match ("exit ".toList.isPrefixOf? command).bind (Text.parseUnsigned 10 255) with
  | some code =>
      { accepted := true, stdout := [], stderr := [],
        termination := .status (UInt32.ofNat code), closes := true }
  | none => .rejected

/-- Every command closes its shell. -/
theorem configuredCommand_closes (command : List Char)
    (commands : List Char → Option CommandResponse) :
    (configuredCommand command commands).closes = true := by
  unfold configuredCommand
  repeat' split
  all_goals rfl

/-! ## The handler -/

/-- What is asked of the session for a channel. -/
inductive SessionCall where
  | channelSuccess
  | channelFailure
  | data (bytes : List UInt8)
  | extendedData (code : UInt32) (bytes : List UInt8)
  | exitStatusRequest (status : UInt32)
  | exitSignalRequest (signal : Sig) (coreDumped : Bool) (errorMessage lang : List Char)
  | eof
  | close
deriving DecidableEq, Repr

/-- The events that a shell records. -/
inductive SshEvent where
  | shell
  | exec (command : List Char) (accepted : Bool)
deriving DecidableEq, Repr

/-- The part of `FixtureHandler` that shells use, with its session: the calls that were made on it
and those that will fail, by their number. The runs of `finish_command` are written down. -/
structure Handler where
  shells : ChannelId → Bool := fun _ => false
  shellBuffers : ChannelId → List UInt8 := fun _ => []
  events : List SshEvent := []
  calls : List (ChannelId × SessionCall) := []
  finished : List (ChannelId × CommandOutcome) := []
  fault : Nat → Bool := fun _ => false

/-- A callback; its error is one of the session. -/
abbrev HandlerM := EStateM Unit Handler

def ask (channel : ChannelId) (request : SessionCall) : HandlerM Unit := fun s =>
  if s.fault s.calls.length = true then .error () s
  else .ok () { s with calls := s.calls ++ [(channel, request)] }

def record (event : SshEvent) : HandlerM Unit :=
  modify fun s => { s with events := s.events ++ [event] }

/-- `finish_command`. -/
def finishCommand (channel : ChannelId) (outcome : CommandOutcome) : HandlerM Unit := do
  modify fun s => { s with finished := s.finished ++ [(channel, outcome)] }
  if outcome.accepted then ask channel .channelSuccess else ask channel .channelFailure
  if outcome.stdout ≠ [] then ask channel (.data outcome.stdout)
  if outcome.stderr ≠ [] then ask channel (.extendedData 1 outcome.stderr)
  match outcome.termination with
  | .stall => pure ()
  | .status status =>
      ask channel (.exitStatusRequest status)
      ask channel .eof
      ask channel .close
  | .signal signal coreDumped errorMessage =>
      ask channel (.exitSignalRequest signal coreDumped errorMessage [])
      ask channel .eof
      ask channel .close

/-- `shell_request`. -/
def shellRequest (channel : ChannelId) : HandlerM Unit := do
  record .shell
  modify fun s => { s with shells := Function.update s.shells channel true }
  ask channel .channelSuccess

def setBuffer (channel : ChannelId) (buffer : List UInt8) : HandlerM Unit :=
  modify fun s => { s with shellBuffers := Function.update s.shellBuffers channel buffer }

/-- The first line of a buffer with its newline, and what is behind it. -/
def firstLine (buffer : List UInt8) : Option (List UInt8 × List UInt8) :=
  (buffer.findIdx? (· = 0x0A)).map fun newline =>
    (buffer.take (newline + 1), buffer.drop (newline + 1))

/-- The command of a line: its end is cut off. -/
def commandOf (line : List UInt8) : List Char :=
  Text.fromUtf8Lossy (line.rdropWhile fun byte => byte = 0x0A ∨ byte = 0x0D)

theorem firstLine_shorter {buffer line rest : List UInt8}
    (h : firstLine buffer = some (line, rest)) : rest.length < buffer.length := by
  simp only [firstLine, Option.map_eq_some_iff, Prod.mk.injEq] at h
  rcases h with ⟨newline, hfound, _, hrest⟩
  have hlt : newline < buffer.length := (List.findIdx?_eq_some_iff_getElem.mp hfound).1
  rw [← hrest, List.length_drop]
  omega

section Data

variable (commands : List Char → Option CommandResponse)

/-- The loop over the lines of the buffer. -/
def runLines (channel : ChannelId) (buffer : List UInt8) : HandlerM Unit :=
  match _h : firstLine buffer with
  | none => pure ()
  | some (line, rest) => do
      setBuffer channel rest
      let command := commandOf line
      let outcome := configuredCommand command commands
      record (.exec command outcome.accepted)
      finishCommand channel outcome
      if outcome.closes then
        modify fun s => { s with shells := Function.update s.shells channel false }
      else runLines channel rest
termination_by buffer.length
decreasing_by exact firstLine_shorter _h

def data (channel : ChannelId) (data : List UInt8) : HandlerM Unit := do
  let s ← get
  if s.shells channel then
    let buffer := s.shellBuffers channel
    if buffer.length + data.length > maxShellCommand then
      -- the channel stays in `shells`: only a command takes it out
      setBuffer channel []
      finishCommand channel .rejected
    else
      setBuffer channel (buffer ++ data)
      runLines commands channel (buffer ++ data)

/-- The messages of a session, in the order in which they arrive. An error ends it. -/
def serveData : List (ChannelId × List UInt8) → HandlerM Unit
  | [] => pure ()
  | (channel, bytes) :: messages => do
      data commands channel bytes
      serveData messages

end Data

/-! ## Finishing a command -/

/-- What a channel has been finished with. -/
def Handler.finishesOf (s : Handler) (channel : ChannelId) : List CommandOutcome :=
  (s.finished.filter (·.1 = channel)).map Prod.snd

/-- What has been asked of the session for a channel. -/
def Handler.callsOf (s : Handler) (channel : ChannelId) : List SessionCall :=
  (s.calls.filter (·.1 = channel)).map Prod.snd

/-- What is asked of the session for an outcome. -/
def CommandOutcome.replies (outcome : CommandOutcome) : List SessionCall :=
  (if outcome.accepted then .channelSuccess else .channelFailure) ::
    ((if outcome.stdout ≠ [] then [.data outcome.stdout] else []) ++
      ((if outcome.stderr ≠ [] then [.extendedData 1 outcome.stderr] else []) ++
        match outcome.termination with
        | .stall => []
        | .status status => [.exitStatusRequest status, .eof, .close]
        | .signal signal coreDumped errorMessage =>
            [.exitSignalRequest signal coreDumped errorMessage [], .eof, .close]))

def askAll (channel : ChannelId) : List SessionCall → HandlerM Unit
  | [] => pure ()
  | request :: requests => do
      ask channel request
      askAll channel requests

/-- `finish_command` notes the outcome and asks for its replies, one after the other. -/
theorem finishCommand_eq (channel : ChannelId) (outcome : CommandOutcome) :
    finishCommand channel outcome =
      (modify fun s => { s with finished := s.finished ++ [(channel, outcome)] }) >>=
        fun _ => askAll channel outcome.replies := by
  rcases outcome with ⟨accepted, stdout, stderr, termination, closes⟩
  unfold finishCommand CommandOutcome.replies
  by_cases hout : stdout = [] <;> by_cases herr : stderr = [] <;>
    cases termination <;> cases accepted <;> simp [askAll, hout, herr]

/-- The handler after calls for a channel. -/
def Handler.asked (s : Handler) (channel : ChannelId) (made : List SessionCall) : Handler :=
  { s with calls := s.calls ++ made.map (channel, ·) }

/-- All requests are made, or those before the first one that fails. -/
theorem askAll_cases (channel : ChannelId) (requests : List SessionCall) (s : Handler) :
    askAll channel requests s = .ok () (s.asked channel requests) ∨
      ∃ made n, made <+: requests ∧ s.fault n = true ∧
        askAll channel requests s = .error () (s.asked channel made) := by
  induction requests generalizing s with
  | nil =>
      left
      simp [askAll, Handler.asked, pure_eq_ok_iff]
  | cons request requests ih =>
      by_cases hfault : s.fault s.calls.length = true
      · -- the session fails here, and what was asked stays asked
        have hask : ask channel request s = .error () s := if_pos hfault
        refine .inr ⟨[], s.calls.length, List.nil_prefix, hfault, ?_⟩
        rw [askAll, bind_of_error hask]
        simp [Handler.asked]
      · have hask : ask channel request s = .ok () (s.asked channel [request]) := if_neg hfault
        have hasked : ∀ made, (s.asked channel [request]).asked channel made =
            s.asked channel (request :: made) := by
          intro made
          simp [Handler.asked]
        rw [askAll, bind_of_ok hask]
        rcases ih (s.asked channel [request]) with hrest | ⟨made, n, hmade, hn, hrest⟩
        · rw [hrest, hasked]
          exact .inl rfl
        · rw [hrest, hasked]
          exact .inr ⟨request :: made, n, List.cons_prefix_cons.mpr ⟨rfl, hmade⟩, hn, rfl⟩

/-- The handler after a run of `finish_command` that has made these calls. -/
def Handler.finishing (s : Handler) (channel : ChannelId) (outcome : CommandOutcome)
    (made : List SessionCall) : Handler :=
  ({ s with finished := s.finished ++ [(channel, outcome)] } : Handler).asked channel made

/-- `finish_command` makes all its calls, or those before one that fails. -/
theorem finishCommand_cases (channel : ChannelId) (outcome : CommandOutcome) (s : Handler) :
    finishCommand channel outcome s = .ok () (s.finishing channel outcome outcome.replies) ∨
      ∃ made n, made <+: outcome.replies ∧ s.fault n = true ∧
        finishCommand channel outcome s = .error () (s.finishing channel outcome made) := by
  rw [finishCommand_eq]
  exact askAll_cases channel outcome.replies
    { s with finished := s.finished ++ [(channel, outcome)] }

/-! ## One shell -/

/-- A shell with its input that has no newline yet, or one that a command has closed. -/
inductive Shell where
  | live (buffer : List UInt8)
  | closed

/-- What a message makes of a shell, with what it is finished with and the event. -/
structure Answer where
  shell : Shell
  outcome : Option CommandOutcome := none
  event : Option SshEvent := none

namespace Shell

variable (commands : List Char → Option CommandResponse)

def feed : Shell → List UInt8 → Answer
  | .closed, _ => { shell := .closed }
  | .live buffer, data =>
      if buffer.length + data.length > maxShellCommand then
        { shell := .live [], outcome := some .rejected }
      else
        match firstLine (buffer ++ data) with
        | none => { shell := .live (buffer ++ data) }
        | some (line, _) =>
            let outcome := configuredCommand (commandOf line) commands
            { shell := .closed, outcome := some outcome,
              event := some (.exec (commandOf line) outcome.accepted) }

section Feed

variable {commands} {buffer data : List UInt8}

theorem feed_overLimit (h : maxShellCommand < buffer.length + data.length) :
    (live buffer).feed commands data = { shell := .live [], outcome := some .rejected } :=
  if_pos h

/-- Input without a newline is kept. -/
theorem feed_noLine (h : buffer.length + data.length ≤ maxShellCommand)
    (hline : firstLine (buffer ++ data) = none) :
    (live buffer).feed commands data = { shell := .live (buffer ++ data) } := by
  rw [feed, if_neg (Nat.not_lt.mpr h), hline]

/-- A complete line runs its command and the shell is closed. -/
theorem feed_line {line rest : List UInt8} (h : buffer.length + data.length ≤ maxShellCommand)
    (hline : firstLine (buffer ++ data) = some (line, rest)) :
    (live buffer).feed commands data =
      { shell := .closed, outcome := some (configuredCommand (commandOf line) commands),
        event := some (.exec (commandOf line)
          (configuredCommand (commandOf line) commands).accepted) } := by
  rw [feed, if_neg (Nat.not_lt.mpr h), hline]

end Feed

/-- What a shell is finished with by a sequence of messages. -/
def outcomes : Shell → List (List UInt8) → List CommandOutcome
  | _, [] => []
  | shell, data :: messages =>
      (shell.feed commands data).outcome.toList ++
        outcomes (shell.feed commands data).shell messages

/-- The events of a sequence of messages. -/
def events : Shell → List (List UInt8) → List SshEvent
  | _, [] => []
  | shell, data :: messages =>
      (shell.feed commands data).event.toList ++
        events (shell.feed commands data).shell messages

end Shell

/-- The handler has this shell on the channel. -/
def Shows (channel : ChannelId) (s : Handler) : Shell → Prop
  | .live buffer => s.shells channel = true ∧ s.shellBuffers channel = buffer ∧ 0x0A ∉ buffer
  | .closed => s.shells channel = false

/-- What a message has left on its channel. -/
structure Reports (channel : ChannelId) (s : Handler) (answer : Answer) (s' : Handler) : Prop where
  finished : s'.finishesOf channel = s.finishesOf channel ++ answer.outcome.toList
  events : s'.events = s.events ++ answer.event.toList
  calls : ∃ made, s'.callsOf channel = s.callsOf channel ++ made ∧
    made <+: (answer.outcome.toList.flatMap CommandOutcome.replies)
  fault : s'.fault = s.fault

/-- A buffer has no complete line exactly when it has no newline. -/
theorem firstLine_eq_none_iff {buffer : List UInt8} :
    firstLine buffer = none ↔ 0x0A ∉ buffer := by
  simp only [firstLine, Option.map_eq_none_iff, List.findIdx?_eq_none_iff, decide_eq_false_iff_not]
  constructor
  · intro h hmem
    exact h 0x0A hmem rfl
  · intro h byte hmem heq
    exact h (heq ▸ hmem)

section Steps

variable {commands : List Char → Option CommandResponse} {channel : ChannelId}

theorem finishesOf_finishing (s : Handler) (outcome : CommandOutcome) (made : List SessionCall) :
    (s.finishing channel outcome made).finishesOf channel = s.finishesOf channel ++ [outcome] := by
  simp [Handler.finishing, Handler.asked, Handler.finishesOf]

theorem callsOf_finishing (s : Handler) (outcome : CommandOutcome) (made : List SessionCall) :
    (s.finishing channel outcome made).callsOf channel = s.callsOf channel ++ made := by
  simp [Handler.finishing, Handler.asked, Handler.callsOf, List.filter_map, Function.comp_def]

/-- The lines of a buffer: the first one closes the shell. -/
theorem runLines_of_line {buffer line rest : List UInt8}
    (h : firstLine buffer = some (line, rest)) :
    runLines commands channel buffer = (do
      setBuffer channel rest
      record (.exec (commandOf line) (configuredCommand (commandOf line) commands).accepted)
      finishCommand channel (configuredCommand (commandOf line) commands)
      modify fun s => { s with shells := Function.update s.shells channel false }) := by
  rw [runLines]
  split
  · rename_i hnone
    rw [h] at hnone
    cases hnone
  · rename_i line' rest' hsome
    rw [h] at hsome
    cases hsome
    simp only [configuredCommand_closes, if_true]

/-- Without a newline there is nothing to run. -/
theorem runLines_of_none {buffer : List UInt8} (h : firstLine buffer = none) :
    runLines commands channel buffer = pure () := by
  rw [runLines]
  split
  · rfl
  · rename_i hsome
    rw [h] at hsome
    cases hsome

/-- A message on a channel that is no shell is dropped. -/
theorem data_of_no_shell {s : Handler} (h : s.shells channel = false) (bytes : List UInt8) :
    data commands channel bytes s = .ok () s := by
  show (if s.shells channel = true then _ else pure () : HandlerM Unit) s = _
  rw [h]
  rfl

/-- Finishing: the channel gets its outcome, also if the session fails. -/
theorem finish_reports (s s₁ : Handler) {answer : Answer} {outcome : CommandOutcome}
    (hanswer : answer.outcome = some outcome) (hfinished : s₁.finished = s.finished)
    (hcalls : s₁.calls = s.calls) (hevents : s₁.events = s.events ++ answer.event.toList)
    (hfault : s₁.fault = s.fault) {made : List SessionCall} (hmade : made <+: outcome.replies) :
    Reports channel s answer (s₁.finishing channel outcome made) := by
  have hfinishes : s₁.finishesOf channel = s.finishesOf channel :=
    congrArg (fun l => (List.filter _ l).map Prod.snd) hfinished
  have hcallsOf : s₁.callsOf channel = s.callsOf channel :=
    congrArg (fun l => (List.filter _ l).map Prod.snd) hcalls
  constructor
  · rw [finishesOf_finishing, hfinishes, hanswer]
    rfl
  · exact hevents
  · refine ⟨made, ?_, ?_⟩
    · rw [callsOf_finishing, hcallsOf]
    · rw [hanswer]
      simpa using hmade
  · exact hfault

/-- The program does on the channel what the answer says; it fails only in finishing. -/
def Answers (channel : ChannelId) (s : Handler) (program : HandlerM Unit) (answer : Answer) :
    Prop :=
  (∃ s', program s = .ok () s' ∧ Shows channel s' answer.shell ∧ Reports channel s answer s') ∨
    ∃ s' n, program s = .error () s' ∧ s.fault n = true ∧ answer.outcome ≠ none ∧
      Reports channel s answer s'

/-- Over the limit: the shell is finished and stays one. -/
theorem overLimit_answers {s : Handler} (hshell : s.shells channel = true) :
    Answers channel s
      (do
        setBuffer channel []
        finishCommand channel .rejected)
      { shell := .live [], outcome := some .rejected } := by
  let s₁ : Handler := { s with shellBuffers := Function.update s.shellBuffers channel [] }
  have hreports : ∀ made, made <+: CommandOutcome.rejected.replies →
      Reports channel s { shell := .live [], outcome := some .rejected }
        (s₁.finishing channel .rejected made) :=
    fun made hmade => finish_reports s s₁ rfl rfl rfl (List.append_nil _).symm rfl hmade
  rcases finishCommand_cases channel .rejected s₁ with hdone | ⟨made, n, hmade, hn, hdone⟩
  · refine .inl ⟨_, hdone, ⟨hshell, Function.update_self .., List.not_mem_nil⟩, ?_⟩
    exact hreports _ List.prefix_rfl
  · refine .inr ⟨_, n, hdone, hn, nofun, ?_⟩
    exact hreports made hmade

/-- A line is complete: its command finishes the shell and closes it. -/
theorem line_answers {s : Handler} {buffer line rest : List UInt8} {outcome : CommandOutcome}
    (hline : firstLine buffer = some (line, rest))
    (houtcome : configuredCommand (commandOf line) commands = outcome) :
    Answers channel s
      (do
        setBuffer channel buffer
        runLines commands channel buffer)
      { shell := .closed, outcome := some outcome,
        event := some (.exec (commandOf line) outcome.accepted) } := by
  -- the state in which `finish_command` begins
  let s₁ : Handler :=
    { s with
      shellBuffers := Function.update (Function.update s.shellBuffers channel buffer) channel rest
      events := s.events ++ [.exec (commandOf line) outcome.accepted] }
  have hrun : (do
        setBuffer channel buffer
        runLines commands channel buffer : HandlerM Unit) s =
      (finishCommand channel outcome >>= fun _ =>
        modify fun s => { s with shells := Function.update s.shells channel false }) s₁ := by
    rw [runLines_of_line hline, houtcome]
    rfl
  unfold Answers
  rw [hrun]
  rcases finishCommand_cases channel outcome s₁ with hdone | ⟨made, n, hmade, hn, hdone⟩
  · rw [bind_of_ok hdone]
    have hreports : Reports channel s
        { shell := .closed, outcome := some outcome,
          event := some (.exec (commandOf line) outcome.accepted) }
        (s₁.finishing channel outcome outcome.replies) :=
      finish_reports s s₁ rfl rfl rfl rfl rfl List.prefix_rfl
    refine .inl ⟨_, rfl, Function.update_self .., ?_⟩
    exact ⟨hreports.finished, hreports.events, hreports.calls, hreports.fault⟩
  · rw [bind_of_error hdone]
    refine .inr ⟨_, n, rfl, hn, nofun, ?_⟩
    exact finish_reports s s₁ rfl rfl rfl rfl rfl hmade

/-- No line is complete: the input is kept. -/
theorem noLine_answers {s : Handler} {buffer : List UInt8} (hshell : s.shells channel = true)
    (hline : firstLine buffer = none) :
    Answers channel s
      (do
        setBuffer channel buffer
        runLines commands channel buffer)
      { shell := .live buffer } := by
  rw [runLines_of_none hline]
  refine .inl ⟨_, rfl, ⟨hshell, Function.update_self .., firstLine_eq_none_iff.mp hline⟩, ?_⟩
  exact ⟨(List.append_nil _).symm, (List.append_nil _).symm,
    ⟨[], (List.append_nil _).symm, List.nil_prefix⟩, rfl⟩

/-- A message does on its channel what it does to the shell. -/
theorem data_answers {s : Handler} {shell : Shell} (h : Shows channel s shell)
    (bytes : List UInt8) :
    Answers channel s (data commands channel bytes) (shell.feed commands bytes) := by
  cases shell with
  | closed =>
      -- the channel is not in `shells` any more
      refine .inl ⟨s, data_of_no_shell h bytes, h, ?_⟩
      exact ⟨(List.append_nil _).symm, (List.append_nil _).symm,
        ⟨[], (List.append_nil _).symm, List.nil_prefix⟩, rfl⟩
  | live buffer =>
      rcases h with ⟨hshell, hbuffer, _⟩
      have hrun : data commands channel bytes s =
          (if buffer.length + bytes.length > maxShellCommand then do
              setBuffer channel []
              finishCommand channel .rejected
            else do
              setBuffer channel (buffer ++ bytes)
              runLines commands channel (buffer ++ bytes) : HandlerM Unit) s := by
        show (if s.shells channel = true then _ else pure () : HandlerM Unit) s = _
        rw [hshell, hbuffer]
        rfl
      unfold Answers
      rw [hrun]
      -- the limit is looked at before the line
      by_cases hlong : buffer.length + bytes.length > maxShellCommand
      · rw [if_pos hlong, Shell.feed_overLimit hlong]
        exact overLimit_answers hshell
      · rw [if_neg hlong]
        cases hline : firstLine (buffer ++ bytes) with
        | none =>
            rw [Shell.feed_noLine (Nat.le_of_not_lt hlong) hline]
            exact noLine_answers hshell hline
        | some found =>
            rw [Shell.feed_line (Nat.le_of_not_lt hlong) hline]
            exact line_answers hline rfl

end Steps

/-! ## Many channels -/

/-- The channel looks the same in both states. -/
structure SameFor (channel : ChannelId) (s s' : Handler) : Prop where
  shells : s'.shells channel = s.shells channel
  shellBuffers : s'.shellBuffers channel = s.shellBuffers channel
  finished : s'.finishesOf channel = s.finishesOf channel
  calls : s'.callsOf channel = s.callsOf channel
  fault : s'.fault = s.fault

section Frame

variable {commands : List Char → Option CommandResponse} {channel other : ChannelId} {s : Handler}

/-- The program leaves the channel alone and fails only with the session. -/
def Spares {α : Type} (channel : ChannelId) (s : Handler) (x : HandlerM α) : Prop :=
  Triple (SameFor channel s) x (fun _ => SameFor channel s)
    (fun s' => SameFor channel s s' ∧ ∃ n, s.fault n = true)

theorem Spares.bind {α β : Type} {x : HandlerM α} {f : α → HandlerM β} (hx : Spares channel s x)
    (hf : ∀ a, Spares channel s (f a)) : Spares channel s (x >>= f) :=
  Triple.bind hx hf

theorem Spares.pure {α : Type} {a : α} : Spares channel s (Pure.pure a : HandlerM α) :=
  fun _ hs => hs

/-- A call for one channel leaves the others alone. -/
theorem ask_same (h : other ≠ channel) (request : SessionCall) :
    Spares channel s (ask other request) := by
  intro s' hs
  by_cases hfault : s'.fault s'.calls.length = true
  · have hask : ask other request s' = .error () s' := if_pos hfault
    rw [hask]
    exact ⟨hs, s'.calls.length, hs.fault ▸ hfault⟩
  · have hask : ask other request s' =
        .ok () { s' with calls := s'.calls ++ [(other, request)] } := if_neg hfault
    have hcalls : Handler.callsOf { s' with calls := s'.calls ++ [(other, request)] } channel =
        s'.callsOf channel := by
      simp [Handler.callsOf, h]
    rw [hask]
    exact ⟨hs.shells, hs.shellBuffers, hs.finished, hcalls.trans hs.calls, hs.fault⟩

theorem askAll_same (h : other ≠ channel) (requests : List SessionCall) :
    Spares channel s (askAll other requests) := by
  induction requests with
  | nil => exact Spares.pure
  | cons request requests ih => exact (ask_same h request).bind fun _ => ih

/-- Finishing one channel leaves the others alone. -/
theorem finishCommand_same (h : other ≠ channel) (outcome : CommandOutcome) :
    Spares channel s (finishCommand other outcome) := by
  rw [finishCommand_eq]
  refine Spares.bind ?_ fun _ => askAll_same h outcome.replies
  intro s' hs
  -- the note is for the other channel, too
  have hfinished : Handler.finishesOf
      { s' with finished := s'.finished ++ [(other, outcome)] } channel =
        s'.finishesOf channel := by
    simp [Handler.finishesOf, h]
  exact ⟨hs.shells, hs.shellBuffers, hfinished.trans hs.finished, hs.calls, hs.fault⟩

theorem setBuffer_same (h : other ≠ channel) (buffer : List UInt8) :
    Spares channel s (setBuffer other buffer) := by
  intro s' hs
  have hbuffer : Function.update s'.shellBuffers other buffer channel = s'.shellBuffers channel :=
    Function.update_of_ne h.symm ..
  exact ⟨hs.shells, hbuffer.trans hs.shellBuffers, hs.finished, hs.calls, hs.fault⟩

theorem record_same (event : SshEvent) : Spares channel s (record event) :=
  fun _ hs => ⟨hs.shells, hs.shellBuffers, hs.finished, hs.calls, hs.fault⟩

/-- The commands of one shell leave the other channels alone. -/
theorem runLines_same (h : other ≠ channel) (buffer : List UInt8) :
    Spares channel s (runLines commands other buffer) := by
  cases hline : firstLine buffer with
  | none =>
      rw [runLines_of_none hline]
      exact Spares.pure
  | some found =>
      rw [runLines_of_line hline]
      refine (setBuffer_same h _).bind fun _ => (record_same _).bind fun _ => ?_
      refine (finishCommand_same h _).bind fun _ => ?_
      intro s' hs
      have hshells : Function.update s'.shells other false channel = s'.shells channel :=
        Function.update_of_ne h.symm ..
      exact ⟨hshells.trans hs.shells, hs.shellBuffers, hs.finished, hs.calls, hs.fault⟩

/-- A message on another channel. -/
theorem data_same (h : other ≠ channel) (bytes : List UInt8) :
    Spares channel s (data commands other bytes) := by
  refine Spares.bind (fun _ hs => hs) fun seen => ?_
  dsimp only
  split
  · split
    · exact (setBuffer_same h []).bind fun _ => finishCommand_same h _
    · exact (setBuffer_same h _).bind fun _ => runLines_same h _
  · exact Spares.pure

/-- A channel that looks the same has the same shell. -/
theorem SameFor.shows {s' : Handler} {shell : Shell} (h : SameFor channel s s')
    (hs : Shows channel s shell) : Shows channel s' shell := by
  cases shell with
  | live buffer =>
      rcases hs with ⟨hshell, hbuffer, hclean⟩
      exact ⟨h.shells.trans hshell, h.shellBuffers.trans hbuffer, hclean⟩
  | closed => exact h.shells.trans hs

end Frame

/-- The handler that a callback leaves, with an error or without. -/
def stateOf : EStateM.Result Unit Handler Unit → Handler
  | .ok _ s => s
  | .error _ s => s

/-- The messages of a channel. -/
def own (channel : ChannelId) (messages : List (ChannelId × List UInt8)) : List (List UInt8) :=
  (messages.filter (·.1 = channel)).map Prod.snd

/-- At most one of these is sent for each outcome. -/
def Single (kind : SessionCall → Bool) : Prop :=
  ∀ outcome : CommandOutcome, outcome.replies.countP kind ≤ 1

section Runs

variable {commands : List Char → Option CommandResponse} {channel : ChannelId}

/-- A message adds at most one call of a single kind, and none when nothing is finished. -/
theorem Reports.calls_le {s s' : Handler} {answer : Answer} (h : Reports channel s answer s')
    {kind : SessionCall → Bool} (hkind : Single kind) :
    (s'.callsOf channel).countP kind ≤
      (s.callsOf channel).countP kind + answer.outcome.toList.length := by
  rcases h.calls with ⟨made, hcalls, hmade⟩
  rw [hcalls, List.countP_append]
  have hle := hmade.sublist.countP_le (p := kind)
  cases hanswer : answer.outcome with
  | none =>
      rw [hanswer] at hle
      have hzero : List.countP kind (List.flatMap CommandOutcome.replies []) = 0 := rfl
      simp only [Option.toList_none, hzero, List.length_nil] at hle ⊢
      omega
  | some outcome =>
      rw [hanswer] at hle
      have hone := hkind outcome
      simp only [Option.toList_some, List.flatMap_singleton, List.length_singleton] at hle ⊢
      omega

/-- What a session does to one channel: the shell gets the messages that arrive before an error,
and all of them without one. -/
theorem serve_shell {s : Handler} {shell : Shell} (h : Shows channel s shell)
    (messages : List (ChannelId × List UInt8)) :
    ∃ served, served <+: messages ∧ ((∀ n, s.fault n = false) → served = messages) ∧
      (stateOf (serveData commands messages s)).finishesOf channel =
        s.finishesOf channel ++ shell.outcomes commands (own channel served) ∧
      ∀ kind, Single kind →
        ((stateOf (serveData commands messages s)).callsOf channel).countP kind ≤
          (s.callsOf channel).countP kind +
            (shell.outcomes commands (own channel served)).length := by
  -- the session ends with its first error, so the messages served are those up to it
  induction messages generalizing s shell with
  | nil =>
      refine ⟨[], List.prefix_rfl, fun _ => rfl, ?_, ?_⟩
      · exact (List.append_nil _).symm
      · intro kind _
        exact Nat.le_refl _
  | cons message messages ih =>
      rcases message with ⟨target, bytes⟩
      by_cases htarget : target = channel
      · subst htarget
        have hown : ∀ rest, own target ((target, bytes) :: rest) = bytes :: own target rest := by
          intro rest
          simp [own]
        rcases @data_answers commands _ _ _ h bytes with
          ⟨s₁, hdata, hshows, hreports⟩ | ⟨s₁, n, hdata, hn, _, hreports⟩
        · rw [serveData, bind_of_ok hdata]
          rcases ih hshows with ⟨served, hserved, hall, hfinished, hcalls⟩
          refine ⟨(target, bytes) :: served, List.cons_prefix_cons.mpr ⟨rfl, hserved⟩, ?_, ?_, ?_⟩
          · intro hfault
            rw [hall (hreports.fault ▸ hfault)]
          · rw [hfinished, hreports.finished, hown, Shell.outcomes, List.append_assoc]
          · intro kind hkind
            have hstep := hreports.calls_le hkind
            have hrest := hcalls kind hkind
            rw [hown, Shell.outcomes, List.length_append]
            omega
        · -- the error comes after the finish was recorded, so the message counts as served
          rw [serveData, bind_of_error hdata]
          have hone : own target [(target, bytes)] = [bytes] := hown []
          refine ⟨[(target, bytes)], ⟨messages, rfl⟩, ?_, ?_, ?_⟩
          · intro hfault
            rw [hfault n] at hn
            cases hn
          · rw [hone, Shell.outcomes, Shell.outcomes, List.append_nil]
            exact hreports.finished
          · intro kind hkind
            rw [hone, Shell.outcomes, Shell.outcomes, List.append_nil]
            exact hreports.calls_le hkind
      · have hown : ∀ rest, own channel ((target, bytes) :: rest) = own channel rest := by
          intro rest
          simp [own, htarget]
        have hsame := @data_same commands _ _ s htarget bytes s
          ⟨rfl, rfl, rfl, rfl, rfl⟩
        cases hdata : data commands target bytes s with
        | ok _ s₁ =>
            rw [hdata] at hsame
            rw [serveData, bind_of_ok hdata]
            rcases ih (hsame.shows h) with ⟨served, hserved, hall, hfinished, hcalls⟩
            refine ⟨(target, bytes) :: served, List.cons_prefix_cons.mpr ⟨rfl, hserved⟩, ?_, ?_, ?_⟩
            · intro hfault
              rw [hall (hsame.fault ▸ hfault)]
            · rw [hfinished, hsame.finished, hown]
            · rw [hown, ← hsame.calls]
              exact hcalls
        | error _ s₁ =>
            rw [hdata] at hsame
            rcases hsame with ⟨hsame, n, hn⟩
            -- nothing more arrives on this channel
            rw [serveData, bind_of_error hdata]
            refine ⟨[], List.nil_prefix, ?_, ?_, ?_⟩
            · intro hfault
              rw [hfault n] at hn
              cases hn
            · exact hsame.finished.trans (List.append_nil _).symm
            · intro kind _
              exact Nat.le_of_eq (congrArg (List.countP kind) hsame.calls)

end Runs

/-! ## How often a shell is finished -/

/-- Behind so many bytes, the messages have no newline and stay within the limit. -/
def Fits (held : Nat) (messages : List (List UInt8)) : Prop :=
  held + messages.flatten.length ≤ maxShellCommand ∧ 0x0A ∉ messages.flatten

/-- What follows a message that goes over the limit, before any line was complete, fits. -/
def Settled (held : Nat) (messages : List (List UInt8)) : Prop :=
  ∀ before message after, messages = before ++ message :: after → Fits held before →
    maxShellCommand < held + before.flatten.length + message.length → Fits 0 after

/-- A list fits when its first message has no newline and the rest fits behind it. -/
theorem fits_cons {held : Nat} {message : List UInt8} {messages : List (List UInt8)} :
    Fits held (message :: messages) ↔
      0x0A ∉ message ∧ Fits (held + message.length) messages := by
  simp only [Fits, List.flatten_cons, List.length_append, List.mem_append, not_or, ← Nat.add_assoc]
  tauto

/-- A message over the limit settles what may follow. -/
theorem settled_cons_overLimit {held : Nat} {message : List UInt8} {messages : List (List UInt8)}
    (hheld : held ≤ maxShellCommand) (h : maxShellCommand < held + message.length) :
    Settled held (message :: messages) ↔ Fits 0 messages := by
  constructor
  · intro hsettled
    have hstart : Fits held [] := ⟨hheld, List.not_mem_nil⟩
    exact hsettled [] message messages rfl hstart h
  · intro hfits before first after heq hbefore _
    -- the first message is the one over the limit: those before one that is over it would fit
    cases before with
    | nil =>
        rw [List.nil_append, List.cons.injEq] at heq
        exact heq.2 ▸ hfits
    | cons head before =>
        rw [List.cons_append, List.cons.injEq] at heq
        have hover := (fits_cons.mp hbefore).2.1
        rw [← heq.1] at hover
        omega

/-- Behind a message within the limit that has no newline, the rest is the same. -/
theorem settled_cons_noLine {held : Nat} {message : List UInt8} {messages : List (List UInt8)}
    (h : held + message.length ≤ maxShellCommand) (hclean : 0x0A ∉ message) :
    Settled held (message :: messages) ↔ Settled (held + message.length) messages := by
  constructor
  · intro hsettled before first after heq hbefore hover
    refine hsettled (message :: before) first after (by rw [heq]; rfl)
      (fits_cons.mpr ⟨hclean, hbefore⟩) ?_
    rw [List.flatten_cons, List.length_append]
    omega
  · intro hsettled before first after heq hbefore hover
    cases before with
    | nil =>
        rw [List.nil_append, List.cons.injEq] at heq
        rw [← heq.1, List.flatten_nil, List.length_nil] at hover
        omega
    | cons head before =>
        rw [List.cons_append, List.cons.injEq] at heq
        -- the first message is within the limit, so the one that goes over it is behind
        have hhead := heq.1.symm
        subst hhead
        refine hsettled before first after heq.2 (fits_cons.mp hbefore).2 ?_
        rw [List.flatten_cons, List.length_append] at hover
        omega

/-- A message with a line settles everything. -/
theorem settled_cons_line {held : Nat} {message : List UInt8} {messages : List (List UInt8)}
    (h : held + message.length ≤ maxShellCommand) (hline : 0x0A ∈ message) :
    Settled held (message :: messages) := by
  intro before first after heq hbefore hover
  cases before with
  | nil =>
      rw [List.nil_append, List.cons.injEq] at heq
      rw [← heq.1, List.flatten_nil, List.length_nil] at hover
      omega
  | cons head before =>
      rw [List.cons_append, List.cons.injEq] at heq
      exact absurd (heq.1 ▸ hline) (fits_cons.mp hbefore).1

/-- What settles with more behind it settles alone. -/
theorem Settled.of_append {held : Nat} {messages more : List (List UInt8)}
    (h : Settled held (messages ++ more)) : Settled held messages := by
  intro before first after heq hbefore hover
  have hrest := h before first (after ++ more) (by rw [heq]; simp) hbefore hover
  rw [Fits, List.flatten_append, List.length_append] at hrest
  exact ⟨by omega, fun hmem => hrest.2 (List.mem_append_left _ hmem)⟩

namespace Shell

variable {commands : List Char → Option CommandResponse}

/-- A closed shell is not finished again. -/
theorem outcomes_closed (messages : List (List UInt8)) :
    outcomes commands .closed messages = [] := by
  induction messages with
  | nil => rfl
  | cons message messages ih => exact ih

/-- What the first message does to a live shell, with the rest behind it. -/
theorem live_cases {buffer : List UInt8} (hclean : 0x0A ∉ buffer) (message : List UInt8) :
    (maxShellCommand < buffer.length + message.length ∧
      (live buffer).feed commands message = { shell := .live [], outcome := some .rejected }) ∨
    (buffer.length + message.length ≤ maxShellCommand ∧ 0x0A ∉ message ∧
      (live buffer).feed commands message = { shell := .live (buffer ++ message) }) ∨
    (buffer.length + message.length ≤ maxShellCommand ∧ 0x0A ∈ message ∧
      ∃ line rest, firstLine (buffer ++ message) = some (line, rest) ∧
        (live buffer).feed commands message =
          { shell := .closed, outcome := some (configuredCommand (commandOf line) commands),
            event := some (.exec (commandOf line)
              (configuredCommand (commandOf line) commands).accepted) }) := by
  rcases Nat.lt_or_ge maxShellCommand (buffer.length + message.length) with hlong | hshort
  · exact .inl ⟨hlong, feed_overLimit hlong⟩
  · cases hline : firstLine (buffer ++ message) with
    | none =>
        have hmessage : 0x0A ∉ message := fun hmem =>
          firstLine_eq_none_iff.mp hline (List.mem_append_right buffer hmem)
        exact .inr (.inl ⟨hshort, hmessage, feed_noLine hshort hline⟩)
    | some found =>
        have hmem : 0x0A ∈ buffer ++ message := by
          by_contra hnot
          rw [firstLine_eq_none_iff.mpr hnot] at hline
          cases hline
        -- the buffer had no newline yet
        have hmessage : 0x0A ∈ message := (List.mem_append.mp hmem).resolve_left hclean
        exact .inr (.inr ⟨hshort, hmessage, found.1, found.2, rfl, feed_line hshort hline⟩)

theorem not_mem_append {buffer message : List UInt8} (hclean : 0x0A ∉ buffer)
    (hmessage : 0x0A ∉ message) : 0x0A ∉ buffer ++ message :=
  fun hmem => (List.mem_append.mp hmem).elim hclean hmessage

/-- Nothing finishes a shell exactly when its input fits. -/
theorem outcomes_eq_nil_iff {buffer : List UInt8} (hclean : 0x0A ∉ buffer)
    (hheld : buffer.length ≤ maxShellCommand) (messages : List (List UInt8)) :
    outcomes commands (.live buffer) messages = [] ↔ Fits buffer.length messages := by
  induction messages generalizing buffer with
  | nil => exact iff_of_true rfl ⟨hheld, List.not_mem_nil⟩
  | cons message messages ih =>
      rw [fits_cons, outcomes]
      rcases @live_cases commands _ hclean message with
        ⟨hlong, hfeed⟩ | ⟨hshort, hmessage, hfeed⟩ | ⟨hshort, hmessage, line, rest, _, hfeed⟩
      · rw [hfeed]
        -- over the limit: rejected at once
        refine iff_of_false (List.cons_ne_nil _ _) ?_
        rintro ⟨_, hle, _⟩
        omega
      · rw [hfeed]
        -- kept, and the rest is fed behind it
        have hrest := ih (not_mem_append hclean hmessage) (by rw [List.length_append]; exact hshort)
        rw [List.length_append] at hrest
        exact hrest.trans (iff_and_self.mpr fun _ => hmessage)
      · rw [hfeed]
        exact iff_of_false (List.cons_ne_nil _ _) fun h => h.1 hmessage

/-- A shell is finished once at most exactly when its input settles. -/
theorem outcomes_le_one_iff {buffer : List UInt8} (hclean : 0x0A ∉ buffer)
    (hheld : buffer.length ≤ maxShellCommand) (messages : List (List UInt8)) :
    (outcomes commands (.live buffer) messages).length ≤ 1 ↔
      Settled buffer.length messages := by
  induction messages generalizing buffer with
  | nil => exact iff_of_true (Nat.zero_le 1) fun _ _ _ heq => absurd heq (by simp)
  | cons message messages ih =>
      rw [outcomes]
      rcases @live_cases commands _ hclean message with
        ⟨hlong, hfeed⟩ | ⟨hshort, hmessage, hfeed⟩ | ⟨hshort, hmessage, line, rest, _, hfeed⟩
      · -- finished here, so nothing behind it may finish the shell again
        rw [hfeed, settled_cons_overLimit hheld hlong]
        have hnext : outcomes commands (.live []) messages = [] ↔ Fits 0 messages :=
          outcomes_eq_nil_iff List.not_mem_nil (Nat.zero_le _) messages
        rw [← hnext, ← List.length_eq_zero_iff]
        simp only [Option.toList_some, List.cons_append, List.nil_append, List.length_cons]
        omega
      · rw [hfeed, settled_cons_noLine hshort hmessage]
        have hrest := ih (not_mem_append hclean hmessage) (by rw [List.length_append]; exact hshort)
        rw [List.length_append] at hrest
        exact hrest
      · rw [hfeed, outcomes_closed]
        -- a command closes the shell
        exact iff_of_true (Nat.le_refl 1) (settled_cons_line hshort hmessage)

end Shell

/-- A channel for which nothing has happened yet. -/
structure Handler.New (s : Handler) (channel : ChannelId) : Prop where
  shell : s.shells channel = false
  buffer : s.shellBuffers channel = []
  finished : s.finishesOf channel = []
  calls : s.callsOf channel = []

/-- `finish_command` ran at most once for the channel, and exit status, EOF and CLOSE were sent at
most once. -/
structure FinishedOnce (channel : ChannelId) (s : Handler) : Prop where
  finishes : (s.finishesOf channel).length ≤ 1
  exitStatus : (s.callsOf channel).countP (fun c => c matches .exitStatusRequest _) ≤ 1
  eof : (s.callsOf channel).countP (· = .eof) ≤ 1
  close : (s.callsOf channel).countP (· = .close) ≤ 1

section Once

variable {commands : List Char → Option CommandResponse} {channel : ChannelId} {s₀ s : Handler}

/-- A shell that was asked for and accepted. -/
theorem shellRequest_shows (hnew : s₀.New channel) (h : shellRequest channel s₀ = .ok () s) :
    Shows channel s (.live []) ∧ s.finishesOf channel = [] ∧
      s.callsOf channel = [.channelSuccess] := by
  have hrun : shellRequest channel s₀ = ask channel .channelSuccess
      { s₀ with
        events := s₀.events ++ [.shell]
        shells := Function.update s₀.shells channel true } := rfl
  rw [hrun, ask] at h
  split at h
  · cases h
  · cases h
    refine ⟨⟨Function.update_self .., hnew.buffer, List.not_mem_nil⟩, hnew.finished, ?_⟩
    have hcalls := hnew.calls
    simp only [Handler.callsOf] at hcalls ⊢
    simp [hcalls]

/-- Each outcome sends an exit status, an EOF and a CLOSE at most once. -/
theorem single_kinds : Single (fun c => c matches .exitStatusRequest _) ∧ Single (· = .eof) ∧
    Single (· = .close) := by
  refine ⟨?_, ?_, ?_⟩
  all_goals
    rintro ⟨accepted, stdout, stderr, termination, closes⟩
    by_cases hout : stdout = [] <;> by_cases herr : stderr = [] <;>
      cases termination <;> cases accepted <;> simp [CommandOutcome.replies, hout, herr]

/-- For every shell that was accepted and all messages behind it, on whatever channels: however the
session fails, the shell is finished once at most, exactly when a message that takes its input over
the limit before a line is complete is followed on the channel by nothing that completes a line or
goes over the limit again. -/
theorem finishes_once_iff (commands : List Char → Option CommandResponse)
    (hnew : s₀.New channel) (hshell : shellRequest channel s₀ = .ok () s)
    (messages : List (ChannelId × List UInt8)) :
    (∀ fault, FinishedOnce channel (stateOf (serveData commands messages { s with fault }))) ↔
      Settled 0 (own channel messages) := by
  rcases shellRequest_shows hnew hshell with ⟨hshows, hfinished, hcalls⟩
  have honce : ∀ served, (Shell.outcomes commands (.live []) served).length ≤ 1 ↔
      Settled 0 served :=
    fun served => Shell.outcomes_le_one_iff List.not_mem_nil (Nat.zero_le _) served
  constructor
  · -- a session without an error serves all messages
    intro h
    have hserve :=
      @serve_shell commands channel { s with fault := fun _ => false } (.live []) hshows
      messages
    rcases hserve with ⟨served, _, hall, hfinishes, _⟩
    have hlength := (h fun _ => false).finishes
    rw [hfinishes, hall fun _ => rfl] at hlength
    rw [List.length_append] at hlength
    exact (honce _).mp (by omega)
  · intro hsettled fault
    have hserve := @serve_shell commands channel { s with fault } (.live []) hshows messages
    rcases hserve with ⟨served, ⟨rest, hserved⟩, _, hfinishes, hkinds⟩
    -- a session that fails serves only the first messages, which settle as well
    have hown : own channel messages = own channel served ++ own channel rest := by
      rw [← hserved, own, List.filter_append, List.map_append]
      rfl
    rw [hown] at hsettled
    have hlength := (honce _).mpr hsettled.of_append
    have hcount : ∀ kind, Single kind → kind .channelSuccess = false →
        ((stateOf (serveData commands messages { s with fault })).callsOf channel).countP kind ≤
          1 := by
      intro kind hsingle hkind
      have hle := hkinds kind hsingle
      -- the reply to the shell request is the one call before
      have hzero : (s.callsOf channel).countP kind = 0 := by
        rw [hcalls]
        simp [hkind]
      exact hle.trans (by show (s.callsOf channel).countP kind + _ ≤ 1; omega)
    rcases single_kinds with ⟨hexit, heof, hclose⟩
    refine ⟨?_, hcount _ hexit rfl, hcount _ heof rfl, hcount _ hclose rfl⟩
    rw [hfinishes]
    show (s.finishesOf channel ++ _).length ≤ 1
    rw [hfinished]
    exact hlength

/-- A shell on the first channel of a new handler. -/
def openShell : Handler := stateOf (shellRequest 0 {})

theorem openShell_opened : Handler.New {} 0 ∧ shellRequest 0 {} = .ok () openShell :=
  ⟨⟨rfl, rfl, rfl, rfl⟩, rfl⟩

/-- A command, and behind it input over the limit. -/
theorem finishes_once_command :
    FinishedOnce 0 (stateOf (serveData (fun _ => none)
      [(0, [0x61, 0x0A]), (0, List.replicate 4097 0x61)] openShell)) := by
  refine (finishes_once_iff _ openShell_opened.1 openShell_opened.2 _).mpr ?_ openShell.fault
  exact settled_cons_line (by decide) (by decide)

/-- Input over the limit, and behind it a line: the shell is finished twice. -/
theorem overlong_input_finishes_twice :
    (stateOf (serveData (fun _ => none) [(0, List.replicate 4097 0x61), (0, [0x0A])]
      openShell)).finishesOf 0 = [.rejected, .rejected] ∧
    ¬ FinishedOnce 0 (stateOf (serveData (fun _ => none)
      [(0, List.replicate 4097 0x61), (0, [0x0A])] openShell)) := by
  have htwice : (stateOf (serveData (fun _ => none)
      [(0, List.replicate 4097 0x61), (0, [0x0A])] openShell)).finishesOf 0 =
        [.rejected, .rejected] := by
    have hshows := (shellRequest_shows openShell_opened.1 openShell_opened.2).1
    rcases @serve_shell (fun _ => none) 0 openShell _ hshows
      [(0, List.replicate 4097 0x61), (0, [0x0A])] with ⟨served, _, hall, hfinishes, _⟩
    rw [hfinishes, hall fun _ => rfl]
    have hlong : maxShellCommand < ([] : List UInt8).length +
        (List.replicate 4097 (0x61 : UInt8)).length := by
      rw [List.length_replicate]
      decide
    show [] ++ Shell.outcomes _ _ [List.replicate 4097 0x61, [0x0A]] = _
    rw [Shell.outcomes, Shell.feed_overLimit hlong]
    decide
  refine ⟨htwice, fun honce => ?_⟩
  have hlength := honce.finishes
  rw [htwice] at hlength
  exact absurd hlength (by decide)

end Once

end Rssh.Fixture
