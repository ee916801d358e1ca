import Rssh.Channel.Reader
import Rssh.Command

/-!
# Opening a session channel

`open_channel` connects, authenticates, opens a session channel and queues the
planned startup requests. Each request asks for a reply, and the replies arrive
later, among the other messages of the channel, at the reader.

Main results:

- `openPlanned_ok_iff`: an opening succeeds exactly when each of its steps does.
- `readCall_patient`: a read that waits for the next message never fails.
- `rejection_reported_iff`: when a refused startup request is reported.
-/

namespace Rssh

/-- The fields of `RusshChannelOpener` that decide how an opening ends. -/
structure RusshChannelOpener where
  hasRuntimeHandle : Bool := false
  hasCancellation : Bool := false
  operationTimeout : Duration := ⟨30 * 10 ^ 9⟩
  channelInactivityTimeout : Option Duration := none
deriving DecidableEq, Repr

/-- What ends an awaited step of an opening: its result, its own deadline, the
deadline of the whole operation, or the cancellation, if the opener carries one. -/
inductive Awaited (o : RusshChannelOpener) where
  | ready (result : Except String Unit)
  | elapsed
  | operationElapsed
  | cancelled (h : o.hasCancellation = true)

/-- How the steps of one opening go: building a runtime, connecting,
authenticating, opening the channel, and queueing each request. -/
structure OpenEnv (o : RusshChannelOpener) where
  runtime : Except String Unit
  connect : Awaited o
  authenticate : Awaited o
  openSession : Awaited o
  queued : Nat → Awaited o

namespace RusshChannelOpener

variable (o : RusshChannelOpener)

def operationDeadlineError (stage : String) : SshSessionError :=
  ⟨"SSH " ++ stage ++ " deadline exceeded after " ++ o.operationTimeout.debug⟩

/-- `runtime_handle_or_create`: a runtime is built only when none is attached. -/
def runtimeHandleOrCreate (built : Except String Unit) : Except SshSessionError Unit :=
  if o.hasRuntimeHandle then .ok ()
  else built.mapError fun message => ⟨"SSH async runtime creation failed: " ++ message⟩

/-- One awaited step: `stage` names its deadline, `context` starts its error text. -/
def await (stage context : String) : Awaited o → Except SshSessionError Unit
  | .ready result => result.mapError fun message => ⟨context ++ message⟩
  | .elapsed => .error (o.operationDeadlineError stage)
  | .operationElapsed =>
      .error ⟨"SSH session operation deadline exceeded after " ++ o.operationTimeout.debug⟩
  | .cancelled _ => .error ⟨"SSH connection cancelled"⟩

end RusshChannelOpener

/-- The start of a request's error text. -/
def RusshChannelStartupRequest.context : RusshChannelStartupRequest → String
  | .requestPty .. => "SSH PTY request failed: "
  | .requestShell => "SSH shell request failed: "
  | .exec _ => "SSH exec request failed: "

namespace RusshChannelOpener

variable (o : RusshChannelOpener)

/-- `start_channel_async`: the requests are queued one after the other; what the
server answers is not waited for. -/
def startChannel : List RusshChannelStartupRequest → (Nat → Awaited o) →
    Except SshSessionError Unit
  | [], _ => .ok ()
  | request :: rest, queued =>
      match o.await "channel startup" request.context (queued 0) with
      | .error error => .error error
      | .ok () => startChannel rest fun i => queued (i + 1)

/-- `open_channel` for a startup plan; the channel is its reader, with all the
messages the server is going to send on it. -/
def openPlanned (env : OpenEnv o) (plan : RusshChannelStartupPlan)
    (messages : List ChannelMsg) : Except SshSessionError RusshChannelReader := do
  o.runtimeHandleOrCreate env.runtime
  o.await "connect" "SSH connect failed: " env.connect
  -- the authentication errors come with their own texts
  o.await "authentication" "" env.authenticate
  o.await "channel open" "SSH channel open failed: " env.openSession
  o.startChannel plan.requests env.queued
  return { readHalf := messages, inactivityTimeout := o.channelInactivityTimeout }

/-- `open_channel`. -/
def openChannel (env : OpenEnv o) (request : SshConnectRequest) (messages : List ChannelMsg) :
    Except SshSessionError RusshChannelReader :=
  o.openPlanned env (.fromOpenPlan (.fromRequest request)) messages

end RusshChannelOpener

/-! ## When an opening succeeds -/

/-- Every step of the opening succeeds, down to the last request of the plan. -/
structure OpenEnv.AllSucceed {o : RusshChannelOpener} (env : OpenEnv o)
    (plan : RusshChannelStartupPlan) : Prop where
  runtime : o.hasRuntimeHandle = true ∨ env.runtime = .ok ()
  connect : env.connect = .ready (.ok ())
  authenticate : env.authenticate = .ready (.ok ())
  openSession : env.openSession = .ready (.ok ())
  queued : ∀ i < plan.requests.length, env.queued i = .ready (.ok ())

theorem except_mapError_eq_ok_iff {ε ε' α : Type} {f : ε → ε'} {x : Except ε α} {a : α} :
    x.mapError f = .ok a ↔ x = .ok a := by
  cases x <;> simp [Except.mapError]

theorem except_bind_eq_ok_iff {ε α β : Type} {x : Except ε α} {f : α → Except ε β} {b : β} :
    (x >>= f) = .ok b ↔ ∃ a, x = .ok a ∧ f a = .ok b := by
  cases x <;> simp [bind, Except.bind]

namespace RusshChannelOpener

variable {o : RusshChannelOpener}

/-- An awaited step succeeds when it is ready in time and has succeeded. -/
theorem await_eq_ok_iff {stage context : String} {step : Awaited o} {u : Unit} :
    o.await stage context step = .ok u ↔ step = .ready (.ok ()) := by
  cases step with
  | ready result => simp [await, except_mapError_eq_ok_iff]
  | elapsed | operationElapsed | cancelled => simp [await]

theorem runtimeHandleOrCreate_eq_ok_iff {built : Except String Unit} {u : Unit} :
    o.runtimeHandleOrCreate built = .ok u ↔ o.hasRuntimeHandle = true ∨ built = .ok () := by
  cases hhandle : o.hasRuntimeHandle with
  | true => simp [runtimeHandleOrCreate, hhandle]
  | false => simp [runtimeHandleOrCreate, hhandle, except_mapError_eq_ok_iff]

/-- The startup succeeds when each request is queued. -/
theorem startChannel_eq_ok_iff {requests : List RusshChannelStartupRequest}
    {queued : Nat → Awaited o} {u : Unit} :
    o.startChannel requests queued = .ok u ↔
      ∀ i < requests.length, queued i = .ready (.ok ()) := by
  induction requests generalizing queued with
  | nil => simp [startChannel]
  | cons request rest ih =>
      have hsplit : (∀ i < rest.length + 1, queued i = .ready (.ok ())) ↔
          queued 0 = .ready (.ok ()) ∧ ∀ i < rest.length, queued (i + 1) = .ready (.ok ()) :=
        Nat.forall_lt_succ_left
      rw [List.length_cons, hsplit, ← ih,
        ← @await_eq_ok_iff o "channel startup" request.context (queued 0) u]
      cases hawait : o.await "channel startup" request.context (queued 0) with
      | error error => simp [startChannel, hawait]
      | ok => simp [startChannel, hawait]

/-- The opening succeeds exactly when each of its steps does, and the channel then
has everything the server sends still ahead of it. -/
theorem openPlanned_ok_iff {env : OpenEnv o} {plan : RusshChannelStartupPlan}
    {messages : List ChannelMsg} {r : RusshChannelReader} :
    o.openPlanned env plan messages = .ok r ↔
      env.AllSucceed plan ∧
        r = { readHalf := messages, inactivityTimeout := o.channelInactivityTimeout } := by
  simp only [openPlanned, except_bind_eq_ok_iff, await_eq_ok_iff, runtimeHandleOrCreate_eq_ok_iff,
    startChannel_eq_ok_iff, pure, Except.pure, Except.ok.injEq]
  constructor
  · rintro ⟨_, hruntime, _, hconnect, _, hauth, _, hopen, _, hqueued, hr⟩
    exact ⟨⟨hruntime, hconnect, hauth, hopen, hqueued⟩, hr.symm⟩
  · rintro ⟨hsteps, hr⟩
    exact ⟨(), hsteps.runtime, (), hsteps.connect, (), hsteps.authenticate, (),
      hsteps.openSession, (), hsteps.queued, hr.symm⟩

end RusshChannelOpener

/-! ## Reading from the opened channel -/

namespace RusshChannelReader

/-- The reader after the first `n` of a sequence of reads. -/
def afterReads (r : RusshChannelReader) (reads : Nat → ReadCall) : Nat → RusshChannelReader
  | 0 => r
  | n + 1 => ((r.afterReads reads n).readCall (reads n)).2

/-- Some read of the sequence returns an error. -/
def ReportsError (r : RusshChannelReader) (reads : Nat → ReadCall) : Prop :=
  ∃ n error, ((r.afterReads reads n).readCall (reads n)).1 = .error error

end RusshChannelReader

/-- A read that has room and waits for the next message as long as it takes: its
waits are ended by neither the deadline nor a cancellation. -/
def ReadCall.Patient : ReadCall → Prop
  | .read capacity elapsed => 0 < capacity ∧ ∀ i, elapsed i = false
  | .readCancellable capacity wake => 0 < capacity ∧ ∀ i, wake i = .message

namespace RusshChannelReader

/-- A read that is never woken by anything but messages returns bytes, or the end. -/
theorem readLoop_patient (capacity : Nat) (messages : List ChannelMsg) (r : RusshChannelReader) :
    ∃ bytes, (readLoop capacity messages (fun _ => .message) r).1 = .ok (some bytes) := by
  induction messages generalizing r with
  | nil => exact ⟨[], rfl⟩
  | cons message rest ih =>
      rcases hact : applyChannelMessage r.result message with ⟨result, action⟩
      cases action with
      | data bytes | finished => simp [readLoop, hact]
      | continue_ =>
          simp only [readLoop, hact]
          exact ih { r with result }

/-- A read without a timeout and a cancellation does not fail. -/
theorem readCancellableBlocking_patient (r : RusshChannelReader) (capacity : Nat) :
    ∃ bytes, (r.readCancellableBlocking capacity fun _ => .message).1 = .ok (some bytes) := by
  simp only [readCancellableBlocking]
  split
  · exact ⟨_, rfl⟩
  · split
    · exact ⟨_, rfl⟩
    · split
      · exact ⟨_, rfl⟩
      · exact readLoop_patient capacity r.readHalf r

/-- A patient read never fails, whatever the messages say. -/
theorem readCall_patient (r : RusshChannelReader) {c : ReadCall} (hc : c.Patient) :
    ∃ bytes, (r.readCall c).1 = .ok bytes := by
  cases c with
  | read capacity elapsed =>
      rcases r.readCancellableBlocking_patient capacity with ⟨bytes, hok⟩
      have hnever : elapsed = fun _ => false := funext hc.2
      refine ⟨some bytes, ?_⟩
      simp only [readCall, readBlocking, hnever, Bool.false_eq_true, if_false]
      rcases hread : r.readCancellableBlocking capacity fun _ => .message with ⟨outcome, r'⟩
      have houtcome : outcome = .ok (some bytes) := by rw [hread] at hok; exact hok
      rw [houtcome]
      rfl
  | readCancellable capacity wake =>
      rcases r.readCancellableBlocking_patient capacity with ⟨bytes, hok⟩
      have hmessages : wake = fun _ => .message := funext hc.2
      exact ⟨some bytes, by rw [readCall, hmessages]; exact hok⟩

/-- Patient reads report nothing. -/
theorem patient_reads_silent (r : RusshChannelReader) {reads : Nat → ReadCall}
    (hreads : ∀ n, (reads n).Patient) : ¬ r.ReportsError reads := by
  rintro ⟨n, error, herror⟩
  rcases (r.afterReads reads n).readCall_patient (hreads n) with ⟨bytes, hok⟩
  rw [hok] at herror
  cases herror

end RusshChannelReader

/-! ## Refused requests -/

/-- The two answers to a request that wants a reply. -/
def ChannelMsg.isReply : ChannelMsg → Bool
  | .success | .failure => true
  | .data _ | .extendedData _ _ | .exitStatus _ | .exitSignal _ _ _ _ => false
  | .eof | .close | .other => false

/-- The server refuses a planned request: its replies come in the order of the
requests, anywhere among its other messages. -/
def Rejects (plan : RusshChannelStartupPlan) (messages : List ChannelMsg) : Prop :=
  .failure ∈ (messages.filter ChannelMsg.isReply).take plan.requests.length

instance (plan : RusshChannelStartupPlan) (messages : List ChannelMsg) :
    Decidable (Rejects plan messages) :=
  inferInstanceAs (Decidable (_ ∈ _))

/-- The opening returns an error, or, however the channel is then read to its end,
one of the reads does. -/
def Reported {o : RusshChannelOpener} (env : OpenEnv o) (plan : RusshChannelStartupPlan)
    (messages : List ChannelMsg) : Prop :=
  match o.openPlanned env plan messages with
  | .error _ => True
  | .ok r => ∀ reads : Nat → ReadCall, (∀ n, (reads n).Patient) → r.ReportsError reads

/-- Something is reported exactly when a step of the opening fails, whatever the replies are. -/
theorem reported_iff {o : RusshChannelOpener} (env : OpenEnv o) (plan : RusshChannelStartupPlan)
    (messages : List ChannelMsg) : Reported env plan messages ↔ ¬ env.AllSucceed plan := by
  cases hopen : o.openPlanned env plan messages with
  | error error =>
      have hfails : ¬ env.AllSucceed plan := by
        intro hall
        rw [RusshChannelOpener.openPlanned_ok_iff.mpr ⟨hall, rfl⟩] at hopen
        cases hopen
      simp [Reported, hopen, hfails]
  | ok r =>
      have hall : env.AllSucceed plan := (RusshChannelOpener.openPlanned_ok_iff.mp hopen).1
      simp only [Reported, hopen, hall, not_true, iff_false]
      intro hreports
      have hpatient : (ReadCall.read 1 fun _ => false).Patient := ⟨Nat.one_pos, fun _ => rfl⟩
      exact r.patient_reads_silent (fun _ => hpatient) (hreports _ fun _ => hpatient)

/-- The reader takes a refusal for any other message: a refused request is reported
only when the opening has failed for another reason. -/
theorem rejection_reported_iff {o : RusshChannelOpener} (env : OpenEnv o)
    (plan : RusshChannelStartupPlan) (messages : List ChannelMsg) :
    (Rejects plan messages → Reported env plan messages) ↔
      ¬ Rejects plan messages ∨ ¬ env.AllSucceed plan := by
  rw [reported_iff, imp_iff_not_or]

/-- The requests of an interactive shell. -/
def shellPlan : RusshChannelStartupPlan := .fromOpenPlan ⟨some ⟨80, 24⟩, .shell⟩

/-- An opening in which nothing goes wrong. -/
def smoothOpening : OpenEnv {} where
  runtime := .ok ()
  connect := .ready (.ok ())
  authenticate := .ready (.ok ())
  openSession := .ready (.ok ())
  queued _ := .ready (.ok ())

/-- The server grants the PTY, refuses the shell and closes: nothing reports it. -/
theorem refused_shell_is_unreported :
    ¬ (Rejects shellPlan [.success, .failure, .close] →
      Reported smoothOpening shellPlan [.success, .failure, .close]) := by
  intro hrejected
  have hreported := hrejected (by decide)
  rw [reported_iff] at hreported
  exact hreported ⟨.inr rfl, rfl, rfl, rfl, fun _ _ => rfl⟩

end Rssh
