import Rssh.Auth.Plan
import Rssh.Channel.Startup
import Rssh.HostKey.Policy
import Rssh.Lib.Timed

/-!
# A connection attempt

`open_channel` at the level of its awaits: the connection with the check of the host key, the
authentication, the channel and its requests, under the timers of each stage and of the whole
operation, and in the hands of a caller that may cancel it. What the server, the verifier, the
secret provider and the clock do is the environment's.

* `openChannel` is the attempt, with a log of what it has done.
* `openChannel_holds` is the script that an attempt follows, up to where it is stopped.
* `connection_attempt` is what holds of every attempt, however it ends.
-/

namespace Rssh

open Timed Posix

inductive SshConnectionPhase where
  | connecting
  | authenticating
  | opening
  | connected
deriving DecidableEq, Repr

/-- What an attempt does, as the outside sees it. -/
inductive OpenEvent (Key : Type) where
  | phase (phase : SshConnectionPhase)
  | dialed (host : String) (port : UInt16)
  | challenged (challenge : HostKeyChallenge)
  | checked (key : Key) (answer : Except KeysError Bool)
  | prompted (prompt : SecretPrompt)
  | called (call : BackendCall)
  | opensSession
  | requested (request : RusshChannelStartupRequest)

/-- `russh::client::connect`, which is not under src/: the host key that the server presents, if
the connection gets so far, and how the handshake ends after the answer of the handler. -/
structure Handshake (Key : Type) where
  key : Option Key
  result : Option (Except KeysError Bool) → Except String Unit

/-- A connection is established only when the handler has accepted the host key. -/
def Handshake.Honest {Key : Type} (handshake : Handshake Key) : Prop :=
  ∀ answer, handshake.result answer = .ok () → answer = some (.ok true)

/-- `RusshChannelOpener`, with what decides about the host key. -/
structure ConnectionOpener extends RusshChannelOpener where
  hostKeyPolicy : RusshHostKeyPolicy := .rejectUnknown
  knownHostsPath : Option String := none
  hostKeyVerifier : Option (HostKeyChallenge → HostKeyDecision) := none
  hasPhaseReporter : Bool := false

/-- All that the outside decides. -/
structure OpenOutside (Key : Type) where
  runtime : Except String Unit
  handshake : Handshake Key
  auth : AuthEnv
  openSession : Except String Unit
  queued : Nat → Except String Unit
  cancelledBefore : Bool := false

structure OpenLog (Key : Type) where
  disk : Disk
  events : List (OpenEvent Key) := []

inductive OpenTimer where
  | stage (name : String)
  | operation
deriving DecidableEq, Repr

abbrev OpenM (Key : Type) := TimedM OpenTimer SshSessionError (OpenLog Key)

variable {Key : Type}

/-! ## The attempt -/

def OpenM.emit (event : OpenEvent Key) : OpenM Key Unit :=
  onOwn fun log => ((), { log with events := log.events ++ [event] })

/-- Each of these is done, and waited for. -/
def OpenM.eachAwaited : List (OpenEvent Key) → OpenM Key Unit
  | [] => pure ()
  | event :: rest => do
      emit event
      await
      eachAwaited rest

/-- A result of russh, with the start of its error text. -/
def OpenM.orFail (context : String) (result : Except String Unit) : OpenM Key Unit :=
  Timed.ofExcept (result.mapError fun message => ⟨context ++ message⟩)

namespace ConnectionOpener

open OpenM

variable (o : ConnectionOpener) (russh : RusshKeys Key) (faults : FileFaults)
  (outside : OpenOutside Key) (request : SshConnectRequest)

/-- The timeout of the whole operation and of each stage. -/
def timeoutNanos : Nat := o.operationTimeout.nanos

def reportPhase (phase : SshConnectionPhase) : OpenM Key Unit :=
  if o.hasPhaseReporter then emit (.phase phase) else pure ()

/-- `handler_for_host`, for the host of the request. -/
def handler : RusshClientHandler :=
  handlerForHost o.hostKeyPolicy o.knownHostsPath o.hostKeyVerifier request.config.host
    request.config.port

/-- `check_server_key`, which waits for its verifier before it learns a key. -/
def checkServerKeyAwaited (key : Key) : OpenM Key (Except KeysError Bool) := do
  let check ← onOwn fun log =>
    (checkServerKey russh faults (o.handler request) log.disk key, log)
  eachAwaited (check.shown.map .challenged)
  onOwn fun log => (check.answer,
    { disk := check.disk, events := log.events ++ [.checked key check.answer] })

/-- The handshake, up to the answer about the host key, if one is presented. -/
def handshake : OpenM Key (Option (Except KeysError Bool)) := do
  emit (.dialed request.config.host request.config.port)
  await
  match outside.handshake.key with
  | none => pure none
  | some key => do
      let answer ← o.checkServerKeyAwaited russh faults request key
      await
      pure (some answer)

/-- `connect_async`. -/
def connectAsync : OpenM Key Unit := do
  o.reportPhase .connecting
  timeout (.stage "connect") o.timeoutNanos do
    let answer ← o.handshake russh faults outside request
    orFail "SSH connect failed: " (outside.handshake.result answer)

/-- `authenticate_async`: a run for the plan waits for its prompt and for its call. -/
def authenticateAsync : OpenM Key RusshAuthOutcome := do
  o.reportPhase .authenticating
  timeout (.stage "authentication") o.timeoutNanos do
    let ran := outside.auth.authenticate request
    eachAwaited (ran.2.prompts.map fun prompt => .prompted prompt.1)
    eachAwaited (ran.2.calls.map .called)
    Timed.ofExcept ran.1

/-- `open_session_channel_async`. -/
def openSessionChannelAsync : OpenM Key Unit := do
  o.reportPhase .opening
  timeout (.stage "channel open") o.timeoutNanos do
    emit .opensSession
    await
    orFail "SSH channel open failed: " outside.openSession

/-- The requests of a plan, one after the other. -/
def queueRequests : List RusshChannelStartupRequest → (Nat → Except String Unit) → OpenM Key Unit
  | [], _ => pure ()
  | request :: rest, queued => do
      emit (.requested request)
      await
      orFail request.context (queued 0)
      queueRequests rest fun i => queued (i + 1)

/-- The startup plan of the request. -/
def plan (request : SshConnectRequest) : RusshChannelStartupPlan :=
  .fromOpenPlan (.fromRequest request)

/-- `start_channel_async`. -/
def startChannelAsync : OpenM Key Unit :=
  timeout (.stage "channel startup") o.timeoutNanos
    (queueRequests (plan request).requests outside.queued)

/-- The stages of `open_channel`, one after the other. -/
def stages : OpenM Key Unit := do
  o.connectAsync russh faults outside request
  let _ ← o.authenticateAsync outside request
  o.openSessionChannelAsync outside
  o.startChannelAsync outside request

/-- The operation of `open_channel`, which a caller with the handle may cancel. -/
def operation : OpenM Key Unit :=
  let timed := timeout .operation o.timeoutNanos (o.stages russh faults outside request)
  if o.hasCancellation then droppable outside.cancelledBefore timed else timed

/-- `open_channel`. -/
def openChannel : OpenM Key Unit := do
  Timed.ofExcept (o.runtimeHandleOrCreate outside.runtime)
  o.operation russh faults outside request
  o.reportPhase .connected

/-! ## The script -/

variable (disk : Disk)

/-- The check of the presented key on the files as they are at the start. -/
def check? : Option HostKeyCheck :=
  outside.handshake.key.map (checkServerKey russh faults (o.handler request) disk)

def reported (phase : SshConnectionPhase) : List (OpenEvent Key) :=
  if o.hasPhaseReporter then [.phase phase] else []

def handshakeEvents : List (OpenEvent Key) :=
  .dialed request.config.host request.config.port ::
    match outside.handshake.key with
    | none => []
    | some key =>
        let check := checkServerKey russh faults (o.handler request) disk key
        check.shown.map .challenged ++ [.checked key check.answer]

def authEvents : List (OpenEvent Key) :=
  let log := (outside.auth.authenticate request).2
  log.prompts.map (fun prompt => .prompted prompt.1) ++ log.calls.map .called

def sessionEvents : List (OpenEvent Key) :=
  .opensSession :: (plan request).requests.map .requested

/-- The server's key is accepted. -/
def Accepted : Prop :=
  ∃ key, outside.handshake.key = some key ∧
    (checkServerKey russh faults (o.handler request) disk key).answer = .ok true

/-- The run of the authentication plan ends well. -/
def LogsIn : Prop := (outside.auth.authenticate request).1 = .ok .authenticated

instance : Decidable (LogsIn outside request) :=
  inferInstanceAs (Decidable ((outside.auth.authenticate request).1 = _))

instance : Decidable (o.Accepted russh faults outside request disk) :=
  match h : outside.handshake.key with
  | none => isFalse (by rintro ⟨key, hkey, -⟩; rw [h] at hkey; cases hkey)
  | some key =>
      decidable_of_iff
        ((checkServerKey russh faults (o.handler request) disk key).answer = .ok true)
        (by simp [Accepted, h])

def connectEvents : List (OpenEvent Key) :=
  o.reported .connecting ++ o.handshakeEvents russh faults outside request disk

def loginEvents : List (OpenEvent Key) := o.reported .authenticating ++ authEvents outside request

/-- All that an attempt may do before it is connected. -/
def openScript : List (OpenEvent Key) :=
  o.connectEvents russh faults outside request disk ++
    if o.Accepted russh faults outside request disk then
      o.loginEvents outside request ++
        if LogsIn outside request then o.reported .opening ++ sessionEvents request else []
    else []

end ConnectionOpener

def OpenEvent.isChecked : OpenEvent Key → Bool
  | .checked _ _ => true
  | _ => false

namespace ConnectionOpener

open OpenM

variable (o : ConnectionOpener) (russh : RusshKeys Key) (faults : FileFaults)
  (outside : OpenOutside Key) (request : SshConnectRequest) (disk : Disk)

/-- These events have happened, and the files are as the check has left them, if there was one. -/
def Holds (events : List (OpenEvent Key)) (log : OpenLog Key) : Prop :=
  log.events = events ∧
    log.disk =
      if events.any OpenEvent.isChecked then
        ((o.check? russh faults outside request disk).map HostKeyCheck.disk).getD disk
      else disk

end ConnectionOpener

/-! ## What the stages do -/

section Stages

open OpenM ConnectionOpener

variable {o : ConnectionOpener} {russh : RusshKeys Key} {faults : FileFaults}
  {outside : OpenOutside Key} {request : SshConnectRequest} {disk : Disk}
  {before : List (OpenEvent Key)}

/-- An event that is not of the host key is put into the log. -/
theorem emit_does {event : OpenEvent Key} (hevent : event.isChecked = false) :
    Does (o.Holds russh faults outside request disk) before [event] (emit event)
      (fun _ => True) := by
  apply Does.onOwn
  rintro log ⟨hevents, hdisk⟩
  refine ⟨trivial, ?_, ?_⟩
  · show log.events ++ [event] = _
    rw [hevents]
  · show log.disk = _
    rw [hdisk]
    simp [hevent]

/-- Events that are awaited one by one are a part of the script, also where the attempt stops among
them. -/
theorem eachAwaited_does {events : List (OpenEvent Key)}
    (hevents : ∀ event ∈ events, event.isChecked = false) :
    Does (o.Holds russh faults outside request disk) before events (eachAwaited events)
      (fun _ => True) := by
  induction events generalizing before with
  | nil => exact Does.pure trivial
  | cons event rest ih =>
      have hrest := fun found hfound => hevents found (List.mem_cons_of_mem _ hfound)
      refine (emit_does (hevents event List.mem_cons_self)).bind fun _ _ => ?_
      exact Does.await.bind_quiet fun _ _ => ih hrest

theorem reportPhase_does (phase : SshConnectionPhase) :
    Does (o.Holds russh faults outside request disk) before (o.reported phase)
      (o.reportPhase phase) (fun _ => True) := by
  unfold reported reportPhase
  split
  · exact emit_does rfl
  · exact Does.pure trivial

theorem orFail_does {context : String} {result : Except String Unit} :
    Does (o.Holds russh faults outside request disk) before [] (orFail context result)
      (fun _ => result = .ok ()) := by
  refine Does.ofExcept.mono fun _ h => ?_
  cases result with
  | ok value => rfl
  | error error => cases h

/-- The key is checked once; the challenge that was shown comes before the answer. -/
theorem checkServerKeyAwaited_does {key : Key} (hkey : outside.handshake.key = some key)
    (hbefore : before.any OpenEvent.isChecked = false) :
    let check := checkServerKey russh faults (o.handler request) disk key
    Does (o.Holds russh faults outside request disk) before
      (check.shown.map .challenged ++ [.checked key check.answer])
      (o.checkServerKeyAwaited russh faults request key) (fun answer => answer = check.answer) := by
  intro check
  -- the check is the one that the script speaks of
  have hchecked : o.check? russh faults outside request disk = some check := by
    simp [check?, hkey, check]
  have hshown : (check.shown.map
      (OpenEvent.challenged : HostKeyChallenge → OpenEvent Key)).any OpenEvent.isChecked =
        false := by
    simp [OpenEvent.isChecked]
  refine Does.bind_quiet (Q := fun found => found = check) ?_ ?_
  · -- the files are read and written before anything is awaited
    apply Does.onOwn
    rintro log ⟨hevents, hdisk⟩
    rw [hbefore] at hdisk
    refine ⟨by rw [hdisk]; rfl, by rwa [List.append_nil], ?_⟩
    rw [List.append_nil, hbefore]
    exact hdisk
  · rintro found rfl
    refine Does.bind (eachAwaited_does ?_) fun _ _ => ?_
    · intro event hevent
      rcases List.mem_map.mp hevent with ⟨challenge, -, rfl⟩
      rfl
    · apply Does.onOwn
      rintro log ⟨hevents, -⟩
      refine ⟨rfl, ?_, ?_⟩
      · show log.events ++ _ = _
        rw [hevents]
      · show check.disk = _
        rw [hchecked]
        simp [OpenEvent.isChecked]

/-- The handshake checks the key that the server presents, if it presents one. -/
theorem handshake_does (hbefore : before.any OpenEvent.isChecked = false) :
    Does (o.Holds russh faults outside request disk) before
      (o.handshakeEvents russh faults outside request disk)
      (o.handshake russh faults outside request)
      (fun answer => answer = (o.check? russh faults outside request disk).map
        HostKeyCheck.answer) := by
  unfold ConnectionOpener.handshake handshakeEvents
  refine (emit_does rfl).bind fun _ _ => Does.await.bind_quiet fun _ _ => ?_
  have hdialed : (before ++ [(OpenEvent.dialed request.config.host request.config.port :
      OpenEvent Key)]).any OpenEvent.isChecked = false := by
    simp [hbefore, OpenEvent.isChecked]
  cases hkey : outside.handshake.key with
  | none => exact Does.pure (by simp [check?, hkey])
  | some key =>
      have hcheck := @checkServerKeyAwaited_does _ o russh faults _ request disk _ _ hkey
        hdialed
      refine hcheck.bind_rest ?_
      rintro answer rfl
      refine Does.await.bind_quiet fun _ _ => Does.pure ?_
      simp [check?, hkey]

/-- Connecting succeeds only if the host key was accepted. -/
theorem connectAsync_does (hhonest : outside.handshake.Honest)
    (hbefore : before.any OpenEvent.isChecked = false) :
    Does (o.Holds russh faults outside request disk) before
      (o.connectEvents russh faults outside request disk)
      (o.connectAsync russh faults outside request)
      (fun _ => o.Accepted russh faults outside request disk) := by
  refine (reportPhase_does .connecting).bind fun _ _ => Does.timeout ?_
  refine (handshake_does ?_).bind_rest ?_
  · unfold reported
    split <;> simp [hbefore, OpenEvent.isChecked]
  · rintro answer rfl
    refine orFail_does.mono fun _ hresult => ?_
    have hanswer := hhonest _ hresult
    rcases Option.map_eq_some_iff.mp hanswer with ⟨check, hcheck, haccepted⟩
    rcases Option.map_eq_some_iff.mp hcheck with ⟨key, hkey, rfl⟩
    exact ⟨key, hkey, haccepted⟩

/-- Authentication makes the prompts and calls of the plan, and succeeds only if the plan does. -/
theorem authenticateAsync_does :
    Does (o.Holds russh faults outside request disk) before (o.loginEvents outside request)
      (o.authenticateAsync outside request) (fun _ => LogsIn outside request) := by
  refine (reportPhase_does .authenticating).bind fun _ _ => Does.timeout ?_
  refine Does.bind (eachAwaited_does ?_) fun _ _ => ?_
  · intro event hevent
    rcases List.mem_map.mp hevent with ⟨prompt, -, rfl⟩
    rfl
  refine Does.bind_rest (eachAwaited_does ?_) fun _ _ => ?_
  · intro event hevent
    rcases List.mem_map.mp hevent with ⟨call, -, rfl⟩
    rfl
  · refine Does.ofExcept.mono fun outcome houtcome => ?_
    cases outcome
    exact houtcome

/-- The requests are queued in their order. -/
theorem queueRequests_does (requests : List RusshChannelStartupRequest)
    (queued : Nat → Except String Unit) :
    Does (o.Holds russh faults outside request disk) before (requests.map .requested)
      (queueRequests requests queued) (fun _ => True) := by
  induction requests generalizing queued before with
  | nil => exact Does.pure trivial
  | cons request rest ih =>
      refine (emit_does rfl).bind fun _ _ => Does.await.bind_quiet fun _ _ => ?_
      exact orFail_does.bind_quiet fun _ _ => ih _

/-- The session channel and its requests. -/
theorem openAndStart_does :
    Does (o.Holds russh faults outside request disk) before
      (o.reported .opening ++ sessionEvents request)
      (o.openSessionChannelAsync outside >>= fun _ => o.startChannelAsync outside request)
      (fun _ => True) := by
  have hopen : Does (o.Holds russh faults outside request disk) before
      (o.reported .opening ++ [.opensSession]) (o.openSessionChannelAsync outside)
      (fun _ => True) := by
    refine (reportPhase_does .opening).bind fun _ _ => Does.timeout ?_
    refine (emit_does rfl).bind_rest fun _ _ => Does.await.bind_quiet fun _ _ => ?_
    exact orFail_does.mono fun _ _ => trivial
  have hstart : ∀ events, Does (o.Holds russh faults outside request disk) events
      ((plan request).requests.map .requested) (o.startChannelAsync outside request)
      (fun _ => True) :=
    fun _ => Does.timeout (queueRequests_does _ _)
  have hboth := hopen.bind fun _ _ => hstart _
  rwa [List.append_assoc] at hboth

/-- Each stage begins only when the one before it has ended well. -/
theorem stages_does (hhonest : outside.handshake.Honest) :
    Does (o.Holds russh faults outside request disk) []
      (o.openScript russh faults outside request disk) (o.stages russh faults outside request)
      (fun _ => o.Accepted russh faults outside request disk ∧ LogsIn outside request) := by
  have hconnect : Does (o.Holds russh faults outside request disk) []
      (o.connectEvents russh faults outside request disk) _ _ := connectAsync_does hhonest rfl
  unfold stages openScript
  split
  · rename_i haccepted
    refine hconnect.bind fun _ _ => ?_
    split
    · rename_i hlogsIn
      refine authenticateAsync_does.bind fun _ _ => ?_
      exact openAndStart_does.mono fun _ _ => ⟨haccepted, hlogsIn⟩
    · rename_i hlogsIn
      rw [List.append_nil]
      exact authenticateAsync_does.stops fun _ h => hlogsIn h
  · rename_i haccepted
    -- an honest handshake does not end well here, so nothing comes after it
    rw [List.append_nil]
    exact hconnect.stops fun _ h => haccepted h

/-- A report changes only the log. -/
theorem reportPhase_run (phase : SshConnectionPhase) (s : Clocked OpenTimer (OpenLog Key)) :
    ∃ log, o.reportPhase phase s = .ok () { s with own := log } := by
  unfold reportPhase
  cases o.hasPhaseReporter with
  | true => exact ⟨_, rfl⟩
  | false => exact ⟨_, rfl⟩

/-- Reporting a phase only adds it to the log. -/
theorem reportPhase_holds (phase : SshConnectionPhase)
    {E : Clocked OpenTimer (OpenLog Key) → Prop} :
    Triple (fun s => o.Holds russh faults outside request disk before s.own) (o.reportPhase phase)
      (fun _ s => o.Holds russh faults outside request disk (before ++ o.reported phase) s.own)
      E := by
  intro s hs
  have hdoes := reportPhase_does phase s hs
  rcases reportPhase_run (o := o) phase s with ⟨log, hrun⟩
  rw [hrun] at hdoes ⊢
  exact hdoes.2

/-- The operation does what its stages do, also where it is cancelled. -/
theorem operation_does (hhonest : outside.handshake.Honest) :
    Does (o.Holds russh faults outside request disk) []
      (o.openScript russh faults outside request disk) (o.operation russh faults outside request)
      (fun _ => o.Accepted russh faults outside request disk ∧ LogsIn outside request) := by
  have htimed : Does (o.Holds russh faults outside request disk) []
      (o.openScript russh faults outside request disk)
      (timeout .operation o.timeoutNanos (o.stages russh faults outside request))
      (fun _ => o.Accepted russh faults outside request disk ∧ LogsIn outside request) :=
    Does.timeout (stages_does hhonest)
  unfold operation
  split
  · exact htimed.droppable
  · exact htimed

/-- An attempt that is stopped has done a first part of the script. -/
theorem openChannel_holds (hhonest : outside.handshake.Honest) :
    Triple (fun s => o.Holds russh faults outside request disk [] s.own)
      (o.openChannel russh faults outside request)
      (fun _ s => (o.Accepted russh faults outside request disk ∧ LogsIn outside request) ∧
        o.Holds russh faults outside request disk
          (o.openScript russh faults outside request disk ++ o.reported .connected) s.own)
      (fun s => ∃ part, part <+: o.openScript russh faults outside request disk ∧
        o.Holds russh faults outside request disk part s.own) := by
  have hends : Triple (fun s => o.Holds russh faults outside request disk [] s.own)
      (o.operation russh faults outside request)
      (fun _ s => (o.Accepted russh faults outside request disk ∧ LogsIn outside request) ∧
        o.Holds russh faults outside request disk
          (o.openScript russh faults outside request disk) s.own)
      (fun s => ∃ part, part <+: o.openScript russh faults outside request disk ∧
        o.Holds russh faults outside request disk part s.own) := operation_does hhonest
  refine Triple.bind (Q := fun _ s => o.Holds russh faults outside request disk [] s.own) ?_
    fun _ => Triple.bind hends fun _ => ?_
  · intro s hs
    cases o.runtimeHandleOrCreate outside.runtime with
    | ok value => exact hs
    | error error => exact ⟨[], List.nil_prefix, hs⟩
  · exact Triple.of_fact fun hends =>
      (reportPhase_holds .connected).weaken (fun _ hs => hs) fun _ _ hs => ⟨hends, hs⟩

end Stages

/-! ## Time -/

section Time

open OpenM ConnectionOpener

variable {o : ConnectionOpener} {russh : RusshKeys Key} {faults : FileFaults}
  {outside : OpenOutside Key} {request : SshConnectRequest} {limit : Nat}

theorem reportPhase_keepsTime (phase : SshConnectionPhase) {duration : Nat} :
    KeepsTime limit duration (o.reportPhase phase : OpenM Key Unit) := by
  unfold reportPhase
  split
  · exact KeepsTime.onOwn
  · exact KeepsTime.pure

theorem eachAwaited_keepsTime (events : List (OpenEvent Key)) {duration : Nat} :
    KeepsTime limit duration (eachAwaited events) := by
  induction events with
  | nil => exact KeepsTime.pure
  | cons event rest ih => exact KeepsTime.onOwn.bind fun _ => KeepsTime.await.bind fun _ => ih

theorem queueRequests_keepsTime (requests : List RusshChannelStartupRequest)
    (queued : Nat → Except String Unit) {duration : Nat} :
    KeepsTime limit duration (queueRequests requests queued : OpenM Key Unit) := by
  induction requests generalizing queued with
  | nil => exact KeepsTime.pure
  | cons request rest ih =>
      exact KeepsTime.onOwn.bind fun _ => KeepsTime.await.bind fun _ =>
        KeepsTime.ofExcept.bind fun _ => ih _

/-- The stages have the timeout of the operation. -/
theorem stages_keepsTime :
    KeepsTime limit o.timeoutNanos (o.stages russh faults outside request) := by
  -- the handshake, its check included, is under the timer of the connection
  have hcheck : ∀ key, KeepsTime limit o.timeoutNanos
      (o.checkServerKeyAwaited russh faults request key) := by
    intro key
    exact KeepsTime.onOwn.bind fun _ => (eachAwaited_keepsTime _).bind fun _ => KeepsTime.onOwn
  have hhandshake : KeepsTime limit o.timeoutNanos (o.handshake russh faults outside request) := by
    refine KeepsTime.onOwn.bind fun _ => KeepsTime.await.bind fun _ => ?_
    cases outside.handshake.key with
    | none => exact KeepsTime.pure
    | some key =>
        exact (hcheck key).bind fun _ => KeepsTime.await.bind fun _ => KeepsTime.pure
  -- each stage is under a timer as long as that of the operation
  refine KeepsTime.bind ?_ fun _ => KeepsTime.bind ?_ fun _ => KeepsTime.bind ?_ fun _ => ?_
  · refine (reportPhase_keepsTime _).bind fun _ => KeepsTime.timeout le_rfl ?_
    exact hhandshake.bind fun _ => KeepsTime.ofExcept
  · refine (reportPhase_keepsTime _).bind fun _ => KeepsTime.timeout le_rfl ?_
    exact (eachAwaited_keepsTime _).bind fun _ => (eachAwaited_keepsTime _).bind fun _ =>
      KeepsTime.ofExcept
  · refine (reportPhase_keepsTime _).bind fun _ => KeepsTime.timeout le_rfl ?_
    exact KeepsTime.onOwn.bind fun _ => KeepsTime.await.bind fun _ => KeepsTime.ofExcept
  · exact KeepsTime.timeout le_rfl (queueRequests_keepsTime _ _)

/-- An operation ends by its deadline, or is dropped by a cancellation. -/
theorem operation_endsBy {s : Clocked OpenTimer (OpenLog Key)} (htimers : s.timers = [])
    (hpending : s.pending = []) (hdroppable : s.droppable = false) :
    EndsBy (s.now + o.timeoutNanos) (o.hasCancellation = true)
      (o.operation russh faults outside request s) := by
  have hstages : ∀ limit, KeepsTime limit o.timeoutNanos (o.stages russh faults outside request) :=
    fun _ => stages_keepsTime
  by_cases hcancellation : o.hasCancellation = true
  · have hcancel : o.operation russh faults outside request = droppable outside.cancelledBefore
        (timeout .operation o.timeoutNanos (o.stages russh faults outside request)) :=
      if_pos hcancellation
    rw [hcancel]
    refine droppable_endsBy ?_ hpending hcancellation
    exact (timeout_endsBy (s := { s with droppable := true }) hstages htimers hpending).mono
      fun _ => trivial
  · have htimed : o.operation russh faults outside request =
        timeout .operation o.timeoutNanos (o.stages russh faults outside request) :=
      if_neg hcancellation
    rw [htimed]
    -- without a handle nobody may drop the operation
    refine (timeout_endsBy hstages htimers hpending).mono fun hdrop => ?_
    rw [hdroppable] at hdrop
    cases hdrop

/-- An attempt has the deadline of its operation, and only the handle of its opener cancels it. -/
theorem openChannel_endsBy {s : Clocked OpenTimer (OpenLog Key)} (htimers : s.timers = [])
    (hpending : s.pending = []) (hdroppable : s.droppable = false) :
    EndsBy (s.now + o.timeoutNanos) (o.hasCancellation = true)
      (o.openChannel russh faults outside request s) := by
  have hoperation : EndsBy (s.now + o.timeoutNanos) (o.hasCancellation = true)
      (o.operation russh faults outside request s) :=
    operation_endsBy htimers hpending hdroppable
  unfold openChannel
  cases o.runtimeHandleOrCreate outside.runtime with
  | error error =>
      -- without a runtime nothing is awaited
      refine ⟨?_, nofun, nofun⟩
      rw [hpending]
      exact fun instant hmem => absurd hmem List.not_mem_nil
  | ok value =>
      show EndsBy _ _ ((o.operation russh faults outside request >>= fun _ =>
        o.reportPhase .connected) s)
      cases hrun : o.operation russh faults outside request s with
      | error stop s' =>
          rw [bind_of_error hrun]
          rwa [hrun] at hoperation
      | ok value s' =>
          rcases reportPhase_run (o := o) .connected s' with ⟨log, hreport⟩
          rw [bind_of_ok hrun, hreport]
          rw [hrun] at hoperation
          exact hoperation

end Time

/-! ## Every attempt -/

namespace OpenEvent

def phase? : OpenEvent Key → Option SshConnectionPhase
  | .phase milestone => some milestone
  | _ => none

def prompt? : OpenEvent Key → Option SecretPrompt
  | .prompted prompt => some prompt
  | _ => none

def call? : OpenEvent Key → Option BackendCall
  | .called call => some call
  | _ => none

def request? : OpenEvent Key → Option RusshChannelStartupRequest
  | .requested request => some request
  | _ => none

/-- Something that is not done for a server whose key was not accepted. -/
def needsHostKey : OpenEvent Key → Bool
  | .prompted _ | .called _ | .opensSession | .requested _ => true
  | _ => false

/-- Something that is not done without a login. -/
def needsLogin : OpenEvent Key → Bool
  | .opensSession | .requested _ => true
  | _ => false

end OpenEvent

section Report

open ConnectionOpener

variable (o : ConnectionOpener) (russh : RusshKeys Key) (faults : FileFaults)
  (outside : OpenOutside Key) (request : SshConnectRequest) (disk : Disk)

/-- What holds of the log of every attempt, however it ends. -/
structure AttemptReport (log : OpenLog Key) : Prop where
  /-- No prompt, no secret and no request before the key of the server is accepted. -/
  hostKeyFirst : ∀ before event after, log.events = before ++ event :: after →
    event.needsHostKey = true →
    ∃ key, outside.handshake.key = some key ∧ OpenEvent.checked key (.ok true) ∈ before
  /-- No session and no request before a call of the backend has succeeded. -/
  loginFirst : ∀ before event after, log.events = before ++ event :: after →
    event.needsLogin = true →
    ∃ call answer, OpenEvent.called call ∈ before ∧ outside.auth.backend 0 call = .ok answer ∧
      answer.succeeded = true
  phases : log.events.filterMap OpenEvent.phase? <+:
    [.connecting, .authenticating, .opening, .connected]
  /-- The prompts and the calls are those of a run of the authentication plan. -/
  prompts : log.events.filterMap OpenEvent.prompt? <+:
    (outside.auth.authenticate request).2.prompts.map Prod.fst
  calls : log.events.filterMap OpenEvent.call? <+: (outside.auth.authenticate request).2.calls
  requests : log.events.filterMap OpenEvent.request? <+: (plan request).requests
  /-- Only the check of an unknown key changes the files. -/
  files : log.disk ≠ disk → ∃ key answer, outside.handshake.key = some key ∧
    OpenEvent.checked key answer ∈ log.events ∧
    hostKeyStatus russh o.knownHostsPath disk request.config.host request.config.port key =
      some .unknown ∧
    log.disk = (checkServerKey russh faults (o.handler request) disk key).disk

variable {o russh faults outside request disk}

/-- What comes behind the first part of a list comes after all of it. -/
theorem prefix_of_later {α : Type} {first rest whole before after : List α} {a : α}
    (h : whole <+: first ++ rest) (hsplit : whole = before ++ a :: after) (ha : a ∉ first) :
    first <+: before := by
  have hupTo : before ++ [a] <+: first ++ rest := by
    refine List.IsPrefix.trans ?_ h
    rw [hsplit]
    exact (List.prefix_append_right_inj before).mpr (List.prefix_append [a] after)
  rcases List.prefix_or_prefix_of_prefix hupTo (List.prefix_append first rest) with hin | hin
  · exact absurd (hin.subset (by simp)) ha
  · rcases List.prefix_concat_iff.mp hin with heq | hbefore
    · exact absurd (heq ▸ by simp) ha
    · exact hbefore

/-- All that an attempt may do. -/
def fullScript (o : ConnectionOpener) (russh : RusshKeys Key) (faults : FileFaults)
    (outside : OpenOutside Key) (request : SshConnectRequest) (disk : Disk) :
    List (OpenEvent Key) :=
  o.connectEvents russh faults outside request disk ++
    if o.Accepted russh faults outside request disk then
      o.loginEvents outside request ++
        if LogsIn outside request then
          o.reported .opening ++ sessionEvents request ++ o.reported .connected
        else []
    else []

/-- The script of the opening is the start of the full one. -/
theorem openScript_prefix :
    o.openScript russh faults outside request disk <+:
      fullScript o russh faults outside request disk := by
  unfold openScript fullScript
  apply (List.prefix_append_right_inj _).mpr
  split
  · apply (List.prefix_append_right_inj _).mpr
    split
    · exact List.prefix_append _ _
    · exact List.prefix_rfl
  · exact List.prefix_rfl

theorem fullScript_eq (haccepted : o.Accepted russh faults outside request disk)
    (hlogsIn : LogsIn outside request) :
    fullScript o russh faults outside request disk =
      o.openScript russh faults outside request disk ++ o.reported .connected := by
  simp only [fullScript, openScript, if_pos haccepted, if_pos hlogsIn, List.append_assoc]

/-- The run of a plan that ends well has one call, and it has succeeded. -/
theorem logsIn_called (h : LogsIn outside request) :
    ∃ call answer, call ∈ (outside.auth.authenticate request).2.calls ∧
      outside.auth.backend 0 call = .ok answer ∧ answer.succeeded = true := by
  have hrun := AuthEnv.authenticate_run outside.auth request
  unfold LogsIn at h
  generalize outside.auth.authenticate request = ran at h hrun
  cases hrun with
  | uninspected | unavailable | cancelled => cases h
  | @prompted _ _ _ call _ _ _ _ | @direct call _ _ _ =>
      rcases AuthEnv.answerTo_ok_iff.mp h with ⟨answer, hanswer, hsucceeded⟩
      exact ⟨call, answer, List.mem_singleton.mpr rfl, hanswer, hsucceeded⟩

/-- A check that changes the files has found the key unknown. -/
theorem checkServerKey_disk {key : Key}
    (h : (checkServerKey russh faults (o.handler request) disk key).disk ≠ disk) :
    hostKeyStatus russh o.knownHostsPath disk request.config.host request.config.port key =
      some .unknown := by
  by_contra hstatus
  apply h
  unfold checkServerKey handler handlerForHost
  dsimp only
  cases hfound : hostKeyStatus russh o.knownHostsPath disk request.config.host
      request.config.port key with
  | none => rfl
  | some status =>
      cases status with
      | unknown => exact absurd hfound hstatus
      | known | changed => rfl

/-- The events of the connection need no host key; the key that is checked is the server's. -/
theorem mem_connectEvents {event : OpenEvent Key}
    (h : event ∈ o.connectEvents russh faults outside request disk) :
    event.needsHostKey = false ∧ ∀ key answer, event = .checked key answer →
      outside.handshake.key = some key := by
  simp only [connectEvents, reported, handshakeEvents, List.mem_append, List.mem_cons] at h
  -- the phase, the dial, and what the check has shown and answered
  rcases h with h | rfl | h
  · split at h
    · cases List.mem_singleton.mp h
      exact ⟨rfl, nofun⟩
    · cases h
  · exact ⟨rfl, nofun⟩
  · cases hkey : outside.handshake.key with
    | none =>
        rw [hkey] at h
        cases h
    | some key =>
        rw [hkey] at h
        rcases List.mem_append.mp h with hshown | hchecked
        · rcases List.mem_map.mp hshown with ⟨challenge, -, rfl⟩
          exact ⟨rfl, nofun⟩
        · cases List.mem_singleton.mp hchecked
          exact ⟨rfl, fun _ _ heq => by cases heq; rfl⟩

/-- The events of the login need no login, and check no host key. -/
theorem mem_loginEvents {event : OpenEvent Key} (h : event ∈ o.loginEvents outside request) :
    event.needsLogin = false ∧ event.isChecked = false := by
  simp only [loginEvents, reported, authEvents, List.mem_append, List.mem_map] at h
  rcases h with h | ⟨prompt, -, rfl⟩ | ⟨call, -, rfl⟩
  · split at h
    · cases List.mem_singleton.mp h
      exact ⟨rfl, rfl⟩
    · cases h
  · exact ⟨rfl, rfl⟩
  · exact ⟨rfl, rfl⟩

/-- The key that was checked is the one that the server presented. -/
theorem checked_key {key : Key} {answer : Except KeysError Bool}
    (h : OpenEvent.checked key answer ∈ fullScript o russh faults outside request disk) :
    outside.handshake.key = some key := by
  unfold fullScript at h
  rcases List.mem_append.mp h with h | h
  · exact (mem_connectEvents h).2 key answer rfl
  · split at h
    · rcases List.mem_append.mp h with h | h
      · cases (mem_loginEvents h).2
      · split at h
        · simp only [reported, sessionEvents, List.mem_append, List.mem_cons, List.mem_map] at h
          rcases h with (h | h | ⟨request, -, h⟩) | h
          · split at h
            · cases List.mem_singleton.mp h
            · cases h
          · cases h
          · cases h
          · split at h
            · cases List.mem_singleton.mp h
            · cases h
        · cases h
    · cases h

theorem filterMap_reported {α : Type} (f : OpenEvent Key → Option α)
    (phase : SshConnectionPhase) (h : f (.phase phase) = none) :
    (o.reported phase).filterMap f = [] := by
  unfold reported
  split <;> simp [h]

/-- The handshake has no prompts, calls or requests. -/
theorem filterMap_handshakeEvents {α : Type} (f : OpenEvent Key → Option α)
    (hdialed : ∀ host port, f (.dialed host port) = none)
    (hchallenged : ∀ challenge, f (.challenged challenge) = none)
    (hchecked : ∀ key answer, f (.checked key answer) = none) :
    (o.handshakeEvents russh faults outside request disk).filterMap f = [] := by
  unfold handshakeEvents
  rw [List.filterMap_cons_none (hdialed _ _)]
  cases outside.handshake.key with
  | none => rfl
  | some key => simp [hchallenged, hchecked]

/-- What a projection that skips the handshake sees of the script. -/
theorem filterMap_fullScript {α : Type} (f : OpenEvent Key → Option α)
    (hdialed : ∀ host port, f (.dialed host port) = none)
    (hchallenged : ∀ challenge, f (.challenged challenge) = none)
    (hchecked : ∀ key answer, f (.checked key answer) = none) :
    (fullScript o russh faults outside request disk).filterMap f =
      (o.reported .connecting).filterMap f ++
        if o.Accepted russh faults outside request disk then
          (o.reported .authenticating).filterMap f ++ (authEvents outside request).filterMap f ++
            if LogsIn outside request then
              (o.reported .opening).filterMap f ++ (sessionEvents request).filterMap f ++
                (o.reported .connected).filterMap f
            else []
        else [] := by
  have hhandshake : (o.handshakeEvents russh faults outside request disk).filterMap f = [] :=
    filterMap_handshakeEvents f hdialed hchallenged hchecked
  unfold fullScript connectEvents loginEvents
  split_ifs <;> simp [hhandshake]

theorem phases_authEvents :
    (authEvents outside request : List (OpenEvent Key)).filterMap OpenEvent.phase? = [] := by
  simp [authEvents, OpenEvent.phase?, Function.comp_def]

theorem phases_sessionEvents :
    (sessionEvents request : List (OpenEvent Key)).filterMap OpenEvent.phase? = [] := by
  simp [sessionEvents, OpenEvent.phase?]

/-- The phases come in their order, and all of them if the attempt succeeds and there is a reporter.
-/
theorem phases_fullScript :
    (fullScript o russh faults outside request disk).filterMap OpenEvent.phase? <+:
        [.connecting, .authenticating, .opening, .connected] ∧
      (o.hasPhaseReporter = true → o.Accepted russh faults outside request disk →
        LogsIn outside request →
        (fullScript o russh faults outside request disk).filterMap OpenEvent.phase? =
          [.connecting, .authenticating, .opening, .connected]) := by
  rw [filterMap_fullScript _ (fun _ _ => rfl) (fun _ => rfl) (fun _ _ => rfl), phases_authEvents,
    phases_sessionEvents]
  constructor
  · split_ifs <;> cases hreporter : o.hasPhaseReporter <;>
      simp [reported, hreporter, OpenEvent.phase?]
  · intro hreporter haccepted hlogsIn
    simp [reported, hreporter, haccepted, hlogsIn, OpenEvent.phase?]

/-- A projection that sees only what is done for the login. -/
theorem filterMap_fullScript_login {α : Type} (f : OpenEvent Key → Option α)
    (hdialed : ∀ host port, f (.dialed host port) = none)
    (hchallenged : ∀ challenge, f (.challenged challenge) = none)
    (hchecked : ∀ key answer, f (.checked key answer) = none)
    (hphase : ∀ phase, f (.phase phase) = none) (hopens : f .opensSession = none)
    (hrequested : ∀ request, f (.requested request) = none) :
    (fullScript o russh faults outside request disk).filterMap f =
      if o.Accepted russh faults outside request disk then
        (authEvents outside request).filterMap f
      else [] := by
  have hreported : ∀ phase, (o.reported phase).filterMap f = [] :=
    fun phase => filterMap_reported f phase (hphase phase)
  have hsession : (sessionEvents request).filterMap f = [] := by
    simp [sessionEvents, hopens, hrequested]
  rw [filterMap_fullScript f hdialed hchallenged hchecked, hsession]
  split_ifs <;> simp [hreported]

/-- The prompts of the script are those of the run of the plan, once the key is accepted. -/
theorem prompts_fullScript :
    (fullScript o russh faults outside request disk).filterMap OpenEvent.prompt? =
      if o.Accepted russh faults outside request disk then
        (outside.auth.authenticate request).2.prompts.map Prod.fst
      else [] := by
  have hauth : (authEvents outside request : List (OpenEvent Key)).filterMap OpenEvent.prompt? =
      (outside.auth.authenticate request).2.prompts.map Prod.fst := by
    simp [authEvents, OpenEvent.prompt?, Function.comp_def]
  rw [← hauth]
  exact filterMap_fullScript_login _ (fun _ _ => rfl) (fun _ => rfl) (fun _ _ => rfl)
    (fun _ => rfl) rfl (fun _ => rfl)

/-- The calls of the script are those of the plan, if the host key was accepted. -/
theorem calls_fullScript :
    (fullScript o russh faults outside request disk).filterMap OpenEvent.call? =
      if o.Accepted russh faults outside request disk then
        (outside.auth.authenticate request).2.calls
      else [] := by
  have hauth : (authEvents outside request : List (OpenEvent Key)).filterMap OpenEvent.call? =
      (outside.auth.authenticate request).2.calls := by
    simp [authEvents, OpenEvent.call?, Function.comp_def]
  rw [← hauth]
  exact filterMap_fullScript_login _ (fun _ _ => rfl) (fun _ => rfl) (fun _ _ => rfl)
    (fun _ => rfl) rfl (fun _ => rfl)

/-- The requests of the script are those of the plan, behind the login. -/
theorem requests_fullScript :
    (fullScript o russh faults outside request disk).filterMap OpenEvent.request? =
      if o.Accepted russh faults outside request disk ∧ LogsIn outside request then
        (plan request).requests
      else [] := by
  have hauth : (authEvents outside request : List (OpenEvent Key)).filterMap OpenEvent.request? =
      [] := by
    simp [authEvents, OpenEvent.request?, Function.comp_def]
  have hsession : (sessionEvents request : List (OpenEvent Key)).filterMap OpenEvent.request? =
      (plan request).requests := by
    rw [sessionEvents, List.filterMap_cons_none rfl, List.filterMap_map]
    exact List.filterMap_some
  have hreported : ∀ phase, (o.reported phase : List (OpenEvent Key)).filterMap
      OpenEvent.request? = [] := fun phase => filterMap_reported _ phase rfl
  rw [filterMap_fullScript _ (fun _ _ => rfl) (fun _ => rfl) (fun _ _ => rfl), hauth, hsession]
  by_cases haccepted : o.Accepted russh faults outside request disk <;>
    by_cases hlogsIn : LogsIn outside request <;> simp [hreported, haccepted, hlogsIn]

theorem prefix_ite {α : Type} {p : Prop} [Decidable p] (l : List α) :
    (if p then l else []) <+: l := by
  split
  · exact List.prefix_rfl
  · exact List.nil_prefix

/-- What needs the host key comes after all of the connecting. -/
theorem connected_of_needsHostKey {events before after : List (OpenEvent Key)}
    {event : OpenEvent Key} (hpart : events <+: fullScript o russh faults outside request disk)
    (hsplit : events = before ++ event :: after) (hneeds : event.needsHostKey = true) :
    o.Accepted russh faults outside request disk ∧
      o.connectEvents russh faults outside request disk <+: before := by
  have hnot : event ∉ o.connectEvents russh faults outside request disk := by
    intro hmem
    rw [(mem_connectEvents hmem).1] at hneeds
    cases hneeds
  refine ⟨?_, prefix_of_later hpart hsplit hnot⟩
  by_contra haccepted
  rw [fullScript, if_neg haccepted, List.append_nil] at hpart
  exact hnot (hpart.subset (by rw [hsplit]; simp))

/-- What needs a login comes after all of the login. -/
theorem loggedIn_of_needsLogin {events before after : List (OpenEvent Key)}
    {event : OpenEvent Key} (hpart : events <+: fullScript o russh faults outside request disk)
    (hsplit : events = before ++ event :: after) (hneeds : event.needsLogin = true) :
    LogsIn outside request ∧
      o.connectEvents russh faults outside request disk ++ o.loginEvents outside request <+:
        before := by
  have hneedsKey : event.needsHostKey = true := by
    cases event <;> first | rfl | cases hneeds
  have haccepted := (connected_of_needsHostKey hpart hsplit hneedsKey).1
  -- the event is behind the connection and the login, which do not need it
  have hnot : event ∉ o.connectEvents russh faults outside request disk ++
      o.loginEvents outside request := by
    intro hmem
    rcases List.mem_append.mp hmem with hmem | hmem
    · rw [(mem_connectEvents hmem).1] at hneedsKey
      cases hneedsKey
    · rw [(mem_loginEvents hmem).1] at hneeds
      cases hneeds
  rw [fullScript, if_pos haccepted, ← List.append_assoc] at hpart
  refine ⟨?_, prefix_of_later hpart hsplit hnot⟩
  by_contra hlogsIn
  rw [if_neg hlogsIn, List.append_nil] at hpart
  exact hnot (hpart.subset (by rw [hsplit]; simp))

/-- The files change only with the answer about the key. -/
theorem checked_of_disk {log : OpenLog Key}
    (hpart : log.events <+: fullScript o russh faults outside request disk)
    (hholds : o.Holds russh faults outside request disk log.events log)
    (hchanged : log.disk ≠ disk) :
    ∃ key answer, outside.handshake.key = some key ∧
      OpenEvent.checked key answer ∈ log.events ∧
      log.disk = (checkServerKey russh faults (o.handler request) disk key).disk := by
  have hdisk := hholds.2
  by_cases hany : log.events.any OpenEvent.isChecked = true
  · rw [if_pos hany] at hdisk
    rcases List.any_eq_true.mp hany with ⟨event, hmem, hchecked⟩
    cases event with
    | checked key answer =>
        have hkey := checked_key (hpart.subset hmem)
        rw [check?, hkey] at hdisk
        exact ⟨key, answer, hkey, hmem, hdisk⟩
    | _ => cases hchecked
  · rw [if_neg hany] at hdisk
    exact absurd hdisk hchanged

/-- Whatever part of the script the log has, it is as reported. -/
theorem report_of_part {log : OpenLog Key} {part : List (OpenEvent Key)}
    (hpart : part <+: fullScript o russh faults outside request disk)
    (hholds : o.Holds russh faults outside request disk part log) :
    AttemptReport o russh faults outside request disk log := by
  obtain rfl := hholds.1
  constructor
  · intro before event after hsplit hneeds
    rcases connected_of_needsHostKey hpart hsplit hneeds with ⟨⟨key, hkey, hanswer⟩, hfirst⟩
    refine ⟨key, hkey, hfirst.subset ?_⟩
    simp [connectEvents, handshakeEvents, hkey, hanswer]
  · -- behind the login, a call of the backend has succeeded
    intro before event after hsplit hneeds
    rcases loggedIn_of_needsLogin hpart hsplit hneeds with ⟨hlogsIn, hfirst⟩
    rcases logsIn_called hlogsIn with ⟨call, answer, hcall, hanswer, hsucceeded⟩
    refine ⟨call, answer, hfirst.subset ?_, hanswer, hsucceeded⟩
    simp [loginEvents, authEvents, hcall]
  · exact (hpart.filterMap _).trans phases_fullScript.1
  · refine (hpart.filterMap _).trans ?_
    rw [prompts_fullScript]
    exact prefix_ite _
  · refine (hpart.filterMap _).trans ?_
    rw [calls_fullScript]
    exact prefix_ite _
  · refine (hpart.filterMap _).trans ?_
    rw [requests_fullScript]
    exact prefix_ite _
  · -- the files change by the check alone
    intro hchanged
    rcases checked_of_disk hpart hholds hchanged with ⟨key, answer, hkey, hmem, hdisk⟩
    exact ⟨key, answer, hkey, hmem, checkServerKey_disk (hdisk ▸ hchanged), hdisk⟩

variable (o russh faults outside request disk)

/-- An attempt that succeeds has reported every phase, has made every prompt and every call of the
run of its authentication plan, and has queued every request; another one has not reported that it
is connected. -/
def AttemptEnds :
    EStateM.Result (Stop OpenTimer SshSessionError) (Clocked OpenTimer (OpenLog Key)) Unit → Prop
  | .ok _ s => AttemptReport o russh faults outside request disk s.own ∧
      s.own.events.filterMap OpenEvent.prompt? =
        (outside.auth.authenticate request).2.prompts.map Prod.fst ∧
      s.own.events.filterMap OpenEvent.call? = (outside.auth.authenticate request).2.calls ∧
      s.own.events.filterMap OpenEvent.request? = (plan request).requests ∧
      (o.hasPhaseReporter = true → s.own.events.filterMap OpenEvent.phase? =
        [.connecting, .authenticating, .opening, .connected])
  | .error _ s => AttemptReport o russh faults outside request disk s.own ∧
      .connected ∉ s.own.events.filterMap OpenEvent.phase?

/-- An attempt that begins now, with these polls at its waits. -/
def attemptStart (waits : Nat → List Poll) (now : Nat) : Clocked OpenTimer (OpenLog Key) :=
  { own := { disk }, waits, now }

variable {o russh faults outside request disk}

/-- The last phase is not a part of the opening. -/
theorem connected_notMem_openScript :
    .connected ∉ (o.openScript russh faults outside request disk).filterMap OpenEvent.phase? := by
  have hhandshake : (o.handshakeEvents russh faults outside request disk).filterMap
      OpenEvent.phase? = [] :=
    filterMap_handshakeEvents _ (fun _ _ => rfl) (fun _ => rfl) (fun _ _ => rfl)
  unfold openScript connectEvents loginEvents
  split_ifs <;> cases hreporter : o.hasPhaseReporter <;>
    simp [hhandshake, phases_authEvents, phases_sessionEvents, reported, hreporter,
      OpenEvent.phase?]

/-- Every attempt, whatever the server, the verifier, the secret provider and the files do, and
whenever it is cancelled: it has done a part of what an attempt does, in its order, and it has been
pending only before its deadline. -/
theorem connection_attempt (hhonest : outside.handshake.Honest) (waits : Nat → List Poll)
    (now : Nat) :
    let ended := o.openChannel russh faults outside request (attemptStart disk waits now)
    AttemptEnds o russh faults outside request disk ended ∧
      EndsBy (now + o.timeoutNanos) (o.hasCancellation = true) ended := by
  intro ended
  refine ⟨?_, openChannel_endsBy rfl rfl rfl⟩
  have hholds := @openChannel_holds _ o russh faults outside request disk hhonest
    (attemptStart disk waits now) ⟨rfl, rfl⟩
  cases hended : ended with
  | ok value s =>
      -- the whole script, with the last phase
      rw [show o.openChannel russh faults outside request (attemptStart disk waits now) = _ from
        hended] at hholds
      rcases hholds with ⟨⟨haccepted, hlogsIn⟩, hholds⟩
      rw [← fullScript_eq haccepted hlogsIn] at hholds
      refine ⟨report_of_part List.prefix_rfl hholds, ?_, ?_, ?_, ?_⟩
      · rw [hholds.1, prompts_fullScript, if_pos haccepted]
      · rw [hholds.1, calls_fullScript, if_pos haccepted]
      · rw [hholds.1, requests_fullScript, if_pos ⟨haccepted, hlogsIn⟩]
      · intro hreporter
        rw [hholds.1]
        exact phases_fullScript.2 hreporter haccepted hlogsIn
  | error stop s =>
      -- a part of the opening
      rw [show o.openChannel russh faults outside request (attemptStart disk waits now) = _ from
        hended] at hholds
      rcases hholds with ⟨part, hpart, hholds⟩
      refine ⟨report_of_part (hpart.trans openScript_prefix) hholds, ?_⟩
      rw [hholds.1]
      intro hmem
      exact connected_notMem_openScript ((hpart.filterMap _).subset hmem)

/-- An attempt that nothing cancels succeeds when its stages do. -/
theorem openChannel_of_stages {s s' : Clocked OpenTimer (OpenLog Key)}
    (hruntime : o.runtimeHandleOrCreate outside.runtime = .ok ())
    (hcancellation : o.hasCancellation = false)
    (hstages : o.stages russh faults outside request
      { s with timers := (.operation, s.now + o.timeoutNanos) :: s.timers } = .ok () s') :
    ∃ log, o.openChannel russh faults outside request s =
      .ok () { s' with timers := s.timers, own := log } := by
  have hoperation : o.operation russh faults outside request s =
      .ok () { s' with timers := s.timers } := by
    have htimed : o.operation russh faults outside request =
        timeout .operation o.timeoutNanos (o.stages russh faults outside request) :=
      if_neg (by simp [hcancellation])
    rw [htimed, timeout, hstages]
  rcases reportPhase_run (o := o) .connected { s' with timers := s.timers } with ⟨log, hreport⟩
  refine ⟨log, ?_⟩
  unfold openChannel
  rw [hruntime]
  exact (bind_of_ok hoperation).trans hreport

end Report

/-- Keys that are all known to the default file. -/
def knownKeys : RusshKeys Unit where
  algorithm _ := "ssh-ed25519"
  fingerprint _ := "SHA256:known"
  toOpenssh _ := .error (.other "not needed")
  checkKnownHostsPath _ _ _ _ := .ok false
  checkKnownHosts _ _ _ _ := .ok true

/-- A server that presents a key and accepts every login. -/
def acceptingServer : OpenOutside Unit where
  runtime := .ok ()
  handshake :=
    { key := some ()
      result := fun
        | some (.ok true) => .ok ()
        | _ => .error "Unknown server key" }
  auth := { secretProvider := none, loadKey := fun _ => .ok (), backend := fun _ _ => .ok .success }
  openSession := .ok ()
  queued _ := .ok ()

def trialOpener : ConnectionOpener where
  operationTimeout := ⟨30⟩
  hasPhaseReporter := true

theorem acceptingServer_honest : acceptingServer.handshake.Honest := by
  intro answer hanswer
  rcases answer with _ | _ | _ | _
  · cases hanswer
  · cases hanswer
  · cases hanswer
  · rfl

def trialRequest : SshConnectRequest := ⟨⟨"h", 22, "u", ⟨80, 24⟩⟩, .password "secret", .noShell⟩

/-- A state of an attempt that is pending once at each of its waits. -/
def trialState (waited : Nat) (events : List (OpenEvent Unit)) :
    Clocked OpenTimer (OpenLog Unit) where
  own := ⟨fun _ => none, events⟩
  waits _ := [⟨1, false⟩]
  now := waited
  timers := [(.operation, 30)]
  awaits := waited
  pending := List.range waited

def connectedEvents : List (OpenEvent Unit) :=
  [.phase .connecting, .dialed "h" 22, .checked () (.ok true)]

def loggedInEvents : List (OpenEvent Unit) :=
  connectedEvents ++ [.phase .authenticating, .called (.password "u" "secret")]

def openedEvents : List (OpenEvent Unit) := loggedInEvents ++ [.phase .opening, .opensSession]

/-- The stages of the attempt, each from the state that the one before it has left. -/
theorem stages_acceptingServer :
    trialOpener.stages knownKeys {} acceptingServer trialRequest (trialState 0 []) =
      .ok () (trialState 4 openedEvents) := by
  have hconnect : trialOpener.connectAsync knownKeys {} acceptingServer trialRequest
      (trialState 0 []) = .ok () (trialState 2 connectedEvents) := rfl
  have hlogin : trialOpener.authenticateAsync acceptingServer trialRequest
      (trialState 2 connectedEvents) = .ok .authenticated (trialState 3 loggedInEvents) := rfl
  have hopen : trialOpener.openSessionChannelAsync acceptingServer (trialState 3 loggedInEvents) =
      .ok () (trialState 4 openedEvents) := rfl
  unfold ConnectionOpener.stages
  rw [bind_of_ok hconnect, bind_of_ok hlogin, bind_of_ok hopen]
  rfl

theorem trialState_start :
    { (attemptStart (fun _ => none) (fun _ => [⟨1, false⟩]) 0 :
        Clocked OpenTimer (OpenLog Unit)) with timers := [(.operation, 0 + 30)] } =
      trialState 0 [] := rfl

/-- The attempt goes through all phases before its time is over. -/
theorem connection_attempt_acceptingServer :
    ∃ s, trialOpener.openChannel knownKeys {} acceptingServer trialRequest
        (attemptStart (fun _ => none) (fun _ => [⟨1, false⟩]) 0) = .ok () s ∧
      s.own.events.filterMap OpenEvent.phase? =
        [.connecting, .authenticating, .opening, .connected] ∧
      s.own.events.filterMap OpenEvent.call? = [.password "u" "secret"] ∧
      ∀ instant ∈ s.pending, instant < 30 := by
  have hcalls : (acceptingServer.auth.authenticate trialRequest).2.calls =
      [.password "u" "secret"] := rfl
  have hended := @connection_attempt _ trialOpener knownKeys {} acceptingServer trialRequest
    (fun _ => none) acceptingServer_honest (fun _ => [⟨1, false⟩]) 0
  have hstages := trialState_start ▸ stages_acceptingServer
  rcases openChannel_of_stages rfl rfl hstages with ⟨log, hrun⟩
  dsimp only at hended
  rw [hrun] at hended
  obtain ⟨⟨-, -, hcalled, -, hphases⟩, hpending⟩ := hended
  exact ⟨_, hrun, hphases rfl, hcalled.trans hcalls, hpending⟩

end Rssh
