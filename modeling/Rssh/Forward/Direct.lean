import Rssh.Forward.Lifecycle

/-!
# The end of a direct forward

`forward_direct_tcpip_stream_with_ready` bridges one channel and then takes its session down: it
shuts the channel down, disconnects and waits for the session to end. The shutdown of a remote
forward ends with the same two steps, in code of its own.

* `forwardDirect_eq_ok_iff` says when a direct forward succeeds.
* `shutdown_result_eq_ok_iff` says when the shutdown of a remote forward does.
* `direct_agrees_with_remote_iff` compares the two.
-/

namespace Rssh

/-! ## The direct forward -/

/-- How a `run_forward_startup` ends. -/
inductive StartupEnd where
  | cancelled
  | timedOut
  | finished (result : Except SshSessionError Unit)

def runForwardStartup : StartupEnd → Except SshSessionError Unit
  | .cancelled => .error ⟨"SSH forwarding startup cancelled"⟩
  | .timedOut => .error ⟨"SSH forwarding startup timed out"⟩
  | .finished result => result

/-- How the transfer ends: the cancellation is seen, or the copy is over. -/
inductive TransferEnd where
  | cancelled
  | copied (result : Except String Unit)

/-- What the environment answers to one direct forward. -/
structure DirectForward where
  setNonblocking : Except String Unit := .ok ()
  buildRuntime : Except String Unit := .ok ()
  startup : StartupEnd := .finished (.ok ())
  ready : Except SshSessionError Unit := .ok ()
  fromStd : Except String Unit := .ok ()
  transfer : TransferEnd := .cancelled
  channelShutdown : Except String Unit := .ok ()
  disconnect : Except String Unit := .ok ()
  session : SessionEnd := .finished
  /-- The deadline of the shutdown passes at one of its awaits. -/
  shutdownElapsed : Bool := false

namespace DirectForward

def transferResult (d : DirectForward) : Except SshSessionError Unit :=
  match d.ready with
  | .error error => .error error
  | .ok () =>
      match d.fromStd with
      | .error error => .error ⟨"local forwarding stream setup failed: " ++ error⟩
      | .ok () =>
          match d.transfer with
          | .cancelled => .ok ()
          | .copied result => result.mapError fun error =>
              ⟨"SSH forwarding transfer failed: " ++ error⟩

def channelResult (d : DirectForward) : Except SshSessionError Unit :=
  d.channelShutdown.mapError fun error => ⟨"SSH forwarding channel shutdown failed: " ++ error⟩

/-- The cleanup of an established forward. It waits for the session like a forward that has not
disconnected. -/
def cleanup (d : DirectForward) : Except SshSessionError Unit :=
  if d.shutdownElapsed then .error ⟨"SSH forwarding shutdown timed out"⟩
  else
    resultAnd (resultAnd d.channelResult (d.disconnect.mapError RemoteForward.disconnectError))
      d.session.wait

/-- `complete_established_forward`. -/
def completeEstablishedForward (operation cleanup : Except SshSessionError Unit) :
    Except SshSessionError Unit :=
  resultAnd operation cleanup

def forwardDirectTcpipStreamWithReady (d : DirectForward) : Except SshSessionError Unit := do
  -- before the forward is established there is no channel to shut down
  d.setNonblocking.mapError fun error => ⟨"local forwarding stream setup failed: " ++ error⟩
  d.buildRuntime.mapError fun error => ⟨"SSH async runtime creation failed: " ++ error⟩
  runForwardStartup d.startup
  completeEstablishedForward d.transferResult d.cleanup

/-- The forward was established. -/
structure Established (d : DirectForward) : Prop where
  setNonblocking : d.setNonblocking = .ok ()
  buildRuntime : d.buildRuntime = .ok ()
  startup : d.startup = .finished (.ok ())

end DirectForward

theorem resultAnd_eq_ok_iff {first second : Except SshSessionError Unit} :
    resultAnd first second = .ok () ↔ first = .ok () ∧ second = .ok () := by
  rcases first with _ | _ <;> simp [resultAnd]

theorem mapError_eq_ok_iff {result : Except String Unit} {f : String → SshSessionError} :
    result.mapError f = .ok () ↔ result = .ok () := by
  rcases result with _ | _ <;> simp [Except.mapError]

/-- A direct forward succeeds when its transfer, its three steps of shutdown and the deadline
allow it; the session must have ended without any error. -/
theorem forwardDirect_eq_ok_iff {d : DirectForward} (h : d.Established) :
    d.forwardDirectTcpipStreamWithReady = .ok () ↔
      d.transferResult = .ok () ∧ d.shutdownElapsed = false ∧ d.channelShutdown = .ok () ∧
        d.disconnect = .ok () ∧ d.session = .finished := by
  have hresult : d.forwardDirectTcpipStreamWithReady = resultAnd d.transferResult d.cleanup := by
    unfold DirectForward.forwardDirectTcpipStreamWithReady
    rw [h.setNonblocking, h.buildRuntime, h.startup]
    rfl
  have hwait : d.session.wait = .ok () ↔ d.session = .finished := by
    cases d.session <;> simp [SessionEnd.wait]
  rw [hresult, resultAnd_eq_ok_iff]
  refine and_congr_right fun _ => ?_
  unfold DirectForward.cleanup
  cases d.shutdownElapsed with
  | true => simp
  | false =>
      simp only [Bool.false_eq_true, if_false, resultAnd_eq_ok_iff, DirectForward.channelResult,
        mapError_eq_ok_iff, hwait, true_and, and_assoc]

/-! ## The shutdown of a remote forward -/

/-- The session steps of the current call and of the calls that have returned. -/
def RemoteForward.logs (s : RemoteForward) :
    List (List (SessionStep × Except SshSessionError Unit)) :=
  s.current.steps :: s.returns.map (·.steps)

/-- The result of a wait is that of the session's end, of which there is only one. -/
def WaitInv (s : RemoteForward) : Prop :=
  ∀ steps ∈ s.logs, ∀ wait, (.wait, wait) ∈ steps →
    ∃ ending, s.session = some ending ∧ wait = ending.waitAfterDisconnect

/-- A step that records no other wait keeps what is known of the waits. -/
theorem WaitInv.of_logs {s s' : RemoteForward} (h : WaitInv s) (hsession : s'.session = s.session)
    (hlogs : ∀ steps ∈ s'.logs, ∃ old ∈ s.logs, ∀ wait, (.wait, wait) ∈ steps →
      (.wait, wait) ∈ old) : WaitInv s' := by
  intro steps hmem wait hwait
  rcases hlogs steps hmem with ⟨old, hold, hkept⟩
  rw [hsession]
  exact h old hold wait (hkept wait hwait)

/-- The logs of the calls that have returned stay as they are. -/
theorem WaitInv.of_current {s s' : RemoteForward} (h : WaitInv s)
    (hsession : s'.session = s.session) (hreturns : s'.returns = s.returns)
    (hcurrent : ∀ wait, (.wait, wait) ∈ s'.current.steps → (.wait, wait) ∈ s.current.steps) :
    WaitInv s' := by
  refine h.of_logs hsession ?_
  intro steps hmem
  rcases List.mem_cons.mp hmem with rfl | hmem
  · exact ⟨_, List.mem_cons_self, hcurrent⟩
  · rw [hreturns] at hmem
    exact ⟨steps, List.mem_cons_of_mem _ hmem, fun _ => id⟩

theorem RemoteForward.beginShutdown_keeps (s : RemoteForward) :
    s.beginShutdown.session = s.session ∧ s.beginShutdown.returns = s.returns ∧
      s.beginShutdown.current.steps = s.current.steps := by
  unfold beginShutdown complete
  cases s.handle <;> exact ⟨rfl, rfl, rfl⟩

/-- A call starts with an empty log. -/
theorem RemoteForward.beginCall_keeps (s : RemoteForward) (call : ForwardCall) :
    (s.beginCall call).session = s.session ∧ (s.beginCall call).returns = s.returns ∧
      (s.beginCall call).current.steps = [] := by
  cases call with
  | shutdown => exact beginShutdown_keeps _
  | wait | waitUntilCancelled =>
      unfold beginCall complete
      cases s.handle <;> exact ⟨rfl, rfl, rfl⟩

/-- After each step every recorded wait has the result of the session's end. -/
theorem wait_step_inv :
    ∀ s l s', remoteForward.step s l = some s' → WaitInv s → WaitInv s' := by
  intro s l s' h hinv
  cases RemoteForward.step_sound h with
  | @call call hpc =>
      obtain ⟨hsession, hreturns, hsteps⟩ := s.beginCall_keeps call
      exact hinv.of_current hsession hreturns (by simp [hsteps])
  | observed hpc =>
      obtain ⟨hsession, hreturns, hsteps⟩ := s.beginShutdown_keeps
      exact hinv.of_current hsession hreturns (by simp [hsteps])
  | register | finish | raise | joinedWait | drainedShutdown | drainedComplete | elapsedSession
  | elapsedDraining | elapsedComplete => exact hinv.of_current rfl rfl fun _ => id
  | cancelDone | disconnectDone =>
      exact hinv.of_current rfl rfl (by simp [RemoteForward.ran])
  | sessionEnds hopen =>
      -- nothing has waited for a session that goes on
      intro steps hmem wait hwait
      rcases hinv steps hmem wait hwait with ⟨ending, hended, -⟩
      rw [hopen] at hended
      cases hended
  | @joinedShutdown ending cancel disconnect hended hpc =>
      -- the one step that logs a wait
      intro steps hmem wait hwait
      rcases List.mem_cons.mp hmem with rfl | hmem
      · rcases List.mem_append.mp hwait with hold | hnew
        · exact hinv _ List.mem_cons_self wait hold
        · exact ⟨ending, hended, by simpa using hnew⟩
      · exact hinv steps (List.mem_cons_of_mem _ hmem) wait hwait
  | return_ hpc =>
      -- the log of the current call is now also that of a call that has returned
      refine hinv.of_logs rfl ?_
      intro steps hmem
      refine ⟨steps, ?_, fun _ => id⟩
      simp only [RemoteForward.logs, RemoteForward.entry, List.map_append, List.map_cons,
        List.map_nil, List.mem_cons, List.mem_append, List.not_mem_nil, or_false] at hmem ⊢
      rcases hmem with hmem | hmem | hmem
      · exact .inl hmem
      · exact .inr hmem
      · exact .inl hmem

/-- A shutdown that is not cut succeeds when its steps did, where a disconnect is the expected
end of the session. -/
theorem shutdown_result_eq_ok_iff {trace : List ForwardLabel} {s : RemoteForward}
    {e : ForwardReturn} {disconnect : Except String Unit} {ending : SessionEnd}
    (hrun : remoteForward.run {} trace = some s) (he : e ∈ s.returns)
    (hshutdown : e.shutdown = some true) (htimedOut : e.timedOut = false)
    (hcancel : (.cancelTcpipForward, .ok ()) ∈ e.steps)
    (hdisconnect : (.disconnect, disconnect.mapError RemoteForward.disconnectError) ∈ e.steps)
    (hsession : s.session = some ending) :
    e.result = .ok () ↔ disconnect = .ok () ∧ ∀ message, ending ≠ .failed message := by
  have hinv : ForwardInv s := Machine.run_invariant forward_step_inv hrun forward_inv_init
  have hwaits : WaitInv s :=
    Machine.run_invariant wait_step_inv hrun (by simp [WaitInv, RemoteForward.logs])
  rcases (hinv.entries e he).1.ran hshutdown htimedOut with ⟨cancel, result, wait, hsteps, hresult⟩
  have hlog : e.steps ∈ s.logs := List.mem_cons_of_mem _ (List.mem_map_of_mem he)
  -- a session ends once, so the wait has seen this ending
  rcases hwaits e.steps hlog wait (by simp [hsteps]) with ⟨ending', hended, hwait⟩
  obtain rfl : ending = ending' := Option.some.inj (hsession.symm.trans hended)
  have hfirst : cancel = .ok () := by
    rw [hsteps] at hcancel
    simpa [eq_comm] using hcancel
  have hsecond : result = disconnect.mapError RemoteForward.disconnectError := by
    rw [hsteps] at hdisconnect
    simpa [eq_comm] using hdisconnect
  have hthird : wait = .ok () ↔ ∀ message, ending ≠ .failed message := by
    rw [hwait]
    cases ending <;> simp [SessionEnd.waitAfterDisconnect]
  rw [hresult, ← resultAnd_eq_firstFailing, resultAnd_eq_ok_iff, resultAnd_eq_ok_iff, hthird,
    hsecond, mapError_eq_ok_iff]
  simp [hfirst]

/-! ## The comparison -/

/-- A direct forward with a clean transfer and channel shutdown, and a remote forward with a
clean cancellation and its children drained, on the same results of the disconnect and of the
session: they agree on success unless the disconnect succeeded and the session ended with its
error. -/
theorem direct_agrees_with_remote_iff {d : DirectForward} {trace : List ForwardLabel}
    {s : RemoteForward} {e : ForwardReturn} (hestablished : d.Established)
    (htransfer : d.transferResult = .ok ()) (hchannel : d.channelShutdown = .ok ())
    (helapsed : d.shutdownElapsed = false)
    (hrun : remoteForward.run {} trace = some s) (he : e ∈ s.returns)
    (hshutdown : e.shutdown = some true) (htimedOut : e.timedOut = false)
    (hcancel : (.cancelTcpipForward, .ok ()) ∈ e.steps)
    (hdisconnect : (.disconnect, d.disconnect.mapError RemoteForward.disconnectError) ∈ e.steps)
    (hsession : s.session = some d.session) :
    (d.forwardDirectTcpipStreamWithReady = .ok () ↔ e.result = .ok ()) ↔
      ¬ (d.disconnect = .ok () ∧ ∃ message, d.session = .disconnected message) := by
  rw [forwardDirect_eq_ok_iff hestablished,
    shutdown_result_eq_ok_iff hrun he hshutdown htimedOut hcancel hdisconnect hsession]
  simp only [htransfer, helapsed, hchannel, true_and]
  by_cases hok : d.disconnect = .ok ()
  · simp only [hok, true_and]
    cases d.session <;> simp
  · simp [hok]

/-- A shutdown in which every step succeeds and the session ends as given. -/
def cleanShutdown (ending : SessionEnd) : List ForwardLabel :=
  [.call .shutdown, .cancelDone (.ok ()), .disconnectDone (.ok ()), .sessionEnds ending, .joined,
    .drained, .return_]

/-- A session that ends without an error is a success of both. -/
theorem finished_session_agrees :
    ∃ s e, remoteForward.run {} (cleanShutdown .finished) = some s ∧ s.returns = [e] ∧
      (({} : DirectForward).forwardDirectTcpipStreamWithReady = .ok () ↔ e.result = .ok ()) := by
  have hrun : ∃ s e, remoteForward.run {} (cleanShutdown .finished) = some s ∧ s.returns = [e] ∧
      e.shutdown = some true ∧ e.timedOut = false ∧ s.session = some .finished ∧
      e.steps = [(.cancelTcpipForward, .ok ()), (.disconnect, .ok ()), (.wait, .ok ())] :=
    ⟨_, _, rfl, rfl, rfl, rfl, rfl, rfl⟩
  rcases hrun with ⟨s, e, hrun, hreturns, hshutdown, htimedOut, hsession, hsteps⟩
  refine ⟨s, e, hrun, hreturns, ?_⟩
  exact (direct_agrees_with_remote_iff ⟨rfl, rfl, rfl⟩ rfl rfl rfl hrun (by simp [hreturns])
    hshutdown htimedOut (by simp [hsteps]) (by simp [hsteps, Except.mapError]) hsession).mpr
    (by simp)

/-- After a clean disconnect the session ends with its error: the remote forward succeeds and
the direct one fails. -/
theorem disconnected_session_disagrees :
    ∃ s e, remoteForward.run {} (cleanShutdown (.disconnected "Disconnected")) = some s ∧
      s.returns = [e] ∧ e.result = .ok () ∧
      ({ session := .disconnected "Disconnected" } :
          DirectForward).forwardDirectTcpipStreamWithReady =
        .error ⟨"SSH forwarding session failed: Disconnected"⟩ :=
  ⟨_, _, rfl, rfl, rfl, rfl⟩

end Rssh
